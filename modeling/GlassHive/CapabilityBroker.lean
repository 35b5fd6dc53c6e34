import GlassHive.InferenceBroker
import GlassHive.Library.Fallible

/-!
# Requests to the capability broker

The capability broker grants a run access to the connected accounts of its owner. Its reply carries
a bundle for the worker, the readiness of the connections and, when there is something to grant, a
reference to the grant, which is verified against the run.

`CapabilityCodec` stands for `int` on a text and for the JSON module.
-/

namespace GlassHive

/-- `CapabilityBrokerError`. -/
structure CapabilityBrokerError where
  message : String
  code : String := "capability_broker_failed"
  deriving DecidableEq, Repr

/-- What a call raises: the typed failure, or an exception of another class. -/
inductive CapabilityException
  | broker (e : CapabilityBrokerError)
  | other (name : String)
  deriving DecidableEq, Repr

/-- `raise CapabilityBrokerError`. -/
def capabilityError {α : Type} (message code : String) : Except CapabilityException α :=
  .error (.broker { message, code })

/-- The same exception, of the functions that both brokers have. -/
def CapabilityException.ofBroker : BrokerException → CapabilityException
  | .broker e => .broker { message := e.message, code := e.code }
  | .other name => .other name

/-- `int` on a text, and the size of `_stable_json` in bytes; an error is the name of the exception
that is raised. -/
structure CapabilityCodec where
  parseInt : Text → Option ℤ
  stableJsonWidth : BrokerFields → Except String ℕ

/-! ## Owners -/

structure CapabilityOwnerBinding extends OwnerBinding where
  proof : Text
  deriving DecidableEq, Repr

/-- `CapabilityBrokerConfig`, as far as requests and replies are concerned. -/
structure CapabilityBrokerConfig where
  issuerUrl : Text
  secret : Text
  brokerTenantId : Text
  ownerBindings : List CapabilityOwnerBinding
  identityBinding : Text := "operator_verified".toList
  deriving DecidableEq, Repr

/-- `_SHARED_OIDC_PRINCIPAL_PATTERN`. -/
def isSharedPrincipal (text : Text) : Bool :=
  let head := "usr_".toList
  text.take head.length == head && (text.drop head.length).length == 32 &&
    (text.drop head.length).all fun c => c.isDigit || ('a' ≤ c && c ≤ 'f')

/-- `_normalized_scope`. -/
def capabilityScope (value : Text) (label : String) : Except CapabilityException Text :=
  let normalized := Text.strip value
  if isScope normalized then .ok normalized
  else capabilityError s!"GlassHive capability {label} is not a valid broker scope" "invalid_scope"

/-- `binding_for_owner`: the principal and its proof. -/
def bindingForOwner (config : Option CapabilityBrokerConfig) (tenantId ownerId : Text) :
    Except CapabilityException (Text × Text) := do
  let some config := config
    | capabilityError "GlassHive connected capability broker is not configured"
        "broker_unavailable"
  let cleanTenant ← (normalizedLocalIdentity tenantId "tenant").mapError .ofBroker
  let cleanOwner ← (normalizedLocalIdentity ownerId "owner").mapError .ofBroker
  let bound ← config.ownerBindings.filterM fun b =>
    (b.matchesOwner cleanTenant cleanOwner).mapError .ofBroker
  match bound with
  | [binding] => return (binding.librechatUserId, binding.proof)
  | _ :: _ :: _ =>
    capabilityError "This GlassHive owner has multiple connected-account bindings"
      "owner_binding_required"
  | [] =>
    if config.identityBinding ≠ "shared_oidc_subject".toList then
      capabilityError "This GlassHive owner has no explicitly verified LibreChat principal binding"
        "owner_binding_required"
    else
      let sameTenant ← (compareDigest cleanTenant config.brokerTenantId).mapError .ofBroker
      if !sameTenant then
        capabilityError "This GlassHive tenant is outside the shared OIDC binding"
          "owner_binding_required"
      else if !isSharedPrincipal cleanOwner then
        capabilityError "This GlassHive owner is not a canonical shared OIDC principal"
          "owner_binding_required"
      else return (cleanOwner, "shared_oidc_subject".toList)

/-! ## Requests -/

inductive CapabilityAction
  | grant
  | revoke
  deriving DecidableEq, Repr

/-- The claims of an assertion, without the signature. -/
structure CapabilityAssertion where
  tenantId : Text
  userId : Text
  bindingProof : Text
  action : CapabilityAction
  executionMode : Text
  workerId : Text
  runId : Text
  iat : ℕ
  exp : ℕ
  nonce : Text
  deriving DecidableEq, Repr

/-- `_assertion`, with its clock reading and its nonce. -/
def capabilityAssertion (config : Option CapabilityBrokerConfig) (tenantId ownerId : Text)
    (action : CapabilityAction) (executionMode workerId runId : Text) (now : ℕ) (nonce : Text) :
    Except CapabilityException CapabilityAssertion := do
  let some c := config | .error (.other "AssertionError")
  let (userId, bindingProof) ← bindingForOwner config tenantId ownerId
  let workerId ← capabilityScope workerId "worker"
  let runId ← capabilityScope runId "run"
  return {
    tenantId := c.brokerTenantId, userId, bindingProof, action, executionMode, workerId, runId
    iat := now, exp := now + issuerTtlSeconds, nonce }

/-- A request: with an assertion, and with the id and the end of a grant when it revokes. -/
structure CapabilityHttpRequest where
  path : String
  assertion : CapabilityAssertion
  revokes : Option (Text × ℤ)
  deriving DecidableEq, Repr

/-- What becomes of a request: the status and the object of the reply, or an exception. -/
abbrev CapabilityReply := Except CapabilityException (ℕ × BrokerFields)

/-- `str(value or default)`. -/
def BrokerValue.textOr (value : BrokerValue) (default : String) : Text :=
  if value.truthy then value.toText else default.toList

/-- The messages of `_post`. -/
def unavailableMessage (code : Text) : String :=
  if code = "owner_binding_required".toList then
    "This GlassHive user is not mapped to connected accounts"
  else if code = "connected_account_action_required".toList then
    "A connected account must be reconnected"
  else if code = "user_unavailable".toList then
    "The verified connected-account user is unavailable"
  else if code = "registry_unavailable".toList then
    "Connected-account readiness is temporarily unavailable"
  else if code = "grant_unavailable".toList then
    "Connected-account authorization is temporarily unavailable"
  else "GlassHive connected capability broker is unavailable"

/-- What `_post` makes of a reply. -/
def capabilityPostResult (reply : CapabilityReply) : Except CapabilityException BrokerFields := do
  let (status, payload) ← reply
  if status < 200 ∨ 300 ≤ status then
    let error := (payload.get "error").fieldsOrEmpty
    let code := Text.strip ((error.get "code").textOr "broker_unavailable")
    capabilityError (unavailableMessage code) (String.ofList code)
  else return payload

/-! ## Grants -/

structure CapabilityGrantRef where
  grantId : Text
  tenantId : Text
  userId : Text
  workerId : Text
  runId : Text
  executionMode : Text
  expiresAt : ℤ
  renewableUntil : ℤ
  deriving DecidableEq, Repr

/-- The key under which a grant is recorded. -/
def CapabilityGrantRef.key (ref : CapabilityGrantRef) : Text × Text :=
  (ref.workerId, ref.runId)

structure CapabilityConnection where
  connectionId : Text
  label : Text
  kind : Text
  status : Text
  deriving DecidableEq, Repr

structure CapabilityReadiness where
  status : Text
  reason : Text
  connections : List CapabilityConnection
  deriving DecidableEq, Repr

/-- What `issue` returns. -/
structure IssuedCapability where
  bundle : BrokerFields
  ref : Option CapabilityGrantRef
  readiness : CapabilityReadiness

/-- What `issue` returns without a configuration. -/
def unconfiguredCapability : IssuedCapability where
  bundle := []
  ref := none
  readiness := ⟨"broker_unavailable".toList, "not_configured".toList, []⟩

/-- `int(value or 0)`. -/
def BrokerValue.capabilityInt (codec : CapabilityCodec) (value : BrokerValue) :
    Except CapabilityException ℤ :=
  if !value.truthy then .ok 0
  else match value with
  | .bool _ => .ok 1
  | .int n => .ok n
  | .float _ _ (.ok n) => .ok n
  | .float _ _ (.error name) => .error (.other name)
  | .str s =>
    match codec.parseInt s with
    | some n => .ok n
    | none => .error (.other "ValueError")
  | _ => .error (.other "TypeError")

/-- `_READINESS_STATES`. -/
def readinessStates : List String :=
  ["ready", "degraded", "action_required", "no_connections", "broker_unavailable"]

def invalidReadiness {α : Type} : Except CapabilityException α :=
  capabilityError "GlassHive connected capability broker returned invalid readiness"
    "broker_invalid_response"

/-- One connection of `_redacted_status`. -/
def redactedConnection (item : BrokerFields) : Except CapabilityException CapabilityConnection :=
  let status := Text.strip (item.get "status").textOrEmpty
  if status = "ready".toList ∨ status = "action_required".toList then
    .ok {
      connectionId := (item.get "connection_id").textOrEmpty.take 240
      label := ((item.get "label").textOr "Connected service").take 200
      kind := ((item.get "kind").textOr "connected_service").take 200
      status }
  else invalidReadiness

/-- What an item of the connections becomes. -/
def redactedItem : BrokerValue → Except CapabilityException CapabilityConnection
  | .object item _ => redactedConnection item
  | _ => invalidReadiness

/-- `_redacted_status`, of the status, the reason and the connections. -/
def redactedStatus (status reason connections : BrokerValue) :
    Except CapabilityException CapabilityReadiness :=
  let state := Text.strip (status.textOr "broker_unavailable")
  if !(readinessStates.map String.toList).contains state then invalidReadiness
  else match connections with
  | .array items _ =>
    if 100 < items.length then invalidReadiness
    else do
      let connections ← items.mapM redactedItem
      return ⟨state, reason.textOrEmpty.take 120, connections⟩
  | _ => invalidReadiness

def invalidCapability {α : Type} : Except CapabilityException α :=
  capabilityError "GlassHive connected capability broker returned an invalid grant"
    "broker_invalid_response"

/-- The mode of an `execution_mode`. -/
def capabilityMode (executionMode : Text) : Except CapabilityException Text :=
  let mode := Text.lower (Text.strip
    (if executionMode.isEmpty then "docker".toList else executionMode))
  if mode = "host".toList ∨ mode = "docker".toList then .ok mode
  else capabilityError "Invalid connected capability execution mode" "invalid_scope"

/-- The reference to a grant of `issue`, with its clock reading. -/
def capabilityRef (codec : CapabilityCodec) (config : CapabilityBrokerConfig)
    (tenantId ownerId workerId runId mode : Text) (grantRef : BrokerFields) (now : ℕ) :
    Except CapabilityException CapabilityGrantRef := do
  let (principal, _) ← bindingForOwner (some config) tenantId ownerId
  let ref : CapabilityGrantRef := {
    grantId := ← capabilityScope (grantRef.get "grant_id").textOrEmpty "grant"
    tenantId := ← capabilityScope (grantRef.get "tenant_id").textOrEmpty "tenant"
    userId := ← capabilityScope (grantRef.get "user_id").textOrEmpty "user"
    workerId := ← capabilityScope (grantRef.get "worker_id").textOrEmpty "worker"
    runId := ← capabilityScope (grantRef.get "run_id").textOrEmpty "run"
    executionMode := (grantRef.get "execution_mode").textOrEmpty
    expiresAt := ← (grantRef.get "exp").capabilityInt codec
    renewableUntil := ← (grantRef.get "renewable_until").capabilityInt codec }
  if ref.tenantId ≠ config.brokerTenantId ∨ ref.userId ≠ principal ∨ ref.workerId ≠ workerId ∨
      ref.runId ≠ runId ∨ ref.executionMode ≠ mode ∨ ref.expiresAt ≤ now ∨
      ref.renewableUntil < ref.expiresAt then
    capabilityError "GlassHive connected capability grant scope does not match this run"
      "broker_invalid_response"
  else return ref

/-- The readiness that a `capabilityStatus` describes. -/
def readinessOf (capabilityStatus : BrokerFields) :
    Except CapabilityException CapabilityReadiness :=
  let connections := capabilityStatus.get "connections"
  redactedStatus (capabilityStatus.get "status") (capabilityStatus.get "reason")
    (if connections.truthy then connections else .array [] [])

/-- `issue`, from its reply to its section under the lock. -/
def verifiedCapability (codec : CapabilityCodec) (config : CapabilityBrokerConfig)
    (tenantId ownerId workerId runId mode : Text) (payload : BrokerFields) (now : ℕ) :
    Except CapabilityException IssuedCapability :=
  match payload.get "bootstrapBundle", payload.get "capabilityStatus" with
  | .object bundle _, .object capabilityStatus _ => do
    let width ← (codec.stableJsonWidth bundle).mapError CapabilityException.other
    if 256 * 1024 < width then
      capabilityError "GlassHive connected capability grant is too large"
        "broker_invalid_response"
    else
      let readiness ← readinessOf capabilityStatus
      match payload.get "grantRef" with
      | .null => return ⟨bundle, none, readiness⟩
      | .object grantRef _ =>
        let ref ← capabilityRef codec config tenantId ownerId workerId runId mode grantRef now
        return ⟨bundle, some ref, readiness⟩
      | _ => invalidCapability
  | _, _ => invalidCapability

/-- The reply of the broker confirms that a grant is revoked. -/
def confirmsCapabilityRevocation (payload : BrokerFields) (ref : CapabilityGrantRef) : Bool :=
  (payload.get "revoked").isTrue && (payload.get "grant_id").textOrEmpty == ref.grantId

/-! ## What is verified -/

variable {codec : CapabilityCodec} {config : CapabilityBrokerConfig}
  {tenantId runId workerId ownerId mode : Text} {now : ℕ}

/-- A reference that was verified is of the run that it was asked for. -/
theorem capabilityRef_eq_ok {grantRef : BrokerFields} {ref : CapabilityGrantRef}
    (h : capabilityRef codec config tenantId ownerId workerId runId mode grantRef now = .ok ref) :
    ref.key = (workerId, runId) ∧ ref.executionMode = mode := by
  simp only [capabilityRef, Fallible.bind_eq_ok] at h
  obtain ⟨principal, -, grantId, -, tenant, -, user, -, worker, -, run, -, exp, -, renewable, -,
    h⟩ := h
  split at h
  · simp [capabilityError] at h
  · rename_i hmatches
    obtain rfl := Except.ok.inj h
    simp only [not_or, not_not] at hmatches
    obtain ⟨-, -, hworker, hrun, hmode, -⟩ := hmatches
    exact ⟨Prod.ext hworker hrun, hmode⟩

theorem verifiedCapability_eq_ok {payload : BrokerFields} {issued : IssuedCapability}
    (h : verifiedCapability codec config tenantId ownerId workerId runId mode payload now =
      .ok issued) :
    ∀ ref, issued.ref = some ref → ref.key = (workerId, runId) ∧ ref.executionMode = mode := by
  unfold verifiedCapability at h
  split at h
  · obtain ⟨width, -, h⟩ := Fallible.bind_eq_ok.mp h
    split at h
    · simp [capabilityError] at h
    · obtain ⟨readiness, -, h⟩ := Fallible.bind_eq_ok.mp h
      intro ref href
      split at h
      · obtain rfl := Except.ok.inj h
        simp at href
      · obtain ⟨ref', href', h⟩ := Fallible.bind_eq_ok.mp h
        obtain rfl := Except.ok.inj h
        obtain rfl := Option.some.inj href
        exact capabilityRef_eq_ok href'
      · simp [invalidCapability, capabilityError] at h
  · simp [invalidCapability, capabilityError] at h

end GlassHive
