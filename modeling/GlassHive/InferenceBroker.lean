import GlassHive.Library.Text
import Mathlib.Data.List.Sort
import Mathlib.Data.List.Dedup

/-!
# Requests to the inference broker

The broker issues a grant for one run of a worker on a signed assertion, and revokes it on another
one that carries the token of the grant. What it replies to the first is verified against the run
before anybody uses it.

Texts are lists of characters. `GrantCodec` stands for HMAC-SHA256, base64, and the JSON and
datetime modules.
-/

namespace GlassHive

/-! ## Values of a reply -/

/-- A value of a reply. Of a float, an array and an object the text that `str` makes of it is kept,
and of a float its truth and what `int` makes of it. -/
inductive BrokerValue
  | null
  | bool (b : Bool)
  | int (n : ℤ)
  | float (text : Text) (truthy : Bool) (integral : Except String ℤ)
  | str (s : Text)
  | array (items : List BrokerValue) (text : Text)
  | object (fields : List (String × BrokerValue)) (text : Text)
  deriving Repr

/-- The fields of an object. -/
abbrev BrokerFields := List (String × BrokerValue)

/-- What `payload.get` returns. -/
def BrokerFields.get (fields : BrokerFields) (key : String) : BrokerValue :=
  (fields.lookup key).getD .null

/-- `InferenceBrokerError`. -/
structure InferenceBrokerError where
  message : String
  code : String := "inference_broker_failed"
  deriving DecidableEq, Repr

/-- What a call raises: the typed failure, or an exception of another class. -/
inductive BrokerException
  | broker (e : InferenceBrokerError)
  | other (name : String)
  deriving DecidableEq, Repr

/-- `raise InferenceBrokerError`. -/
def brokerError {α : Type} (message code : String) : Except BrokerException α :=
  .error (.broker { message, code })

/-- Base64 with JSON on a token, the signature of claims under the purpose of a grant, `int` on a
text, and the timestamp of a date in ISO 8601. An error is the name of an exception that the client
does not catch; `none` is one that it does. -/
structure GrantCodec where
  loads : Text → Except String (Option BrokerValue)
  sign : Text → BrokerFields → Except String Text
  parseInt : Text → Option ℤ
  timestamp : Text → Except String (Option ℤ)

namespace BrokerValue

/-- `bool(value)`. -/
def truthy : BrokerValue → Bool
  | .null => false
  | .bool b => b
  | .int n => n != 0
  | .float _ truthy _ => truthy
  | .str s => !s.isEmpty
  | .array items _ => !items.isEmpty
  | .object fields _ => !fields.isEmpty

/-- `str(value)`. -/
def toText : BrokerValue → Text
  | .null => "None".toList
  | .bool true => "True".toList
  | .bool false => "False".toList
  | .int n => (toString n).toList
  | .float text _ _ => text
  | .str s => s
  | .array _ text => text
  | .object _ text => text

/-- `str(value or "")`. -/
def textOrEmpty (value : BrokerValue) : Text :=
  if value.truthy then value.toText else []

/-- `int(value or 0)`. -/
def intOrZero (codec : GrantCodec) (value : BrokerValue) : Except BrokerException ℤ :=
  if !value.truthy then .ok 0
  else match value with
  | .bool _ => .ok 1
  | .int n => .ok n
  | .float _ _ (.ok n) => .ok n
  | .float _ _ (.error name) => .error (.other name)
  | .str s =>
    match codec.parseInt s with
    | some n => .ok n
    | none => .error (.other "ValueError")
  | _ => .error (.other "TypeError")

/-- `tuple(value or ())`. -/
def tupleOrEmpty (value : BrokerValue) : Except BrokerException (List BrokerValue) :=
  if !value.truthy then .ok []
  else match value with
  | .array items _ => .ok items
  | .str s => .ok (s.map fun c => .str [c])
  | .object fields _ => .ok (fields.map fun f => .str f.1.toList)
  | _ => .error (.other "TypeError")

/-- `value == text`. -/
def isText (value : BrokerValue) (text : Text) : Bool :=
  match value with
  | .str s => s == text
  | _ => false

/-- `value is True`. -/
def isTrue : BrokerValue → Bool
  | .bool b => b
  | _ => false

/-- `value if isinstance(value, dict) else {}`. -/
def fieldsOrEmpty : BrokerValue → BrokerFields
  | .object fields _ => fields
  | _ => []

/-- `value == [text]`. -/
def isSingleton (value : BrokerValue) (text : Text) : Bool :=
  match value with
  | .array [item] _ => item.isText text
  | _ => false

end BrokerValue

/-! ## Scopes -/

/-- `InferenceBrokerOwnerBinding`, without its proof. -/
structure OwnerBinding where
  tenantId : Text
  ownerId : Text
  librechatUserId : Text
  deriving DecidableEq, Repr

/-- `InferenceBrokerConfig`, as far as requests and replies are concerned. -/
structure InferenceBrokerConfig where
  issuerUrl : Text
  proxyBaseUrl : Text
  secret : Text
  brokerTenantId : Text
  ownerBindings : List OwnerBinding
  deriving DecidableEq, Repr

def adapterId : Text := "openai_responses_v1".toList

def issuerAudience : Text := "glasshive-inference-grant-issuer".toList

def grantAudience : Text := "glasshive-inference-proxy".toList

def issuerTtlSeconds : ℕ := 60

def grantTtlSeconds : ℕ := 600

/-- A character of `_SCOPE_PATTERN`. -/
def isScopeChar (c : Char) : Bool :=
  c.isAlphanum || c ∈ ['_', '.', ':', '-']

/-- `_SCOPE_PATTERN`. -/
def isScope (text : Text) : Bool :=
  1 ≤ text.length && text.length ≤ 200 && text.all isScopeChar

/-- `_LOCAL_IDENTITY_PATTERN`. -/
def isLocalIdentity (text : Text) : Bool :=
  1 ≤ text.length && text.length ≤ 512 && text.all fun c => 32 ≤ c.toNat && c.toNat != 127

/-- `_MODEL_PATTERN`. -/
def isModel (text : Text) : Bool :=
  1 ≤ text.length && text.length ≤ 120 && text.all isScopeChar

/-- `_GRANT_ID_PATTERN`. -/
def isGrantId (text : Text) : Bool :=
  let head := "ghcb_infer_".toList
  text.take head.length == head && (text.drop head.length).length == 64 &&
    (text.drop head.length).all fun c => c.isDigit || ('a' ≤ c && c ≤ 'f')

/-- `_normalized_scope`. -/
def normalizedScope (value : Text) (label : String) : Except BrokerException Text :=
  let normalized := Text.strip value
  if isScope normalized then .ok normalized
  else brokerError s!"GlassHive inference {label} is not a valid broker scope" "invalid_scope"

/-- `_normalized_local_identity`. -/
def normalizedLocalIdentity (value : Text) (label : String) : Except BrokerException Text :=
  let normalized := Text.strip value
  if isLocalIdentity normalized then .ok normalized
  else brokerError s!"GlassHive canonical {label} identity is invalid" "owner_binding_invalid"

/-- The order of `sorted` on texts. -/
def textLe : Text → Text → Bool
  | [], _ => true
  | _ :: _, [] => false
  | a :: as, b :: bs => a < b || (a == b && textLe as bs)

/-- `_normalized_models`. -/
def normalizedModels (models : List BrokerValue) : Except BrokerException (List Text) :=
  let texts := (models.map fun m => Text.strip m.toText).filter fun m => !m.isEmpty
  let normalized := texts.dedup.insertionSort fun a b => textLe a b = true
  if normalized.isEmpty || normalized.length != models.length || 32 < normalized.length ||
      normalized.any (fun m => !isModel m) then
    brokerError "GlassHive inference models are not valid for the reviewed broker adapter"
      "invalid_models"
  else .ok normalized

/-- `hmac.compare_digest` on texts. -/
def compareDigest (a b : Text) : Except BrokerException Bool :=
  if a.all (fun c => c.toNat < 128) && b.all (fun c => c.toNat < 128) then .ok (a == b)
  else .error (.other "TypeError")

/-- The binding is of the owner. -/
def OwnerBinding.matchesOwner (b : OwnerBinding) (tenantId ownerId : Text) :
    Except BrokerException Bool := do
  if ← compareDigest b.tenantId tenantId then compareDigest b.ownerId ownerId
  else return false

/-- `principal_for_owner`. -/
def principalForOwner (config : Option InferenceBrokerConfig) (tenantId ownerId : Text) :
    Except BrokerException Text := do
  let some config := config
    | brokerError "GlassHive inference broker is not configured" "broker_unavailable"
  let normalizedTenant ← normalizedLocalIdentity tenantId "tenant"
  let normalizedOwner ← normalizedLocalIdentity ownerId "owner"
  let bound ← config.ownerBindings.filterM fun b => b.matchesOwner normalizedTenant normalizedOwner
  match bound with
  | [binding] => return binding.librechatUserId
  | _ =>
    brokerError "This GlassHive owner has no explicitly verified LibreChat principal binding"
      "owner_binding_required"

/-! ## Requests -/

/-- The run that a grant is for. -/
structure GrantScope where
  workerId : Text
  runId : Text
  route : Text
  models : List Text
  deriving DecidableEq, Repr

inductive GrantAction
  | issue
  | revoke
  deriving DecidableEq, Repr

/-- The claims of an assertion, without the signature. -/
structure IssuerAssertion where
  tenantId : Text
  userId : Text
  scope : GrantScope
  action : GrantAction
  iat : ℕ
  exp : ℕ
  nonce : Text
  deriving DecidableEq, Repr

/-- `_issuer_assertion`, with its clock reading and its nonce. -/
def issuerAssertion (config : Option InferenceBrokerConfig) (tenantId ownerId : Text)
    (scope : GrantScope) (action : GrantAction) (now : ℕ) (nonce : Text) :
    Except BrokerException IssuerAssertion := do
  let some c := config
    | brokerError "GlassHive inference broker is not configured" "broker_unavailable"
  let userId ← principalForOwner config tenantId ownerId
  let workerId ← normalizedScope scope.workerId "worker"
  let runId ← normalizedScope scope.runId "run"
  return {
    tenantId := c.brokerTenantId, userId, action, nonce
    scope := { scope with workerId, runId }
    iat := now, exp := now + issuerTtlSeconds }

/-- A request: with an assertion, and with a token when it revokes. -/
structure BrokerRequest where
  path : String
  assertion : IssuerAssertion
  grantToken : Option Text
  deriving DecidableEq, Repr

/-- What becomes of a request: the status and the object of the reply, or an exception. -/
abbrev BrokerReply := Except BrokerException (ℕ × BrokerFields)

/-- The messages of `_post`. -/
def rejectionMessage (code : Text) : String :=
  if code = "credential_action_required".toList then
    "The selected OpenAI connection must be connected again"
  else if code = "enterprise_route_unavailable".toList then
    "The selected enterprise OpenAI route is unavailable"
  else if code = "personal_credentials_required".toList then
    "This user requires a personal OpenAI connection"
  else if code = "user_unavailable".toList then
    "The verified LibreChat user is unavailable"
  else "GlassHive inference broker rejected this run"

/-- What `_post` makes of a reply. -/
def postResult (reply : BrokerReply) : Except BrokerException BrokerFields := do
  let (status, payload) ← reply
  if status < 200 ∨ 300 ≤ status then
    let code := (payload.get "error").fieldsOrEmpty.get "code"
    let code := if code.truthy then Text.strip code.toText else "inference_broker_rejected".toList
    brokerError (rejectionMessage code) (String.ofList code)
  else return payload

/-! ## Grants -/

/-- `InferenceBrokerGrant`. -/
structure InferenceBrokerGrant where
  token : Text
  grantId : Text
  tenantId : Text
  userId : Text
  scope : GrantScope
  baseUrl : Text
  expiresAt : ℤ
  deriving DecidableEq, Repr

/-- `rstrip("/")`. -/
def rstripSlash (text : Text) : Text :=
  (text.reverse.dropWhile (· == '/')).reverse

/-- `text.replace("Z", "+00:00")`. -/
def replaceZulu (text : Text) : Text :=
  text.flatMap fun c => if c = 'Z' then "+00:00".toList else [c]

def invalidGrant : String := "GlassHive inference broker returned an invalid grant"

/-- The claims of a token whose signature is that of the broker. -/
def signedGrantClaims (codec : GrantCodec) (config : InferenceBrokerConfig) (token : Text) :
    Except BrokerException BrokerFields :=
  if token.isEmpty || 8192 < token.length then brokerError invalidGrant "broker_invalid_response"
  else match codec.loads token with
  | .error name => .error (.other name)
  | .ok (some (.object fields _)) => do
    let signature := match fields.lookup "sig" with
      | some value => value.toText
      | none => []
    let claims := fields.filter fun f => f.1 != "sig"
    let expected ← (codec.sign config.secret claims).mapError .other
    let signed ← if signature.isEmpty then pure false else compareDigest signature expected
    if signed then return claims
    else
      brokerError "GlassHive inference broker grant signature is invalid"
        "broker_invalid_response"
  | .ok _ => brokerError invalidGrant "broker_invalid_response"

/-- The claims are of the run, and live at the time. -/
def claimsInScope (config : InferenceBrokerConfig) (scope : GrantScope) (claims : BrokerFields)
    (expectedUser : Text) (claimModels : List Text) (issuedAt expiresAt : ℤ) (now : ℕ) : Bool :=
  (claims.get "aud").isText grantAudience &&
    (claims.get "tenant_id").isText config.brokerTenantId &&
    (claims.get "user_id").isText expectedUser &&
    (claims.get "worker_id").isText scope.workerId &&
    (claims.get "run_id").isText scope.runId &&
    (claims.get "provider").isText "openai".toList &&
    (claims.get "route").isText scope.route &&
    (claims.get "adapter").isText adapterId &&
    claimModels == scope.models &&
    isGrantId (claims.get "grant_id").textOrEmpty &&
    decide (issuedAt ≤ now + 30) && decide (now < expiresAt) && decide (issuedAt < expiresAt) &&
    decide (expiresAt - issuedAt ≤ grantTtlSeconds)

/-- The payload describes the reviewed adapter and repeats the claims. -/
def payloadInScope (config : InferenceBrokerConfig) (scope : GrantScope) (payload : BrokerFields)
    (grantId : Text) : Bool :=
  let adapter := (payload.get "adapter").fieldsOrEmpty
  (payload.get "grantId").textOrEmpty == grantId &&
    (payload.get "provider").textOrEmpty == "openai".toList &&
    (payload.get "route").textOrEmpty == scope.route &&
    (adapter.get "id").textOrEmpty == adapterId &&
    (adapter.get "auth").textOrEmpty == "bearer_grant".toList &&
    (adapter.get "paths").isSingleton "/responses".toList &&
    (adapter.get "supportsStreaming").isTrue &&
    rstripSlash (adapter.get "baseUrl").textOrEmpty == config.proxyBaseUrl ++ "/openai/v1".toList

/-- `_verified_grant`, with its clock reading. -/
def verifiedGrant (codec : GrantCodec) (config : InferenceBrokerConfig) (tenantId ownerId : Text)
    (scope : GrantScope) (payload : BrokerFields) (now : ℕ) :
    Except BrokerException InferenceBrokerGrant := do
  let token := (payload.get "grantToken").textOrEmpty
  let claims ← signedGrantClaims codec config token
  let expectedUser ← principalForOwner (some config) tenantId ownerId
  let claimModels ← normalizedModels (← (claims.get "models").tupleOrEmpty)
  let grantId := (claims.get "grant_id").textOrEmpty
  let expiresAt ← (claims.get "exp").intOrZero codec
  let issuedAt ← (claims.get "iat").intOrZero codec
  if !(claimsInScope config scope claims expectedUser claimModels issuedAt expiresAt now &&
      payloadInScope config scope payload grantId) then
    brokerError "GlassHive inference broker grant scope does not match this run"
      "broker_invalid_response"
  else match codec.timestamp (replaceZulu (payload.get "expiresAt").textOrEmpty) with
  | .error name => .error (.other name)
  | .ok none =>
    brokerError "GlassHive inference broker returned an invalid grant expiry"
      "broker_invalid_response"
  | .ok (some responseExpiry) =>
    if 1 < (responseExpiry - expiresAt).natAbs then
      brokerError "GlassHive inference broker returned an inconsistent grant expiry"
        "broker_invalid_response"
    else return {
      token, grantId, scope, expiresAt
      tenantId := config.brokerTenantId, userId := expectedUser
      baseUrl := config.proxyBaseUrl ++ "/openai/v1".toList }

/-- The reply of the broker confirms that a grant is revoked. -/
def confirmsRevocation (payload : BrokerFields) (grant : InferenceBrokerGrant) : Bool :=
  (payload.get "revoked").isTrue && (payload.get "grantId").textOrEmpty == grant.grantId

/-! ## What is verified -/

theorem eq_ok_of_bind {ε α β : Type} {x : Except ε α} {f : α → Except ε β} {b : β}
    (h : (x >>= f) = .ok b) : ∃ a, x = .ok a ∧ f a = .ok b := by
  cases x with
  | error => simp [bind, Except.bind] at h
  | ok a => exact ⟨a, rfl, h⟩

/-- A verified grant is of the run it was asked for, and expires within the lifetime of a grant and
the skew of the clocks. -/
theorem verifiedGrant_eq_ok {codec : GrantCodec} {config : InferenceBrokerConfig}
    {tenantId ownerId : Text} {scope : GrantScope} {payload : BrokerFields} {now : ℕ}
    {grant : InferenceBrokerGrant}
    (h : verifiedGrant codec config tenantId ownerId scope payload now = .ok grant) :
    grant.scope = scope ∧ grant.token = (payload.get "grantToken").textOrEmpty ∧
      grant.expiresAt ≤ now + 630 := by
  unfold verifiedGrant at h
  obtain ⟨claims, -, h⟩ := eq_ok_of_bind h
  obtain ⟨expectedUser, -, h⟩ := eq_ok_of_bind h
  obtain ⟨items, -, h⟩ := eq_ok_of_bind h
  obtain ⟨claimModels, -, h⟩ := eq_ok_of_bind h
  obtain ⟨expiresAt, -, h⟩ := eq_ok_of_bind h
  obtain ⟨issuedAt, -, h⟩ := eq_ok_of_bind h
  split at h
  · cases h
  rename_i hvalid
  split at h
  · cases h
  · cases h
  split at h
  · cases h
  obtain rfl := Except.ok.inj h
  refine ⟨rfl, rfl, ?_⟩
  rw [Bool.not_eq_true', Bool.not_eq_false, Bool.and_eq_true] at hvalid
  have hclaims := hvalid.1
  simp only [claimsInScope, Bool.and_eq_true, decide_eq_true_eq] at hclaims
  have hissued : issuedAt ≤ now + 30 := hclaims.1.1.1.2
  have hlife : expiresAt - issuedAt ≤ grantTtlSeconds := hclaims.2
  have httl : (grantTtlSeconds : ℤ) = 600 := rfl
  dsimp only
  omega

end GlassHive
