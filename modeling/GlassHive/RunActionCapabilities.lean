import GlassHive.Base64
import GlassHive.RetryActions
import GlassHive.Library.Calendar
import GlassHive.Library.JsonText
import Mathlib.Data.List.Sort

/-!
# Capabilities of run actions

A capability for one action on one run is a signed payload of claims. The key of the signature is
derived from the worker and the run of the claims, so that a verifier reads the claims first and
trusts them once the signature fits.

`hmac` stands for HMAC-SHA256. A row is the list of its fields. A string that is no text of Unicode
has no base64 digits, so that capabilities are texts.
-/

namespace GlassHive.RunActions

open Json

/-- What depends on the interpreter: how far its JSON module reads, the text of a value that is no
string, and whether a float equals an integer. -/
structure Interpreter where
  limits : JsonLimits
  toText : Json → Points
  floatIs : Points → ℤ → Bool
  depth_pos : 0 < limits.depth
  digits_ge : 640 ≤ limits.digits

/-- Why there is no answer: an error of the module, or an exception that it does not catch. -/
inductive Refusal
  | action (e : RunActionError)
  | uncaught
  deriving DecidableEq, Repr

def actionEndpoint : Points := Points.ofString "/v1/run-actions"

def actionCapabilityVersion : ℤ := 1

def actionCapabilityType : Points := Points.ofString "glasshive.run_action.v1"

def actionRetryCapabilityTtlSeconds : ℤ := 900

def actionCancelCapabilityTtlSeconds : ℤ := 24 * 60 * 60

def actionCapabilityMaxTtlSeconds : ℤ := actionCancelCapabilityTtlSeconds

/-- `capability_invalid`. -/
def capabilityInvalid (message : String := "The action capability is invalid.")
    (statusCode : ℕ := 401) : Refusal :=
  .action ⟨"capability_invalid", message, statusCode⟩

/-! ## Fields -/

/-- `[A-Za-z0-9]`. -/
def isAlnum (c : ℕ) : Bool :=
  (65 ≤ c && c ≤ 90) || (97 ≤ c && c ≤ 122) || (48 ≤ c && c ≤ 57)

/-- `[A-Za-z0-9._:@-]`. -/
def isScopedChar (c : ℕ) : Bool :=
  isAlnum c || c == 46 || c == 95 || c == 58 || c == 64 || c == 45

/-- `_SCOPED_ID_PATTERN`. -/
def isScopedId : Points → Bool
  | [] => false
  | c :: cs => isAlnum c && cs.length ≤ 191 && cs.all isScopedChar

/-- A text that `_strict_principal` takes. -/
def isPrincipal (text : Points) : Bool :=
  !text.isEmpty && text.length ≤ 256 && text.all fun c => 32 ≤ c && c != 127

/-- `dict.get`. -/
def get (fields : List (Points × Json)) (name : String) : Json :=
  (fields.lookup (Points.ofString name)).getD .null

/-- The default limits of CPython. The texts of containers and of floats are not looked at. -/
def cpython : Interpreter where
  limits := ⟨1000, 4300⟩
  toText
    | .null => Points.ofString "None"
    | .bool b => Points.ofString (if b then "True" else "False")
    | value => dumps value
  floatIs t n := t == renderInt n ++ Points.ofString ".0"
  depth_pos := by decide
  digits_ge := by decide

variable (py : Interpreter)

/-- `bool(value)`. -/
def truthy : Json → Bool
  | .null => false
  | .bool b => b
  | .int n => n != 0
  | .float t => !py.floatIs t 0
  | .str s => !s.isEmpty
  | .arr vs => !vs.isEmpty
  | .obj fs => !fs.isEmpty

/-- `str(value or "")`. -/
def textOrEmpty (value : Json) : Points :=
  if truthy py value then
    match value with
    | .str s => s
    | value => py.toText value
  else []

@[simp]
theorem textOrEmpty_str (s : Points) : textOrEmpty py (.str s) = s := by
  cases s <;> rfl

/-- `value == n`. -/
def isNumber (value : Json) (n : ℤ) : Bool :=
  match value with
  | .int m => m == n
  | .bool b => (if b then 1 else 0) == n
  | .float t => py.floatIs t n
  | _ => false

/-- `value == s`. -/
def isText (value : Json) (s : Points) : Bool :=
  match value with
  | .str t => t == s
  | _ => false

theorem isText_iff {v : Json} {t : Points} : isText v t = true ↔ v = .str t := by
  cases v <;> simp [isText]

/-- `_strict_scoped_id`. -/
def strictScopedId (value : Json) (name : String) : Except Refusal Points :=
  let text := Points.strip (textOrEmpty py value)
  if isScopedId text then .ok text
  else .error (capabilityInvalid s!"The action capability has an invalid {name}.")

/-- `_strict_principal`. -/
def strictPrincipal (value : Json) (name : String) : Except Refusal Points :=
  let text := Points.strip (textOrEmpty py value)
  if isPrincipal text then .ok text
  else .error (capabilityInvalid s!"The action capability has an invalid {name}.")

/-- `_strict_epoch`. -/
def strictEpoch (value : Json) (name : String) : Except Refusal ℤ :=
  match value with
  | .int (.ofNat n) => .ok n
  | _ => .error (capabilityInvalid s!"The action capability has an invalid {name}.")

/-! ## Claims -/

/-- The claims of a capability. -/
structure RunActionClaims where
  version : Json
  type : Json
  capabilityId : Points
  action : Json
  operation : Json
  projectId : Points
  workerId : Points
  runId : Points
  tenantId : Points
  ownerId : Points
  issuedAtEpoch : ℤ
  expiresAtEpoch : ℤ

/-- The dictionary of claims. -/
def RunActionClaims.fields (claims : RunActionClaims) : List (Points × Json) :=
  [(Points.ofString "version", claims.version),
   (Points.ofString "type", claims.type),
   (Points.ofString "capabilityId", .str claims.capabilityId),
   (Points.ofString "action", claims.action),
   (Points.ofString "operation", claims.operation),
   (Points.ofString "projectId", .str claims.projectId),
   (Points.ofString "workerId", .str claims.workerId),
   (Points.ofString "runId", .str claims.runId),
   (Points.ofString "tenantId", .str claims.tenantId),
   (Points.ofString "ownerId", .str claims.ownerId),
   (Points.ofString "issuedAtEpoch", .int claims.issuedAtEpoch),
   (Points.ofString "expiresAtEpoch", .int claims.expiresAtEpoch)]

/-- The names of the claims. -/
def claimNames : List Points :=
  ["version", "type", "capabilityId", "action", "operation", "projectId", "workerId", "runId",
    "tenantId", "ownerId", "issuedAtEpoch", "expiresAtEpoch"].map Points.ofString

/-- The fields in the order of their names. -/
def sortFields (fields : List (Points × Json)) : List (Points × Json) :=
  fields.insertionSort fun f g => f.1 ≤ g.1

/-- `str.encode`. -/
def encode (t : Points) : Except Refusal (List UInt8) :=
  match Points.utf8 t with
  | none => .error .uncaught
  | some bytes => .ok bytes

/-- `_canonical_claims`. -/
def canonicalClaims (claims : RunActionClaims) : Except Refusal (List UInt8) :=
  encode (dumps (.obj (sortFields claims.fields)))

/-- `_operation_for`. -/
def operationFor (action : Points) : Points :=
  Points.ofString (if action = Points.ofString "retry" then "workspace_continue" else "cancel")

/-- The actions that there are. -/
def isAction (action : Points) : Bool :=
  action = Points.ofString "retry" || action = Points.ofString "cancel"

/-- `_strict_claims`. -/
def strictClaims (raw : Json) : Except Refusal RunActionClaims :=
  match raw with
  | .obj raw =>
    if !claimNames.all (fun name => name ∈ raw.map Prod.fst) ||
        !raw.all (fun field => field.1 ∈ claimNames) then
      .error capabilityInvalid
    else if !isNumber py (get raw "version") actionCapabilityVersion ||
        !isText (get raw "type") actionCapabilityType then
      .error (capabilityInvalid "The action capability version is invalid.")
    else if !isAction (textOrEmpty py (get raw "action")) ||
        !isText (get raw "operation") (operationFor (textOrEmpty py (get raw "action"))) then
      .error (capabilityInvalid "The action capability operation is invalid.")
    else do
      let capabilityId ← strictScopedId py (get raw "capabilityId") "capabilityId"
      let projectId ← strictScopedId py (get raw "projectId") "projectId"
      let workerId ← strictScopedId py (get raw "workerId") "workerId"
      let runId ← strictScopedId py (get raw "runId") "runId"
      let tenantId ← strictPrincipal py (get raw "tenantId") "tenantId"
      let ownerId ← strictPrincipal py (get raw "ownerId") "ownerId"
      let issuedAt ← strictEpoch (get raw "issuedAtEpoch") "issuedAtEpoch"
      let expiresAt ← strictEpoch (get raw "expiresAtEpoch") "expiresAtEpoch"
      if expiresAt ≤ issuedAt || actionCapabilityMaxTtlSeconds < expiresAt - issuedAt then
        .error (capabilityInvalid "The action capability lifetime is invalid.")
      else
        .ok {
          version := get raw "version"
          type := get raw "type"
          action := get raw "action"
          operation := get raw "operation"
          issuedAtEpoch := issuedAt
          expiresAtEpoch := expiresAt
          capabilityId, projectId, workerId, runId, tenantId, ownerId }
  | _ => .error capabilityInvalid

/-! ## Verification -/

/-- `_b64url_decode`. -/
def b64urlDecode (value : Text) : Except Refusal (List UInt8) :=
  if value.isEmpty || 8192 < value.length || !value.all isBase64 then .error capabilityInvalid
  else
    match base64Decode value with
    | none => .error capabilityInvalid
    | some decoded => if base64Encode decoded = value then .ok decoded else .error capabilityInvalid

/-- `json.loads(payload.decode("utf-8"))`. -/
def loadPayload (payload : List UInt8) : Except Refusal Json :=
  match Points.ofUtf8 payload with
  | none => .error capabilityInvalid
  | some text =>
    match loads py.limits text with
    | .ok raw => .ok raw
    | .error .malformed => .error capabilityInvalid
    | .error .beyondLimits => .error .uncaught

/-- `unverified_run_action_claims`. -/
def unverifiedRunActionClaims (capability : Text) : Except Refusal RunActionClaims :=
  if 16384 < capability.length then .error capabilityInvalid
  else
    match capability.splitOn '.' with
    | [payloadSegment, _] => do
      let payload ← b64urlDecode payloadSegment
      let raw ← loadPayload py payload
      strictClaims py raw
    | _ => .error capabilityInvalid

/-- The context of a key. -/
def actionContext (workerId runId : Points) : Points :=
  actionCapabilityType ++ 58 :: (workerId ++ 58 :: runId)

/-- `segment.encode("ascii")`, of base64 digits. -/
def ascii (segment : Text) : List UInt8 :=
  segment.map fun c => UInt8.ofNat c.toNat

variable (hmac : List UInt8 → List UInt8 → List UInt8)

/-- `_action_secret`. -/
def actionSecret (secret workerId runId : Points) : Except Refusal (List UInt8) := do
  let context ← encode (actionContext workerId runId)
  let key ← encode secret
  return hmac key context

/-- `verify_run_action_capability`, with the time that it reads by default. -/
def verifyRunActionCapability (capability : Text) (secret : Points) (nowEpoch : ℤ) :
    Except Refusal RunActionClaims := do
  let claims ← unverifiedRunActionClaims py capability
  if secret.isEmpty then .error capabilityInvalid
  else
    match capability.splitOn '.' with
    | [payloadSegment, signatureSegment] => do
      let key ← actionSecret hmac secret claims.workerId claims.runId
      let supplied ← b64urlDecode signatureSegment
      if hmac key (ascii payloadSegment) ≠ supplied then .error capabilityInvalid
      else if claims.expiresAtEpoch ≤ nowEpoch then
        .error (.action ⟨"capability_expired", "The action capability has expired.", 401⟩)
      else if nowEpoch + 30 < claims.issuedAtEpoch then
        .error (capabilityInvalid "The action capability is not yet valid.")
      else .ok claims
    | _ => .error .uncaught

/-! ## Minting -/

/-- A number with leading zeros. -/
def padded (length n : ℕ) : Points :=
  List.replicate (length - (decimal n).length) 48 ++ decimal n

/-- `datetime.fromtimestamp(t, tz=timezone.utc).isoformat()`, for the years from 1 to 9999. -/
def isoTimestamp (t : ℤ) : Except Refusal Points :=
  if -62135596800 ≤ t ∧ t ≤ 253402300799 then
    let date := Calendar.civil (t / 86400)
    let second := (t % 86400).toNat
    .ok (padded 4 date.year.toNat ++ 45 :: padded 2 date.month ++ 45 :: padded 2 date.day ++
      84 :: padded 2 (second / 3600) ++ 58 :: padded 2 (second / 60 % 60) ++
      58 :: padded 2 (second % 60) ++ Points.ofString "+00:00")
  else .error .uncaught

/-- `uuid.uuid4().hex`. -/
def uuidHex (uuid : ℕ) : Points :=
  (List.range 32).map fun i => hexDigit (uuid / 16 ^ (31 - i) % 16)

/-- How long a minted capability lives. -/
def ttl (action : Points) (ttlSeconds : Option ℤ) : ℤ :=
  let defaultTtl :=
    if action = Points.ofString "retry" then actionRetryCapabilityTtlSeconds
    else actionCancelCapabilityTtlSeconds
  max 30 (min (ttlSeconds.getD defaultTtl) actionCapabilityMaxTtlSeconds)

/-- The claims that `mint_run_action_capability` signs. -/
def mintedClaims (worker run : List (Points × Json)) (action : Points) (nowEpoch : ℤ)
    (ttlSeconds : Option ℤ) (uuid : ℕ) : Except Refusal RunActionClaims := do
  let tenant := get worker "tenant_id"
  let projectId ← strictScopedId py (get worker "project_id") "projectId"
  let workerId ← strictScopedId py (get worker "worker_id") "workerId"
  let runId ← strictScopedId py (get run "run_id") "runId"
  let tenantId ← strictPrincipal py
    (if truthy py tenant then tenant else .str (Points.ofString "local")) "tenantId"
  let ownerId ← strictPrincipal py (get worker "owner_id") "ownerId"
  return {
    version := .int actionCapabilityVersion
    type := .str actionCapabilityType
    capabilityId := Points.ofString "gac_" ++ uuidHex uuid
    action := .str action
    operation := .str (operationFor action)
    issuedAtEpoch := nowEpoch
    expiresAtEpoch := nowEpoch + ttl action ttlSeconds
    projectId, workerId, runId, tenantId, ownerId }

/-- What `mint_run_action_capability` returns. -/
structure MintedCapability where
  version : ℤ
  capabilityId : Points
  action : Points
  operation : Points
  endpoint : Points
  projectId : Points
  workerId : Points
  runId : Points
  expiresAt : Points
  capability : Text
  deriving DecidableEq

/-- The payload with its signature. -/
def capabilityText (key payload : List UInt8) : Text :=
  base64Encode payload ++ '.' :: base64Encode (hmac key (ascii (base64Encode payload)))

/-- `mint_run_action_capability`, with the time that it reads by default. -/
def mintRunActionCapability (secret : Points) (worker run : List (Points × Json)) (action : Points)
    (nowEpoch : ℤ) (ttlSeconds : Option ℤ) (uuid : ℕ) : Except Refusal MintedCapability :=
  if secret.isEmpty then
    .error (.action ⟨"capability_unavailable", "Action capability signing is unavailable.", 503⟩)
  else if !isAction action then
    .error (capabilityInvalid "The action capability operation is invalid." 400)
  else do
    let claims ← mintedClaims py worker run action nowEpoch ttlSeconds uuid
    let payload ← canonicalClaims claims
    let key ← actionSecret hmac secret claims.workerId claims.runId
    let expiresAt ← isoTimestamp claims.expiresAtEpoch
    return {
      version := actionCapabilityVersion
      capabilityId := claims.capabilityId
      operation := operationFor action
      endpoint := actionEndpoint
      projectId := claims.projectId
      workerId := claims.workerId
      runId := claims.runId
      capability := capabilityText hmac key payload
      action, expiresAt }

end GlassHive.RunActions
