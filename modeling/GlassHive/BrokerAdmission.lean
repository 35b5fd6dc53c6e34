import GlassHive.RunActionCapabilities
import GlassHive.Library.Fallible
import Mathlib.Data.Rat.Floor

/-!
# Broker admission

A sandbox is admitted to the capability broker by a request that binds it to a run, and by a reply
that echoes the binding and carries a grant. A scheduled sandbox prepares an authorization in the
same way. Whatever the reply is, an attempt that does not succeed should raise the error of the
module, on which the retries of the caller go by.

`AdmissionLibrary` stands for the parsers of URLs, JSON and ISO times, the signature and the HTTP
client. Times count microseconds.
-/

namespace GlassHive.BrokerAdmission

open RunActions (get isAlnum isScopedChar isText isText_iff)
open Fallible (bind_eq_ok)

/-- The fields of an object. -/
abbrev Fields := List (Points × Json)

/-- `BrokerAdmissionError`. -/
structure AdmissionError where
  code : Points
  message : Points
  needsInput : Bool := false
  retryable : Bool := false
  statusCode : Option ℤ := none
  deriving DecidableEq, Repr

/-- What is raised: the error of the module, or an exception that it does not map to this. -/
inductive Raised
  | admission (e : AdmissionError)
  | overflowError
  | recursionError
  deriving DecidableEq, Repr

/-- Why a library does not read or write a value. -/
inductive LibraryFault
  | valueError
  | recursionError
  deriving DecidableEq, Repr

/-- The parts of a URL. One that is missing is empty. -/
structure ParsedUrl where
  scheme : Points
  netloc : Points
  path : Points
  username : Points
  password : Points
  fragment : Points

/-- A reply, as far as it is looked at. -/
structure HttpReply where
  statusCode : ℤ
  cacheControl : Option Points
  content : List UInt8

/-- The libraries. A parsed time has its clock time and, when it names one, its offset. The client
has no reply when it raises an `HTTPError`. -/
structure AdmissionLibrary where
  urlparse : Points → Option ParsedUrl
  geturl : ParsedUrl → Points
  sign : Points → Points → Points
  post : Points → Points → Points → Option HttpReply
  json : List UInt8 → Except LibraryFault Json
  dumps : Json → Except LibraryFault Points
  datetimeFromisoformat : Points → Option (ℤ × Option ℤ)
  timestamp : ℤ → ℚ

/-! ## Errors -/

/-- An error without a reply. -/
def admissionError (code message : String) (retryable : Bool := false) : AdmissionError :=
  { code := Points.ofString code, message := Points.ofString message, retryable }

def requestInvalid : AdmissionError :=
  admissionError "broker_admission_request_invalid"
    "The broker admission request binding is invalid."

def nonceInvalid : AdmissionError :=
  admissionError "broker_admission_request_invalid" "The broker admission nonce is invalid."

def unconfigured : AdmissionError :=
  admissionError "broker_admission_unconfigured" "Broker admission is not configured."

def unavailable : AdmissionError :=
  admissionError "broker_admission_unavailable" "Broker admission is temporarily unavailable." true

def rejected : AdmissionError :=
  admissionError "broker_admission_rejected" "Broker admission was rejected."

/-- `_invalid_response`. -/
def invalidResponse : AdmissionError :=
  admissionError "broker_admission_response_invalid" "The broker admission response is invalid."
    true

def prepareRequestInvalid : AdmissionError :=
  admissionError "scheduled_provider_authorization_request_invalid"
    "The scheduled provider authorization binding is invalid."

def prepareUnavailable : AdmissionError :=
  admissionError "scheduled_provider_authorization_unavailable"
    "Scheduled provider authorization is temporarily unavailable." true

def prepareRejected : AdmissionError :=
  admissionError "scheduled_provider_authorization_rejected"
    "Scheduled provider authorization was rejected."

/-- `_invalid_scheduled_prepare_response`. -/
def invalidPrepareResponse : AdmissionError :=
  admissionError "scheduled_provider_authorization_response_invalid"
    "The scheduled provider authorization response is invalid." true

/-- A computation that raises an error unless a condition holds. -/
def demand (condition : Bool) (e : AdmissionError) : Except Raised Unit :=
  if condition then .ok () else .error (.admission e)

/-- A value, or an error when there is none. -/
def demandSome {α : Type} (value : Option α) (e : AdmissionError) : Except Raised α :=
  match value with
  | some a => .ok a
  | none => .error (.admission e)

/-- The error of a computation that raises one, replaced by another. -/
def reraise {α : Type} (x : Except Raised α) (e : AdmissionError) : Except Raised α :=
  match x with
  | .error (.admission _) => .error (.admission e)
  | x => x

/-! ## Requests -/

def names (keys : List String) : List Points :=
  keys.map Points.ofString

/-- `_BODY_KEYS`. -/
def bodyKeys : List Points :=
  names ["authorizationRef", "containerGenerationId", "originRef", "runId", "workRef", "workerId"]

/-- `_HOST_BODY_KEYS`. -/
def hostBodyKeys : List Points :=
  names ["authorizationRef", "hostStartupLeaseId", "originRef", "runId", "workRef", "workerId"]

/-- `_SCHEDULED_PREPARE_BODY_KEYS`. -/
def scheduledPrepareBodyKeys : List Points :=
  names ["containerGenerationId", "originRef", "ownerId", "runId", "workRef", "workerId"]

/-- `_SUCCESS_KEYS - _BODY_KEYS`. -/
def successKeys : List Points :=
  names ["brokerUrl", "grant", "grantToken", "maxExpiresAt", "scopeFingerprint", "status"]

/-- `_SCHEDULED_PREPARE_SUCCESS_KEYS`. -/
def scheduledPrepareSuccessKeys : List Points :=
  scheduledPrepareBodyKeys ++
    names ["authorizationRef", "brokerUrl", "maxExpiresAt", "scopeFingerprint", "status"]

/-- `_GRANT_KEYS`. -/
def grantKeys : List Points :=
  names ["allowedHostTools", "allowedServers", "expiresAt", "grantId", "scopes"]

/-- The keys of an object are the given ones. -/
def keysAre (fields : Fields) (keys : List Points) : Bool :=
  keys.all (fun key => fields.any fun f => f.1 == key) && fields.all fun f => keys.contains f.1

/-- The value of a key. -/
def valueAt (fields : Fields) (key : Points) : Json :=
  (fields.lookup key).getD .null

/-- `_OPAQUE_REF`. -/
def isOpaqueRef : Points → Bool
  | [] => false
  | c :: cs => isAlnum c && 7 ≤ cs.length && cs.length ≤ 191 && cs.all isScopedChar

/-- `_CONTAINER_GENERATION_ID`. -/
def isContainerGenerationId (t : Points) : Bool :=
  t.length == 64 && t.all fun c => (97 ≤ c && c ≤ 102) || (48 ≤ c && c ≤ 57)

/-- `_binding_keys`. -/
def bindingKeys (body : Json) : Except Raised (List Points) :=
  match body with
  | .obj fields =>
    if keysAre fields bodyKeys then .ok bodyKeys
    else if keysAre fields hostBodyKeys then .ok hostBodyKeys
    else .error (.admission requestInvalid)
  | _ => .error (.admission requestInvalid)

/-- The references of a body under some keys. -/
def references (fields : Fields) (keys : List Points) : Except Raised (List (Points × Points)) :=
  keys.mapM fun key =>
    match valueAt fields key with
    | .str value => do
      demand (isOpaqueRef value) requestInvalid
      return (key, value)
    | _ => .error (.admission requestInvalid)

/-- The identity of the sandbox among references. -/
def sandboxOf (refs : List (Points × Points)) : Points :=
  (refs.lookup (Points.ofString "containerGenerationId")).getD
    ((refs.lookup (Points.ofString "hostStartupLeaseId")).getD [])

/-- The keys that a body should have. -/
def expectedOf (body : Json) (expectedKeys : Option (List Points)) : Except Raised (List Points) :=
  match expectedKeys with
  | some keys => .ok keys
  | none => bindingKeys body

/-- The normalized binding of `_canonical_body`. -/
def binding (body : Json) (expectedKeys : Option (List Points)) :
    Except Raised (List (Points × Points)) := do
  let keys ← expectedOf body expectedKeys
  match body with
  | .obj fields => do
    demand (keysAre fields keys) requestInvalid
    let normalized ← references fields keys
    demand (isContainerGenerationId (sandboxOf normalized)) requestInvalid
    return normalized
  | _ => .error (.admission requestInvalid)

/-- The text of a normalized binding. -/
def canonicalText (refs : List (Points × Points)) : Points :=
  Json.dumps (.obj (refs.map fun r => (r.1, .str r.2)))

/-- `_canonical_body`. -/
def canonicalBody (body : Json) (expectedKeys : Option (List Points)) : Except Raised Points :=
  (binding body expectedKeys).map canonicalText

/-- `[A-Za-z0-9_-]{8,192}`. -/
def isNonce (t : Points) : Bool :=
  8 ≤ t.length && t.length ≤ 192 && t.all fun c => isAlnum c || c == 95 || c == 45

variable (lib : AdmissionLibrary)

/-- `mint_admission_header`, at a reading of the clock. -/
def mintAdmissionHeader (body : Json) (secret : Points) (now : ℤ) (nonce : Points)
    (expectedKeys : Option (List Points)) : Except Raised Points := do
  demand (!secret.isEmpty) unconfigured
  let canonical ← canonicalBody body expectedKeys
  demand (isNonce nonce) nonceInvalid
  let issuedAt := Json.renderInt now
  let digest := lib.sign secret
    (Points.ofString "v1\n" ++ issuedAt ++ 10 :: nonce ++ 10 :: canonical)
  return Points.ofString "v1:" ++ issuedAt ++ 58 :: nonce ++ 58 :: digest

/-- `_admission_url`. -/
def admissionUrl (value : Points) : Except Raised Points := do
  let url := Points.strip value
  let parsed ← demandSome (lib.urlparse url) unconfigured
  demand ((parsed.scheme == Points.ofString "http" || parsed.scheme == Points.ofString "https") &&
    !parsed.netloc.isEmpty && parsed.username.isEmpty && parsed.password.isEmpty &&
    parsed.fragment.isEmpty && !url.any fun c => c < 32 || Points.isSpace c) unconfigured
  return url

/-! ## Parts of a reply -/

/-- `_safe_string`. -/
def safeString (value : Json) (maximum : ℕ) : Points :=
  match value with
  | .str text =>
    if text.isEmpty || maximum < text.length || text.any fun c => c < 32 || c == 127 then []
    else text
  | _ => []

/-- `_safe_string_list`. -/
def safeStringList (value : Json) : Option (List Points) :=
  match value with
  | .arr items =>
    if 128 < items.length then none
    else items.mapM fun item =>
      let text := safeString item 192
      if text.isEmpty then none else some text
  | _ => none

/-- `_safe_scopes`. -/
def safeScopes (value : Json) : Except Raised (Option Fields) :=
  match value with
  | .obj fields =>
    if 128 < fields.length then .ok none
    else match lib.dumps value with
      | .ok encoded => .ok (if 32768 < encoded.length then none else some fields)
      | .error .valueError => .ok none
      | .error .recursionError => .error .recursionError
  | _ => .ok none

/-- `str.replace("Z", "+00:00")`. -/
def withOffset (t : Points) : Points :=
  t.flatMap fun c => if c = 90 then Points.ofString "+00:00" else [c]

/-- A `datetime` of the years from 1 to 9999. -/
def inCalendar (t : ℤ) : Bool :=
  -62135596800000000 ≤ t && t < 253402300800000000

/-- `_parse_max_expiry`. -/
def parseMaxExpiry (value : Json) : Except Raised (Option (Points × ℚ)) :=
  let text := safeString value 64
  if text.isEmpty then .ok none
  else match lib.datetimeFromisoformat (withOffset text) with
    | some (shown, some offset) =>
      if inCalendar (shown - offset) then .ok (some (text, lib.timestamp (shown - offset)))
      else .error .overflowError
    | _ => .ok none

/-- A text, or another when it is empty. -/
def orElse (text default : Points) : Points :=
  if text.isEmpty then default else text

/-- The error of a reply that is not successful. -/
def rejection (plain : AdmissionError) (statusCode : ℤ) (payload : Fields) : AdmissionError :=
  let retryable := 500 ≤ statusCode || statusCode == 408 || statusCode == 425 || statusCode == 429
  let unread := { plain with retryable, statusCode := some statusCode }
  match get payload "error" with
  | .obj error =>
    match get error "needsInput" with
    | .bool needsInput =>
      if keysAre payload (names ["error"]) &&
          keysAre error (names ["code", "message", "needsInput"]) then
        { code := orElse (safeString (get error "code") 128) plain.code
          message := orElse (safeString (get error "message") 1000) plain.message
          needsInput
          retryable := !needsInput && retryable
          statusCode := some statusCode }
      else unread
    | _ => unread
  | _ => unread

/-- `response.json()`. -/
def readJson (reply : HttpReply) (invalid : AdmissionError) : Except Raised Json :=
  match lib.json reply.content with
  | .ok value => .ok value
  | .error .valueError => .error (.admission invalid)
  | .error .recursionError => .error .recursionError

/-- The object of a successful reply. -/
def payloadOf (reply : HttpReply) (invalid plain : AdmissionError) : Except Raised Fields := do
  demand (reply.content.length ≤ 65536) invalid
  let value ← readJson lib reply invalid
  match value with
  | .obj payload =>
    if reply.statusCode < 200 || 300 ≤ reply.statusCode then
      .error (.admission (rejection plain reply.statusCode payload))
    else .ok payload
  | _ => .error (.admission invalid)

/-- `str.lower`, as far as it makes letters of ASCII. -/
def lower (t : Points) : Points :=
  t.map fun c => if 65 ≤ c ∧ c ≤ 90 then c + 32 else c

/-- A part of a text. -/
def contains (text part : Points) : Bool :=
  text.tails.any fun rest => part.isPrefixOf rest

/-- The reply may not be stored, has the given keys and status, and echoes the binding. -/
def echoes (reply : HttpReply) (payload : Fields) (keys : List Points) (status : String)
    (refs : List (Points × Points)) : Bool :=
  contains (lower (reply.cacheControl.getD [])) (Points.ofString "no-store") &&
    keysAre payload keys && isText (get payload "status") (Points.ofString status) &&
    refs.all fun r => isText (valueAt payload r.1) r.2

/-! ## Scheduled authorizations -/

/-- `ScheduledProviderAuthorization`. -/
structure ScheduledProviderAuthorization where
  authorizationRef : Points
  originRef : Points
  workRef : Points
  workerId : Points
  runId : Points
  containerGenerationId : Points
  scopeFingerprint : Points
  brokerUrl : Points
  maxExpiresAt : Points
  deriving DecidableEq, Repr

def admitSuffix : Points :=
  Points.ofString "/capabilities/admit"

/-- A text ends with a suffix. -/
def endsWith (text suffix : Points) : Bool :=
  suffix.reverse.isPrefixOf text.reverse

/-- Two values are one text, or both are missing. Other values are refused by the checks that
follow. -/
def sameText (a b : Json) : Bool :=
  match a, b with
  | .str a, .str b => a == b
  | .null, .null => true
  | _, _ => false

/-- The origin of a body is its work. -/
def originIsWork (body : Json) : Bool :=
  match body with
  | .obj fields => sameText (get fields "originRef") (get fields "workRef")
  | _ => false

/-- The reply to the request of `prepare_scheduled_provider_authorization`, with the binding. -/
def prepareReply (url secret : Points) (body : Json) (now : ℤ) (nonce : Points) :
    Except Raised (List (Points × Points) × HttpReply) := do
  let endpoint ← admissionUrl lib url
  let parsed ← demandSome (lib.urlparse endpoint) unconfigured
  demand (endsWith parsed.path admitSuffix && originIsWork body) prepareRequestInvalid
  let refs ← reraise (binding body (some scheduledPrepareBodyKeys)) prepareRequestInvalid
  let header ← reraise
    (mintAdmissionHeader lib body secret now nonce (some scheduledPrepareBodyKeys))
    prepareRequestInvalid
  let path := parsed.path.take (parsed.path.length - admitSuffix.length) ++
    Points.ofString "/capabilities/prepare-scheduled"
  let reply ← demandSome (lib.post (lib.geturl { parsed with path }) (canonicalText refs) header)
    prepareUnavailable
  return (refs, reply)

/-- The authorization of a reply that echoes the binding, with the maximum expiry that it names. -/
def preparedAuthorization (refs : List (Points × Points)) (payload : Fields)
    (maxExpiry : Option (Points × ℚ)) (now : ℚ) : Except Raised ScheduledProviderAuthorization := do
  let authorizationRef := safeString (get payload "authorizationRef") 192
  let scopeFingerprint := safeString (get payload "scopeFingerprint") 256
  let (maxExpiresAt, limit) ← demandSome maxExpiry invalidPrepareResponse
  demand (isOpaqueRef authorizationRef && !scopeFingerprint.isEmpty && decide (now < limit))
    invalidPrepareResponse
  let brokerUrl ← reraise (admissionUrl lib (safeString (get payload "brokerUrl") 2048))
    invalidPrepareResponse
  let ref (key : String) := (refs.lookup (Points.ofString key)).getD []
  return {
    authorizationRef
    originRef := ref "originRef"
    workRef := ref "workRef"
    workerId := ref "workerId"
    runId := ref "runId"
    containerGenerationId := ref "containerGenerationId"
    scopeFingerprint
    brokerUrl
    maxExpiresAt }

/-- `prepare_scheduled_provider_authorization`, at the readings of the clock when it signs the
request and when it checks the reply. -/
def prepareScheduledProviderAuthorization (url secret : Points) (body : Json) (nonce : Points)
    (sentAt now : ℚ) : Except Raised ScheduledProviderAuthorization := do
  let (refs, reply) ← prepareReply lib url secret body ⌊sentAt⌋ nonce
  let payload ← payloadOf lib reply invalidPrepareResponse prepareRejected
  demand (echoes reply payload scheduledPrepareSuccessKeys "prepared" refs) invalidPrepareResponse
  let maxExpiry ← parseMaxExpiry lib (get payload "maxExpiresAt")
  preparedAuthorization lib refs payload maxExpiry now

/-! ## Admission -/

/-- `BrokerAdmissionGrant`. -/
structure BrokerAdmissionGrant where
  grantToken : Points
  brokerUrl : Points
  scopeFingerprint : Points
  grantId : Points
  expiresAt : ℤ
  allowedServers : List Points
  allowedHostTools : List Points
  scopes : Fields
  maxExpiresAt : Points
  containerGenerationId : Points
  hostStartupLeaseId : Points

/-- The reply to the request of `admit_capability_grant`, with the binding. -/
def admissionReply (url secret : Points) (body : Json) (now : ℤ) (nonce : Points) :
    Except Raised (List (Points × Points) × HttpReply) := do
  let endpoint ← admissionUrl lib url
  let refs ← binding body none
  let header ← mintAdmissionHeader lib body secret now nonce none
  let reply ← demandSome (lib.post endpoint (canonicalText refs) header) unavailable
  return (refs, reply)

/-- What a reply that echoes the binding and the expected fingerprint authorizes. -/
structure Authorized where
  scopeFingerprint : Points
  grantToken : Points
  brokerUrl : Points

/-- The checks of a reply up to its broker. -/
def authorized (refs : List (Points × Points)) (reply : HttpReply) (payload : Fields)
    (expectedScopeFingerprint : Points) : Except Raised Authorized := do
  demand (echoes reply payload (refs.map (·.1) ++ successKeys) "authorized" refs) invalidResponse
  let scopeFingerprint := safeString (get payload "scopeFingerprint") 256
  demand (!scopeFingerprint.isEmpty && scopeFingerprint == expectedScopeFingerprint)
    invalidResponse
  let grantToken := safeString (get payload "grantToken") 8192
  demand (!grantToken.isEmpty) invalidResponse
  let brokerUrl ← reraise (admissionUrl lib (safeString (get payload "brokerUrl") 2048))
    invalidResponse
  return { scopeFingerprint, grantToken, brokerUrl }

/-- The grant of a reply, its maximum expiry and its expiry. -/
def datedGrant (payload : Fields) (maxExpiry : Option (Points × ℚ))
    (expectedMaxExpiresAt : Option Points) (now : ℚ) : Except Raised (Fields × Points × ℤ) :=
  match get payload "grant", maxExpiry with
  | .obj grant, some (maxExpiresAt, limit) => do
    demand (keysAre grant grantKeys) invalidResponse
    demand (expectedMaxExpiresAt.all (· == maxExpiresAt)) invalidResponse
    match get grant "expiresAt" with
    | .int expiresAt => do
      demand (decide (⌊now⌋ < expiresAt) && decide ((expiresAt : ℚ) ≤ limit)) invalidResponse
      return (grant, maxExpiresAt, expiresAt)
    | _ => .error (.admission invalidResponse)
  | _, _ => .error (.admission invalidResponse)

/-- The grant that is returned. -/
def grantOf (refs : List (Points × Points)) (auth : Authorized) (grant : Fields)
    (maxExpiresAt : Points) (expiresAt : ℤ) (scopes : Option Fields) :
    Except Raised BrokerAdmissionGrant := do
  let grantId := safeString (get grant "grantId") 256
  demand (!grantId.isEmpty) invalidResponse
  let allowedServers ← demandSome (safeStringList (get grant "allowedServers")) invalidResponse
  let allowedHostTools ← demandSome (safeStringList (get grant "allowedHostTools")) invalidResponse
  let scopes ← demandSome scopes invalidResponse
  return {
    grantToken := auth.grantToken
    brokerUrl := auth.brokerUrl
    scopeFingerprint := auth.scopeFingerprint
    grantId
    expiresAt
    allowedServers
    allowedHostTools
    scopes
    maxExpiresAt
    containerGenerationId := (refs.lookup (Points.ofString "containerGenerationId")).getD []
    hostStartupLeaseId := (refs.lookup (Points.ofString "hostStartupLeaseId")).getD [] }

/-- `admit_capability_grant`, at the readings of the clock when it signs the request and when it
checks the reply. -/
def admitCapabilityGrant (url secret : Points) (body : Json) (expectedScopeFingerprint : Points)
    (expectedMaxExpiresAt : Option Points) (nonce : Points) (sentAt now : ℚ) :
    Except Raised BrokerAdmissionGrant := do
  let (refs, reply) ← admissionReply lib url secret body ⌊sentAt⌋ nonce
  let payload ← payloadOf lib reply invalidResponse rejected
  let auth ← authorized lib refs reply payload expectedScopeFingerprint
  let maxExpiry ← parseMaxExpiry lib (get payload "maxExpiresAt")
  let (grant, maxExpiresAt, expiresAt) ← datedGrant payload maxExpiry expectedMaxExpiresAt now
  let scopes ← safeScopes lib (get grant "scopes")
  grantOf refs auth grant maxExpiresAt expiresAt scopes

/-! ## What is raised -/

/-- A computation that raises only the error of the module. -/
def Mapped {α : Type} (x : Except Raised α) : Prop :=
  ∀ e, x = .error e → ∃ a, e = .admission a

/-- A reply that the parser of JSON cannot read for its depth. -/
def TooDeepToRead (reply : HttpReply) : Prop :=
  reply.content.length ≤ 65536 ∧ lib.json reply.content = .error .recursionError

/-- Scopes that cannot be written for their depth. -/
def TooDeepToWrite (value : Json) : Prop :=
  ∃ fields, value = .obj fields ∧ fields.length ≤ 128 ∧ lib.dumps value = .error .recursionError

/-- The text of a time with an offset that is no time of the calendar in UTC. -/
def OutOfCalendar (value : Json) : Prop :=
  safeString value 64 ≠ [] ∧ ∃ shown offset,
    lib.datetimeFromisoformat (withOffset (safeString value 64)) = some (shown, some offset) ∧
      inCalendar (shown - offset) = false

section Mapped

variable {lib} {α β : Type} {x : Except Raised α} {e : AdmissionError} {value : Json}

@[simp] theorem mapped_error {r : Raised} :
    Mapped (.error r : Except Raised α) ↔ ∃ a, r = .admission a := by
  constructor
  · exact fun h => h r rfl
  · rintro ⟨a, rfl⟩ e he
    exact ⟨a, (Except.error.inj he).symm⟩

theorem mapped_bind {f : α → Except Raised β} :
    Mapped (x >>= f) ↔ Mapped x ∧ ∀ a, x = .ok a → Mapped (f a) := by
  cases x with
  | error e =>
    change Mapped (.error e : Except Raised β) ↔ _
    rw [mapped_error, mapped_error]
    constructor
    · exact fun h => ⟨h, fun a ha => nomatch ha⟩
    · exact fun h => h.1
  | ok a =>
    constructor
    · intro h
      refine ⟨fun e he => (nomatch he), fun b hb => ?_⟩
      obtain rfl := Except.ok.inj hb
      exact h
    · exact fun h => h.2 a rfl

@[simp] theorem mapped_ok (a : α) : Mapped (.ok a : Except Raised α) :=
  fun _ h => by cases h

@[simp] theorem mapped_pure (a : α) : Mapped (pure a : Except Raised α) :=
  mapped_ok a

@[simp] theorem mapped_demand (condition : Bool) : Mapped (demand condition e) := by
  cases condition <;> simp [demand]

@[simp] theorem mapped_demandSome (value : Option α) : Mapped (demandSome value e) := by
  cases value <;> simp [demandSome]

theorem mapped_reraise (h : Mapped x) : Mapped (reraise x e) := by
  cases x with
  | ok => simp [reraise]
  | error r =>
    obtain ⟨a, rfl⟩ := h r rfl
    simp [reraise]

theorem mapped_bindingKeys (body : Json) : Mapped (bindingKeys body) := by
  unfold bindingKeys
  split
  · split
    · exact mapped_ok _
    · split <;> simp
  · simp

theorem mapped_expectedOf (body : Json) (expectedKeys : Option (List Points)) :
    Mapped (expectedOf body expectedKeys) := by
  cases expectedKeys with
  | some keys => exact mapped_ok keys
  | none => exact mapped_bindingKeys body

theorem mapped_references (fields : Fields) (keys : List Points) :
    Mapped (references fields keys) := by
  induction keys with
  | nil => exact mapped_ok _
  | cons key keys ih =>
    unfold references at ih ⊢
    rw [List.mapM_cons, mapped_bind]
    refine ⟨?_, fun r _ => mapped_bind.mpr ⟨ih, fun rs _ => mapped_pure _⟩⟩
    split
    · exact mapped_bind.mpr ⟨mapped_demand _, fun _ _ => mapped_pure _⟩
    · simp

theorem mapped_binding (body : Json) (expectedKeys : Option (List Points)) :
    Mapped (binding body expectedKeys) := by
  unfold binding
  refine mapped_bind.mpr ⟨mapped_expectedOf body expectedKeys, fun keys _ => ?_⟩
  split
  · refine mapped_bind.mpr ⟨mapped_demand _, fun _ _ => ?_⟩
    refine mapped_bind.mpr ⟨mapped_references _ _, fun refs _ => ?_⟩
    exact mapped_bind.mpr ⟨mapped_demand _, fun _ _ => mapped_pure _⟩
  · simp

theorem mapped_canonicalBody (body : Json) (expectedKeys : Option (List Points)) :
    Mapped (canonicalBody body expectedKeys) := by
  intro e h
  unfold canonicalBody at h
  cases hbinding : binding body expectedKeys with
  | ok => simp [hbinding, Except.map] at h
  | error =>
    rw [hbinding] at h
    obtain rfl := Except.error.inj h
    exact mapped_binding body expectedKeys _ hbinding

theorem mapped_mintAdmissionHeader (body : Json) (secret : Points) (now : ℤ) (nonce : Points)
    (expectedKeys : Option (List Points)) :
    Mapped (mintAdmissionHeader lib body secret now nonce expectedKeys) := by
  unfold mintAdmissionHeader
  refine mapped_bind.mpr ⟨mapped_demand _, fun _ _ => ?_⟩
  refine mapped_bind.mpr ⟨mapped_canonicalBody _ _, fun _ _ => ?_⟩
  exact mapped_bind.mpr ⟨mapped_demand _, fun _ _ => mapped_pure _⟩

theorem mapped_admissionUrl (value : Points) : Mapped (admissionUrl lib value) := by
  unfold admissionUrl
  refine mapped_bind.mpr ⟨mapped_demandSome _, fun _ _ => ?_⟩
  exact mapped_bind.mpr ⟨mapped_demand _, fun _ _ => mapped_pure _⟩

theorem mapped_admissionReply (url secret : Points) (body : Json) (now : ℤ) (nonce : Points) :
    Mapped (admissionReply lib url secret body now nonce) := by
  unfold admissionReply
  refine mapped_bind.mpr ⟨mapped_admissionUrl _, fun _ _ => ?_⟩
  refine mapped_bind.mpr ⟨mapped_binding _ _, fun _ _ => ?_⟩
  refine mapped_bind.mpr ⟨mapped_mintAdmissionHeader _ _ _ _ _, fun _ _ => ?_⟩
  exact mapped_bind.mpr ⟨mapped_demandSome _, fun _ _ => mapped_pure _⟩

theorem mapped_prepareReply (url secret : Points) (body : Json) (now : ℤ) (nonce : Points) :
    Mapped (prepareReply lib url secret body now nonce) := by
  unfold prepareReply
  refine mapped_bind.mpr ⟨mapped_admissionUrl _, fun _ _ => ?_⟩
  refine mapped_bind.mpr ⟨mapped_demandSome _, fun _ _ => ?_⟩
  refine mapped_bind.mpr ⟨mapped_demand _, fun _ _ => ?_⟩
  refine mapped_bind.mpr ⟨mapped_reraise (mapped_binding _ _), fun _ _ => ?_⟩
  refine mapped_bind.mpr ⟨mapped_reraise (mapped_mintAdmissionHeader _ _ _ _ _), fun _ _ => ?_⟩
  exact mapped_bind.mpr ⟨mapped_demandSome _, fun _ _ => mapped_pure _⟩

theorem mapped_authorized (refs : List (Points × Points)) (reply : HttpReply) (payload : Fields)
    (expectedScopeFingerprint : Points) :
    Mapped (authorized lib refs reply payload expectedScopeFingerprint) := by
  unfold authorized
  refine mapped_bind.mpr ⟨mapped_demand _, fun _ _ => ?_⟩
  refine mapped_bind.mpr ⟨mapped_demand _, fun _ _ => ?_⟩
  refine mapped_bind.mpr ⟨mapped_demand _, fun _ _ => ?_⟩
  exact mapped_bind.mpr ⟨mapped_reraise (mapped_admissionUrl _), fun _ _ => mapped_pure _⟩

theorem mapped_datedGrant (payload : Fields) (maxExpiry : Option (Points × ℚ))
    (expectedMaxExpiresAt : Option Points) (now : ℚ) :
    Mapped (datedGrant payload maxExpiry expectedMaxExpiresAt now) := by
  unfold datedGrant
  split
  · refine mapped_bind.mpr ⟨mapped_demand _, fun _ _ => ?_⟩
    refine mapped_bind.mpr ⟨mapped_demand _, fun _ _ => ?_⟩
    split
    · exact mapped_bind.mpr ⟨mapped_demand _, fun _ _ => mapped_pure _⟩
    · simp
  · simp

theorem mapped_grantOf (refs : List (Points × Points)) (auth : Authorized) (grant : Fields)
    (maxExpiresAt : Points) (expiresAt : ℤ) (scopes : Option Fields) :
    Mapped (grantOf refs auth grant maxExpiresAt expiresAt scopes) := by
  unfold grantOf
  refine mapped_bind.mpr ⟨mapped_demand _, fun _ _ => ?_⟩
  refine mapped_bind.mpr ⟨mapped_demandSome _, fun _ _ => ?_⟩
  refine mapped_bind.mpr ⟨mapped_demandSome _, fun _ _ => ?_⟩
  exact mapped_bind.mpr ⟨mapped_demandSome _, fun _ _ => mapped_pure _⟩

theorem mapped_preparedAuthorization (refs : List (Points × Points)) (payload : Fields)
    (maxExpiry : Option (Points × ℚ)) (now : ℚ) :
    Mapped (preparedAuthorization lib refs payload maxExpiry now) := by
  unfold preparedAuthorization
  refine mapped_bind.mpr ⟨mapped_demandSome _, fun _ _ => ?_⟩
  refine mapped_bind.mpr ⟨mapped_demand _, fun _ _ => ?_⟩
  exact mapped_bind.mpr ⟨mapped_reraise (mapped_admissionUrl _), fun _ _ => mapped_pure _⟩

theorem demand_eq_ok {condition : Bool} {u : Unit} :
    demand condition e = .ok u ↔ condition = true := by
  cases condition <;> simp [demand]

/-- Reading a reply fails in another way only for its depth. -/
theorem mapped_payloadOf {reply : HttpReply} {invalid plain : AdmissionError} :
    Mapped (payloadOf lib reply invalid plain) ↔ ¬TooDeepToRead lib reply := by
  have hrest : ∀ value, Mapped (match value with
      | Json.obj payload =>
        if reply.statusCode < 200 || 300 ≤ reply.statusCode then
          Except.error (Raised.admission (rejection plain reply.statusCode payload))
        else .ok payload
      | _ => .error (.admission invalid)) := by
    intro value
    split
    · split <;> simp
    · simp
  have hread : Mapped (readJson lib reply invalid) ↔
      lib.json reply.content ≠ .error .recursionError := by
    unfold readJson
    cases lib.json reply.content with
    | ok => simp
    | error fault => cases fault <;> simp
  rw [payloadOf, mapped_bind]
  simp only [mapped_demand, true_and, demand_eq_ok, decide_eq_true_eq, mapped_bind, hread,
    TooDeepToRead, not_and]
  constructor
  · intro h hlength
    exact (h () hlength).1
  · intro h _ hlength
    exact ⟨h hlength, fun value _ => hrest value⟩

theorem mapped_parseMaxExpiry : Mapped (parseMaxExpiry lib value) ↔ ¬OutOfCalendar lib value := by
  unfold parseMaxExpiry OutOfCalendar
  by_cases hempty : safeString value 64 = []
  · simp [hempty]
  · have hfalse : (safeString value 64).isEmpty = false := by simpa using hempty
    simp only [hfalse, Bool.false_eq_true, if_false]
    cases lib.datetimeFromisoformat (withOffset (safeString value 64)) with
    | none => simp
    | some parsed =>
      obtain ⟨shown, offset⟩ := parsed
      cases offset with
      | none => simp
      | some offset => cases hrange : inCalendar (shown - offset) <;> simp [hempty, hrange]

theorem mapped_safeScopes : Mapped (safeScopes lib value) ↔ ¬TooDeepToWrite lib value := by
  unfold safeScopes TooDeepToWrite
  split
  · rename_i fields
    split
    · rename_i hlength
      simp [hlength]
    · rename_i hlength
      cases hdumps : lib.dumps (.obj fields) with
      | ok => simp
      | error fault => cases fault <;> simp [Nat.not_lt.mp hlength]
  · rename_i hobj
    simp only [mapped_ok, not_exists, not_and, true_iff]
    rintro fields rfl
    exact absurd rfl (hobj fields)

end Mapped

/-! ## Vouched grants -/

section Vouched

variable {lib} {fields grant : Fields} {keys : List Points} {body value : Json} {auth : Authorized}
  {maxExpiresAt : Points} {expiresAt : ℤ}

theorem any_of_keysAre (h : keysAre fields keys = true) (key : Points) :
    (fields.any fun f => f.1 == key) = keys.contains key := by
  rw [keysAre, Bool.and_eq_true, List.all_eq_true, List.all_eq_true] at h
  rw [Bool.eq_iff_iff]
  constructor
  · intro hany
    obtain ⟨f, hf, hkey⟩ := List.any_eq_true.mp hany
    rw [← eq_of_beq hkey]
    exact h.2 f hf
  · intro hmem
    exact h.1 key (List.contains_iff_mem.mp hmem)

variable {refs : List (Points × Points)} {reply : HttpReply} {payload : Fields}

/-- The references of a body are under its keys, and each is the text of its field. -/
theorem references_eq_ok (h : references fields keys = .ok refs) :
    refs.map (·.1) = keys ∧ ∀ r ∈ refs, valueAt fields r.1 = .str r.2 := by
  induction keys generalizing refs with
  | nil =>
    obtain rfl : [] = refs := Except.ok.inj h
    exact ⟨rfl, fun r hr => absurd hr List.not_mem_nil⟩
  | cons key keys ih =>
    unfold references at h ih
    rw [List.mapM_cons, bind_eq_ok] at h
    obtain ⟨r, hr, h⟩ := h
    obtain ⟨rs, hrs, h⟩ := bind_eq_ok.mp h
    obtain rfl : r :: rs = refs := Except.ok.inj h
    have hr' : r.1 = key ∧ valueAt fields key = .str r.2 := by
      split at hr
      · rename_i value hvalue
        obtain ⟨_, _, hr⟩ := bind_eq_ok.mp hr
        obtain rfl : (key, value) = r := Except.ok.inj hr
        exact ⟨rfl, hvalue⟩
      · cases hr
    obtain ⟨hkeys, hvalues⟩ := ih hrs
    refine ⟨by rw [List.map_cons, hkeys, hr'.1], ?_⟩
    intro r' hr''
    rcases List.mem_cons.mp hr'' with rfl | hmem
    · rw [hr'.1]
      exact hr'.2
    · exact hvalues r' hmem

/-- A binding of a body has every field of it, and the keys of one of the two variants. -/
theorem binding_eq_ok (h : binding body none = .ok refs) :
    ∃ fields, body = .obj fields ∧ keysAre fields (refs.map (·.1)) = true ∧
      (refs.map (·.1) = bodyKeys ∨ refs.map (·.1) = hostBodyKeys) ∧
      ∀ r ∈ refs, valueAt fields r.1 = .str r.2 := by
  obtain ⟨keys, hkeys, h⟩ := bind_eq_ok.mp h
  cases body with
  | obj fields =>
    obtain ⟨_, hare, h⟩ := bind_eq_ok.mp h
    obtain ⟨normalized, hrefs, h⟩ := bind_eq_ok.mp h
    obtain ⟨_, _, h⟩ := bind_eq_ok.mp h
    obtain rfl : normalized = refs := Except.ok.inj h
    obtain ⟨hmap, hvalues⟩ := references_eq_ok hrefs
    have hvariant : keys = bodyKeys ∨ keys = hostBodyKeys := by
      simp only [expectedOf, bindingKeys] at hkeys
      split at hkeys
      · exact .inl (Except.ok.inj hkeys).symm
      · split at hkeys
        · exact .inr (Except.ok.inj hkeys).symm
        · cases hkeys
    refine ⟨fields, rfl, ?_, ?_, hvalues⟩
    · rw [hmap]
      exact demand_eq_ok.mp hare
    · rw [hmap]
      exact hvariant
  | _ => cases h

/-- A text that is safe is the value. -/
theorem eq_str_of_safeString {maximum : ℕ} (h : (safeString value maximum).isEmpty = false) :
    value = .str (safeString value maximum) := by
  cases value with
  | str =>
    simp only [safeString] at h ⊢
    split at h
    · cases h
    · rename_i hsafe
      rw [if_neg hsafe]
  | _ => cases h

/-- A reply that is authorized echoes the binding and has the fingerprint. -/
theorem authorized_eq_ok {expectedScopeFingerprint : Points}
    (h : authorized lib refs reply payload expectedScopeFingerprint = .ok auth) :
    echoes reply payload (refs.map (·.1) ++ successKeys) "authorized" refs = true ∧
      get payload "scopeFingerprint" = .str expectedScopeFingerprint ∧
      auth.scopeFingerprint = expectedScopeFingerprint := by
  obtain ⟨_, hechoes, h⟩ := bind_eq_ok.mp h
  obtain ⟨_, hfingerprint, h⟩ := bind_eq_ok.mp h
  obtain ⟨_, _, h⟩ := bind_eq_ok.mp h
  obtain ⟨brokerUrl, _, h⟩ := bind_eq_ok.mp h
  obtain rfl := Except.ok.inj h
  have hsafe := demand_eq_ok.mp hfingerprint
  rw [Bool.and_eq_true, Bool.not_eq_true'] at hsafe
  have heq := eq_of_beq hsafe.2
  refine ⟨demand_eq_ok.mp hechoes, ?_, heq⟩
  rw [eq_str_of_safeString hsafe.1, heq]

theorem parseMaxExpiry_eq_ok {text : Points} {limit : ℚ}
    (h : parseMaxExpiry lib value = .ok (some (text, limit))) :
    value = .str text ∧ ∃ shown offset,
      lib.datetimeFromisoformat (withOffset text) = some (shown, some offset) ∧
        inCalendar (shown - offset) = true ∧ limit = lib.timestamp (shown - offset) := by
  simp only [parseMaxExpiry] at h
  split at h
  · cases h
  · rename_i hsafe
    rw [Bool.not_eq_true] at hsafe
    split at h
    · rename_i shown offset hparsed
      split at h
      · rename_i hrange
        obtain ⟨rfl, rfl⟩ := Prod.mk.inj (Option.some.inj (Except.ok.inj h))
        exact ⟨eq_str_of_safeString hsafe, shown, offset, hparsed, hrange, rfl⟩
      · cases h
    · cases h

theorem datedGrant_eq_ok {maxExpiry : Option (Points × ℚ)} {expectedMaxExpiresAt : Option Points}
    {now : ℚ} (h : datedGrant payload maxExpiry expectedMaxExpiresAt now =
      .ok (grant, maxExpiresAt, expiresAt)) :
    ∃ limit, maxExpiry = some (maxExpiresAt, limit) ∧
      (∀ expected ∈ expectedMaxExpiresAt, expected = maxExpiresAt) ∧
      ⌊now⌋ < expiresAt ∧ (expiresAt : ℚ) ≤ limit := by
  unfold datedGrant at h
  split at h
  · rename_i limit _
    obtain ⟨_, _, h⟩ := bind_eq_ok.mp h
    obtain ⟨_, hexpected, h⟩ := bind_eq_ok.mp h
    split at h
    · obtain ⟨_, htimes, h⟩ := bind_eq_ok.mp h
      obtain ⟨rfl, rfl, rfl⟩ := Prod.mk.inj (Except.ok.inj h) |>.imp_right Prod.mk.inj
      have htimes := demand_eq_ok.mp htimes
      rw [Bool.and_eq_true, decide_eq_true_eq, decide_eq_true_eq] at htimes
      refine ⟨limit, rfl, ?_, htimes⟩
      rintro expected rfl
      simpa using demand_eq_ok.mp hexpected
    · cases h
  · cases h

theorem grantOf_eq_ok {scopes : Option Fields} {g : BrokerAdmissionGrant}
    (h : grantOf refs auth grant maxExpiresAt expiresAt scopes = .ok g) :
    g.scopeFingerprint = auth.scopeFingerprint ∧ g.maxExpiresAt = maxExpiresAt ∧
      g.expiresAt = expiresAt := by
  obtain ⟨_, _, h⟩ := bind_eq_ok.mp h
  obtain ⟨_, _, h⟩ := bind_eq_ok.mp h
  obtain ⟨_, _, h⟩ := bind_eq_ok.mp h
  obtain ⟨_, _, h⟩ := bind_eq_ok.mp h
  obtain rfl := Except.ok.inj h
  exact ⟨rfl, rfl, rfl⟩

theorem payloadOf_eq_ok {invalid plain : AdmissionError}
    (h : payloadOf lib reply invalid plain = .ok payload) :
    lib.json reply.content = .ok (.obj payload) := by
  obtain ⟨_, _, h⟩ := bind_eq_ok.mp h
  obtain ⟨value, hvalue, h⟩ := bind_eq_ok.mp h
  split at h
  · split at h
    · cases h
    · obtain rfl := Except.ok.inj h
      unfold readJson at hvalue
      split at hvalue
      · rename_i hjson
        rw [hjson, Except.ok.inj hvalue]
      · cases hvalue
      · cases hvalue
  · cases h

/-- A reply that echoes the binding of a body has its fields, and the sandbox of its variant. -/
theorem echoed_of_binding (hbinding : binding body none = .ok refs)
    (hechoes : echoes reply payload (refs.map (·.1) ++ successKeys) "authorized" refs = true) :
    ∃ fields, body = .obj fields ∧ (∀ f ∈ fields, valueAt payload f.1 = valueAt fields f.1) ∧
      (payload.any fun f => f.1 == Points.ofString "containerGenerationId") ≠
        payload.any fun f => f.1 == Points.ofString "hostStartupLeaseId" := by
  obtain ⟨fields, rfl, hare, hvariant, hvalues⟩ := binding_eq_ok hbinding
  simp only [echoes, Bool.and_eq_true] at hechoes
  obtain ⟨⟨⟨_, hkeys⟩, _⟩, hall⟩ := hechoes
  refine ⟨fields, rfl, ?_, ?_⟩
  · intro f hf
    have hkey : f.1 ∈ refs.map (·.1) := by
      rw [keysAre, Bool.and_eq_true] at hare
      exact List.contains_iff_mem.mp (List.all_eq_true.mp hare.2 f hf)
    obtain ⟨r, hr, hrf⟩ := List.mem_map.mp hkey
    rw [← hrf, hvalues r hr]
    exact isText_iff.mp (List.all_eq_true.mp hall r hr)
  · rw [any_of_keysAre hkeys, any_of_keysAre hkeys]
    rcases hvariant with hvariant | hvariant <;> rw [hvariant] <;> decide

end Vouched

/-! ## Failing closed -/

/-- What a grant is vouched for by the object of a reply: it echoes every field of the body, names
a container generation or a host lease and not both, and carries the fingerprint and the maximum
expiry that are expected and that the grant has. The grant is not expired, and expires no later
than that maximum. -/
structure Vouched (fields payload : Fields) (expectedScopeFingerprint : Points)
    (expectedMaxExpiresAt : Option Points) (now : ℚ) (g : BrokerAdmissionGrant) : Prop where
  echoed : ∀ f ∈ fields, valueAt payload f.1 = valueAt fields f.1
  oneSandbox : (payload.any fun f => f.1 == Points.ofString "containerGenerationId") ≠
    payload.any fun f => f.1 == Points.ofString "hostStartupLeaseId"
  fingerprint : get payload "scopeFingerprint" = .str expectedScopeFingerprint ∧
    g.scopeFingerprint = expectedScopeFingerprint
  maxExpiry : get payload "maxExpiresAt" = .str g.maxExpiresAt ∧
    ∀ expected ∈ expectedMaxExpiresAt, expected = g.maxExpiresAt
  unexpired : now < g.expiresAt
  limited : ∃ shown offset,
    lib.datetimeFromisoformat (withOffset g.maxExpiresAt) = some (shown, some offset) ∧
      inCalendar (shown - offset) = true ∧ (g.expiresAt : ℚ) ≤ lib.timestamp (shown - offset)

section FailsClosed

variable (url secret : Points) (body : Json) (expectedScopeFingerprint : Points)
  (expectedMaxExpiresAt : Option Points) (nonce : Points) (sentAt now : ℚ)

/-- An admission raises only the error of the module, and a grant that it returns is vouched for by
the reply. -/
structure AdmitFailsClosed : Prop where
  raises : Mapped (admitCapabilityGrant lib url secret body expectedScopeFingerprint
    expectedMaxExpiresAt nonce sentAt now)
  returns : ∀ g, admitCapabilityGrant lib url secret body expectedScopeFingerprint
    expectedMaxExpiresAt nonce sentAt now = .ok g →
      ∃ fields refs reply payload, body = .obj fields ∧
        admissionReply lib url secret body ⌊sentAt⌋ nonce = .ok (refs, reply) ∧
        lib.json reply.content = .ok (.obj payload) ∧
        Vouched lib fields payload expectedScopeFingerprint expectedMaxExpiresAt now g

/-- The reply to an admission can be read, the maximum expiry of one that passes the checks before
it is a time of the calendar, and the scopes of a grant in time can be written. -/
structure AdmitsWithinLimits : Prop where
  readable : ∀ refs reply, admissionReply lib url secret body ⌊sentAt⌋ nonce = .ok (refs, reply) →
    ¬TooDeepToRead lib reply
  dated : ∀ refs reply payload auth,
    admissionReply lib url secret body ⌊sentAt⌋ nonce = .ok (refs, reply) →
    payloadOf lib reply invalidResponse rejected = .ok payload →
    authorized lib refs reply payload expectedScopeFingerprint = .ok auth →
      ¬OutOfCalendar lib (get payload "maxExpiresAt")
  writable : ∀ refs reply payload auth maxExpiry grant maxExpiresAt expiresAt,
    admissionReply lib url secret body ⌊sentAt⌋ nonce = .ok (refs, reply) →
    payloadOf lib reply invalidResponse rejected = .ok payload →
    authorized lib refs reply payload expectedScopeFingerprint = .ok auth →
    parseMaxExpiry lib (get payload "maxExpiresAt") = .ok maxExpiry →
    datedGrant payload maxExpiry expectedMaxExpiresAt now = .ok (grant, maxExpiresAt, expiresAt) →
      ¬TooDeepToWrite lib (get grant "scopes")

/-- The reply to a preparation can be read, and the maximum expiry of one that echoes the binding is
a time of the calendar. -/
structure PreparesWithinLimits : Prop where
  readable : ∀ refs reply, prepareReply lib url secret body ⌊sentAt⌋ nonce = .ok (refs, reply) →
    ¬TooDeepToRead lib reply
  dated : ∀ refs reply payload,
    prepareReply lib url secret body ⌊sentAt⌋ nonce = .ok (refs, reply) →
    payloadOf lib reply invalidPrepareResponse prepareRejected = .ok payload →
    echoes reply payload scheduledPrepareSuccessKeys "prepared" refs = true →
      ¬OutOfCalendar lib (get payload "maxExpiresAt")

variable {lib url secret body expectedScopeFingerprint expectedMaxExpiresAt nonce sentAt now}

theorem mapped_admitCapabilityGrant : Mapped (admitCapabilityGrant lib url secret body
    expectedScopeFingerprint expectedMaxExpiresAt nonce sentAt now) ↔
      AdmitsWithinLimits lib url secret body expectedScopeFingerprint expectedMaxExpiresAt nonce
        sentAt now := by
  simp only [admitCapabilityGrant, mapped_bind, mapped_admissionReply, mapped_payloadOf,
    mapped_authorized, mapped_parseMaxExpiry, mapped_datedGrant, mapped_safeScopes, mapped_grantOf,
    true_and, Prod.forall, implies_true, and_true]
  constructor
  · intro h
    refine ⟨fun refs reply hreply => (h refs reply hreply).1, ?_, ?_⟩
    · intro refs reply payload auth hreply hpayload hauth
      exact ((h refs reply hreply).2 payload hpayload auth hauth).1
    · intro refs reply payload auth maxExpiry grant maxExpiresAt expiresAt hreply hpayload hauth
        hmax hgrant
      exact ((h refs reply hreply).2 payload hpayload auth hauth).2 maxExpiry hmax grant
        maxExpiresAt expiresAt hgrant
  · intro h refs reply hreply
    refine ⟨h.readable refs reply hreply, fun payload hpayload auth hauth => ?_⟩
    refine ⟨h.dated refs reply payload auth hreply hpayload hauth, ?_⟩
    intro maxExpiry hmax grant maxExpiresAt expiresAt hgrant
    exact h.writable refs reply payload auth maxExpiry grant maxExpiresAt expiresAt hreply hpayload
      hauth hmax hgrant

theorem mapped_prepareScheduledProviderAuthorization :
    Mapped (prepareScheduledProviderAuthorization lib url secret body nonce sentAt now) ↔
      PreparesWithinLimits lib url secret body nonce sentAt := by
  simp only [prepareScheduledProviderAuthorization, mapped_bind, mapped_prepareReply,
    mapped_payloadOf, mapped_demand, mapped_parseMaxExpiry, mapped_preparedAuthorization,
    true_and, Prod.forall, implies_true, and_true, demand_eq_ok]
  constructor
  · intro h
    refine ⟨fun refs reply hreply => (h refs reply hreply).1, ?_⟩
    intro refs reply payload hreply hpayload hechoes
    exact (h refs reply hreply).2 payload hpayload () hechoes
  · intro h refs reply hreply
    refine ⟨h.readable refs reply hreply, fun payload hpayload _ hechoes => ?_⟩
    exact h.dated refs reply payload hreply hpayload hechoes

/-- A grant that is returned is vouched for by the reply. -/
theorem vouched_of_admitCapabilityGrant {g : BrokerAdmissionGrant}
    (h : admitCapabilityGrant lib url secret body expectedScopeFingerprint expectedMaxExpiresAt
      nonce sentAt now = .ok g) :
    ∃ fields refs reply payload, body = .obj fields ∧
      admissionReply lib url secret body ⌊sentAt⌋ nonce = .ok (refs, reply) ∧
      lib.json reply.content = .ok (.obj payload) ∧
      Vouched lib fields payload expectedScopeFingerprint expectedMaxExpiresAt now g := by
  obtain ⟨⟨refs, reply⟩, hreply, h⟩ := bind_eq_ok.mp h
  obtain ⟨payload, hpayload, h⟩ := bind_eq_ok.mp h
  obtain ⟨auth, hauth, h⟩ := bind_eq_ok.mp h
  obtain ⟨maxExpiry, hmax, h⟩ := bind_eq_ok.mp h
  obtain ⟨⟨grant, maxExpiresAt, expiresAt⟩, hgrant, h⟩ := bind_eq_ok.mp h
  obtain ⟨scopes, _, hg⟩ := bind_eq_ok.mp h
  have hbinding : binding body none = .ok refs := by
    obtain ⟨_, _, hreply⟩ := bind_eq_ok.mp hreply
    obtain ⟨refs', hrefs, hreply⟩ := bind_eq_ok.mp hreply
    obtain ⟨_, _, hreply⟩ := bind_eq_ok.mp hreply
    obtain ⟨_, _, hreply⟩ := bind_eq_ok.mp hreply
    rw [hrefs, (Prod.mk.inj (Except.ok.inj hreply)).1]
  obtain ⟨hechoes, hfingerprint, hauthorized⟩ := authorized_eq_ok hauth
  obtain ⟨fields, hfields, hechoed, hsandbox⟩ := echoed_of_binding hbinding hechoes
  obtain ⟨limit, rfl, hexpected, hfloor, hlimit⟩ := datedGrant_eq_ok hgrant
  obtain ⟨hvalue, shown, offset, hparsed, hrange, rfl⟩ := parseMaxExpiry_eq_ok hmax
  obtain ⟨hgFingerprint, hgMax, hgExpires⟩ := grantOf_eq_ok hg
  refine ⟨fields, refs, reply, payload, hfields, hreply, payloadOf_eq_ok hpayload, ?_⟩
  exact {
    echoed := hechoed
    oneSandbox := hsandbox
    fingerprint := ⟨hfingerprint, hgFingerprint.trans hauthorized⟩
    maxExpiry := by
      rw [hgMax]
      exact ⟨hvalue, hexpected⟩
    unexpired := by
      rw [hgExpires]
      exact Int.floor_lt.mp hfloor
    limited := by
      rw [hgMax, hgExpires]
      exact ⟨shown, offset, hparsed, hrange, hlimit⟩ }

/-- Admission fails closed exactly when its reply can be read and its dates and scopes are within
the limits of the libraries, and a preparation raises only the error of the module exactly when
its reply can be read and its date is in the calendar. -/
theorem admission_fails_closed_iff :
    (AdmitFailsClosed lib url secret body expectedScopeFingerprint expectedMaxExpiresAt nonce
        sentAt now ↔
      AdmitsWithinLimits lib url secret body expectedScopeFingerprint expectedMaxExpiresAt nonce
        sentAt now) ∧
    (Mapped (prepareScheduledProviderAuthorization lib url secret body nonce sentAt now) ↔
      PreparesWithinLimits lib url secret body nonce sentAt) := by
  refine ⟨?_, mapped_prepareScheduledProviderAuthorization⟩
  rw [← mapped_admitCapabilityGrant]
  constructor
  · intro h
    exact h.raises
  · intro h
    exact ⟨h, fun g hg => vouched_of_admitCapabilityGrant hg⟩

end FailsClosed

/-! ## The ends of the calendar -/

/-- A field of a text. -/
def field (key value : String) : Points × Json :=
  (Points.ofString key, .str (Points.ofString value))

/-- The binding of a container. -/
def containerBinding : Fields :=
  [field "authorizationRef" "authorization-1",
    field "containerGenerationId"
      "0123456789abcdef0123456789abcdef0123456789abcdef0123456789abcdef",
    field "originRef" "origin-01", field "runId" "run-00001", field "workRef" "work-0001",
    field "workerId" "worker-01"]

/-- A grant for a container that may last until the first moment of the calendar in the easternmost
zone. -/
def earliestExpiry : Fields :=
  containerBinding ++
    [field "brokerUrl" "http://broker.test/mcp",
      (Points.ofString "grant", .obj
        [(Points.ofString "allowedHostTools", .arr []), (Points.ofString "allowedServers", .arr []),
          (Points.ofString "expiresAt", .int 1767225660), field "grantId" "grant-1",
          (Points.ofString "scopes", .obj [])]),
      field "grantToken" "token", field "maxExpiresAt" "0001-01-01T00:00:00+14:00",
      field "scopeFingerprint" "scope-1", field "status" "authorized"]

def earliestExpiryReply : HttpReply where
  statusCode := 200
  cacheControl := some (Points.ofString "no-store")
  content := (Json.dumps (.obj earliestExpiry)).map UInt8.ofNat

/-- The libraries, as far as that reply goes. -/
def earliestExpiryLibrary : AdmissionLibrary where
  urlparse url :=
    if url = Points.ofString "http://broker.test/mcp" then
      some ⟨Points.ofString "http", Points.ofString "broker.test", Points.ofString "/mcp",
        [], [], []⟩
    else if url = Points.ofString "http://broker.test/capabilities/admit" then
      some ⟨Points.ofString "http", Points.ofString "broker.test",
        Points.ofString "/capabilities/admit", [], [], []⟩
    else none
  geturl url := url.scheme ++ Points.ofString "://" ++ url.netloc ++ url.path
  sign _ _ := Points.ofString "signature"
  post _ _ _ := some earliestExpiryReply
  json content :=
    if content = earliestExpiryReply.content then .ok (.obj earliestExpiry) else .error .valueError
  dumps value := .ok (Json.dumps value)
  datetimeFromisoformat text :=
    if text = Points.ofString "0001-01-01T00:00:00+14:00" then
      some (-62135596800000000, some 50400000000)
    else none
  timestamp t := t / 1000000

/-- What a computation raises. -/
def raised? {α : Type} : Except Raised α → Option Raised
  | .ok _ => none
  | .error e => some e

theorem raised?_ne_of_mapped {α : Type} {x : Except Raised α} (h : Mapped x) :
    raised? x ≠ some .overflowError := by
  cases x with
  | ok => simp [raised?]
  | error e =>
    obtain ⟨a, rfl⟩ := h e rfl
    simp [raised?]

/-- That reply raises an `OverflowError`. -/
theorem not_admitFailsClosed_earliestExpiry :
    ¬AdmitFailsClosed earliestExpiryLibrary
      (Points.ofString "http://broker.test/capabilities/admit") (Points.ofString "secret")
      (.obj containerBinding) (Points.ofString "scope-1") none (Points.ofString "nonce-0001")
      1767225600 1767225600 := by
  intro h
  refine raised?_ne_of_mapped h.raises ?_
  unfold earliestExpiryLibrary earliestExpiryReply earliestExpiry containerBinding field
  repeat rw [Points.ofString_ofList]
  decide +kernel

end GlassHive.BrokerAdmission
