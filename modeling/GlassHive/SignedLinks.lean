import GlassHive.RunActionCapabilities
import GlassHive.Library.AsciiJson
import GlassHive.Library.Fallible

/-!
# Signed links

Two processes mint and open links: the runtime and its user interface. A link carries signed
parameters, a signed token, or an opaque reference to a token in a database that both processes
share. The links of a worker are blocked once the worker is terminated or revoked.

`LinkCodec` stands for HMAC-SHA256, base64 and the JSON module, and for `int` on a text and on a
float. A call reads the clock once.
-/

namespace GlassHive.SignedLinks

open Relational RunActions

/-- The fields of an object. -/
abbrev Payload := List (Points × Json)

/-- The hexadecimal HMAC of a message under a key; the first part of a token for a payload, and what
it decodes to (`none` after a `ValueError`, an error for another exception); a payload as stored and
as read back; `int`. -/
structure LinkCodec extends Interpreter where
  hmac : Points → Points → Points
  encodePayload : Payload → Points
  decodePayload : Points → Except String (Option Json)
  payloadJson : Payload → Points
  loads : Points → Except String (Option Json)
  parseInt : Points → Option ℤ
  truncate : Points → Except String ℤ

/-- What a call reads from outside: the clock, the configuration, the workers that the runtime has
terminated and a fresh identifier. -/
structure LinkEnv where
  now : ℤ
  secret : Points
  signedLinkTtl : Points
  linkRefTtl : Points
  maxWatchSession : Points
  terminated : Points → Bool
  uuid : Points

/-- A row of `signed_link_refs`. -/
structure LinkRef where
  kind : Points
  token : Points
  targetUrl : Points
  expiresAt : ℤ
  createdAt : ℤ
  payloadJson : Points
  scopeKey : Points
  deriving DecidableEq, Repr

/-- The database of links: the references, and the times of the revocations of workers. -/
structure LinkStore where
  refs : Table Points LinkRef := .empty
  revocations : Table Points ℤ := .empty

/-- The two processes. -/
inductive Side
  | runtime
  | ui
  deriving DecidableEq, Repr

/-! ## Blocked workers -/

/-- `worker_signed_links_blocked`: a text without UTF-8 form is no parameter of a statement. -/
def blocked (env : LinkEnv) (s : LinkStore) (workerId : Points) : Except String Bool :=
  let clean := Points.strip workerId
  if clean.isEmpty then .ok false
  else if (Points.utf8 clean).isNone then .error "UnicodeEncodeError"
  else .ok (env.terminated clean || (s.revocations.get? clean).isSome)

/-! ## Lifetimes -/

/-- The words that turn a lifetime off. -/
def neverWords : List Points :=
  ["0", "none", "never", "disabled", "off", "false", "no"].map Points.ofString

/-- A text in lower case, as far as it is compared with words of ASCII. -/
def lower (t : Points) : Points :=
  t.map Like.fold

/-- `signed_link_ttl_seconds`. -/
def signedLinkTtlSeconds (codec : LinkCodec) (side : Side) (raw : Points) : ℤ :=
  let raw := Points.strip raw
  if side = .runtime ∧ neverWords.contains (lower raw) then 0
  else
    let value := if raw.isEmpty then 900 else (codec.parseInt raw).getD 900
    max 60 (min value 86400)

/-- `link_ref_ttl_seconds`. -/
def linkRefTtlSeconds (codec : LinkCodec) (raw : Points) : ℤ :=
  let raw := Points.strip raw
  if raw.isEmpty then 0
  else if neverWords.contains (lower raw) then 0
  else max 0 ((codec.parseInt raw).getD 0)

/-- The cap of a watch session. -/
def watchTtl (codec : LinkCodec) (raw : Points) : ℤ :=
  let raw := Points.strip raw
  if raw.isEmpty then 0 else (codec.parseInt raw).getD 0

/-- A lifetime under the cap, for the links that are watched. -/
def capped (codec : LinkCodec) (env : LinkEnv) (kind : Points) (ttl : ℤ) : ℤ :=
  let watch := watchTtl codec env.maxWatchSession
  if kind = Points.ofString "worker_view" ∧ 0 < watch then min ttl watch else ttl

/-- `signed_link_ttl_for_kind`. -/
def signedLinkTtlForKind (codec : LinkCodec) (env : LinkEnv) (side : Side) (kind : Points)
    (ttlSeconds : Option ℤ) : ℤ :=
  match side, ttlSeconds with
  | .runtime, some ttl => if ttl ≤ 0 then ttl else min (capped codec env kind ttl) 86400
  | .runtime, none =>
    let ttl := signedLinkTtlSeconds codec side env.signedLinkTtl
    if ttl ≤ 0 then 0 else max 60 (min (capped codec env kind ttl) 86400)
  | .ui, _ =>
    let base := match ttlSeconds with
      | some ttl => if ttl = 0 then signedLinkTtlSeconds codec side env.signedLinkTtl else ttl
      | none => signedLinkTtlSeconds codec side env.signedLinkTtl
    max 1 (min (capped codec env kind base) 86400)

/-! ## Tokens -/

/-- `_signature`. -/
def signature (codec : LinkCodec) (secret message : Points) : Except String Points :=
  if (Points.utf8 secret).isNone || (Points.utf8 message).isNone then .error "UnicodeEncodeError"
  else .ok (codec.hmac secret message)

/-- `hmac.compare_digest` on texts. -/
def compareDigest (a b : Points) : Except String Bool :=
  if a.all (· < 128) && b.all (· < 128) then .ok (a == b) else .error "TypeError"

/-- `int(value or 0)`, with `none` after a `TypeError` or a `ValueError`. -/
def intOrZero (codec : LinkCodec) (value : Json) : Except String (Option ℤ) :=
  if !truthy codec.toInterpreter value then .ok (some 0)
  else match value with
  | .bool _ => .ok (some 1)
  | .int n => .ok (some n)
  | .float t =>
    match codec.truncate t with
    | .ok n => .ok (some n)
    | .error name => if name = "ValueError" then .ok none else .error name
  | .str s => .ok (codec.parseInt s)
  | _ => .ok none

/-- An expiry that has passed. -/
def expired (side : Side) (expiresAt now : ℤ) : Bool :=
  match side with
  | .runtime => decide (0 < expiresAt ∧ expiresAt < now)
  | .ui => decide (expiresAt < now)

/-- The parts of a token before and after its first dot. -/
def tokenParts (token : Points) : Option (Points × Points) :=
  if 46 ∈ token then some (token.takeWhile (· ≠ 46), (token.dropWhile (· ≠ 46)).drop 1) else none

/-- The payload of a token under its signature, with its expiry. -/
def signedPayload (codec : LinkCodec) (env : LinkEnv) (token : Points) :
    Except String (Option (Payload × ℤ)) :=
  if env.secret.isEmpty then .ok none
  else match tokenParts token with
  | none => .ok none
  | some (encoded, supplied) =>
    if encoded.isEmpty then .ok none
    else do
      let expected ← signature codec env.secret encoded
      let signed ← compareDigest expected supplied
      if !signed then return none
      else match ← codec.decodePayload encoded with
      | some (.obj payload) =>
        if !isNumber codec.toInterpreter (get payload "v") 1 then return none
        else return (← intOrZero codec (get payload "exp")).map fun expiresAt =>
          (payload, expiresAt)
      | _ => return none

/-- `_decode_signed_link_token`. -/
def decodeSignedLinkToken (codec : LinkCodec) (side : Side) (env : LinkEnv) (token : Points)
    (allowExpired : Bool) : Except String (Option Payload) := do
  match ← signedPayload codec env token with
  | none => return none
  | some (payload, expiresAt) =>
    if expired side expiresAt env.now && !allowExpired then return none else return some payload

/-- `str(payload.get(key) or "")`. -/
def textOf (codec : LinkCodec) (payload : Payload) (key : String) : Points :=
  textOrEmpty codec.toInterpreter (get payload key)

/-- `verify_signed_link_token`. -/
def verifySignedLinkToken (codec : LinkCodec) (side : Side) (env : LinkEnv) (s : LinkStore)
    (token : Points) : Except String (Option Payload) := do
  match ← decodeSignedLinkToken codec side env token false with
  | none => return none
  | some payload =>
    if ← blocked env s (textOf codec payload "worker_id") then return none
    else return some payload

/-- What a link is signed for. -/
structure LinkScope where
  kind : Points
  workerId : Points
  tenantId : Points
  ownerId : Points
  path : Points

/-- The expiry of a minted link. -/
def mintedExpiry (codec : LinkCodec) (side : Side) (env : LinkEnv) (kind : Points)
    (ttlSeconds : Option ℤ) : ℤ :=
  let ttl := signedLinkTtlForKind codec env side kind ttlSeconds
  if ttl = 0 then 0 else env.now + ttl

/-- The payload of a minted token. -/
def mintedPayload (codec : LinkCodec) (side : Side) (env : LinkEnv) (scope : LinkScope)
    (ttlSeconds : Option ℤ) : Payload :=
  [(Points.ofString "v", .int 1),
   (Points.ofString "kind", .str scope.kind),
   (Points.ofString "worker_id", .str scope.workerId),
   (Points.ofString "tenant_id", .str scope.tenantId),
   (Points.ofString "owner_id", .str scope.ownerId),
   (Points.ofString "path", .str scope.path),
   (Points.ofString "iat", .int env.now),
   (Points.ofString "exp", .int (mintedExpiry codec side env scope.kind ttlSeconds))]

/-- `sign_link_token`, with the empty text when it refuses. -/
def signLinkToken (codec : LinkCodec) (side : Side) (env : LinkEnv) (s : LinkStore)
    (scope : LinkScope) (ttlSeconds : Option ℤ) : Except String Points := do
  if env.secret.isEmpty then return []
  else if ← blocked env s scope.workerId then return []
  else
    let encoded := codec.encodePayload (mintedPayload codec side env scope ttlSeconds)
    let signed ← signature codec env.secret encoded
    return encoded ++ 46 :: signed

/-! ## Signed parameters -/

/-- `_message`. -/
def linkMessage (scope : LinkScope) (expiresAt : ℤ) : Points :=
  List.intercalate [0] [Points.ofString "v1", scope.kind, scope.workerId, scope.tenantId,
    scope.ownerId, scope.path, Json.renderInt expiresAt]

structure LinkParams where
  kind : Points
  expiresAt : ℤ
  signature : Points

/-- `sign_link_params`. -/
def signLinkParams (codec : LinkCodec) (env : LinkEnv) (s : LinkStore) (scope : LinkScope)
    (ttlSeconds expiresAt : Option ℤ) : Except String (Option LinkParams) := do
  if env.secret.isEmpty then return none
  else if ← blocked env s scope.workerId then return none
  else
    let expiry := match expiresAt with
      | some expiry => expiry
      | none => mintedExpiry codec .runtime env scope.kind ttlSeconds
    let signed ← signature codec env.secret (linkMessage scope expiry)
    return some ⟨scope.kind, expiry, signed⟩

/-- `verify_signed_link`. -/
def verifySignedLink (codec : LinkCodec) (env : LinkEnv) (s : LinkStore) (scope : LinkScope)
    (expiresAt supplied : Points) : Except String Bool := do
  if env.secret.isEmpty || supplied.isEmpty then return false
  else if ← blocked env s scope.workerId then return false
  else match codec.parseInt expiresAt with
  | none => return false
  | some expiry =>
    if expired .runtime expiry env.now then return false
    else
      let expected ← signature codec env.secret (linkMessage scope expiry)
      compareDigest expected supplied

/-! ## References -/

/-- `_scope_key`. -/
def scopeKey (codec : LinkCodec) (payload : Payload) (targetUrl : Points) : Points :=
  AsciiJson.dumps
    [(Points.ofString "kind", textOf codec payload "kind"),
     (Points.ofString "owner_id", textOf codec payload "owner_id"),
     (Points.ofString "path", textOf codec payload "path"),
     (Points.ofString "target_url", targetUrl),
     (Points.ofString "tenant_id", textOf codec payload "tenant_id"),
     (Points.ofString "worker_id", textOf codec payload "worker_id")]

/-- A row from before the columns of the payload and of the scope. -/
def LinkRef.isLegacy (row : LinkRef) : Bool :=
  row.payloadJson.isEmpty || row.scopeKey.isEmpty

/-- What a legacy row becomes, under the payload of its token. -/
def migratedRow (codec : LinkCodec) (side : Side) (env : LinkEnv) (row : LinkRef) : LinkRef :=
  match decodeSignedLinkToken codec side env row.token true with
  | .ok (some payload) =>
    { row with
      payloadJson := if row.payloadJson.isEmpty then codec.payloadJson payload else row.payloadJson
      scopeKey := if row.scopeKey.isEmpty then scopeKey codec payload row.targetUrl
        else row.scopeKey
      expiresAt := if linkRefTtlSeconds codec env.linkRefTtl ≤ 0 then 0 else row.expiresAt }
  | _ => row

/-- The exception of a computation. -/
def fault {α : Type} : Except String α → Option String
  | .ok _ => none
  | .error name => some name

/-- `_link_ref_conn`, with `_migrate_legacy_link_ref_rows`. -/
def linkRefConn (codec : LinkCodec) (side : Side) (env : LinkEnv) (s : LinkStore) :
    Except String LinkStore :=
  match (s.refs.select fun _ row => row.isLegacy).findSome? fun entry =>
    fault (decodeSignedLinkToken codec side env entry.2.token true) with
  | some name => .error name
  | none =>
    .ok { s with
      refs := s.refs.update (fun _ row => row.isLegacy)
        fun _ row => migratedRow codec side env row }

/-- The references that have not expired. -/
def dropExpired (now : ℤ) (s : LinkStore) : LinkStore :=
  { s with refs := s.refs.delete fun _ row => decide (0 < row.expiresAt ∧ row.expiresAt < now) }

/-- The reference that is there for a scope. -/
def existingRef (s : LinkStore) (scope : Points) (now : ℤ) : Option (Points × LinkRef) :=
  s.refs.first
    (fun _ row => row.scopeKey == scope && (row.expiresAt == 0 || decide (now ≤ row.expiresAt)))
    fun a b => decide (b.createdAt < a.createdAt)

/-- The expiry of the token of an existing reference. -/
def existingExpiry (codec : LinkCodec) (side : Side) (env : LinkEnv) (row : LinkRef) :
    Except String ℤ := do
  match ← decodeSignedLinkToken codec side env row.token true with
  | none => return 0
  | some payload => return (← intOrZero codec (get payload "exp")).getD 0

/-- The row that a reference to a token is stored in. -/
def newRef (codec : LinkCodec) (env : LinkEnv) (payload : Payload) (token targetUrl : Points) :
    LinkRef where
  kind := textOf codec payload "kind"
  token := token
  targetUrl := targetUrl
  expiresAt :=
    let ttl := linkRefTtlSeconds codec env.linkRefTtl
    if 0 < ttl then env.now + ttl else 0
  createdAt := env.now
  payloadJson := codec.payloadJson payload
  scopeKey := scopeKey codec payload targetUrl

/-- The reference that answers for a scope, when there is one. -/
def reusedRef (codec : LinkCodec) (side : Side) (env : LinkEnv) (s : LinkStore)
    (payload : Payload) (targetUrl : Points) : Except String (Option Points) :=
  match existingRef s (scopeKey codec payload targetUrl) env.now with
  | none => .ok none
  | some (refId, row) =>
    if textOf codec payload "kind" ≠ Points.ofString "worker_view" then .ok (some refId)
    else (existingExpiry codec side env row).map fun expiresAt =>
      if env.now ≤ expiresAt then some refId else none

/-- `create_signed_link_ref`: the store, and the reference with the payload that it was created
for. -/
def createSignedLinkRef (codec : LinkCodec) (side : Side) (env : LinkEnv) (s : LinkStore)
    (token targetUrl : Points) : Except String (LinkStore × Option (Points × Payload)) := do
  match ← verifySignedLinkToken codec side env s token with
  | none => return (s, none)
  | some payload =>
    let opened ← linkRefConn codec side env s
    let s := dropExpired env.now opened
    match ← reusedRef codec side env s payload targetUrl with
    | some refId => return (s, some (refId, payload))
    | none =>
      let refId := Points.ofString "ghr_" ++ env.uuid
      let row := newRef codec env payload token targetUrl
      if (Points.utf8 row.kind).isNone || (Points.utf8 targetUrl).isNone then
        .error "UnicodeEncodeError"
      else match s.refs.insert? refId row with
      | none => .error "IntegrityError"
      | some refs => return ({ s with refs }, some (refId, payload))

/-- A character of `_SAFE_LINK_REF_RE`. -/
def isLinkRefChar (c : ℕ) : Bool :=
  isAlnum c || c == 95 || c == 45

/-- `_SAFE_LINK_REF_RE`. -/
def isLinkRef (t : Points) : Bool :=
  12 ≤ t.length && t.length ≤ 96 && t.all isLinkRefChar

structure LinkResolution where
  refId : Points
  kind : Points
  token : Points
  targetUrl : Points
  expiresAt : ℤ
  createdAt : ℤ
  payload : Payload

/-- The payload whose worker decides whether a reference is blocked: the user interface reads the
one that is stored beside the token. -/
def blockingPayload (codec : LinkCodec) (side : Side) (row : LinkRef) (verified : Payload) :
    Except String Payload :=
  match side with
  | .runtime => .ok verified
  | .ui =>
    if row.payloadJson.isEmpty then .ok verified
    else (codec.loads row.payloadJson).map fun parsed =>
      match parsed with
      | some (.obj (f :: fs)) => f :: fs
      | _ => verified

/-- What a row resolves to. -/
def resolvedRow (codec : LinkCodec) (side : Side) (env : LinkEnv) (s : LinkStore) (refId : Points)
    (row : LinkRef) : Except String (Option LinkResolution) := do
  match ← decodeSignedLinkToken codec side env row.token true with
  | none => return none
  | some verified =>
    let payload ← blockingPayload codec side row verified
    if ← blocked env s (textOf codec payload "worker_id") then return none
    else
      return some {
        refId
        kind := textOf codec verified "kind"
        token := row.token
        targetUrl := row.targetUrl
        expiresAt := row.expiresAt
        createdAt := row.createdAt
        payload := verified }

/-- `resolve_signed_link_ref`: the store, and what the reference resolves to. The store is left
before the token is read, so that it stays when the rest raises. -/
def resolveSignedLinkRef (codec : LinkCodec) (side : Side) (env : LinkEnv) (s : LinkStore)
    (refId : Points) : Except String (LinkStore × Except String (Option LinkResolution)) :=
  let clean := Points.strip refId
  if !isLinkRef clean then .ok (s, .ok none)
  else (linkRefConn codec side env s).map fun opened =>
    let s := dropExpired env.now opened
    match s.refs.get? clean with
    | none => (s, .ok none)
    | some row => (s, resolvedRow codec side env s clean row)

/-! ## Revocation -/

/-- The pattern of the scopes of a worker. -/
def revocationPattern (workerId : Points) : Points :=
  37 :: AsciiJson.fieldPattern (Points.ofString "worker_id")
    (34 :: (AsciiJson.body workerId ++ [34, 37]))

/-- `SQLITE_MAX_LIKE_PATTERN_LENGTH`. -/
def maxLikePatternLength : ℕ := 50000

/-- `revoke_signed_link_refs_for_worker`: the store, and the number of references deleted. -/
def revokeSignedLinkRefsForWorker (codec : LinkCodec) (side : Side) (env : LinkEnv)
    (s : LinkStore) (workerId : Points) : Except String (LinkStore × ℕ) := do
  let clean := Points.strip workerId
  if clean.isEmpty then return (s, 0)
  else
    let opened ← linkRefConn codec side env s
    let pattern := revocationPattern clean
    if (Points.utf8 clean).isNone then .error "UnicodeEncodeError"
    else if maxLikePatternLength < pattern.length ∧ opened.refs.entries ≠ [] then
      .error "OperationalError"
    else
      let revocations := (opened.revocations.insert? clean env.now).getD opened.revocations
      let matching := fun (_ : Points) (row : LinkRef) => Like.like pattern row.scopeKey
      return ({ refs := opened.refs.delete matching, revocations },
        (opened.refs.select matching).length)

end GlassHive.SignedLinks
