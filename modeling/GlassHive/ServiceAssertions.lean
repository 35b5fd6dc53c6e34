import GlassHive.Library.Table
import GlassHive.Library.Text
import GlassHive.Library.Transition
import Mathlib.Logic.Function.Basic

/-!
# Service assertions

An account service proves itself with a short-lived signed assertion. A verifier checks signature
and time first, and consumes the nonce of the assertion in a later transaction with a clock reading
of its own, which removes the nonces that expired. Nothing checks the time again, so a verifier that
stalls until the assertion has expired may find no trace of its first use.

Texts are lists of characters and `AssertionCodec` stands for HMAC-SHA256 and the JSON module.
-/

namespace GlassHive

open Relational Transition

/-! ## Texts -/

/-- `[A-Za-z0-9]`. -/
def isAlphanumeric (c : Char) : Bool :=
  c.isAlphanum

/-- `[a-f0-9]{64}`. -/
def isSha256 (text : Text) : Bool :=
  text.length == 64 && text.all fun c => c.isDigit || ('a' ≤ c && c ≤ 'f')

/-- `_NONCE_PATTERN`. -/
def isNonce : Text → Bool
  | [] => false
  | c :: cs =>
    isAlphanumeric c && 7 ≤ cs.length && cs.length ≤ 191 &&
      cs.all fun c => isAlphanumeric c || c ∈ ['.', '_', ':', '@', '-']

/-! ## Base64 -/

/-- The digit of six bits in the alphabet that is safe in a URL. -/
def base64Digit (n : ℕ) : Char :=
  if n < 26 then Char.ofNat (65 + n)
  else if n < 52 then Char.ofNat (97 + (n - 26))
  else if n < 62 then Char.ofNat (48 + (n - 52))
  else if n = 62 then '-' else '_'

/-- The six bits of a digit. -/
def base64Value (c : Char) : ℕ :=
  if c.isUpper then c.toNat - 65
  else if c.isLower then c.toNat - 97 + 26
  else if c.isDigit then c.toNat - 48 + 52
  else if c = '-' then 62 else 63

/-- Bytes as base64 digits, without padding. -/
def base64Encode : List UInt8 → Text
  | a :: b :: c :: rest =>
    let n := a.toNat * 65536 + b.toNat * 256 + c.toNat
    base64Digit (n / 262144) :: base64Digit (n / 4096 % 64) :: base64Digit (n / 64 % 64) ::
      base64Digit (n % 64) :: base64Encode rest
  | [a, b] =>
    let n := a.toNat * 1024 + b.toNat * 4
    [base64Digit (n / 4096), base64Digit (n / 64 % 64), base64Digit (n % 64)]
  | [a] =>
    let n := a.toNat * 16
    [base64Digit (n / 64), base64Digit (n % 64)]
  | [] => []

/-- The bytes of base64 digits, none when one digit is left over. -/
def base64Decode : Text → Option (List UInt8)
  | a :: b :: c :: d :: rest =>
    let n := base64Value a * 262144 + base64Value b * 4096 + base64Value c * 64 + base64Value d
    (base64Decode rest).map fun bytes =>
      UInt8.ofNat (n / 65536) :: UInt8.ofNat (n / 256) :: UInt8.ofNat n :: bytes
  | [a, b, c] =>
    let n := (base64Value a * 4096 + base64Value b * 64 + base64Value c) / 4
    some [UInt8.ofNat (n / 256), UInt8.ofNat n]
  | [a, b] => some [UInt8.ofNat ((base64Value a * 64 + base64Value b) / 16)]
  | [_] => none
  | [] => some []

/-! ## Verification -/

/-- `ServiceAssertionError`. -/
structure ServiceAssertionError where
  code : String
  message : String
  statusCode : ℕ := 401
  deriving DecidableEq, Repr

/-- The value of a claim. Of a float, an array and an object only what the checks read is kept : its
text, its truth and whether it equals one. -/
inductive ClaimValue
  | null
  | bool (b : Bool)
  | int (n : ℤ)
  | str (s : Text)
  | other (text : Text) (truthy one : Bool)
  deriving DecidableEq, Repr

namespace ClaimValue

/-- `str(value)`. -/
def toText : ClaimValue → Text
  | .null => "None".toList
  | .bool true => "True".toList
  | .bool false => "False".toList
  | .int n => (toString n).toList
  | .str s => s
  | .other text _ _ => text

/-- `bool(value)`. -/
def truthy : ClaimValue → Bool
  | .null => false
  | .bool b => b
  | .int n => n != 0
  | .str s => !s.isEmpty
  | .other _ truthy _ => truthy

/-- `value == 1`. -/
def isOne : ClaimValue → Bool
  | .null => false
  | .bool b => b
  | .int n => n == 1
  | .str _ => false
  | .other _ _ one => one

/-- `str(value or "")`. -/
def textOrEmpty (value : ClaimValue) : Text :=
  if value.truthy then value.toText else []

end ClaimValue

/-- The fields of a decoded payload. -/
abbrev ClaimFields := List (String × ClaimValue)

/-- What `raw.get` returns. -/
def ClaimFields.get (raw : ClaimFields) (key : String) : ClaimValue :=
  (raw.lookup key).getD .null

/-- HMAC-SHA256, `json.loads` on the UTF-8 bytes of an object, and the canonical form of what such
bytes hold. -/
structure AssertionCodec where
  hmac : Text → Text → List UInt8
  loads : List UInt8 → Option ClaimFields
  canonical : List UInt8 → List UInt8

/-- The claims of a verified assertion. -/
structure ServiceClaims where
  tenantId : Text
  ownerId : Text
  iat : ℕ
  exp : ℕ
  nonce : Text
  nativeInputDigest : Option ClaimValue
  deriving DecidableEq, Repr

def serviceAssertionAudience : Text := "glasshive-account-api".toList

def serviceAssertionMaxTtlSeconds : ℕ := 60

def serviceAssertionFutureSkewSeconds : ℕ := 5

/-- `_CLAIM_KEYS`. -/
def claimKeys : List String :=
  ["v", "aud", "tenant_id", "owner_id", "iat", "exp", "nonce"]

/-- `_invalid`. -/
def invalid (message : String := "The Viventium service assertion is invalid.") :
    ServiceAssertionError :=
  { code := "service_assertion_invalid", message }

/-- `_b64url_decode`. -/
def b64urlDecode (value : Text) : Except ServiceAssertionError (List UInt8) :=
  if value.isEmpty || 8192 < value.length ||
      !value.all (fun c => isAlphanumeric c || c = '_' || c = '-') then
    .error invalid
  else
    match base64Decode value with
    | none => .error invalid
    | some decoded => if base64Encode decoded = value then .ok decoded else .error invalid

/-- `_principal`. -/
def principal (value : ClaimValue) (name : String) : Except ServiceAssertionError Text :=
  let text := Text.strip value.textOrEmpty
  if text.isEmpty || 256 < text.length || text.any (fun c => c.toNat < 32 || c.toNat = 127) then
    .error (invalid s!"The Viventium service assertion has an invalid {name}.")
  else .ok text

/-- `_epoch`. -/
def epoch (value : ClaimValue) (name : String) : Except ServiceAssertionError ℕ :=
  match value with
  | .int (.ofNat n) => .ok n
  | _ => .error (invalid s!"The Viventium service assertion has an invalid {name}.")

/-- The keys of the payload are the required ones, with or without the digest. -/
def hasClaimKeys (raw : ClaimFields) : Bool :=
  claimKeys.all (fun key => key ∈ raw.map Prod.fst) &&
    raw.all fun field => field.1 ∈ claimKeys || field.1 = "native_input_digest"

/-- The checks of `verify_service_assertion` that do not read the clock. -/
def signedClaims (codec : AssertionCodec) (secret token : Text) :
    Except ServiceAssertionError ServiceClaims := do
  if secret.isEmpty || token.isEmpty || 16384 < token.length then
    throw invalid
  let [payloadSegment, signatureSegment] := token.splitOn '.' | throw invalid
  let payload ← b64urlDecode payloadSegment
  let suppliedSignature ← b64urlDecode signatureSegment
  if codec.hmac secret payloadSegment ≠ suppliedSignature then
    throw invalid
  let some raw := codec.loads payload | throw invalid
  if !hasClaimKeys raw then
    throw invalid
  if payload ≠ codec.canonical payload then
    throw (invalid "The Viventium service assertion payload is not canonical JSON.")
  if !(raw.get "v").isOne || raw.get "aud" ≠ .str serviceAssertionAudience then
    throw invalid
  let nativeInputDigest := raw.get "native_input_digest"
  if nativeInputDigest ≠ .null && !isSha256 nativeInputDigest.toText then
    throw (invalid "Native input digest is invalid")
  let tenantId ← principal (raw.get "tenant_id") "tenant_id"
  let ownerId ← principal (raw.get "owner_id") "owner_id"
  let nonce := Text.strip (raw.get "nonce").textOrEmpty
  if !isNonce nonce then
    throw (invalid "The Viventium service assertion has an invalid nonce.")
  let iat ← epoch (raw.get "iat") "iat"
  let exp ← epoch (raw.get "exp") "exp"
  if exp ≤ iat || serviceAssertionMaxTtlSeconds < exp - iat then
    throw (invalid "The Viventium service assertion lifetime is invalid.")
  return {
    tenantId, ownerId, iat, exp, nonce
    nativeInputDigest := if nativeInputDigest = .null then none else some nativeInputDigest }

/-- `verify_service_assertion`. -/
def verifyServiceAssertion (codec : AssertionCodec) (assertion secret : Text) (nowEpoch : ℕ) :
    Except ServiceAssertionError ServiceClaims := do
  let claims ← signedClaims codec secret (Text.strip assertion)
  if nowEpoch + serviceAssertionFutureSkewSeconds < claims.iat then
    throw (invalid "The Viventium service assertion is not yet valid.")
  if claims.exp ≤ nowEpoch then
    throw {
      code := "service_assertion_expired"
      message := "The Viventium service assertion has expired." }
  return claims

/-- Verified claims are the signed ones, and the assertion has not expired. -/
theorem verifyServiceAssertion_eq_ok {codec : AssertionCodec} {assertion secret : Text}
    {nowEpoch : ℕ} {claims : ServiceClaims}
    (h : verifyServiceAssertion codec assertion secret nowEpoch = .ok claims) :
    signedClaims codec secret (Text.strip assertion) = .ok claims ∧ nowEpoch < claims.exp := by
  unfold verifyServiceAssertion at h
  cases hsigned : signedClaims codec secret (Text.strip assertion) with
  | error => simp [hsigned, bind, Except.bind] at h
  | ok signed =>
    simp only [hsigned, bind, Except.bind] at h
    split at h
    · simp [throw, throwThe, MonadExceptOf.throw] at h
    · split at h
      · simp [throw, throwThe, MonadExceptOf.throw] at h
      · have heq : signed = claims := by simpa [pure, Except.pure] using h
        subst heq
        exact ⟨rfl, by omega⟩

/-! ## The nonces -/

/-- The primary key of `service_assertion_nonces`. -/
structure NonceKey where
  audience : Text
  tenantId : Text
  ownerId : Text
  nonce : Text
  deriving DecidableEq, Repr

/-- A row of `service_assertion_nonces`. -/
structure NonceRow where
  issuedAtEpoch : ℕ
  expiresAtEpoch : ℕ
  requestMethod : String
  requestPath : String
  deriving DecidableEq, Repr

/-- The key under which the nonce of an assertion is consumed. -/
def ServiceClaims.key (claims : ServiceClaims) : NonceKey :=
  ⟨serviceAssertionAudience, claims.tenantId, claims.ownerId, claims.nonce⟩

/-- `consume_service_assertion_nonce`, with the table it leaves and whether the row is new. -/
def consumeServiceAssertionNonce (nonces : Table NonceKey NonceRow) (key : NonceKey)
    (issuedAtEpoch expiresAtEpoch : ℕ) (requestMethod requestPath : String) (nowEpoch : ℕ) :
    Table NonceKey NonceRow × Bool :=
  let nonces := nonces.delete fun _ r => r.expiresAtEpoch < nowEpoch
  let row := {
    issuedAtEpoch, expiresAtEpoch, requestPath
    requestMethod := requestMethod.toUpper }
  match nonces.insert? key row with
  | none => (nonces, false)
  | some nonces => (nonces, true)

variable {nonces : Table NonceKey NonceRow} {method path : String} {key : NonceKey}
  {exp now iat : ℕ}

/-- A nonce is consumed when no row of its key is left after the purge. -/
theorem consumed_iff :
    (consumeServiceAssertionNonce nonces key iat exp method path now).2 = true ↔
      ∀ r, nonces.get? key = some r → r.expiresAtEpoch < now := by
  unfold consumeServiceAssertionNonce
  dsimp only
  split
  · rename_i hnone
    simp only [Bool.false_eq_true, false_iff, not_forall]
    have hsome : ¬(nonces.delete fun _ r => decide (r.expiresAtEpoch < now)).get? key = none := by
      rw [← Table.insert?_isSome, hnone]
      simp
    obtain ⟨r, hr⟩ := Option.ne_none_iff_exists'.mp hsome
    obtain ⟨hget, hlive⟩ := Table.get?_delete_eq_some.mp hr
    exact ⟨r, hget, by simpa using hlive⟩
  · rename_i hsome
    simp only [true_iff]
    have hnone := (Table.insert?_eq_some hsome).1
    intro r hr
    rw [Table.get?_delete, hr] at hnone
    simpa using hnone

/-- A row that has not expired stays. -/
theorem get?_consume_of_live {k : NonceKey} {r : NonceRow} (hr : nonces.get? k = some r)
    (hlive : now ≤ r.expiresAtEpoch) :
    (consumeServiceAssertionNonce nonces key iat exp method path now).1.get? k = some r := by
  have hkept : (nonces.delete fun _ r => decide (r.expiresAtEpoch < now)).get? k = some r :=
    Table.get?_delete_eq_some.mpr ⟨hr, by simpa using hlive⟩
  unfold consumeServiceAssertionNonce
  dsimp only
  split
  · exact hkept
  · rename_i hsome
    exact Table.get?_insert_of_some hsome hkept

/-- A consumed nonce is recorded until the assertion expires. -/
theorem get?_consume_self
    (h : (consumeServiceAssertionNonce nonces key iat exp method path now).2 = true) :
    ∃ r, (consumeServiceAssertionNonce nonces key iat exp method path now).1.get? key = some r ∧
      r.expiresAtEpoch = exp := by
  unfold consumeServiceAssertionNonce at h ⊢
  dsimp only at h ⊢
  split at h
  · simp at h
  · rename_i hsome
    exact ⟨_, by rw [Table.get?_insert hsome, if_pos rfl], rfl⟩

/-! ## Verifiers -/

/-- A request that carries an assertion. -/
abbrev VerifierId := ℕ

/-- An assertion that passed verification and whose nonce is not consumed yet. -/
structure HeldAssertion where
  token : Text
  claims : ServiceClaims

/-- The nonces under a clock in seconds, with the assertions that verifiers hold and, in order,
those that were accepted. -/
structure AssertionState where
  clock : ℕ
  nonces : Table NonceKey NonceRow
  held : VerifierId → Option HeldAssertion
  accepted : List Text

/-- One transaction of a verifier. -/
inductive AssertionOp
  | verify (verifier : VerifierId) (assertion : Text)
  | consume (verifier : VerifierId) (requestMethod requestPath : String)

/-- A transaction and the seconds that pass before it. -/
structure AssertionStep where
  elapsed : ℕ
  op : AssertionOp

namespace AssertionState

variable {codec : AssertionCodec} {secret : Text} {s : AssertionState} {i : AssertionStep} {now : ℕ}

/-- No verifier has begun. -/
def init (clock : ℕ) (nonces : Table NonceKey NonceRow) : AssertionState :=
  ⟨clock, nonces, fun _ => none, []⟩

/-- Consume the nonce of an assertion that a verifier holds. -/
def consume (s : AssertionState) (now : ℕ) (verifier : VerifierId) (h : HeldAssertion)
    (requestMethod requestPath : String) : AssertionState :=
  let (nonces, consumed) := consumeServiceAssertionNonce s.nonces h.claims.key h.claims.iat
    h.claims.exp requestMethod requestPath now
  { clock := now
    nonces
    held := Function.update s.held verifier none
    accepted := if consumed then s.accepted ++ [h.token] else s.accepted }

/-- One transaction of one verifier at a time. -/
def step (codec : AssertionCodec) (secret : Text) (s : AssertionState) (i : AssertionStep) :
    AssertionState :=
  let now := s.clock + i.elapsed
  match i.op with
  | .verify verifier assertion =>
    match verifyServiceAssertion codec assertion secret now with
    | .error _ => { s with clock := now }
    | .ok claims =>
      { s with
        clock := now
        held := Function.update s.held verifier (some ⟨Text.strip assertion, claims⟩) }
  | .consume verifier requestMethod requestPath =>
    match s.held verifier with
    | none => { s with clock := now }
    | some h => s.consume now verifier h requestMethod requestPath

/-- The nonce of an accepted assertion is recorded for as long as the assertion is valid, and the
claims that a verifier holds are those of its assertion. -/
structure NoncesRecorded (codec : AssertionCodec) (secret : Text) (s : AssertionState) : Prop where
  held : ∀ v h, s.held v = some h → signedClaims codec secret h.token = .ok h.claims
  accepted : ∀ token ∈ s.accepted, ∃ claims, signedClaims codec secret token = .ok claims ∧
    (s.clock ≤ claims.exp →
      ∃ r, s.nonces.get? claims.key = some r ∧ claims.exp ≤ r.expiresAtEpoch)

/-- A verifier comes too late : its assertion was accepted before and has expired, and no row of its
nonce is left that has not. -/
def Overtaken (s : AssertionState) (now : ℕ) (h : HeldAssertion) : Prop :=
  h.token ∈ s.accepted ∧ h.claims.exp < now ∧
    ∀ r, s.nonces.get? h.claims.key = some r → r.expiresAtEpoch < now

/-- No overtaken verifier consumes. -/
def Timely (s : AssertionState) (i : AssertionStep) : Prop :=
  ∀ v method path h, i.op = .consume v method path → s.held v = some h →
    ¬s.Overtaken (s.clock + i.elapsed) h

theorem noncesRecorded_init (clock : ℕ) (nonces : Table NonceKey NonceRow) :
    (init clock nonces).NoncesRecorded codec secret where
  held := by simp [init]
  accepted := by simp [init]

/-- Time alone loses no nonce of a valid assertion. -/
theorem NoncesRecorded.advance (h : s.NoncesRecorded codec secret) (hle : s.clock ≤ now) :
    { s with clock := now }.NoncesRecorded codec secret where
  held := h.held
  accepted token htoken := by
    obtain ⟨claims, hsigned, hrow⟩ := h.accepted token htoken
    exact ⟨claims, hsigned, fun hnow => hrow (hle.trans hnow)⟩

theorem NoncesRecorded.consume (h : s.NoncesRecorded codec secret) (hle : s.clock ≤ now)
    {v : VerifierId} {held : HeldAssertion} (hheld : s.held v = some held) (method path : String) :
    (s.consume now v held method path).NoncesRecorded codec secret where
  held w other hother := by
    change Function.update s.held v none w = some other at hother
    by_cases hw : w = v
    · simp [hw] at hother
    · rw [Function.update_of_ne hw] at hother
      exact h.held w other hother
  accepted token htoken := by
    have hkept : ∀ token ∈ s.accepted, ∃ claims, signedClaims codec secret token = .ok claims ∧
        (now ≤ claims.exp → ∃ r, (s.consume now v held method path).nonces.get? claims.key =
          some r ∧ claims.exp ≤ r.expiresAtEpoch) := by
      intro token htoken
      obtain ⟨claims, hsigned, hrow⟩ := h.accepted token htoken
      refine ⟨claims, hsigned, fun hnow => ?_⟩
      obtain ⟨r, hr, hexp⟩ := hrow (hle.trans hnow)
      exact ⟨r, get?_consume_of_live hr (hnow.trans hexp), hexp⟩
    by_cases hconsumed : (consumeServiceAssertionNonce s.nonces held.claims.key held.claims.iat
        held.claims.exp method path now).2 = true
    · have haccepted : (s.consume now v held method path).accepted =
          s.accepted ++ [held.token] := if_pos hconsumed
      rw [haccepted, List.mem_append, List.mem_singleton] at htoken
      rcases htoken with htoken | rfl
      · exact hkept token htoken
      · refine ⟨held.claims, h.held v held hheld, fun _ => ?_⟩
        obtain ⟨r, hr, hexp⟩ := get?_consume_self hconsumed
        exact ⟨r, hr, hexp.ge⟩
    · have haccepted : (s.consume now v held method path).accepted = s.accepted :=
        if_neg hconsumed
      rw [haccepted] at htoken
      exact hkept token htoken

theorem NoncesRecorded.step (h : s.NoncesRecorded codec secret) (i : AssertionStep) :
    (s.step codec secret i).NoncesRecorded codec secret := by
  obtain ⟨elapsed, op⟩ := i
  have hle : s.clock ≤ s.clock + elapsed := Nat.le_add_right _ _
  cases op with
  | verify v assertion =>
    cases hverify : verifyServiceAssertion codec assertion secret (s.clock + elapsed) with
    | error => simpa only [AssertionState.step, hverify] using h.advance hle
    | ok =>
      simp only [AssertionState.step, hverify]
      refine ⟨fun w held hheld => ?_, (h.advance hle).accepted⟩
      dsimp only at hheld
      by_cases hw : w = v
      · subst hw
        rw [Function.update_self, Option.some.injEq] at hheld
        subst hheld
        exact (verifyServiceAssertion_eq_ok hverify).1
      · rw [Function.update_of_ne hw] at hheld
        exact h.held w held hheld
  | consume v method path =>
    cases hheld : s.held v with
    | none => simpa only [AssertionState.step, hheld] using h.advance hle
    | some => simpa only [AssertionState.step, hheld] using h.consume hle hheld method path

/-- A consumption accepts an assertion once more exactly when its verifier was overtaken. -/
theorem nodup_consume_iff (h : s.NoncesRecorded codec secret) (hnodup : s.accepted.Nodup)
    (hle : s.clock ≤ now) {v : VerifierId} {held : HeldAssertion} (hheld : s.held v = some held)
    (method path : String) :
    (s.consume now v held method path).accepted.Nodup ↔ ¬s.Overtaken now held := by
  by_cases hconsumed : (consumeServiceAssertionNonce s.nonces held.claims.key held.claims.iat
      held.claims.exp method path now).2 = true
  · have haccepted : (s.consume now v held method path).accepted = s.accepted ++ [held.token] :=
      if_pos hconsumed
    have hpurged := consumed_iff.mp hconsumed
    have hagain : held.token ∈ s.accepted → held.claims.exp < now := by
      intro htoken
      obtain ⟨claims, hsigned, hrow⟩ := h.accepted _ htoken
      have hclaims : claims = held.claims := by
        have hown := h.held v held hheld
        rw [hsigned] at hown
        exact Except.ok.inj hown
      subst hclaims
      -- while the assertion is valid its row is there, and this consumption would fail
      by_contra hvalid
      obtain ⟨r, hr, hexp⟩ := hrow (by omega)
      have := hpurged r hr
      omega
    rw [haccepted, List.nodup_append]
    constructor
    · rintro ⟨-, -, hfresh⟩ ⟨htoken, -⟩
      exact hfresh _ htoken _ (List.mem_singleton_self _) rfl
    · intro htimely
      refine ⟨hnodup, List.nodup_singleton _, ?_⟩
      rintro token htoken _ hother rfl
      rw [List.mem_singleton.mp hother] at htoken
      exact htimely ⟨htoken, hagain htoken, hpurged⟩
  · have haccepted : (s.consume now v held method path).accepted = s.accepted :=
      if_neg hconsumed
    rw [haccepted]
    exact iff_of_true hnodup fun hover => hconsumed (consumed_iff.mpr hover.2.2)

/-- A step accepts no assertion once more exactly when it is timely. -/
theorem nodup_step_iff (h : s.NoncesRecorded codec secret) (hnodup : s.accepted.Nodup)
    (i : AssertionStep) : (s.step codec secret i).accepted.Nodup ↔ s.Timely i := by
  obtain ⟨elapsed, op⟩ := i
  cases op with
  | verify v assertion =>
    have hsame : (s.step codec secret ⟨elapsed, .verify v assertion⟩).accepted = s.accepted := by
      unfold step
      dsimp only
      split <;> rfl
    rw [hsame]
    exact iff_of_true hnodup (by simp [Timely])
  | consume v method path =>
    cases hheld : s.held v with
    | none =>
      have hsame : s.step codec secret ⟨elapsed, .consume v method path⟩ =
          { s with clock := s.clock + elapsed } := by
        simp only [step, hheld]
      rw [hsame]
      refine iff_of_true hnodup ?_
      rintro w _ _ held hop hsome
      cases hop
      simp [hheld] at hsome
    | some held =>
      have hconsume : s.step codec secret ⟨elapsed, .consume v method path⟩ =
          s.consume (s.clock + elapsed) v held method path := by
        simp only [step, hheld]
      rw [hconsume, nodup_consume_iff h hnodup (Nat.le_add_right _ _) hheld]
      constructor
      · rintro hfresh w _ _ other hop hother
        cases hop
        rw [hheld, Option.some.injEq] at hother
        exact hother ▸ hfresh
      · exact fun htimely => htimely v method path held rfl hheld

/-- The assertions accepted by a run extend those accepted before it. -/
theorem accepted_prefix_step (i : AssertionStep) :
    s.accepted <+: (s.step codec secret i).accepted := by
  obtain ⟨elapsed, op⟩ := i
  cases op with
  | verify =>
    unfold step
    dsimp only
    split <;> exact List.prefix_rfl
  | consume v =>
    cases hheld : s.held v with
    | none => simp only [step, hheld, List.prefix_rfl]
    | some =>
      simp only [step, hheld, consume]
      split
      · exact List.prefix_append _ _
      · exact List.prefix_rfl

theorem accepted_prefix_run (is : List AssertionStep) :
    s.accepted <+: (run (step codec secret) s is).accepted := by
  induction is generalizing s with
  | nil => exact List.prefix_rfl
  | cons i is ih => exact ( accepted_prefix_step i).trans ih

theorem nodup_run_iff (h : s.NoncesRecorded codec secret) (hnodup : s.accepted.Nodup)
    (is : List AssertionStep) :
    (run (step codec secret) s is).accepted.Nodup ↔ Along (step codec secret) Timely s is := by
  induction is generalizing s with
  | nil => simpa using hnodup
  | cons i is ih =>
    rw [run_cons, along_cons, ← nodup_step_iff h hnodup i]
    constructor
    · intro hrun
      have hstep := hrun.sublist ( accepted_prefix_run is).sublist
      exact ⟨hstep, (ih (h.step i) hstep).mp hrun⟩
    · rintro ⟨hstep, htimely⟩
      exact (ih (h.step i) hstep).mpr htimely

/-- Every verifier that consumes does so before its assertion expires. -/
def Prompt (s : AssertionState) (i : AssertionStep) : Prop :=
  ∀ v method path h, i.op = .consume v method path → s.held v = some h →
    s.clock + i.elapsed ≤ h.claims.exp

theorem Prompt.timely (h : s.Prompt i) : s.Timely i := by
  intro v method path held hop hheld hover
  have hvalid := h v method path held hop hheld
  have hexpired := hover.2.1
  omega

/-- Verifiers that do not stall past the expiry accept every assertion at most once. -/
theorem nodup_of_prompt {clock : ℕ} {is : List AssertionStep}
    (h : Along (step codec secret) Prompt (init clock nonces) is) :
    (run (step codec secret) (init clock nonces) is).accepted.Nodup :=
  (nodup_run_iff ( noncesRecorded_init clock nonces) List.nodup_nil is).mpr
    (Along.imp _ (fun _ _ hprompt => hprompt.timely) h)

end AssertionState

/-- No assertion is accepted by two verifiers exactly when no overtaken verifier consumes. -/
theorem assertions_accepted_once_iff (codec : AssertionCodec) (secret : Text) (clock : ℕ)
    (nonces : Table NonceKey NonceRow) (is : List AssertionStep) :
    (run (AssertionState.step codec secret) (.init clock nonces) is).accepted.Nodup ↔
      Along (AssertionState.step codec secret) AssertionState.Timely (.init clock nonces) is :=
  AssertionState.nodup_run_iff (AssertionState.noncesRecorded_init clock nonces) List.nodup_nil is

/-! ## A verifier that stalls -/

/-- The payload of an assertion issued at `100` that expires at `160`. -/
def stalledPayload : Text :=
  "eyJhdWQiOiJnbGFzc2hpdmUtYWNjb3VudC1hcGkiLCJleHAiOjE2MCwiaWF0IjoxMDAsIm5vbmNlIjoi".toList ++
    "bm9uY2VfNDIiLCJvd25lcl9pZCI6Im1pYSIsInRlbmFudF9pZCI6ImFjbWUiLCJ2IjoxfQ".toList

/-- The signature of the payload under the key `secret`. -/
def stalledSignature : Text :=
  "6un_U-XCBn1jfEKnILSiKds42VA1JNeqznL35XmRQ7I".toList

/-- HMAC-SHA256 and JSON on that assertion. -/
def stalledCodec : AssertionCodec where
  hmac _ _ := [234, 233, 255, 83, 229, 194, 6, 125, 99, 124, 66, 167, 32, 180, 162, 41, 219, 56,
    217, 80, 53, 36, 215, 170, 206, 114, 247, 229, 121, 145, 67, 178]
  loads _ := some [("aud", .str serviceAssertionAudience), ("exp", .int 160), ("iat", .int 100),
    ("nonce", .str "nonce_42".toList), ("owner_id", .str "mia".toList),
    ("tenant_id", .str "acme".toList), ("v", .int 1)]
  canonical payload := payload

/-- Two verifiers check the assertion a second before it expires. One consumes at once, the other
two seconds later. -/
def stalledRun : List AssertionStep :=
  let assertion := stalledPayload ++ '.' :: stalledSignature
  [⟨59, .verify 1 assertion⟩, ⟨0, .verify 2 assertion⟩, ⟨0, .consume 1 "POST" "/v1/accounts"⟩,
    ⟨2, .consume 2 "POST" "/v1/accounts"⟩]

/-- Both accept it, since the second consumption removes the nonce of the first. -/
theorem assertions_accepted_twice :
    ¬(run (AssertionState.step stalledCodec "secret".toList) (.init 100 .empty)
      stalledRun).accepted.Nodup := by
  unfold stalledRun stalledCodec stalledPayload stalledSignature
  repeat rw [String.toList_ofList]
  decide +kernel

end GlassHive
