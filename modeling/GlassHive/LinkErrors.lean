import GlassHive.LinkBinding
import GlassHive.LinkReuse

/-!
# When the verification of a link raises

`hmac.compare_digest` raises on a text that is not ASCII, and what is signed or looked up has to have
a UTF-8 form. Behind a signature that fits, the JSON module raises when its input is nested too
deep, and `int` when an expiry is infinite. Everything else that is wrong with a link is an answer.
-/

namespace GlassHive.SignedLinks

open Relational RunActions Fallible

/-! ## What is verified without an exception -/

/-- Every character has a UTF-8 form. -/
def Encodable (t : Points) : Prop :=
  t.all Points.isScalar = true

def IsAscii (t : Points) : Prop :=
  t.all (· < 128) = true

/-- The expiry of a payload is not infinite. -/
def FiniteExpiry (codec : LinkCodec) (payload : Payload) : Prop :=
  ∀ t, get payload "exp" = .float t → truthy codec.toInterpreter (.float t) = true →
    ∀ name, codec.truncate t = .error name → name = "ValueError"

/-- The first part of a token decodes, and when it is a payload its expiry is read. -/
def PayloadReads (codec : LinkCodec) (encoded : Points) : Prop :=
  Returns (codec.decodePayload encoded) ∧
    ∀ payload, codec.decodePayload encoded = .ok (some (.obj payload)) →
      isNumber codec.toInterpreter (get payload "v") 1 = true → FiniteExpiry codec payload

/-- The signature of a token can be compared, and what is signed can be read. -/
def Readable (codec : LinkCodec) (env : LinkEnv) (token : Points) : Prop :=
  env.secret ≠ [] → ∀ encoded supplied, tokenParts token = some (encoded, supplied) →
    encoded ≠ [] → (Encodable env.secret ∧ Encodable encoded) ∧ IsAscii supplied ∧
      (codec.hmac env.secret encoded = supplied → PayloadReads codec encoded)

/-- A signed token with a payload, and its expiry. -/
def Carries (codec : LinkCodec) (env : LinkEnv) (token : Points) (payload : Payload)
    (expiresAt : ℤ) : Prop :=
  env.secret ≠ [] ∧ ∃ encoded ≠ [],
    tokenParts token = some (encoded, codec.hmac env.secret encoded) ∧
    codec.decodePayload encoded = .ok (some (.obj payload)) ∧
    isNumber codec.toInterpreter (get payload "v") 1 = true ∧
    intOrZero codec (get payload "exp") = .ok (some expiresAt)

/-- The worker of a payload can be looked up. -/
def HasWorker (codec : LinkCodec) (payload : Payload) : Prop :=
  Encodable (Points.strip (textOf codec payload "worker_id"))

/-- The token can be read, and its worker can be looked up. -/
def ReadsWorker (codec : LinkCodec) (env : LinkEnv) (token : Points) : Prop :=
  Readable codec env token ∧
    ∀ payload expiresAt, Carries codec env token payload expiresAt → HasWorker codec payload

/-- The token can be read, and its worker can be looked up unless it has expired. -/
def VerifiesToken (codec : LinkCodec) (env : LinkEnv) (token : Points) : Prop :=
  Readable codec env token ∧ ∀ payload expiresAt, Carries codec env token payload expiresAt →
    expired .runtime expiresAt env.now = false → HasWorker codec payload

/-- The expiry of a row once the database is open. -/
def LinkRef.openedExpiry (codec : LinkCodec) (env : LinkEnv) (row : LinkRef) : ℤ :=
  (if row.isLegacy then migratedRow codec .runtime env row else row).expiresAt

/-- The tokens of all legacy rows can be read, and so can the token under the reference, with its
worker. -/
def ResolvesRef (codec : LinkCodec) (env : LinkEnv) (s : LinkStore) (refId : Points) : Prop :=
  isLinkRef (Points.strip refId) = true →
    (∀ legacyId row, s.refs.get? legacyId = some row → row.isLegacy = true →
      Readable codec env row.token) ∧
    ∀ row, s.refs.get? (Points.strip refId) = some row →
      expired .runtime (row.openedExpiry codec env) env.now = false →
      ReadsWorker codec env row.token

/-- A supplied signature can be compared when it comes to that, and the worker can be looked up. -/
def VerifiesLink (codec : LinkCodec) (env : LinkEnv) (s : LinkStore) (scope : LinkScope)
    (text supplied : Points) : Prop :=
  env.secret ≠ [] → supplied ≠ [] → Encodable (Points.strip scope.workerId) ∧
    ∀ expiry, blocked env s scope.workerId = .ok false → codec.parseInt text = some expiry →
      expired .runtime expiry env.now = false →
      Encodable env.secret ∧ (∀ t ∈ scope.fields, Encodable t) ∧ IsAscii supplied

variable {codec : LinkCodec} {env : LinkEnv} {s : LinkStore}
  {token secret message a b refId : Points} {payload : Payload} {scope : LinkScope} {row : LinkRef}

/-! ## Parts of the verification -/

theorem isNone_utf8_iff (t : Points) : (Points.utf8 t).isNone = true ↔ ¬Encodable t := by
  unfold Points.utf8 Encodable
  split <;> simp_all

theorem returns_blocked_iff {workerId : Points} :
    Returns (blocked env s workerId) ↔ Encodable (Points.strip workerId) := by
  unfold blocked
  dsimp only
  split
  · rename_i hempty
    simp [List.isEmpty_iff.mp hempty, Encodable]
  · split
    · rename_i hutf8
      simpa using (isNone_utf8_iff _).mp hutf8
    · rename_i hutf8
      rw [isNone_utf8_iff, not_not] at hutf8
      simpa using hutf8

theorem signature_eq_ok_iff {digest : Points} :
    signature codec secret message = .ok digest ↔
      (Encodable secret ∧ Encodable message) ∧ codec.hmac secret message = digest := by
  unfold signature
  split
  · rename_i h
    rw [Bool.or_eq_true, isNone_utf8_iff, isNone_utf8_iff, ← not_and_or] at h
    simp [h]
  · rename_i h
    rw [Bool.or_eq_true, isNone_utf8_iff, isNone_utf8_iff, ← not_and_or, not_not] at h
    simp [h]

theorem returns_signature_iff :
    Returns (signature codec secret message) ↔ Encodable secret ∧ Encodable message := by
  simp [Returns, signature_eq_ok_iff]

theorem encodable_linkMessage_iff {expiry : ℤ} :
    Encodable (linkMessage scope expiry) ↔ ∀ t ∈ scope.fields, Encodable t := by
  have hexpiry : (Json.renderInt expiry).all Points.isScalar = true := by
    rw [List.all_eq_true]
    intro c hc
    rcases isDigit_or_eq_minus hc with hdigit | rfl
    · simp only [Json.isDigit, Bool.and_eq_true, decide_eq_true_eq] at hdigit
      simp only [Points.isScalar, Bool.or_eq_true, decide_eq_true_eq]
      omega
    · decide
  have hversion : (Points.ofString "v1").all Points.isScalar = true := by decide
  have hzero : Points.isScalar 0 = true := by decide
  unfold Encodable linkMessage LinkScope.fields
  simp [List.intercalate, List.all_append, hexpiry, hversion, hzero]

theorem compareDigest_eq_ok_iff (ha : IsAscii a) {same : Bool} :
    compareDigest a b = .ok same ↔ IsAscii b ∧ (a == b) = same := by
  unfold compareDigest
  unfold IsAscii at *
  rw [ha, Bool.true_and]
  split <;> simp_all

theorem returns_compareDigest_iff (ha : IsAscii a) : Returns (compareDigest a b) ↔ IsAscii b := by
  simp [Returns, compareDigest_eq_ok_iff ha]

theorem returns_intOrZero_iff :
    Returns (intOrZero codec (get payload "exp")) ↔ FiniteExpiry codec payload := by
  unfold FiniteExpiry intOrZero
  cases hexp : get payload "exp" with
  | float t =>
    by_cases htruthy : truthy codec.toInterpreter (.float t) = true
    · cases htruncate : codec.truncate t with
      | ok => simp [htruthy, htruncate]
      | error name => by_cases hname : name = "ValueError" <;> simp [htruthy, htruncate, hname]
    · simp [htruthy]
  | _ => split <;> simp

/-- What follows the comparison of a signature returns when the payload can be read. -/
theorem returns_payload_iff {encoded : Points} :
    Returns (do
      match ← codec.decodePayload encoded with
      | some (.obj payload) =>
        if !isNumber codec.toInterpreter (get payload "v") 1 then return none
        else return (← intOrZero codec (get payload "exp")).map fun expiresAt =>
          (payload, expiresAt)
      | _ => return none : Except String (Option (Payload × ℤ))) ↔
    PayloadReads codec encoded := by
  unfold PayloadReads
  rw [returns_bind]
  refine and_congr_right fun _ => ?_
  constructor
  · intro h payload hdecoded hversion
    have hreturns := h _ hdecoded
    dsimp only at hreturns
    rw [hversion, if_neg (by simp), returns_bind] at hreturns
    exact returns_intOrZero_iff.mp hreturns.1
  · intro h decoded hdecoded
    split
    · rename_i payload
      split
      · exact ⟨_, rfl⟩
      · rename_i hversion
        rw [returns_bind]
        exact ⟨returns_intOrZero_iff.mpr (h payload hdecoded (by simpa using hversion)),
          fun _ _ => ⟨_, rfl⟩⟩
    · exact ⟨_, rfl⟩

theorem returns_signedPayload_iff (hdigest : ∀ key m, IsAscii (codec.hmac key m)) :
    Returns (signedPayload codec env token) ↔ Readable codec env token := by
  unfold signedPayload Readable
  by_cases hkey : env.secret = []
  · simp [hkey]
  rw [if_neg (by simpa using hkey)]
  rcases hparts : tokenParts token with _ | ⟨encoded, supplied⟩
  · simp
  by_cases hencoded : encoded = []
  · simp [hencoded]
  have hascii := hdigest env.secret encoded
  simp only [List.isEmpty_iff, hencoded, if_false, returns_bind, returns_signature_iff, ne_eq, hkey,
    not_false_eq_true, true_imp_iff, Option.some.injEq, Prod.mk.injEq, and_imp,
    forall_apply_eq_imp_iff, forall_eq', signature_eq_ok_iff]
  refine and_congr_right fun hsigned => ?_
  simp only [hsigned, true_imp_iff, returns_compareDigest_iff hascii,
    compareDigest_eq_ok_iff hascii, and_imp, forall_eq']
  refine and_congr_right fun hsupplied => ?_
  by_cases hsame : codec.hmac env.secret encoded = supplied
  · simp only [hsame, beq_self_eq_true, Bool.not_true, Bool.false_eq_true, if_false, hsupplied,
      true_imp_iff, forall_eq']
    exact returns_payload_iff
  · simp [hsame, pure, Except.pure]

/-- What a token that can be read gives. -/
theorem signedPayload_eq_ok_iff (hdigest : ∀ key m, IsAscii (codec.hmac key m))
    (hreadable : Readable codec env token) {expiresAt : ℤ} :
    signedPayload codec env token = .ok (some (payload, expiresAt)) ↔
      Carries codec env token payload expiresAt := by
  unfold signedPayload Carries
  constructor
  · intro h
    split at h
    · cases h
    rename_i hkey
    split at h
    · cases h
    rename_i encoded supplied hparts
    split at h
    · cases h
    rename_i hencoded
    obtain ⟨digest, hsigned, h⟩ := bind_eq_ok.mp h
    obtain ⟨-, rfl⟩ := signature_eq_ok_iff.mp hsigned
    obtain ⟨same, hcompared, h⟩ := bind_eq_ok.mp h
    obtain ⟨-, rfl⟩ := (compareDigest_eq_ok_iff (hdigest _ _)).mp hcompared
    split at h
    · cases h
    rename_i hsame
    obtain ⟨decoded, hdecoded, h⟩ := bind_eq_ok.mp h
    split at h
    · split at h
      · cases h
      rename_i hversion
      obtain ⟨expiry, hexpiry, h⟩ := bind_eq_ok.mp h
      obtain ⟨e, rfl, hpair⟩ := Option.map_eq_some_iff.mp (Except.ok.inj h)
      obtain ⟨rfl, rfl⟩ := Prod.mk.inj hpair
      have hsupplied : codec.hmac env.secret encoded = supplied := by simpa using hsame
      refine ⟨by simpa using hkey, encoded, by simpa using hencoded, ?_, hdecoded,
        by simpa using hversion, hexpiry⟩
      rw [hsupplied]
      exact hparts
    · cases h
  · rintro ⟨hkey, encoded, hencoded, hparts, hdecoded, hversion, hexpiry⟩
    obtain ⟨hencodable, hsupplied, -⟩ := hreadable hkey _ _ hparts hencoded
    have hsigned : signature codec env.secret encoded = .ok (codec.hmac env.secret encoded) :=
      signature_eq_ok_iff.mpr ⟨hencodable, rfl⟩
    have hsame := (compareDigest_eq_ok_iff (hdigest _ _)).mpr ⟨hsupplied, beq_self_eq_true _⟩
    rw [if_neg (by simpa using hkey), hparts]
    dsimp only
    rw [if_neg (by simpa using hencoded), hsigned]
    dsimp only [bind, Except.bind]
    rw [hsame]
    dsimp only
    rw [if_neg (by simp), hdecoded]
    dsimp only
    rw [if_neg (by simp [hversion]), hexpiry]
    rfl

theorem returns_decode_iff {allowExpired : Bool} :
    Returns (decodeSignedLinkToken codec .runtime env token allowExpired) ↔
      Returns (signedPayload codec env token) := by
  unfold decodeSignedLinkToken
  rw [returns_bind]
  refine and_iff_left_of_imp fun _ signed _ => ?_
  split
  · exact ⟨_, rfl⟩
  · split <;> exact ⟨_, rfl⟩

/-! ## The three calls -/

theorem fault_eq_none_iff {α : Type} {x : Except String α} : fault x = none ↔ Returns x := by
  cases x <;> simp [fault]

theorem returns_verifySignedLinkToken_iff (hdigest : ∀ key m, IsAscii (codec.hmac key m)) :
    Returns (verifySignedLinkToken codec .runtime env s token) ↔ VerifiesToken codec env token := by
  unfold verifySignedLinkToken VerifiesToken
  rw [returns_bind, returns_decode_iff, returns_signedPayload_iff hdigest]
  refine and_congr_right fun hreadable => ?_
  constructor
  · intro h payload expiresAt hcarries hopen
    have hsigned := (signedPayload_eq_ok_iff hdigest hreadable).mpr hcarries
    have hreturns := h _ (decode_eq_ok_iff.mpr ⟨expiresAt, hsigned, .inr hopen⟩)
    exact returns_blocked_iff.mp (returns_bind.mp hreturns).1
  · intro h decoded hdecoded
    split
    · exact ⟨_, rfl⟩
    · rename_i payload
      obtain ⟨expiresAt, hsigned, hopen⟩ := decode_eq_ok_iff.mp hdecoded
      have hcarries := (signedPayload_eq_ok_iff hdigest hreadable).mp hsigned
      refine returns_bind.mpr ⟨returns_blocked_iff.mpr (h payload expiresAt hcarries ?_), ?_⟩
      · simpa using hopen
      · intro b _
        split <;> exact ⟨_, rfl⟩

theorem returns_verifySignedLink_iff (hdigest : ∀ key m, IsAscii (codec.hmac key m))
    {text supplied : Points} :
    Returns (verifySignedLink codec env s scope text supplied) ↔
      VerifiesLink codec env s scope text supplied := by
  unfold verifySignedLink VerifiesLink
  by_cases hkey : env.secret = []
  · simp [hkey, pure, Except.pure]
  by_cases hsupplied : supplied = []
  · simp [hsupplied, pure, Except.pure]
  rw [if_neg (by simp [hkey, hsupplied]), returns_bind, returns_blocked_iff]
  simp only [ne_eq, hkey, hsupplied, not_false_eq_true, true_imp_iff]
  refine and_congr_right fun _ => ?_
  constructor
  · intro h expiry hblocked hparse hopen
    have hreturns := h _ hblocked
    rw [if_neg (by simp), hparse] at hreturns
    dsimp only at hreturns
    rw [if_neg (by simp [hopen]), returns_bind, returns_signature_iff] at hreturns
    obtain ⟨hsigned, hcompared⟩ := hreturns
    have hdigested : signature codec env.secret (linkMessage scope expiry) =
        .ok (codec.hmac env.secret (linkMessage scope expiry)) :=
      signature_eq_ok_iff.mpr ⟨hsigned, rfl⟩
    exact ⟨hsigned.1, encodable_linkMessage_iff.mp hsigned.2,
      (returns_compareDigest_iff (hdigest _ _)).mp (hcompared _ hdigested)⟩
  · intro h b hblocked
    cases b with
    | true => exact ⟨_, rfl⟩
    | false =>
      rw [if_neg (by simp)]
      split
      · exact ⟨_, rfl⟩
      rename_i expiry hparse
      split
      · exact ⟨_, rfl⟩
      rename_i hopen
      obtain ⟨hsecret, hfields, hsupplied⟩ := h expiry hblocked hparse (by simpa using hopen)
      rw [returns_bind, returns_signature_iff]
      refine ⟨⟨hsecret, encodable_linkMessage_iff.mpr hfields⟩, fun digest hdigested => ?_⟩
      obtain ⟨-, rfl⟩ := signature_eq_ok_iff.mp hdigested
      exact (returns_compareDigest_iff (hdigest _ _)).mpr hsupplied

theorem returns_linkRefConn_iff (hdigest : ∀ key m, IsAscii (codec.hmac key m)) :
    Returns (linkRefConn codec .runtime env s) ↔
      ∀ legacyId row, s.refs.get? legacyId = some row → row.isLegacy = true →
        Readable codec env row.token := by
  have hreads : LegacyReads codec env s ↔ ∀ legacyId row, s.refs.get? legacyId = some row →
      row.isLegacy = true →
        Returns (decodeSignedLinkToken codec .runtime env row.token true) := Iff.rfl
  refine exists_linkRefConn_iff.trans (hreads.trans ?_)
  simp only [returns_decode_iff, returns_signedPayload_iff hdigest]

/-- The row that an open database has under a reference. -/
theorem get?_opened {opened : LinkStore} (h : linkRefConn codec .runtime env s = .ok opened) :
    (dropExpired env.now opened).refs.get? refId = some row ↔
      ∃ old, s.refs.get? refId = some old ∧
        expired .runtime (old.openedExpiry codec env) env.now = false ∧
        (if old.isLegacy then migratedRow codec .runtime env old else old) = row := by
  rw [get?_dropExpired, linkRefConn_refs h, Option.map_eq_some_iff]
  constructor
  · rintro ⟨⟨old, hold, rfl⟩, hopen⟩
    refine ⟨old, hold, ?_, rfl⟩
    rw [LinkRef.openedExpiry, expired, decide_eq_false_iff_not]
    omega
  · rintro ⟨old, hold, hopen, rfl⟩
    rw [LinkRef.openedExpiry, expired, decide_eq_false_iff_not] at hopen
    refine ⟨⟨old, hold, rfl⟩, ?_⟩
    omega

theorem token_opened (codec : LinkCodec) (env : LinkEnv) (row : LinkRef) :
    (if row.isLegacy then migratedRow codec .runtime env row else row).token = row.token := by
  split
  · exact token_migratedRow row
  · rfl

theorem returns_resolvedRow_iff (hdigest : ∀ key m, IsAscii (codec.hmac key m)) :
    Returns (resolvedRow codec .runtime env s refId row) ↔
      ReadsWorker codec env row.token := by
  unfold resolvedRow ReadsWorker
  rw [returns_bind, returns_decode_iff, returns_signedPayload_iff hdigest]
  refine and_congr_right fun hreadable => ?_
  constructor
  · intro h payload expiresAt hcarries
    have hsigned := (signedPayload_eq_ok_iff hdigest hreadable).mpr hcarries
    have hreturns := h _ (decode_eq_ok_iff.mpr ⟨expiresAt, hsigned, .inl rfl⟩)
    have hblocked := (returns_bind.mp hreturns).2 payload rfl
    exact returns_blocked_iff.mp (returns_bind.mp hblocked).1
  · intro h decoded hdecoded
    split
    · exact ⟨_, rfl⟩
    · rename_i payload
      obtain ⟨expiresAt, hsigned, -⟩ := decode_eq_ok_iff.mp hdecoded
      have hcarries := (signedPayload_eq_ok_iff hdigest hreadable).mp hsigned
      refine returns_bind.mpr ⟨⟨_, rfl⟩, fun stored hstored => ?_⟩
      obtain rfl := Except.ok.inj hstored
      refine returns_bind.mpr ⟨returns_blocked_iff.mpr (h payload expiresAt hcarries), ?_⟩
      intro b _
      split <;> exact ⟨_, rfl⟩

theorem returns_resolveSignedLinkRef_iff (hdigest : ∀ key m, IsAscii (codec.hmac key m)) :
    (∃ s' r, resolveSignedLinkRef codec .runtime env s refId = .ok (s', .ok r)) ↔
      ResolvesRef codec env s refId := by
  unfold ResolvesRef
  cases hvalid : isLinkRef (Points.strip refId) with
  | false => simp [resolveSignedLinkRef, hvalid]
  | true =>
    rw [← returns_linkRefConn_iff hdigest]
    constructor
    · rintro ⟨s', r, h⟩
      unfold resolveSignedLinkRef at h
      dsimp only at h
      rw [hvalid, if_neg (by simp)] at h
      obtain ⟨opened, hopened, h⟩ := map_eq_ok.mp h
      refine fun _ => ⟨⟨opened, hopened⟩, fun old hold hopen => ?_⟩
      have hrow := (get?_opened hopened).mpr ⟨old, hold, hopen, rfl⟩
      rw [hrow] at h
      rw [← token_opened codec env old]
      exact (returns_resolvedRow_iff hdigest).mp ⟨r, (Prod.mk.inj h).2⟩
    · intro h
      obtain ⟨⟨opened, hopened⟩, hrows⟩ := h rfl
      unfold resolveSignedLinkRef
      dsimp only
      rw [hvalid, if_neg (by simp), hopened]
      cases hrow : (dropExpired env.now opened).refs.get? (Points.strip refId) with
      | none => exact ⟨_, _, by rw [Except.map, hrow]⟩
      | some =>
        obtain ⟨old, hold, hopen, rfl⟩ := (get?_opened hopened).mp hrow
        have hreads := hrows old hold hopen
        rw [← token_opened codec env old] at hreads
        obtain ⟨r, hr⟩ : Returns (resolvedRow codec .runtime env (dropExpired env.now opened)
            (Points.strip refId) _) :=
          (returns_resolvedRow_iff hdigest).mpr hreads
        refine ⟨dropExpired env.now opened, r, congrArg Except.ok ?_⟩
        dsimp only
        rw [hrow, ← hr]

/-- The three calls return exactly for what can be compared, read and looked up. -/
theorem verification_returns_iff (codec : LinkCodec) (env : LinkEnv) (s : LinkStore)
    (hdigest : ∀ key m, IsAscii (codec.hmac key m)) :
    (∀ token, Returns (verifySignedLinkToken codec .runtime env s token) ↔
      VerifiesToken codec env token) ∧
    (∀ refId, (∃ s' r, resolveSignedLinkRef codec .runtime env s refId = .ok (s', .ok r)) ↔
      ResolvesRef codec env s refId) ∧
    ∀ scope text supplied, Returns (verifySignedLink codec env s scope text supplied) ↔
      VerifiesLink codec env s scope text supplied :=
  ⟨fun _ => returns_verifySignedLinkToken_iff hdigest,
    fun _ => returns_resolveSignedLinkRef_iff hdigest,
    fun _ _ _ => returns_verifySignedLink_iff hdigest⟩

/-- A token whose signature is a letter that is not ASCII. -/
def accentedToken : Points :=
  [97, 46, 233]

/-- It cannot be compared. -/
theorem verification_returns_iff_accented : ¬VerifiesToken axbCodec sampleEnv accentedToken := by
  intro h
  have hascii : ∀ key m, IsAscii (axbCodec.hmac key m) := by
    intro key m
    change sampleSignature.all (· < 128) = true
    decide +kernel
  have hreturns := ((verification_returns_iff axbCodec sampleEnv {} hascii).1 accentedToken).mpr h
  revert hreturns
  rw [← fault_eq_none_iff]
  decide +kernel

/-- Neither can a signature of that letter beside the parameters of a link. -/
theorem verification_raises_accented :
    fault (verifySignedLinkToken axbCodec .runtime sampleEnv {} accentedToken) =
        some "TypeError" ∧
      fault (verifySignedLink boundCodec sampleEnv {} sampleScope (Points.ofString "0") [233]) =
        some "TypeError" := by
  decide +kernel

end GlassHive.SignedLinks
