import GlassHive.LinkRevocations

/-!
# The two sides of a link

The runtime and the user interface read one database with two copies of the same code. They differ
in two places. An expiry that is not positive never passes in the runtime, and has passed in the
user interface. And for a reference the user interface looks up the worker of the payload that is
stored beside the token, the runtime the worker of the token.
-/

namespace GlassHive.SignedLinks

open Relational RunActions

/-! ## What is to agree -/

/-- Both sides return the same payload for a token, or none. -/
def TokenAgreed (codec : LinkCodec) (env : LinkEnv) (s : LinkStore) (token : Points) : Prop :=
  ∀ payload, verifySignedLinkToken codec .ui env s token = .ok (some payload) ↔
    verifySignedLinkToken codec .runtime env s token = .ok (some payload)

/-- Both sides resolve a reference to the same, or to nothing. -/
def RefAgreed (codec : LinkCodec) (env : LinkEnv) (s : LinkStore) (refId : Points) : Prop :=
  ∀ r, (∃ s', resolveSignedLinkRef codec .ui env s refId = .ok (s', .ok (some r))) ↔
    ∃ s', resolveSignedLinkRef codec .runtime env s refId = .ok (s', .ok (some r))

/-- The user interface opens a link of the runtime until its expiry, or for ever when it has none,
as long as the worker is not blocked. -/
def OpensUntilExpiry (codec : LinkCodec) (env : LinkEnv) (scope : LinkScope)
    (ttlSeconds : Option ℤ) (token : Points) : Prop :=
  ∀ env' s', env'.secret = env.secret →
    (mintedExpiry codec .runtime env scope.kind ttlSeconds = 0 ∨
      env'.now ≤ mintedExpiry codec .runtime env scope.kind ttlSeconds) →
    blocked env' s' scope.workerId = .ok false →
    ∃ payload, verifySignedLinkToken codec .ui env' s' token = .ok (some payload)

/-! ## Where the sides differ -/

/-- A token without an expiry, of a worker that is not blocked. -/
def Perpetual (codec : LinkCodec) (env : LinkEnv) (s : LinkStore) (token : Points) : Prop :=
  ∃ payload expiresAt, signedPayload codec env token = .ok (some (payload, expiresAt)) ∧
    expiresAt ≤ 0 ∧ expiresAt < env.now ∧
    blocked env s (textOf codec payload "worker_id") = .ok false

/-- The worker of the payload that is stored beside a token is blocked when the worker of the token
is. -/
def LinkRef.CopyAgrees (codec : LinkCodec) (env : LinkEnv) (s : LinkStore) (row : LinkRef)
    (verified : Payload) : Prop :=
  row.payloadJson ≠ [] →
    match codec.loads row.payloadJson with
    | .error _ => blocked env s (textOf codec verified "worker_id") ≠ .ok false
    | .ok (some (.obj (f :: fs))) =>
      blocked env s (textOf codec (f :: fs) "worker_id") = .ok false ↔
        blocked env s (textOf codec verified "worker_id") = .ok false
    | .ok _ => True

/-- So it is for the row that a reference finds, if any. -/
def CopiesAgree (codec : LinkCodec) (env : LinkEnv) (s : LinkStore) (refId : Points) : Prop :=
  isLinkRef (Points.strip refId) = true →
    ∀ opened row verified, linkRefConn codec .runtime env s = .ok opened →
      (dropExpired env.now opened).refs.get? (Points.strip refId) = some row →
      decodeSignedLinkToken codec .runtime env row.token true = .ok (some verified) →
      row.CopyAgrees codec env s verified

/-- A payload is read back from its text, which is a text of ASCII without a dot; its digest is one
of ASCII. -/
structure LinkCodec.Reads (codec : LinkCodec) (payload : Payload) : Prop where
  encoded : ∀ c ∈ codec.encodePayload payload, c ≠ 46
  nonempty : codec.encodePayload payload ≠ []
  digest : ∀ key, ∀ c ∈ codec.hmac key (codec.encodePayload payload), c < 128
  decoded : ∃ read, codec.decodePayload (codec.encodePayload payload) = .ok (some (.obj read)) ∧
    ∀ name ∈ ["v", "exp", "worker_id"], get read name = get payload name

section Agreement

variable {codec : LinkCodec} {env : LinkEnv} {s : LinkStore} {side : Side}

/-! ## Tokens -/

variable {token refId : Points} {ttlSeconds : Option ℤ} {payload verified : Payload} {row : LinkRef}
  {r : LinkResolution} {scope : LinkScope}

theorem decode_eq_ok_iff {allowExpired : Bool} :
    decodeSignedLinkToken codec side env token allowExpired = .ok (some payload) ↔
      ∃ expiresAt, signedPayload codec env token = .ok (some (payload, expiresAt)) ∧
        (allowExpired = true ∨ expired side expiresAt env.now = false) := by
  unfold decodeSignedLinkToken
  rw [Fallible.bind_eq_ok]
  constructor
  · rintro ⟨signed, hsigned, h⟩
    rcases signed with _ | ⟨read, expiresAt⟩
    · simp [pure, Except.pure] at h
    · dsimp only at h
      split at h
      · simp [pure, Except.pure] at h
      · rename_i hopen
        obtain rfl := Option.some.inj (Except.ok.inj h)
        refine ⟨expiresAt, hsigned, ?_⟩
        cases allowExpired <;> simp_all
  · rintro ⟨expiresAt, hsigned, hopen⟩
    refine ⟨_, hsigned, ?_⟩
    have hkept : ¬(expired side expiresAt env.now && !allowExpired) = true := by
      rcases hopen with h | h <;> simp [h]
    dsimp only
    rw [if_neg hkept]
    rfl

theorem verify_eq_ok_iff :
    verifySignedLinkToken codec side env s token = .ok (some payload) ↔
      ∃ expiresAt, signedPayload codec env token = .ok (some (payload, expiresAt)) ∧
        expired side expiresAt env.now = false ∧
        blocked env s (textOf codec payload "worker_id") = .ok false := by
  constructor
  · intro h
    obtain ⟨hdecoded, hblocked⟩ := blocked_of_verifySignedLinkToken h
    obtain ⟨expiresAt, hsigned, hopen⟩ := decode_eq_ok_iff.mp hdecoded
    exact ⟨expiresAt, hsigned, by simpa using hopen, hblocked⟩
  · rintro ⟨expiresAt, hsigned, hopen, hblocked⟩
    have hdecoded : decodeSignedLinkToken codec side env token false = .ok (some payload) :=
      decode_eq_ok_iff.mpr ⟨expiresAt, hsigned, Or.inr hopen⟩
    unfold verifySignedLinkToken
    refine Fallible.bind_eq_ok.mpr ⟨_, hdecoded, ?_⟩
    exact Fallible.bind_eq_ok.mpr ⟨_, hblocked, rfl⟩

/-- What has not expired in the user interface has not in the runtime. -/
theorem not_expired_runtime {expiresAt now : ℤ} :
    expired .runtime expiresAt now = false ↔
      expired .ui expiresAt now = false ∨ (expiresAt ≤ 0 ∧ expiresAt < now) := by
  simp only [expired, decide_eq_false_iff_not]
  omega

theorem tokenAgreed_iff (token : Points) :
    TokenAgreed codec env s token ↔ ¬Perpetual codec env s token := by
  constructor
  · rintro hagreed ⟨payload, expiresAt, hsigned, hsign, hpast, hblocked⟩
    have hruntime : verifySignedLinkToken codec .runtime env s token = .ok (some payload) :=
      verify_eq_ok_iff.mpr
        ⟨expiresAt, hsigned, not_expired_runtime.mpr (Or.inr ⟨hsign, hpast⟩), hblocked⟩
    obtain ⟨expiresAt', hsigned', hopen, -⟩ := verify_eq_ok_iff.mp ((hagreed payload).mpr hruntime)
    have hsame : expiresAt = expiresAt' := by
      simpa using hsigned.symm.trans hsigned'
    rw [← hsame] at hopen
    simp [expired, hpast] at hopen
  · intro hperpetual payload
    rw [verify_eq_ok_iff, verify_eq_ok_iff]
    constructor
    · rintro ⟨expiresAt, hsigned, hopen, hblocked⟩
      exact ⟨expiresAt, hsigned, not_expired_runtime.mpr (Or.inl hopen), hblocked⟩
    · rintro ⟨expiresAt, hsigned, hopen, hblocked⟩
      rcases not_expired_runtime.mp hopen with hopen | ⟨hsign, hpast⟩
      · exact ⟨expiresAt, hsigned, hopen, hblocked⟩
      · exact absurd ⟨payload, expiresAt, hsigned, hsign, hpast, hblocked⟩ hperpetual

/-! ## References -/

/-- Where the expiry does not count, the two sides read a token alike. -/
theorem decode_ui_eq_runtime (token : Points) :
    decodeSignedLinkToken codec .ui env token true =
      decodeSignedLinkToken codec .runtime env token true := by
  simp [decodeSignedLinkToken]

theorem linkRefConn_ui_eq_runtime :
    linkRefConn codec .ui env s = linkRefConn codec .runtime env s := by
  simp only [linkRefConn, migratedRow, decode_ui_eq_runtime]

/-- A row is found under a reference. -/
def Finds (codec : LinkCodec) (env : LinkEnv) (s : LinkStore) (refId : Points) (row : LinkRef) :
    Prop :=
  isLinkRef (Points.strip refId) = true ∧ ∃ opened, linkRefConn codec .runtime env s = .ok opened ∧
    (dropExpired env.now opened).refs.get? (Points.strip refId) = some row

/-- The worker that a side looks up for a row is not blocked. -/
def Unblocked (codec : LinkCodec) (side : Side) (env : LinkEnv) (s : LinkStore) (row : LinkRef)
    (verified : Payload) : Prop :=
  ∃ payload, blockingPayload codec side row verified = .ok payload ∧
    blocked env s (textOf codec payload "worker_id") = .ok false

/-- What a reference to a row resolves to, for the payload of its token. -/
def resolutionOf (codec : LinkCodec) (refId : Points) (row : LinkRef) (verified : Payload) :
    LinkResolution where
  refId := refId
  kind := textOf codec verified "kind"
  token := row.token
  targetUrl := row.targetUrl
  expiresAt := row.expiresAt
  createdAt := row.createdAt
  payload := verified

theorem resolvedRow_eq_ok_iff :
    resolvedRow codec side env s refId row = .ok (some r) ↔
      ∃ verified, decodeSignedLinkToken codec .runtime env row.token true = .ok (some verified) ∧
        Unblocked codec side env s row verified ∧ resolutionOf codec refId row verified = r := by
  have hdecode : decodeSignedLinkToken codec side env row.token true =
      decodeSignedLinkToken codec .runtime env row.token true := by
    cases side with
    | runtime => rfl
    | ui => exact decode_ui_eq_runtime row.token
  unfold resolvedRow
  rw [hdecode, Fallible.bind_eq_ok]
  constructor
  · rintro ⟨verified, hverified, h⟩
    rcases verified with _ | verified
    · simp [pure, Except.pure] at h
    · obtain ⟨payload, hpayload, h⟩ := Fallible.bind_eq_ok.mp h
      obtain ⟨hb, h⟩ := Fallible.guard_eq_ok h (by simp [pure, Except.pure])
      exact ⟨verified, hverified, ⟨payload, hpayload, hb⟩, Option.some.inj (Except.ok.inj h)⟩
  · rintro ⟨verified, hverified, ⟨payload, hpayload, hb⟩, rfl⟩
    refine ⟨_, hverified, ?_⟩
    refine Fallible.bind_eq_ok.mpr ⟨_, hpayload, ?_⟩
    exact Fallible.bind_eq_ok.mpr ⟨_, hb, rfl⟩

theorem resolve_eq_ok_iff :
    (∃ s', resolveSignedLinkRef codec side env s refId = .ok (s', .ok (some r))) ↔
      ∃ row verified, Finds codec env s refId row ∧
        decodeSignedLinkToken codec .runtime env row.token true = .ok (some verified) ∧
        Unblocked codec side env s row verified ∧
        resolutionOf codec (Points.strip refId) row verified = r := by
  have hconn : linkRefConn codec side env s = linkRefConn codec .runtime env s := by
    cases side with
    | runtime => rfl
    | ui => exact linkRefConn_ui_eq_runtime
  have hblocked : ∀ opened, linkRefConn codec .runtime env s = .ok opened →
      ∀ workerId, blocked env (dropExpired env.now opened) workerId = blocked env s workerId := by
    intro opened hopened
    have hrevocations := linkRefConn_revocations hopened
    have hdropped : (dropExpired env.now opened).revocations = opened.revocations := rfl
    exact blocked_congr (hdropped.trans hrevocations)
  unfold resolveSignedLinkRef
  rw [hconn]
  dsimp only
  constructor
  · rintro ⟨s', h⟩
    split at h
    · simp at h
    · rename_i hclean
      obtain ⟨opened, hopened, h⟩ := Fallible.map_eq_ok.mp h
      split at h
      · simp at h
      · rename_i row hrow
        have hresolved := (Prod.mk.inj h).2
        obtain ⟨verified, hverified, ⟨payload, hpayload, hb⟩, hr⟩ :=
          resolvedRow_eq_ok_iff.mp hresolved
        rw [hblocked opened hopened] at hb
        exact ⟨row, verified, ⟨by simpa using hclean, opened, hopened, hrow⟩, hverified,
          ⟨payload, hpayload, hb⟩, hr⟩
  · rintro ⟨row, verified, ⟨hclean, opened, hopened, hrow⟩, hverified, ⟨payload, hpayload, hb⟩, hr⟩
    have hb' : blocked env (dropExpired env.now opened) (textOf codec payload "worker_id") =
        .ok false := by
      rw [hblocked opened hopened, hb]
    have hresolved := resolvedRow_eq_ok_iff.mpr
      ⟨verified, hverified, ⟨payload, hpayload, hb'⟩, hr⟩
    refine ⟨dropExpired env.now opened, ?_⟩
    rw [if_neg (by simp [hclean]), hopened]
    simp only [Except.map, hrow, hresolved]

/-- The runtime looks up the worker of the token. -/
theorem unblocked_runtime :
    Unblocked codec .runtime env s row verified ↔
      blocked env s (textOf codec verified "worker_id") = .ok false := by
  simp [Unblocked, blockingPayload]

/-- The copies agree where both sides look up workers that are blocked alike. -/
theorem copyAgrees_iff :
    row.CopyAgrees codec env s verified ↔
      (Unblocked codec .ui env s row verified ↔ Unblocked codec .runtime env s row verified) := by
  rw [unblocked_runtime]
  unfold LinkRef.CopyAgrees Unblocked blockingPayload
  dsimp only
  by_cases hempty : row.payloadJson = []
  · simp [hempty]
  · have hread : row.payloadJson.isEmpty = false := by simpa using hempty
    rw [hread]
    rcases hloads : codec.loads row.payloadJson with name | parsed
    · simp [Except.map, hempty]
    · rcases parsed with _ | (_ | b | n | t | t | vs | fs)
      case some.obj =>
        cases fs <;> simp [Except.map, hempty]
      all_goals simp [Except.map]

theorem refAgreed_iff (refId : Points) :
    RefAgreed codec env s refId ↔ CopiesAgree codec env s refId := by
  constructor
  · intro hagreed hclean opened row verified hopened hrow hverified
    have hfinds : Finds codec env s refId row := ⟨hclean, opened, hopened, hrow⟩
    rw [copyAgrees_iff]
    have hiff := hagreed (resolutionOf codec (Points.strip refId) row verified)
    rw [resolve_eq_ok_iff, resolve_eq_ok_iff] at hiff
    have hresolves : ∀ side, Unblocked codec side env s row verified ↔
        ∃ row' verified', Finds codec env s refId row' ∧
          decodeSignedLinkToken codec .runtime env row'.token true = .ok (some verified') ∧
          Unblocked codec side env s row' verified' ∧
          resolutionOf codec (Points.strip refId) row' verified' =
            resolutionOf codec (Points.strip refId) row verified := by
      intro side
      refine ⟨fun h => ⟨row, verified, hfinds, hverified, h, rfl⟩, ?_⟩
      rintro ⟨row', verified', ⟨-, opened', hopened', hrow'⟩, hverified', hunblocked, -⟩
      obtain rfl := Except.ok.inj (hopened.symm.trans hopened')
      obtain rfl := Option.some.inj (hrow.symm.trans hrow')
      obtain rfl := Option.some.inj (Except.ok.inj (hverified.symm.trans hverified'))
      exact hunblocked
    rw [hresolves .ui, hresolves .runtime]
    exact hiff
  · intro hcopies r
    rw [resolve_eq_ok_iff, resolve_eq_ok_iff]
    refine exists_congr fun row => exists_congr fun verified => and_congr_right fun hfinds =>
      and_congr_right fun hverified => and_congr_left fun _ => ?_
    obtain ⟨hclean, opened, hopened, hrow⟩ := hfinds
    exact copyAgrees_iff.mp (hcopies hclean opened row verified hopened hrow hverified)

/-! ## Minted links -/

theorem signature_eq_ok {secret message digest : Points}
    (h : signature codec secret message = .ok digest) : digest = codec.hmac secret message := by
  unfold signature at h
  split at h
  · simp at h
  · exact (Except.ok.inj h).symm

/-- A token that is not empty has been signed for a worker that is not blocked. -/
theorem signLinkToken_eq_ok (h : signLinkToken codec side env s scope ttlSeconds = .ok token)
    (hne : token ≠ []) :
    env.secret.isEmpty = false ∧ blocked env s scope.workerId = .ok false ∧
      ∃ digest, signature codec env.secret
          (codec.encodePayload (mintedPayload codec side env scope ttlSeconds)) = .ok digest ∧
        token = codec.encodePayload (mintedPayload codec side env scope ttlSeconds) ++
          46 :: digest := by
  unfold signLinkToken at h
  split at h
  · exact absurd (Except.ok.inj h).symm hne
  · rename_i hsecret
    obtain ⟨b, hb, h⟩ := Fallible.bind_eq_ok.mp h
    cases b with
    | true => exact absurd (Except.ok.inj h).symm hne
    | false =>
      obtain ⟨digest, hdigest, h⟩ := Fallible.bind_eq_ok.mp h
      exact ⟨by simpa using hsecret, hb, digest, hdigest, (Except.ok.inj h).symm⟩

theorem tokenParts_append {encoded : Points} (h : ∀ c ∈ encoded, c ≠ 46) (digest : Points) :
    tokenParts (encoded ++ 46 :: digest) = some (encoded, digest) := by
  have hplain : ∀ c ∈ encoded, decide (c ≠ 46) = true := fun c hc => decide_eq_true (h c hc)
  have htake : (encoded ++ 46 :: digest).takeWhile (· ≠ 46) = encoded := by
    rw [List.takeWhile_append_of_pos hplain]
    simp
  have hdrop : (encoded ++ 46 :: digest).dropWhile (· ≠ 46) = 46 :: digest := by
    rw [List.dropWhile_append_of_pos hplain]
    simp
  rw [tokenParts, if_pos (by simp), htake, hdrop]
  rfl

theorem intOrZero_int (n : ℤ) : intOrZero codec (.int n) = .ok (some n) := by
  unfold intOrZero
  by_cases hn : n = 0
  · simp [truthy, hn]
  · simp [truthy, hn]

/-- Any process with the same secret reads a minted token. -/
theorem signedPayload_minted
    (hreads : codec.Reads (mintedPayload codec .runtime env scope ttlSeconds))
    (h : signLinkToken codec .runtime env s scope ttlSeconds = .ok token) (hne : token ≠ [])
    {env' : LinkEnv} (henv : env'.secret = env.secret) :
    ∃ payload, get payload "worker_id" = .str scope.workerId ∧
      signedPayload codec env' token =
        .ok (some (payload, mintedExpiry codec .runtime env scope.kind ttlSeconds)) := by
  obtain ⟨hsecret, -, digest, hdigest, rfl⟩ := signLinkToken_eq_ok h hne
  obtain ⟨payload, hdecoded, hfields⟩ := hreads.decoded
  have hversion : get payload "v" = .int 1 := hfields "v" (by simp)
  have hexpiry : get payload "exp" =
      .int (mintedExpiry codec .runtime env scope.kind ttlSeconds) := hfields "exp" (by simp)
  have hworker : get payload "worker_id" = .str scope.workerId := hfields "worker_id" (by simp)
  have hdigits : digest.all (· < 128) = true := by
    rw [signature_eq_ok hdigest, List.all_eq_true]
    exact fun c hc => decide_eq_true (hreads.digest _ c hc)
  have hsame : compareDigest digest digest = .ok true := by
    simp [compareDigest, hdigits]
  refine ⟨payload, hworker, ?_⟩
  unfold signedPayload
  rw [henv, if_neg (by simp [hsecret]), tokenParts_append hreads.encoded]
  dsimp only
  rw [if_neg (by simpa using hreads.nonempty), hdigest]
  simp only [bind, Except.bind, hsame, hdecoded, hversion, hexpiry, intOrZero_int, isNumber]
  simp [pure, Except.pure]

theorem opensUntilExpiry_iff
    (hreads : codec.Reads (mintedPayload codec .runtime env scope ttlSeconds))
    (h : signLinkToken codec .runtime env s scope ttlSeconds = .ok token) (hne : token ≠ []) :
    OpensUntilExpiry codec env scope ttlSeconds token ↔
      mintedExpiry codec .runtime env scope.kind ttlSeconds ≠ 0 := by
  constructor
  · intro hopens hnever
    -- a second after the epoch the user interface has no link without an expiry
    let later : LinkEnv := { env with now := 1 }
    have hblocked : blocked later s scope.workerId = .ok false := (signLinkToken_eq_ok h hne).2.1
    obtain ⟨payload, hpayload⟩ := hopens later s rfl (Or.inl hnever) hblocked
    obtain ⟨expiresAt, hsigned, hopen, -⟩ := verify_eq_ok_iff.mp hpayload
    have hsecret : later.secret = env.secret := rfl
    obtain ⟨read, -, hread⟩ := signedPayload_minted hreads h hne hsecret
    have hsame := (Prod.mk.inj (Option.some.inj (Except.ok.inj (hsigned.symm.trans hread)))).2
    rw [hsame, hnever] at hopen
    simp [expired, later] at hopen
  · intro hexpires env' s' henv hnow hblocked
    obtain ⟨payload, hworker, hread⟩ := signedPayload_minted hreads h hne henv
    have hlate : env'.now ≤ mintedExpiry codec .runtime env scope.kind ttlSeconds :=
      hnow.resolve_left hexpires
    have hunblocked : blocked env' s' (textOf codec payload "worker_id") = .ok false := by
      have htext : textOf codec payload "worker_id" = scope.workerId := by
        rw [textOf, hworker, textOrEmpty]
        cases hid : scope.workerId <;> simp [truthy]
      rw [htext, hblocked]
    exact ⟨payload, verify_eq_ok_iff.mpr ⟨_, hread, by simpa [expired] using hlate, hunblocked⟩⟩

/-- The two sides agree on a token unless it has no expiry and its worker is not blocked, on a
reference if and only if the workers beside and in the token of its row are blocked alike, and the
user interface opens a link of the runtime for its time if and only if that has an end. -/
theorem sides_agree_iff (codec : LinkCodec) (env : LinkEnv) (s : LinkStore) :
    (∀ token, TokenAgreed codec env s token ↔ ¬Perpetual codec env s token) ∧
      (∀ refId, RefAgreed codec env s refId ↔ CopiesAgree codec env s refId) ∧
      ∀ scope ttlSeconds token,
        codec.Reads (mintedPayload codec .runtime env scope ttlSeconds) →
        signLinkToken codec .runtime env s scope ttlSeconds = .ok token → token ≠ [] →
        (OpensUntilExpiry codec env scope ttlSeconds token ↔
          mintedExpiry codec .runtime env scope.kind ttlSeconds ≠ 0) :=
  ⟨tokenAgreed_iff, refAgreed_iff, fun _ _ _ hreads h hne => opensUntilExpiry_iff hreads h hne⟩

end Agreement

/-! ## A link without an expiry -/

/-- The payload of a link of the worker `axb` without an expiry. -/
def perpetualPayload : Payload :=
  [(Points.ofString "exp", .int 0), (Points.ofString "iat", .int 1000),
   (Points.ofString "kind", .str (Points.ofString "worker_view")),
   (Points.ofString "owner_id", .str []), (Points.ofString "path", .str (Points.ofString "/")),
   (Points.ofString "tenant_id", .str []), (Points.ofString "v", .int 1),
   (Points.ofString "worker_id", .str (Points.ofString "axb"))]

def perpetualEncoded : Points :=
  Points.ofString ("eyJleHAiOjAsImlhdCI6MTAwMCwia2luZCI6Indvcmtlcl92aWV3Iiwib3duZXJfaWQiOi" ++
    "IiLCJwYXRoIjoiLyIsInRlbmFudF9pZCI6IiIsInYiOjEsIndvcmtlcl9pZCI6ImF4YiJ9")

def perpetualSignature : Points :=
  Points.ofString "0d6ad7e89217114a6bfe10f15f5d422335f0cb9c69f324c3fb37900c473c4721"

def perpetualCodec : LinkCodec :=
  sampleCodec perpetualPayload perpetualEncoded perpetualSignature

def perpetualToken : Points :=
  perpetualEncoded ++ 46 :: perpetualSignature

theorem axbCodec_reads :
    axbCodec.Reads (mintedPayload axbCodec .runtime sampleEnv sampleScope (some 900)) where
  encoded := by
    unfold axbCodec sampleCodec
    rw [sampleEncoded, Points.ofString_append, Points.ofString_ofList, Points.ofString_ofList]
    decide +kernel
  nonempty := by
    unfold axbCodec sampleCodec
    rw [sampleEncoded, Points.ofString_append, Points.ofString_ofList, Points.ofString_ofList]
    decide +kernel
  digest key := by
    change ∀ c ∈ sampleSignature, c < 128
    rw [sampleSignature, Points.ofString_ofList]
    decide +kernel
  decoded := by
    refine ⟨samplePayload, by simp [axbCodec, sampleCodec], fun name hname => ?_⟩
    simp only [List.mem_cons, List.not_mem_nil, or_false] at hname
    rcases hname with rfl | rfl | rfl <;> rfl

theorem sides_agree_iff_axb :
    (TokenAgreed axbCodec sampleEnv {} axbToken ↔ ¬Perpetual axbCodec sampleEnv {} axbToken) ∧
      (OpensUntilExpiry axbCodec sampleEnv sampleScope (some 900) axbToken ↔
        mintedExpiry axbCodec .runtime sampleEnv sampleScope.kind (some 900) ≠ 0) := by
  have hagree := sides_agree_iff axbCodec sampleEnv {}
  have hminted : signLinkToken axbCodec .runtime sampleEnv {} sampleScope (some 900) =
      .ok axbToken := by
    unfold axbToken axbCodec sampleEncoded sampleSignature
    rw [Points.ofString_append]
    repeat rw [Points.ofString_ofList]
    decide +kernel
  exact ⟨hagree.1 axbToken,
    hagree.2.2 sampleScope (some 900) axbToken axbCodec_reads hminted (by decide +kernel)⟩

/-- The runtime mints a link without an expiry and opens it; the user interface does not. -/
theorem ui_rejects_perpetual :
    signLinkToken perpetualCodec .runtime sampleEnv {} sampleScope (some 0) = .ok perpetualToken ∧
      ¬TokenAgreed perpetualCodec sampleEnv {} perpetualToken := by
  have hruntime : (verifySignedLinkToken perpetualCodec .runtime sampleEnv {}
      perpetualToken).toOption.join.isSome = true := by
    unfold perpetualToken perpetualCodec perpetualEncoded perpetualSignature
    rw [Points.ofString_append]
    repeat rw [Points.ofString_ofList]
    decide +kernel
  have hui : (verifySignedLinkToken perpetualCodec .ui sampleEnv {}
      perpetualToken).toOption.join.isSome = false := by
    unfold perpetualToken perpetualCodec perpetualEncoded perpetualSignature
    rw [Points.ofString_append]
    repeat rw [Points.ofString_ofList]
    decide +kernel
  have hminted : signLinkToken perpetualCodec .runtime sampleEnv {} sampleScope (some 0) =
      .ok perpetualToken := by
    unfold perpetualToken perpetualCodec perpetualEncoded perpetualSignature
    rw [Points.ofString_append]
    repeat rw [Points.ofString_ofList]
    decide +kernel
  refine ⟨hminted, fun hagreed => ?_⟩
  rcases hv : verifySignedLinkToken perpetualCodec .runtime sampleEnv {} perpetualToken with
    name | payload
  · rw [hv] at hruntime
    simp [Except.toOption] at hruntime
  · rw [hv] at hruntime
    obtain ⟨payload, rfl⟩ := Option.isSome_iff_exists.mp hruntime
    rw [(hagreed payload).mpr hv] at hui
    simp [Except.toOption] at hui

end GlassHive.SignedLinks
