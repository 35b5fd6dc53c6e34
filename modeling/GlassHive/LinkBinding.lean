import GlassHive.LinkAgreement
import GlassHive.Library.Joined

/-!
# What a link signature binds

The signed message joins the fields of a link and the decimal text of its expiry by NUL characters.
A signature binds the value of the expiry, of which `verify_signed_link` accepts every spelling, and
the fields as far as the separators tell them apart.
-/

namespace GlassHive.SignedLinks

open Json

/-- The strings of the scope of a link. -/
def LinkScope.fields (scope : LinkScope) : List Points :=
  [scope.kind, scope.workerId, scope.tenantId, scope.ownerId, scope.path]

/-- No field of the scope has the separator of the message. -/
def LinkScope.Separated (scope : LinkScope) : Prop :=
  ∀ t ∈ scope.fields, 0 ∉ t

/-- The codes of two messages under the secrets of a signer and of a verifier are the same for the
same messages only. -/
def MacInjective (codec : LinkCodec) (signer verifier : LinkEnv) : Prop :=
  ∀ m m', codec.hmac signer.secret m = codec.hmac verifier.secret m' → m = m'

/-- A signature verifies for the fields and for the text of the expiry that it was produced for
only, and not after the expiry. -/
def BindsTexts (codec : LinkCodec) : Prop :=
  ∀ (signer verifier : LinkEnv) (s s' : LinkStore) (scope scope' : LinkScope)
    (ttlSeconds expiresAt : Option ℤ) (params : LinkParams) (text : Points),
    MacInjective codec signer verifier →
    signLinkParams codec signer s scope ttlSeconds expiresAt = .ok (some params) →
    verifySignedLink codec verifier s' scope' text params.signature = .ok true →
    scope' = scope ∧ text = renderInt params.expiresAt ∧
      (params.expiresAt = 0 ∨ verifier.now ≤ params.expiresAt)

variable {codec : LinkCodec} {signer verifier : LinkEnv} {s s' : LinkStore}
  {scope scope' : LinkScope} {ttlSeconds expiresAt : Option ℤ} {params : LinkParams} {text : Points}

/-! ## Messages -/

theorem isDigit_or_eq_minus {n : ℤ} {c : ℕ} (h : c ∈ renderInt n) : isDigit c = true ∨ c = 45 := by
  cases n with
  | ofNat => exact .inl (isDigit_of_mem_decimal h)
  | negSucc =>
    rcases List.mem_cons.mp h with rfl | h
    · exact .inr rfl
    · exact .inl (isDigit_of_mem_decimal h)

theorem zero_notMem_renderInt (n : ℤ) : 0 ∉ renderInt n := by
  intro h
  rcases isDigit_or_eq_minus h with h | h
  · exact absurd h (by decide)
  · exact absurd h (by decide)

theorem decimal_injective {m n : ℕ} (h : decimal m = decimal n) : m = n := by
  rw [← ofDecimal_decimal m, h, ofDecimal_decimal]

theorem renderInt_injective {m n : ℤ} (h : renderInt m = renderInt n) : m = n := by
  have hminus : ∀ (a : ℕ) (t : Points), decimal a ≠ 45 :: t := by
    intro a t heq
    have hdigit : isDigit 45 = true := isDigit_of_mem_decimal (n := a) (by simp [heq])
    exact absurd hdigit (by decide)
  cases m with
  | ofNat =>
    cases n with
    | ofNat => exact congrArg Int.ofNat (decimal_injective h)
    | negSucc => exact absurd h (hminus _ _)
  | negSucc =>
    cases n with
    | ofNat => exact absurd h.symm (hminus _ _)
    | negSucc =>
      have hsucc := decimal_injective (List.cons.inj h).2
      exact congrArg Int.negSucc (Nat.succ.inj hsucc)

theorem linkMessage_eq (scope : LinkScope) (expiry : ℤ) :
    linkMessage scope expiry =
      [0].intercalate (Points.ofString "v1" :: (scope.fields ++ [renderInt expiry])) :=
  rfl

/-- What the separators leave of the parts of a message. -/
theorem pieces_message (scope : LinkScope) (expiry : ℤ) :
    Joined.pieces 0 (Points.ofString "v1" :: (scope.fields ++ [renderInt expiry])) =
      Points.ofString "v1" :: (Joined.pieces 0 scope.fields ++ [renderInt expiry]) := by
  have hversion : Joined.pieces 0 [Points.ofString "v1"] = [Points.ofString "v1"] :=
    Joined.pieces_of_not_mem (by decide)
  have hexpiry : Joined.pieces 0 [renderInt expiry] = [renderInt expiry] :=
    Joined.pieces_of_not_mem (by simpa using zero_notMem_renderInt expiry)
  rw [← List.singleton_append, Joined.pieces_append, Joined.pieces_append, hversion, hexpiry]
  rfl

/-- Messages are the same exactly when they have the same expiry and the same pieces of fields. -/
theorem linkMessage_eq_iff {e e' : ℤ} :
    linkMessage scope e = linkMessage scope' e' ↔
      e = e' ∧ Joined.pieces 0 scope.fields = Joined.pieces 0 scope'.fields := by
  rw [linkMessage_eq, linkMessage_eq, Joined.intercalate_eq_iff, pieces_message, pieces_message,
    List.cons_inj_right]
  constructor
  · intro h
    obtain ⟨hpieces, hexpiry⟩ := List.append_inj' h rfl
    exact ⟨renderInt_injective (List.cons.inj hexpiry).1, hpieces⟩
  · rintro ⟨rfl, hpieces⟩
    rw [hpieces]

theorem LinkScope.ext_fields (h : scope'.fields = scope.fields) : scope' = scope := by
  cases scope
  cases scope'
  simpa [LinkScope.fields] using h

/-- Fields without separators are determined by their pieces. -/
theorem LinkScope.Separated.eq_of_pieces (h : scope.Separated)
    (hpieces : Joined.pieces 0 scope'.fields = Joined.pieces 0 scope.fields) : scope' = scope := by
  rw [Joined.pieces_of_not_mem h] at hpieces
  exact LinkScope.ext_fields (Joined.eq_of_pieces_eq hpieces rfl)

/-! ## Signatures -/

/-- What is signed. -/
theorem signature_of_signLinkParams
    (h : signLinkParams codec signer s scope ttlSeconds expiresAt = .ok (some params)) :
    params.signature = codec.hmac signer.secret (linkMessage scope params.expiresAt) := by
  unfold signLinkParams at h
  split at h
  · cases h
  · obtain ⟨b, _, h⟩ := Fallible.bind_eq_ok.mp h
    cases b with
    | true => cases h
    | false =>
      obtain ⟨digest, hdigest, h⟩ := Fallible.bind_eq_ok.mp h
      obtain rfl := Option.some.inj (Except.ok.inj h)
      exact signature_eq_ok hdigest

/-- What is verified. -/
theorem accepted_of_verifySignedLink {supplied : Points}
    (h : verifySignedLink codec verifier s' scope' text supplied = .ok true) :
    ∃ expiry, codec.parseInt text = some expiry ∧ (expiry ≤ 0 ∨ verifier.now ≤ expiry) ∧
      supplied = codec.hmac verifier.secret (linkMessage scope' expiry) := by
  unfold verifySignedLink at h
  split at h
  · cases h
  · obtain ⟨b, _, h⟩ := Fallible.bind_eq_ok.mp h
    cases b with
    | true => cases h
    | false =>
      simp only [Bool.false_eq_true, if_false] at h
      split at h
      · cases h
      · rename_i expiry hparse
        split at h
        · cases h
        · rename_i hexpired
          obtain ⟨expected, hexpected, h⟩ := Fallible.bind_eq_ok.mp h
          refine ⟨expiry, hparse, ?_, ?_⟩
          · simp only [expired, decide_eq_true_eq] at hexpired
            omega
          · rw [← signature_eq_ok hexpected]
            unfold compareDigest at h
            split at h
            · exact (eq_of_beq (Except.ok.inj h)).symm
            · cases h

/-- A signature verifies only for the fields that it was produced for, as long as these have no
separators, with a text that is read as the expiry, and not after an expiry that is positive. -/
theorem signature_binds_fields (hmac : MacInjective codec signer verifier)
    (hsigned : signLinkParams codec signer s scope ttlSeconds expiresAt = .ok (some params))
    (hseparated : scope.Separated)
    (hverified : verifySignedLink codec verifier s' scope' text params.signature = .ok true) :
    scope' = scope ∧ codec.parseInt text = some params.expiresAt ∧
      (params.expiresAt ≤ 0 ∨ verifier.now ≤ params.expiresAt) := by
  obtain ⟨expiry, hparse, hexpiry, hsupplied⟩ := accepted_of_verifySignedLink hverified
  rw [signature_of_signLinkParams hsigned] at hsupplied
  obtain ⟨rfl, hpieces⟩ := linkMessage_eq_iff.mp (hmac _ _ hsupplied)
  exact ⟨hseparated.eq_of_pieces hpieces.symm, hparse, hexpiry⟩

/-! ## A link without an expiry -/

def boundMessage : Points :=
  linkMessage sampleScope 0

def boundSignature : Points :=
  Points.ofString "5c93836461963b11ad53131a2e7547d0a9372bf1c047834cd26cb70ca2f3d9b6"

def boundCodec : LinkCodec :=
  { sampleCodec [] [] [] with
    hmac := fun _ m => if m = boundMessage then boundSignature else 0 :: m
    parseInt := fun t =>
      if t = Points.ofString "0" ∨ t = Points.ofString "+0" then some 0 else none }

theorem macInjective_boundCodec : MacInjective boundCodec sampleEnv sampleEnv := by
  intro m m' h
  have hhead : ∀ t : Points, boundSignature ≠ 0 :: t := by
    intro t heq
    have hhead := congrArg List.head? heq
    rw [List.head?_cons] at hhead
    exact absurd hhead (by decide)
  simp only [boundCodec] at h
  split_ifs at h with hm hm'
  · rw [hm, hm']
  · exact absurd h (hhead _)
  · exact absurd h.symm (hhead _)
  · exact (List.cons.inj h).2

theorem signLinkParams_bound :
    signLinkParams boundCodec sampleEnv {} sampleScope none (some 0) =
      .ok (some ⟨sampleScope.kind, 0, boundSignature⟩) := by
  rfl

/-- Another spelling of the expiry is accepted. -/
theorem verifySignedLink_spelled :
    verifySignedLink boundCodec sampleEnv {} sampleScope (Points.ofString "+0") boundSignature =
      .ok true := by
  decide +kernel

theorem signature_binds_fields_bound :
    sampleScope = sampleScope ∧ boundCodec.parseInt (Points.ofString "+0") = some 0 ∧
      ((0 : ℤ) ≤ 0 ∨ sampleEnv.now ≤ 0) :=
  signature_binds_fields macInjective_boundCodec signLinkParams_bound
    (by unfold LinkScope.Separated; decide) verifySignedLink_spelled

/-- A signature does not bind the text of the expiry. -/
theorem not_bindsTexts_spelled : ¬BindsTexts boundCodec := by
  intro hbinds
  have htexts := hbinds sampleEnv sampleEnv {} {} sampleScope sampleScope none (some 0) _ _
    macInjective_boundCodec signLinkParams_bound verifySignedLink_spelled
  exact absurd htexts.2.1 (by decide)

end GlassHive.SignedLinks
