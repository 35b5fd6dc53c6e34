import GlassHive.VerifiedCapabilities

/-!
# Refusals of capabilities

A capability is refused with an error of the module, except where the parser of its payload raises
an exception that is no decoding error: the payload may be nested too deep, and its integers may be
too long. Besides, a secret that cannot be encoded raises an exception when it is reached.

A capability is a string here. A lone surrogate in it is read as a character that is neither a digit
of base64 nor a dot.
-/

namespace GlassHive.RunActions

open Json
open Fallible (bind_eq_ok)

/-- A string as a text. -/
def textOf (s : Points) : Text :=
  s.map Char.ofNat

/-- A call returns, or raises an error of the module. -/
def FailsClosed {α : Type} (result : Except Refusal α) : Prop :=
  result ≠ .error .uncaught

/-- The text of the payload of a capability, when it gets to be parsed. -/
def payloadText (capability : Text) : Option Points :=
  if 16384 < capability.length then none
  else
    match capability.splitOn '.' with
    | [payloadSegment, _] => (b64urlDecode payloadSegment).toOption.bind Points.ofUtf8
    | _ => none

variable (py : Interpreter)

/-- The payload of a capability is within the limits of the parser. -/
def WithinLimits (capability : Text) : Prop :=
  ∀ t, payloadText capability = some t → loads py.limits t ≠ .error .beyondLimits

/-- The payload of a capability has valid claims. -/
def HasClaims (capability : Text) : Prop :=
  ∃ t raw claims, payloadText capability = some t ∧ loads py.limits t = .ok raw ∧
    strictClaims py raw = .ok claims

variable {py} {hmac : List UInt8 → List UInt8 → List UInt8} {capability : Text} {secret : Points}
  {nowEpoch : ℤ}

/-! ## Parts of a call -/

variable {α β : Type} {x : Except Refusal α}

theorem failsClosed_ok (a : α) : FailsClosed (.ok a) := nofun

theorem failsClosed_capabilityInvalid {message : String} {statusCode : ℕ} :
    FailsClosed (.error (capabilityInvalid message statusCode) : Except Refusal α) := nofun

/-- A sequence fails closed when its parts do. -/
theorem FailsClosed.bind {f : α → Except Refusal β} (hx : FailsClosed x)
    (hf : ∀ a, x = .ok a → FailsClosed (f a)) : FailsClosed (x >>= f) := by
  cases x with
  | error => exact fun h => hx (congrArg _ (Except.error.inj h))
  | ok a => exact hf a rfl

theorem failsClosed_strictScopedId (value : Json) (name : String) :
    FailsClosed (strictScopedId py value name) := by
  unfold strictScopedId
  dsimp only
  split
  · exact failsClosed_ok _
  · exact failsClosed_capabilityInvalid

theorem failsClosed_strictPrincipal (value : Json) (name : String) :
    FailsClosed (strictPrincipal py value name) := by
  unfold strictPrincipal
  dsimp only
  split
  · exact failsClosed_ok _
  · exact failsClosed_capabilityInvalid

theorem failsClosed_strictEpoch (value : Json) (name : String) :
    FailsClosed (strictEpoch value name) := by
  unfold strictEpoch
  split
  · exact failsClosed_ok _
  · exact failsClosed_capabilityInvalid

theorem failsClosed_strictClaims (raw : Json) : FailsClosed (strictClaims py raw) := by
  unfold strictClaims
  split
  · split
    · exact failsClosed_capabilityInvalid
    · split
      · exact failsClosed_capabilityInvalid
      · split
        · exact failsClosed_capabilityInvalid
        · refine (failsClosed_strictScopedId _ _).bind fun _ _ => ?_
          refine (failsClosed_strictScopedId _ _).bind fun _ _ => ?_
          refine (failsClosed_strictScopedId _ _).bind fun _ _ => ?_
          refine (failsClosed_strictScopedId _ _).bind fun _ _ => ?_
          refine (failsClosed_strictPrincipal _ _).bind fun _ _ => ?_
          refine (failsClosed_strictPrincipal _ _).bind fun _ _ => ?_
          refine (failsClosed_strictEpoch _ _).bind fun _ _ => ?_
          refine (failsClosed_strictEpoch _ _).bind fun _ _ => ?_
          split
          · exact failsClosed_capabilityInvalid
          · exact failsClosed_ok _
  · exact failsClosed_capabilityInvalid

/-- What is no base64 is refused as an invalid capability. -/
theorem b64urlDecode_eq_error {value : Text} {e : Refusal} (h : b64urlDecode value = .error e) :
    e = capabilityInvalid := by
  unfold b64urlDecode at h
  split at h
  · exact (Except.error.inj h).symm
  · split at h
    · exact (Except.error.inj h).symm
    · split at h
      · cases h
      · exact (Except.error.inj h).symm

theorem failsClosed_b64urlDecode (value : Text) : FailsClosed (b64urlDecode value) :=
  fun h => absurd (b64urlDecode_eq_error h) nofun

/-! ## Claims that are not verified -/

/-- The claims of a capability are those of its payload, if it has one. -/
theorem unverifiedRunActionClaims_of_payloadText {t : Points}
    (h : payloadText capability = some t) :
    unverifiedRunActionClaims py capability =
      match loads py.limits t with
      | .ok raw => strictClaims py raw
      | .error .malformed => .error capabilityInvalid
      | .error .beyondLimits => .error .uncaught := by
  unfold payloadText at h
  unfold unverifiedRunActionClaims
  by_cases hlength : 16384 < capability.length
  · rw [if_pos hlength] at h
    cases h
  · rw [if_neg hlength] at h ⊢
    generalize capability.splitOn '.' = parts at h ⊢
    rcases parts with _ | ⟨payloadSegment, _ | ⟨signature, _ | ⟨_, _⟩⟩⟩
    · cases h
    · cases h
    · obtain ⟨bytes, hbytes, htext⟩ := Option.bind_eq_some_iff.mp h
      have hdecode : b64urlDecode payloadSegment = .ok bytes := by
        cases hresult : b64urlDecode payloadSegment with
        | ok =>
          rw [hresult] at hbytes
          exact congrArg _ (Option.some.inj hbytes)
        | error =>
          rw [hresult] at hbytes
          cases hbytes
      change (b64urlDecode payloadSegment >>= fun payload => loadPayload py payload >>= _) = _
      rw [hdecode]
      change (loadPayload py bytes >>= _) = _
      unfold loadPayload
      rw [htext]
      dsimp only
      cases loads py.limits t with
      | ok => rfl
      | error fault => cases fault <;> rfl
    · cases h

/-- A capability without a payload that can be parsed is invalid. -/
theorem unverifiedRunActionClaims_of_none (h : payloadText capability = none) :
    unverifiedRunActionClaims py capability = .error capabilityInvalid := by
  unfold payloadText at h
  unfold unverifiedRunActionClaims
  by_cases hlength : 16384 < capability.length
  · rw [if_pos hlength]
  · rw [if_neg hlength] at h ⊢
    generalize capability.splitOn '.' = parts at h ⊢
    rcases parts with _ | ⟨payloadSegment, _ | ⟨signature, _ | ⟨_, _⟩⟩⟩
    · rfl
    · rfl
    · change (b64urlDecode payloadSegment >>= fun payload => loadPayload py payload >>= _) = _
      cases hdecode : b64urlDecode payloadSegment with
      | error => rw [b64urlDecode_eq_error hdecode]; rfl
      | ok bytes =>
        have htext : Points.ofUtf8 bytes = none := by
          change (b64urlDecode payloadSegment).toOption.bind Points.ofUtf8 = none at h
          rwa [hdecode] at h
        change (loadPayload py bytes >>= _) = _
        unfold loadPayload
        rw [htext]
        rfl
    · rfl

/-- Reading the claims of a capability fails closed exactly when its payload is within the limits of
the parser. -/
theorem failsClosed_unverified_iff :
    FailsClosed (unverifiedRunActionClaims py capability) ↔ WithinLimits py capability := by
  cases htext : payloadText capability with
  | none =>
    rw [unverifiedRunActionClaims_of_none htext]
    refine ⟨fun _ t ht => ?_, fun _ => failsClosed_capabilityInvalid⟩
    rw [htext] at ht
    cases ht
  | some t =>
    rw [unverifiedRunActionClaims_of_payloadText htext]
    constructor
    · intro hclosed t' ht' hloads
      obtain rfl := Option.some.inj (htext.symm.trans ht')
      rw [hloads] at hclosed
      exact hclosed rfl
    · intro hlimits
      have hloads := hlimits t htext
      split
      · exact failsClosed_strictClaims _
      · exact failsClosed_capabilityInvalid
      · rename_i hbeyond
        exact absurd hbeyond hloads

theorem hasClaims_iff :
    HasClaims py capability ↔ ∃ claims, unverifiedRunActionClaims py capability = .ok claims := by
  constructor
  · rintro ⟨t, raw, claims, ht, hraw, hclaims⟩
    refine ⟨claims, ?_⟩
    rw [unverifiedRunActionClaims_of_payloadText ht, hraw]
    exact hclaims
  · rintro ⟨claims, hclaims⟩
    cases ht : payloadText capability with
    | none =>
      rw [unverifiedRunActionClaims_of_none ht] at hclaims
      cases hclaims
    | some t =>
      rw [unverifiedRunActionClaims_of_payloadText ht] at hclaims
      split at hclaims
      · rename_i raw hraw
        exact ⟨t, raw, claims, ht, hraw, hclaims⟩
      · cases hclaims
      · cases hclaims

/-! ## Verified capabilities -/

/-- A text of UTF-8 can be made of a string. -/
def Encodable (s : Points) : Prop :=
  (Points.utf8 s).isSome = true

theorem encodable_iff {s : Points} : Encodable s ↔ s.all Points.isScalar = true := by
  unfold Encodable Points.utf8
  split
  · rename_i hall
    simp [hall]
  · rename_i hall
    simp [hall]

theorem isScalar_of_isScopedId {t : Points} (h : isScopedId t = true) :
    ∀ c ∈ t, Points.isScalar c = true := by
  intro c hc
  have hbound := (isSpace_of_isScopedChar ((isScopedId_iff.mp h).2.2 c hc)).2.2
  simp only [Points.isScalar, Bool.or_eq_true, Bool.and_eq_true, decide_eq_true_eq]
  left
  omega

/-- The context of the key of valid claims can be encoded. -/
theorem encodable_actionContext {workerId runId : Points} (hworker : isScopedId workerId = true)
    (hrun : isScopedId runId = true) : Encodable (actionContext workerId runId) := by
  rw [encodable_iff, actionContext, List.all_append, List.all_cons, List.all_append, List.all_cons]
  have hworkerScalar := List.all_eq_true.mpr (isScalar_of_isScopedId hworker)
  have hrunScalar := List.all_eq_true.mpr (isScalar_of_isScopedId hrun)
  rw [hworkerScalar, hrunScalar]
  decide

/-- The key of valid claims is derived exactly when the secret can be encoded. -/
theorem failsClosed_actionSecret_iff {workerId runId : Points}
    (hworker : isScopedId workerId = true) (hrun : isScopedId runId = true) :
    FailsClosed (actionSecret hmac secret workerId runId) ↔ Encodable secret := by
  obtain ⟨context, hcontext⟩ := Option.isSome_iff_exists.mp (encodable_actionContext hworker hrun)
  rw [actionSecret, encode, hcontext]
  change FailsClosed (encode secret >>= _) ↔ _
  rw [encode, Encodable]
  cases Points.utf8 secret with
  | none => exact ⟨fun h => absurd rfl h, fun h => absurd h (by decide)⟩
  | some => exact ⟨fun _ => rfl, fun _ => failsClosed_ok _⟩

/-- The segments of a capability whose claims can be read. -/
theorem splitOn_of_hasClaims (h : HasClaims py capability) :
    ∃ payloadSegment signatureSegment,
      capability.splitOn '.' = [payloadSegment, signatureSegment] := by
  obtain ⟨t, _, _, ht, _⟩ := h
  unfold payloadText at ht
  by_cases hlength : 16384 < capability.length
  · rw [if_pos hlength] at ht
    cases ht
  · rw [if_neg hlength] at ht
    generalize capability.splitOn '.' = parts at ht ⊢
    rcases parts with _ | ⟨payloadSegment, _ | ⟨signature, _ | ⟨_, _⟩⟩⟩
    · cases ht
    · cases ht
    · exact ⟨payloadSegment, signature, rfl⟩
    · cases ht

/-- The verification of a capability fails closed exactly when its payload is within the limits of
the parser and the secret, when there are claims to verify, can be encoded. -/
theorem failsClosed_verify_iff :
    FailsClosed (verifyRunActionCapability py hmac capability secret nowEpoch) ↔
      WithinLimits py capability ∧ (HasClaims py capability → Encodable secret) := by
  unfold verifyRunActionCapability
  cases hunverified : unverifiedRunActionClaims py capability with
  | error =>
    have hnone : ¬HasClaims py capability := by
      rw [hasClaims_iff, hunverified]
      exact fun ⟨_, h⟩ => by cases h
    rw [← failsClosed_unverified_iff, hunverified]
    constructor
    · exact fun h => ⟨fun heq => h (congrArg _ (Except.error.inj heq)), fun h => absurd h hnone⟩
    · exact fun h heq => h.1 (congrArg _ (Except.error.inj heq))
  | ok claims =>
    have hclaims : HasClaims py capability := hasClaims_iff.mpr ⟨claims, hunverified⟩
    have hlimits : WithinLimits py capability := by
      rw [← failsClosed_unverified_iff, hunverified]
      exact failsClosed_ok _
    obtain ⟨payloadSegment, signatureSegment, hsplit⟩ := splitOn_of_hasClaims hclaims
    obtain ⟨t, raw, claims', ht, hraw, hstrict⟩ := id hclaims
    rw [unverifiedRunActionClaims_of_payloadText ht, hraw] at hunverified
    obtain ⟨hworker, hrun, _⟩ := lifetime_of_strictClaims hunverified
    simp only [hlimits, hclaims, true_and, true_imp_iff]
    change FailsClosed (if secret.isEmpty then _ else _) ↔ _
    split
    · rename_i hempty
      obtain rfl := List.isEmpty_iff.mp hempty
      exact ⟨fun _ => rfl, fun _ => failsClosed_capabilityInvalid⟩
    · have hsecret : FailsClosed (actionSecret hmac secret claims.workerId claims.runId) ↔
          Encodable secret := failsClosed_actionSecret_iff hworker hrun
      rw [hsplit, ← hsecret]
      dsimp only
      constructor
      · intro hclosed heq
        rw [heq] at hclosed
        exact hclosed rfl
      · intro hclosed
        refine hclosed.bind fun key _ => (failsClosed_b64urlDecode _).bind fun supplied _ => ?_
        split
        · exact failsClosed_capabilityInvalid
        · split
          · exact nofun
          · split
            · exact failsClosed_capabilityInvalid
            · exact failsClosed_ok _

/-- Both calls return claims or raise an error of the module, exactly when the payload of the
capability is within the limits of the parser and the secret, when there are claims to verify, can
be encoded. -/
theorem capabilities_fail_closed_iff (py : Interpreter)
    (hmac : List UInt8 → List UInt8 → List UInt8) (capability secret : Points) (nowEpoch : ℤ) :
    (FailsClosed (unverifiedRunActionClaims py (textOf capability)) ∧
        FailsClosed (verifyRunActionCapability py hmac (textOf capability) secret nowEpoch)) ↔
      WithinLimits py (textOf capability) ∧
        (HasClaims py (textOf capability) → Encodable secret) := by
  rw [failsClosed_unverified_iff, failsClosed_verify_iff]
  exact ⟨fun h => h.2, fun h => ⟨h.1, h⟩⟩

/-! ## A payload that is nested too deep -/

/-- Arrays that are nested deeper than the limit are not read. -/
theorem value_nested (digits depth : ℕ) (rest : Points) :
    value digits depth (List.replicate (depth + 1) 91 ++ rest) = .error .beyondLimits := by
  induction depth with
  | zero =>
    rw [value.eq_def]
    rfl
  | succ depth ih =>
    have hskip : skip (List.replicate (depth + 1) 91 ++ rest) =
        List.replicate (depth + 1) 91 ++ rest := by
      simp [List.replicate_succ, skip, isBlank]
    rw [List.replicate_succ, List.cons_append, value.eq_def]
    simp only [hskip]
    rw [if_neg (by decide)]
    simp only [List.replicate_succ, List.cons_append, List.length_cons] at ih ⊢
    rw [items, ih]
    rfl

theorem loads_nested (limits : JsonLimits) (rest : Points) :
    loads limits (List.replicate (limits.depth + 1) 91 ++ rest) = .error .beyondLimits := by
  have hskip : skip (List.replicate (limits.depth + 1) 91 ++ rest) =
      List.replicate (limits.depth + 1) 91 ++ rest := by
    simp [List.replicate_succ, skip, isBlank]
  rw [loads, hskip]
  change (value limits.digits limits.depth _).bind _ = _
  rw [value_nested]
  rfl

/-- A payload of arrays that are nested 1002 deep, without a signature. -/
def nestedCapability : Points :=
  (List.replicate 334 (Points.ofString "W1tb")).flatten ++ [46]

theorem payloadText_nested :
    payloadText (textOf nestedCapability) =
      some (List.replicate (cpython.limits.depth + 1) 91 ++ [91]) := by
  decide +kernel

/-- The parser of the payload raises an exception that is not mapped. -/
theorem not_failsClosed_nested :
    ¬FailsClosed (unverifiedRunActionClaims cpython (textOf nestedCapability)) := by
  rw [unverifiedRunActionClaims_of_payloadText payloadText_nested, loads_nested]
  exact fun h => h rfl

end GlassHive.RunActions
