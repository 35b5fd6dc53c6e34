import GlassHive.RunActionCapabilities
import GlassHive.Library.Fallible

/-!
# Which capabilities are verified

A minted capability is verified in its window, unless it is issued before the epoch. A verified one
is the canonical text of its payload and its signature. Its key belongs to its worker and run alone
unless another colon of `worker:run` stands between two ids.
-/

namespace GlassHive.RunActions

open Json

/-! ## What minted claims look like -/

/-- A text that `_strict_principal` returns. -/
structure IsStrictPrincipal (text : Points) : Prop where
  principal : isPrincipal text = true
  stripped : Points.strip text = text

/-- What minting puts into the claims. -/
structure IsMinted (claims : RunActionClaims) (requested : Points) : Prop where
  known : isAction requested = true
  version : claims.version = .int actionCapabilityVersion
  type : claims.type = .str actionCapabilityType
  action : claims.action = .str requested
  operation : claims.operation = .str (operationFor requested)
  capabilityId : isScopedId claims.capabilityId = true
  projectId : isScopedId claims.projectId = true
  workerId : isScopedId claims.workerId = true
  runId : isScopedId claims.runId = true
  tenantId : IsStrictPrincipal claims.tenantId
  ownerId : IsStrictPrincipal claims.ownerId
  lifetime_pos : claims.issuedAtEpoch < claims.expiresAtEpoch
  lifetime_le : claims.expiresAtEpoch - claims.issuedAtEpoch ≤ actionCapabilityMaxTtlSeconds

variable {py : Interpreter} {hmac : List UInt8 → List UInt8 → List UInt8}

theorem isSpace_of_isScopedChar {c : ℕ} (h : isScopedChar c = true) :
    Points.isSpace c = false ∧ 32 ≤ c ∧ c < 0x80 := by
  simp only [isScopedChar, isAlnum, Bool.or_eq_true, Bool.and_eq_true, decide_eq_true_eq,
    beq_iff_eq] at h
  refine ⟨?_, by omega, by omega⟩
  simp only [Points.isSpace, Bool.or_eq_false_iff, Bool.and_eq_false_iff, decide_eq_false_iff_not,
    beq_eq_false_iff_ne]
  omega

variable {claims : RunActionClaims} {requested action runId workerId : Points}
  {t action runId workerId : Points} {worker run : List (Points × Json)}
  {secret action runId workerId : Points} {nowEpoch n : ℤ} {name : String} {ttlSeconds : Option ℤ}
  {bytes payload key : List UInt8} {uuid : ℕ} {value v : Json} {b a capability : Text}
  {minted : MintedCapability}

theorem isScopedId_iff :
    isScopedId t = true ↔
      (∃ c ∈ t.head?, isAlnum c = true) ∧ t.length ≤ 192 ∧ ∀ c ∈ t, isScopedChar c = true := by
  cases t with
  | nil => simp [isScopedId]
  | cons =>
    simp only [isScopedId, Bool.and_eq_true, decide_eq_true_eq, List.all_eq_true, List.head?_cons,
      Option.mem_some, List.length_cons, List.mem_cons, exists_eq_left', forall_eq_or_imp]
    constructor
    · rintro ⟨⟨hc, hlen⟩, hcs⟩
      exact ⟨hc, by omega, by simp [isScopedChar, hc], hcs⟩
    · rintro ⟨hc, hlen, -, hcs⟩
      exact ⟨⟨hc, by omega⟩, hcs⟩

theorem strip_of_isScopedId (h : isScopedId t = true) : Points.strip t = t :=
  Points.strip_of_forall fun c hc => (isSpace_of_isScopedChar ((isScopedId_iff.mp h).2.2 c hc)).1

theorem strictScopedId_eq_ok (h : strictScopedId py value name = .ok t) : isScopedId t = true := by
  simp only [strictScopedId] at h
  split at h
  · rename_i hid
    obtain rfl := Except.ok.inj h
    exact hid
  · cases h

theorem strictPrincipal_eq_ok (h : strictPrincipal py value name = .ok t) :
    IsStrictPrincipal t := by
  simp only [strictPrincipal] at h
  split at h
  · rename_i hprincipal
    obtain rfl := Except.ok.inj h
    exact ⟨hprincipal, Points.strip_strip _⟩
  · cases h

/-- An id passes its own check. -/
theorem strictScopedId_str (h : isScopedId t = true) (name : String) :
    strictScopedId py (.str t) name = .ok t := by
  simp [strictScopedId, textOrEmpty_str, strip_of_isScopedId h, h]

theorem strictPrincipal_str (h : IsStrictPrincipal t) (name : String) :
    strictPrincipal py (.str t) name = .ok t := by
  simp [strictPrincipal, textOrEmpty_str, h.stripped, h.principal]

theorem isAlnum_hexDigit {n : ℕ} (h : n < 16) : isAlnum (hexDigit n) = true := by
  have hall : ∀ m < 16, isAlnum (hexDigit m) = true := by decide
  exact hall n h

theorem isScopedId_capabilityId (uuid : ℕ) :
    isScopedId (Points.ofString "gac_" ++ uuidHex uuid) = true := by
  have hgac : Points.ofString "gac_" = [103, 97, 99, 95] := by decide +kernel
  rw [isScopedId_iff, hgac]
  refine ⟨⟨103, rfl, by decide⟩, by simp [uuidHex], fun c hc => ?_⟩
  rcases List.mem_append.mp hc with hc | hc
  · simp only [List.mem_cons, List.not_mem_nil, or_false] at hc
    rcases hc with rfl | rfl | rfl | rfl <;> decide
  · obtain ⟨i, -, rfl⟩ := List.mem_map.mp hc
    simp [isScopedChar, isAlnum_hexDigit (Nat.mod_lt _ (by decide : 0 < 16))]

theorem ttl_bounds (action : Points) (ttlSeconds : Option ℤ) :
    30 ≤ ttl action ttlSeconds ∧ ttl action ttlSeconds ≤ actionCapabilityMaxTtlSeconds := by
  have hmax : (30 : ℤ) ≤ actionCapabilityMaxTtlSeconds := by decide
  simp only [ttl]
  omega

theorem isMinted_of_mintedClaims (haction : isAction action = true)
    (h : mintedClaims py worker run action nowEpoch ttlSeconds uuid = .ok claims) :
    IsMinted claims action ∧ claims.issuedAtEpoch = nowEpoch := by
  simp only [mintedClaims, Fallible.bind_eq_ok] at h
  obtain ⟨projectId, hproject, workerId, hworker, runId, hrun, tenantId, htenant, ownerId, howner,
    h⟩ := h
  obtain rfl := Except.ok.inj h
  obtain ⟨hpos, hle⟩ := ttl_bounds action ttlSeconds
  refine ⟨?_, rfl⟩
  exact {
    known := haction
    version := rfl
    type := rfl
    action := rfl
    operation := rfl
    capabilityId := isScopedId_capabilityId uuid
    projectId := strictScopedId_eq_ok hproject
    workerId := strictScopedId_eq_ok hworker
    runId := strictScopedId_eq_ok hrun
    tenantId := strictPrincipal_eq_ok htenant
    ownerId := strictPrincipal_eq_ok howner
    lifetime_pos := by dsimp only; omega
    lifetime_le := by dsimp only; omega }

/-! ## Minted claims pass the checks -/

theorem get_of_mem {fields : List (Points × Json)} (hnodup : (fields.map Prod.fst).Nodup)
    (h : (Points.ofString name, v) ∈ fields) : get fields name = v := by
  have hlookup : fields.lookup (Points.ofString name) = some v := by
    induction fields with
    | nil => simp at h
    | cons f fields ih =>
      obtain ⟨k, w⟩ := f
      rw [List.map_cons, List.nodup_cons] at hnodup
      rcases List.mem_cons.mp h with heq | h
      · obtain ⟨rfl, rfl⟩ := Prod.mk.inj heq
        simp
      · have hne : Points.ofString name ≠ k := by
          intro heq
          exact hnodup.1 (List.mem_map.mpr ⟨_, h, heq⟩)
        rw [List.lookup_cons, beq_eq_false_iff_ne.mpr hne]
        exact ih hnodup.2 h
  rw [get, hlookup, Option.getD_some]

theorem nodup_claimNames : claimNames.Nodup := by
  decide +kernel

theorem map_fst_fields (claims : RunActionClaims) : claims.fields.map Prod.fst = claimNames := rfl

theorem perm_sortFields (fields : List (Points × Json)) : (sortFields fields).Perm fields :=
  List.perm_insertionSort _ fields

theorem nodup_sortFields (claims : RunActionClaims) :
    ((sortFields claims.fields).map Prod.fst).Nodup := by
  have hperm := (perm_sortFields claims.fields).map Prod.fst
  rw [hperm.nodup_iff, map_fst_fields]
  exact nodup_claimNames

theorem get_sortFields (h : (Points.ofString name, v) ∈ claims.fields) :
    get (sortFields claims.fields) name = v :=
  get_of_mem (nodup_sortFields claims) ((perm_sortFields claims.fields).mem_iff.mpr h)

/-- The checks on the payload of minted claims come down to those on the two times. -/
theorem strictClaims_fields (h : IsMinted claims requested) :
    strictClaims py (.obj (sortFields claims.fields)) = (do
      let issuedAt ← strictEpoch (.int claims.issuedAtEpoch) "issuedAtEpoch"
      let expiresAt ← strictEpoch (.int claims.expiresAtEpoch) "expiresAtEpoch"
      if expiresAt ≤ issuedAt || actionCapabilityMaxTtlSeconds < expiresAt - issuedAt then
        .error (capabilityInvalid "The action capability lifetime is invalid.")
      else .ok { claims with issuedAtEpoch := issuedAt, expiresAtEpoch := expiresAt }) := by
  have hperm := (perm_sortFields claims.fields).map Prod.fst
  rw [map_fst_fields] at hperm
  have hnames : claimNames.all
      (fun name => decide (name ∈ (sortFields claims.fields).map Prod.fst)) = true := by
    rw [List.all_eq_true]
    intro name hname
    rw [decide_eq_true_eq, hperm.mem_iff]
    exact hname
  have hfields : (sortFields claims.fields).all (fun field => decide (field.1 ∈ claimNames)) =
      true := by
    rw [List.all_eq_true]
    intro field hfield
    rw [decide_eq_true_eq, ← hperm.mem_iff]
    exact List.mem_map_of_mem hfield
  have hversion : get (sortFields claims.fields) "version" = claims.version :=
    get_sortFields (by simp [RunActionClaims.fields])
  have htype : get (sortFields claims.fields) "type" = claims.type :=
    get_sortFields (by simp [RunActionClaims.fields])
  have hcapability : get (sortFields claims.fields) "capabilityId" = .str claims.capabilityId :=
    get_sortFields (by simp [RunActionClaims.fields])
  have haction : get (sortFields claims.fields) "action" = claims.action :=
    get_sortFields (by simp [RunActionClaims.fields])
  have hoperation : get (sortFields claims.fields) "operation" = claims.operation :=
    get_sortFields (by simp [RunActionClaims.fields])
  have hproject : get (sortFields claims.fields) "projectId" = .str claims.projectId :=
    get_sortFields (by simp [RunActionClaims.fields])
  have hworker : get (sortFields claims.fields) "workerId" = .str claims.workerId :=
    get_sortFields (by simp [RunActionClaims.fields])
  have hrun : get (sortFields claims.fields) "runId" = .str claims.runId :=
    get_sortFields (by simp [RunActionClaims.fields])
  have htenant : get (sortFields claims.fields) "tenantId" = .str claims.tenantId :=
    get_sortFields (by simp [RunActionClaims.fields])
  have howner : get (sortFields claims.fields) "ownerId" = .str claims.ownerId :=
    get_sortFields (by simp [RunActionClaims.fields])
  have hissued : get (sortFields claims.fields) "issuedAtEpoch" = .int claims.issuedAtEpoch :=
    get_sortFields (by simp [RunActionClaims.fields])
  have hexpires : get (sortFields claims.fields) "expiresAtEpoch" = .int claims.expiresAtEpoch :=
    get_sortFields (by simp [RunActionClaims.fields])
  simp only [strictClaims, hnames, hfields, hversion, htype, hcapability, haction, hoperation,
    hproject, hworker, hrun, htenant, howner, hissued, hexpires,
    strictScopedId_str h.capabilityId, strictScopedId_str h.projectId,
    strictScopedId_str h.workerId, strictScopedId_str h.runId, strictPrincipal_str h.tenantId,
    strictPrincipal_str h.ownerId]
  simp [h.version, h.type, h.action, h.operation, isNumber, isText, textOrEmpty_str, h.known, bind,
    Except.bind]

/-! ## Payloads are read back -/

/-- A time whose text takes at most twelve digits. -/
def IsDated (claims : RunActionClaims) : Prop :=
  claims.issuedAtEpoch.natAbs < 10 ^ 12 ∧ claims.expiresAtEpoch.natAbs < 10 ^ 12

theorem isDated_of_isoTimestamp {text : Points} (h : IsMinted claims requested)
    (htext : isoTimestamp claims.expiresAtEpoch = .ok text) : IsDated claims := by
  have hpos := h.lifetime_pos
  have hle := h.lifetime_le
  have hmax : actionCapabilityMaxTtlSeconds = 86400 := rfl
  unfold isoTimestamp at htext
  split at htext
  · rename_i hrange
    exact ⟨by omega, by omega⟩
  · cases htext

theorem readable_fields (h : IsMinted claims requested) (hdated : IsDated claims) :
    Readable py.limits.digits py.limits.depth (.obj (sortFields claims.fields)) := by
  have hdigits := py.digits_ge
  have hint {n : ℤ} (hn : n.natAbs < 10 ^ 12) : (decimal n.natAbs).length ≤ py.limits.digits := by
    have hlen := length_decimal_le (n := n.natAbs) (k := 11) hn
    omega
  have hone := hint (n := 1) (by decide)
  obtain ⟨depth, hdepth⟩ := Nat.exists_eq_add_of_lt py.depth_pos
  rw [hdepth]
  refine ⟨nodup_sortFields claims, fun f hf => ?_⟩
  have hmem := (perm_sortFields claims.fields).mem_iff.mp hf
  simp only [RunActionClaims.fields, h.version, h.type, h.action, h.operation, List.mem_cons,
    List.not_mem_nil, or_false] at hmem
  rcases hmem with rfl | rfl | rfl | rfl | rfl | rfl | rfl | rfl | rfl | rfl | rfl | rfl
  all_goals simp only [Readable, hint hdated.1, hint hdated.2]
  exact hone

theorem le_of_mem_isScopedId (h : isScopedId t = true) : ∀ c ∈ t, 32 ≤ c :=
  fun c hc => (isSpace_of_isScopedChar ((isScopedId_iff.mp h).2.2 c hc)).2.1

theorem width_id_le (h : isScopedId t = true) : Points.width (quote t) ≤ 770 := by
  have hlen := (isScopedId_iff.mp h).2.1
  have hwidth := width_quote_le (le_of_mem_isScopedId h)
  omega

theorem width_principal_le (h : IsStrictPrincipal t) :
    Points.width (quote t) ≤ 1026 := by
  have hprincipal := h.principal
  simp only [isPrincipal, Bool.and_eq_true, decide_eq_true_eq, List.all_eq_true] at hprincipal
  have hwidth := width_quote_le fun c hc => (hprincipal.2 c hc).1
  omega

theorem width_renderInt_le (h : n.natAbs < 10 ^ 12) : Points.width (renderInt n) ≤ 13 := by
  have hlen := length_decimal_le (n := n.natAbs) (k := 11) h
  cases n with
  | ofNat =>
    rw [renderInt, width_decimal]
    exact hlen.trans (by omega)
  | negSucc n =>
    have hsign : (Points.utf8Point 45).length = 1 := by decide
    rw [renderInt, Points.width_cons, hsign, width_decimal]
    change (decimal (n + 1)).length ≤ 12 at hlen
    omega

/-- The widths of the texts that are fixed, the names of the claims with their quotes. -/
theorem width_fixed :
    (claimNames.map fun name => Points.width (quote name)).sum = 126 ∧
      Points.width (quote actionCapabilityType) = 25 ∧
      Points.width (renderInt actionCapabilityVersion) = 1 ∧
      (∀ action ∈ [Points.ofString "retry", Points.ofString "cancel"],
        Points.width (quote action) ≤ 8) ∧
      ∀ operation ∈ [Points.ofString "workspace_continue", Points.ofString "cancel"],
        Points.width (quote operation) ≤ 20 := by
  decide +kernel

theorem width_operation_le (requested : Points) :
    Points.width (quote (operationFor requested)) ≤ 20 := by
  refine width_fixed.2.2.2.2 _ ?_
  unfold operationFor
  split <;> simp

theorem width_action_le (h : isAction requested = true) :
    Points.width (quote requested) ≤ 8 := by
  refine width_fixed.2.2.2.1 _ ?_
  simpa [isAction] using h

/-- The payload of minted claims is short enough for `_b64url_decode`. -/
theorem width_fields_le (h : IsMinted claims requested) (hdated : IsDated claims) :
    Points.width (dumps (.obj (sortFields claims.fields))) ≤ 6000 := by
  have hbraces : Points.width [123] = 1 ∧ Points.width [125] = 1 := by decide
  have hsum := width_dumpsFields_le (sortFields claims.fields)
  rw [((perm_sortFields claims.fields).map _).sum_nat] at hsum
  obtain ⟨hnames, htype, hversion, -, -⟩ := width_fixed
  have hissued := width_renderInt_le hdated.1
  have hexpires := width_renderInt_le hdated.2
  have hcapability := width_id_le h.capabilityId
  have hproject := width_id_le h.projectId
  have hworker := width_id_le h.workerId
  have hrun := width_id_le h.runId
  have htenant := width_principal_le h.tenantId
  have howner := width_principal_le h.ownerId
  have haction := width_action_le h.known
  have hoperation := width_operation_le requested
  rw [dumps, ← List.singleton_append, Points.width_append, Points.width_append]
  generalize Points.width (dumpsFields (sortFields claims.fields)) = total at hsum ⊢
  simp only [RunActionClaims.fields, claimNames, h.version, h.type, h.action, h.operation,
    List.map_cons, List.map_nil, List.sum_cons, List.sum_nil, dumps] at hsum hnames
  omega

theorem dot_not_mem_base64Encode (bytes : List UInt8) : '.' ∉ base64Encode bytes := by
  intro hmem
  have hdot := isBase64_of_mem_base64Encode hmem
  revert hdot
  decide

theorem splitOn_dot (ha : '.' ∉ a) (hb : '.' ∉ b) : (a ++ '.' :: b).splitOn '.' = [a, b] := by
  have hjoin : a ++ '.' :: b = ['.'].intercalate [a, b] := by simp [List.intercalate]
  rw [hjoin, List.splitOn_intercalate]
  · simp [ha, hb]
  · simp

theorem eq_of_splitOn_dot {t : Text} (h : t.splitOn '.' = [a, b]) : t = a ++ '.' :: b := by
  have hjoin : ['.'].intercalate (t.splitOn '.') = t := List.intercalate_splitOn '.'
  rw [h] at hjoin
  rw [← hjoin]
  simp [List.intercalate]

theorem b64urlDecode_base64Encode (hne : bytes ≠ []) (hlen : bytes.length ≤ 6000) :
    b64urlDecode (base64Encode bytes) = .ok bytes := by
  have hdigits := length_base64Encode_le bytes
  have hnonempty : base64Encode bytes ≠ [] := by
    intro hnil
    have hback := base64Decode_base64Encode bytes
    rw [hnil, base64Decode] at hback
    exact hne (Option.some.inj hback).symm
  have hall : (base64Encode bytes).all isBase64 = true :=
    List.all_eq_true.mpr fun c hc => isBase64_of_mem_base64Encode hc
  have hshort : ¬8192 < (base64Encode bytes).length := by omega
  simp [b64urlDecode, hnonempty, hall, hshort, base64Decode_base64Encode]

/-- The claims that a minted capability shows are those of its payload. -/
theorem unverified_minted (h : IsMinted claims requested) (hdated : IsDated claims)
    (hpayload : canonicalClaims claims = .ok payload) {signature : Text}
    (hsignature : '.' ∉ signature) (hlen : signature.length ≤ 8000) :
    unverifiedRunActionClaims py (base64Encode payload ++ '.' :: signature) =
      strictClaims py (.obj (sortFields claims.fields)) := by
  have hutf8 : Points.utf8 (dumps (.obj (sortFields claims.fields))) = some payload := by
    unfold canonicalClaims encode at hpayload
    split at hpayload
    · cases hpayload
    · rename_i hbytes
      rw [hbytes, Except.ok.inj hpayload]
  have hwidth := width_fields_le h hdated
  rw [← Points.length_utf8 hutf8] at hwidth
  have hdigits := length_base64Encode_le payload
  have hsegments : (base64Encode payload ++ '.' :: signature).splitOn '.' =
      [base64Encode payload, signature] := splitOn_dot (dot_not_mem_base64Encode payload) hsignature
  have hload : loadPayload py payload = .ok (.obj (sortFields claims.fields)) := by
    simp only [loadPayload, Points.ofUtf8_utf8 hutf8, loads_dumps (readable_fields h hdated)]
  have hnonempty : payload ≠ [] := by
    rintro rfl
    have hbytes := Points.ofUtf8_utf8 hutf8
    simp [dumps, Points.ofUtf8] at hbytes
  have hdecode : b64urlDecode (base64Encode payload) = .ok payload :=
    b64urlDecode_base64Encode hnonempty (by omega)
  have hshort : ¬16384 < (base64Encode payload ++ '.' :: signature).length := by
    rw [List.length_append, List.length_cons]
    omega
  rw [unverifiedRunActionClaims, if_neg hshort, hsegments]
  simp only [hdecode, bind, Except.bind, hload]

/-! ## The window of a minted capability -/

/-- Verification returns the claims from half a minute before they are issued until they expire, and
refuses them at any other time. -/
def Honoured (py : Interpreter) (hmac : List UInt8 → List UInt8 → List UInt8) (capability : Text)
    (secret : Points) (claims : RunActionClaims) : Prop :=
  ∀ t,
    (claims.issuedAtEpoch - 30 ≤ t ∧ t < claims.expiresAtEpoch →
      verifyRunActionCapability py hmac capability secret t = .ok claims) ∧
    (¬(claims.issuedAtEpoch - 30 ≤ t ∧ t < claims.expiresAtEpoch) →
      ∃ e, verifyRunActionCapability py hmac capability secret t = .error e)

/-- The signature of a capability fits, so that its claims and the time decide. -/
theorem verify_capabilityText (hsecret : secret.isEmpty = false)
    (hclaims : unverifiedRunActionClaims py (capabilityText hmac key payload) = .ok claims)
    (hkey : actionSecret hmac secret claims.workerId claims.runId = .ok key)
    (hdigest : ∀ k m, (hmac k m).length = 32) (t : ℤ) :
    verifyRunActionCapability py hmac (capabilityText hmac key payload) secret t =
      if claims.expiresAtEpoch ≤ t then
        .error (.action ⟨"capability_expired", "The action capability has expired.", 401⟩)
      else if t + 30 < claims.issuedAtEpoch then
        .error (capabilityInvalid "The action capability is not yet valid.")
      else .ok claims := by
  have hsegments : (capabilityText hmac key payload).splitOn '.' =
      [base64Encode payload, base64Encode (hmac key (ascii (base64Encode payload)))] :=
    splitOn_dot (dot_not_mem_base64Encode _) (dot_not_mem_base64Encode _)
  have hlen := hdigest key (ascii (base64Encode payload))
  have hdecode : b64urlDecode (base64Encode (hmac key (ascii (base64Encode payload)))) =
      .ok (hmac key (ascii (base64Encode payload))) := by
    refine b64urlDecode_base64Encode ?_ (by omega)
    intro hnil
    rw [hnil] at hlen
    simp at hlen
  rw [verifyRunActionCapability, hclaims, hsegments]
  simp only [bind, Except.bind, hsecret, hkey, hdecode]
  simp

theorem mint_eq_ok
    (h : mintRunActionCapability py hmac secret worker run action nowEpoch ttlSeconds uuid = .ok minted) :
    secret.isEmpty = false ∧ ∃ claims payload key text,
      mintedClaims py worker run action nowEpoch ttlSeconds uuid = .ok claims ∧
      IsMinted claims action ∧ claims.issuedAtEpoch = nowEpoch ∧
      canonicalClaims claims = .ok payload ∧
      actionSecret hmac secret claims.workerId claims.runId = .ok key ∧
      isoTimestamp claims.expiresAtEpoch = .ok text ∧
      minted.capability = capabilityText hmac key payload := by
  unfold mintRunActionCapability at h
  split at h
  · cases h
  rename_i hsecret
  split at h
  · cases h
  rename_i haction
  simp only [Fallible.bind_eq_ok] at h
  obtain ⟨claims, hclaims, payload, hpayload, key, hkey, text, htext, h⟩ := h
  obtain rfl := Except.ok.inj h
  have haction' : isAction action = true := by simpa using haction
  obtain ⟨hminted, hissued⟩ := isMinted_of_mintedClaims haction' hclaims
  exact ⟨by simpa using hsecret, claims, payload, key, text, hclaims, hminted, hissued, hpayload,
    hkey, htext, rfl⟩

theorem strictEpoch_int {m : ℤ} : strictEpoch (.int n) name = .ok m ↔ 0 ≤ n ∧ n = m := by
  cases n with
  | ofNat => simp [strictEpoch]
  | negSucc n =>
    have hneg : ¬(0 : ℤ) ≤ Int.negSucc n := by simp
    simp [strictEpoch, hneg]

/-- Minted claims pass their own check exactly when they are not issued before the epoch. -/
theorem strictClaims_minted (h : IsMinted claims requested) {read : RunActionClaims} :
    strictClaims py (.obj (sortFields claims.fields)) = .ok read ↔
      0 ≤ claims.issuedAtEpoch ∧ read = claims := by
  have hpos := h.lifetime_pos
  have hle := h.lifetime_le
  have hlifetime : (claims.expiresAtEpoch ≤ claims.issuedAtEpoch ||
      actionCapabilityMaxTtlSeconds < claims.expiresAtEpoch - claims.issuedAtEpoch : Bool) =
        false := by
    simp [hpos, hle]
  rw [strictClaims_fields h]
  simp only [Fallible.bind_eq_ok, strictEpoch_int]
  constructor
  · rintro ⟨_, ⟨hissued, rfl⟩, _, ⟨-, rfl⟩, hread⟩
    rw [hlifetime] at hread
    exact ⟨hissued, (Except.ok.inj hread).symm⟩
  · rintro ⟨hissued, rfl⟩
    refine ⟨_, ⟨hissued, rfl⟩, _, ⟨by omega, rfl⟩, ?_⟩
    rw [hlifetime]
    rfl

/-- A minted capability is honoured in its window and nowhere else exactly when it is not issued
before the epoch. -/
theorem honoured_iff (hdigest : ∀ k m, (hmac k m).length = 32)
    (h : mintRunActionCapability py hmac secret worker run action nowEpoch ttlSeconds uuid = .ok minted) :
    ∃ claims, mintedClaims py worker run action nowEpoch ttlSeconds uuid = .ok claims ∧
      (Honoured py hmac minted.capability secret claims ↔ 0 ≤ nowEpoch) := by
  obtain ⟨hsecret, claims, payload, key, text, hclaims, hminted, rfl, hpayload, hkey, htext,
    hcapability⟩ := mint_eq_ok h
  refine ⟨claims, hclaims, ?_⟩
  have hlen := length_base64Encode_le (hmac key (ascii (base64Encode payload)))
  rw [hdigest] at hlen
  have hunverified : unverifiedRunActionClaims py (capabilityText hmac key payload) =
      strictClaims py (.obj (sortFields claims.fields)) :=
    unverified_minted hminted (isDated_of_isoTimestamp hminted htext) hpayload
      (dot_not_mem_base64Encode _) (by omega)
  rw [hcapability]
  constructor
  · intro hhonoured
    have hpos := hminted.lifetime_pos
    have hverify := (hhonoured claims.issuedAtEpoch).1 ⟨by omega, hpos⟩
    rw [verifyRunActionCapability, Fallible.bind_eq_ok] at hverify
    obtain ⟨read, hread, -⟩ := hverify
    rw [hunverified] at hread
    exact ((strictClaims_minted hminted).mp hread).1
  · intro hissued t
    rw [(strictClaims_minted hminted).mpr ⟨hissued, rfl⟩] at hunverified
    rw [verify_capabilityText hsecret hunverified hkey hdigest t]
    constructor
    · rintro ⟨hfrom, hbefore⟩
      rw [if_neg (by omega), if_neg (by omega)]
    · intro houtside
      by_cases hexpired : claims.expiresAtEpoch ≤ t
      · exact ⟨_, if_pos hexpired⟩
      · rw [if_neg hexpired, if_pos (by omega)]
        exact ⟨_, rfl⟩

/-! ## What a verified capability is -/

theorem lifetime_of_strictClaims {raw : Json} (h : strictClaims py raw = .ok claims) :
    isScopedId claims.workerId = true ∧ isScopedId claims.runId = true ∧
      0 < claims.expiresAtEpoch - claims.issuedAtEpoch ∧
      claims.expiresAtEpoch - claims.issuedAtEpoch ≤ 24 * 60 * 60 := by
  unfold strictClaims at h
  split at h
  · split at h
    · cases h
    split at h
    · cases h
    split at h
    · cases h
    simp only [Fallible.bind_eq_ok] at h
    obtain ⟨_, -, _, -, _, hworker, _, hrun, _, -, _, -, issuedAt, -, expiresAt, -, h⟩ := h
    split at h
    · cases h
    · rename_i hlifetime
      obtain rfl := Except.ok.inj h
      have hmax : actionCapabilityMaxTtlSeconds = 24 * 60 * 60 := rfl
      simp only [Bool.or_eq_true, decide_eq_true_eq, not_or] at hlifetime
      refine ⟨strictScopedId_eq_ok hworker, strictScopedId_eq_ok hrun, ?_, ?_⟩
      · dsimp only
        omega
      · dsimp only
        omega
  · cases h

theorem b64urlDecode_eq_ok {value : Text} (h : b64urlDecode value = .ok bytes) :
    base64Encode bytes = value := by
  unfold b64urlDecode at h
  split at h
  · cases h
  split at h
  · cases h
  split at h
  · rename_i hback
    obtain rfl := Except.ok.inj h
    exact hback
  · cases h

/-- A verified capability is the canonical text of its payload and of the signature under the key of
the claims. -/
theorem verify_eq_ok (h : verifyRunActionCapability py hmac capability secret nowEpoch = .ok claims) :
    (∃ raw, strictClaims py raw = .ok claims) ∧
      ∃ payload key, actionSecret hmac secret claims.workerId claims.runId = .ok key ∧
        capability = capabilityText hmac key payload := by
  rw [verifyRunActionCapability, Fallible.bind_eq_ok] at h
  obtain ⟨read, hread, h⟩ := h
  split at h
  · cases h
  split at h
  · rename_i payloadSegment signatureSegment hsegments
    simp only [Fallible.bind_eq_ok] at h
    obtain ⟨key, hkey, supplied, hsupplied, h⟩ := h
    split at h
    · cases h
    rename_i hsignature
    split at h
    · cases h
    split at h
    · cases h
    obtain rfl := Except.ok.inj h
    unfold unverifiedRunActionClaims at hread
    split at hread
    · cases hread
    rw [hsegments] at hread
    simp only [Fallible.bind_eq_ok] at hread
    obtain ⟨payload, hpayload, raw, -, hraw⟩ := hread
    refine ⟨⟨raw, hraw⟩, payload, key, hkey, ?_⟩
    rw [eq_of_splitOn_dot hsegments, capabilityText, b64urlDecode_eq_ok hpayload,
      not_not.mp hsignature, b64urlDecode_eq_ok hsupplied]
  · cases h

/-! ## The worker and the run of a key -/

/-- No other colon of `worker:run` stands between two ids. -/
def SplitsOnce (workerId runId : Points) : Prop :=
  ∀ i, i ≠ workerId.length → (workerId ++ 58 :: runId)[i]? = some 58 → i ≤ 192 →
    (workerId ++ 58 :: runId).length ≤ i + 193 →
    ∀ c ∈ (workerId ++ 58 :: runId)[i + 1]?, isAlnum c = false

/-- The ids whose key signs the capability are those of its claims. -/
def KeyOfClaims (hmac : List UInt8 → List UInt8 → List UInt8) (capability : Text)
    (secret : Points) (claims : RunActionClaims) : Prop :=
  ∀ workerId runId key payload, isScopedId workerId = true → isScopedId runId = true →
    actionSecret hmac secret workerId runId = .ok key →
    capability = capabilityText hmac key payload →
    workerId = claims.workerId ∧ runId = claims.runId

theorem encode_eq_ok :
    encode t = .ok bytes ↔ Points.utf8 t = some bytes := by
  unfold encode
  split
  · rename_i hnone
    simp [hnone]
  · rename_i hsome
    simp [hsome]

theorem actionSecret_eq_ok {secret : Points} :
    actionSecret hmac secret workerId runId = .ok key ↔
      ∃ context secretBytes, Points.utf8 (actionContext workerId runId) = some context ∧
        Points.utf8 secret = some secretBytes ∧ hmac secretBytes context = key := by
  simp only [actionSecret, Fallible.bind_eq_ok, encode_eq_ok]
  constructor
  · rintro ⟨context, hcontext, secretBytes, hsecret, hkey⟩
    exact ⟨context, secretBytes, hcontext, hsecret, Except.ok.inj hkey⟩
  · rintro ⟨context, secretBytes, hcontext, hsecret, rfl⟩
    exact ⟨context, hcontext, secretBytes, hsecret, rfl⟩

theorem capabilityText_inj (hinj : Function.Injective2 hmac) {key' payload' : List UInt8}
    (h : capabilityText hmac key payload = capabilityText hmac key' payload') :
    key = key' ∧ payload = payload' := by
  have hsegments := congrArg (List.splitOn '.') h
  rw [capabilityText, capabilityText,
    splitOn_dot (dot_not_mem_base64Encode _) (dot_not_mem_base64Encode _),
    splitOn_dot (dot_not_mem_base64Encode _) (dot_not_mem_base64Encode _)] at hsegments
  obtain ⟨hpayload, hrest⟩ := List.cons.inj hsegments
  have hsignature := congrArg base64Decode (List.cons.inj hrest).1
  rw [base64Decode_base64Encode, base64Decode_base64Encode, Option.some.injEq] at hsignature
  have hbytes := congrArg base64Decode hpayload
  rw [base64Decode_base64Encode, base64Decode_base64Encode, Option.some.injEq] at hbytes
  exact ⟨(hinj hsignature).1, hbytes⟩

/-- Two pairs of ids have one context exactly when `worker:run` is the same text. -/
theorem actionContext_inj {workerId' runId' : Points}
    (h : actionContext workerId runId = actionContext workerId' runId') :
    workerId ++ 58 :: runId = workerId' ++ 58 :: runId' :=
  (List.cons.inj (List.append_cancel_left h)).2

/-- The text of two ids is split at one colon exactly when no other pair of ids has it. -/
theorem splitsOnce_iff (hworker : isScopedId workerId = true) (hrun : isScopedId runId = true) :
    SplitsOnce workerId runId ↔
      ∀ w r, isScopedId w = true → isScopedId r = true →
        w ++ 58 :: r = workerId ++ 58 :: runId → w = workerId ∧ r = runId := by
  have hcolon : isScopedChar 58 = true := by decide
  rw [isScopedId_iff] at hworker hrun
  constructor
  · intro honce w r hw hr heq
    rw [isScopedId_iff] at hw hr
    have hlen : w.length = workerId.length := by
      by_contra hne
      have hat : (workerId ++ 58 :: runId)[w.length]? = some 58 := by
        simp [← heq]
      have hnext : (workerId ++ 58 :: runId)[w.length + 1]? = r.head? := by
        rw [← heq]
        cases r <;> simp
      have hlong : (workerId ++ 58 :: runId).length ≤ w.length + 193 := by
        rw [← heq, List.length_append, List.length_cons]
        have := hr.2.1
        omega
      obtain ⟨c, hc, halnum⟩ := hr.1
      have hother := honce w.length hne hat hw.2.1 hlong c (hnext ▸ hc)
      rw [halnum] at hother
      cases hother
    obtain ⟨rfl, hrest⟩ := List.append_inj heq hlen
    exact ⟨rfl, (List.cons.inj hrest).2⟩
  · intro hunique i hne hat hle hlong c hc
    by_contra halnum
    rw [Bool.not_eq_false] at halnum
    have hchars : ∀ d ∈ workerId ++ 58 :: runId, isScopedChar d = true := by
      intro d hd
      rcases List.mem_append.mp hd with hd | hd
      · exact hworker.2.2 d hd
      · rcases List.mem_cons.mp hd with rfl | hd
        · exact hcolon
        · exact hrun.2.2 d hd
    obtain ⟨a, ha, hfirst⟩ := hworker.1
    have hhead : (workerId ++ 58 :: runId).head? = some a := by
      rw [List.head?_append, ha, Option.some_or]
    generalize hs : workerId ++ 58 :: runId = s at hat hlong hc hchars hhead
    obtain ⟨hlt, hcol⟩ := List.getElem?_eq_some_iff.mp hat
    have hsplit : s.take i ++ 58 :: s.drop (i + 1) = s := by
      rw [← hcol, ← List.drop_eq_getElem_cons hlt, List.take_append_drop]
    have hpos : i ≠ 0 := by
      rintro rfl
      rw [List.head?_eq_getElem?, hat, Option.some.injEq] at hhead
      subst hhead
      simp [isAlnum] at hfirst
    have hw : isScopedId (s.take i) = true := by
      refine isScopedId_iff.mpr ⟨⟨a, ?_, hfirst⟩, ?_, fun d hd => ?_⟩
      · rw [List.head?_take, if_neg hpos, hhead]
        rfl
      · rw [List.length_take]
        omega
      · exact hchars d (List.mem_of_mem_take hd)
    have hr : isScopedId (s.drop (i + 1)) = true := by
      refine isScopedId_iff.mpr ⟨⟨c, ?_, halnum⟩, ?_, fun d hd => ?_⟩
      · rw [List.head?_drop]
        exact hc
      · rw [List.length_drop]
        omega
      · exact hchars d (List.mem_of_mem_drop hd)
    have hsame := (hunique _ _ hw hr (hsplit.trans hs.symm)).1
    have hlen := congrArg List.length hsame
    rw [List.length_take, Nat.min_eq_left hlt.le] at hlen
    exact hne hlen

/-- The key of a verified capability belongs to the ids of its claims alone exactly when their text
is split at one colon. -/
theorem keyOfClaims_iff (hinj : Function.Injective2 hmac)
    (h : verifyRunActionCapability py hmac capability secret nowEpoch = .ok claims) :
    KeyOfClaims hmac capability secret claims ↔ SplitsOnce claims.workerId claims.runId := by
  obtain ⟨⟨raw, hraw⟩, payload, key, hkey, rfl⟩ := verify_eq_ok h
  obtain ⟨hworker, hrun, -⟩ := lifetime_of_strictClaims hraw
  obtain ⟨context, secretBytes, hcontext, hsecret, hmac_eq⟩ := actionSecret_eq_ok.mp hkey
  rw [splitsOnce_iff hworker hrun]
  constructor
  · intro hkeys w r hw hr heq
    have hsame : actionContext w r = actionContext claims.workerId claims.runId := by
      rw [actionContext, actionContext, heq]
    refine hkeys w r key payload hw hr (actionSecret_eq_ok.mpr ?_) rfl
    exact ⟨context, secretBytes, hsame ▸ hcontext, hsecret, hmac_eq⟩
  · intro hunique w r key' payload' hw hr hkey' htext
    obtain rfl := (capabilityText_inj hinj htext).1
    obtain ⟨context', secretBytes', hcontext', -, heq⟩ := actionSecret_eq_ok.mp hkey'
    obtain rfl := (hinj (hmac_eq.trans heq.symm)).2
    have hpoints := (Points.ofUtf8_utf8 hcontext').symm.trans (Points.ofUtf8_utf8 hcontext)
    exact hunique w r hw hr (actionContext_inj (Option.some.inj hpoints))

/-- Ids without colons are split at one. -/
theorem splitsOnce_of_no_colon (hworker : 58 ∉ workerId) (hrun : 58 ∉ runId) :
    SplitsOnce workerId runId := by
  intro i hne hat
  exfalso
  rcases Nat.lt_or_gt_of_ne hne with hlt | hgt
  · rw [List.getElem?_append_left hlt] at hat
    exact hworker (List.mem_of_getElem? hat)
  · obtain ⟨j, rfl⟩ := Nat.exists_eq_add_of_lt hgt
    have hindex : workerId.length + j + 1 - workerId.length = j + 1 := by omega
    rw [List.getElem?_append_right (by omega), hindex, List.getElem?_cons_succ] at hat
    exact hrun (List.mem_of_getElem? hat)

/-- A minted capability is honoured with its claims in its window and refused outside it exactly
when it is not issued before the epoch. A verified capability is the canonical text of its payload
and signature, it lives for at most a day, and its key belongs to its worker and run alone exactly
when their text is split at one colon. -/
theorem capabilities_iff (py : Interpreter) (hmac hmac' : List UInt8 → List UInt8 → List UInt8)
    (hdigest : ∀ k m, (hmac k m).length = 32) (hinj : Function.Injective2 hmac') :
    (∀ secret worker run action nowEpoch ttlSeconds uuid minted,
      mintRunActionCapability py hmac secret worker run action nowEpoch ttlSeconds uuid =
        .ok minted →
      ∃ claims, mintedClaims py worker run action nowEpoch ttlSeconds uuid = .ok claims ∧
        (Honoured py hmac minted.capability secret claims ↔ 0 ≤ nowEpoch)) ∧
    ∀ capability secret nowEpoch claims,
      verifyRunActionCapability py hmac' capability secret nowEpoch = .ok claims →
      (∃ payload key, base64Decode (capability.takeWhile (· ≠ '.')) = some payload ∧
        actionSecret hmac' secret claims.workerId claims.runId = .ok key ∧
        capability = capabilityText hmac' key payload) ∧
      0 < claims.expiresAtEpoch - claims.issuedAtEpoch ∧
      claims.expiresAtEpoch - claims.issuedAtEpoch ≤ 24 * 60 * 60 ∧
      (KeyOfClaims hmac' capability secret claims ↔
        SplitsOnce claims.workerId claims.runId) := by
  refine ⟨fun _ _ _ _ _ _ _ _ hmint => honoured_iff hdigest hmint, ?_⟩
  intro capability secret nowEpoch claims h
  have hkeys := keyOfClaims_iff hinj h
  obtain ⟨⟨raw, hraw⟩, payload, key, hkey, htext⟩ := verify_eq_ok h
  obtain ⟨-, -, hpos, hle⟩ := lifetime_of_strictClaims hraw
  refine ⟨⟨payload, key, ?_, hkey, htext⟩, hpos, hle, hkeys⟩
  have hsegment : capability.takeWhile (· ≠ '.') = base64Encode payload := by
    rw [htext, capabilityText, List.takeWhile_append_of_pos]
    · simp
    · intro c hc
      have hne : c ≠ '.' := fun hdot => dot_not_mem_base64Encode payload (hdot ▸ hc)
      simpa using hne
  rw [hsegment, base64Decode_base64Encode]

/-! ## A capability -/

def sampleSecret : Points := Points.ofString "secret"

def sampleWorker (workerId : String) : List (Points × Json) :=
  [(Points.ofString "worker_id", .str (Points.ofString workerId)),
   (Points.ofString "project_id", .str (Points.ofString "prj_7")),
   (Points.ofString "tenant_id", .null),
   (Points.ofString "owner_id", .str (Points.ofString "mia"))]

def sampleRun (runId : String) : List (Points × Json) :=
  [(Points.ofString "run_id", .str (Points.ofString runId))]

def sampleUuid : ℕ := 0x0f8fad5bd9cb469fa16570867728950e

/-- HMAC-SHA256 on the context of the sample, under the key `secret`, and then on a payload. -/
def signing (signature : List UInt8) (key _message : List UInt8) : List UInt8 :=
  if key = [115, 101, 99, 114, 101, 116] then
    [6, 3, 80, 62, 127, 136, 132, 112, 91, 115, 186, 171, 26, 228, 44, 210, 91, 59, 55, 189,
    182, 32, 142, 226, 80, 234, 139, 61, 184, 178, 62, 136]
  else signature

def sampleSignature : List UInt8 :=
  [178, 7, 226, 182, 253, 56, 13, 98, 196, 130, 77, 146, 68, 51, 105, 176, 96, 157, 220,
    46, 54, 89, 203, 45, 157, 120, 33, 52, 192, 172, 32, 161]

/-- The signature of the payload of a capability issued a second before the epoch. -/
def earlySignature : List UInt8 :=
  [201, 40, 115, 245, 113, 179, 184, 48, 83, 209, 137, 251, 86, 178, 72, 243, 47, 199, 181,
    100, 181, 151, 241, 173, 52, 253, 53, 73, 156, 245, 11, 100]

/-- A MAC that is injective: its text says where the key ends. -/
def tagged (key message : List UInt8) : List UInt8 :=
  List.replicate key.length 0 ++ 1 :: (key ++ message)

def sampleMinted : MintedCapability where
  version := 1
  capabilityId := Points.ofString "gac_0f8fad5bd9cb469fa16570867728950e"
  action := Points.ofString "retry"
  operation := Points.ofString "workspace_continue"
  endpoint := Points.ofString "/v1/run-actions"
  projectId := Points.ofString "prj_7"
  workerId := Points.ofString "wkr_7"
  runId := Points.ofString "run_7"
  expiresAt := Points.ofString "2025-06-15T15:21:40+00:00"
  capability :=
    "eyJhY3Rpb24iOiJyZXRyeSIsImNhcGFiaWxpdHlJZCI6ImdhY18wZjhmYWQ1YmQ5Y2I0NjlmYTE2NTcwODY3".toList ++
    "NzI4OTUwZSIsImV4cGlyZXNBdEVwb2NoIjoxNzUwMDAwOTAwLCJpc3N1ZWRBdEVwb2NoIjoxNzUwMDAwMDAw".toList ++
    "LCJvcGVyYXRpb24iOiJ3b3Jrc3BhY2VfY29udGludWUiLCJvd25lcklkIjoibWlhIiwicHJvamVjdElkIjoi".toList ++
    "cHJqXzciLCJydW5JZCI6InJ1bl83IiwidGVuYW50SWQiOiJsb2NhbCIsInR5cGUiOiJnbGFzc2hpdmUucnVu".toList ++
    "X2FjdGlvbi52MSIsInZlcnNpb24iOjEsIndvcmtlcklkIjoid2tyXzcifQ".toList ++
    '.' :: "sgfitv04DWLEgk2SRDNpsGCd3C42WcstnXghNMCsIKE".toList

theorem length_signing {signature : List UInt8} (h : signature.length = 32)
    (key message : List UInt8) : (signing signature key message).length = 32 := by
  unfold signing
  split
  · rfl
  · exact h

theorem tagged_injective2 : Function.Injective2 tagged := by
  intro key key' message message' h
  have hzeros (n : ℕ) (t : List UInt8) : (List.replicate n 0 ++ 1 :: t).takeWhile (· == 0) =
      List.replicate n 0 := by
    rw [List.takeWhile_append_of_pos (by simp)]
    simp
  have hzeroes := congrArg (List.takeWhile (· == 0)) h
  rw [tagged, tagged, hzeros, hzeros] at hzeroes
  have hlen : key.length = key'.length := by simpa using congrArg List.length hzeroes
  rw [tagged, tagged, hlen] at h
  exact List.append_inj (List.cons.inj (List.append_cancel_left h)).2 hlen

/-- Mint a capability and verify it at once. -/
def mintAndVerify (hmac : List UInt8 → List UInt8 → List UInt8) (workerId runId : String)
    (nowEpoch : ℤ) : Except Refusal (Text × RunActionClaims) := do
  let minted ← mintRunActionCapability cpython hmac sampleSecret (sampleWorker workerId)
    (sampleRun runId) (Points.ofString "retry") nowEpoch none sampleUuid
  let claims ← verifyRunActionCapability cpython hmac minted.capability sampleSecret nowEpoch
  return (minted.capability, claims)

theorem exists_verified {workerId runId : String} {w r : Points}
    (h : (mintAndVerify hmac workerId runId nowEpoch).toOption.map (fun p => (p.2.workerId, p.2.runId)) = some (w, r)) :
    ∃ capability claims,
      verifyRunActionCapability cpython hmac capability sampleSecret nowEpoch = .ok claims ∧
        claims.workerId = w ∧ claims.runId = r := by
  obtain ⟨p, hp, hids⟩ := Option.map_eq_some_iff.mp h
  obtain ⟨hw, hr⟩ := Prod.mk.inj hids
  cases hverified : mintAndVerify hmac workerId runId nowEpoch with
  | error =>
    rw [hverified] at hp
    cases hp
  | ok q =>
    rw [hverified] at hp
    obtain rfl : q = p := Option.some.inj hp
    simp only [mintAndVerify, Fallible.bind_eq_ok] at hverified
    obtain ⟨minted, -, claims, hclaims, hpair⟩ := hverified
    obtain rfl := Except.ok.inj hpair
    exact ⟨minted.capability, claims, hclaims, hw, hr⟩

/-- What the sample mints, and for whom the capabilities with a MAC that is injective are. -/
theorem sample_runs :
    mintRunActionCapability cpython (signing sampleSignature) sampleSecret (sampleWorker "wkr_7")
        (sampleRun "run_7") (Points.ofString "retry") 1750000000 none sampleUuid =
          .ok sampleMinted ∧
      (mintRunActionCapability cpython (signing earlySignature) sampleSecret (sampleWorker "wkr_7")
        (sampleRun "run_7") (Points.ofString "retry") (-1) none sampleUuid).toOption.isSome ∧
      (mintAndVerify tagged "wkr_7" "run_7" 1750000000).toOption.map
        (fun p => (p.2.workerId, p.2.runId)) =
          some (Points.ofString "wkr_7", Points.ofString "run_7") ∧
      (mintAndVerify tagged "a" "b:c" 1750000000).toOption.map
        (fun p => (p.2.workerId, p.2.runId)) =
          some (Points.ofString "a", Points.ofString "b:c") := by
  refine ⟨?_, ?_, ?_, ?_⟩
  · unfold sampleMinted
    repeat rw [String.toList_ofList]
    decide +kernel
  · decide +kernel
  · decide +kernel
  · decide +kernel

/-- The capability of the sample is honoured in its window, and the key of its injective signature
is that of its worker and run. -/
theorem capabilities_iff_sample :
    (∃ claims, mintedClaims cpython (sampleWorker "wkr_7") (sampleRun "run_7")
        (Points.ofString "retry") 1750000000 none sampleUuid = .ok claims ∧
      Honoured cpython (signing sampleSignature) sampleMinted.capability sampleSecret claims) ∧
    ∃ capability claims,
      verifyRunActionCapability cpython tagged capability sampleSecret 1750000000 = .ok claims ∧
        KeyOfClaims tagged capability sampleSecret claims := by
  have hlen : sampleSignature.length = 32 := rfl
  obtain ⟨hminted, hverified⟩ :=
    capabilities_iff cpython (signing sampleSignature) tagged (length_signing hlen)
      tagged_injective2
  refine ⟨?_, ?_⟩
  · obtain ⟨claims, hclaims, hhonoured⟩ := hminted _ _ _ _ _ _ _ _ sample_runs.1
    exact ⟨claims, hclaims, hhonoured.mpr (by decide)⟩
  · obtain ⟨capability, claims, hclaims, hworker, hrun⟩ := exists_verified sample_runs.2.2.1
    refine ⟨capability, claims, hclaims, (hverified _ _ _ _ hclaims).2.2.2.mpr ?_⟩
    rw [hworker, hrun]
    exact splitsOnce_of_no_colon (by decide +kernel) (by decide +kernel)

/-- A capability that is issued a second before the epoch is minted and refused at once, and one
key signs for the run `b:c` of the worker `a` and for the run `c` of the worker `a:b`. -/
theorem capabilities_refused_and_shared :
    (∃ minted claims,
      mintRunActionCapability cpython (signing earlySignature) sampleSecret (sampleWorker "wkr_7")
        (sampleRun "run_7") (Points.ofString "retry") (-1) none sampleUuid = .ok minted ∧
      mintedClaims cpython (sampleWorker "wkr_7") (sampleRun "run_7") (Points.ofString "retry") (-1)
        none sampleUuid = .ok claims ∧
      ¬Honoured cpython (signing earlySignature) minted.capability sampleSecret claims) ∧
    ∃ capability claims,
      verifyRunActionCapability cpython tagged capability sampleSecret 1750000000 = .ok claims ∧
        ¬KeyOfClaims tagged capability sampleSecret claims := by
  have hlen : earlySignature.length = 32 := rfl
  refine ⟨?_, ?_⟩
  · have hmint := sample_runs.2.1
    cases hminted : mintRunActionCapability cpython (signing earlySignature) sampleSecret
        (sampleWorker "wkr_7") (sampleRun "run_7") (Points.ofString "retry") (-1) none
          sampleUuid with
    | error e => simp [hminted, Except.toOption] at hmint
    | ok minted =>
      obtain ⟨claims, hclaims, hhonoured⟩ := honoured_iff (length_signing hlen) hminted
      exact ⟨minted, claims, rfl, hclaims, fun h => absurd (hhonoured.mp h) (by decide)⟩
  · obtain ⟨capability, claims, hclaims, hworker, hrun⟩ := exists_verified sample_runs.2.2.2
    refine ⟨capability, claims, hclaims, fun hkeys => ?_⟩
    have honce := (keyOfClaims_iff tagged_injective2 hclaims).mp hkeys
    rw [hworker, hrun, splitsOnce_iff (by decide +kernel) (by decide +kernel)] at honce
    have hsame := honce (Points.ofString "a:b") (Points.ofString "c") (by decide +kernel)
      (by decide +kernel) (by decide +kernel)
    revert hsame
    decide +kernel

end GlassHive.RunActions
