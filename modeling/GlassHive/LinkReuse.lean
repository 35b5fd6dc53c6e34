import GlassHive.LinkAgreement

/-!
# References that resolve

One reference is shared by the tokens of a scope. `create_signed_link_ref` returns the one that is
there without reading its token again, except for links that are watched, so that it may return a
reference to a token that an earlier secret has signed.
-/

namespace GlassHive.SignedLinks

open Relational Transition
open AsciiJson (Merged)

/-- The fields of a payload that make the scope of a link. -/
def scopeNames : List String :=
  ["kind", "worker_id", "tenant_id", "owner_id", "path"]

/-- What the JSON module does: the text of an object is not empty, and what is read has no two
surrogates in the place of one character. -/
structure LinkCodec.Lawful (codec : LinkCodec) : Prop where
  payloadJson_ne_nil : ∀ payload, codec.payloadJson payload ≠ []
  merged : ∀ token payload, tokenPayload codec token = some payload →
    ∀ name ∈ scopeNames, Merged (textOf codec payload name)

/-- References are stored under identifiers that are accepted. -/
def LinkStore.Named (s : LinkStore) : Prop :=
  ∀ refId row, s.refs.get? refId = some row → isLinkRef refId = true

/-- The identifier that a call would store a reference under is accepted. -/
def Identified (c : LinkEnv × LinkCall) : Prop :=
  isLinkRef (Points.ofString "ghr_" ++ c.1.uuid) = true

/-- A clock has not passed the expiry of a reference. -/
def LinkRef.Live (row : LinkRef) (now : ℤ) : Prop :=
  row.expiresAt = 0 ∨ now ≤ row.expiresAt

/-- A resolution is for the fields of a payload and for a target. -/
structure LinkResolution.IsFor (codec : LinkCodec) (r : LinkResolution) (payload : Payload)
    (targetUrl : Points) : Prop where
  kind : r.kind = textOf codec payload "kind"
  fields : ∀ name ∈ scopeNames, textOf codec r.payload name = textOf codec payload name
  target : r.targetUrl = targetUrl

/-- A reference resolves to the fields of a payload and to a target, under the secret that it was
created with and while its worker is not blocked, after any calls that revoke nothing, until it
expires. -/
def Resolves (codec : LinkCodec) (env : LinkEnv) (s : LinkStore) (refId : Points)
    (payload : Payload) (targetUrl : Points) : Prop :=
  ∃ row, s.refs.get? refId = some row ∧
    ∀ (calls : List (LinkEnv × LinkCall)) (later : LinkEnv),
      (∀ c ∈ calls, c.2.revokes = none ∧ row.Live c.1.now) → row.Live later.now →
      later.secret = env.secret →
      blocked later s (textOf codec payload "worker_id") = .ok false →
      ∃ s' r,
        resolveSignedLinkRef codec .runtime later (run (step codec) { store := s } calls).store
          refId = .ok (s', .ok (some r)) ∧
        r.IsFor codec payload targetUrl

/-- A reference that a call creates resolves. -/
def ResolvesCreated (codec : LinkCodec) (s : LinkSystem) (c : LinkEnv × LinkCall) : Prop :=
  ∀ token targetUrl, c.2 = .createRef token targetUrl → ∀ s' refId payload,
    createSignedLinkRef codec .runtime c.1 s.store token targetUrl =
      .ok (s', some (refId, payload)) →
    Resolves codec c.1 s' refId payload targetUrl

/-- A reference that a call takes for a scope has a token under the current secret, and the target
itself. -/
def ReusesCurrent (codec : LinkCodec) (s : LinkSystem) (c : LinkEnv × LinkCall) : Prop :=
  ∀ token targetUrl, c.2 = .createRef token targetUrl → ∀ payload opened refId row,
    verifySignedLinkToken codec .runtime c.1 s.store token = .ok (some payload) →
    linkRefConn codec .runtime c.1 s.store = .ok opened →
    reusedRef codec .runtime c.1 (dropExpired c.1.now opened) payload targetUrl =
      .ok (some refId) →
    (dropExpired c.1.now opened).refs.get? refId = some row →
    (∃ verified, decodeSignedLinkToken codec .runtime c.1 row.token true = .ok (some verified)) ∧
      row.targetUrl = targetUrl

variable {codec : LinkCodec} {env : LinkEnv} {s s' : LinkStore}

/-! ## The store -/

variable {later : LinkEnv} {c : LinkEnv × LinkCall} {payload : Payload} {token targetUrl : Points}

theorem create_of_reused {refId : Points} {opened : LinkStore}
    (hverified : verifySignedLinkToken codec .runtime env s token = .ok (some payload))
    (hopened : linkRefConn codec .runtime env s = .ok opened)
    (hreused : reusedRef codec .runtime env (dropExpired env.now opened) payload targetUrl = .ok (some refId)) :
    createSignedLinkRef codec .runtime env s token targetUrl =
      .ok (dropExpired env.now opened, some (refId, payload)) := by
  unfold createSignedLinkRef
  refine Fallible.bind_eq_ok.mpr ⟨_, hverified, ?_⟩
  refine Fallible.bind_eq_ok.mpr ⟨_, hopened, ?_⟩
  exact Fallible.bind_eq_ok.mpr ⟨_, hreused, rfl⟩

theorem moves_step {s : LinkSystem} (hcall : c.2.revokes = none) :
    Moves codec c.1 s.store (step codec s c).store := by
  rcases step_cases s c with hmoves | ⟨w, opened, hw, -⟩
  · exact hmoves
  · rw [hcall] at hw
    cases hw

theorem get?_dropExpired {now : ℤ} {refId : Points} {row : LinkRef} :
    (dropExpired now s).refs.get? refId = some row ↔
      s.refs.get? refId = some row ∧ (row.expiresAt ≤ 0 ∨ now ≤ row.expiresAt) := by
  unfold dropExpired
  rw [Table.get?_delete_eq_some, decide_eq_false_iff_not]
  refine and_congr_right fun _ => ?_
  omega

theorem strip_of_isLinkRef {refId : Points} (h : isLinkRef refId = true) :
    Points.strip refId = refId := by
  refine Points.strip_of_forall fun c hc => ?_
  simp only [isLinkRef, Bool.and_eq_true, List.all_eq_true] at h
  have hchar := h.2 c hc
  simp only [isLinkRefChar, RunActions.isAlnum, Bool.or_eq_true, Bool.and_eq_true,
    decide_eq_true_eq, beq_iff_eq] at hchar
  simp only [Points.isSpace, Bool.or_eq_false_iff, Bool.and_eq_false_iff, decide_eq_false_iff_not,
    beq_eq_false_iff_ne]
  omega

/-! ## Rows -/

/-- Where the expiry does not count, a token is read under the secret only. -/
theorem decode_congr (h : later.secret = env.secret) (token : Points) :
    decodeSignedLinkToken codec .runtime later token true =
      decodeSignedLinkToken codec .runtime env token true := by
  have hsigned : signedPayload codec later token = signedPayload codec env token := by
    unfold signedPayload
    rw [h]
  unfold decodeSignedLinkToken
  rw [hsigned]
  simp

theorem expiresAt_migratedRow (codec : LinkCodec) (env : LinkEnv) (row : LinkRef) :
    (migratedRow codec .runtime env row).expiresAt = row.expiresAt ∨
      (migratedRow codec .runtime env row).expiresAt = 0 := by
  unfold migratedRow
  split
  · dsimp only
    split
    · exact .inr rfl
    · exact .inl rfl
  · exact .inl rfl

/-- The token of every legacy row is read without an exception. -/
def LegacyReads (codec : LinkCodec) (env : LinkEnv) (s : LinkStore) : Prop :=
  ∀ refId row, s.refs.get? refId = some row → row.isLegacy = true →
    ∃ read, decodeSignedLinkToken codec .runtime env row.token true = .ok read

/-- The database opens exactly when the tokens of its legacy rows are read. -/
theorem exists_linkRefConn_iff :
    (∃ opened, linkRefConn codec .runtime env s = .ok opened) ↔ LegacyReads codec env s := by
  have hfault : ∀ {x : Except String (Option Payload)}, fault x = none ↔ ∃ read, x = .ok read := by
    intro x
    cases x with
    | ok read => exact ⟨fun _ => ⟨read, rfl⟩, fun _ => rfl⟩
    | error => exact ⟨nofun, nofun⟩
  have hnone : ((s.refs.select fun _ row => row.isLegacy).findSome? fun entry =>
      fault (decodeSignedLinkToken codec .runtime env entry.2.token true)) = none ↔
        LegacyReads codec env s := by
    rw [List.findSome?_eq_none_iff]
    constructor
    · intro h refId row hrow hlegacy
      exact hfault.mp (h (refId, row) (Table.mem_select.mpr ⟨hrow, hlegacy⟩))
    · rintro h ⟨refId, row⟩ hmem
      obtain ⟨hrow, hlegacy⟩ := Table.mem_select.mp hmem
      exact hfault.mpr (h refId row hrow hlegacy)
  rw [← hnone]
  unfold linkRefConn
  constructor
  · rintro ⟨opened, h⟩
    split at h
    · cases h
    · assumption
  · intro h
    rw [h]
    exact ⟨_, rfl⟩

/-- Opening the database leaves no legacy row but those that were there. -/
theorem LegacyReads.opened {opened : LinkStore} (h : LegacyReads codec env s)
    (hopened : linkRefConn codec .runtime later s = .ok opened) :
    LegacyReads codec env (dropExpired later.now opened) := by
  intro refId row hrow hlegacy
  have hthere := (get?_dropExpired.mp hrow).1
  rw [linkRefConn_refs hopened] at hthere
  obtain ⟨old, hold, rfl⟩ := Option.map_eq_some_iff.mp hthere
  split at hlegacy
  · rename_i hwas
    rw [if_pos hwas, token_migratedRow]
    exact h refId old hold hwas
  · rename_i hnot
    exact absurd hlegacy hnot

theorem isLegacy_newRef (hcodec : codec.Lawful) :
    (newRef codec later payload token targetUrl).isLegacy = false := by
  have hpayload := hcodec.payloadJson_ne_nil payload
  simp only [LinkRef.isLegacy, newRef, Bool.or_eq_false_iff, List.isEmpty_eq_false_iff]
  exact ⟨hpayload, by simp [scopeKey, AsciiJson.dumps]⟩

theorem LegacyReads.moves (hcodec : codec.Lawful) (h : LegacyReads codec env s)
    (hmoves : Moves codec later s s') : LegacyReads codec env s' := by
  cases hmoves with
  | same => exact h
  | opened hopened => exact h.opened hopened
  | inserted hopened hrefs =>
    intro refId row hrow hlegacy
    rw [Table.get?_insert hrefs] at hrow
    split at hrow
    · obtain rfl := Option.some.inj hrow
      rw [isLegacy_newRef hcodec] at hlegacy
      cases hlegacy
    · exact h.opened hopened refId row hrow hlegacy

/-! ## References that stay -/

/-- A row is still there, under the same token and for the same target, and the database opens under
a secret. -/
structure Kept (codec : LinkCodec) (env : LinkEnv) (refId : Points) (row : LinkRef)
    (before s : LinkStore) : Prop where
  row : ∃ kept, s.refs.get? refId = some kept ∧ kept.token = row.token ∧
    kept.targetUrl = row.targetUrl ∧ (kept.expiresAt = row.expiresAt ∨ kept.expiresAt = 0)
  reads : LegacyReads codec env s
  revocations : s.revocations = before.revocations

variable {refId : Points} {row : LinkRef} {before : LinkStore}

theorem LinkRef.Live.of_kept {kept : LinkRef} {now : ℤ} (h : row.Live now)
    (hkept : kept.expiresAt = row.expiresAt ∨ kept.expiresAt = 0) :
    kept.expiresAt ≤ 0 ∨ now ≤ kept.expiresAt := by
  unfold LinkRef.Live at h
  omega

/-- Opening the database and dropping what has expired keeps a row that has not. -/
theorem Kept.opened {opened : LinkStore} (h : Kept codec env refId row before s)
    (hopened : linkRefConn codec .runtime later s = .ok opened) (hlive : row.Live later.now) :
    Kept codec env refId row before (dropExpired later.now opened) := by
  obtain ⟨kept, hkept, htoken, htarget, hexpiry⟩ := h.row
  refine ⟨?_, ?_, ?_⟩
  · let now' := if kept.isLegacy then migratedRow codec .runtime later kept else kept
    have hrow : opened.refs.get? refId = some now' := by
      rw [linkRefConn_refs hopened, hkept]
      rfl
    have hnow : now'.token = row.token ∧ now'.targetUrl = row.targetUrl ∧
        (now'.expiresAt = row.expiresAt ∨ now'.expiresAt = 0) := by
      unfold now'
      split
      · refine ⟨(token_migratedRow kept).trans htoken,
          (targetUrl_migratedRow kept).trans htarget, ?_⟩
        rcases expiresAt_migratedRow codec later kept with h | h
        · rwa [h]
        · exact .inr h
      · exact ⟨htoken, htarget, hexpiry⟩
    exact ⟨now', get?_dropExpired.mpr ⟨hrow, hlive.of_kept hnow.2.2⟩, hnow⟩
  · exact h.reads.opened hopened
  · have hrevocations := linkRefConn_revocations hopened
    exact hrevocations.trans h.revocations

theorem Kept.moves (hcodec : codec.Lawful) (h : Kept codec env refId row before s)
    (hmoves : Moves codec later s s') (hlive : row.Live later.now) :
    Kept codec env refId row before s' := by
  refine ⟨?_, h.reads.moves hcodec hmoves, hmoves.revocations.trans h.revocations⟩
  cases hmoves with
  | same => exact h.row
  | opened hopened => exact (h.opened hopened hlive).row
  | inserted hopened hrefs =>
    obtain ⟨kept, hrow, hsame⟩ := (h.opened hopened hlive).row
    exact ⟨kept, Table.get?_insert_of_some hrefs hrow, hsame⟩

/-- A row stays through calls that revoke nothing, until it expires. -/
theorem Kept.run (hcodec : codec.Lawful) {calls : List (LinkEnv × LinkCall)}
    (h : Kept codec env refId row before s)
    (hcalls : ∀ c ∈ calls, c.2.revokes = none ∧ row.Live c.1.now) :
    Kept codec env refId row before (Transition.run (step codec) { store := s } calls).store := by
  have hstep : ∀ (sys : LinkSystem) (c : LinkEnv × LinkCall),
      Kept codec env refId row before sys.store → (c.2.revokes = none ∧ row.Live c.1.now) →
      Kept codec env refId row before (step codec sys c).store :=
    fun sys c hkept hc => hkept.moves hcodec (moves_step hc.1) hc.2
  have hrun := invariant_run hstep (s := { store := s }) h
    (along_of_forall_mem _ (fun c hc _ => hcalls c hc) _)
  exact hrun

/-- A row that has stayed is found. -/
theorem Kept.finds (h : Kept codec env refId row before s) (hname : isLinkRef refId = true)
    (hsecret : later.secret = env.secret) (hlive : row.Live later.now) :
    ∃ kept, Finds codec later s refId kept ∧ kept.token = row.token ∧
      kept.targetUrl = row.targetUrl := by
  have hreads : LegacyReads codec later s := by
    intro refId' row' hrow' hlegacy
    rw [decode_congr hsecret]
    exact h.reads refId' row' hrow' hlegacy
  obtain ⟨opened, hopened⟩ := exists_linkRefConn_iff.mpr hreads
  obtain ⟨kept, hrow, htoken, htarget, -⟩ := (h.opened hopened hlive).row
  have hstrip := strip_of_isLinkRef hname
  refine ⟨kept, ⟨by rwa [hstrip], opened, hopened, ?_⟩, htoken, htarget⟩
  rw [hstrip]
  exact hrow

/-! ## References that are shared -/

/-- A reference is taken from a row of the scope that has not expired. -/
theorem exists_of_reusedRef
    (h : reusedRef codec .runtime env s payload targetUrl = .ok (some refId)) :
    ∃ row, s.refs.get? refId = some row ∧ row.scopeKey = scopeKey codec payload targetUrl ∧
      row.Live env.now := by
  unfold reusedRef at h
  split at h
  · cases h
  · rename_i found row hexisting
    have hfound : found = refId := by
      split at h
      · exact Option.some.inj (Except.ok.inj h)
      · obtain ⟨expiresAt, -, h⟩ := Fallible.map_eq_ok.mp h
        split at h
        · exact Option.some.inj h
        · cases h
    subst hfound
    obtain ⟨hrow, hmatches⟩ := Table.first_eq_some hexisting
    rw [Bool.and_eq_true, Bool.or_eq_true, beq_iff_eq, beq_iff_eq, decide_eq_true_eq] at hmatches
    exact ⟨row, hrow, hmatches.1, hmatches.2⟩

/-- Payloads of the same scope have the same fields. -/
theorem textOf_eq_of_scopeKey (hcodec : codec.Lawful) {token' targetUrl' : Points}
    {payload' : Payload} (hpayload : tokenPayload codec token = some payload)
    (hpayload' : tokenPayload codec token' = some payload')
    (h : scopeKey codec payload targetUrl = scopeKey codec payload' targetUrl') :
    ∀ name ∈ scopeNames, textOf codec payload name = textOf codec payload' name := by
  have hbodies := AsciiJson.body_of_dumps_eq (by rfl) h
  simp only [List.forall₂_cons] at hbodies
  have htext : ∀ name ∈ scopeNames,
      AsciiJson.body (textOf codec payload name) = AsciiJson.body (textOf codec payload' name) := by
    intro name hname
    simp only [scopeNames, List.mem_cons, List.not_mem_nil, or_false] at hname
    rcases hname with rfl | rfl | rfl | rfl | rfl
    · exact hbodies.1
    · exact hbodies.2.2.2.2.2.1
    · exact hbodies.2.2.2.2.1
    · exact hbodies.2.1
    · exact hbodies.2.2.1
  exact fun name hname => AsciiJson.body_injective (hcodec.merged token payload hpayload name hname)
    (hcodec.merged token' payload' hpayload' name hname) (htext name hname)

/-- A row under a token that the secret reads, for the fields of a payload, resolves to them. -/
theorem resolves_of_row (hcodec : codec.Lawful) {verified : Payload}
    (hname : isLinkRef refId = true) (hreads : LegacyReads codec env s)
    (hrow : s.refs.get? refId = some row)
    (hverified : decodeSignedLinkToken codec .runtime env row.token true = .ok (some verified))
    (hfields : ∀ name ∈ scopeNames, textOf codec verified name = textOf codec payload name)
    (htarget : row.targetUrl = targetUrl) : Resolves codec env s refId payload targetUrl := by
  refine ⟨row, hrow, fun calls later hcalls hlive hsecret hblocked => ?_⟩
  have hkept : Kept codec env refId row s s :=
    ⟨⟨row, hrow, rfl, rfl, .inl rfl⟩, hreads, rfl⟩
  have hrun := hkept.run hcodec hcalls
  obtain ⟨kept, hfinds, htoken, hkeptTarget⟩ := hrun.finds hname hsecret hlive
  have hdecoded : decodeSignedLinkToken codec .runtime later kept.token true =
      .ok (some verified) := by
    rw [decode_congr hsecret, htoken, hverified]
  have hunblocked : Unblocked codec .runtime later
      (Transition.run (step codec) { store := s } calls).store kept verified := by
    rw [unblocked_runtime, hfields "worker_id" (by decide), blocked_congr hrun.revocations]
    exact hblocked
  obtain ⟨s', hresolved⟩ :=
    resolve_eq_ok_iff.mpr ⟨kept, verified, hfinds, hdecoded, hunblocked, rfl⟩
  exact ⟨s', _, hresolved, hfields "kind" (by decide), hfields, hkeptTarget.trans htarget⟩

/-- What is found under a reference has the token and the target of the row there. -/
theorem same_of_finds {found : LinkRef} (h : Finds codec env s refId found)
    (hname : isLinkRef refId = true) (hrow : s.refs.get? refId = some row) :
    found.token = row.token ∧ found.targetUrl = row.targetUrl := by
  obtain ⟨-, opened, hopened, hfound⟩ := h
  rw [strip_of_isLinkRef hname] at hfound
  have hthere := (get?_dropExpired.mp hfound).1
  rw [linkRefConn_refs hopened] at hthere
  obtain ⟨old, hold, rfl⟩ := Option.map_eq_some_iff.mp hthere
  obtain rfl := Option.some.inj (hrow.symm.trans hold)
  split
  · exact ⟨token_migratedRow row, targetUrl_migratedRow row⟩
  · exact ⟨rfl, rfl⟩

theorem LinkStore.Named.opened {opened : LinkStore} (h : s.Named)
    (hopened : linkRefConn codec .runtime env s = .ok opened) :
    (dropExpired env.now opened).Named := by
  intro refId row hrow
  have hthere := (get?_dropExpired.mp hrow).1
  rw [linkRefConn_refs hopened] at hthere
  obtain ⟨old, hold, -⟩ := Option.map_eq_some_iff.mp hthere
  exact h refId old hold

/-- What a call creates resolves exactly when what it takes for the scope is current. -/
theorem resolvesCreated_iff (hcodec : codec.Lawful) {s : LinkSystem}
    (hwell : s.store.WellFormed codec) (hnamed : s.store.Named) (hc : Identified c) :
    ResolvesCreated codec s c ↔ ReusesCurrent codec s c := by
  constructor
  · intro hcreated token targetUrl hcall payload opened refId row hverified hopened hreused hrow
    obtain ⟨row', hrow', hresolves⟩ := hcreated token targetUrl hcall _ refId payload
      (create_of_reused hverified hopened hreused)
    obtain ⟨row'', hrow'', -, hlive⟩ := exists_of_reusedRef hreused
    obtain rfl := Option.some.inj (hrow.symm.trans hrow')
    obtain rfl := Option.some.inj (hrow.symm.trans hrow'')
    obtain ⟨-, hunblocked⟩ := blocked_of_verifySignedLinkToken hverified
    have hblocked : blocked c.1 (dropExpired c.1.now opened)
        (textOf codec payload "worker_id") = .ok false := by
      have hrevocations := (Moves.opened hopened).revocations
      rw [blocked_congr hrevocations, hunblocked]
    -- the reference resolves at once
    obtain ⟨s', r, hresolved, hfor⟩ := hresolves [] c.1 (by simp) hlive rfl hblocked
    obtain ⟨found, verified, hfinds, hdecoded, -, rfl⟩ := resolve_eq_ok_iff.mp ⟨s', hresolved⟩
    have hname := hnamed.opened hopened refId row hrow
    obtain ⟨htoken, htarget⟩ := same_of_finds hfinds hname hrow
    rw [htoken] at hdecoded
    exact ⟨⟨verified, hdecoded⟩, htarget.symm.trans hfor.target⟩
  · intro hcurrent token targetUrl hcall s' refId payload hcreate
    rcases create_cases hcreate with ⟨hnone, -⟩ | ⟨refId', payload', hr, hverified, hcreates⟩
    · cases hnone
    · obtain ⟨rfl, rfl⟩ := Prod.mk.inj (Option.some.inj hr)
      have hdecode := (blocked_of_verifySignedLinkToken hverified).1
      have hpayload := tokenPayload_of_decode hdecode
      have hmoves := hcreates.moves hverified
      cases hcreates with
      | reused hopened hreused =>
        have hreads := (exists_linkRefConn_iff.mp ⟨_, hopened⟩).moves hcodec hmoves
        obtain ⟨row, hrow, hscope, -⟩ := exists_of_reusedRef hreused
        obtain ⟨⟨verified, hdecoded⟩, htarget⟩ := hcurrent token targetUrl hcall payload _ refId row
          hverified hopened hreused hrow
        have hrowPayload := tokenPayload_of_decode hdecoded
        have hname := hnamed.opened hopened refId row hrow
        rcases (hwell.opens hopened) refId row (get?_dropExpired.mp hrow).1 with
          hnone | ⟨payload', hpayload', hkey⟩
        · rw [hnone] at hscope
          simp [scopeKey, AsciiJson.dumps] at hscope
        · obtain rfl := Option.some.inj (hrowPayload.symm.trans hpayload')
          have hfields := textOf_eq_of_scopeKey hcodec hrowPayload hpayload (hkey.symm.trans hscope)
          exact resolves_of_row hcodec hname hreads hrow hdecoded hfields htarget
      | inserted hopened hrefs =>
        have hreads := (exists_linkRefConn_iff.mp ⟨_, hopened⟩).moves hcodec hmoves
        have hrow := Table.get?_insert hrefs (Points.ofString "ghr_" ++ c.1.uuid)
        rw [if_pos rfl] at hrow
        have hdecoded :
            decodeSignedLinkToken codec .runtime c.1 token true = .ok (some payload) := by
          obtain ⟨expiresAt, hsigned, -⟩ := decode_eq_ok_iff.mp hdecode
          exact decode_eq_ok_iff.mpr ⟨expiresAt, hsigned, .inl rfl⟩
        exact resolves_of_row hcodec hc hreads hrow hdecoded (fun _ _ => rfl) rfl

/-! ## Runs -/

theorem LinkStore.Named.moves (h : s.Named) (hc : Identified c) (hmoves : Moves codec c.1 s s') :
    s'.Named := by
  cases hmoves with
  | same => exact h
  | opened hopened => exact h.opened hopened
  | inserted hopened hrefs =>
    intro refId row hrow
    rw [Table.get?_insert hrefs] at hrow
    split at hrow
    · rename_i heq
      exact heq ▸ hc
    · exact h.opened hopened refId row hrow

theorem named_step {s : LinkSystem} (hnamed : s.store.Named) (hc : Identified c) :
    (step codec s c).store.Named := by
  rcases step_cases s c with hmoves | ⟨w, opened, -, hopened, hrefs⟩
  · exact hnamed.moves hc hmoves
  · intro refId row hrow
    rw [hrefs, Table.get?_delete_eq_some, linkRefConn_refs hopened] at hrow
    obtain ⟨old, hold, -⟩ := Option.map_eq_some_iff.mp hrow.1
    exact hnamed refId old hold

/-- In every run, all references that are created resolve exactly when all that are taken for a
scope are current. -/
theorem created_resolve_iff (hcodec : codec.Lawful) {store : LinkStore}
    (hwell : store.WellFormed codec) (hnamed : store.Named) {calls : List (LinkEnv × LinkCall)}
    (hcalls : ∀ c ∈ calls, Identified c) :
    Along (step codec) (ResolvesCreated codec) { store } calls ↔
      Along (step codec) (ReusesCurrent codec) { store } calls := by
  have hiff : ∀ (s : LinkSystem) (c : LinkEnv × LinkCall),
      s.store.WellFormed codec ∧ s.store.Named → Identified c →
      (ResolvesCreated codec s c ↔ ReusesCurrent codec s c) :=
    fun s c hs hc => resolvesCreated_iff hcodec hs.1 hs.2 hc
  have hstep : ∀ (s : LinkSystem) (c : LinkEnv × LinkCall),
      s.store.WellFormed codec ∧ s.store.Named → Identified c → ResolvesCreated codec s c →
      (step codec s c).store.WellFormed codec ∧ (step codec s c).store.Named :=
    fun s c hs hc _ => ⟨wellFormed_step c hs.1, named_step hs.2 hc⟩
  exact along_congr_of_forall_mem
    (I := fun s : LinkSystem => s.store.WellFormed codec ∧ s.store.Named) hiff hstep hcalls
    ⟨hwell, hnamed⟩

/-! ## A secret that is rotated -/

def reportPayload : Payload :=
  [(Points.ofString "exp", .int 1900), (Points.ofString "iat", .int 1000),
   (Points.ofString "kind", .str (Points.ofString "artifact_download")),
   (Points.ofString "owner_id", .str (Points.ofString "u1")),
   (Points.ofString "path", .str (Points.ofString "report.txt")),
   (Points.ofString "tenant_id", .str (Points.ofString "t1")), (Points.ofString "v", .int 1),
   (Points.ofString "worker_id", .str (Points.ofString "w1"))]

def reportEncoded : Points :=
  Points.ofString ("eyJleHAiOjE5MDAsImlhdCI6MTAwMCwia2luZCI6ImFydGlmYWN0X2Rvd25sb2FkIiwib3" ++
    "duZXJfaWQiOiJ1MSIsInBhdGgiOiJyZXBvcnQudHh0IiwidGVuYW50X2lkIjoidDEiLCJ2IjoxLCJ3b3JrZXJfaWQiO" ++
    "iJ3MSJ9")

def earlierSignature : Points :=
  Points.ofString "4849eae36255922479a40af58ef41b469042353bf4c07e7f8a7a273e8b4ece59"

def currentSignature : Points :=
  Points.ofString "5921bac7719ef407714729efab1cff3f9e85c1d576f3b931a4d32220b0be0dea"

def earlierSecret : Points :=
  Points.ofString "k1"

def rotatedCodec : LinkCodec :=
  { sampleCodec reportPayload reportEncoded [] with
    hmac := fun secret _ => if secret = earlierSecret then earlierSignature else currentSignature }

def earlierEnv : LinkEnv :=
  { sampleEnv with secret := earlierSecret }

def currentEnv : LinkEnv :=
  { sampleEnv with
    secret := Points.ofString "k2"
    uuid := Points.ofString "0b1c7f0e2a9d4c3b8e6f5a71" }

/-- The same link is referred to before and after the secret is rotated. -/
def rotatedCalls : List (LinkEnv × LinkCall) :=
  [(earlierEnv, .createRef (reportEncoded ++ 46 :: earlierSignature) []),
   (currentEnv, .createRef (reportEncoded ++ 46 :: currentSignature) [])]

theorem rotatedCodec_lawful : rotatedCodec.Lawful where
  payloadJson_ne_nil payload := by
    change Json.dumps (.obj payload) ≠ []
    simp [Json.dumps]
  merged token payload htoken := by
    have hpayload : payload = reportPayload := by
      unfold tokenPayload at htoken
      split at htoken
      · cases htoken
      · simp only [rotatedCodec, sampleCodec] at htoken
        split at htoken
        · rename_i hread
          split at hread
          · simp_all
          · simp at hread
        · cases htoken
    subst hpayload
    unfold Merged
    decide +kernel

theorem created_resolve_iff_rotated :
    Along (step rotatedCodec) (ResolvesCreated rotatedCodec) { store := {} } rotatedCalls ↔
      Along (step rotatedCodec) (ReusesCurrent rotatedCodec) { store := {} } rotatedCalls := by
  have hwell : LinkStore.WellFormed rotatedCodec {} := fun refId row h => by
    simp [Table.get?, Table.empty] at h
  have hnamed : LinkStore.Named {} := fun refId row h => by
    simp [Table.get?, Table.empty] at h
  have hcalls : ∀ c ∈ rotatedCalls, Identified c := by
    unfold Identified
    decide +kernel
  exact created_resolve_iff rotatedCodec_lawful hwell hnamed hcalls

/-- What the second of two creations returns resolves to nothing. -/
def leadsNowhere (codec : LinkCodec) (earlier current : LinkEnv) (first second : Points) : Bool :=
  let rotated := (step codec { store := {} } (earlier, .createRef first [])).store
  match createSignedLinkRef codec .runtime current rotated second [] with
  | .ok (s, some (refId, payload)) =>
    (s.refs.get? refId).any (·.expiresAt == 0) &&
      decide (blocked current s (textOf codec payload "worker_id") = .ok false) &&
      match resolveSignedLinkRef codec .runtime current s refId with
      | .ok (_, .ok none) => true
      | _ => false
  | _ => false

theorem not_resolvesCreated_of_leadsNowhere {earlier current : LinkEnv} {first second : Points}
    (hnowhere : leadsNowhere codec earlier current first second = true) :
    ¬Along (step codec) (ResolvesCreated codec) { store := {} }
      [(earlier, .createRef first []), (current, .createRef second [])] := by
  intro h
  rw [along_cons, along_cons] at h
  unfold leadsNowhere at hnowhere
  dsimp only at hnowhere
  split at hnowhere
  · rename_i s refId payload hcreate
    obtain ⟨row, hrow, hresolves⟩ := h.2.1 _ _ rfl s refId payload hcreate
    rw [hrow, Bool.and_eq_true, Bool.and_eq_true, Option.any_some, beq_iff_eq,
      decide_eq_true_eq] at hnowhere
    obtain ⟨⟨hexpiry, hblocked⟩, hnone⟩ := hnowhere
    obtain ⟨s', r, hresolved, -⟩ := hresolves [] current (by simp) (.inl hexpiry) rfl hblocked
    change resolveSignedLinkRef codec .runtime current s refId = _ at hresolved
    rw [hresolved] at hnone
    cases hnone
  · cases hnowhere

/-- After the secret is rotated, a link gets the reference to the token of the earlier secret. -/
theorem not_resolvesCreated_rotated :
    ¬Along (step rotatedCodec) (ResolvesCreated rotatedCodec) { store := {} } rotatedCalls := by
  have hnowhere : leadsNowhere rotatedCodec earlierEnv currentEnv
      (reportEncoded ++ 46 :: earlierSignature) (reportEncoded ++ 46 :: currentSignature) = true := by
    unfold rotatedCodec reportEncoded earlierSignature currentSignature
    repeat rw [Points.ofString_append]
    repeat rw [Points.ofString_ofList]
    decide +kernel
  exact not_resolvesCreated_of_leadsNowhere hnowhere

end GlassHive.SignedLinks
