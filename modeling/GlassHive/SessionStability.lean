import GlassHive.SessionIdentity
import GlassHive.System

/-!
# When the session of an identity is stable

A call that read no session draws an identifier of its own. Written over a session that another call
created in between, the identifier replaces the one that this call has returned, unless a request
refers to it already. A session stays under its identifier exactly when no call writes so.
-/

namespace GlassHive

open Relational Transition

namespace SessionTables

variable {t t' : SessionTables} {a : UpsertSession} {sessionId id : SessionId}
  {row : ProviderSession} {createdAt : Time}

/-- Rows under both keys go together, and no identifier is that of two identities. -/
structure Linked (t : SessionTables) : Prop where
  row : ∀ identity scope, t.scopes.get? identity = some scope →
    (t.base.sessions.get? scope.sessionId).isSome = true
  distinct : ∀ identity identity' scope scope', t.scopes.get? identity = some scope →
    t.scopes.get? identity' = some scope' → scope.sessionId = scope'.sessionId →
      identity = identity'
  parents : ∀ requestId q, t.base.requests.get? requestId = some q →
    (t.base.sessions.get? q.sessionId).isSome = true

/-- The identifier can be taken for the session of an identity: it is the one that it has, or no
session has it and no request refers to the one that it has. -/
def Free (t : SessionTables) (a : UpsertSession) (sessionId : SessionId) : Prop :=
  match t.scopes.get? a.identity with
  | none => t.base.sessions.get? sessionId = none
  | some current => sessionId = current.sessionId ∨
      (t.base.sessions.get? sessionId = none ∧
        ∀ requestId q, t.base.requests.get? requestId = some q → q.sessionId ≠ current.sessionId)

/-- The transaction of a call goes through with an identifier. -/
def Accepts (t : SessionTables) (a : UpsertSession) (sessionId : SessionId) : Prop :=
  t.base.workspaceGcClaimActive a.workerId = false ∧
    (∃ id w, t.base.workers.get? id = some w ∧ a.links id w = true) ∧
    (t.base.projects.get? a.projectId).isSome = true ∧ t.Free a sessionId

/-- What a statement that goes through leaves. -/
structure Puts (t t' : SessionTables) (a : UpsertSession) (sessionId : SessionId) : Prop where
  free : t.Free a sessionId
  scopes : ∀ identity, t'.scopes.get? identity =
    if identity = a.identity then some (a.scope sessionId) else t.scopes.get? identity
  row : (t'.base.sessions.get? sessionId).isSome = true
  others : ∀ id, (∀ current, t.scopes.get? a.identity = some current → id ≠ current.sessionId) →
    (t.base.sessions.get? id).isSome = true → (t'.base.sessions.get? id).isSome = true
  requests : t'.base.requests = t.base.requests

theorem checkProject_eq_ok {row' : ProviderSession}
    (h : checkProject t a sessionId row' = .ok (t', id, row)) :
    t' = t ∧ id = sessionId ∧ (t.base.projects.get? a.projectId).isSome = true := by
  unfold checkProject at h
  split at h
  · cases h
  · rename_i hproject
    obtain ⟨rfl, rfl, -⟩ : t = t' ∧ sessionId = id ∧ row' = row := by simpa using h
    rw [Bool.not_eq_true, ← Option.not_isSome, Bool.not_eq_false'] at hproject
    exact ⟨rfl, rfl, hproject⟩

theorem checkProject_of_isSome (h : (t.base.projects.get? a.projectId).isSome = true) :
    checkProject t a sessionId row = .ok (t, sessionId, row) := by
  unfold checkProject
  have hproject : ¬(t.base.projects.get? a.projectId).isNone = true := by
    rw [← Option.not_isSome, h]
    exact Bool.false_ne_true
  rw [if_neg hproject]

theorem putSession_eq_ok (h : t.putSession a sessionId createdAt = .ok (t', id, row)) :
    id = sessionId ∧ (t.base.projects.get? a.projectId).isSome = true ∧
      t.Puts t' a sessionId := by
  unfold putSession at h
  cases hscope : t.scopes.get? a.identity with
  | none =>
    simp only [hscope] at h
    cases hinsert : t.base.sessions.insert? sessionId (a.row createdAt) with
    | none => simp [hinsert] at h
    | some =>
      simp only [hinsert] at h
      obtain ⟨rfl, rfl, hproject⟩ := checkProject_eq_ok h
      have hget := Table.get?_insert hinsert
      refine ⟨rfl, hproject, ?_, fun identity => by simp, ?_, ?_, rfl⟩
      · simpa only [Free, hscope] using (Table.insert?_eq_some hinsert).1
      · simp [hget]
      · intro j _ hj
        by_cases hsame : j = id
        · simp [hget, hsame]
        · simpa [hget, hsame] using hj
  | some current =>
    simp only [hscope] at h
    split at h
    · cases h
    split at h
    · cases h
    · rename_i htaken hattached
      obtain ⟨rfl, rfl, hproject⟩ := checkProject_eq_ok h
      refine ⟨rfl, hproject, ?_, fun identity => by simp, by simp, ?_, rfl⟩
      · simp only [Free, hscope]
        by_cases hsame : id = current.sessionId
        · exact Or.inl hsame
        · refine Or.inr ⟨by simpa [hsame] using htaken, fun requestId q hq hattach => ?_⟩
          exact hattached ⟨hsame, Table.any_eq_true.mpr ⟨requestId, q, hq, by simpa using hattach⟩⟩
      · intro j hj hsome
        have hne : j ≠ current.sessionId := hj current hscope
        by_cases hsame : j = id
        · simp [hsame]
        · obtain ⟨kept, hkept⟩ := Option.isSome_iff_exists.mp hsome
          rw [Table.get?_put, if_neg hsame, Table.get?_delete, hkept]
          simp [hne]

theorem putSession_of_free (hfree : t.Free a sessionId)
    (hproject : (t.base.projects.get? a.projectId).isSome = true) :
    ∃ t' row, t.putSession a sessionId createdAt = .ok (t', sessionId, row) := by
  unfold putSession
  cases hscope : t.scopes.get? a.identity with
  | none =>
    simp only [Free, hscope] at hfree
    obtain ⟨sessions, hinsert⟩ :=
      Option.isSome_iff_exists.mp ((Table.insert?_isSome (r := a.row createdAt)).mpr hfree)
    simp only [hinsert]
    exact ⟨_, _, checkProject_of_isSome hproject⟩
  | some current =>
    simp only [Free, hscope] at hfree
    have htaken : ¬(sessionId ≠ current.sessionId ∧
        (t.base.sessions.get? sessionId).isSome = true) := by
      rintro ⟨hne, hsome⟩
      rcases hfree with hsame | ⟨hnone, -⟩
      · exact hne hsame
      · simp [hnone] at hsome
    have hattached : ¬(sessionId ≠ current.sessionId ∧
        t.base.requests.any (fun _ q => q.sessionId == current.sessionId) = true) := by
      rintro ⟨hne, hany⟩
      obtain ⟨requestId, q, hq, hsame⟩ := Table.any_eq_true.mp hany
      rcases hfree with hid | ⟨-, hall⟩
      · exact hne hid
      · exact hall requestId q hq (by simpa using hsame)
    simp only [if_neg htaken, if_neg hattached]
    exact ⟨_, _, checkProject_of_isSome hproject⟩

/-- A transaction that goes through was accepted, and writes the identifier that the call read or
drew. -/
theorem writeSession_eq_ok {existing : Option (SessionId × Time)}
    (h : t.writeSession a existing = .ok (t', id, row)) :
    id = (existing.map Prod.fst).getD a.newId ∧ t.Accepts a id ∧ t.Puts t' a id := by
  unfold writeSession at h
  split at h
  · cases h
  split at h
  · cases h
  · rename_i hclaim hlinks
    obtain ⟨rfl, hproject, hputs⟩ := putSession_eq_ok h
    rw [Bool.not_eq_true] at hclaim
    simp only [Bool.not_eq_true', Bool.not_eq_false] at hlinks
    exact ⟨rfl, ⟨hclaim, Table.any_eq_true.mp hlinks, hproject, hputs.free⟩, hputs.free,
      hputs.scopes, hputs.row, hputs.others, hputs.requests⟩

theorem writeSession_of_accepts {existing : Option (SessionId × Time)}
    (h : t.Accepts a ((existing.map Prod.fst).getD a.newId)) :
    ∃ t' row, t.writeSession a existing =
      .ok (t', (existing.map Prod.fst).getD a.newId, row) := by
  obtain ⟨hclaim, hlinks, hproject, hfree⟩ := h
  unfold writeSession
  rw [hclaim, Table.any_eq_true.mpr hlinks]
  exact putSession_of_free hfree hproject

/-- The rows under both keys go together after a statement. -/
theorem Puts.linked (h : t.Puts t' a sessionId) (hlinked : t.Linked) : t'.Linked := by
  have hold : ∀ identity scope, identity ≠ a.identity → t.scopes.get? identity = some scope →
      ∀ current, t.scopes.get? a.identity = some current → scope.sessionId ≠ current.sessionId :=
    fun identity scope hne hscope current hcurrent hsame =>
      hne (hlinked.distinct identity a.identity scope current hscope hcurrent hsame)
  -- The identifier is not that of another identity.
  have hnew : ∀ identity scope, identity ≠ a.identity → t.scopes.get? identity = some scope →
      scope.sessionId ≠ sessionId := by
    intro identity scope hne hscope hsame
    have hrow := hlinked.row identity scope hscope
    have hfree := h.free
    unfold Free at hfree
    cases hcurrent : t.scopes.get? a.identity with
    | none =>
      simp only [hcurrent] at hfree
      simp [hsame, hfree] at hrow
    | some current =>
      simp only [hcurrent] at hfree
      rcases hfree with rfl | ⟨hnone, -⟩
      · exact hold identity scope hne hscope current hcurrent hsame
      · simp [hsame, hnone] at hrow
  constructor
  · intro identity scope hscope
    rw [h.scopes] at hscope
    split at hscope
    · obtain rfl := Option.some.inj hscope
      exact h.row
    · rename_i hne
      exact h.others scope.sessionId (hold identity scope hne hscope)
        (hlinked.row identity scope hscope)
  · intro identity identity' scope scope' hscope hscope' hsame
    rw [h.scopes] at hscope hscope'
    split at hscope <;> split at hscope'
    · rename_i hid hid'
      exact hid.trans hid'.symm
    · rename_i hid hne
      obtain rfl := Option.some.inj hscope
      exact absurd hsame.symm (hnew identity' scope' hne hscope')
    · rename_i hne hid
      obtain rfl := Option.some.inj hscope'
      exact absurd hsame (hnew identity scope hne hscope)
    · exact hlinked.distinct identity identity' scope scope' hscope hscope' hsame
  · intro requestId q hq
    rw [h.requests] at hq
    have hparent := hlinked.parents requestId q hq
    by_cases hcurrent : ∃ current, t.scopes.get? a.identity = some current ∧
        q.sessionId = current.sessionId
    · obtain ⟨current, hcurrent, hattach⟩ := hcurrent
      have hfree := h.free
      simp only [Free, hcurrent] at hfree
      rcases hfree with hsame | ⟨-, hall⟩
      · rw [hattach, ← hsame]
        exact h.row
      · exact absurd hattach (hall requestId q hq)
    · refine h.others q.sessionId (fun current hscope hsame => hcurrent ?_) hparent
      exact ⟨current, hscope, hsame⟩

end SessionTables

/-! ## Stability -/

namespace SessionUpserts

variable {u : SessionUpserts} {t : SessionTables} {identity : SessionIdentity}

/-- The calls of an identity return one session, which stays present under it, and the sessions of
all requests are present. -/
structure Stable (u : SessionUpserts) : Prop where
  same : ∀ identity id id', (identity, id) ∈ u.returned → (identity, id') ∈ u.returned → id = id'
  present : ∀ identity id, (identity, id) ∈ u.returned →
    ∃ row, u.tables.getProviderSession identity = some (id, row)
  parents : ∀ requestId q, u.tables.base.requests.get? requestId = some q →
    (u.tables.base.sessions.get? q.sessionId).isSome = true

/-- A call that read no session does not write the identifier that it drew in place of the one that
the session of its identity has by then. -/
def Timely (u : SessionUpserts) : SessionStep → Prop
  | .write i => ∀ a current, u.calls[i]? = some ⟨a, .read none⟩ →
      u.tables.scopes.get? a.identity = some current → current.sessionId ≠ a.newId →
        ¬u.tables.Accepts a a.newId
  | _ => True

/-- What calls have read, against what others have returned. -/
structure Sound (u : SessionUpserts) : Prop where
  linked : u.tables.Linked
  absent : ∀ (i : ℕ) (a : UpsertSession), u.calls[i]? = some ⟨a, .read none⟩ → ∀ current,
    u.tables.scopes.get? a.identity = some current →
      (a.identity, current.sessionId) ∈ u.returned
  found : ∀ (i : ℕ) (a : UpsertSession) (id : SessionId) (createdAt : Time),
    u.calls[i]? = some ⟨a, .read (some (id, createdAt))⟩ → ∃ current,
      u.tables.scopes.get? a.identity = some current ∧
      (current.sessionId = id ∨ ((a.identity, current.sessionId) ∈ u.returned ∧
        ∃ other, (a.identity, other) ∈ u.returned ∧ other ≠ current.sessionId))

theorem sound_init (h : t.Linked) : (init t).Sound where
  linked := h
  absent i a hc := by simp [init] at hc
  found i a id createdAt hc := by simp [init] at hc

theorem stable_init (h : t.Linked) : (init t).Stable where
  same identity id id' hid := by simp [init, returned] at hid
  present identity id hid := by simp [init, returned] at hid
  parents := h.parents

theorem getProviderSession_eq_some {id : SessionId} {row : ProviderSession} :
    t.getProviderSession identity = some (id, row) ↔
      ∃ scope, t.scopes.get? identity = some scope ∧ scope.sessionId = id ∧
        t.base.sessions.get? id = some row := by
  unfold SessionTables.getProviderSession
  rw [Option.bind_eq_some_iff]
  constructor
  · rintro ⟨scope, hscope, hrow⟩
    obtain ⟨row', hrow', hpair⟩ := Option.map_eq_some_iff.mp hrow
    obtain ⟨rfl, rfl⟩ := Prod.mk.inj hpair
    exact ⟨scope, hscope, rfl, hrow'⟩
  · rintro ⟨scope, hscope, rfl, hrow⟩
    exact ⟨scope, hscope, by rw [hrow]; rfl⟩

/-- A session that is linked is read under the identifier of its scope. -/
theorem exists_getProviderSession (h : t.Linked) {scope : SessionScope}
    (hscope : t.scopes.get? identity = some scope) :
    ∃ row, t.getProviderSession identity = some (scope.sessionId, row) := by
  obtain ⟨row, hrow⟩ := Option.isSome_iff_exists.mp (h.row identity scope hscope)
  exact ⟨row, getProviderSession_eq_some.mpr ⟨scope, hscope, rfl, hrow⟩⟩

theorem mem_returned {id : SessionId} :
    (identity, id) ∈ u.returned ↔
      ∃ (i : ℕ) (c : UpsertCall), u.calls[i]? = some c ∧ (identity, id) ∈ c.returned :=
  Threads.mem_held

section Moves

variable {i : ℕ} {c : UpsertCall} {a : UpsertSession} {state : UpsertState}

/-- The move of a call that had returned nothing adds what it returns. -/
theorem mem_returned_move (hc : u.calls[i]? = some c) (hnone : c.returned = [])
    {identity : SessionIdentity} {id : SessionId} :
    (identity, id) ∈ (u.move i a state).returned ↔
      (identity, id) ∈ u.returned ∨ (identity, id) ∈ UpsertCall.returned ⟨a, state⟩ := by
  rw [mem_returned, mem_returned]
  constructor
  · rintro ⟨j, c', hc', hmem⟩
    by_cases hj : i = j
    · subst hj
      have hnew : (u.move i a state).calls[i]? = some ⟨a, state⟩ := Threads.getElem?_set_self hc
      obtain rfl := Option.some.inj (hnew.symm.trans hc')
      exact Or.inr hmem
    · refine Or.inl ⟨j, c', ?_, hmem⟩
      rwa [move, List.getElem?_set_ne hj] at hc'
  · rintro (⟨j, c', hc', hmem⟩ | hmem)
    · have hj : i ≠ j := by
        rintro rfl
        obtain rfl := Option.some.inj (hc.symm.trans hc')
        simp [hnone] at hmem
      exact ⟨j, c', by rwa [move, List.getElem?_set_ne hj], hmem⟩
    · exact ⟨i, ⟨a, state⟩, Threads.getElem?_set_self hc, hmem⟩

theorem Stable.moved (h : u.Stable) (hc : u.calls[i]? = some c) (hnone : c.returned = [])
    (hnothing : UpsertCall.returned ⟨a, state⟩ = []) : (u.move i a state).Stable where
  same identity id id' hid hid' := by
    rw [mem_returned_move hc hnone, hnothing] at hid hid'
    exact h.same identity id id' (by simpa using hid) (by simpa using hid')
  present identity id hid := by
    rw [mem_returned_move hc hnone, hnothing] at hid
    exact h.present identity id (by simpa using hid)
  parents := h.parents

theorem Sound.moved (h : u.Sound) (hc : u.calls[i]? = some c) (hnone : c.returned = [])
    (habsent : state = .read none → ∀ current, u.tables.scopes.get? a.identity = some current →
      (a.identity, current.sessionId) ∈ u.returned)
    (hfound : ∀ id createdAt, state = .read (some (id, createdAt)) → ∃ current,
      u.tables.scopes.get? a.identity = some current ∧ current.sessionId = id) :
    (u.move i a state).Sound where
  linked := h.linked
  absent j b hb current hcurrent := by
    refine (mem_returned_move hc hnone).mpr (Or.inl ?_)
    by_cases hj : i = j
    · subst hj
      have hnew : (u.move i a state).calls[i]? = some ⟨a, state⟩ := Threads.getElem?_set_self hc
      obtain ⟨rfl, rfl⟩ : a = b ∧ state = .read none := by simpa [hnew] using hb
      exact habsent rfl current hcurrent
    · rw [move, List.getElem?_set_ne hj] at hb
      exact h.absent j b hb current hcurrent
  found j b id createdAt hb := by
    by_cases hj : i = j
    · subst hj
      have hnew : (u.move i a state).calls[i]? = some ⟨a, state⟩ := Threads.getElem?_set_self hc
      obtain ⟨rfl, rfl⟩ : a = b ∧ state = .read (some (id, createdAt)) := by
        simpa [hnew] using hb
      obtain ⟨current, hcurrent, hid⟩ := hfound id createdAt rfl
      exact ⟨current, hcurrent, Or.inl hid⟩
    · rw [move, List.getElem?_set_ne hj] at hb
      obtain ⟨current, hcurrent, hid⟩ := h.found j b id createdAt hb
      refine ⟨current, hcurrent, hid.imp_right ?_⟩
      rintro ⟨hmem, other, hother, hne⟩
      exact ⟨(mem_returned_move hc hnone).mpr (Or.inl hmem), other,
        (mem_returned_move hc hnone).mpr (Or.inl hother), hne⟩

/-- The calls after a transaction that went through. -/
def wrote (u : SessionUpserts) (i : ℕ) (a : UpsertSession) (t' : SessionTables) (id : SessionId)
    (row : ProviderSession) : SessionUpserts :=
  { u.move i a (.returned id row) with tables := t' }

variable {t' : SessionTables} {id : SessionId} {row : ProviderSession}
  {existing : Option (SessionId × Time)}

theorem mem_returned_wrote (hc : u.calls[i]? = some ⟨a, .read existing⟩)
    {identity : SessionIdentity} {id' : SessionId} :
    (identity, id') ∈ (u.wrote i a t' id row).returned ↔
      (identity, id') ∈ u.returned ∨ (identity = a.identity ∧ id' = id) := by
  have hmove := @mem_returned_move u i _ a (.returned id row) hc rfl identity id'
  have hreturned : (u.wrote i a t' id row).returned =
      (u.move i a (.returned id row)).returned := rfl
  rw [hreturned, hmove]
  simp [UpsertCall.returned]

/-- A session that another identifier replaces was returned. -/
theorem Sound.replaced (h : u.Sound) (hc : u.calls[i]? = some ⟨a, .read existing⟩)
    {current : SessionScope} (hcurrent : u.tables.scopes.get? a.identity = some current)
    (hne : current.sessionId ≠ (existing.map Prod.fst).getD a.newId) :
    (a.identity, current.sessionId) ∈ u.returned := by
  cases existing with
  | none => exact h.absent i a hc current hcurrent
  | some e =>
    obtain ⟨found, hfound, hid⟩ := h.found i a e.1 e.2 hc
    obtain rfl := Option.some.inj (hcurrent.symm.trans hfound)
    rcases hid with hid | ⟨hmem, -⟩
    · exact absurd hid hne
    · exact hmem

theorem Sound.wrote (h : u.Sound) (hc : u.calls[i]? = some ⟨a, .read existing⟩)
    (hid : id = (existing.map Prod.fst).getD a.newId) (hputs : u.tables.Puts t' a id) :
    (u.wrote i a t' id row).Sound where
  linked := hputs.linked h.linked
  absent j b hb current hcurrent := by
    have hj : i ≠ j := by
      rintro rfl
      rw [SessionUpserts.wrote, move, Threads.getElem?_set_self hc] at hb
      cases hb
    rw [SessionUpserts.wrote, move, List.getElem?_set_ne hj] at hb
    rw [mem_returned_wrote hc]
    change t'.scopes.get? b.identity = some current at hcurrent
    rw [hputs.scopes] at hcurrent
    split at hcurrent
    · rename_i hidentity
      obtain rfl := Option.some.inj hcurrent
      exact Or.inr ⟨hidentity, rfl⟩
    · exact Or.inl (h.absent j b hb current hcurrent)
  found j b id₀ createdAt hb := by
    have hj : i ≠ j := by
      rintro rfl
      rw [SessionUpserts.wrote, move, Threads.getElem?_set_self hc] at hb
      cases hb
    rw [SessionUpserts.wrote, move, List.getElem?_set_ne hj] at hb
    obtain ⟨current, hcurrent, hread⟩ := h.found j b id₀ createdAt hb
    by_cases hidentity : b.identity = a.identity
    · refine ⟨a.scope id, (hputs.scopes b.identity).trans (if_pos hidentity), ?_⟩
      by_cases hsame : id = id₀
      · exact Or.inl hsame
      refine Or.inr ⟨(mem_returned_wrote hc).mpr (Or.inr ⟨hidentity, rfl⟩), ?_⟩
      rw [hidentity] at hcurrent
      -- Some identifier that was returned differs from the new one.
      by_cases hnew : current.sessionId = id
      · rcases hread with hread | ⟨-, other, hother, hne⟩
        · exact absurd (hnew.symm.trans hread) hsame
        · exact ⟨other, (mem_returned_wrote hc).mpr (Or.inl hother), hnew ▸ hne⟩
      · refine ⟨current.sessionId, (mem_returned_wrote hc).mpr (Or.inl ?_), hnew⟩
        rw [hidentity]
        exact h.replaced hc hcurrent (hid ▸ hnew)
    · refine ⟨current, (hputs.scopes b.identity).trans ((if_neg hidentity).trans hcurrent), ?_⟩
      refine hread.imp_right ?_
      rintro ⟨hmem, other, hother, hne⟩
      exact ⟨(mem_returned_wrote hc).mpr (Or.inl hmem), other,
        (mem_returned_wrote hc).mpr (Or.inl hother), hne⟩

/-- A transaction that goes through keeps the sessions stable exactly when the identifier that it
writes is the one that the session of the identity has. -/
theorem stable_wrote_iff (h : u.Sound) (hstable : u.Stable)
    (hc : u.calls[i]? = some ⟨a, .read existing⟩)
    (hid : id = (existing.map Prod.fst).getD a.newId) (hputs : u.tables.Puts t' a id) :
    (u.wrote i a t' id row).Stable ↔
      ∀ current, u.tables.scopes.get? a.identity = some current → current.sessionId = id := by
  have hlinked : t'.Linked := hputs.linked h.linked
  constructor
  · intro hnext current hcurrent
    by_contra hne
    have hold := h.replaced hc hcurrent (hid ▸ hne)
    exact hne (hnext.same a.identity current.sessionId id
      ((mem_returned_wrote hc).mpr (Or.inl hold)) ((mem_returned_wrote hc).mpr (Or.inr ⟨rfl, rfl⟩)))
  · intro hkept
    have hold : ∀ id', (a.identity, id') ∈ u.returned → id' = id := by
      intro id' hmem
      obtain ⟨row', hrow'⟩ := hstable.present a.identity id' hmem
      obtain ⟨current, hcurrent, rfl, -⟩ := getProviderSession_eq_some.mp hrow'
      exact hkept current hcurrent
    have hnow : ∀ identity id', (identity, id') ∈ (u.wrote i a t' id row).returned →
        ∃ scope, t'.scopes.get? identity = some scope ∧ scope.sessionId = id' := by
      intro identity id' hmem
      rcases (mem_returned_wrote hc).mp hmem with hmem | ⟨rfl, rfl⟩
      · by_cases hidentity : identity = a.identity
        · subst hidentity
          exact ⟨a.scope id, (hputs.scopes _).trans (if_pos rfl), (hold id' hmem).symm⟩
        · obtain ⟨row', hrow'⟩ := hstable.present identity id' hmem
          obtain ⟨scope, hscope, hsame, -⟩ := getProviderSession_eq_some.mp hrow'
          exact ⟨scope, (hputs.scopes _).trans ((if_neg hidentity).trans hscope), hsame⟩
      · exact ⟨a.scope id', (hputs.scopes _).trans (if_pos rfl), rfl⟩
    constructor
    · intro identity id₁ id₂ hid₁ hid₂
      obtain ⟨scope, hscope, rfl⟩ := hnow identity id₁ hid₁
      obtain ⟨scope', hscope', rfl⟩ := hnow identity id₂ hid₂
      exact congrArg SessionScope.sessionId (Option.some.inj (hscope.symm.trans hscope'))
    · intro identity id' hmem
      obtain ⟨scope, hscope, rfl⟩ := hnow identity id' hmem
      exact exists_getProviderSession hlinked hscope
    · exact hlinked.parents

end Moves

/-! ## Steps -/

section Steps

variable {i : ℕ}

/-- What a step of the system does: a call begins, reads, raises or writes, a request is created
under a session that is present, or nothing happens. -/
theorem step_cases (u : SessionUpserts) (op : SessionStep) :
    (∃ a, op = .call a ∧ u.step op = { u with calls := u.calls ++ [⟨a, .started⟩] }) ∨
    (∃ i a, op = .read i ∧ u.calls[i]? = some ⟨a, .started⟩ ∧ u.step op =
      u.move i a (.read ((u.tables.getProviderSession a.identity).map fun e =>
        (e.1, e.2.createdAt)))) ∨
    (∃ i a existing e, op = .write i ∧ u.calls[i]? = some ⟨a, .read existing⟩ ∧
      ¬u.tables.Accepts a ((existing.map Prod.fst).getD a.newId) ∧
      u.step op = u.move i a (.raised e)) ∨
    (∃ i a existing t' id row, op = .write i ∧ u.calls[i]? = some ⟨a, .read existing⟩ ∧
      id = (existing.map Prod.fst).getD a.newId ∧ u.tables.Accepts a id ∧
      u.tables.Puts t' a id ∧ u.step op = u.wrote i a t' id row) ∨
    (∃ id q requests, op = .request id q ∧ u.tables.base.requests.insert? id q = some requests ∧
      (u.tables.base.sessions.get? q.sessionId).isSome = true ∧
      u.step op = { u with tables := ⟨{ u.tables.base with requests }, u.tables.scopes⟩ }) ∨
    (u.step op = u ∧ ∀ i a, op = .write i → u.calls[i]? ≠ some ⟨a, .read none⟩) := by
  cases op with
  | call a => exact Or.inl ⟨a, rfl, rfl⟩
  | read i =>
    simp only [step, readStep]
    split
    · rename_i a hc
      exact Or.inr (Or.inl ⟨i, a, rfl, hc, rfl⟩)
    · exact Or.inr (Or.inr (Or.inr (Or.inr (Or.inr ⟨rfl, by simp⟩))))
  | write i =>
    simp only [step, writeStep]
    split
    · rename_i a existing hc
      split
      · rename_i reply hwrite
        obtain ⟨t', id, row⟩ := reply
        obtain ⟨hid, haccepts, hputs⟩ := SessionTables.writeSession_eq_ok hwrite
        exact Or.inr (Or.inr (Or.inr (Or.inl
          ⟨i, a, existing, t', id, row, rfl, hc, hid, haccepts, hputs, rfl⟩)))
      · rename_i e hwrite
        refine Or.inr (Or.inr (Or.inl ⟨i, a, existing, e, rfl, hc, fun haccepts => ?_, rfl⟩))
        obtain ⟨t', row, hok⟩ := SessionTables.writeSession_of_accepts haccepts
        rw [hok] at hwrite
        cases hwrite
    · rename_i hnone
      refine Or.inr (Or.inr (Or.inr (Or.inr (Or.inr ⟨rfl, ?_⟩))))
      rintro j a hj hc
      obtain rfl := SessionStep.write.inj hj
      exact hnone a none hc
  | request id q =>
    simp only [step, requestStep]
    split
    · rename_i requests hinsert
      split
      · rename_i hparent
        exact Or.inr (Or.inr (Or.inr (Or.inr (Or.inl
          ⟨id, q, requests, rfl, hinsert, hparent, rfl⟩))))
      · exact Or.inr (Or.inr (Or.inr (Or.inr (Or.inr ⟨rfl, by simp⟩))))
    · exact Or.inr (Or.inr (Or.inr (Or.inr (Or.inr ⟨rfl, by simp⟩))))

theorem returned_call (a : UpsertSession) :
    returned { u with calls := u.calls ++ [⟨a, .started⟩] } = u.returned := by
  simp [returned, UpsertCall.returned]

theorem parents_insert {t : Store} {requests : Table RequestId ProviderRequest} {id : RequestId}
    {q : ProviderRequest}
    (h : ∀ requestId q, t.requests.get? requestId = some q →
      (t.sessions.get? q.sessionId).isSome = true)
    (hinsert : t.requests.insert? id q = some requests)
    (hparent : (t.sessions.get? q.sessionId).isSome = true) :
    ∀ requestId q, requests.get? requestId = some q →
      (t.sessions.get? q.sessionId).isSome = true := by
  intro requestId q' hq
  rw [Table.get?_insert hinsert] at hq
  split at hq
  · obtain rfl := Option.some.inj hq
    exact hparent
  · exact h requestId q' hq

theorem sound_step (h : u.Sound) (op : SessionStep) : (u.step op).Sound := by
  rcases step_cases u op with ⟨a, -, hstep⟩ | ⟨i, a, -, hc, hstep⟩ |
    ⟨i, a, existing, e, -, hc, -, hstep⟩ |
    ⟨i, a, existing, t', id, row, -, hc, hid, -, hputs, hstep⟩ |
    ⟨id, q, requests, -, hinsert, hparent, hstep⟩ | ⟨hstep, -⟩ <;> rw [hstep]
  · constructor
    · exact h.linked
    · intro j b hb current hcurrent
      rw [returned_call]
      rcases Threads.getElem?_append_eq_some hb with hb | hb
      · exact h.absent j b hb current hcurrent
      · cases hb
    · intro j b id createdAt hb
      rw [returned_call]
      rcases Threads.getElem?_append_eq_some hb with hb | hb
      · exact h.found j b id createdAt hb
      · cases hb
  · refine h.moved hc rfl ?_ ?_
    · intro hread current hcurrent
      obtain ⟨row, hrow⟩ := exists_getProviderSession h.linked hcurrent
      simp [hrow] at hread
    · intro id createdAt hread
      simp only [UpsertState.read.injEq, Option.map_eq_some_iff] at hread
      obtain ⟨⟨id', row⟩, hrow, hpair⟩ := hread
      obtain ⟨scope, hscope, hsame, -⟩ := getProviderSession_eq_some.mp hrow
      exact ⟨scope, hscope, hsame.trans (Prod.mk.inj hpair).1⟩
  · exact h.moved hc rfl (fun hread => by cases hread) fun id createdAt hread => by cases hread
  · exact h.wrote hc hid hputs
  · have hparents := parents_insert (t := u.tables.base) h.linked.parents hinsert hparent
    exact ⟨⟨h.linked.row, h.linked.distinct, hparents⟩, h.absent, h.found⟩
  · exact h

/-- A step keeps the sessions stable exactly when it is timely. -/
theorem stable_step_iff (h : u.Sound) (hstable : u.Stable) (op : SessionStep) :
    (u.step op).Stable ↔ u.Timely op := by
  rcases step_cases u op with ⟨a, rfl, hstep⟩ | ⟨i, a, rfl, hc, hstep⟩ |
    ⟨i, a, existing, e, rfl, hc, hrefused, hstep⟩ |
    ⟨i, a, existing, t', id, row, rfl, hc, hid, haccepts, hputs, hstep⟩ |
    ⟨id, q, requests, rfl, hinsert, hparent, hstep⟩ | ⟨hstep, hnot⟩ <;> rw [hstep]
  · refine iff_of_true ⟨?_, ?_, hstable.parents⟩ trivial
    · rw [returned_call]
      exact hstable.same
    · rw [returned_call]
      exact hstable.present
  · exact iff_of_true (hstable.moved hc rfl rfl) trivial
  · refine iff_of_true (hstable.moved hc rfl rfl) fun b current hb _ _ => ?_
    obtain ⟨rfl, rfl⟩ : a = b ∧ existing = none := by simpa [hc] using hb
    exact hrefused
  · rw [stable_wrote_iff h hstable hc hid hputs]
    cases existing with
    | none =>
      obtain rfl : id = a.newId := hid
      constructor
      · intro hkept b current hb hcurrent hne
        obtain rfl : a = b := by simpa [hc] using hb
        exact absurd (hkept current hcurrent) hne
      · intro htimely current hcurrent
        by_contra hne
        exact htimely a current hc hcurrent hne haccepts
    | some e =>
      -- The session that was read is still the one of the identity.
      refine iff_of_true (fun current hcurrent => ?_) fun b current hb => by simp [hc] at hb
      by_contra hne
      obtain ⟨found, hfound, hread⟩ := h.found i a e.1 e.2 hc
      obtain rfl := Option.some.inj (hcurrent.symm.trans hfound)
      rcases hread with hread | ⟨hmem, other, hother, hdiffer⟩
      · exact hne (hread.trans hid.symm)
      · exact hdiffer (hstable.same a.identity other current.sessionId hother hmem)
  · have hparents := parents_insert (t := u.tables.base) hstable.parents hinsert hparent
    exact iff_of_true ⟨hstable.same, hstable.present, hparents⟩ trivial
  · refine iff_of_true hstable ?_
    cases op with
    | write i => exact fun b current hb => absurd hb (hnot i b rfl)
    | _ => trivial

/-- In every order of the steps, the sessions of identities are stable in every state exactly when
no call that read no session writes its own identifier over the session that another call has
created in between. -/
theorem sessions_stable {t : SessionTables} (ht : t.Linked) (ops : List SessionStep) :
    (∀ pre, pre <+: ops → (run step (init t) pre).Stable) ↔ Along step Timely (init t) ops :=
  forall_prefix_iff_along (I := Sound) (P := Stable) (C := Timely) (fun _ op h => sound_step h op)
    (fun _ op h hstable => stable_step_iff h hstable op) (sound_init ht) (stable_init ht)

end Steps

/-! ## Two calls that both read no session -/

private def conversation : SessionIdentity where
  tenantId := 0
  ownerId := 0
  conversationId := "conversation"
  agentId := "agent"
  actorKind := "external_user"
  origin := "interactive"

private def emptyManifest : SessionManifest where
  messages := 0
  acceptedAdvancementKeys := []
  acceptedVisibleMessageKeys := []
  historyCursorAuthority := none
  lastRequestId := none
  lastAcceptedRequestId := none
  lastAcceptedAdvancementKey := none
  lastAcceptedReplayDecision := none
  lastAcceptedAdmissionSequence := 0
  admissionSequence := 0
  contextGeneration := 0
  ownerMainContextVersion := 0
  rest := []

private def upsertOf (newId : SessionId) : UpsertSession where
  identity := conversation
  modelId := "codex-cli"
  projectId := 0
  workerId := 1
  workspaceDir := ""
  accessMode := "workspace"
  historyCount := 0
  contextManifest := emptyManifest
  now := 5
  newId := newId

private def emptyTables : SessionTables :=
  ⟨Store.fromCalls withWorker, .empty⟩

private theorem linked_emptyTables : emptyTables.Linked where
  row identity scope h := by cases h
  distinct identity identity' scope scope' h := by cases h
  parents requestId q h := by cases h

private def bothRead : List SessionStep :=
  [.call (upsertOf 10), .call (upsertOf 11), .read 0, .read 1, .write 0, .write 1]

/-- The second of two calls that both read no session replaces the session that the first one has
returned. -/
theorem session_replaced :
    (run step (init emptyTables) bothRead).returned = [(conversation, 10), (conversation, 11)] ∧
      ((run step (init emptyTables) bothRead).tables.getProviderSession conversation).map Prod.fst =
        some 11 ∧
      ((run step (init emptyTables) bothRead).tables.base.sessions.get? 10).isNone = true := by
  decide +kernel

/-- Two calls one after the other. -/
private def inTurn : List SessionStep :=
  [.call (upsertOf 10), .read 0, .write 0, .call (upsertOf 11), .read 1, .write 1]

theorem sessions_stable_inTurn :
    (∀ pre, pre <+: inTurn → (run step (init emptyTables) pre).Stable) ↔
      Along step Timely (init emptyTables) inTurn :=
  sessions_stable linked_emptyTables inTurn

end SessionUpserts

end GlassHive
