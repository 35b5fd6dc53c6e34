import Mathlib.Data.Prod.Lex
import GlassHive.DelegationReplay
import GlassHive.Library.Pages

/-!
# Active work and history

The active list shows the delegations of an owner that are still at work or ended recently, the
history shows those that ended before or were dismissed. Both lists read the run that the worker of
a delegation is on; the counts read the current run of the delegation.
-/

namespace GlassHive

open Relational

/-- Who reads the lists, the clock that is read, and the two bounds of the environment. -/
structure WorkView where
  tenantId : TenantId
  ownerId : OwnerId
  now : Time
  recency : ℕ
  perState : ℕ

/-- `updated_at`, `created_at` and `work_ref`, compared in this order. -/
abbrev WorkCursor := Time ×ₗ Time ×ₗ WorkRef

namespace WorkView

def owns (view : WorkView) (d : Delegation) : Bool :=
  d.tenantId == view.tenantId && d.ownerId == view.ownerId

/-- `terminal_cutoff`. -/
def cutoff (view : WorkView) : Time :=
  view.now - view.recency

end WorkView

def Delegation.cursor (d : Delegation) (workRef : WorkRef) : WorkCursor :=
  toLex (d.updatedAt, toLex (d.createdAt, workRef))

def DelegationRecord.cursor (e : DelegationRecord) : WorkCursor :=
  e.delegation.cursor e.workRef

/-- The states of a run that history lists. -/
def RunState.concluded : List RunState :=
  [.completed, .failed, .cancelled]

namespace Store

/-! ## What the queries select -/

/-- The undismissed delegations of the same owner that come before one in the order of the lists,
with a current run in the state. -/
def newerDelegations (s : Store) (workRef : WorkRef) (d : Delegation) (state : RunState) : ℕ :=
  (s.delegations.select fun workRef' d' =>
    d'.tenantId == d.tenantId && d'.ownerId == d.ownerId && d'.dismissedAt.isNone &&
      ((s.runs.get? d'.currentRunId).any fun r => r.state == state) &&
      decide (d.cursor workRef < d'.cursor workRef')).length

/-- The run ended before the cutoff, or enough newer delegations are in its state. -/
def outdated (s : Store) (view : WorkView) (workRef : WorkRef) (d : Delegation) (r : Run) : Bool :=
  decide (r.endedAt.getD d.updatedAt < view.cutoff) ||
    decide (view.perState ≤ s.newerDelegations workRef d r.state)

/-- The condition of the active list on a delegation and a run of it, which may be missing. -/
def activeWith (s : Store) (view : WorkView) (workRef : WorkRef) (d : Delegation) :
    Option Run → Bool
  | none => d.dismissedAt.isNone
  | some r => d.dismissedAt.isNone &&
    (!oneOf r.state RunState.concluded ||
      (decide (view.cutoff ≤ r.endedAt.getD d.updatedAt) &&
        decide (s.newerDelegations workRef d r.state < view.perState)))

/-- The condition of history. -/
def historicWith (s : Store) (view : WorkView) (workRef : WorkRef) (d : Delegation) (r : Run) :
    Bool :=
  oneOf r.state RunState.concluded && (d.dismissedAt.isSome || s.outdated view workRef d r)

/-- `_delegation_select`, each row as `get_delegation` reads it. -/
def delegationSelect (s : Store) : List DelegationRecord :=
  s.delegations.entries.filterMap fun e => s.getDelegation e.1 e.2.tenantId e.2.ownerId

/-- The rows of `list_active_delegations` from a cursor on, without the limit. -/
def activeDelegations (s : Store) (view : WorkView) (before : Option WorkCursor) :
    List DelegationRecord :=
  Pages.descending DelegationRecord.cursor (s.delegationSelect.filter fun e =>
    view.owns e.delegation && s.activeWith view e.workRef e.delegation (e.run.map Prod.snd) &&
      Pages.below DelegationRecord.cursor before e)

/-- The rows of `list_delegation_history` from a cursor on, without the limit. -/
def delegationHistory (s : Store) (view : WorkView) (before : Option WorkCursor) :
    List DelegationRecord :=
  Pages.descending DelegationRecord.cursor (s.delegationSelect.filter fun e =>
    view.owns e.delegation &&
      ((e.run.map Prod.snd).any fun r => s.historicWith view e.workRef e.delegation r) &&
      Pages.below DelegationRecord.cursor before e)

/-- The limit of a page, at least one and at most a hundred. -/
def pageLimit (limit : ℤ) : ℕ :=
  (max 1 (min limit 100)).toNat

/-- `list_active_delegations`. -/
def listActiveDelegations (s : Store) (view : WorkView) (limit : ℤ) (before : Option WorkCursor) :
    List DelegationRecord :=
  (s.activeDelegations view before).take (pageLimit limit)

/-- `list_delegation_history`. -/
def listDelegationHistory (s : Store) (view : WorkView) (limit : ℤ) (before : Option WorkCursor) :
    List DelegationRecord :=
  (s.delegationHistory view before).take (pageLimit limit)

/-- `count_active_delegations`, which joins the current run. -/
def countActiveDelegations (s : Store) (view : WorkView) (before : Option WorkCursor) : ℕ :=
  (s.delegations.select fun workRef d =>
    view.owns d &&
      ((s.runs.get? d.currentRunId).any fun r => s.activeWith view workRef d (some r)) &&
      Pages.below (fun e : WorkRef × Delegation => e.2.cursor e.1) before (workRef, d)).length

/-- `count_delegation_history`, which joins the current run. -/
def countDelegationHistory (s : Store) (view : WorkView) (before : Option WorkCursor) : ℕ :=
  (s.delegations.select fun workRef d =>
    view.owns d &&
      ((s.runs.get? d.currentRunId).any fun r => s.historicWith view workRef d r) &&
      Pages.below (fun e : WorkRef × Delegation => e.2.cursor e.1) before (workRef, d)).length

/-! ## What the lists promise -/

/-- A list that its pages enumerate and its count measures, from every cursor. -/
structure Enumerated (rows : Option WorkCursor → List DelegationRecord)
    (list : ℤ → Option WorkCursor → List DelegationRecord) (count : Option WorkCursor → ℕ) :
    Prop where
  descending : (rows none).Pairwise fun a b => b.cursor < a.cursor
  below : ∀ before, rows before = (rows none).filter (Pages.below DelegationRecord.cursor before)
  pages : ∀ limits before, Pages.follow DelegationRecord.cursor list limits before =
    (rows before).take (limits.map pageLimit).sum
  count : ∀ before, count before = (rows before).length

/-- Each delegation of the owner is on one of the two lists, and both are enumerated. -/
structure Partitioned (s : Store) (view : WorkView) : Prop where
  split : ∀ workRef d, s.delegations.get? workRef = some d → view.owns d = true →
    Xor (workRef ∈ (s.activeDelegations view none).map DelegationRecord.workRef)
      (workRef ∈ (s.delegationHistory view none).map DelegationRecord.workRef)
  active : Enumerated (s.activeDelegations view) (s.listActiveDelegations view)
    (s.countActiveDelegations view)
  history : Enumerated (s.delegationHistory view) (s.listDelegationHistory view)
    (s.countDelegationHistory view)

/-- The current run of the delegation is there. It has concluded when the delegation was dismissed,
and is none that history lists when the worker is on a run. -/
def CurrentRunDecides (s : Store) (view : WorkView) (workRef : WorkRef) (d : Delegation) : Prop :=
  ∃ r, s.runs.get? d.currentRunId = some r ∧
    (d.dismissedAt.isSome = true → r.state ∈ RunState.concluded) ∧
    ((s.controlledRun d.workerId).isSome = true →
      r.state ∈ RunState.concluded → d.dismissedAt = none ∧ s.outdated view workRef d r = false)

/-! ## The rows of the queries -/

/-- The run that a row of the lists shows. -/
def shownRun (s : Store) (d : Delegation) : Option Run :=
  s.runs.get? (((s.controlledRun d.workerId).map Prod.fst).getD d.currentRunId)

section Rows

variable {s : Store} {view : WorkView} {workRef : WorkRef} {d : Delegation}

/-- Each delegation has a row in `_delegation_select`. -/
theorem getDelegation_of_bound (hs : s.Bound) (hd : s.delegations.get? workRef = some d) :
    ∃ e, s.getDelegation workRef d.tenantId d.ownerId = some e ∧ e.workRef = workRef ∧
      e.delegation = d ∧ e.run.map Prod.snd = s.shownRun d := by
  have hb : s.bindings workRef = some d.binding := bindings_eq_some.mpr ⟨d, hd, rfl⟩
  obtain ⟨project, hproject⟩ := Option.isSome_iff_exists.mp (hs.projects workRef _ hb)
  obtain ⟨worker, hworker⟩ := Option.isSome_iff_exists.mp (hs.workers workRef _ hb)
  have hp : s.projects.get? d.projectId = some project := hproject
  have hw : s.workers.get? d.workerId = some worker := hworker
  simp only [getDelegation, hd]
  rw [Option.filter_some_pos (by simp)]
  simp [hp, hw, shownRun, Function.comp_def]

theorem mem_delegationSelect {e : DelegationRecord} : e ∈ s.delegationSelect ↔
    ∃ workRef d, s.delegations.get? workRef = some d ∧
      s.getDelegation workRef d.tenantId d.ownerId = some e := by
  simp [delegationSelect, List.mem_filterMap, Table.get?_eq_some_iff]

/-- A delegation has one row. -/
theorem eq_of_mem_delegationSelect {e e' : DelegationRecord} (he' : e' ∈ s.delegationSelect)
    (hd : s.delegations.get? workRef = some d)
    (hread : s.getDelegation workRef d.tenantId d.ownerId = some e)
    (href : e'.workRef = workRef) : e = e' := by
  obtain ⟨r, d', hd', hread'⟩ := mem_delegationSelect.mp he'
  rw [(getDelegation_eq_some hread').1] at href
  subst href
  obtain rfl := Option.some.inj (hd.symm.trans hd')
  exact Option.some.inj (hread.symm.trans hread')

theorem nodup_cursor_delegations : (s.delegations.entries.map
    fun e : WorkRef × Delegation => e.2.cursor e.1).Nodup := by
  have hkeys : s.delegations.entries.Pairwise fun a b => a.1 ≠ b.1 :=
    List.pairwise_map.mp s.delegations.nodup
  rw [List.Nodup, List.pairwise_map]
  refine hkeys.imp fun {a b} hne heq => hne ?_
  exact congrArg (fun c : WorkCursor => (ofLex (ofLex c).2).2) heq

theorem nodup_cursor_delegationSelect :
    (s.delegationSelect.map DelegationRecord.cursor).Nodup := by
  have hkeys : s.delegations.entries.Pairwise fun a b => a.1 ≠ b.1 :=
    List.pairwise_map.mp s.delegations.nodup
  rw [List.Nodup, List.pairwise_map, delegationSelect, List.pairwise_filterMap]
  refine hkeys.imp fun {a b} hne e he e' he' heq => hne ?_
  have href : e.workRef = e'.workRef :=
    congrArg (fun c : WorkCursor => (ofLex (ofLex c).2).2) heq
  rw [(getDelegation_eq_some he).1, (getDelegation_eq_some he').1] at href
  exact href

/-- Rows are counted over the delegations. -/
theorem countP_delegationSelect (hs : s.Bound) {p : DelegationRecord → Bool}
    {q : WorkRef × Delegation → Bool}
    (h : ∀ e : DelegationRecord, e.run.map Prod.snd = s.shownRun e.delegation →
      p e = q (e.workRef, e.delegation)) :
    s.delegationSelect.countP p = s.delegations.entries.countP q := by
  rw [delegationSelect, List.countP_filterMap]
  refine List.countP_congr fun r hr => ?_
  obtain ⟨workRef, d⟩ := r
  obtain ⟨e, hread, rfl, rfl, hrun⟩ :=
    getDelegation_of_bound hs (Table.get?_eq_some_iff.mpr hr)
  simp [hread, h e hrun]

end Rows

/-! ## Pages -/

section Pages

variable {s : Store} {p : DelegationRecord → Bool} {count : Option WorkCursor → ℕ}

/-- Pages enumerate a selection of the rows; only its count may fail. -/
theorem enumerated_iff :
    Enumerated
      (fun before => Pages.descending DelegationRecord.cursor
        (s.delegationSelect.filter fun e => p e && Pages.below DelegationRecord.cursor before e))
      (fun limit before => (Pages.descending DelegationRecord.cursor
        (s.delegationSelect.filter fun e =>
          p e && Pages.below DelegationRecord.cursor before e)).take (pageLimit limit)) count ↔
      ∀ before, count before = s.delegationSelect.countP fun e =>
        p e && Pages.below DelegationRecord.cursor before e := by
  have hkeys := s.nodup_cursor_delegationSelect
  have hrows : ∀ before, Pages.descending DelegationRecord.cursor
      (s.delegationSelect.filter fun e => p e && Pages.below DelegationRecord.cursor before e) =
      (Pages.descending DelegationRecord.cursor (s.delegationSelect.filter p)).filter
        (Pages.below DelegationRecord.cursor before) := Pages.descending_below hkeys p
  have hsorted : (Pages.descending DelegationRecord.cursor (s.delegationSelect.filter p)).Pairwise
      fun a b => b.cursor < a.cursor :=
    Pages.pairwise_descending (hkeys.sublist (List.filter_sublist.map _))
  have hlength : ∀ before, (Pages.descending DelegationRecord.cursor
      (s.delegationSelect.filter fun e =>
        p e && Pages.below DelegationRecord.cursor before e)).length =
      s.delegationSelect.countP fun e => p e && Pages.below DelegationRecord.cursor before e := by
    intro before
    rw [(Pages.descending_perm _).length_eq, List.countP_eq_length_filter]
  constructor
  · intro h before
    rw [h.count, hlength]
  · intro h
    refine ⟨?_, fun before => ?_, fun limits before => ?_, fun before => ?_⟩
    · simpa using hsorted
    · simp [hrows]
    · rw [hrows]
      refine Pages.follow_eq hsorted (fun limit before => ?_) (fun limit => ?_) limits before
      · rw [hrows]
      · simp [pageLimit]
    · rw [h, hlength]

end Pages

/-! ## When the lists are a partition -/

section Partition

variable {s : Store} {view : WorkView} {workRef : WorkRef} {d : Delegation}

theorem activeWith_some (r : Run) : s.activeWith view workRef d (some r) =
    (!d.dismissedAt.isSome &&
      (!oneOf r.state RunState.concluded || !s.outdated view workRef d r)) := by
  simp [activeWith, outdated, Bool.not_or, ← decide_not]

/-- The worker of a delegation is on a run that has not concluded. -/
theorem controlledRun_eq_some {workerId : WorkerId} {runId : RunId} {r : Run}
    (h : s.controlledRun workerId = some (runId, r)) :
    s.runs.get? runId = some r ∧ r.state ∉ RunState.concluded := by
  obtain ⟨hget, hp⟩ := Table.first_eq_some h
  simp only [Bool.and_eq_true, oneOf_eq_true] at hp
  refine ⟨hget, fun hconcluded => ?_⟩
  cases hstate : r.state <;>
    simp [hstate, RunState.concluded, RunState.nonterminal] at hp hconcluded

/-- The lists and the counts agree on a delegation, and one list has it. -/
def RowAgrees (s : Store) (view : WorkView) (workRef : WorkRef) (d : Delegation) : Prop :=
  Xor (s.activeWith view workRef d (s.shownRun d) = true)
      ((s.shownRun d).any (s.historicWith view workRef d) = true) ∧
    ((s.runs.get? d.currentRunId).any fun r => s.activeWith view workRef d (some r)) =
      s.activeWith view workRef d (s.shownRun d) ∧
    (s.runs.get? d.currentRunId).any (s.historicWith view workRef d) =
      (s.shownRun d).any (s.historicWith view workRef d)

theorem rowAgrees_iff : s.RowAgrees view workRef d ↔ s.CurrentRunDecides view workRef d := by
  unfold RowAgrees CurrentRunDecides
  cases hcontrolled : s.controlledRun d.workerId with
  | none =>
    have hshown : s.shownRun d = s.runs.get? d.currentRunId := by simp [shownRun, hcontrolled]
    rw [hshown]
    cases s.runs.get? d.currentRunId with
    | none => cases hd : d.dismissedAt <;> simp [activeWith, hd, Xor]
    | some r =>
      simp only [Option.any_some, Option.some.injEq, exists_eq_left', activeWith_some, historicWith,
        ← oneOf_eq_true]
      generalize oneOf r.state RunState.concluded = concluded
      cases d.dismissedAt.isSome <;> cases concluded <;> cases s.outdated view workRef d r <;>
        simp [Xor]
  | some e =>
    obtain ⟨id, q⟩ := e
    obtain ⟨hq, hopen⟩ := controlledRun_eq_some hcontrolled
    have hshown : s.shownRun d = some q := by simp [shownRun, hcontrolled, hq]
    have hrunning : oneOf q.state RunState.concluded = false := by
      rw [← Bool.not_eq_true, oneOf_eq_true]
      exact hopen
    rw [hshown]
    cases s.runs.get? d.currentRunId with
    | none => cases hd : d.dismissedAt <;> simp [activeWith_some, historicWith, hrunning, hd, Xor]
    | some r =>
      have hnone : d.dismissedAt = none ↔ d.dismissedAt.isSome = false := by simp
      simp only [Option.any_some, Option.some.injEq, exists_eq_left', activeWith_some, historicWith,
        hrunning, hnone, ← oneOf_eq_true]
      generalize d.dismissedAt.isSome = dismissed
      generalize oneOf r.state RunState.concluded = concluded
      cases dismissed <;> cases concluded <;> cases s.outdated view workRef d r <;> simp [Xor]

/-- A list has the delegations of the owner that its condition selects. -/
theorem mem_descending_delegations (hs : s.Bound) (hd : s.delegations.get? workRef = some d)
    (howner : view.owns d = true) (f : WorkRef → Delegation → Option Run → Bool) :
    workRef ∈ (Pages.descending DelegationRecord.cursor (s.delegationSelect.filter fun e =>
        view.owns e.delegation && f e.workRef e.delegation (e.run.map Prod.snd) &&
          Pages.below DelegationRecord.cursor none e)).map DelegationRecord.workRef ↔
      f workRef d (s.shownRun d) = true := by
  obtain ⟨e, hread, href, hdelegation, hrun⟩ := getDelegation_of_bound hs hd
  simp only [List.mem_map, Pages.mem_descending, List.mem_filter, Pages.below_none, Bool.and_true]
  constructor
  · rintro ⟨e', ⟨hmem, hp⟩, href'⟩
    obtain rfl := eq_of_mem_delegationSelect hmem hd hread href'
    rw [hdelegation, hrun, href, Bool.and_eq_true] at hp
    exact hp.2
  · intro h
    refine ⟨e, ⟨mem_delegationSelect.mpr ⟨_, _, hd, hread⟩, ?_⟩, href⟩
    rw [hdelegation, hrun, href, howner, h]
    rfl

theorem mem_activeDelegations (hs : s.Bound) (hd : s.delegations.get? workRef = some d)
    (howner : view.owns d = true) :
    workRef ∈ (s.activeDelegations view none).map DelegationRecord.workRef ↔
      s.activeWith view workRef d (s.shownRun d) = true :=
  mem_descending_delegations hs hd howner (s.activeWith view)

theorem mem_delegationHistory (hs : s.Bound) (hd : s.delegations.get? workRef = some d)
    (howner : view.owns d = true) :
    workRef ∈ (s.delegationHistory view none).map DelegationRecord.workRef ↔
      (s.shownRun d).any (s.historicWith view workRef d) = true :=
  mem_descending_delegations hs hd howner fun workRef d => Option.any (s.historicWith view workRef d)

/-- The count of a condition on delegations is that of the rows exactly when the condition agrees
with that on the rows. -/
theorem count_eq_iff (hs : s.Bound) {p : DelegationRecord → Bool}
    {f g : WorkRef → Delegation → Bool}
    (hp : ∀ e : DelegationRecord, e.run.map Prod.snd = s.shownRun e.delegation →
      p e = (view.owns e.delegation && f e.workRef e.delegation)) :
    (∀ before, (s.delegations.select fun workRef d => view.owns d && g workRef d &&
        Pages.below (fun e : WorkRef × Delegation => e.2.cursor e.1) before (workRef, d)).length =
      s.delegationSelect.countP fun e => p e && Pages.below DelegationRecord.cursor before e) ↔
    ∀ workRef d, s.delegations.get? workRef = some d → view.owns d = true →
      g workRef d = f workRef d := by
  have hrows : ∀ before, (s.delegationSelect.countP fun e =>
      p e && Pages.below DelegationRecord.cursor before e) =
      s.delegations.entries.countP fun e => (view.owns e.2 && f e.1 e.2) &&
        Pages.below (fun e : WorkRef × Delegation => e.2.cursor e.1) before e := by
    intro before
    refine countP_delegationSelect hs fun e hrun => ?_
    rw [hp e hrun]
    rfl
  have hcount : ∀ before, (s.delegations.select fun workRef d => view.owns d && g workRef d &&
      Pages.below (fun e : WorkRef × Delegation => e.2.cursor e.1) before (workRef, d)).length =
      s.delegations.entries.countP fun e => (view.owns e.2 && g e.1 e.2) &&
        Pages.below (fun e : WorkRef × Delegation => e.2.cursor e.1) before e := by
    intro before
    rw [List.countP_eq_length_filter]
    rfl
  simp only [hrows, hcount]
  rw [Pages.countP_below_eq_iff s.nodup_cursor_delegations]
  constructor
  · intro h workRef d hd howner
    have := h (workRef, d) (Table.get?_eq_some_iff.mp hd)
    simpa [howner] using this
  · rintro h ⟨workRef, d⟩ he
    cases howner : view.owns d with
    | false => simp
    | true => simp [h workRef d (Table.get?_eq_some_iff.mpr he) howner]

end Partition

/-- In every store that is reached and for every reader and clock, the two lists are a partition of
the delegations of the owner and are enumerated exactly when the current run of each of them
decides. -/
theorem delegationLists_partitioned_iff (settings : Settings) (calls : List WorkCall)
    (view : WorkView) :
    (afterWork settings calls).Partitioned view ↔
      ∀ workRef d, (afterWork settings calls).delegations.get? workRef = some d →
        view.owns d = true → (afterWork settings calls).CurrentRunDecides view workRef d := by
  have hs := bound_afterWork settings calls
  generalize afterWork settings calls = s at hs ⊢
  have hactive : Enumerated (s.activeDelegations view) (s.listActiveDelegations view)
      (s.countActiveDelegations view) ↔ ∀ workRef d, s.delegations.get? workRef = some d →
        view.owns d = true → ((s.runs.get? d.currentRunId).any fun r =>
          s.activeWith view workRef d (some r)) = s.activeWith view workRef d (s.shownRun d) :=
    enumerated_iff.trans (count_eq_iff hs fun e hrun => by rw [hrun])
  have hhistory : Enumerated (s.delegationHistory view) (s.listDelegationHistory view)
      (s.countDelegationHistory view) ↔ ∀ workRef d, s.delegations.get? workRef = some d →
        view.owns d = true → (s.runs.get? d.currentRunId).any (s.historicWith view workRef d) =
          (s.shownRun d).any (s.historicWith view workRef d) :=
    enumerated_iff.trans (count_eq_iff hs fun e hrun => by rw [hrun])
  constructor
  · intro h workRef d hd howner
    refine rowAgrees_iff.mp ⟨?_, hactive.mp h.active workRef d hd howner,
      hhistory.mp h.history workRef d hd howner⟩
    rw [← mem_activeDelegations hs hd howner, ← mem_delegationHistory hs hd howner]
    exact h.split workRef d hd howner
  · intro h
    have hrow : ∀ workRef d, s.delegations.get? workRef = some d → view.owns d = true →
        s.RowAgrees view workRef d := fun workRef d hd howner =>
      rowAgrees_iff.mpr (h workRef d hd howner)
    refine ⟨fun workRef d hd howner => ?_, hactive.mpr fun workRef d hd howner =>
      (hrow workRef d hd howner).2.1, hhistory.mpr fun workRef d hd howner =>
      (hrow workRef d hd howner).2.2⟩
    rw [mem_activeDelegations hs hd howner, mem_delegationHistory hs hd howner]
    exact (hrow workRef d hd howner).1

/-! ## A dismissed run that was interrupted -/

/-- Work is accepted, its run is interrupted, and it is dismissed. -/
def dismissInterrupted : List WorkCall :=
  [⟨1, .reserveDelegation isolatedRequest⟩,
    ⟨2, .store (.run (.cancelPendingRuns 2 "" .interrupted))⟩,
    ⟨3, .dismissDelegation 0 0 0⟩]

/-- The owner reads the lists a moment later. -/
def dismissedView : WorkView :=
  ⟨0, 0, 4, 60, 3⟩

/-- Neither list has a dismissed delegation whose run was interrupted. -/
theorem delegationLists_omit_dismissed :
    ∃ settings calls view, ¬(afterWork settings calls).Partitioned view := by
  refine ⟨.default, dismissInterrupted, dismissedView, fun h => ?_⟩
  generalize hs : afterWork .default dismissInterrupted = s at h
  have hkept : (s.delegations.get? 0).any dismissedView.owns = true := by
    rw [← hs]
    decide +kernel
  have hactive : (s.activeDelegations dismissedView none).map DelegationRecord.workRef = [] := by
    rw [← hs]
    decide +kernel
  have hhistory : (s.delegationHistory dismissedView none).map DelegationRecord.workRef = [] := by
    rw [← hs]
    decide +kernel
  rw [Option.any_eq_true] at hkept
  obtain ⟨d, hd, howner⟩ := hkept
  have hsplit := h.split 0 d hd howner
  rw [hactive, hhistory] at hsplit
  rcases hsplit with ⟨hmem, -⟩ | ⟨hmem, -⟩ <;> cases hmem

end Store

end GlassHive
