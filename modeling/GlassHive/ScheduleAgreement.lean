import GlassHive.CancelPending
import GlassHive.OccurrenceDispatch

/-!
# Scheduled runs and their occurrences agree

A recurring occurrence and its scheduled run finish together: the transactions on schedules update
both tables, each with its own guard. Where the guards select the same pair of rows, or none of it,
the rows agree afterwards.
-/

namespace GlassHive

open Relational Transition

/-- The states of an occurrence that is over. An occurrence that needs action of the user is over
for the scheduler. -/
def OccurrenceState.finished : List OccurrenceState :=
  [completed, failed, cancelled, skipped, actionRequired]

theorem OccurrenceState.mem_finished_iff (st : OccurrenceState) :
    st ∈ finished ↔ st ∈ terminal ∨ st = .actionRequired := by
  cases st <;> decide

theorem ScheduleState.occurrence_mem_finished_iff (st : ScheduleState) :
    st.occurrence ∈ OccurrenceState.finished ↔ st ∈ terminal ∨ st = .actionRequired := by
  cases st <;> decide

namespace Store

variable {s s' : Store} {p : OccurrenceId → Occurrence → Bool}
  {p' : ScheduleId → ScheduledRun → Bool} {o : Occurrence} {q : ScheduledRun} {now : Time}
  {scheduleId : ScheduleId} {workerId : WorkerId}

/-- Every occurrence is over exactly when its scheduled run is. -/
def Agrees (s : Store) : Prop :=
  ∀ id o, s.occurrences.get? id = some o → ∃ q, s.scheduledRuns.get? o.scheduledRunId = some q ∧
    (o.state ∈ OccurrenceState.finished ↔ q.state ∈ ScheduleState.terminal)

/-- A scheduled run that is over stays as it is. -/
def FinishedKept (s s' : Store) : Prop :=
  ∀ id q, s.scheduledRuns.get? id = some q → q.state ∈ ScheduleState.terminal →
    ∃ q', s'.scheduledRuns.get? id = some q' ∧ q'.state = q.state

/-- The two tables after updates agree when the updates move each pair of rows alike. -/
theorem agrees_update_iff {f : OccurrenceId → Occurrence → Occurrence}
    {f' : ScheduleId → ScheduledRun → ScheduledRun} (h : s.Agrees)
    (hf : ∀ id o, (f id o).scheduledRunId = o.scheduledRunId)
    (hocc : s'.occurrences = s.occurrences.update p f)
    (hsched : s'.scheduledRuns = s.scheduledRuns.update p' f') :
    s'.Agrees ↔ ∀ id o q, s.occurrences.get? id = some o →
      s.scheduledRuns.get? o.scheduledRunId = some q →
      ((if p id o then (f id o).state else o.state) ∈ OccurrenceState.finished ↔
        (if p' o.scheduledRunId q then (f' o.scheduledRunId q).state else q.state) ∈
          ScheduleState.terminal) := by
  have hrow : ∀ id o, (if p id o then f id o else o).scheduledRunId = o.scheduledRunId := by
    intro id o
    split
    · exact hf id o
    · rfl
  constructor
  · intro h' id o q ho hq
    obtain ⟨q', hq', hiff⟩ := h' id (if p id o then f id o else o) (by
      rw [hocc, Table.get?_update, ho, Option.map_some])
    rw [hrow, hsched, Table.get?_update, hq, Option.map_some, Option.some.injEq] at hq'
    subst hq'
    rw [← apply_ite Occurrence.state, ← apply_ite ScheduledRun.state]
    exact hiff
  · intro hmoves id o' ho'
    rw [hocc] at ho'
    obtain ⟨o, ho, rfl⟩ := Table.get?_update_eq_some.mp ho'
    obtain ⟨q, hq, -⟩ := h id o ho
    refine ⟨if p' o.scheduledRunId q then f' o.scheduledRunId q else q, ?_, ?_⟩
    · rw [hrow, hsched, Table.get?_update, hq, Option.map_some]
    · have hiff := hmoves id o q ho hq
      rwa [← apply_ite Occurrence.state, ← apply_ite ScheduledRun.state] at hiff

theorem finishedKept_update {f' : ScheduleId → ScheduledRun → ScheduledRun}
    (hsched : s'.scheduledRuns = s.scheduledRuns.update p' f')
    (hp : ∀ id q, q.state ∈ ScheduleState.terminal → p' id q = false) : s.FinishedKept s' := by
  intro id q hq hterm
  refine ⟨q, ?_, rfl⟩
  rw [hsched, Table.get?_update, hq, Option.map_some, hp id q hterm]
  rfl

theorem agrees_congr (hocc : s'.occurrences = s.occurrences)
    (hsched : s'.scheduledRuns = s.scheduledRuns) : s'.Agrees ↔ s.Agrees := by
  rw [Agrees, Agrees, hocc, hsched]

theorem agrees_updateDefinitions {p : DefinitionId → RecurringDefinition → Bool}
    {f : RecurringDefinition → RecurringDefinition} :
    (s.updateDefinitions p f).Agrees ↔ s.Agrees := Iff.rfl

/-- Updates of the two tables alone. -/
theorem agrees_updates_iff {f : Occurrence → Occurrence} {f' : ScheduledRun → ScheduledRun}
    (h : s.Agrees) (hf : ∀ o, (f o).scheduledRunId = o.scheduledRunId) :
    ((s.updateScheduledRuns p' f').updateOccurrences p f).Agrees ↔
      ∀ id o q, s.occurrences.get? id = some o →
        s.scheduledRuns.get? o.scheduledRunId = some q →
        ((if p id o then (f o).state else o.state) ∈ OccurrenceState.finished ↔
          (if p' o.scheduledRunId q then (f' q).state else q.state) ∈ ScheduleState.terminal) :=
  @agrees_update_iff s _ p p' (fun _ => f) (fun _ => f') h (fun _ => hf) rfl rfl

/-- The occurrence of a scheduled run that is not over. -/
theorem Agrees.open_of (h : s.Agrees) {id : OccurrenceId} (ho : s.occurrences.get? id = some o)
    (hq : s.scheduledRuns.get? o.scheduledRunId = some q) :
    o.state ∈ OccurrenceState.finished ↔ q.state ∈ ScheduleState.terminal := by
  obtain ⟨q', hq', hiff⟩ := h id o ho
  rw [hq, Option.some.injEq] at hq'
  exact hq' ▸ hiff

theorem updateOccurrences_updateScheduledRuns {f : Occurrence → Occurrence}
    {f' : ScheduledRun → ScheduledRun} :
    (s.updateOccurrences p f).updateScheduledRuns p' f' =
      (s.updateScheduledRuns p' f').updateOccurrences p f := rfl

section Group

variable {p : OccurrenceId → Occurrence → Bool} {f : Occurrence → Occurrence}
  {p' : ScheduleId → ScheduledRun → Bool} {f' : ScheduledRun → ScheduledRun} (h : s.Agrees)
  (stateO : OccurrenceState) (stateQ : ScheduleState) (G : ScheduleId → ScheduledRun → Prop)
  (hf : ∀ o, (f o).scheduledRunId = o.scheduledRunId ∧ (f o).state = stateO)
  (hf' : ∀ q, (f' q).state = stateQ)
  (hp : ∀ id o q, s.scheduledRuns.get? o.scheduledRunId = some q →
    (p id o = true ↔ G o.scheduledRunId q ∧ o.state ∉ OccurrenceState.terminal))
  (hp' : ∀ id q, p' id q = true → G id q ∧ q.state ∉ ScheduleState.terminal)

include h hf hf' hp hp'

/-- Updates that move the open occurrences of a group of scheduled runs to one state, and some of
the open scheduled runs of the group to another. -/
theorem agrees_group_iff (hocc : s'.occurrences = s.occurrences.update p fun _ => f)
    (hsched : s'.scheduledRuns = s.scheduledRuns.update p' fun _ => f') :
    s'.Agrees ↔
      ∀ id o q, s.occurrences.get? id = some o → s.scheduledRuns.get? o.scheduledRunId = some q →
        G o.scheduledRunId q → o.state ∉ OccurrenceState.terminal →
        (stateO ∈ OccurrenceState.finished ↔
          (if p' o.scheduledRunId q then stateQ else q.state) ∈ ScheduleState.terminal) := by
  rw [agrees_update_iff h (fun _ o => (hf o).1) hocc hsched]
  constructor
  · intro hmoves id o q ho hq hG hopen
    have hiff := hmoves id o q ho hq
    rwa [if_pos ((hp id o q hq).mpr ⟨hG, hopen⟩), (hf o).2, hf' q] at hiff
  · intro hmoves id o q ho hq
    have hiff := h.open_of ho hq
    by_cases hsel : p id o = true
    · obtain ⟨hG, hopen⟩ := (hp id o q hq).mp hsel
      rw [if_pos hsel, (hf o).2, hf' q]
      exact hmoves id o q ho hq hG hopen
    · rw [if_neg hsel]
      have hkeep : ¬p' o.scheduledRunId q = true := by
        intro hsel'
        obtain ⟨hG, hlive⟩ := hp' _ q hsel'
        refine hsel ((hp id o q hq).mpr ⟨hG, fun hterm => hlive (hiff.mp ?_)⟩)
        exact (OccurrenceState.mem_finished_iff _).mpr (Or.inl hterm)
      rwa [if_neg hkeep]

/-- The same for updates of the two tables alone. -/
theorem agrees_updates_group_iff :
    ((s.updateScheduledRuns p' f').updateOccurrences p f).Agrees ↔
      ∀ id o q, s.occurrences.get? id = some o → s.scheduledRuns.get? o.scheduledRunId = some q →
        G o.scheduledRunId q → o.state ∉ OccurrenceState.terminal →
        (stateO ∈ OccurrenceState.finished ↔
          (if p' o.scheduledRunId q then stateQ else q.state) ∈ ScheduleState.terminal) :=
  agrees_group_iff h stateO stateQ G hf hf' hp hp' rfl rfl

end Group

/-- An update that closes scheduled runs alone. -/
theorem agrees_close_iff {f' : ScheduleId → ScheduledRun → ScheduledRun} (h : s.Agrees)
    (hocc : s'.occurrences = s.occurrences)
    (hsched : s'.scheduledRuns = s.scheduledRuns.update p' f')
    (hp' : ∀ id q, p' id q = true → q.state ∉ ScheduleState.terminal ∧
      (f' id q).state ∈ ScheduleState.terminal) :
    s'.Agrees ↔ ∀ id o q, s.occurrences.get? id = some o →
      s.scheduledRuns.get? o.scheduledRunId = some q → p' o.scheduledRunId q = false := by
  constructor
  · intro h' id o q ho hq
    obtain ⟨q', hq', hiff'⟩ := h' id o (hocc ▸ ho)
    rw [hsched, Table.get?_update, hq, Option.map_some, Option.some.injEq] at hq'
    rw [Bool.eq_false_iff]
    intro hsel
    rw [if_pos hsel] at hq'
    obtain ⟨hlive, hclosed⟩ := hp' _ q hsel
    rw [← hq'] at hiff'
    exact hlive ((h.open_of ho hq).mp (hiff'.mpr hclosed))
  · intro hnone id o ho
    rw [hocc] at ho
    obtain ⟨q, hq, hiff⟩ := h id o ho
    refine ⟨q, ?_, hiff⟩
    rw [hsched, Table.get?_update, hq, Option.map_some, hnone id o q ho hq]
    rfl

/-! ## The transactions -/

theorem claimSchedule_agrees (h : s.Agrees) (now : Time) (scheduleId : ScheduleId) :
    (s.claimSchedule now scheduleId).store.Agrees := by
  unfold claimSchedule
  split
  · exact h
  rename_i r hr
  obtain ⟨hr, hpending⟩ := Option.filter_eq_some_iff.mp hr
  rw [beq_iff_eq] at hpending
  have hrow : ∀ q, s.scheduledRuns.get? scheduleId = some q → q.state = .pending := by
    intro q hq
    rw [hr, Option.some.injEq] at hq
    rw [← hq, hpending]
  have hsel : ∀ id (q : ScheduledRun), (id == scheduleId && q.state == .pending) = true →
      id = scheduleId ∧ q.state ∉ ScheduleState.terminal := by
    intro id q hboth
    rw [Bool.and_eq_true, beq_iff_eq, beq_iff_eq] at hboth
    exact ⟨hboth.1, by rw [hboth.2]; decide⟩
  dsimp only
  split
  · refine (agrees_updates_group_iff h .skipped .cancelled (fun id _ => id = scheduleId) ?_ ?_ ?_
      hsel).mpr fun id o q ho hq hid hopen => ?_
    · exact fun _ => ⟨rfl, rfl⟩
    · exact fun _ => rfl
    · simp
    · simp [hid, hrow q (hid ▸ hq), OccurrenceState.finished, ScheduleState.terminal]
  · refine (agrees_updates_group_iff h .claimed .running (fun id _ => id = scheduleId) ?_ ?_ ?_
      hsel).mpr fun id o q ho hq hid hopen => ?_
    · exact fun _ => ⟨rfl, rfl⟩
    · exact fun _ => rfl
    · simp
    · simp [hid, hrow q (hid ▸ hq), OccurrenceState.finished, ScheduleState.terminal]

theorem LinksRun.agrees (hlink : s.LinksRun s' now scheduleId) (h : s.Agrees) : s'.Agrees := by
  obtain ⟨r, hr, hrunning, hunlinked⟩ := hlink.unlinked
  have hsel : ∀ id (q : ScheduledRun),
      (id == scheduleId && q.state == .running && q.queuedRunId.isNone) = true →
      id = scheduleId ∧ q.state ∉ ScheduleState.terminal := by
    intro id q hall
    simp only [Bool.and_eq_true, beq_iff_eq] at hall
    exact ⟨hall.1.1, by rw [hall.1.2]; decide⟩
  refine (agrees_group_iff h .queued .queued (fun id _ => id = scheduleId) ?_ ?_ ?_ hsel
    hlink.occurrences hlink.scheduledRuns).mpr fun id o q ho hq hid hopen => ?_
  · exact fun _ => ⟨rfl, rfl⟩
  · exact fun _ => rfl
  · simp
  · rw [hid, hr, Option.some.injEq] at hq
    simp [hid, ← hq, hrunning, hunlinked, OccurrenceState.finished, ScheduleState.terminal]

/-- A recovered claim returns both rows to an open state. -/
theorem recoverStaleRecurringOccurrenceClaims_agrees (h : s.Agrees) (now : Time) :
    (s.recoverStaleRecurringOccurrenceClaims now).store.Agrees := by
  unfold recoverStaleRecurringOccurrenceClaims
  rw [Outcome.store_commit, updateOccurrences_updateScheduledRuns]
  refine (agrees_updates_iff h ?_).mpr fun id o q ho hq => ?_
  · exact fun _ => rfl
  · have hiff := h.open_of ho hq
    have hrunning : q.state = .running → o.state ∉ OccurrenceState.finished := fun hst hfin =>
      absurd (hst ▸ hiff.mp hfin) (by decide)
    have hclaimed : o.state = .claimed → q.state ∉ ScheduleState.terminal := fun hst hterm =>
      absurd (hst ▸ hiff.mpr hterm) (by decide)
    split
    · rename_i hstale
      simp only [Bool.and_eq_true, beq_iff_eq] at hstale
      have hlive := hclaimed hstale.1.1
      split
      · simp [OccurrenceState.finished, ScheduleState.terminal]
      · exact iff_of_false (by simp [OccurrenceState.finished]) hlive
    · split
      · rename_i hsel
        simp only [Bool.and_eq_true, beq_iff_eq] at hsel
        exact iff_of_false (hrunning hsel.1.1) (by simp [ScheduleState.terminal])
      · exact hiff

theorem beginWorkerTermination_agrees (h : s.Agrees) (now : Time) (workerId : WorkerId) :
    (s.beginWorkerTermination now workerId).store.Agrees := by
  unfold beginWorkerTermination
  split
  · exact h
  split
  · exact h
  have hworkers : (s.updateWorkers (fun id _ => id == workerId)
      (fun w => { w with state := .terminating, lastError := "", updatedAt := now })).Agrees := h
  have hsel : ∀ (id : ScheduleId) (q : ScheduledRun),
      (q.workerId == workerId && !oneOf q.state [.completed, .failed, .cancelled]) = true →
      q.workerId = workerId ∧ q.state ∉ ScheduleState.terminal := by
    intro id q hboth
    simpa [ScheduleState.terminal] using hboth
  dsimp only
  rw [Outcome.store_commit, agrees_updateDefinitions, updateOccurrences_updateScheduledRuns]
  refine (agrees_updates_group_iff hworkers .cancelled .cancelled (fun _ q => q.workerId = workerId) ?_ ?_
    ?_ hsel).mpr fun id o q ho hq hw hopen => ?_
  · exact fun _ => ⟨rfl, rfl⟩
  · exact fun _ => rfl
  · intro id o q hq
    have hany : (s.scheduledRuns.any fun id r => id == o.scheduledRunId && r.workerId == workerId) =
        true ↔ q.workerId = workerId := by
      rw [Table.any_eq_true]
      simp only [Bool.and_eq_true, beq_iff_eq]
      constructor
      · rintro ⟨id', r, hr, rfl, hw⟩
        rw [show s.scheduledRuns.get? o.scheduledRunId = some q from hq, Option.some.injEq] at hr
        rw [hr, hw]
      · exact fun hw => ⟨o.scheduledRunId, q, hq, rfl, hw⟩
    rw [Bool.and_eq_true, hany]
    simp
  · have hclosed : OccurrenceState.cancelled ∈ OccurrenceState.finished := by decide
    refine iff_of_true hclosed ?_
    split
    · decide
    · rename_i hkept
      simp only [hw, BEq.rfl, Bool.true_and, Bool.not_eq_true', Bool.not_eq_false,
        oneOf_eq_true] at hkept
      exact hkept

theorem setSchedulePrincipalAuthority_agrees (h : s.Agrees) (now : Time) (tenantId : TenantId)
    (ownerId : OwnerId) (enabled : Bool) :
    (s.setSchedulePrincipalAuthority now tenantId ownerId enabled).store.Agrees := by
  unfold setSchedulePrincipalAuthority
  dsimp only
  split
  · exact h
  -- The statement reads the scheduled runs as they were, so a selected row is open.
  have hsel : ∀ (id : ScheduleId) (q : ScheduledRun),
      ((s.scheduledRuns.get? id).any (s.retiredByAuthority tenantId ownerId) &&
        !oneOf q.state ScheduleState.terminal) = true →
      (s.scheduledRuns.get? id).any (s.retiredByAuthority tenantId ownerId) = true ∧
        q.state ∉ ScheduleState.terminal := by
    intro id q hboth
    simpa using hboth
  rw [Outcome.store_commit]
  refine (agrees_updates_group_iff ?_ .actionRequired .cancelled
    (fun id _ => (s.scheduledRuns.get? id).any (s.retiredByAuthority tenantId ownerId) = true)
    ?_ ?_ ?_ hsel).mpr fun id o q ho hq hret hopen => ?_
  · exact h
  · exact fun _ => ⟨rfl, rfl⟩
  · exact fun _ => rfl
  · intro id o q hq
    simp
  · have hclosed : OccurrenceState.actionRequired ∈ OccurrenceState.finished := by decide
    refine iff_of_true hclosed ?_
    split
    · decide
    · rename_i hkept
      simp only [hret, Bool.true_and, Bool.not_eq_true', Bool.not_eq_false,
        oneOf_eq_true] at hkept
      exact hkept

/-- A scheduled run is finalized together with its occurrences: an open scheduled run into any state
but `action_required`, and one that is over only if its occurrences are too. -/
theorem finalizeSchedule_agrees_iff (h : s.Agrees) (now : Time) (scheduleId : ScheduleId)
    (state : ScheduleState) (queuedRunId : Option RunId) (lastError : String) :
    (s.finalizeSchedule now scheduleId state queuedRunId lastError).store.Agrees ↔
      ∀ id o q, s.occurrences.get? id = some o → s.scheduledRuns.get? scheduleId = some q →
        o.scheduledRunId = scheduleId → o.state ∉ OccurrenceState.terminal →
        if q.state ∈ ScheduleState.terminal then
          state ∈ ScheduleState.terminal ∨ state = .actionRequired
        else state ≠ .actionRequired := by
  unfold finalizeSchedule
  dsimp only
  have hsel : ∀ (id : ScheduleId) (q : ScheduledRun),
      (id == scheduleId && !oneOf q.state ScheduleState.terminal) = true →
      id = scheduleId ∧ q.state ∉ ScheduleState.terminal := by
    intro id q hboth
    simpa using hboth
  rw [Outcome.store_commit]
  refine (agrees_updates_group_iff h state.occurrence state (fun id _ => id = scheduleId) ?_ ?_ ?_
    hsel).trans ?_
  · exact fun _ => ⟨rfl, rfl⟩
  · exact fun _ => rfl
  · simp
  have hpair : ∀ q : ScheduledRun, (state.occurrence ∈ OccurrenceState.finished ↔
      (if (scheduleId == scheduleId && !oneOf q.state ScheduleState.terminal) = true then state
        else q.state) ∈ ScheduleState.terminal) ↔
      if q.state ∈ ScheduleState.terminal then
        state ∈ ScheduleState.terminal ∨ state = .actionRequired
      else state ≠ .actionRequired := by
    intro q
    rw [ScheduleState.occurrence_mem_finished_iff]
    by_cases hterm : q.state ∈ ScheduleState.terminal
    · simp [hterm]
    · have hexcl : state = .actionRequired → state ∉ ScheduleState.terminal := by
        rintro rfl
        decide
      simp [hterm]
      tauto
  constructor
  · rintro hmoves id o q ho hq rfl hopen
    exact (hpair q).mp (hmoves id o q ho hq rfl hopen)
  · rintro hcond id o q ho hq rfl hopen
    exact (hpair q).mpr (hcond id o q ho hq rfl hopen)

/-- The scheduled runs of a run move with their open occurrences: queued and running ones into any
state but `action_required`, ones that are over into a finished state or `action_required`, and
others into an open state. -/
def SettlesAlike (s : Store) (runId : RunId) (state : ScheduleState) : Prop :=
  ∀ id o q, s.occurrences.get? id = some o → s.scheduledRuns.get? o.scheduledRunId = some q →
    q.queuedRunId = some runId → o.state ∉ OccurrenceState.terminal →
    if q.state ∈ ScheduleState.terminal then
      state ∈ ScheduleState.terminal ∨ state = .actionRequired
    else if q.state ∈ [ScheduleState.queued, .running] then state ≠ .actionRequired
    else state ∉ ScheduleState.terminal ∧ state ≠ .actionRequired

theorem settleLinkedSchedules_agrees_iff (h : s.Agrees) (runId : RunId) (state : ScheduleState)
    (lastError : String) (terminalAt : Time) :
    (s.settleLinkedSchedules runId state lastError terminalAt).Agrees ↔
      s.SettlesAlike runId state := by
  have hsel : ∀ (id : ScheduleId) (q : ScheduledRun),
      (q.queuedRunId == some runId && oneOf q.state [.queued, .running]) = true →
      q.queuedRunId = some runId ∧ q.state ∉ ScheduleState.terminal := by
    intro id q hboth
    rw [Bool.and_eq_true, beq_iff_eq, oneOf_eq_true] at hboth
    refine ⟨hboth.1, ?_⟩
    revert hboth
    cases q.state <;> simp [ScheduleState.terminal]
  refine (agrees_updates_group_iff h state.occurrence state
    (fun _ q => q.queuedRunId = some runId) ?_ ?_ ?_ hsel).trans ?_
  · exact fun _ => ⟨rfl, rfl⟩
  · exact fun _ => rfl
  · intro id o q hq
    simp [scheduleLinked, hq]
  have hpair : ∀ q : ScheduledRun, q.queuedRunId = some runId →
      ((state.occurrence ∈ OccurrenceState.finished ↔
        (if (q.queuedRunId == some runId && oneOf q.state [.queued, .running]) = true then state
          else q.state) ∈ ScheduleState.terminal) ↔
      if q.state ∈ ScheduleState.terminal then
        state ∈ ScheduleState.terminal ∨ state = .actionRequired
      else if q.state ∈ [ScheduleState.queued, .running] then state ≠ .actionRequired
      else state ∉ ScheduleState.terminal ∧ state ≠ .actionRequired) := by
    intro q hlink
    have hexcl : state = .actionRequired → state ∉ ScheduleState.terminal := by
      rintro rfl
      decide
    rw [ScheduleState.occurrence_mem_finished_iff]
    by_cases hactive : q.state ∈ [ScheduleState.queued, .running]
    · have hlive := (hsel 0 q (by rw [hlink]; simpa using hactive)).2
      rw [if_pos (by rw [hlink]; simpa using hactive), if_neg hlive, if_pos hactive]
      tauto
    · rw [if_neg (by rw [hlink]; simpa using hactive), if_neg hactive]
      by_cases hterm : q.state ∈ ScheduleState.terminal
      · simp [hterm]
      · simp [hterm]
  constructor
  · intro hmoves id o q ho hq hlink hopen
    exact (hpair q hlink).mp (hmoves id o q ho hq hlink hopen)
  · intro hcond id o q ho hq hlink hopen
    exact (hpair q hlink).mpr (hcond id o q ho hq hlink hopen)

/-- The scheduled runs that `cancel_pending_runs` cancels. -/
def CancelledWithRuns (s : Store) (workerId : WorkerId) (q : ScheduledRun) : Prop :=
  q.state ∈ [ScheduleState.queued, .running] ∧
    ∃ runId r, q.queuedRunId = some runId ∧ s.runs.get? runId = some r ∧ r.workerId = workerId ∧
      r.state ∈ RunState.nonterminal

theorem cancelledWithRuns_iff :
    (oneOf q.state [ScheduleState.queued, .running] &&
      q.queuedRunId.any (s.workerRunIn workerId RunState.nonterminal)) = true ↔
      s.CancelledWithRuns workerId q := by
  simp only [CancelledWithRuns, workerRunIn, Bool.and_eq_true, oneOf_eq_true, Option.any_eq_true,
    beq_iff_eq]
  constructor
  · rintro ⟨hst, runId, hlink, r, hr, hw, hlive⟩
    exact ⟨hst, runId, r, hlink, hr, hw, hlive⟩
  · rintro ⟨hst, runId, r, hlink, hr, hw, hlive⟩
    exact ⟨hst, runId, hlink, r, hr, hw, hlive⟩

/-- Pending runs are cancelled with their scheduled runs, but without the occurrences. -/
theorem cancelPendingRuns_agrees_iff (h : s.Agrees) (now : Time) (workerId : WorkerId)
    (errorText : String) (state : RunState) :
    (s.cancelPendingRuns now workerId errorText state).store.Agrees ↔
      (state ∈ RunState.terminal → ∀ id o q, s.occurrences.get? id = some o →
        s.scheduledRuns.get? o.scheduledRunId = some q → ¬s.CancelledWithRuns workerId q) := by
  by_cases hstate : state ∈ RunState.terminal
  · have hsched : (s.cancelPendingRuns now workerId errorText state).store.scheduledRuns =
        s.scheduledRuns.update
          (fun _ q => oneOf q.state [.queued, .running] &&
            q.queuedRunId.any (s.workerRunIn workerId RunState.nonterminal))
          fun _ q => { q with
            state := if state == .cancelled then .cancelled else .failed
            lastError := errorText
            updatedAt := now } := by
      simp [cancelPendingRuns, hstate]
    rw [agrees_close_iff h (occurrences_cancelPendingRuns hstate) hsched]
    · refine ⟨fun hnone _ id o q ho hq => ?_, fun hnone id o q ho hq => ?_⟩
      · rw [← cancelledWithRuns_iff, hnone id o q ho hq]
        simp
      · rw [Bool.eq_false_iff, ne_eq, cancelledWithRuns_iff]
        exact hnone hstate id o q ho hq
    · intro id q hsel
      rw [Bool.and_eq_true, oneOf_eq_true] at hsel
      constructor
      · revert hsel
        cases q.state <;> simp [ScheduleState.terminal]
      · dsimp only
        split <;> decide
  · have hsame : (s.cancelPendingRuns now workerId errorText state).store = s := by
      simp [cancelPendingRuns, hstate]
    rw [hsame]
    exact iff_of_true h fun hterm => absurd hterm hstate

/-- An inserted pair of rows. -/
theorem Materialized.agrees_iff (hmat : s.Materialized s' q o) (h : s.Agrees)
    (hs : s.OccurrencesUnique) :
    s'.Agrees ↔ (o.state ∈ OccurrenceState.finished ↔ q.state ∈ ScheduleState.terminal) := by
  constructor
  · intro h'
    obtain ⟨q', hq', hiff⟩ := h' _ o hmat.occurrence
    rw [hmat.schedule, hmat.scheduledRun, Option.some.injEq] at hq'
    exact hq' ▸ hiff
  · intro hiff id o' ho'
    by_cases hid : id = s.nextId + 1
    · rw [hid, hmat.occurrence, Option.some.injEq] at ho'
      subst ho'
      exact ⟨q, by rw [hmat.schedule, hmat.scheduledRun], hiff⟩
    · rw [hmat.occurrences id hid] at ho'
      obtain ⟨q', hq', hiff'⟩ := h id o' ho'
      have hne : o'.scheduledRunId ≠ s.nextId := (hs.drawn id o' ho').2.ne
      exact ⟨q', by rw [hmat.scheduledRuns _ hne, hq'], hiff'⟩

/-! ## Finished scheduled runs -/

theorem finishedKept_refl (s : Store) : s.FinishedKept s :=
  fun _ q hq _ => ⟨q, hq, rfl⟩

theorem finishedKept_of_eq (h : s'.scheduledRuns = s.scheduledRuns) : s.FinishedKept s' :=
  fun _ q hq _ => ⟨q, h ▸ hq, rfl⟩

theorem Materialized.finishedKept (hmat : s.Materialized s' q o) (hs : s.OccurrencesUnique) :
    s.FinishedKept s' := by
  intro id q' hq' _
  have hne : id ≠ s.nextId := (hs.scheduled id q' hq').ne
  exact ⟨q', by rw [hmat.scheduledRuns id hne, hq'], rfl⟩

theorem claimSchedule_finishedKept (s : Store) :
    s.FinishedKept (s.claimSchedule now scheduleId).store := by
  unfold claimSchedule
  split
  · exact finishedKept_refl s
  intro id q hq hterm
  have hopen : q.state ≠ .pending := fun hst => absurd (hst ▸ hterm) (by decide)
  refine ⟨q, ?_, rfl⟩
  dsimp only
  split <;> simp [Table.get?_update, hq, hopen]

theorem LinksRun.finishedKept (hlink : s.LinksRun s' now scheduleId) : s.FinishedKept s' := by
  refine finishedKept_update hlink.scheduledRuns fun id q hterm => ?_
  revert hterm
  cases q.state <;> simp [ScheduleState.terminal]

theorem recoverStaleRecurringOccurrenceClaims_finishedKept (s : Store) :
    s.FinishedKept (s.recoverStaleRecurringOccurrenceClaims now).store := by
  intro id q hq hterm
  have hopen : q.state ≠ .running := fun hst => absurd (hst ▸ hterm) (by decide)
  refine ⟨q, ?_, rfl⟩
  simp [recoverStaleRecurringOccurrenceClaims, Table.get?_update, hq, hopen]

theorem finalizeSchedule_finishedKept (s : Store) {state : ScheduleState}
    {queuedRunId : Option RunId} {lastError : String} :
    s.FinishedKept (s.finalizeSchedule now scheduleId state queuedRunId lastError).store := by
  intro id q hq hterm
  refine ⟨q, ?_, rfl⟩
  simp [finalizeSchedule, Table.get?_update, hq, hterm]

theorem not_active_of_terminal {st : ScheduleState} (h : st ∈ ScheduleState.terminal) :
    oneOf st [.queued, .running] = false := by
  revert h
  cases st <;> decide

theorem settleLinkedSchedules_finishedKept (s : Store) {runId : RunId} {state : ScheduleState}
    {lastError : String} {terminalAt : Time} :
    s.FinishedKept (s.settleLinkedSchedules runId state lastError terminalAt) := by
  intro id q hq hterm
  refine ⟨q, ?_, rfl⟩
  simp only [settleLinkedSchedules, updateOccurrences_scheduledRuns,
    updateScheduledRuns_scheduledRuns, Table.get?_update, hq, Option.map_some,
    not_active_of_terminal hterm, Bool.and_false, Bool.false_eq_true, if_false]

theorem cancelPendingRuns_finishedKept (s : Store) {errorText : String} {state : RunState} :
    s.FinishedKept (s.cancelPendingRuns now workerId errorText state).store := by
  by_cases hstate : state ∈ RunState.terminal
  · intro id q hq hterm
    refine ⟨q, ?_, rfl⟩
    rw [scheduledRuns_cancelPendingRuns hstate, hq, Option.map_some, not_active_of_terminal hterm]
    rfl
  · have hsame : (s.cancelPendingRuns now workerId errorText state).store = s := by
      simp [cancelPendingRuns, hstate]
    rw [hsame]
    exact finishedKept_refl s

theorem beginWorkerTermination_finishedKept (s : Store) :
    s.FinishedKept (s.beginWorkerTermination now workerId).store := by
  unfold beginWorkerTermination
  split
  · exact finishedKept_refl s
  split
  · exact finishedKept_refl s
  intro id q hq hterm
  have hover : oneOf q.state [.completed, .failed, .cancelled] = true :=
    (oneOf_eq_true _ _).mpr hterm
  refine ⟨q, ?_, rfl⟩
  simp only [Outcome.store_commit, updateDefinitions_scheduledRuns,
    updateScheduledRuns_scheduledRuns, updateOccurrences_scheduledRuns,
    updateWorkers_scheduledRuns, Table.get?_update, hq, Option.map_some, hover, Bool.not_true,
    Bool.and_false, Bool.false_eq_true, if_false]

theorem setSchedulePrincipalAuthority_finishedKept (s : Store) {tenantId : TenantId}
    {ownerId : OwnerId} {enabled : Bool} :
    s.FinishedKept (s.setSchedulePrincipalAuthority now tenantId ownerId enabled).store := by
  unfold setSchedulePrincipalAuthority
  dsimp only
  split
  · exact finishedKept_of_eq rfl
  · intro id q hq hterm
    refine ⟨q, ?_, rfl⟩
    simp [Table.get?_update, hq, hterm]

/-! ## Drawn identifiers -/

/-- A transaction that neither inserts nor deletes rows of the two tables. -/
theorem OccurrencesUnique.of_map (hs : s.OccurrencesUnique) (hnext : s'.nextId = s.nextId)
    (hocc : ∀ id, (s'.occurrences.get? id).map (fun o => (o.key, o.scheduledRunId)) =
      (s.occurrences.get? id).map fun o => (o.key, o.scheduledRunId))
    (hsched : ∀ id, (s'.scheduledRuns.get? id).map (fun _ => ()) =
      (s.scheduledRuns.get? id).map fun _ => ()) : s'.OccurrencesUnique := by
  have hkept : s.OccurrencesKept { s' with runs := s.runs } :=
    occurrencesKept_of_map hnext hocc hsched rfl
  have hunique := hkept.unique hs
  exact ⟨hunique.drawn, hunique.scheduled, hunique.unique⟩

theorem OccurrencesUnique.updates {f : Occurrence → Occurrence} {f' : ScheduledRun → ScheduledRun}
    (hs : s.OccurrencesUnique)
    (hf : ∀ o, (f o).key = o.key ∧ (f o).scheduledRunId = o.scheduledRunId) :
    ((s.updateScheduledRuns p' f').updateOccurrences p f).OccurrencesUnique := by
  refine hs.of_map rfl (Table.map_get?_update _ _ _ _ fun _ o => ?_)
    (Table.map_get?_update _ _ _ _ fun _ _ => rfl)
  rw [(hf o).1, (hf o).2]

theorem finalizeSchedule_unique (hs : s.OccurrencesUnique) (now : Time) (scheduleId : ScheduleId)
    (state : ScheduleState) (queuedRunId : Option RunId) (lastError : String) :
    (s.finalizeSchedule now scheduleId state queuedRunId lastError).store.OccurrencesUnique := by
  unfold finalizeSchedule
  refine hs.updates ?_
  exact fun _ => ⟨rfl, rfl⟩

theorem settleLinkedSchedules_unique (hs : s.OccurrencesUnique) (runId : RunId)
    (state : ScheduleState) (lastError : String) (terminalAt : Time) :
    (s.settleLinkedSchedules runId state lastError terminalAt).OccurrencesUnique := by
  unfold settleLinkedSchedules
  refine hs.updates ?_
  exact fun _ => ⟨rfl, rfl⟩

theorem cancelPendingRuns_unique (hs : s.OccurrencesUnique) (now : Time) (workerId : WorkerId)
    (errorText : String) (state : RunState) :
    (s.cancelPendingRuns now workerId errorText state).store.OccurrencesUnique := by
  unfold cancelPendingRuns
  split
  · exact hs
  · exact hs.of_map (by simp) (fun _ => by simp) (Table.map_get?_update _ _ _ _ fun _ _ => rfl)

theorem beginWorkerTermination_unique (hs : s.OccurrencesUnique) (now : Time)
    (workerId : WorkerId) :
    (s.beginWorkerTermination now workerId).store.OccurrencesUnique := by
  unfold beginWorkerTermination
  split
  · exact hs
  split
  · exact hs
  · exact hs.of_map rfl (Table.map_get?_update _ _ _ _ fun _ _ => rfl)
      (Table.map_get?_update _ _ _ _ fun _ _ => rfl)

theorem setSchedulePrincipalAuthority_unique (hs : s.OccurrencesUnique) (now : Time)
    (tenantId : TenantId) (ownerId : OwnerId) (enabled : Bool) :
    (s.setSchedulePrincipalAuthority now tenantId ownerId enabled).store.OccurrencesUnique := by
  unfold setSchedulePrincipalAuthority
  dsimp only
  split
  · exact hs.of_map rfl (fun _ => rfl) fun _ => rfl
  · exact hs.of_map rfl (Table.map_get?_update _ _ _ _ fun _ _ => rfl)
      (Table.map_get?_update _ _ _ _ fun _ _ => rfl)

end Store

/-! ## Runs -/

/-- Whatever else happens to the store, with both tables as they are. -/
structure ScheduleFrame where
  apply : Store → Store
  nextId : ∀ s : Store, s.nextId ≤ (apply s).nextId
  occurrences : ∀ s : Store, (apply s).occurrences = s.occurrences
  scheduledRuns : ∀ s : Store, (apply s).scheduledRuns = s.scheduledRuns

/-- A transaction on schedules, or another. -/
inductive AgreementStep
  | materialize (a : MaterializeOccurrence)
  | runNow (a : RunNow)
  | claimSchedule (now : Time) (scheduleId : ScheduleId)
  | createRun (now : Time) (scheduleId : ScheduleId) (runtimeBundle : Option JsonValue)
      (requireAuthority : Bool) (fence : Option AccountFence)
  | finalizeSchedule (now : Time) (scheduleId : ScheduleId) (state : ScheduleState)
      (queuedRunId : Option RunId) (lastError : String)
  | cancelSchedule (now : Time) (scheduleId : ScheduleId)
  | finalizeScheduleForRun (now : Time) (runId : RunId) (state : ScheduleState)
      (lastError : String)
  | terminalHook (runId : RunId) (runState : RunState) (errorText : String) (terminalAt : Time)
  | cancelPendingRuns (now : Time) (workerId : WorkerId) (errorText : String) (state : RunState)
  | recover (now : Time)
  | beginWorkerTermination (now : Time) (workerId : WorkerId)
  | setAuthority (now : Time) (tenantId : TenantId) (ownerId : OwnerId) (enabled : Bool)
  | elsewhere (e : ScheduleFrame)

namespace Store

variable {s : Store}

/-- One step. -/
def agreementStep (s : Store) : AgreementStep → Store
  | .materialize a => (s.materializes a).store
  | .runNow a => (s.runsNow a).store
  | .claimSchedule now scheduleId => (s.claimSchedule now scheduleId).store
  | .createRun now scheduleId bundle require fence =>
    (s.createOrGetRunForSchedule now scheduleId bundle require fence).store
  | .finalizeSchedule now scheduleId state queuedRunId lastError =>
    (s.finalizeSchedule now scheduleId state queuedRunId lastError).store
  | .cancelSchedule now scheduleId => (s.finalizeSchedule now scheduleId .cancelled none "").store
  | .finalizeScheduleForRun now runId state lastError =>
    (s.finalizeScheduleForRun now runId state lastError).store
  | .terminalHook runId runState errorText terminalAt =>
    s.finalizeLinkedScheduleForTerminalRun runId runState errorText terminalAt
  | .cancelPendingRuns now workerId errorText state =>
    (s.cancelPendingRuns now workerId errorText state).store
  | .recover now => (s.recoverStaleRecurringOccurrenceClaims now).store
  | .beginWorkerTermination now workerId => (s.beginWorkerTermination now workerId).store
  | .setAuthority now tenantId ownerId enabled =>
    (s.setSchedulePrincipalAuthority now tenantId ownerId enabled).store
  | .elsewhere e => e.apply s

/-- A step names states that both tables can follow, and no pending work of a recurring occurrence
is cancelled beside it. -/
def MovesAlike (s : Store) : AgreementStep → Prop
  | .materialize a => ∀ d, s.DueAs a d → ¬s.KeyScheduled a.key →
    a.occurrenceState ∉ [OccurrenceState.claimed, .queued, .running, .retryable, .needsInput]
  | .finalizeSchedule _ scheduleId state _ _ =>
    ∀ id o q, s.occurrences.get? id = some o → s.scheduledRuns.get? scheduleId = some q →
      o.scheduledRunId = scheduleId → o.state ∉ OccurrenceState.terminal →
      if q.state ∈ ScheduleState.terminal then
        state ∈ ScheduleState.terminal ∨ state = .actionRequired
      else state ≠ .actionRequired
  | .finalizeScheduleForRun _ runId state _ => s.SettlesAlike runId state
  | .terminalHook runId runState _ _ =>
    runState ∈ RunState.terminal → s.SettlesAlike runId (scheduleStateOf runState)
  | .cancelPendingRuns _ workerId _ state => state ∈ RunState.terminal →
    ∀ id o q, s.occurrences.get? id = some o → s.scheduledRuns.get? o.scheduledRunId = some q →
      ¬s.CancelledWithRuns workerId q
  | _ => True

theorem occurrencesUnique_agreementStep (hs : s.OccurrencesUnique) (i : AgreementStep) :
    (s.agreementStep i).OccurrencesUnique := by
  cases i with
  | materialize a => exact occurrencesUnique_dispatchStep hs (.materialize a)
  | runNow a => exact occurrencesUnique_dispatchStep hs (.runNow a)
  | claimSchedule now scheduleId =>
    exact occurrencesUnique_dispatchStep hs (.claimSchedule now scheduleId)
  | createRun now scheduleId bundle require fence =>
    exact occurrencesUnique_dispatchStep hs (.createRun now scheduleId bundle require fence)
  | finalizeSchedule => exact finalizeSchedule_unique hs ..
  | cancelSchedule now scheduleId =>
    exact finalizeSchedule_unique hs now scheduleId .cancelled none ""
  | finalizeScheduleForRun => exact settleLinkedSchedules_unique hs ..
  | terminalHook =>
    rw [agreementStep, finalizeLinkedScheduleForTerminalRun]
    split
    · exact settleLinkedSchedules_unique hs ..
    · exact hs
  | cancelPendingRuns => exact cancelPendingRuns_unique hs ..
  | recover now => exact occurrencesUnique_dispatchStep hs (.recover now)
  | beginWorkerTermination => exact beginWorkerTermination_unique hs ..
  | setAuthority => exact setSchedulePrincipalAuthority_unique hs ..
  | elsewhere e =>
    have hnext := e.nextId s
    constructor
    · intro id o ho
      rw [agreementStep, e.occurrences] at ho
      have hdrawn := hs.drawn id o ho
      exact ⟨hdrawn.1.trans_le hnext, hdrawn.2.trans_le hnext⟩
    · intro id q hq
      rw [agreementStep, e.scheduledRuns] at hq
      exact (hs.scheduled id q hq).trans_le hnext
    · intro id₁ id₂ o₁ o₂ h₁ h₂ hkey
      rw [agreementStep, e.occurrences] at h₁ h₂
      exact hs.unique id₁ id₂ o₁ o₂ h₁ h₂ hkey

theorem finishedKept_agreementStep (hs : s.OccurrencesUnique) (i : AgreementStep) :
    s.FinishedKept (s.agreementStep i) := by
  cases i with
  | materialize a =>
    rcases materializes_cases (a := a) hs with ⟨heq, -⟩ | ⟨⟨q, o, hmat, -⟩, -⟩
    · rw [agreementStep, heq]
      exact finishedKept_refl s
    · exact hmat.finishedKept hs
  | runNow a =>
    rcases runsNow_cases (a := a) hs with ⟨heq, -⟩ | ⟨⟨q, o, hmat, -⟩, -⟩
    · rw [agreementStep, heq]
      exact finishedKept_refl s
    · exact hmat.finishedKept hs
  | claimSchedule => exact claimSchedule_finishedKept s
  | createRun now scheduleId bundle require fence =>
    rcases createOrGetRunForSchedule_cases s now scheduleId bundle require fence with
      ⟨heq, -⟩ | ⟨hlink, -⟩
    · rw [agreementStep, heq]
      exact finishedKept_refl s
    · exact hlink.finishedKept
  | finalizeSchedule => exact finalizeSchedule_finishedKept s
  | cancelSchedule => exact finalizeSchedule_finishedKept s
  | finalizeScheduleForRun => exact settleLinkedSchedules_finishedKept s
  | terminalHook =>
    rw [agreementStep, finalizeLinkedScheduleForTerminalRun]
    split
    · exact settleLinkedSchedules_finishedKept s
    · exact finishedKept_refl s
  | cancelPendingRuns => exact cancelPendingRuns_finishedKept s
  | recover => exact recoverStaleRecurringOccurrenceClaims_finishedKept s
  | beginWorkerTermination => exact beginWorkerTermination_finishedKept s
  | setAuthority => exact setSchedulePrincipalAuthority_finishedKept s
  | elsewhere e => exact finishedKept_of_eq (e.scheduledRuns s)

/-- A step keeps the tables in agreement exactly when it moves them alike. -/
theorem agrees_agreementStep_iff (hs : s.OccurrencesUnique) (h : s.Agrees) (i : AgreementStep) :
    (s.agreementStep i).Agrees ↔ s.MovesAlike i := by
  cases i with
  | materialize a =>
    have hpair : (a.occurrenceState ∈ OccurrenceState.finished ↔
        a.scheduleState ∈ ScheduleState.terminal) ↔
        a.occurrenceState ∉ [.claimed, .queued, .running, .retryable, .needsInput] := by
      rw [MaterializeOccurrence.scheduleState]
      cases a.occurrenceState <;> decide
    by_cases hused : s.KeyScheduled a.key
    · obtain ⟨id, o, -, heq⟩ := materializes_of_existing hused
      rw [agreementStep, heq]
      exact iff_of_true h fun _ _ hnew => absurd hused hnew
    have hunused : ∀ id o, s.occurrences.get? id = some o → o.key ≠ a.key := fun id o ho hkey =>
      hused ⟨id, o, ho, hkey⟩
    by_cases hdue : ∃ d, s.DueAs a d
    · obtain ⟨d, hd⟩ := hdue
      obtain ⟨⟨q, o, hmat, -, hstate, hschedule⟩, -⟩ := materializes_of_new hs hunused hd
      rw [agreementStep, hmat.agrees_iff h hs, hstate, hschedule, hpair]
      exact ⟨fun hopen _ _ _ => hopen, fun hcond => hcond d hd hused⟩
    · rw [agreementStep, materializes_of_not_due hunused fun d hd => hdue ⟨d, hd⟩]
      exact iff_of_true h fun d hd => absurd ⟨d, hd⟩ hdue
  | runNow a =>
    refine iff_of_true ?_ trivial
    rcases runsNow_cases (a := a) hs with ⟨heq, -⟩ | ⟨⟨q, o, hmat, -, hstate, hpending⟩, -⟩
    · rw [agreementStep, heq]
      exact h
    · refine (hmat.agrees_iff h hs).mpr ?_
      rw [hstate, hpending]
      decide
  | claimSchedule now scheduleId => exact iff_of_true (claimSchedule_agrees h now scheduleId) trivial
  | createRun now scheduleId bundle require fence =>
    refine iff_of_true ?_ trivial
    rcases createOrGetRunForSchedule_cases s now scheduleId bundle require fence with
      ⟨heq, -⟩ | ⟨hlink, -⟩
    · rw [agreementStep, heq]
      exact h
    · exact hlink.agrees h
  | finalizeSchedule => exact finalizeSchedule_agrees_iff h ..
  | cancelSchedule now scheduleId =>
    refine iff_of_true ((finalizeSchedule_agrees_iff h now scheduleId .cancelled none "").mpr ?_)
      trivial
    intro id o q _ _ _ _
    split <;> decide
  | finalizeScheduleForRun => exact settleLinkedSchedules_agrees_iff h ..
  | terminalHook =>
    rw [agreementStep, finalizeLinkedScheduleForTerminalRun]
    split
    · rename_i hterm
      rw [oneOf_eq_true] at hterm
      rw [settleLinkedSchedules_agrees_iff h]
      exact ⟨fun hcond _ => hcond, fun hcond => hcond hterm⟩
    · rename_i hterm
      rw [oneOf_eq_true] at hterm
      exact iff_of_true h fun hcontra => absurd hcontra hterm
  | cancelPendingRuns => exact cancelPendingRuns_agrees_iff h ..
  | recover now => exact iff_of_true (recoverStaleRecurringOccurrenceClaims_agrees h now) trivial
  | beginWorkerTermination now workerId =>
    exact iff_of_true (beginWorkerTermination_agrees h now workerId) trivial
  | setAuthority now tenantId ownerId enabled =>
    exact iff_of_true (setSchedulePrincipalAuthority_agrees h now tenantId ownerId enabled) trivial
  | elsewhere e =>
    exact iff_of_true ((agrees_congr (e.occurrences s) (e.scheduledRuns s)).mpr h) trivial

theorem agrees_init (settings : Settings) : (init settings).Agrees :=
  fun id o h => by simp [init] at h

end Store

/-- Along every run of the transactions on schedules from a new database, a finished scheduled run
stays as it is. While the steps move both tables alike, an occurrence is over exactly when its
scheduled run is. -/
theorem schedules_agree (settings : Settings) (steps : List AgreementStep) :
    Along Store.agreementStep (fun s i => s.FinishedKept (s.agreementStep i)) (.init settings)
      steps ∧
    (Along Store.agreementStep Store.MovesAlike (.init settings) steps →
      ∀ pre, pre <+: steps → (run Store.agreementStep (.init settings) pre).Agrees) := by
  have hinit := Store.occurrencesUnique_init settings
  have hkept : ∀ (s : Store) (i : AgreementStep), s.OccurrencesUnique → True →
      (s.agreementStep i).OccurrencesUnique :=
    fun _ i hs _ => Store.occurrencesUnique_agreementStep hs i
  have hboth : ∀ (s : Store) (i : AgreementStep), s.OccurrencesUnique ∧ s.Agrees →
      s.MovesAlike i → (s.agreementStep i).OccurrencesUnique ∧ (s.agreementStep i).Agrees :=
    fun _ i hs hmoves => ⟨Store.occurrencesUnique_agreementStep hs.1 i,
      (Store.agrees_agreementStep_iff hs.1 hs.2 i).mpr hmoves⟩
  constructor
  · exact along_of_invariant hkept (fun _ i hs _ => Store.finishedKept_agreementStep hs i) hinit
      (along_of_forall _ (fun _ _ => trivial) _ _)
  · intro hmoves pre hpre
    exact ( invariant_prefix hboth ⟨hinit, Store.agrees_init settings⟩ hmoves hpre).2

/-! ## An occurrence that needs action of the user -/

/-- The setup of worker `1` and definition `3`, as steps beside the schedules. -/
def definitionSteps : List AgreementStep :=
  setupOfDefinition.map fun e => .elsewhere
    ⟨e.apply, fun s => (e.untouched s).nextId, fun s => (e.untouched s).occurrences,
      fun s => (e.untouched s).scheduledRuns⟩

/-- The occurrence at `10` finds its provider account disconnected. -/
def reconnectAtTen : MaterializeOccurrence :=
  { dueAtTen with
    occurrenceState := .actionRequired
    outcome := "The selected worker account needs to be reconnected before this schedule can run."
    deactivateAfter := true }

/-- The scheduled run has failed, and the occurrence is in none of the finished states: it needs
action of the user, but its principal is not disabled. -/
theorem schedules_action_required :
    ∃ o q, (run Store.agreementStep (.init .default)
        (definitionSteps ++ [.materialize reconnectAtTen])).occurrences.get? 5 = some o ∧
      (run Store.agreementStep (.init .default)
        (definitionSteps ++ [.materialize reconnectAtTen])).scheduledRuns.get? o.scheduledRunId =
          some q ∧
      ¬((o.state ∈ OccurrenceState.terminal ∨
          o.state = .actionRequired ∧ o.outcome = "principal_disabled") ↔
        q.state ∈ ScheduleState.terminal) := by
  have hocc : ((run Store.agreementStep (.init .default)
      (definitionSteps ++ [.materialize reconnectAtTen])).occurrences.get? 5).any (fun o =>
        o.scheduledRunId == 4 && o.state == .actionRequired && o.outcome != "principal_disabled") =
      true := by decide
  have hsched : ((run Store.agreementStep (.init .default)
      (definitionSteps ++ [.materialize reconnectAtTen])).scheduledRuns.get? 4).any (fun q =>
        q.state == .failed) = true := by decide
  obtain ⟨o, ho, hok⟩ := (Option.any_eq_true ..).mp hocc
  obtain ⟨q, hq, hfailed⟩ := (Option.any_eq_true ..).mp hsched
  simp only [Bool.and_eq_true, beq_iff_eq, bne_iff_ne] at hok hfailed
  refine ⟨o, q, ho, hok.1.1 ▸ hq, ?_⟩
  rw [hok.1.2, hfailed]
  simp [OccurrenceState.terminal, ScheduleState.terminal, hok.2]

/-- The occurrence at `10` is materialized, claimed and cancelled. -/
theorem schedules_agree_cancelled :
    (run Store.agreementStep (.init .default) (definitionSteps ++
      [.materialize dueAtTen, .claimSchedule 11 4, .cancelSchedule 12 4])).Agrees := by
  refine (schedules_agree .default _).2 ?_ _ (List.prefix_refl _)
  exact ⟨trivial, trivial, trivial, fun _ _ _ => by decide, trivial, trivial, trivial⟩

end GlassHive
