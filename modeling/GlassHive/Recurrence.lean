import GlassHive.System

/-!
# Recurring occurrences

An occurrence of a recurring definition is materialized with one scheduled run, claimed, and
dispatched as one run. A claim of a definition that skips overlaps looks for other work of the
workspace first.
-/

namespace GlassHive

open Relational Transition

namespace Store

variable {s : Store} {now : Time} {scheduleId : ScheduleId} {occurrenceId : OccurrenceId}
  {o : Occurrence} {q : ScheduledRun}

/-! ## Overlap -/

/-- The worker has a run in one of the states. -/
def WorkerHas (s : Store) (workerId : WorkerId) (states : List RunState) : Prop :=
  ∃ runId r, s.runs.get? runId = some r ∧ r.workerId = workerId ∧ r.state ∈ states

/-- A claim of an occurrence of a skipping definition keeps to the overlap policy: its scheduled
run begins to run only beside finished runs, and beside a live one both are given up. -/
structure KeepsOverlapPolicy (s s' : Store) (scheduleId : ScheduleId)
    (occurrenceId : OccurrenceId) : Prop where
  starts : ∀ q q', s.scheduledRuns.get? scheduleId = some q → q.state ≠ .running →
    s'.scheduledRuns.get? scheduleId = some q' → q'.state = .running →
    ¬s.WorkerHas q.workerId RunState.nonterminal
  skips : ∀ q, s.scheduledRuns.get? scheduleId = some q → q.state = .pending →
    s.WorkerHas q.workerId RunState.nonterminal →
    (∃ q', s'.scheduledRuns.get? scheduleId = some q' ∧ q'.state = .cancelled) ∧
    ∃ o', s'.occurrences.get? occurrenceId = some o' ∧ o'.state = .skipped

theorem workerHas_nonterminal_iff {workerId : WorkerId} :
    s.WorkerHas workerId RunState.nonterminal ↔
      s.WorkerHas workerId RunState.overlooked ∨ s.WorkerHas workerId [.queued, .running] := by
  constructor
  · rintro ⟨runId, r, hr, hw, hst⟩
    rcases (RunState.mem_nonterminal_iff_overlooked _).mp hst with hover | hactive
    · exact Or.inl ⟨runId, r, hr, hw, hover⟩
    · exact Or.inr ⟨runId, r, hr, hw, by simpa using hactive⟩
  · rintro (⟨runId, r, hr, hw, hover⟩ | ⟨runId, r, hr, hw, hactive⟩)
    · exact ⟨runId, r, hr, hw, (RunState.mem_nonterminal_iff_overlooked _).mpr (Or.inl hover)⟩
    · refine ⟨runId, r, hr, hw, (RunState.mem_nonterminal_iff_overlooked _).mpr (Or.inr ?_)⟩
      simpa using hactive

/-- The rows that a claim reads: the occurrence is of the scheduled run, and its definition skips
overlaps. -/
structure Skipping (s : Store) (scheduleId : ScheduleId) (occurrenceId : OccurrenceId)
    (o : Occurrence) : Prop where
  row : s.occurrences.get? occurrenceId = some o
  schedule : o.scheduledRunId = scheduleId
  policy : ∃ d, s.definitions.get? o.definitionId = some d ∧ d.overlapPolicy = .skip

theorem overlapSkipped_iff (h : s.Skipping scheduleId occurrenceId o) (workerId : WorkerId) :
    s.overlapSkipped scheduleId workerId = true ↔ s.WorkerHas workerId [.queued, .running] := by
  obtain ⟨d, hd, hskip⟩ := h.policy
  have hrecurs : (s.occurrences.any fun _ o => o.scheduledRunId == scheduleId &&
      (s.definitions.get? o.definitionId).any fun d => d.overlapPolicy == .skip) = true := by
    rw [Table.any_eq_true]
    exact ⟨occurrenceId, o, h.row, by simp [h.schedule, hd, hskip]⟩
  rw [overlapSkipped, hrecurs, Bool.true_and, Table.any_eq_true, WorkerHas]
  simp only [Bool.and_eq_true, beq_iff_eq, oneOf_eq_true]

/-- A claim of a pending scheduled run that finds work of the workspace. -/
theorem claimSchedule_of_skipped (hq : s.scheduledRuns.get? scheduleId = some q)
    (hst : q.state = .pending) (h : s.overlapSkipped scheduleId q.workerId = true) (now : Time) :
    (s.claimSchedule now scheduleId).store = (s
      |>.updateScheduledRuns (fun id r => id == scheduleId && r.state == .pending)
          (fun r => { r with
            state := .cancelled, lastError := "Skipped because another run is active",
            updatedAt := now })
      |>.updateOccurrences
          (fun _ o => o.scheduledRunId == scheduleId && !oneOf o.state OccurrenceState.terminal)
          (fun o => { o with
            state := .skipped, outcome := "overlap_skipped", terminalAt := some now,
            claimant := none, claimedAt := none, claimExpiresAt := none })) := by
  simp [claimSchedule, hq, hst, h, Option.filter]

/-- A claim of a pending scheduled run that finds none. -/
theorem claimSchedule_of_claimed (hq : s.scheduledRuns.get? scheduleId = some q)
    (hst : q.state = .pending) (h : s.overlapSkipped scheduleId q.workerId = false) (now : Time) :
    (s.claimSchedule now scheduleId).store = (s
      |>.updateScheduledRuns (fun id r => id == scheduleId && r.state == .pending)
          (fun r => { r with state := .running, updatedAt := now })
      |>.updateOccurrences
          (fun _ o => o.scheduledRunId == scheduleId && !oneOf o.state OccurrenceState.terminal)
          (fun o => { o with
            state := .claimed, outcome := "pending", claimant := some (.native scheduleId),
            claimedAt := some now, claimExpiresAt := some (now + 300 * 1000000),
            attemptCount := o.attemptCount + 1 })) := by
  simp [claimSchedule, hq, hst, h, Option.filter]

/-- A claim of a scheduled run that is not pending. -/
theorem claimSchedule_of_not_pending (hq : s.scheduledRuns.get? scheduleId = some q)
    (hst : q.state ≠ .pending) (now : Time) : (s.claimSchedule now scheduleId).store = s := by
  simp [claimSchedule, hq, hst, Option.filter]

/-- The rows after a claim that gives way. -/
theorem rows_of_skipped (h : s.Skipping scheduleId occurrenceId o)
    (hq : s.scheduledRuns.get? scheduleId = some q) (hst : q.state = .pending)
    (hover : s.overlapSkipped scheduleId q.workerId = true) (now : Time) :
    (∃ q', (s.claimSchedule now scheduleId).store.scheduledRuns.get? scheduleId = some q' ∧
      q'.state = .cancelled) ∧
    ∃ o', (s.claimSchedule now scheduleId).store.occurrences.get? occurrenceId = some o' ∧
      o'.state = if o.state ∈ OccurrenceState.terminal then o.state else .skipped := by
  rw [claimSchedule_of_skipped hq hst hover now]
  constructor
  · simp [Table.get?_update, hq, hst]
  · simp only [updateOccurrences_occurrences, updateScheduledRuns_occurrences, Table.get?_update,
      h.row, Option.map_some, h.schedule, BEq.rfl, Bool.true_and]
    by_cases hterm : o.state ∈ OccurrenceState.terminal <;> simp [hterm]

/-- A claim keeps to the overlap policy exactly when, of a pending scheduled run beside live work,
some of the work is queued or running and the occurrence is open. -/
theorem claimSchedule_keepsOverlapPolicy_iff (s : Store) (now : Time) (scheduleId : ScheduleId)
    (occurrenceId : OccurrenceId) (o : Occurrence)
    (h : s.Skipping scheduleId occurrenceId o) :
    s.KeepsOverlapPolicy (s.claimSchedule now scheduleId).store scheduleId occurrenceId ↔
      ∀ q, s.scheduledRuns.get? scheduleId = some q → q.state = .pending →
        (s.WorkerHas q.workerId RunState.overlooked → s.WorkerHas q.workerId [.queued, .running]) ∧
        (s.WorkerHas q.workerId [.queued, .running] →
          o.state ∉ [OccurrenceState.completed, .failed, .cancelled]) := by
  constructor
  · intro hkeep q hq hst
    have hiff := overlapSkipped_iff h q.workerId
    constructor
    · intro hover
      by_contra hnone
      have hclaimed := Bool.eq_false_iff.mpr fun hskip => hnone (hiff.mp hskip)
      refine hkeep.starts q { q with state := .running, updatedAt := now } hq (by simp [hst]) ?_ rfl
        (workerHas_nonterminal_iff.mpr (Or.inl hover))
      rw [claimSchedule_of_claimed hq hst hclaimed now]
      simp [Table.get?_update, hq, hst]
    · intro hactive hterm
      obtain ⟨-, o', ho', hskipped⟩ :=
        hkeep.skips q hq hst (workerHas_nonterminal_iff.mpr (Or.inr hactive))
      obtain ⟨-, o'', ho'', hstate⟩ := rows_of_skipped h hq hst (hiff.mpr hactive) now
      rw [ho', Option.some.injEq] at ho''
      rw [← ho'', hskipped] at hstate
      revert hterm hstate
      cases o.state <;> simp [OccurrenceState.terminal]
  · intro hcond
    constructor
    · intro q q' hq hne hq' hrunning hlive
      by_cases hst : q.state = .pending
      · have hactive : s.WorkerHas q.workerId [.queued, .running] :=
          (workerHas_nonterminal_iff.mp hlive).elim (hcond q hq hst).1 id
        obtain ⟨⟨q'', hq'', hcancelled⟩, -⟩ :=
          rows_of_skipped h hq hst ((overlapSkipped_iff h q.workerId).mpr hactive) now
        rw [hq', Option.some.injEq] at hq''
        rw [← hq'', hrunning] at hcancelled
        exact absurd hcancelled (by decide)
      · rw [claimSchedule_of_not_pending hq hst now, hq, Option.some.injEq] at hq'
        exact hne (hq' ▸ hrunning)
    · intro q hq hst hlive
      have hactive : s.WorkerHas q.workerId [.queued, .running] :=
        (workerHas_nonterminal_iff.mp hlive).elim (hcond q hq hst).1 id
      obtain ⟨hcancelled, o', ho', hstate⟩ :=
        rows_of_skipped h hq hst ((overlapSkipped_iff h q.workerId).mpr hactive) now
      refine ⟨hcancelled, o', ho', ?_⟩
      have hopen := (hcond q hq hst).2 hactive
      rw [hstate]
      revert hopen
      cases o.state <;> simp [OccurrenceState.terminal]

end Store

/-- An occurrence `n + 2` with scheduled run `n + 1` of definition `n`, which skips overlaps and is
of worker `1`. -/
def withOccurrence (calls : List Call) (n : DefinitionId) : List Call :=
  calls ++
    [⟨5, .schedule (.createRecurringScheduleDefinition 1 0 0 0 true "recurring" .skip 10 true
       false)⟩,
     ⟨10, .schedule (.materializeRecurringScheduleOccurrence n 10 10 20 none .pending "pending"
       false)⟩]

namespace Store

theorem skipping_of_any {s : Store} {scheduleId : ScheduleId} {occurrenceId : OccurrenceId}
    (h : (s.occurrences.get? occurrenceId).any (fun o => o.scheduledRunId == scheduleId &&
      (s.definitions.get? o.definitionId).any fun d => d.overlapPolicy == .skip) = true) :
    ∃ o, s.Skipping scheduleId occurrenceId o := by
  obtain ⟨o, ho, hok⟩ := (Option.any_eq_true ..).mp h
  rw [Bool.and_eq_true, beq_iff_eq] at hok
  obtain ⟨d, hd, hskip⟩ := (Option.any_eq_true ..).mp hok.2
  exact ⟨o, ho, hok.1, d, hd, beq_iff_eq.mp hskip⟩

/-- Beside a queued run the claim gives way. -/
theorem claimSchedule_keepsOverlapPolicy_queued :
    (fromCalls (withOccurrence withQueuedRun 4)).KeepsOverlapPolicy
      ((fromCalls (withOccurrence withQueuedRun 4)).claimSchedule 11 5).store 5 6 := by
  obtain ⟨o, ho⟩ := @skipping_of_any (fromCalls (withOccurrence withQueuedRun 4)) 5 6 (by decide)
  have hopen : ((fromCalls (withOccurrence withQueuedRun 4)).occurrences.get? 6).all
      (fun o => o.state == .pending) = true := by decide
  have hsched : ((fromCalls (withOccurrence withQueuedRun 4)).scheduledRuns.get? 5).all
      (fun q => q.workerId == 1) = true := by decide
  have hqueued : ((fromCalls (withOccurrence withQueuedRun 4)).runs.get? (.uuid 3)).any (fun r =>
      r.workerId == 1 && r.state == .queued) = true := by decide
  obtain ⟨r, hr, hrok⟩ := (Option.any_eq_true ..).mp hqueued
  rw [Bool.and_eq_true, beq_iff_eq, beq_iff_eq] at hrok
  rw [ho.row, Option.all_some, beq_iff_eq] at hopen
  refine (claimSchedule_keepsOverlapPolicy_iff _ 11 5 6 o ho).mpr fun q hq _ => ?_
  rw [hq, Option.all_some, beq_iff_eq] at hsched
  refine ⟨fun _ => ⟨.uuid 3, r, hr, ?_, ?_⟩, fun _ => ?_⟩
  · rw [hrok.1, hsched]
  · simp [hrok.2]
  · rw [hopen]
    decide

/-- Beside a claimed run the scheduled run begins to run. -/
theorem claimSchedule_overlooks_claimed :
    (∃ o, (fromCalls (withOccurrence withClaimedRun 5)).Skipping 6 7 o) ∧
    ¬(fromCalls (withOccurrence withClaimedRun 5)).KeepsOverlapPolicy
      ((fromCalls (withOccurrence withClaimedRun 5)).claimSchedule 11 6).store 6 7 := by
  refine ⟨skipping_of_any (by decide), fun hkeep => ?_⟩
  have hbefore : ((fromCalls (withOccurrence withClaimedRun 5)).scheduledRuns.get? 6).any
      (fun q => q.workerId == 1 && q.state == .pending) = true := by decide
  have hafter : (((fromCalls (withOccurrence withClaimedRun 5)).claimSchedule
      11 6).store.scheduledRuns.get? 6).any (fun q => q.state == .running) = true := by decide
  have hclaimed : ((fromCalls (withOccurrence withClaimedRun 5)).runs.get? (.uuid 3)).any
      (fun r => r.workerId == 1 && r.state == .claimed) = true := by decide
  obtain ⟨q, hq, hqok⟩ := (Option.any_eq_true ..).mp hbefore
  obtain ⟨q', hq', hrunning⟩ := (Option.any_eq_true ..).mp hafter
  obtain ⟨r, hr, hrok⟩ := (Option.any_eq_true ..).mp hclaimed
  simp only [Bool.and_eq_true, beq_iff_eq] at hqok hrok hrunning
  refine hkeep.starts q q' hq (by simp [hqok.2]) hq' hrunning ⟨.uuid 3, r, hr, ?_, ?_⟩
  · rw [hrok.1, hqok.1]
  · rw [hrok.2]
    decide

end Store

end GlassHive
