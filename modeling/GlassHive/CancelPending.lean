import GlassHive.System

/-!
# Cancelling pending work

`cancel_pending_runs` moves queued and running runs, ends the open attempts of every run of the
worker, cancels the schedules of nonterminal runs, and leaves occurrences alone. The four lists
agree exactly on workers that hold no run in the five states between.
-/

namespace GlassHive

open Relational

namespace Store

/-! ## What a cancellation should leave -/

/-- A run and everything that follows it is over. -/
structure RunSettled (s : Store) (runId : RunId) (r : Run) : Prop where
  terminal : r.state ∈ RunState.terminal
  attempts : ∀ id a, s.attempts.get? id = some a → a.runId = runId → a.endedAt.isSome = true
  schedules : ∀ id q, s.scheduledRuns.get? id = some q → q.queuedRunId = some runId →
    q.state ∉ [ScheduleState.queued, ScheduleState.running]
  occurrences : ∀ id o, s.occurrences.get? id = some o →
    s.scheduleLinked runId o.scheduledRunId = true → o.state ∈ OccurrenceState.terminal

/-- Every run of the worker is over. -/
def WorkSettled (s : Store) (workerId : WorkerId) : Prop :=
  ∀ id r, s.runs.get? id = some r → r.workerId = workerId → s.RunSettled id r

/-- The work of a worker that `cancel_pending_runs` settles as a whole. -/
structure Cancellable (s : Store) (workerId : WorkerId) : Prop where
  runs : ∀ id r, s.runs.get? id = some r → r.workerId = workerId →
    r.state ∈ pendingRunStates ∨ r.state ∈ RunState.terminal
  schedules : ∀ id r, s.runs.get? id = some r → r.workerId = workerId →
    r.state ∈ RunState.terminal → ∀ sid q, s.scheduledRuns.get? sid = some q →
      q.queuedRunId = some id → q.state ∉ [ScheduleState.queued, ScheduleState.running]
  occurrences : ∀ id r, s.runs.get? id = some r → r.workerId = workerId →
    ∀ oid o, s.occurrences.get? oid = some o → s.scheduleLinked id o.scheduledRunId = true →
      o.state ∈ OccurrenceState.terminal

/-! ## The rows after the call -/

section Rows

variable {s : Store} {now : Time} {workerId : WorkerId} {errorText : String} {state : RunState}

theorem runs_cancelPendingRuns (hstate : state ∈ RunState.terminal) (id : RunId) :
    (s.cancelPendingRuns now workerId errorText state).store.runs.get? id =
      (s.runs.get? id).map fun r =>
        if r.workerId == workerId && oneOf r.state pendingRunStates then
          Run.triggered now r { r with
            state := state, endedAt := some now, errorText := errorText, runtimeBundle := none }
        else r := by
  simp [cancelPendingRuns, hstate, Table.get?_update]

theorem attempts_cancelPendingRuns (hstate : state ∈ RunState.terminal) (id : AttemptId) :
    (s.cancelPendingRuns now workerId errorText state).store.attempts.get? id =
      (s.attempts.get? id).map fun a =>
        if a.endedAt.isNone && (s.runs.get? a.runId).any fun r => r.workerId == workerId then
          Attempt.finish now (.of state) state.text a
        else a := by
  simp [cancelPendingRuns, hstate, Table.get?_update]

theorem scheduledRuns_cancelPendingRuns (hstate : state ∈ RunState.terminal) (id : ScheduleId) :
    (s.cancelPendingRuns now workerId errorText state).store.scheduledRuns.get? id =
      (s.scheduledRuns.get? id).map fun q =>
        if oneOf q.state [.queued, .running] &&
            q.queuedRunId.any (s.workerRunIn workerId RunState.nonterminal) then
          { q with
            state := if state == .cancelled then .cancelled else .failed
            lastError := errorText
            updatedAt := now }
        else q := by
  simp [cancelPendingRuns, hstate, Table.get?_update]

theorem occurrences_cancelPendingRuns (hstate : state ∈ RunState.terminal) :
    (s.cancelPendingRuns now workerId errorText state).store.occurrences = s.occurrences := by
  simp [cancelPendingRuns, hstate]

/-- The call keeps every link between a schedule and its run. -/
theorem scheduleLinked_cancelPendingRuns (hstate : state ∈ RunState.terminal) (runId : RunId)
    (id : ScheduleId) :
    (s.cancelPendingRuns now workerId errorText state).store.scheduleLinked runId id =
      s.scheduleLinked runId id := by
  rw [scheduleLinked, scheduledRuns_cancelPendingRuns hstate, scheduleLinked]
  cases s.scheduledRuns.get? id with
  | none => rfl
  | some =>
    simp only [Option.map_some, Option.any_some]
    split <;> rfl

/-- The rows of a run of the worker after the call, from the row before it. -/
theorem run_after (now : Time) (errorText : String) (hstate : state ∈ RunState.terminal)
    {id : RunId} {r : Run} (hr : s.runs.get? id = some r) (hw : r.workerId = workerId) :
    ∃ r', (s.cancelPendingRuns now workerId errorText state).store.runs.get? id = some r' ∧
      r'.workerId = workerId ∧
      r'.state = if oneOf r.state pendingRunStates then state else r.state := by
  rw [runs_cancelPendingRuns hstate, hr, Option.map_some]
  refine ⟨_, rfl, ?_, ?_⟩
  · split <;> simpa using hw
  · by_cases h : oneOf r.state pendingRunStates <;> simp [hw, h]

/-- Every attempt of a run of the worker is ended. -/
theorem attempt_ended (hstate : state ∈ RunState.terminal) {id : RunId} {r : Run}
    (hr : s.runs.get? id = some r) (hw : r.workerId = workerId) {aid : AttemptId} {a : Attempt}
    (ha : (s.cancelPendingRuns now workerId errorText state).store.attempts.get? aid = some a)
    (hid : a.runId = id) : a.endedAt.isSome = true := by
  rw [attempts_cancelPendingRuns hstate] at ha
  obtain ⟨b, -, hb⟩ := Option.map_eq_some_iff.mp ha
  have hrun : b.runId = a.runId := by
    rw [← hb]
    split <;> rfl
  rw [hrun, hid, hr, Option.any_some, hw, beq_self_eq_true, Bool.and_true] at hb
  cases he : b.endedAt with
  | none =>
    rw [he] at hb
    rw [← hb]
    rfl
  | some =>
    rw [he] at hb
    obtain rfl : b = a := by simpa using hb
    simp [he]

end Rows

/-! ## Cancelling is whole exactly on cancellable work -/

section Whole

variable {s : Store} {now : Time} {workerId : WorkerId} {errorText : String} {state : RunState}

theorem cancellable_of_workSettled (hstate : state ∈ RunState.terminal)
    (h : (s.cancelPendingRuns now workerId errorText state).store.WorkSettled workerId) :
    s.Cancellable workerId where
  runs id r hr hw := by
    obtain ⟨r', hr', hw', hs'⟩ := run_after now errorText hstate hr hw
    have ht := (h id r' hr' hw').terminal
    rw [hs'] at ht
    split at ht
    · rename_i hp
      exact Or.inl (by simpa using hp)
    · exact Or.inr ht
  schedules id r hr hw ht sid q hq hl hin := by
    obtain ⟨r', hr', hw', -⟩ := run_after now errorText hstate hr hw
    refine (h id r' hr' hw').schedules sid q ?_ hl hin
    have hrun : s.workerRunIn workerId RunState.nonterminal id = false := by
      simp [workerRunIn, hr, hw, ← RunState.mem_terminal_iff, ht]
    rw [scheduledRuns_cancelPendingRuns hstate, hq]
    simp [hl, hrun]
  occurrences id r hr hw oid o ho hl := by
    obtain ⟨r', hr', hw', -⟩ := run_after now errorText hstate hr hw
    refine (h id r' hr' hw').occurrences oid o ?_ ?_
    · rwa [occurrences_cancelPendingRuns hstate]
    · rwa [scheduleLinked_cancelPendingRuns hstate]

theorem workSettled_of_cancellable (hstate : state ∈ RunState.terminal)
    (h : s.Cancellable workerId) :
    (s.cancelPendingRuns now workerId errorText state).store.WorkSettled workerId := by
  intro id r' hr' hw'
  have hafter := hr'
  rw [runs_cancelPendingRuns hstate] at hafter
  obtain ⟨r, hr, hmap⟩ := Option.map_eq_some_iff.mp hafter
  have hw : r.workerId = workerId := by
    rw [← hw', ← hmap]
    split <;> rfl
  obtain ⟨r'', hr'', -, hs⟩ := run_after now errorText hstate hr hw
  obtain rfl : r'' = r' := Option.some.inj (hr''.symm.trans hr')
  refine ⟨?_, fun aid a ha hid => attempt_ended hstate hr hw ha hid, ?_, ?_⟩
  · rw [hs]
    split
    · exact hstate
    · rename_i hp
      exact (h.runs id r hr hw).resolve_left (by simpa using hp)
  · intro sid q' hq' hl hin
    rw [scheduledRuns_cancelPendingRuns hstate] at hq'
    obtain ⟨q, hq, hmap⟩ := Option.map_eq_some_iff.mp hq'
    split at hmap
    · rw [← hmap] at hin
      cases state <;> simp at hin
    · rename_i hopen
      subst hmap
      by_cases ht : r.state ∈ RunState.terminal
      · -- the schedule of a run that had finished is left alone
        exact h.schedules id r hr hw ht sid q hq hl hin
      · have hrun : s.workerRunIn workerId RunState.nonterminal id = true := by
          rw [RunState.mem_terminal_iff, not_not] at ht
          simp [workerRunIn, hr, hw, ht]
        rw [hl] at hopen
        simp only [Option.any_some, hrun, Bool.and_true, oneOf_eq_true] at hopen
        exact hopen hin
  · intro oid o ho hl
    rw [occurrences_cancelPendingRuns hstate] at ho
    rw [scheduleLinked_cancelPendingRuns hstate] at hl
    exact h.occurrences id r hr hw oid o ho hl

/-- `cancel_pending_runs` settles the work of a worker as a whole if and only if none of its runs
is claimed, admitted, settling, paused or waiting for input, no finished run has a live schedule,
and no linked occurrence is open. -/
theorem cancelPendingRuns_whole_iff (hstate : state ∈ RunState.terminal) :
    (s.cancelPendingRuns now workerId errorText state).store.WorkSettled workerId ↔
      s.Cancellable workerId :=
  ⟨cancellable_of_workSettled hstate, workSettled_of_cancellable hstate⟩

/-- A queued run is settled as a whole. -/
theorem cancelPendingRuns_whole_iff_queued :
    ((fromCalls withQueuedRun).cancelPendingRuns 5 1 "stopped" .cancelled).store.WorkSettled 1 ↔
      (fromCalls withQueuedRun).Cancellable 1 :=
  cancelPendingRuns_whole_iff (by decide)

/-- A claimed run stays claimed, while its attempt is ended. -/
theorem cancelPendingRuns_splits_claimed_run :
    (fromCalls withClaimedRun).Reachable ∧
      ¬((fromCalls withClaimedRun).cancelPendingRuns 5 1 "stopped" .cancelled).store.WorkSettled
        1 := by
  refine ⟨reachable_fromCalls _, fun h => ?_⟩
  have hrow : (((fromCalls withClaimedRun).cancelPendingRuns 5 1 "stopped"
      .cancelled).store.runs.get? (.uuid 3)).map (fun r => (r.workerId, r.state)) =
        some (1, .claimed) := by
    decide
  obtain ⟨r, hr, hcols⟩ := Option.map_eq_some_iff.mp hrow
  have hw : r.workerId = 1 := congrArg Prod.fst hcols
  have hs : r.state = .claimed := congrArg Prod.snd hcols
  have ht := (h _ r hr hw).terminal
  rw [hs] at ht
  exact absurd ht (by decide)

end Whole

end Store

end GlassHive
