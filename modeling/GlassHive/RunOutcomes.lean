import GlassHive.Runs

/-!
# Run transitions and terminal outcomes

The generic writers of `runs.state` and the transactions that publish a terminal outcome.
-/

namespace GlassHive

open Relational

/-- An attempt ended with a state and a reason. -/
def Attempt.finish (now : Time) (state : AttemptState) (reason : String) (a : Attempt) : Attempt :=
  { a with state := state, endedAt := some now, terminalReason := reason }

/-- The row is written by a statement that also drops the runtime bundle. -/
def Run.dropBundle (r : Run) : Run :=
  { r with runtimeBundle := none }

namespace Store

/-! ## `update_run` -/

/-- The columns that `update_run` writes for a requested state and patch. -/
def updatedRun (state : Option RunState) (patch : RunPatch) (r : Run) : Run :=
  let patch := if state == some .cancelled then patch.cancelled else patch
  let r' := { patch.apply r with state := state.getD r.state }
  if state.any fun st => oneOf st (.paused :: RunState.terminal) then r'.dropBundle else r'

/-- What `update_run` does with a row it may write: the active attempt of a run that becomes
terminal is ended with it. -/
def writeRun (s : Store) (now : Time) (runId : RunId) (r : Run) (state : Option RunState)
    (patch : RunPatch) : Store :=
  let projected := state.getD r.state
  let ended := projected != r.state && oneOf projected RunState.terminal
  let endedAt := (patch.endedAt.bind id).getD now
  let s' := s.updateRuns now (fun id _ => id == runId) (updatedRun state patch)
  if ended then
    s'
      |>.updateAttempts
          (fun id a => some id == r.activeAttemptId && a.runId == runId && a.endedAt.isNone)
          (Attempt.retire endedAt (.of projected) projected.text)
      |>.appendAttemptTraces endedAt r.activeAttemptId.toList
      |>.recordTerminalArtifactTraces endedAt [runId]
  else s'

/-- `update_run`. Only a run that is running in its exact generation may be written as running; an
inexact one is downgraded. -/
def updateRun (s : Store) (now : Time) (runId : RunId) (state : Option RunState)
    (patch : RunPatch) : Outcome (Option Run) :=
  match s.runs.get? runId with
  | none => .commit s none
  | some r =>
    let worker := s.workers.get? r.workerId
    let projected := state.getD r.state
    let changes := projected != r.state
    let admission := if oneOf projected RunState.nonterminal then workAdmissionError worker none
      else none
    if patch.restarts r then .commit s none
    else match admission with
    | some e => .raise s e
    | none =>
      if changes && oneOf projected [.claimed, .admitted, .running] then .commit s none
      else if projected == .running && !s.runningGenerationIsExact runId now then
        .commit (s.downgradeUnprovenRunning runId r now "running_invariant_reconciled") none
      else if changes && (worker.any fun w => runIsOwnedByDestructiveClaim w runId) &&
          !oneOf projected RunState.terminal then .commit s none
      else
        let s' := s.writeRun now runId r state patch
        if projected == .running && !s'.runningGenerationIsExact runId now then .commit s none
        else .commit s' (s'.runs.get? runId)

/-- `finalize_run`, through `update_run`. -/
def finalizeRun (s : Store) (now : Time) (runId : RunId) (state : RunState)
    (outputText errorText : String) (usage : TokenUsage) (failure : FailurePatch) :
    Outcome (Option Run) :=
  s.updateRun now runId (some state)
    { RunPatch.none with
      endedAt := some (some now), outputText := some outputText, errorText := some errorText,
      retryAfter := some none, usage := some usage, failure := failure }

/-! ## `transition_run_if_state` -/

/-- The columns that `transition_run_if_state` writes. -/
def transitionPatch (now : Time) (state : RunState) (patch : RunPatch) : RunPatch :=
  let patch := if state == .cancelled then patch.cancelled else patch
  if oneOf state RunState.terminal then
    { patch with endedAt := patch.endedAt <|> some (some now) }
  else patch

/-- What `transition_run_if_state` writes: a state that ends or suspends the run ends its attempt. -/
def transitionRun (s : Store) (now : Time) (runId : RunId) (r : Run) (expectedState state : RunState)
    (patch : RunPatch) : Store :=
  let endedAt := (patch.endedAt.bind id).getD now
  let s := s.updateRuns now (fun id q => id == runId && q.state == expectedState)
    fun q => { patch.apply q with state := state }
  let s := if oneOf state (.needsInput :: RunState.terminal) then
      s
        |>.updateAttempts (fun id a => some id == r.activeAttemptId && a.endedAt.isNone)
            (Attempt.finish endedAt (.of state) state.text)
        |>.appendAttemptTraces endedAt r.activeAttemptId.toList
    else s
  if oneOf state RunState.terminal then s.recordTerminalArtifactTraces endedAt [runId] else s

/-- `transition_run_if_state`. -/
def transitionRunIfState (s : Store) (now : Time) (runId : RunId) (expectedState state : RunState)
    (patch : RunPatch) : Outcome (Option Run) :=
  match s.runs.get? runId with
  | none => .commit s none
  | some r =>
    let worker := s.workers.get? r.workerId
    let patch := transitionPatch now state patch
    let admission := if oneOf state RunState.nonterminal then workAdmissionError worker none
      else none
    if patch.restarts r then .commit s none
    else match admission with
    | some e => .raise s e
    | none =>
      if oneOf state [.claimed, .admitted] then .commit s none
      else if state == .running && !s.runningGenerationIsExact runId now then .commit s none
      else if (worker.any fun w => runIsOwnedByDestructiveClaim w runId) &&
          !oneOf state RunState.terminal then .commit s none
      else if r.state != expectedState then .commit s none
      else
        let s' := s.transitionRun now runId r expectedState state patch
        if state == .running && !s'.runningGenerationIsExact runId now then .commit s none
        else .commit s' (s'.runs.get? runId)

/-! ## `settle_run_if_current` -/

/-- What `settle_run_if_current` writes. The attempt is left as it is. -/
def settleRun (s : Store) (now : Time) (runId : RunId) (r : Run) (outputText childSummary : String) :
    Store :=
  s.updateRuns now
    (fun id q => id == runId && q.state == .running && q.activeAttemptId == r.activeAttemptId &&
      q.runtimeInvokedAt == r.runtimeInvokedAt)
    fun q => { q with
      state := .settling, outputText := outputText,
      native := { q.native with childSummary := childSummary } }

/-- `settle_run_if_current`: enter native settling. -/
def settleRunIfCurrent (s : Store) (now : Time) (runId : RunId)
    (outputText childSummary : String) (expected : Generation) : Outcome (Option Run) :=
  match s.runs.get? runId with
  | none => .commit s none
  | some r =>
    let worker := s.workers.get? r.workerId
    if r.state != .running || !s.runGenerationIsExact runId r expected then .commit s none
    else if worker.any fun w => runIsOwnedByDestructiveClaim w runId then .commit s none
    else match workAdmissionError worker none with
    | some e => .raise s e
    | none =>
      let s' := s.settleRun now runId r outputText childSummary
      .commit s' (s'.runs.get? runId)

/-! ## `finalize_run_if_state` -/

end Store

/-- The arguments of `finalize_run_if_state`. -/
structure FinalizeRun where
  runId : RunId
  expectedState : RunState
  state : RunState
  outputText : String
  errorText : String
  usage : TokenUsage
  expected : Generation
  failure : FailurePatch

namespace Store

/-- `_terminal_failure_fields`. -/
def terminalFailureFields (state : RunState) (failure : FailurePatch) : FailurePatch :=
  if oneOf state [.completed, .cancelled] then .clear else failure

/-- The checks both branches make before they write: the run is in the expected state and
generation and no destructive claim keeps it from leaving it. -/
def finalizable (s : Store) (a : FinalizeRun) (r : Run) : Bool :=
  s.runGenerationIsExact a.runId r a.expected &&
    !((s.workers.get? r.workerId).any (fun w => runIsOwnedByDestructiveClaim w a.runId) &&
      !oneOf a.state RunState.terminal)

/-- The reason that a finalized attempt records. -/
def finalizedReason (state : RunState) (failure : FailurePatch) : String :=
  match failure.failureClass with
  | some c => if c == "" then state.text else c
  | none => state.text

/-- The columns of a finalized run with an active attempt. -/
def activeRow (now : Time) (a : FinalizeRun) (q : Run) : Run :=
  { q with
    state := a.state, endedAt := some now, outputText := a.outputText,
    errorText := a.errorText,
    failure := (terminalFailureFields a.state a.failure).apply q.failure, usage := a.usage,
    retry := { q.retry with
      retryAfter := none
      attempts := if a.state == .cancelled then 0 else q.retry.attempts
      lastClass := if a.state == .cancelled then "" else q.retry.lastClass } }

/-- What finalizing a run with an active attempt writes. -/
def finalizeActive (s : Store) (now : Time) (a : FinalizeRun) (r : Run) : Store :=
  let s := s
    |>.updateRuns now (fun id q => id == a.runId && q.state == a.expectedState) (activeRow now a)
    |>.updateAttempts (fun id t => some id == r.activeAttemptId && t.endedAt.isNone)
        (Attempt.finish now (.of a.state)
          (finalizedReason a.state (terminalFailureFields a.state a.failure)))
    |>.appendAttemptTraces now r.activeAttemptId.toList
  if oneOf a.state RunState.terminal then
    (s.finalizeLinkedScheduleForTerminalRun a.runId a.state a.errorText now)
      |>.recordTerminalArtifactTraces now [a.runId]
  else s

/-- `_finalize_run_if_state_parallel`. -/
def finalizeRunIfStateParallel (s : Store) (now : Time) (a : FinalizeRun) :
    Outcome (Option Run) :=
  if a.state == .running then .commit s none
  else match s.runs.get? a.runId with
  | none => .commit s none
  | some r =>
    if !s.finalizable a r then .commit s none
    else match (if oneOf a.state RunState.nonterminal then
        workAdmissionError (s.workers.get? r.workerId) none else none) with
    | some e => .raise s e
    | none =>
      if r.state != a.expectedState then .commit s none
      else
        let s' := s.finalizeActive now a r
        .commit s' (s'.runs.get? a.runId)

/-- The columns of a finalized run without an active attempt. -/
def inactiveRow (now : Time) (a : FinalizeRun) (q : Run) : Run :=
  { q with
    state := a.state, endedAt := some now, outputText := a.outputText,
    errorText := a.errorText, failure := a.failure.apply q.failure, usage := a.usage,
    runtimeBundle := none }

/-- What finalizing a run without an active attempt writes. -/
def finalizeInactive (s : Store) (now : Time) (a : FinalizeRun) : Store :=
  (s.updateRuns now (fun id q => id == a.runId && q.state == a.expectedState)
    (inactiveRow now a)).finalizeLinkedScheduleForTerminalRun a.runId a.state a.errorText now

/-- `finalize_run_if_state` for a run that had no active attempt when it was called. -/
def finalizeRunIfStateLegacy (s : Store) (now : Time) (a : FinalizeRun) : Outcome (Option Run) :=
  match s.runs.get? a.runId with
  | none => .commit s none
  | some r =>
    if !s.finalizable a r then .commit s none
    else if a.state == .running && !s.runningGenerationIsExact a.runId now then .commit s none
    else match (if oneOf a.state RunState.nonterminal then
        workAdmissionError (s.workers.get? r.workerId) none else none) with
    | some e => .raise s e
    | none =>
      if r.state != a.expectedState then .commit s none
      else
        let s' := s.finalizeInactive now a
        .commit s' (s'.runs.get? a.runId)

/-- `finalize_run_if_state`. -/
def finalizeRunIfState (s : Store) (now : Time) (a : FinalizeRun) : Outcome (Option Run) :=
  if (s.runs.get? a.runId).any fun r => r.activeAttemptId.isSome then
    s.finalizeRunIfStateParallel now a
  else s.finalizeRunIfStateLegacy now a

/-! ## The runs that the writers leave -/

section Rows

variable {s : Store} {now : Time} {runId : RunId}

theorem state_updatedRun (state : Option RunState) (patch : RunPatch) (r : Run) :
    (updatedRun state patch r).state = state.getD r.state := by
  rw [updatedRun]
  split <;> rfl

theorem runs_writeRun (r : Run) (state : Option RunState) (patch : RunPatch) :
    (s.writeRun now runId r state patch).runs =
      s.runs.update (fun id _ => id == runId)
        fun _ q => Run.triggered now q (updatedRun state patch q) := by
  rw [writeRun]
  split <;> rfl

theorem runs_transitionRun (r : Run) (expected state : RunState) (patch : RunPatch) :
    (s.transitionRun now runId r expected state patch).runs =
      s.runs.update (fun id q => id == runId && q.state == expected)
        fun _ q => Run.triggered now q { patch.apply q with state := state } := by
  rw [transitionRun]
  split <;> split <;> rfl

theorem runs_finalizeLinkedScheduleForTerminalRun (state : RunState) (errorText : String) :
    (s.finalizeLinkedScheduleForTerminalRun runId state errorText now).runs = s.runs := by
  rw [finalizeLinkedScheduleForTerminalRun]
  split <;> rfl

theorem runs_finalizeActive (a : FinalizeRun) (r : Run) :
    (s.finalizeActive now a r).runs =
      s.runs.update (fun id q => id == a.runId && q.state == a.expectedState)
        fun _ q => Run.triggered now q (activeRow now a q) := by
  rw [finalizeActive]
  split
  · rw [recordTerminalArtifactTraces_runs, runs_finalizeLinkedScheduleForTerminalRun]
    rfl
  · rfl

theorem runs_finalizeInactive (a : FinalizeRun) :
    (s.finalizeInactive now a).runs =
      s.runs.update (fun id q => id == a.runId && q.state == a.expectedState)
        fun _ q => Run.triggered now q (inactiveRow now a q) :=
  runs_finalizeLinkedScheduleForTerminalRun _ _

end Rows

/-! ## What the writers can do -/

section Cases

variable {s : Store} {now : Time} {runId : RunId}

/-- `update_run` leaves the store, downgrades a running run, or writes the row. -/
theorem updateRun_cases (s : Store) (now : Time) (runId : RunId) (state : Option RunState)
    (patch : RunPatch) :
    (s.updateRun now runId state patch).store = s ∨
      ∃ r, s.runs.get? runId = some r ∧ patch.restarts r = false ∧
        (state.getD r.state ≠ r.state →
          state.getD r.state ∉ [RunState.claimed, .admitted, .running]) ∧
        (state.getD r.state ∈ RunState.nonterminal →
          workAdmissionError (s.workers.get? r.workerId) none = none) ∧
        ((state.getD r.state = .running ∧ s.runningGenerationIsExact runId now = false ∧
          (s.updateRun now runId state patch).store =
            s.downgradeUnprovenRunning runId r now "running_invariant_reconciled") ∨
        (state.getD r.state = .running → s.runningGenerationIsExact runId now = true) ∧
          (s.updateRun now runId state patch).store = s.writeRun now runId r state patch) := by
  rw [updateRun]
  split
  · exact Or.inl rfl
  rename_i r hr
  dsimp only
  split
  · exact Or.inl rfl
  rename_i hrestart
  split
  · exact Or.inl rfl
  rename_i hadmission
  split
  · exact Or.inl rfl
  rename_i hstart
  have hadmitted : state.getD r.state ∈ RunState.nonterminal →
      workAdmissionError (s.workers.get? r.workerId) none = none := by
    intro hin
    rwa [if_pos (by simpa using hin)] at hadmission
  have hmoves : state.getD r.state ≠ r.state →
      state.getD r.state ∉ [RunState.claimed, .admitted, .running] := by
    intro hne hin
    exact hstart (by simp only [Bool.and_eq_true, bne_iff_ne, oneOf_eq_true]; exact ⟨hne, hin⟩)
  split
  · rename_i hexact
    simp only [Bool.and_eq_true, beq_iff_eq, Bool.not_eq_true'] at hexact
    exact Or.inr ⟨r, hr, by simpa using hrestart, hmoves, hadmitted,
      Or.inl ⟨hexact.1, hexact.2, rfl⟩⟩
  rename_i hexact
  split
  · exact Or.inl rfl
  split
  · exact Or.inl rfl
  · exact Or.inr ⟨r, hr, by simpa using hrestart, hmoves, hadmitted,
      Or.inr ⟨fun h => by simpa [h] using hexact, rfl⟩⟩

/-- A terminal state is written unless the caller restarts the run. -/
theorem updateRun_terminal {state : RunState} {patch : RunPatch} {r : Run}
    (hr : s.runs.get? runId = some r) (hstate : state ∈ RunState.terminal)
    (hrestart : patch.restarts r = false) :
    (s.updateRun now runId (some state) patch).store = s.writeRun now runId r (some state) patch := by
  have hnon : state ∉ RunState.nonterminal := (RunState.mem_terminal_iff state).mp hstate
  have hstart : state ∉ [RunState.claimed, .admitted, .running] := by
    cases state <;> simp [RunState.terminal] at hstate ⊢
  have hrunning : state ≠ .running := by
    rintro rfl
    simp at hstart
  rw [updateRun, hr]
  simp [hrestart, hnon, hstart, hrunning, hstate]

/-- What both branches of `finalize_run_if_state` find before they write. -/
structure Finalizes (s : Store) (a : FinalizeRun) (r : Run) : Prop where
  get : s.runs.get? a.runId = some r
  expected : r.state = a.expectedState
  exact : s.runGenerationIsExact a.runId r a.expected = true
  admitted : a.state ∈ RunState.nonterminal →
    workAdmissionError (s.workers.get? r.workerId) none = none
  unowned : a.state ∈ RunState.nonterminal →
    ∀ w, s.workers.get? r.workerId = some w → runIsOwnedByDestructiveClaim w a.runId = false

theorem finalizes_of_guards {a : FinalizeRun} {r : Run} (hr : s.runs.get? a.runId = some r)
    (hok : s.finalizable a r = true)
    (hadmission : (if oneOf a.state RunState.nonterminal then
      workAdmissionError (s.workers.get? r.workerId) none else none) = none)
    (hexpected : r.state = a.expectedState) : s.Finalizes a r := by
  rw [finalizable, Bool.and_eq_true] at hok
  refine ⟨hr, hexpected, hok.1, fun hin => ?_, fun hin w hw => ?_⟩
  · rwa [if_pos (by simpa using hin)] at hadmission
  · have hnt : oneOf a.state RunState.terminal = false := by
      rw [oneOf_eq_false, RunState.mem_terminal_iff, not_not]
      exact hin
    have h := hok.2
    rw [hw, Option.any_some, hnt] at h
    simpa using h

theorem finalizeRunIfStateParallel_cases (s : Store) (now : Time) (a : FinalizeRun) :
    (s.finalizeRunIfStateParallel now a).store = s ∨
      ∃ r, s.Finalizes a r ∧ a.state ≠ .running ∧
        (s.finalizeRunIfStateParallel now a).store = s.finalizeActive now a r := by
  rw [finalizeRunIfStateParallel]
  split
  · exact Or.inl rfl
  rename_i hrunning
  split
  · exact Or.inl rfl
  rename_i r hr
  split
  · exact Or.inl rfl
  rename_i hok
  split
  · exact Or.inl rfl
  rename_i hadmission
  split
  · exact Or.inl rfl
  rename_i hexpected
  exact Or.inr ⟨r, finalizes_of_guards hr (by simpa using hok) hadmission (by simpa using hexpected),
    by simpa using hrunning, rfl⟩

theorem finalizeRunIfStateLegacy_cases (s : Store) (now : Time) (a : FinalizeRun) :
    (s.finalizeRunIfStateLegacy now a).store = s ∨
      ∃ r, s.Finalizes a r ∧
        (a.state = .running → s.runningGenerationIsExact a.runId now = true) ∧
        (s.finalizeRunIfStateLegacy now a).store = s.finalizeInactive now a := by
  rw [finalizeRunIfStateLegacy]
  split
  · exact Or.inl rfl
  rename_i r hr
  split
  · exact Or.inl rfl
  rename_i hok
  split
  · exact Or.inl rfl
  rename_i hexact
  split
  · exact Or.inl rfl
  rename_i hadmission
  split
  · exact Or.inl rfl
  rename_i hexpected
  exact Or.inr ⟨r, finalizes_of_guards hr (by simpa using hok) hadmission (by simpa using hexpected),
    fun h => by simpa [h] using hexact, rfl⟩

end Cases

/-! ## Cancelling pending work -/

/-- The run states that `cancel_pending_runs` moves. -/
def pendingRunStates : List RunState :=
  [.queued, .running]

/-- `cancel_pending_runs` selects the runs of a worker by their state before the call. -/
def workerRunIn (s : Store) (workerId : WorkerId) (states : List RunState) (runId : RunId) : Bool :=
  (s.runs.get? runId).any fun r => r.workerId == workerId && oneOf r.state states

/-- `cancel_pending_runs`. -/
def cancelPendingRuns (s : Store) (now : Time) (workerId : WorkerId) (errorText : String)
    (state : RunState) : Outcome ℕ :=
  if !oneOf state RunState.terminal then
    .raise s (.valueError "Pending work may only be cancelled into a terminal state")
  else
    let terminalRows := (s.runs.select fun _ r =>
      r.workerId == workerId && oneOf r.state RunState.nonterminal).map Prod.fst
    let openAttempts := (s.attempts.select fun _ a =>
      a.endedAt.isNone && (s.runs.get? a.runId).any fun r => r.workerId == workerId).map Prod.fst
    let pending : RunId → Run → Bool := fun _ r =>
      r.workerId == workerId && oneOf r.state pendingRunStates
    .commit (s
      |>.updateScheduledRuns
          (fun _ q => oneOf q.state [.queued, .running] &&
            q.queuedRunId.any (s.workerRunIn workerId RunState.nonterminal))
          (fun q => { q with
            state := if state == .cancelled then .cancelled else .failed
            lastError := errorText
            updatedAt := now })
      |>.updateRuns now pending
          (fun r => { r with
            state := state, endedAt := some now, errorText := errorText, runtimeBundle := none })
      |>.updateAttempts
          (fun _ a => a.endedAt.isNone && (s.runs.get? a.runId).any fun r => r.workerId == workerId)
          (Attempt.finish now (.of state) state.text)
      |>.appendAttemptTraces now openAttempts
      |>.recordTerminalArtifactTraces now terminalRows) (s.runs.select pending).length

/-- `cancel_queued_runs_for_worker`. -/
def cancelQueuedRunsForWorker (s : Store) (now : Time) (workerId : WorkerId) (errorText : String)
    (excludeRunId : Option RunId) : Outcome (List RunId) :=
  let chosen : RunId → Run → Bool := fun id r =>
    r.workerId == workerId && oneOf r.state [.queued, .needsInput] && excludeRunId != some id
  let runIds := (s.runs.select chosen).map Prod.fst
  .commit (s
    |>.updateRuns now chosen
        (fun r => { r with
          state := .cancelled, endedAt := some now, errorText := errorText, failure := .clear,
          retry := { r.retry with retryAfter := none, attempts := 0, lastClass := "" } })
    |>.recordTerminalArtifactTraces now runIds) runIds

end Store

end GlassHive
