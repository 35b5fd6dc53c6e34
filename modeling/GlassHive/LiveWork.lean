import GlassHive.System
import GlassHive.Traces

/-!
# A stop and a termination touch live work only

Both finalizers cancel the nonterminal runs of a worker and what follows them. The condition under
which nothing that had already finished changes, and every attempt that they end has its trace
event, is exact.
-/

namespace GlassHive

open Relational

namespace Store

/-- What had finished under a worker is as it was, and every attempt that changed is traced. -/
structure LeavesFinished (s s' : Store) (workerId : WorkerId) : Prop where
  runs : ∀ id r, s.runs.get? id = some r → r.workerId = workerId → r.state ∈ RunState.terminal →
    s'.runs.get? id = some r
  attempts : ∀ id a, s.attempts.get? id = some a →
    s.workerRunIn workerId RunState.terminal a.runId = true → s'.attempts.get? id = some a
  schedules : ∀ id q, s.scheduledRuns.get? id = some q → q.state ∈ ScheduleState.terminal →
    s'.scheduledRuns.get? id = some q
  traced : ∀ id a a', s.attempts.get? id = some a → s'.attempts.get? id = some a' → a' ≠ a →
    Recorded s'.workTrace a.runId (a'.event id)

/-- The worker's finished runs have no attempt that the operation ends, none of its schedules has
failed, and the attempts of its live runs can be traced: its work is delegated. -/
structure LiveOnly (s : Store) (now : Time) (workerId : WorkerId) (ends : Attempt → Bool)
    (reason : String) : Prop where
  attempts : ∀ id a, s.attempts.get? id = some a →
    s.workerRunIn workerId RunState.terminal a.runId = true → ends a = false
  schedules : ∀ id q, s.scheduledRuns.get? id = some q → q.workerId = workerId → q.state ≠ .failed
  traced : ∀ id a, s.attempts.get? id = some a →
    s.workerRunIn workerId RunState.nonterminal a.runId = true → ends a = true →
    (s.workTraceScope a.runId).isSome = true ∨
      Recorded s.workTrace a.runId ((a.finish now (.of .cancelled) reason).event id)

theorem leavesFinished_refl (s : Store) (workerId : WorkerId) : s.LeavesFinished s workerId where
  runs _ _ h _ _ := h
  attempts _ _ h _ := h
  schedules _ _ h _ := h
  traced _ _ _ h h' hne := absurd (Option.some.inj (h'.symm.trans h)) hne

section Ends

variable {s s' : Store} {now : Time} {workerId : WorkerId} {ends traces : Attempt → Bool}
  {reason errorText : String} {row : Run → Run}

/-- What both finalizers write: `ends` chooses the attempts they end among those of the worker, and
`traces` those whose events they append. -/
structure Ends (s s' : Store) (now : Time) (workerId : WorkerId) (ends traces : Attempt → Bool)
    (reason errorText : String) (row : Run → Run) : Prop where
  runs : s'.runs = s.runs.update
    (fun _ r => r.workerId == workerId && oneOf r.state RunState.nonterminal)
    fun _ r => Run.triggered now r (row r)
  attempts : s'.attempts = s.attempts.update
    (fun _ a => (s.runs.get? a.runId).any (fun r => r.workerId == workerId) && ends a)
    fun _ => Attempt.finish now (.of .cancelled) reason
  scheduledRuns : s'.scheduledRuns = s.scheduledRuns.update
    (fun _ q => q.workerId == workerId && !oneOf q.state [.completed, .cancelled])
    fun _ q => { q with state := .cancelled, lastError := errorText, updatedAt := now }
  recorded : ∀ runId event, Recorded s.workTrace runId event → Recorded s'.workTrace runId event
  appended : ∀ id a, s.attempts.get? id = some a → traces a = true →
    (s.workTraceScope a.runId).isSome = true →
    Recorded s'.workTrace a.runId ((a.finish now (.of .cancelled) reason).event id)
  delegated : ∀ id a, s.attempts.get? id = some a →
    Recorded s'.workTrace a.runId ((a.finish now (.of .cancelled) reason).event id) →
    Recorded s.workTrace a.runId ((a.finish now (.of .cancelled) reason).event id) ∨
      (s.workTraceScope a.runId).isSome = true

theorem workerRunIn_or {runId : RunId}
    (h : (s.runs.get? runId).any (fun r => r.workerId == workerId) = true) :
    s.workerRunIn workerId RunState.terminal runId = true ∨
      s.workerRunIn workerId RunState.nonterminal runId = true := by
  obtain ⟨r, hr, hw⟩ := (Option.any_eq_true ..).mp h
  have hmem : r.state ∈ RunState.terminal ∨ r.state ∈ RunState.nonterminal := by
    rw [RunState.mem_terminal_iff]
    exact (em _).symm
  simp only [workerRunIn, hr, Option.any_some, hw, Bool.true_and, oneOf_eq_true]
  exact hmem

theorem any_of_workerRunIn {runId : RunId} {states : List RunState}
    (h : s.workerRunIn workerId states runId = true) :
    (s.runs.get? runId).any (fun r => r.workerId == workerId) = true := by
  obtain ⟨r, hr, hw⟩ := (Option.any_eq_true ..).mp h
  simp only [Bool.and_eq_true] at hw
  rw [hr]
  exact hw.1

/-- The condition is exact. -/
theorem Ends.leavesFinished_iff (h : s.Ends s' now workerId ends traces reason errorText row)
    (hends : ∀ a, ends a = true → a.finish now (.of .cancelled) reason ≠ a)
    (htraces : ∀ a, s.workerRunIn workerId RunState.nonterminal a.runId = true →
      ends a = true → traces a = true) :
    s.LeavesFinished s' workerId ↔ s.LiveOnly now workerId ends reason := by
  have hget : ∀ id a, s.attempts.get? id = some a → ∀ states,
      s.workerRunIn workerId states a.runId = true → ends a = true →
      s'.attempts.get? id = some (a.finish now (.of .cancelled) reason) := by
    intro id a ha states hrun hsel
    rw [h.attempts, Table.get?_update, ha, Option.map_some,
      if_pos (by rw [any_of_workerRunIn hrun, hsel]; rfl)]
  constructor
  · intro hleaves
    refine ⟨fun id a ha hrun => ?_, fun id q hq hworker hfailed => ?_,
      fun id a ha hrun hsel => ?_⟩
    · by_contra hsel
      rw [Bool.not_eq_false] at hsel
      have hafter := hget id a ha _ hrun hsel
      rw [hleaves.attempts id a ha hrun] at hafter
      exact hends a hsel (Option.some.inj hafter).symm
    · have hafter := hleaves.schedules id q hq (by rw [hfailed]; decide)
      rw [h.scheduledRuns, Table.get?_update, hq, Option.map_some,
        if_pos (by simp [hworker, hfailed])] at hafter
      have hstate := congrArg ScheduledRun.state (Option.some.inj hafter)
      rw [hfailed] at hstate
      cases hstate
    · have hrec := hleaves.traced id a _ ha (hget id a ha _ hrun hsel) (hends a hsel)
      exact (h.delegated id a ha hrec).symm
  · intro hlive
    refine ⟨fun id r hr hworker hterminal => ?_, fun id a ha hrun => ?_,
      fun id q hq hterminal => ?_, fun id a a' ha ha' hne => ?_⟩
    · rw [h.runs, Table.get?_update, hr, Option.map_some,
        if_neg (by simp [(RunState.mem_terminal_iff _).mp hterminal])]
    · rw [h.attempts, Table.get?_update, ha, Option.map_some,
        if_neg (by simp [hlive.attempts id a ha hrun])]
    · rw [h.scheduledRuns, Table.get?_update, hq, Option.map_some, if_neg]
      rintro hsel
      simp only [Bool.and_eq_true, beq_iff_eq, Bool.not_eq_true', oneOf_eq_false, List.mem_cons,
        List.not_mem_nil, or_false, not_or] at hsel
      have hfailed := hlive.schedules id q hq hsel.1
      rw [ScheduleState.terminal] at hterminal
      simp only [List.mem_cons, List.not_mem_nil, or_false] at hterminal
      rcases hterminal with hst | hst | hst
      · exact hsel.2.1 hst
      · exact hfailed hst
      · exact hsel.2.2 hst
    · rw [h.attempts, Table.get?_update, ha, Option.map_some] at ha'
      split at ha'
      · rename_i hsel
        obtain rfl := Option.some.inj ha'
        rw [Bool.and_eq_true] at hsel
        rcases workerRunIn_or hsel.1 with hrun | hrun
        · rw [hlive.attempts id a ha hrun] at hsel
          exact absurd hsel.2 Bool.false_ne_true
        · rcases hlive.traced id a ha hrun hsel.2 with hscope | hrec
          · exact h.appended id a ha (htraces a hrun hsel.2) hscope
          · exact h.recorded _ _ hrec
      · exact absurd (Option.some.inj ha').symm hne

end Ends

/-! ## The two finalizers -/

section Finalizers

variable {s : Store} {now : Time} {workerId : WorkerId} {token : Token} {epoch : ℕ}
  {errorText : String} {fields : RuntimeFields} {w : Worker}

theorem workTraceScope_updateRuns {p : RunId → Run → Bool} {f : Run → Run}
    (hf : ∀ r, (f r).workerId = r.workerId ∧ (f r).projectId = r.projectId ∧
      (f r).tenantId = r.tenantId) (runId : RunId) :
    (s.updateRuns now p f).workTraceScope runId = s.workTraceScope runId := by
  simp only [workTraceScope, updateRuns_runs, updateRuns_delegations, Table.get?_update]
  cases s.runs.get? runId with
  | none => rfl
  | some r =>
    simp only [Option.map_some, Option.bind_some]
    split
    · obtain ⟨hw, hp, ht⟩ := hf r
      simp only [Run.triggered, hw, hp, ht]
    · rfl

/-- The runs and the attempts that a finalizer has ended, before it traces them. -/
def ended (s : Store) (now : Time) (q : RunId → Run → Bool) (row : Run → Run)
    (p : Attempt → Bool) (reason : String) : Store :=
  (s.updateRuns now q row).updateAttempts (fun _ a => p a)
    (Attempt.finish now (.of .cancelled) reason)

/-- The trace with the events of these attempts and the artifacts of these runs. -/
def endedTrace (s : Store) (now : Time) (q : RunId → Run → Bool) (row : Run → Run)
    (p : Attempt → Bool) (reason : String) (ids : List AttemptId) (runIds : List RunId) :
    Table (RunId × ℕ) WorkTraceEvent :=
  (((s.ended now q row p reason).appendAttemptTraces now ids).recordTerminalArtifactTraces now
    runIds).workTrace

/-- The events that a finalizer appends for the attempts it has ended. -/
theorem recorded_ended {q : RunId → Run → Bool} {row : Run → Run} {p : Attempt → Bool}
    {reason : String} {ids : List AttemptId} {runIds : List RunId}
    {trace : Table (RunId × ℕ) WorkTraceEvent}
    (hrow : ∀ r, (row r).workerId = r.workerId ∧ (row r).projectId = r.projectId ∧
      (row r).tenantId = r.tenantId)
    (htrace : trace = s.endedTrace now q row p reason ids runIds) :
    (∀ runId event, Recorded s.workTrace runId event → Recorded trace runId event) ∧
      (∀ id a, s.attempts.get? id = some a → id ∈ ids → p a = true →
        (s.workTraceScope a.runId).isSome = true →
        Recorded trace a.runId ((a.finish now (.of .cancelled) reason).event id)) ∧
      ∀ id a, s.attempts.get? id = some a →
        Recorded trace a.runId ((a.finish now (.of .cancelled) reason).event id) →
        Recorded s.workTrace a.runId ((a.finish now (.of .cancelled) reason).event id) ∨
          (s.workTraceScope a.runId).isSome = true := by
  rw [htrace, endedTrace]
  have hscope : ∀ runId, (s.ended now q row p reason).workTraceScope runId =
      s.workTraceScope runId := workTraceScope_updateRuns hrow
  refine ⟨fun runId event h => ?_, fun id a ha hid hp hs => ?_, fun id a _ h => ?_⟩
  · exact recorded_recordTerminalArtifactTraces_of_recorded
      (recorded_appendAttemptTraces_of_recorded h)
  · refine recorded_recordTerminalArtifactTraces_of_recorded ?_
    refine recorded_appendAttemptTraces (a := a.finish now (.of .cancelled) reason) hid ?_ ?_
    · rw [ended, updateAttempts_attempts, updateRuns_attempts, Table.get?_update, ha,
        Option.map_some, if_pos hp]
    · rw [hscope]
      exact hs
  · rw [recorded_recordTerminalArtifactTraces_iff] at h
    rcases recorded_of_appendAttemptTraces h with h | ⟨_, -, _, -, -, -, hs⟩
    · exact Or.inl h
    · rw [hscope] at hs
      exact Or.inr hs

theorem workTrace_stopWork (s : Store) (now : Time) (workerId : WorkerId) (errorText : String) :
    (s.stopWork now workerId errorText).workTrace =
    s.endedTrace now (fun _ r => r.workerId == workerId && oneOf r.state RunState.nonterminal)
      (stoppedRow now errorText)
      (fun a => (s.runs.get? a.runId).any (fun r => r.workerId == workerId) && s.stoppedAttempt a)
      "work_stopped" ((s.attempts.select fun _ a =>
        s.workerRunIn workerId RunState.nonterminal a.runId && s.stoppedAttempt a).map Prod.fst)
      (s.nonterminalRuns workerId) := by
  simp only [stopWork, releaseWorkerLeases, failPendingActions, cancelWorkerSchedules,
    updateLeases_workTrace, acceptCancelActionsForRuns_workTrace, updateActiveWorkActions_workTrace,
    updateScheduledRuns_workTrace, endedTrace, ended]

theorem workTrace_finishTermination (s : Store) (now : Time) (workerId : WorkerId) (token : Token)
    (epoch : ℕ) (computeReleasedAt : Time) (fields : RuntimeFields) (errorText : String)
    (w : Worker) :
    (s.finishTermination now workerId token epoch computeReleasedAt fields errorText w).workTrace =
      s.endedTrace now (fun _ r => r.workerId == workerId && oneOf r.state RunState.nonterminal)
        (Run.conclude now .cancelled errorText)
        (fun a => (s.runs.get? a.runId).any (fun r => r.workerId == workerId) &&
          a.endedAt.isNone)
        "worker_terminated" ((s.attempts.select fun _ a =>
          (s.runs.get? a.runId).any (fun r => r.workerId == workerId) && a.endedAt.isNone).map
            Prod.fst) (s.nonterminalRuns workerId) := by
  simp only [finishTermination, settleClaim, endWork, releaseWorkerLeases, failPendingActions,
    cancelWorkerSchedules, updateLeases_workTrace, acceptCancelActionsForRuns_workTrace,
    updateActiveWorkActions_workTrace, updateScheduledRuns_workTrace, updateWorkers_workTrace,
    insertLifecycleEvent_workTrace, enqueueLifecycleEffects_workTrace, endedTrace, ended]

theorem finishStop_eq (s : Store) (now : Time) (workerId : WorkerId) (token : Token) (epoch : ℕ)
    (target : RunId) (fields : RuntimeFields) (computeReleasedAt : Option Time) (errorText : String)
    (w : Worker) (cancelled : Bool) :
    ∃ events effects workers, s.finishStop now workerId token epoch target fields
      computeReleasedAt errorText w cancelled =
        { s.stopWork now workerId errorText with
          events := events, effects := effects, workers := workers } := by
  obtain ⟨_, _, h⟩ := publishStop_eq (s.stopWork now workerId errorText) now workerId token w target
      cancelled
  rw [finishStop, h]
  exact ⟨_, _, _, rfl⟩

theorem ends_finishStop {target : RunId} {computeReleasedAt : Option Time} {cancelled : Bool} :
    s.Ends (s.finishStop now workerId token epoch target fields computeReleasedAt errorText w
      cancelled) now workerId s.stoppedAttempt
      (fun a => s.workerRunIn workerId RunState.nonterminal a.runId && s.stoppedAttempt a)
      "work_stopped" errorText (stoppedRow now errorText) := by
  obtain ⟨events, effects, workers, heq⟩ := finishStop_eq s now workerId token epoch target fields
      computeReleasedAt errorText w cancelled
  rw [heq]
  have hrow : ∀ r, (stoppedRow now errorText r).workerId = r.workerId ∧
      (stoppedRow now errorText r).projectId = r.projectId ∧
      (stoppedRow now errorText r).tenantId = r.tenantId := fun r => ⟨rfl, rfl, rfl⟩
  have htrace := workTrace_stopWork s now workerId errorText
  obtain ⟨hrecorded, happended, hdelegated⟩ := recorded_ended hrow htrace
  refine ⟨rfl, rfl, rfl, hrecorded, fun id a ha hsel hs => ?_, hdelegated⟩
  rw [Bool.and_eq_true] at hsel
  refine happended id a ha ?_ ?_ hs
  · exact List.mem_map.mpr ⟨(id, a), Table.mem_select.mpr ⟨ha, by simp [hsel]⟩, rfl⟩
  · simp [any_of_workerRunIn hsel.1, hsel.2]

theorem ends_finishTermination {computeReleasedAt : Time} :
    s.Ends (s.finishTermination now workerId token epoch computeReleasedAt fields errorText w) now
      workerId (fun a => a.endedAt.isNone)
      (fun a => (s.runs.get? a.runId).any (fun r => r.workerId == workerId) && a.endedAt.isNone)
      "worker_terminated" errorText (Run.conclude now .cancelled errorText) := by
  have hrow : ∀ r, (Run.conclude now .cancelled errorText r).workerId = r.workerId ∧
      (Run.conclude now .cancelled errorText r).projectId = r.projectId ∧
      (Run.conclude now .cancelled errorText r).tenantId = r.tenantId := fun r => ⟨rfl, rfl, rfl⟩
  have htrace := workTrace_finishTermination s now workerId token epoch computeReleasedAt fields
      errorText w
  obtain ⟨hrecorded, happended, hdelegated⟩ := recorded_ended hrow htrace
  refine ⟨runs_finishTermination _, rfl, rfl, hrecorded, fun id a ha hsel hs => ?_, hdelegated⟩
  exact happended id a ha
    (List.mem_map.mpr ⟨(id, a), Table.mem_select.mpr ⟨ha, hsel⟩, rfl⟩) hsel hs

/-- A stop leaves what had finished as it was exactly when the caller does not own a stop that can
be settled, or only live work is there to touch. -/
theorem finalizeWorkerWorkStopClaim_leavesFinished_iff {target : RunId}
    {computeReleasedAt : Option Time} :
    s.LeavesFinished (s.finalizeWorkerWorkStopClaim now workerId token epoch target fields
        computeReleasedAt errorText).store workerId ↔
      ((∃ w r, s.Stoppable workerId token epoch target w r) →
        s.LiveOnly now workerId s.stoppedAttempt "work_stopped") := by
  rcases finalizeWorkerWorkStopClaim_cases s now workerId token epoch target fields
      computeReleasedAt errorText with
    ⟨heq, hnot⟩ | ⟨w, r, hstop, heq⟩ <;> rw [heq]
  · exact ⟨fun _ h => absurd h hnot, fun _ => leavesFinished_refl s workerId⟩
  · rw [ends_finishStop.leavesFinished_iff]
    · exact ⟨fun h _ => h, fun h => h ⟨w, r, hstop⟩⟩
    · intro a hends hsame
      simp only [stoppedAttempt, Bool.or_eq_true, Option.isNone_iff_eq_none, Bool.and_eq_true,
        beq_iff_eq] at hends
      rcases hends with hopen | ⟨hretry, -⟩
      · rw [← hsame] at hopen
        cases hopen
      · rw [← hsame] at hretry
        cases hretry
    · intro a hrun hends
      rw [hrun, hends]
      rfl

/-- The same for a termination. -/
theorem finalizeWorkerTerminationClaim_leavesFinished_iff {computeReleasedAt : Time} :
    s.LeavesFinished (s.finalizeWorkerTerminationClaim now workerId token epoch computeReleasedAt
        fields errorText).store workerId ↔
      ((s.ownedWorker workerId token epoch .terminateWorker).isSome = true →
        s.LiveOnly now workerId (fun a => a.endedAt.isNone) "worker_terminated") := by
  cases hw : s.ownedWorker workerId token epoch .terminateWorker with
  | none =>
    rw [finalizeWorkerTerminationClaim, hw]
    exact ⟨fun _ h => absurd h Bool.false_ne_true, fun _ => leavesFinished_refl s workerId⟩
  | some =>
    rw [finalizeWorkerTerminationClaim_of_owned hw, ends_finishTermination.leavesFinished_iff]
    · exact ⟨fun h _ => h, fun h => h rfl⟩
    · intro a hends hsame
      rw [← hsame] at hends
      cases hends
    · intro a hrun hends
      rw [any_of_workerRunIn hrun, hends]
      rfl

/-- The two finalizers leave what had finished as it was, with every ended attempt traced, exactly
when only live and delegated work is there to touch. -/
theorem finalizers_leaveFinished_iff (target : RunId) (computeReleasedAt : Option Time)
    (endedAt : Time) :
    (s.LeavesFinished (s.finalizeWorkerWorkStopClaim now workerId token epoch target fields
        computeReleasedAt errorText).store workerId ↔
      ((∃ w r, s.Stoppable workerId token epoch target w r) →
        s.LiveOnly now workerId s.stoppedAttempt "work_stopped")) ∧
    (s.LeavesFinished (s.finalizeWorkerTerminationClaim now workerId token epoch endedAt fields
        errorText).store workerId ↔
      ((s.ownedWorker workerId token epoch .terminateWorker).isSome = true →
        s.LiveOnly now workerId (fun a => a.endedAt.isNone) "worker_terminated")) :=
  ⟨finalizeWorkerWorkStopClaim_leavesFinished_iff,
    finalizeWorkerTerminationClaim_leavesFinished_iff⟩

end Finalizers

/-! ## A schedule that has failed -/

/-- The claim that terminates worker `1`, which has no run. -/
def terminationOfIdle : ClaimRelease where
  workerId := 1
  expectedUpdatedAt := 2
  expectedLastRunId := none
  expectedState := .created
  expectedContainerId := none
  owner := 9
  ttl := 60
  kind := .terminateWorker
  scope := none
  targetRunId := none
  expectedTargetStartedAt := none
  expectedSessionFingerprint := none
  replacement := none
  action := none

/-- The dispatch of schedule `3` has failed, and the worker is claimed for its termination with
token `4` and epoch `1`. -/
def withFailedSchedule : List Call :=
  withWorker ++
    [⟨3, .schedule (.createScheduledRun 1 0 0 7 "scheduled" 3 false)⟩,
     ⟨4, .schedule (.claimSchedule 3)⟩,
     ⟨5, .schedule (.finalizeSchedule 3 .failed none "dispatch failed")⟩,
     ⟨6, .lifecycle (.tryClaimWorkerComputeRelease terminationOfIdle)⟩]

/-- The termination rewrites the failed schedule as cancelled. -/
theorem finalizeWorkerTerminationClaim_rewrites_failed :
    (fromCalls withFailedSchedule).Reachable ∧
      ¬(fromCalls withFailedSchedule).LeavesFinished
        ((fromCalls withFailedSchedule).finalizeWorkerTerminationClaim 7 1 4 1 7 .none
          "closed").store 1 := by
  refine ⟨reachable_fromCalls _, fun h => ?_⟩
  have hbefore : ((fromCalls withFailedSchedule).scheduledRuns.get? 3).map ScheduledRun.state =
      some .failed := by
    decide
  have hafter : (((fromCalls withFailedSchedule).finalizeWorkerTerminationClaim 7 1 4 1 7 .none
      "closed").store.scheduledRuns.get? 3).map ScheduledRun.state = some .cancelled := by
    decide
  obtain ⟨q, hq, hstate⟩ := Option.map_eq_some_iff.mp hbefore
  rw [h.schedules 3 q hq (by rw [hstate]; decide), Option.map_some, hstate] at hafter
  cases hafter

end Store

end GlassHive
