import GlassHive.Queue

/-!
# Provider requests and resumed attention

A provider request is answered by one run. Cancelling the request cancels a run that has not begun
or waits for input, and its deadline fails the run. A run that waits for input goes back to the
queue when its action is resumed.
-/

namespace GlassHive

open Relational

/-- The failure evidence of an exceeded response deadline. -/
structure DeadlineFailure where
  failureClass : String
  userMessage : String
  recommendedRecovery : String
  diagnosticSummary : String

namespace Store

/-! ## Cancellation -/

/-- No active lease holds the run. -/
def unleased (s : Store) (runId : RunId) : Bool :=
  !(s.leases.any fun _ l => l.runId == runId && l.status == .active)

/-- The run a request cancellation may cancel: queued, or waiting for input without a lease. -/
def cancellable (s : Store) (runId : RunId) (r : Run) : Bool :=
  r.state == .queued || (r.state == .needsInput && s.unleased runId)

/-- Put a worker that waited for input back to ready when no run in the states is left. -/
def releaseAttention (s : Store) (now : Time) (workerId : WorkerId) (states : List RunState) :
    Store :=
  s.updateWorkers
    (fun id w => id == workerId && w.state == .needsInput && !s.workerHasRun workerId states)
    fun w => { w with state := .ready, lastError := "", updatedAt := now }

/-- Cancel runs that wait for input or in the queue, with their schedules. -/
def cancelAwaiting (s : Store) (now : Time) (p : RunId → Run → Bool) (runIds : List RunId)
    (errorText : String) : Store :=
  s
    |>.updateRuns now p (Run.conclude now .cancelled errorText)
    |>.updateScheduledRuns
        (fun _ q => q.queuedRunId.any (fun id => oneOf id runIds) &&
          oneOf q.state [.queued, .running])
        (fun q => { q with state := .cancelled, lastError := errorText, updatedAt := now })
    |>.recordTerminalArtifactTraces now runIds

/-- Mark a live request cancelled. -/
def cancelRequest (s : Store) (now : Time) (requestId : RequestId) : Store :=
  s.updateRequests (fun id q => id == requestId && oneOf q.state ["queued", "running"])
    fun q => { q with state := "cancelled", fallbackState := "cancelled", updatedAt := now }

/-- Cancel the run of a cancelled request. -/
def cancelRequestedRun (s : Store) (now : Time) (runId : RunId) (workerId : WorkerId)
    (p : RunId → Run → Bool) : Store :=
  (s.cancelAwaiting now p [runId]
    "Cancelled by operator before execution or resumption").releaseAttention now workerId
      RunState.nonterminal

/-- The run that a request cancellation cancels. -/
def requestedRun (s : Store) (q : ProviderRequest) : Option (RunId × Run) :=
  q.runId.bind fun id => ((s.runs.get? id).filter (s.cancellable id)).map fun r => (id, r)

/-- `claim_provider_request_cancel`. -/
def claimProviderRequestCancel (s : Store) (now : Time) (requestId : RequestId) :
    Outcome (Option ProviderRequest) :=
  match (s.requests.get? requestId).filter fun q => oneOf q.state ["queued", "running"] with
  | none => .commit s none
  | some q =>
    let s₁ := s.cancelRequest now requestId
    match s.requestedRun q with
    | none => .commit s₁ (s₁.requests.get? requestId)
    | some (runId, r) =>
      let s₂ := s₁.cancelRequestedRun now runId r.workerId
        fun id r => id == runId && s.cancellable id r
      .commit s₂ (s₂.requests.get? requestId)

/-- The run waits for input for a cancelled request. -/
def cancelledAttention (s : Store) (workerId : WorkerId) (only : Option RunId) (id : RunId)
    (r : Run) : Bool :=
  r.workerId == workerId && r.state == .needsInput && only.all (· == id) && s.unleased id &&
    s.requests.any fun _ q => q.runId == some id && q.state == "cancelled"

/-- Cancel the runs that wait for input for a cancelled request. -/
def cancelAttention (s : Store) (now : Time) (workerId : WorkerId) (only : Option RunId) : Store :=
  (s.cancelAwaiting now (s.cancelledAttention workerId only)
    ((s.runs.select (s.cancelledAttention workerId only)).map Prod.fst)
    "Cancelled provider turn reconciled after awaiting input").releaseAttention now workerId
      RunState.executing

/-- `reconcile_cancelled_provider_needs_input_runs_for_worker`. -/
def reconcileCancelledProviderNeedsInputRuns (s : Store) (now : Time) (workerId : WorkerId)
    (only : Option RunId) : Outcome (List RunId) :=
  let runIds := (s.runs.select (s.cancelledAttention workerId only)).map Prod.fst
  if runIds.isEmpty then .commit s []
  else .commit (s.cancelAttention now workerId only) runIds

/-! ## Deadlines -/

/-- The deadline of a request, which a live request without one is given. -/
def requestDeadline (defaultTimeout : ℕ) (q : ProviderRequest) : Option Time :=
  q.responseDeadlineAt <|>
    if oneOf q.state ["queued", "running"] then
      some (q.createdAt + if q.responseTimeout == 0 then defaultTimeout else q.responseTimeout)
    else none

/-- The request is overdue: completed late, or still live after its deadline with a run that did
not end in time. -/
def overdue (now : Time) (deadline : Option Time) (q : ProviderRequest) (r : Option Run) : Bool :=
  deadline.any fun deadline =>
    (q.state == "completed" && r.any fun r =>
      r.state == .completed && r.endedAt.any fun t => decide (deadline < t)) ||
    (oneOf q.state ["queued", "running"] && decide (deadline ≤ now) &&
      !(r.any fun r => oneOf r.state RunState.terminal &&
        r.endedAt.any fun t => decide (t ≤ deadline)))

/-- The run states that an exceeded deadline fails. -/
def deadlineRunStates : List RunState :=
  RunState.nonterminal ++ [.completed, .failed]

/-- The attempt states that an exceeded deadline ends. -/
def deadlineAttemptStates : List AttemptState :=
  [.of .claimed, .of .admitted, .of .running, .of .settling, .of .paused, .of .needsInput]

/-- The columns of a run whose request is overdue. -/
def overdueRow (now : Time) (f : DeadlineFailure) (r : Run) : Run :=
  { r with
    state := .failed
    endedAt := r.endedAt <|> some now
    outputText := ""
    errorText := f.userMessage
    failure :=
      { failureClass := f.failureClass, retryable := true, structured := true,
        userMessage := f.userMessage, recommendedRecovery := f.recommendedRecovery,
        diagnosticSummary := f.diagnosticSummary } }

/-- The attempt that an exceeded deadline ends. -/
def overdueAttempt (runId : RunId) (r : Run) (id : AttemptId) (t : Attempt) : Bool :=
  some id == r.activeAttemptId && t.runId == runId && oneOf t.state deadlineAttemptStates &&
    t.endedAt.isNone

/-- Fail the run of an overdue request. -/
def failOverdueRun (s : Store) (now : Time) (runId : RunId) (r : Run) (f : DeadlineFailure) :
    Store :=
  s
    |>.updateRuns now (fun id r => id == runId && oneOf r.state deadlineRunStates)
        (overdueRow now f)
    |>.updateAttempts (overdueAttempt runId r)
        (Attempt.finish now (.of .failed) f.failureClass)
    |>.appendAttemptTraces now ((s.attempts.select (overdueAttempt runId r)).map Prod.fst)
    |>.recordTerminalArtifactTraces now [runId]

/-- Record the deadline of a request that has none. -/
def recordDeadline (s : Store) (now : Time) (requestId : RequestId) (defaultTimeout : ℕ)
    (q : ProviderRequest) : Store :=
  if q.responseDeadlineAt.isNone && (requestDeadline defaultTimeout q).isSome then
    s.updateRequests (fun id _ => id == requestId) fun q => { q with
      responseTimeout := if q.responseTimeout == 0 then defaultTimeout else q.responseTimeout
      responseDeadlineAt := requestDeadline defaultTimeout q
      updatedAt := now }
  else s

/-- Mark a request failed by its deadline. -/
def failRequest (s : Store) (now : Time) (requestId : RequestId) : Store :=
  s.updateRequests (fun id _ => id == requestId) fun q => { q with
    state := "failed", fallbackState := "deadline_exceeded", response := "", updatedAt := now }

/-- The run of a request. -/
def requestRun (s : Store) (q : ProviderRequest) : Option (RunId × Run) :=
  q.runId.bind fun id => (s.runs.get? id).map fun r => (id, r)

/-- `arbitrate_provider_request_deadline`. The flag is `newly_expired`. -/
def arbitrateProviderRequestDeadline (s : Store) (now : Time) (requestId : RequestId)
    (defaultTimeout : ℕ) (f : DeadlineFailure) : Outcome Bool :=
  match s.requests.get? requestId with
  | none => .commit s false
  | some q =>
    let s₁ := s.recordDeadline now requestId defaultTimeout q
    if !overdue now (requestDeadline defaultTimeout q) q ((s.requestRun q).map Prod.snd) then
      .commit s₁ false
    else
      let s₂ := s₁.failRequest now requestId
      match (s.requestRun q).filter fun e => oneOf e.2.state deadlineRunStates with
      | none => .commit s₂ true
      | some (runId, r) => .commit (s₂.failOverdueRun now runId r f) true

/-! ## Resumed attention -/

/-- The pending resume action of a run that its executor presents. -/
def resumeAction (s : Store) (actionUseId : RowId) (runId : RunId) (executorId : ExecutorId) :
    Option ActiveWorkAction :=
  (s.activeWorkActions.get? actionUseId).filter fun u =>
    u.status == "pending" && u.executorId == some executorId && u.action == "resume" &&
      u.sourceRunId == some runId &&
      (u.lifecycleOperationId.isNone || (u.lifecycleOperationKind == some .resumeRun &&
        u.lifecycleTargetRunId == some runId))

/-- The run waits because the provider made no progress. -/
def providerAttention (r : Run) : Bool :=
  r.failure.failureClass == "provider_progress_stalled"

/-- The phase that a resumed action records. -/
def resumedPhase (r : Run) : String :=
  if providerAttention r then "provider_progress_re_admitted" else "authorization_re_admitted"

/-- Record a resumed action with its event and effect. -/
def recordResume (s : Store) (now : Time) (actionUseId : RowId) (executorId : ExecutorId)
    (operationId : OperationId) (workerId : WorkerId) (w : Worker) (runId : RunId) (r : Run) :
    Store :=
  let key : String → LifecycleKey := fun name =>
    { operation := .operation operationId, epoch := 0, operationKind := .resumeRun, name := name,
      workerId := workerId, runId := some runId }
  s
    |>.updateActiveWorkActions
        (fun id u => id == actionUseId && u.status == "pending" && u.executorId == some executorId)
        (fun u => { u with
          lifecycleOperationId := some operationId, lifecycleOperationKind := some .resumeRun,
          lifecycleTargetRunId := some runId, effectPhase := resumedPhase r, updatedAt := now })
    |>.insertLifecycleEvent now
        (key (if providerAttention r then "run.resumed" else "run.authorization_resumed"))
        w.projectId
        (if providerAttention r then
          "Provider attention cleared; exact run queued for execution restart"
        else "Authorization attention cleared; exact run queued for re-admission")
    |>.enqueueLifecycleEffects now (key "") ["callback.run_resumed_queued"]

/-- The columns of a run that goes back to the queue. -/
def resumedRow (settings : Settings) (now : Time) (runId : RunId) (r : Run) : Run :=
  { r with
    state := .queued, endedAt := none, errorText := "",
    retry := { r.retry with retryAfter := none },
    queueWait := r.queueWait.resume settings now runId }

/-- Put a run that waits for input back into the queue. -/
def resumeRun (s : Store) (now : Time) (actionUseId : RowId) (executorId : ExecutorId)
    (operationId : OperationId) (workerId : WorkerId) (w : Worker) (runId : RunId) (r : Run) :
    Store :=
  s.drawId
    |>.updateRuns now (fun id r => id == runId && r.workerId == workerId && r.state == .needsInput)
        (resumedRow s.settings now runId)
    |>.updateWorkers (fun id _ => id == workerId)
        (fun w => { w with state := .starting, lastError := "", updatedAt := now })
    |>.recordResume now actionUseId executorId operationId workerId w runId r

/-- `resume_needs_input_active_work_action`. The worker's state and claims are not looked at. -/
def resumeNeedsInputActiveWorkAction (s : Store) (now : Time) (actionUseId : RowId)
    (workerId : WorkerId) (runId : RunId) (executorId : ExecutorId) : Outcome (Option Run) :=
  match s.resumeAction actionUseId runId executorId, s.workers.get? workerId,
      (s.runs.get? runId).filter fun r => r.workerId == workerId with
  | some u, some w, some r =>
    let operationId := u.lifecycleOperationId.getD s.nextId
    if providerAttention r && w.computeReleasedAt.isNone then .commit s none
    else if r.state == .needsInput then
      let s' := s.resumeRun now actionUseId executorId operationId workerId w runId r
      .commit s' (s'.runs.get? runId)
    else if r.state == .queued && u.effectPhase == resumedPhase r then
      let s' := s.drawId.recordResume now actionUseId executorId operationId workerId w runId r
      .commit s' (s'.runs.get? runId)
    else .commit s none
  | _, _, _ => .commit s none

/-! ## The rows that the transactions leave -/

section Rows

variable {s : Store} {now : Time} {runId : RunId} {workerId : WorkerId}

theorem runs_cancelRequestedRun (s : Store) (now : Time) (runId : RunId) (workerId : WorkerId)
    (p : RunId → Run → Bool) :
    (s.cancelRequestedRun now runId workerId p).runs =
      s.runs.update p fun _ r => Run.triggered now r (Run.conclude now .cancelled
        "Cancelled by operator before execution or resumption" r) := rfl

theorem runs_cancelAttention (only : Option RunId) :
    (s.cancelAttention now workerId only).runs =
      s.runs.update (s.cancelledAttention workerId only)
        fun _ r => Run.triggered now r (Run.conclude now .cancelled
          "Cancelled provider turn reconciled after awaiting input" r) := rfl

theorem runs_failOverdueRun (r : Run) (f : DeadlineFailure) :
    (s.failOverdueRun now runId r f).runs =
      s.runs.update (fun id r => id == runId && oneOf r.state deadlineRunStates)
        fun _ r => Run.triggered now r (overdueRow now f r) := rfl

theorem recordDeadline_eq (s : Store) (now : Time) (requestId : RequestId) (defaultTimeout : ℕ)
    (q : ProviderRequest) :
    ∃ requests, s.recordDeadline now requestId defaultTimeout q = { s with requests := requests } := by
  rw [recordDeadline]
  split
  · exact ⟨_, rfl⟩
  · exact ⟨s.requests, rfl⟩

theorem runs_resumeRun (actionUseId : RowId) (executorId : ExecutorId) (operationId : OperationId)
    (w : Worker) (r : Run) :
    (s.resumeRun now actionUseId executorId operationId workerId w runId r).runs =
      s.runs.update (fun id r => id == runId && r.workerId == workerId && r.state == .needsInput)
        fun _ r => Run.triggered now r (resumedRow s.settings now runId r) := rfl

theorem activeWorkActions_recordResume (actionUseId : RowId) (executorId : ExecutorId)
    (operationId : OperationId) (w : Worker) (r : Run) :
    (s.recordResume now actionUseId executorId operationId workerId w runId r).activeWorkActions =
      s.activeWorkActions.update
        (fun id u => id == actionUseId && u.status == "pending" && u.executorId == some executorId)
        fun _ u => { u with
          lifecycleOperationId := some operationId, lifecycleOperationKind := some .resumeRun,
          lifecycleTargetRunId := some runId, effectPhase := resumedPhase r, updatedAt := now } :=
  rfl

end Rows

/-! ## What the transactions can do -/

section Cases

variable {s : Store} {now : Time} {workerId : WorkerId} {runId : RunId}

theorem requestedRun_eq_some {q : ProviderRequest} {r : Run}
    (h : s.requestedRun q = some (runId, r)) :
    q.runId = some runId ∧ s.runs.get? runId = some r ∧ s.cancellable runId r = true := by
  obtain ⟨id, hid, hmap⟩ := Option.bind_eq_some_iff.mp h
  obtain ⟨r', hr', heq⟩ := Option.map_eq_some_iff.mp hmap
  obtain ⟨rfl, rfl⟩ := Prod.mk.inj heq
  obtain ⟨hget, hok⟩ := Option.filter_eq_some_iff.mp hr'
  exact ⟨hid, hget, hok⟩

theorem requestRun_eq_some {q : ProviderRequest} {r : Run} (h : s.requestRun q = some (runId, r)) :
    q.runId = some runId ∧ s.runs.get? runId = some r := by
  obtain ⟨id, hid, hmap⟩ := Option.bind_eq_some_iff.mp h
  obtain ⟨r', hr', heq⟩ := Option.map_eq_some_iff.mp hmap
  obtain ⟨rfl, rfl⟩ := Prod.mk.inj heq
  exact ⟨hid, hr'⟩

theorem claimProviderRequestCancel_cases (s : Store) (now : Time) (requestId : RequestId) :
    ((s.claimProviderRequestCancel now requestId).store = s ∧
      ¬∃ q, s.requests.get? requestId = some q ∧ oneOf q.state ["queued", "running"] = true) ∨
      ∃ q, s.requests.get? requestId = some q ∧ oneOf q.state ["queued", "running"] = true ∧
        (s.claimProviderRequestCancel now requestId).store =
          match s.requestedRun q with
          | none => s.cancelRequest now requestId
          | some (runId, r) => (s.cancelRequest now requestId).cancelRequestedRun now runId
              r.workerId fun id r => id == runId && s.cancellable id r := by
  cases h : (s.requests.get? requestId).filter fun q => oneOf q.state ["queued", "running"] with
  | none =>
    refine Or.inl ⟨by rw [claimProviderRequestCancel, h]; rfl, ?_⟩
    rintro ⟨q, hq, hlive⟩
    rw [Option.filter_eq_some_iff.mpr ⟨hq, hlive⟩] at h
    cases h
  | some q =>
    obtain ⟨hq, hlive⟩ := Option.filter_eq_some_iff.mp h
    refine Or.inr ⟨q, hq, hlive, ?_⟩
    rw [claimProviderRequestCancel, h]
    dsimp only
    split <;> rfl

/-- The run that an arbitration fails. -/
def overdueRun (s : Store) (now : Time) (requestId : RequestId) (defaultTimeout : ℕ) :
    Option (RunId × Run) :=
  (s.requests.get? requestId).bind fun q =>
    if overdue now (requestDeadline defaultTimeout q) q ((s.requestRun q).map Prod.snd) then
      (s.requestRun q).filter fun e => oneOf e.2.state deadlineRunStates
    else none

theorem overdueRun_eq_some {requestId : RequestId} {defaultTimeout : ℕ} {r : Run}
    (h : s.overdueRun now requestId defaultTimeout = some (runId, r)) :
    s.runs.get? runId = some r ∧ r.state ∈ deadlineRunStates := by
  obtain ⟨q, -, hq⟩ := Option.bind_eq_some_iff.mp h
  split at hq
  · obtain ⟨hrun, hstate⟩ := Option.filter_eq_some_iff.mp hq
    exact ⟨(requestRun_eq_some hrun).2, by simpa using hstate⟩
  · cases hq

/-- An arbitration changes requests, and fails the overdue run if there is one. -/
theorem arbitrateProviderRequestDeadline_cases (s : Store) (now : Time) (requestId : RequestId)
    (defaultTimeout : ℕ) (f : DeadlineFailure) : ∃ requests,
      (s.arbitrateProviderRequestDeadline now requestId defaultTimeout f).store =
        match s.overdueRun now requestId defaultTimeout with
        | none => { s with requests := requests }
        | some (runId, r) =>
          Store.failOverdueRun { s with requests := requests } now runId r f := by
  unfold arbitrateProviderRequestDeadline overdueRun
  split
  · rename_i hnone
    rw [hnone]
    exact ⟨s.requests, rfl⟩
  rename_i q hq
  rw [hq]
  obtain ⟨requests, hdeadline⟩ :=
    recordDeadline_eq s now requestId defaultTimeout q
  dsimp only
  rw [hdeadline, Option.bind_some]
  split
  · rename_i hnot
    rw [Bool.not_eq_true'] at hnot
    rw [hnot]
    exact ⟨_, rfl⟩
  · rename_i hdue
    rw [Bool.not_eq_true', Bool.not_eq_false] at hdue
    rw [if_pos hdue]
    split
    · exact ⟨_, rfl⟩
    · exact ⟨_, rfl⟩

/-- What a resumed action finds. -/
structure Resumes (s : Store) (actionUseId : RowId) (workerId : WorkerId) (runId : RunId)
    (executorId : ExecutorId) (u : ActiveWorkAction) (w : Worker) (r : Run) : Prop where
  action : s.resumeAction actionUseId runId executorId = some u
  worker : s.workers.get? workerId = some w
  get : s.runs.get? runId = some r
  runWorker : r.workerId = workerId

theorem resumeNeedsInputActiveWorkAction_cases (s : Store) (now : Time) (actionUseId : RowId)
    (workerId : WorkerId) (runId : RunId) (executorId : ExecutorId) :
    (s.resumeNeedsInputActiveWorkAction now actionUseId workerId runId executorId).store = s ∨
      ∃ u w r, s.Resumes actionUseId workerId runId executorId u w r ∧
        ((r.state = .needsInput ∧ (providerAttention r && w.computeReleasedAt.isNone) = false ∧
          (s.resumeNeedsInputActiveWorkAction now actionUseId workerId runId executorId).store =
            s.resumeRun now actionUseId executorId (u.lifecycleOperationId.getD s.nextId) workerId
              w runId r) ∨
        (r.state = .queued ∧
          (s.resumeNeedsInputActiveWorkAction now actionUseId workerId runId executorId).store =
            s.drawId.recordResume now actionUseId executorId
              (u.lifecycleOperationId.getD s.nextId) workerId w runId r)) := by
  rw [resumeNeedsInputActiveWorkAction]
  split
  · rename_i u w r hu hw hr
    obtain ⟨hr, hworker⟩ := Option.filter_eq_some_iff.mp hr
    have hresumes : s.Resumes actionUseId workerId runId executorId u w r :=
      ⟨hu, hw, hr, by simpa using hworker⟩
    dsimp only
    split
    · exact Or.inl rfl
    rename_i hattention
    split
    · rename_i hstate
      exact Or.inr ⟨u, w, r, hresumes, Or.inl ⟨by simpa using hstate,
        Bool.not_eq_true _ ▸ hattention, rfl⟩⟩
    split
    · rename_i hqueued
      exact Or.inr ⟨u, w, r, hresumes,
        Or.inr ⟨by simpa using (Bool.and_eq_true_iff.mp hqueued).1, rfl⟩⟩
    · exact Or.inl rfl
  · exact Or.inl rfl

end Cases

end Store

end GlassHive
