import GlassHive.Release

/-!
# Finalizing claims

Each kind of claim has a finalizer, which publishes what the operation did and gives the claim up
in one transaction. Only the owner of the current token and epoch finalizes.
-/

namespace GlassHive

open Relational

/-- The columns of `RUNTIME_INFO_FIELD_NAMES`. -/
structure RuntimeFields where
  runtime : Option String
  model : Option String
  stateDir : Option String
  workspaceDir : Option String
  pid : Option (Option ℕ)
  lastError : Option String

namespace RuntimeFields

/-- No column is assigned. -/
def none : RuntimeFields :=
  ⟨.none, .none, .none, .none, .none, .none⟩

def apply (f : RuntimeFields) (w : Worker) : Worker :=
  { w with
    runtime := f.runtime.getD w.runtime
    model := f.model.getD w.model
    stateDir := f.stateDir.getD w.stateDir
    workspaceDir := f.workspaceDir.getD w.workspaceDir
    pid := f.pid.getD w.pid
    lastError := f.lastError.getD w.lastError }

end RuntimeFields

/-- A run concluded in a state, with its failure and retry evidence cleared. -/
def Run.conclude (now : Time) (state : RunState) (errorText : String) (r : Run) : Run :=
  { r with
    state := state, endedAt := some now, errorText := errorText, failure := .clear,
    retry := { r.retry with retryAfter := none, attempts := 0, lastClass := "" } }

/-- The identity of an event or effect of the worker's operation. -/
def Worker.lifecycleKey (w : Worker) (workerId : WorkerId) (token : Token) (kind : OperationKind)
    (runId : Option RunId) (name : String) : LifecycleKey where
  operation := .operation (w.release.operationId.getD token)
  epoch := 0
  operationKind := kind
  name := name
  workerId := workerId
  runId := runId

/-- The queue wait of a resumed run: a closed wait opens the next generation. -/
def QueueWait.resume (settings : Settings) (now : Time) (runId : RunId) (w : QueueWait) :
    QueueWait :=
  if w.isOpen then w
  else
    let generation := max 1 w.generation + 1
    let deadline := now + settings.queueWaitTimeout * 1000000
    { w with
      episode := generation
      isOpen := true
      generation := generation
      startedAt := now
      closedAt := none
      durationSeconds := none
      deadlineAt := deadline
      nextStatusAt := some (now + settings.queueStatusRefresh * 1000000)
      transitionEmitted := false
      statusSequence := 0
      callbackState := "unknown"
      terminalCallbackId := some
        { kind := "timeout", runId := runId, generation := generation, deadline := deadline } }

namespace Store

/-! ## Shared steps -/

/-- The worker whose claim of this kind the caller owns. -/
def ownedWorker (s : Store) (workerId : WorkerId) (token : Token) (epoch : ℕ)
    (kind : OperationKind) : Option Worker :=
  (s.workers.get? workerId).filter fun w =>
    w.ownedBy token epoch && w.release.kind == some kind && w.release.scope == kind.scope

/-- The same for a claim on one target. -/
def ownedWorkerFor (s : Store) (workerId : WorkerId) (token : Token) (epoch : ℕ)
    (kind : OperationKind) (target : Option RunId) : Option Worker :=
  (s.ownedWorker workerId token epoch kind).filter fun w => w.release.targetRunId == target

/-- Give a claim up: the worker takes a state and the columns that `f` assigns. -/
def settleClaim (s : Store) (now : Time) (workerId : WorkerId) (token : Token) (epoch : ℕ)
    (state : WorkerState) (f : Worker → Worker) : Store :=
  s.updateWorkers (fun id w => id == workerId && w.ownedBy token epoch)
    fun w => { f w with state := state, release := .clear, updatedAt := now }

/-- Release the active leases of a worker's run. -/
def releaseRunLeases (s : Store) (now : Time) (workerId : WorkerId) (runId : RunId)
    (reason : String) : Store :=
  s.updateLeases (fun _ l => l.workerId == workerId && l.runId == runId && l.status == .active)
    (Lease.release now reason)

/-- Release every active lease of a worker. -/
def releaseWorkerLeases (s : Store) (now : Time) (workerId : WorkerId) (reason : String) : Store :=
  s.updateLeases (fun _ l => l.workerId == workerId && l.status == .active)
    (Lease.release now reason)

/-- Cancel the scheduled runs of a worker that are neither completed nor cancelled. -/
def cancelWorkerSchedules (s : Store) (now : Time) (workerId : WorkerId) (lastError : String) :
    Store :=
  s.updateScheduledRuns
    (fun _ q => q.workerId == workerId && !oneOf q.state [.completed, .cancelled])
    fun q => { q with state := .cancelled, lastError := lastError, updatedAt := now }

/-- Fail the pending actions on the worker's delegations, except those with the given action. -/
def failPendingActions (s : Store) (now : Time) (workerId : WorkerId) (except : Option String)
    (lastError : String) : Store :=
  s.updateActiveWorkActions
    (fun _ u => (s.delegations.get? u.workRef).any (fun d => d.workerId == workerId) &&
      u.status == "pending" && except != some u.action)
    fun u => { u with
      status := "failed", lastError := lastError, leaseExpiresAt := none, updatedAt := now }

/-- The nonterminal runs of a worker. -/
def nonterminalRuns (s : Store) (workerId : WorkerId) : List RunId :=
  (s.runs.select fun _ r => r.workerId == workerId && oneOf r.state RunState.nonterminal).map
    Prod.fst

/-! ## Compute-only claims -/

/-- The kinds that `finalize_worker_compute_release` settles. -/
def computeOnlyKinds : List OperationKind :=
  [.idle, .needsInput, .paused, .pauseWorker, .resumeWorker]

/-- The state that a released worker takes. -/
def releasedState (s : Store) (workerId : WorkerId) (w : Worker) (kind : OperationKind)
    (target : Option RunId) (idleState : WorkerState) : WorkerState :=
  if oneOf w.state WorkerState.closed then w.state
  else match kind with
  | .pauseWorker => .paused
  | .resumeWorker => idleState
  | _ =>
    if oneOf w.state [.paused, .needsInput] then w.state
    else if s.workerHasRun workerId [.running, .settling] then .running
    else if kind == .idle && target.any (s.workerRunIn workerId [.queued]) then .ready
    else s.demandState workerId idleState

/-- The event and effect of a paused or resumed worker, which a closed one does not publish. -/
def publishWorkerControl (s : Store) (now : Time) (workerId : WorkerId) (token : Token)
    (w : Worker) (kind : OperationKind) : Store :=
  if oneOf kind [.pauseWorker, .resumeWorker] && !oneOf w.state WorkerState.closed then
    let paused := kind == .pauseWorker
    s
      |>.insertLifecycleEvent now (w.lifecycleKey workerId token kind none
          (if paused then "worker.paused" else "worker.resumed")) w.projectId
          (if paused then "Worker paused" else "Worker resumed")
      |>.enqueueLifecycleEffects now (w.lifecycleKey workerId token kind none "")
          [if paused then "callback.worker_paused" else "callback.worker_resumed"]
  else s

/-- The release of a paused target frees its leases. -/
def releasePausedTarget (s : Store) (now : Time) (workerId : WorkerId) (kind : OperationKind)
    (target : Option RunId) : Store :=
  match kind, target with
  | .paused, some runId => s.releaseRunLeases now workerId runId "paused_compute_release_confirmed"
  | _, _ => s

/-- What a settled compute-only claim writes. -/
def releaseCompute (s : Store) (now : Time) (workerId : WorkerId) (token : Token) (epoch : ℕ)
    (kind : OperationKind) (target : Option RunId) (computeReleasedAt : Option Time)
    (fields : RuntimeFields) (idleState : WorkerState) (w : Worker) : Store :=
  ((s.releasePausedTarget now workerId kind target).publishWorkerControl now workerId token w
    kind).settleClaim now workerId token epoch (s.releasedState workerId w kind target idleState)
      fun w => { fields.apply w with computeReleasedAt := computeReleasedAt }

/-- `finalize_worker_compute_release`. -/
def finalizeWorkerComputeRelease (s : Store) (now : Time) (workerId : WorkerId) (token : Token)
    (epoch : ℕ) (kind : OperationKind) (target : Option RunId) (computeReleasedAt : Option Time)
    (fields : RuntimeFields) (idleState : WorkerState) : Outcome (Option Worker) :=
  if !oneOf kind computeOnlyKinds then
    .raise s (.valueError "Unsupported compute-only finalization kind")
  else match s.ownedWorkerFor workerId token epoch kind target with
  | none => .commit s none
  | some w =>
    let s' := s.releaseCompute now workerId token epoch kind target computeReleasedAt fields
      idleState w
    .commit s' (s'.workers.get? workerId)

/-! ## Maximum duration -/

/-- The generation a claim was taken for: the target of the worker, started when the claim says. -/
def claimedGeneration (workerId : WorkerId) (w : Worker) (target : RunId) (id : RunId)
    (r : Run) : Bool :=
  id == target && r.workerId == workerId && r.startedAt == w.release.targetStartedAt

/-- What `finalize_worker_operation_claim` writes for a target it concludes. -/
def concludeTarget (s : Store) (now : Time) (workerId : WorkerId) (token : Token) (w : Worker)
    (target : RunId) (expectedStates : List RunState) (targetState : RunState)
    (errorText : String) : Store :=
  s
    |>.updateRuns now
        (fun id r => claimedGeneration workerId w target id r && oneOf r.state expectedStates)
        (Run.conclude now targetState errorText)
    |>.updateScheduledRuns
        (fun _ q => q.queuedRunId == some target && !oneOf q.state [.completed, .cancelled])
        (fun q => { q with state := .cancelled, lastError := errorText, updatedAt := now })
    |>.acceptCancelActionsForRuns now [target]
    |>.insertLifecycleEvent now
        (w.lifecycleKey workerId token .maxDuration (some target) "run.duration_exceeded")
        w.projectId errorText
    |>.enqueueLifecycleEffects now (w.lifecycleKey workerId token .maxDuration (some target) "")
        ["callback.run_cancelled"]
    |>.recordTerminalArtifactTraces now [target]

/-- The target that the claim concludes: in its claimed generation and in an expected state. -/
def concludable (s : Store) (workerId : WorkerId) (w : Worker) (target : RunId)
    (expectedStates : List RunState) : Bool :=
  s.runs.any fun id r => claimedGeneration workerId w target id r && oneOf r.state expectedStates

/-- What a settled maximum duration writes. -/
def finishOperation (s : Store) (now : Time) (workerId : WorkerId) (token : Token) (epoch : ℕ)
    (target : RunId) (expectedStates : List RunState) (targetState : RunState)
    (errorText : String) (fields : RuntimeFields) (idleState : WorkerState)
    (computeReleasedAt : Option Time) (w : Worker) : Store :=
  let s₁ := if s.concludable workerId w target expectedStates then
      s.concludeTarget now workerId token w target expectedStates targetState errorText
    else s
  let s₂ := s₁.releaseRunLeases now workerId target "max_duration_confirmed"
  s₂.settleClaim now workerId token epoch (s₂.demandState workerId idleState)
    fun w => { fields.apply w with computeReleasedAt := computeReleasedAt }

/-- `finalize_worker_operation_claim`. The flag says whether the target was concluded. -/
def finalizeWorkerOperationClaim (s : Store) (now : Time) (workerId : WorkerId) (token : Token)
    (epoch : ℕ) (kind : OperationKind) (target : RunId) (expectedStates : List RunState)
    (targetState : RunState) (errorText : String) (fields : RuntimeFields)
    (idleState : WorkerState) (computeReleasedAt : Option Time) : Outcome (Option Bool) :=
  if kind != .maxDuration then
    .raise s (.valueError "A run-scoped worker operation requires a kind and target run")
  else if !oneOf targetState RunState.terminal then
    .raise s (.valueError "A finalized worker operation requires a terminal run state")
  else match s.ownedWorkerFor workerId token epoch .maxDuration (some target) with
  | none => .commit s none
  | some w =>
    .commit (s.finishOperation now workerId token epoch target expectedStates targetState errorText
      fields idleState computeReleasedAt w) (some (s.concludable workerId w target expectedStates))

/-! ## Work stop -/

/-- An attempt that a settled stop ends: an open one, or the last one when it waits for a retry. -/
def stoppedAttempt (s : Store) (a : Attempt) : Bool :=
  a.endedAt.isNone ||
    (a.state == .retryQueued && a.attemptNumber + 1 == s.nextAttemptNumber a.runId)

/-- The columns of a stopped run. -/
def stoppedRow (now : Time) (errorText : String) (r : Run) : Run :=
  let r := Run.conclude now .cancelled errorText r
  { r with retry := { r.retry with capacityCount := 0 } }

/-- What a settled stop does to the runs of the worker and what follows them. -/
def stopWork (s : Store) (now : Time) (workerId : WorkerId) (errorText : String) : Store :=
  let runIds := s.nonterminalRuns workerId
  let attemptIds := (s.attempts.select fun _ a =>
    s.workerRunIn workerId RunState.nonterminal a.runId && s.stoppedAttempt a).map Prod.fst
  s
    |>.updateRuns now (fun _ r => r.workerId == workerId && oneOf r.state RunState.nonterminal)
        (stoppedRow now errorText)
    |>.updateAttempts
        (fun _ a => (s.runs.get? a.runId).any (fun r => r.workerId == workerId) &&
          s.stoppedAttempt a)
        (Attempt.finish now (.of .cancelled) "work_stopped")
    |>.appendAttemptTraces now attemptIds
    |>.recordTerminalArtifactTraces now runIds
    |>.cancelWorkerSchedules now workerId errorText
    |>.failPendingActions now workerId (some "stop") "work_stopped"
    |>.acceptCancelActionsForRuns now runIds
    |>.releaseWorkerLeases now workerId "work_stop_confirmed"

/-- The event of a settled stop, and its effect when the target was cancelled. -/
def publishStop (s : Store) (now : Time) (workerId : WorkerId) (token : Token) (w : Worker)
    (target : RunId) (cancelled : Bool) : Store :=
  let s := if cancelled then
      s.enqueueLifecycleEffects now (w.lifecycleKey workerId token .stopRun (some target) "")
        ["callback.work_stopped"]
    else s
  s.insertLifecycleEvent now
    (w.lifecycleKey workerId token .stopRun (some target)
      (if cancelled then "run.cancelled" else "work.stop_completion_won")) w.projectId
    (if cancelled then "Run stop confirmed"
      else "Work completed before its stop could cancel the target run")

/-- What a settled stop writes. -/
def finishStop (s : Store) (now : Time) (workerId : WorkerId) (token : Token) (epoch : ℕ)
    (target : RunId) (fields : RuntimeFields) (computeReleasedAt : Option Time)
    (errorText : String) (w : Worker) (cancelled : Bool) : Store :=
  ((s.stopWork now workerId errorText).publishStop now workerId token w target
    cancelled).settleClaim now workerId token epoch .ready fun w =>
      { fields.apply w with
        computeReleasedAt := computeReleasedAt
        workStop := { w.workStop with
          settledAt := some now
          outcome := if cancelled then "cancelled" else "completion_won" } }

/-- `finalize_worker_work_stop_claim`. The flag says whether the target was cancelled. -/
def finalizeWorkerWorkStopClaim (s : Store) (now : Time) (workerId : WorkerId) (token : Token)
    (epoch : ℕ) (target : RunId) (fields : RuntimeFields) (computeReleasedAt : Option Time)
    (errorText : String) : Outcome (Option Bool) :=
  match (s.ownedWorkerFor workerId token epoch .stopRun (some target)).filter
      fun w => w.workStop.id.isSome with
  | none => .commit s none
  | some w =>
    match (s.runs.get? target).filter fun r => r.workerId == workerId with
    | none => .commit s none
    | some r =>
      let cancelled := !oneOf r.state RunState.terminal &&
        r.startedAt == w.release.targetStartedAt
      if !oneOf r.state RunState.terminal && !cancelled then .commit s none
      else
        .commit (s.finishStop now workerId token epoch target fields computeReleasedAt errorText w
          cancelled) (some cancelled)

end Store

/-! ## Run control -/

/-- The arguments of `finalize_worker_run_control_claim`. -/
structure FinalizeControl where
  workerId : WorkerId
  token : Token
  epoch : ℕ
  kind : OperationKind
  target : RunId
  expectedStates : List RunState
  targetState : RunState
  workerState : WorkerState
  fields : RuntimeFields
  errorText : String
  releaseLease : Bool

/-- How a run control or a steer ended. -/
inductive ControlResult
  | transitioned | terminalWon | closedWon | alreadyInterrupted
  deriving DecidableEq, Repr

/-- The kinds that `finalize_worker_run_control_claim` settles. -/
def OperationKind.runControls : List OperationKind :=
  [.pauseRun, .resumeRun, .interruptRun, .steerRun]

/-- The events of a run control. -/
def OperationKind.controlEvents : OperationKind → List (String × String)
  | .pauseRun => [("run.paused", "Run paused by operator"), ("worker.paused", "Worker paused")]
  | .resumeRun => [("run.resumed", "Paused run resumed"), ("worker.resumed", "Worker resumed")]
  | .interruptRun =>
    [("worker.interrupted", "Worker interrupted"), ("run.interrupted", "Run interruption accepted")]
  | _ => []

/-- The effect of a run control. -/
def OperationKind.controlEffect (targetState : RunState) : OperationKind → String
  | .pauseRun => "callback.run_paused"
  | .resumeRun => if targetState == .running then "callback.run_resumed_in_place"
    else "callback.run_resumed_queued"
  | .interruptRun => "callback.run_interrupted"
  | _ => "callback.run_steered"

namespace FinalizeControl

/-- The control needs a confirmed runtime effect. -/
def needsProof (a : FinalizeControl) (r : Run) : Bool :=
  oneOf a.kind [.resumeRun, .interruptRun] || (a.kind == .pauseRun && r.state != .queued)

/-- A resume that puts the run back into the queue. -/
def requeues (a : FinalizeControl) : Bool :=
  a.kind == .resumeRun && a.targetState == .queued

/-- The attempt that a resume into the queue closes. -/
def restartAttempt (a : FinalizeControl) (r : Run) : Option AttemptId :=
  if a.requeues then r.activeAttemptId else none

/-- The columns of the target run. -/
def targetRow (a : FinalizeControl) (settings : Settings) (now : Time) (r : Run) : Run :=
  let restart := (a.restartAttempt r).isSome
  { r with
    state := a.targetState
    endedAt := if oneOf a.targetState RunState.terminal then some now else none
    errorText := a.errorText
    retry := { r.retry with retryAfter := none }
    claimedAt := if restart then none else r.claimedAt
    admittedAt := if restart then none else r.admittedAt
    runtimeInvokedAt := if restart then none else r.runtimeInvokedAt
    activeAttemptId := if restart then none else r.activeAttemptId
    queueWait := if a.requeues then r.queueWait.resume settings now a.target else r.queueWait }

end FinalizeControl

namespace Store

/-- An attempt of the run that a restart may close. -/
def restartable (target : RunId) (t : Attempt) : Bool :=
  t.runId == target && t.endedAt.isNone &&
    oneOf t.state [.of .claimed, .of .admitted, .of .running, .of .settling]

/-- A terminal target won the race against its control. -/
def controlTerminalWon (s : Store) (now : Time) (a : FinalizeControl) (w : Worker) : Store :=
  s
    |>.insertLifecycleEvent now
        (w.lifecycleKey a.workerId a.token a.kind (some a.target) "control.terminal_won")
        w.projectId "Terminal run truth won the lifecycle control race"
    |>.releaseRunLeases now a.workerId a.target (a.kind.text ++ "_terminal_won")
    |>.settleClaim now a.workerId a.token a.epoch .ready a.fields.apply

/-- The target may be moved: the runtime effect is proved, a run that stays running is exact, a
restarted attempt is open, and the target is in an expected state. -/
def controllable (s : Store) (now : Time) (a : FinalizeControl) (w : Worker) (r : Run) : Bool :=
  (!a.needsProof r || workerControlRuntimeProofMatches w) &&
    (a.targetState != .running || s.runningGenerationIsExact a.target now) &&
    (a.restartAttempt r).all (fun id => (s.attempts.get? id).any (restartable a.target)) &&
    oneOf r.state a.expectedStates

/-- Move the target, and end the attempt of a resume into the queue. -/
def moveTarget (s : Store) (now : Time) (a : FinalizeControl) (r : Run) : Store :=
  let restart := a.restartAttempt r
  let s₁ := s
    |>.updateRuns now
        (fun id q => id == a.target && q.workerId == a.workerId && oneOf q.state a.expectedStates)
        (a.targetRow s.settings now)
    |>.updateAttempts
        (fun id t => some id == restart && restartable a.target t)
        (Attempt.finish now .retryQueued "host_pause_resume_restart")
    |>.appendAttemptTraces now restart.toList
  if a.releaseLease || restart.isSome then
    s₁.releaseRunLeases now a.workerId a.target
      (if restart.isSome then "host_pause_resume_restart" else a.kind.text ++ "_confirmed")
  else s₁

/-- The events and the effect of a control that moved its target. -/
def publishControl (s : Store) (now : Time) (a : FinalizeControl) (w : Worker) : Store :=
  (s.insertLifecycleEvents now w.projectId (a.kind.controlEvents.map fun e =>
      (w.lifecycleKey a.workerId a.token a.kind (some a.target) e.1, e.2)))
    |>.enqueueLifecycleEffects now (w.lifecycleKey a.workerId a.token a.kind (some a.target) "")
        [a.kind.controlEffect a.targetState]

/-- What a control that moves its target writes. -/
def finishControl (s : Store) (now : Time) (a : FinalizeControl) (w : Worker) (r : Run) : Store :=
  ((s.moveTarget now a r).publishControl now a w).settleClaim now a.workerId a.token a.epoch
    a.workerState fun w => { a.fields.apply w with
      computeReleasedAt := if a.kind == .resumeRun then none else w.computeReleasedAt }

/-- `finalize_worker_run_control_claim`. -/
def finalizeWorkerRunControlClaim (s : Store) (now : Time) (a : FinalizeControl) :
    Outcome (Option ControlResult) :=
  if !oneOf a.kind OperationKind.runControls then
    .raise s (.valueError "Run control finalization requires an exact operation target")
  else if a.expectedStates.isEmpty then
    .raise s (.valueError "Run control finalization requires expected target states")
  else match s.ownedWorkerFor a.workerId a.token a.epoch a.kind (some a.target) with
  | none => .commit s none
  | some w =>
    match (s.runs.get? a.target).filter fun r =>
        r.workerId == a.workerId && r.startedAt == w.release.targetStartedAt with
    | none => .commit s none
    | some r =>
      if oneOf r.state RunState.terminal then
        if oneOf w.state WorkerState.closed then .commit s (some .closedWon)
        else .commit (s.controlTerminalWon now a w) (some .terminalWon)
      else if !s.controllable now a w r then .commit s none
      else .commit (s.finishControl now a w r) (some .transitioned)

/-! ## Steer -/

/-- Point the worker's delegations at a run. -/
def advanceDelegations (s : Store) (now : Time) (workerId : WorkerId) (runId : RunId) : Store :=
  s.updateDelegations (fun _ d => d.workerId == workerId)
    fun d => { d with currentRunId := runId, updatedAt := now }

end Store

/-- The arguments of `finalize_worker_steer_claim`. -/
structure FinalizeSteer where
  workerId : WorkerId
  token : Token
  epoch : ℕ
  target : RunId
  expectedState : RunState
  replacement : RunId
  instruction : String
  fields : RuntimeFields

namespace Store

/-- The event identity of a steer. -/
def steerKey (a : FinalizeSteer) (w : Worker) (runId : RunId) (name : String) : LifecycleKey :=
  w.lifecycleKey a.workerId a.token .steerRun (some runId) name

/-- What a steer that went through does once its target is interrupted: the delegations follow the
replacement, and the worker starts it when it is still queued. -/
def steerToReplacement (s : Store) (now : Time) (a : FinalizeSteer) (w : Worker)
    (events : List (RunId × String × String)) (replacementQueued : Bool) : Store :=
  let s₁ := (s.advanceDelegations now a.workerId a.replacement).releaseRunLeases now a.workerId
    a.target "steer_run_confirmed"
  let s₂ := s₁.insertLifecycleEvents now w.projectId (events.map fun e =>
    (steerKey a w e.1 e.2.1, e.2.2))
  let s₃ := if replacementQueued then
      s₂.enqueueLifecycleEffects now (steerKey a w a.replacement "") ["callback.run_steered"]
    else s₂
  s₃.settleClaim now a.workerId a.token a.epoch (if replacementQueued then .starting else .ready)
    fun w => { a.fields.apply w with lastRunId := some a.replacement }

/-- A terminal target suppresses the replacement. -/
def steerTerminalWon (s : Store) (now : Time) (a : FinalizeSteer) (w : Worker) : Store :=
  s
    |>.insertLifecycleEvent now (steerKey a w a.target "control.terminal_won") w.projectId
        "Terminal run truth suppressed the steer replacement"
    |>.updateRuns now
        (fun id r => id == a.replacement && r.workerId == a.workerId && r.state == .queued)
        (fun r => { r with
          state := .cancelled, endedAt := some now,
          errorText := "Steer replacement suppressed because target completed" })
    |>.advanceDelegations now a.workerId a.target
    |>.releaseRunLeases now a.workerId a.target "steer_run_terminal_won"
    |>.recordTerminalArtifactTraces now [a.replacement]
    |>.settleClaim now a.workerId a.token a.epoch .ready a.fields.apply

/-- The state that a steered target takes. -/
def steeredState (expected : RunState) : RunState :=
  if expected == .queued then .cancelled else .interrupted

/-- Interrupt the target of a steer. -/
def steerTarget (s : Store) (now : Time) (a : FinalizeSteer) : Store :=
  s
    |>.updateRuns now
        (fun id r => id == a.target && r.workerId == a.workerId && r.state == a.expectedState)
        (Run.conclude now (steeredState a.expectedState) "Replaced by operator steer")
    |>.recordTerminalArtifactTraces now [a.target]

/-- What a steer that finds its target interrupted writes. -/
def finishInterruptedSteer (s : Store) (now : Time) (a : FinalizeSteer) (w : Worker)
    (replacementQueued : Bool) : Store :=
  s.steerToReplacement now a w
    [(a.target, "run.interrupted", "Worker interrupted for operator steer"),
      (a.replacement, "worker.steer", "Replacement steer instruction preserved")]
    replacementQueued

/-- What a steer that interrupts its target writes. -/
def finishSteer (s : Store) (now : Time) (a : FinalizeSteer) (w : Worker)
    (replacementQueued : Bool) : Store :=
  (s.steerTarget now a).steerToReplacement now a w
    [(a.target, "run." ++ (steeredState a.expectedState).text, "Run replaced by operator steer"),
      (a.target, "worker.interrupted", "Worker interrupted for operator steer"),
      (a.replacement, "worker.steer",
        if replacementQueued then "Replacement steer instruction queued"
        else "Replacement steer instruction preserved")]
    replacementQueued

/-- The reserved replacement of a steer claim. -/
def steerReplacement (s : Store) (a : FinalizeSteer) : Option Run :=
  (s.runs.get? a.replacement).filter fun r => r.workerId == a.workerId &&
    oneOf r.state (.queued :: RunState.terminal) && r.instruction == a.instruction

/-- A live target may be steered: it is in the expected state, and unless that is the queue the
runtime effect is proved. -/
def steerable (a : FinalizeSteer) (w : Worker) (r : Run) : Bool :=
  !(r.state != a.expectedState ||
    (a.expectedState != .queued && !workerControlRuntimeProofMatches w))

/-- `finalize_worker_steer_claim`. The attempt of the target is left as it is. -/
def finalizeWorkerSteerClaim (s : Store) (now : Time) (a : FinalizeSteer) :
    Outcome (Option ControlResult) :=
  match (s.ownedWorkerFor a.workerId a.token a.epoch .steerRun (some a.target)).filter
      (fun w => w.release.replacementRunId == some a.replacement),
      (s.runs.get? a.target).filter (fun r => r.workerId == a.workerId),
      s.steerReplacement a with
  | some w, some r, some q =>
    if r.startedAt != w.release.targetStartedAt then .commit s none
    else if r.state == .interrupted then
      .commit (s.finishInterruptedSteer now a w (q.state == .queued)) (some .alreadyInterrupted)
    else if oneOf r.state RunState.terminal then
      .commit (s.steerTerminalWon now a w) (some .terminalWon)
    else if !steerable a w r then .commit s none
    else .commit (s.finishSteer now a w (q.state == .queued)) (some .transitioned)
  | _, _, _ => .commit s none

/-! ## Termination -/

/-- What an ended worker does to its runs and what follows them. Unlike a stop it looks at neither
the target nor its generation. -/
def endWork (s : Store) (now : Time) (workerId : WorkerId) (errorText : String) : Store :=
  let runIds := s.nonterminalRuns workerId
  let open' : Attempt → Bool := fun a =>
    (s.runs.get? a.runId).any (fun r => r.workerId == workerId) && a.endedAt.isNone
  s
    |>.updateRuns now (fun _ r => r.workerId == workerId && oneOf r.state RunState.nonterminal)
        (Run.conclude now .cancelled errorText)
    |>.updateAttempts (fun _ a => open' a)
        (Attempt.finish now (.of .cancelled) "worker_terminated")
    |>.appendAttemptTraces now ((s.attempts.select fun _ a => open' a).map Prod.fst)
    |>.recordTerminalArtifactTraces now runIds
    |>.cancelWorkerSchedules now workerId errorText
    |>.failPendingActions now workerId none "worker_ended"
    |>.acceptCancelActionsForRuns now runIds
    |>.releaseWorkerLeases now workerId "worker_termination_confirmed"

/-- What a settled termination writes. -/
def finishTermination (s : Store) (now : Time) (workerId : WorkerId) (token : Token) (epoch : ℕ)
    (computeReleasedAt : Time) (fields : RuntimeFields) (errorText : String) (w : Worker) : Store :=
  (s.endWork now workerId errorText)
    |>.enqueueLifecycleEffects now (w.lifecycleKey workerId token .terminateWorker none "")
        ["callback.worker_terminated", "signed_links.revoke_worker"]
    |>.insertLifecycleEvent now
        (w.lifecycleKey workerId token .terminateWorker none "worker.terminated") w.projectId
        "Worker terminated"
    |>.settleClaim now workerId token epoch .terminated fun w =>
        { fields.apply w with computeReleasedAt := some computeReleasedAt }

/-- `finalize_worker_termination_claim`. -/
def finalizeWorkerTerminationClaim (s : Store) (now : Time) (workerId : WorkerId) (token : Token)
    (epoch : ℕ) (computeReleasedAt : Time) (fields : RuntimeFields) (errorText : String) :
    Outcome (Option Worker) :=
  match s.ownedWorker workerId token epoch .terminateWorker with
  | none => .commit s none
  | some w =>
    let s' := s.finishTermination now workerId token epoch computeReleasedAt fields errorText w
    .commit s' (s'.workers.get? workerId)

/-! ## The runs that the finalizers leave -/

section Rows

variable {s : Store} {now : Time} {workerId : WorkerId} {token : Token} {epoch : ℕ}
  {errorText : String} {fields : RuntimeFields} {idleState : WorkerState} {w : Worker}

theorem publishWorkerControl_eq (s : Store) (now : Time) (workerId : WorkerId) (token : Token)
    (w : Worker) (kind : OperationKind) : ∃ events effects,
    s.publishWorkerControl now workerId token w kind =
      { s with events := events, effects := effects } := by
  rw [publishWorkerControl]
  split
  · exact ⟨_, _, rfl⟩
  · exact ⟨s.events, s.effects, rfl⟩

theorem publishStop_eq (s : Store) (now : Time) (workerId : WorkerId) (token : Token) (w : Worker)
    (target : RunId) (cancelled : Bool) : ∃ events effects,
    s.publishStop now workerId token w target cancelled =
      { s with events := events, effects := effects } := by
  cases cancelled
  · exact ⟨_, s.effects, rfl⟩
  · exact ⟨_, _, rfl⟩

theorem runs_releaseCompute (kind : OperationKind) (target : Option RunId)
    (computeReleasedAt : Option Time) :
    (s.releaseCompute now workerId token epoch kind target computeReleasedAt fields idleState
      w).runs = s.runs := by
  obtain ⟨_, _, h⟩ := publishWorkerControl_eq (s.releasePausedTarget now workerId kind target) now
      workerId token w kind
  rw [releaseCompute, h]
  change (s.releasePausedTarget now workerId kind target).runs = s.runs
  unfold releasePausedTarget
  split <;> rfl

theorem runs_finishOperation (s : Store) (now : Time) (workerId : WorkerId) (token : Token)
    (epoch : ℕ) (errorText : String) (fields : RuntimeFields) (idleState : WorkerState) (w : Worker)
    (target : RunId) (expectedStates : List RunState) (targetState : RunState)
    (computeReleasedAt : Option Time) :
    (s.finishOperation now workerId token epoch target expectedStates targetState errorText fields
      idleState computeReleasedAt w).runs =
      if s.concludable workerId w target expectedStates then
        s.runs.update
          (fun id r => claimedGeneration workerId w target id r && oneOf r.state expectedStates)
          fun _ r => Run.triggered now r (Run.conclude now targetState errorText r)
      else s.runs := by
  rw [finishOperation]
  split <;> rfl

theorem runs_finishStop (target : RunId) (computeReleasedAt : Option Time) (cancelled : Bool) :
    (s.finishStop now workerId token epoch target fields computeReleasedAt errorText w
      cancelled).runs =
      s.runs.update (fun _ r => r.workerId == workerId && oneOf r.state RunState.nonterminal)
        fun _ r => Run.triggered now r (stoppedRow now errorText r) := by
  obtain ⟨_, _, h⟩ := publishStop_eq (s.stopWork now workerId errorText) now workerId token w target
      cancelled
  rw [finishStop, h]
  rfl

theorem runs_finishControl (a : FinalizeControl) (r : Run) :
    (s.finishControl now a w r).runs =
      s.runs.update
        (fun id q => id == a.target && q.workerId == a.workerId && oneOf q.state a.expectedStates)
        fun _ q => Run.triggered now q (a.targetRow s.settings now q) := by
  rw [finishControl]
  change (moveTarget s now a r).runs = _
  rw [moveTarget]
  split <;> rfl

theorem runs_controlTerminalWon (a : FinalizeControl) :
    (s.controlTerminalWon now a w).runs = s.runs := rfl

theorem runs_steerToReplacement (a : FinalizeSteer) (events : List (RunId × String × String))
    (replacementQueued : Bool) :
    (s.steerToReplacement now a w events replacementQueued).runs = s.runs := by
  cases replacementQueued <;> rfl

theorem runs_finishInterruptedSteer (a : FinalizeSteer) (replacementQueued : Bool) :
    (s.finishInterruptedSteer now a w replacementQueued).runs = s.runs :=
  runs_steerToReplacement _ _ _

theorem runs_finishSteer (a : FinalizeSteer) (replacementQueued : Bool) :
    (s.finishSteer now a w replacementQueued).runs =
      s.runs.update
        (fun id r => id == a.target && r.workerId == a.workerId && r.state == a.expectedState)
        fun _ r => Run.triggered now r
          (Run.conclude now (steeredState a.expectedState) "Replaced by operator steer" r) :=
  runs_steerToReplacement _ _ _

theorem runs_steerTerminalWon (a : FinalizeSteer) :
    (s.steerTerminalWon now a w).runs =
      s.runs.update
        (fun id r => id == a.replacement && r.workerId == a.workerId && r.state == .queued)
        fun _ r => Run.triggered now r { r with
          state := .cancelled, endedAt := some now,
          errorText := "Steer replacement suppressed because target completed" } := rfl

theorem runs_finishTermination (computeReleasedAt : Time) :
    (s.finishTermination now workerId token epoch computeReleasedAt fields errorText w).runs =
      s.runs.update (fun _ r => r.workerId == workerId && oneOf r.state RunState.nonterminal)
        fun _ r => Run.triggered now r (Run.conclude now .cancelled errorText r) := rfl

end Rows

/-! ## What the finalizers can do -/

section Cases

variable {s : Store} {now : Time} {workerId : WorkerId} {token : Token} {epoch : ℕ}
  {kind : OperationKind} {errorText : String} {fields : RuntimeFields} {idleState : WorkerState}
  {w : Worker} {r : Run}

/-- The owner of a claim finds its worker under the token, epoch and kind. -/
theorem ownedWorker_eq_some (h : s.ownedWorker workerId token epoch kind = some w) :
    s.workers.get? workerId = some w ∧ w.ownedBy token epoch = true ∧
      w.release.kind = some kind ∧ w.release.scope = kind.scope := by
  obtain ⟨hw, hok⟩ := Option.filter_eq_some_iff.mp h
  simp only [Bool.and_eq_true, beq_iff_eq] at hok
  exact ⟨hw, hok.1.1, hok.1.2, hok.2⟩

theorem ownedWorkerFor_eq_some {target : Option RunId}
    (h : s.ownedWorkerFor workerId token epoch kind target = some w) :
    s.ownedWorker workerId token epoch kind = some w ∧ w.release.targetRunId = target := by
  obtain ⟨hw, hok⟩ := Option.filter_eq_some_iff.mp h
  exact ⟨hw, by simpa using hok⟩

theorem finalizeWorkerOperationClaim_of_owned {target : RunId} {expectedStates : List RunState}
    {targetState : RunState} {computeReleasedAt : Option Time}
    (hstate : targetState ∈ RunState.terminal)
    (hw : s.ownedWorkerFor workerId token epoch .maxDuration (some target) = some w) :
    (s.finalizeWorkerOperationClaim now workerId token epoch .maxDuration target expectedStates
        targetState errorText fields idleState computeReleasedAt).store =
      s.finishOperation now workerId token epoch target expectedStates targetState errorText
        fields idleState computeReleasedAt w := by
  rw [finalizeWorkerOperationClaim, hw]
  simp [hstate]

theorem finalizeWorkerOperationClaim_cases (s : Store) (now : Time) (workerId : WorkerId)
    (token : Token) (epoch : ℕ) (kind : OperationKind) (target : RunId)
    (expectedStates : List RunState) (targetState : RunState) (errorText : String)
    (fields : RuntimeFields) (idleState : WorkerState) (computeReleasedAt : Option Time) :
    (s.finalizeWorkerOperationClaim now workerId token epoch kind target expectedStates targetState
        errorText fields idleState computeReleasedAt).store = s ∨
      ∃ w, kind = .maxDuration ∧ targetState ∈ RunState.terminal ∧
        s.ownedWorkerFor workerId token epoch .maxDuration (some target) = some w ∧
        (s.finalizeWorkerOperationClaim now workerId token epoch kind target expectedStates
          targetState errorText fields idleState computeReleasedAt).store =
          s.finishOperation now workerId token epoch target expectedStates targetState errorText
            fields idleState computeReleasedAt w := by
  rw [finalizeWorkerOperationClaim]
  split
  · exact Or.inl rfl
  rename_i hkind
  split
  · exact Or.inl rfl
  rename_i hstate
  split
  · exact Or.inl rfl
  rename_i w hw
  exact Or.inr ⟨w, by simpa using hkind, by simpa using hstate, hw, rfl⟩

/-- What the owner of a stop finds: the claim, the requested stop, and its target, finished or in
the claimed generation. -/
structure Stoppable (s : Store) (workerId : WorkerId) (token : Token) (epoch : ℕ) (target : RunId)
    (w : Worker) (r : Run) : Prop where
  owned : s.ownedWorkerFor workerId token epoch .stopRun (some target) = some w
  requested : w.workStop.id.isSome = true
  get : s.runs.get? target = some r
  worker : r.workerId = workerId
  generation : r.state ∈ RunState.terminal ∨ r.startedAt = w.release.targetStartedAt

/-- The stop cancels its target: it is live. -/
def stopCancels (w : Worker) (r : Run) : Bool :=
  !oneOf r.state RunState.terminal && r.startedAt == w.release.targetStartedAt

theorem finalizeWorkerWorkStopClaim_of_stoppable {target : RunId} {computeReleasedAt : Option Time}
    (h : s.Stoppable workerId token epoch target w r) :
    s.finalizeWorkerWorkStopClaim now workerId token epoch target fields computeReleasedAt
        errorText =
      .commit (s.finishStop now workerId token epoch target fields computeReleasedAt errorText w
        (stopCancels w r)) (some (stopCancels w r)) := by
  have hw : (s.ownedWorkerFor workerId token epoch .stopRun (some target)).filter
      (fun w => w.workStop.id.isSome) = some w :=
    Option.filter_eq_some_iff.mpr ⟨h.owned, h.requested⟩
  have hr : (s.runs.get? target).filter (fun r => r.workerId == workerId) = some r :=
    Option.filter_eq_some_iff.mpr ⟨h.get, by simp [h.worker]⟩
  rw [finalizeWorkerWorkStopClaim, hw]
  dsimp only
  rw [hr]
  dsimp only
  rw [if_neg]
  · rfl
  · rcases h.generation with ht | hg
    · simp [ht]
    · simp [hg]

theorem finalizeWorkerWorkStopClaim_cases (s : Store) (now : Time) (workerId : WorkerId)
    (token : Token) (epoch : ℕ) (target : RunId) (fields : RuntimeFields)
    (computeReleasedAt : Option Time) (errorText : String) :
    ((s.finalizeWorkerWorkStopClaim now workerId token epoch target fields computeReleasedAt
        errorText).store = s ∧ ¬∃ w r, s.Stoppable workerId token epoch target w r) ∨
      ∃ w r, s.Stoppable workerId token epoch target w r ∧
        (s.finalizeWorkerWorkStopClaim now workerId token epoch target fields computeReleasedAt
          errorText).store =
          s.finishStop now workerId token epoch target fields computeReleasedAt errorText w
            (stopCancels w r) := by
  by_cases h : ∃ w r, s.Stoppable workerId token epoch target w r
  · obtain ⟨w, r, hs⟩ := h
    exact Or.inr ⟨w, r, hs, by rw [finalizeWorkerWorkStopClaim_of_stoppable hs]; rfl⟩
  · refine Or.inl ⟨?_, h⟩
    rw [finalizeWorkerWorkStopClaim]
    split
    · rfl
    rename_i w hw
    obtain ⟨hw, hstop⟩ := Option.filter_eq_some_iff.mp hw
    split
    · rfl
    rename_i r hr
    obtain ⟨hr, hworker⟩ := Option.filter_eq_some_iff.mp hr
    dsimp only
    split
    · rfl
    rename_i hgen
    refine absurd ⟨w, r, hw, hstop, hr, by simpa using hworker, ?_⟩ h
    by_contra hnot
    rw [not_or] at hnot
    exact hgen (by simp [hnot.1, hnot.2])

/-- What the owner of a run control finds. -/
structure Controls (s : Store) (a : FinalizeControl) (w : Worker) (r : Run) : Prop where
  kind : a.kind ∈ OperationKind.runControls
  owned : s.ownedWorkerFor a.workerId a.token a.epoch a.kind (some a.target) = some w
  get : s.runs.get? a.target = some r
  worker : r.workerId = a.workerId
  generation : r.startedAt = w.release.targetStartedAt

theorem finalizeWorkerRunControlClaim_of_controls {a : FinalizeControl} (h : s.Controls a w r)
    (hlive : r.state ∉ RunState.terminal) (hcontrol : s.controllable now a w r = true) :
    (s.finalizeWorkerRunControlClaim now a).store = s.finishControl now a w r := by
  have hr : (s.runs.get? a.target).filter (fun r =>
      r.workerId == a.workerId && r.startedAt == w.release.targetStartedAt) = some r :=
    Option.filter_eq_some_iff.mpr ⟨h.get, by simp [h.worker, h.generation]⟩
  have hexpected : a.expectedStates.isEmpty = false := by
    rw [controllable, Bool.and_eq_true, oneOf_eq_true] at hcontrol
    exact List.isEmpty_eq_false_iff.mpr (List.ne_nil_of_mem hcontrol.2)
  rw [finalizeWorkerRunControlClaim, h.owned]
  simp [h.kind, hexpected, hr, hlive, hcontrol]

theorem finalizeWorkerRunControlClaim_cases (s : Store) (now : Time) (a : FinalizeControl) :
    (s.finalizeWorkerRunControlClaim now a).store = s ∨
      ∃ w r, s.Controls a w r ∧
        ((r.state ∈ RunState.terminal ∧ w.state ∉ WorkerState.closed ∧
          (s.finalizeWorkerRunControlClaim now a).store = s.controlTerminalWon now a w) ∨
        (r.state ∉ RunState.terminal ∧ s.controllable now a w r = true ∧
          (s.finalizeWorkerRunControlClaim now a).store = s.finishControl now a w r)) := by
  rw [finalizeWorkerRunControlClaim]
  split
  · exact Or.inl rfl
  rename_i hkind
  split
  · exact Or.inl rfl
  split
  · exact Or.inl rfl
  rename_i w hw
  split
  · exact Or.inl rfl
  rename_i r hr
  obtain ⟨hr, hok⟩ := Option.filter_eq_some_iff.mp hr
  simp only [Bool.and_eq_true, beq_iff_eq] at hok
  have hcontrols : s.Controls a w r := ⟨by simpa using hkind, hw, hr, hok.1, hok.2⟩
  split
  · rename_i hterminal
    split
    · exact Or.inl rfl
    · rename_i hopen
      exact Or.inr ⟨w, r, hcontrols, Or.inl ⟨by simpa using hterminal, by simpa using hopen, rfl⟩⟩
  · rename_i hlive
    split
    · exact Or.inl rfl
    · rename_i hcontrol
      exact Or.inr ⟨w, r, hcontrols, Or.inr ⟨by simpa using hlive, by simpa using hcontrol, rfl⟩⟩

/-- What the owner of a steer finds: its target in the claimed generation, and its replacement. -/
structure Steers (s : Store) (a : FinalizeSteer) (w : Worker) (r q : Run) : Prop where
  owned : s.ownedWorkerFor a.workerId a.token a.epoch .steerRun (some a.target) = some w
  reserved : w.release.replacementRunId = some a.replacement
  get : s.runs.get? a.target = some r
  worker : r.workerId = a.workerId
  generation : r.startedAt = w.release.targetStartedAt
  replacement : s.steerReplacement a = some q

theorem finalizeWorkerSteerClaim_of_steers {a : FinalizeSteer} {q : Run} (h : s.Steers a w r q) :
    (s.finalizeWorkerSteerClaim now a).store =
      if r.state = .interrupted then s.finishInterruptedSteer now a w (q.state == .queued)
      else if r.state ∈ RunState.terminal then s.steerTerminalWon now a w
      else if steerable a w r then s.finishSteer now a w (q.state == .queued)
      else s := by
  have hw : (s.ownedWorkerFor a.workerId a.token a.epoch .steerRun (some a.target)).filter
      (fun w => w.release.replacementRunId == some a.replacement) = some w :=
    Option.filter_eq_some_iff.mpr ⟨h.owned, by simp [h.reserved]⟩
  have hr : (s.runs.get? a.target).filter (fun r => r.workerId == a.workerId) = some r :=
    Option.filter_eq_some_iff.mpr ⟨h.get, by simp [h.worker]⟩
  rw [finalizeWorkerSteerClaim, hw, hr, h.replacement]
  simp only [h.generation, bne_self_eq_false, Bool.false_eq_true, if_false, beq_iff_eq,
    oneOf_eq_true]
  split
  · rfl
  split
  · rfl
  cases steerable a w r <;> rfl

theorem finalizeWorkerSteerClaim_cases (s : Store) (now : Time) (a : FinalizeSteer) :
    (s.finalizeWorkerSteerClaim now a).store = s ∨ ∃ w r q, s.Steers a w r q := by
  rw [finalizeWorkerSteerClaim]
  split
  · rename_i w r q hw hr hq
    obtain ⟨hw, hreserved⟩ := Option.filter_eq_some_iff.mp hw
    obtain ⟨hr, hworker⟩ := Option.filter_eq_some_iff.mp hr
    split
    · exact Or.inl rfl
    rename_i hgen
    exact Or.inr ⟨w, r, q, hw, by simpa using hreserved, hr, by simpa using hworker,
      by simpa using hgen, hq⟩
  · exact Or.inl rfl

theorem finalizeWorkerTerminationClaim_of_owned {computeReleasedAt : Time}
    (hw : s.ownedWorker workerId token epoch .terminateWorker = some w) :
    (s.finalizeWorkerTerminationClaim now workerId token epoch computeReleasedAt fields
        errorText).store =
      s.finishTermination now workerId token epoch computeReleasedAt fields errorText w := by
  rw [finalizeWorkerTerminationClaim, hw]
  rfl

end Cases

end Store

end GlassHive
