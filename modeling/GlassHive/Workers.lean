import GlassHive.Store

/-!
# Workers and permanent close

Creation, the generic column update, and the termination family: a close is published as
`terminating` before any runtime is torn down, and only the close family moves it further.
-/

namespace GlassHive

open Relational

namespace Store

/-! ## Projects and workers -/

/-- `create_project`. -/
def createProject (s : Store) (now : Time) (tenantId : TenantId) : Outcome (Option ProjectId) :=
  match s.projects.insert? s.nextId { tenantId := tenantId, createdAt := now } with
  | none => .raise s (.integrity "projects.project_id")
  | some projects => .commit { s.drawId with projects := projects } (some s.nextId)

end Store

/-- The columns a caller of `create_worker` chooses. -/
structure NewWorker where
  projectId : ProjectId
  tenantId : TenantId
  ownerId : OwnerId
  profile : String
  executionMode : String
  trustedRunLane : String
  workspaceKind : WorkspaceKind
  runtime : String
  model : String
  bootstrapBundle : Option JsonValue
  duplicationReport : DuplicationReport
  parallelCleanRoom : Bool
  workspaceRoot : String

/-- The row `create_worker` inserts. -/
def NewWorker.row (w : NewWorker) (now : Time) : Worker where
  projectId := w.projectId
  tenantId := w.tenantId
  ownerId := w.ownerId
  profile := w.profile
  executionMode := w.executionMode
  trustedRunLane := w.trustedRunLane
  workspaceKind := w.workspaceKind
  runtime := w.runtime
  model := w.model
  bootstrapBundle := w.bootstrapBundle
  duplicationReport := some w.duplicationReport
  parallelCleanRoom := w.parallelCleanRoom
  state := .created
  computeReleasedAt := none
  release := .clear
  releaseEpoch := 0
  workStop := .clear
  pid := none
  lastRunId := none
  lastError := ""
  stateDir := ""
  workspaceDir := ""
  workspaceRoot := w.workspaceRoot
  createdAt := now
  updatedAt := now

namespace Store

/-- `create_worker`. -/
def createWorker (s : Store) (now : Time) (w : NewWorker) : Outcome (Option WorkerId) :=
  if (s.projects.get? w.projectId).isNone then .raise s (.integrity "workers.project_id")
  else match s.workers.insert? s.nextId (w.row now) with
    | none => .raise s (.integrity "workers.worker_id")
    | some workers =>
      .commit ({ s.drawId with workers := workers }.addEvent now w.projectId s.nextId none
        "worker.created" "Worker created") (some s.nextId)

/-! ## Generic updates -/

end Store

/-- The columns callers of `update_worker` assign. `clearRelease` stands for
`COMPUTE_OPERATION_CLEAR_FIELDS`. -/
structure WorkerPatch where
  state : Option WorkerState
  lastError : Option String
  computeReleasedAt : Option (Option Time)
  clearRelease : Bool
  pid : Option (Option ℕ)
  lastRunId : Option (Option RunId)
  profile : Option String
  runtime : Option String
  model : Option String
  bootstrapBundle : Option (Option JsonValue)
  duplicationReport : Option (Option DuplicationReport)
  stateDir : Option String
  workspaceDir : Option String

/-- No column is assigned. -/
def WorkerPatch.none : WorkerPatch where
  state := .none
  lastError := .none
  computeReleasedAt := .none
  clearRelease := false
  pid := .none
  lastRunId := .none
  profile := .none
  runtime := .none
  model := .none
  bootstrapBundle := .none
  duplicationReport := .none
  stateDir := .none
  workspaceDir := .none

/-- The assignments of `UPDATE workers SET …`. -/
def WorkerPatch.apply (p : WorkerPatch) (w : Worker) : Worker :=
  { w with
    state := p.state.getD w.state
    lastError := p.lastError.getD w.lastError
    computeReleasedAt := p.computeReleasedAt.getD w.computeReleasedAt
    release := if p.clearRelease then .clear else w.release
    pid := p.pid.getD w.pid
    lastRunId := p.lastRunId.getD w.lastRunId
    profile := p.profile.getD w.profile
    runtime := p.runtime.getD w.runtime
    model := p.model.getD w.model
    bootstrapBundle := p.bootstrapBundle.getD w.bootstrapBundle
    duplicationReport := p.duplicationReport.getD w.duplicationReport
    stateDir := p.stateDir.getD w.stateDir
    workspaceDir := p.workspaceDir.getD w.workspaceDir }

/-- `protect_close`: a state outside the close family is not written over one inside it. -/
def WorkerPatch.allowed (p : WorkerPatch) (w : Worker) : Bool :=
  match p.state with
  | .none => true
  | some st => oneOf st WorkerState.closed || !oneOf w.state WorkerState.closed

namespace Store

/-- `update_worker`. -/
def updateWorker (s : Store) (now : Time) (workerId : WorkerId) (touchUpdatedAt : Bool)
    (patch : WorkerPatch) : Outcome (Option Worker) :=
  let s' := s.updateWorkers (fun id w => id == workerId && patch.allowed w) fun w =>
    let w := patch.apply w
    if touchUpdatedAt then { w with updatedAt := now } else w
  .commit s' (s'.workers.get? workerId)

/-- A tombstone that still owns the workspace. -/
def workspaceGcClaimActive (s : Store) (workerId : WorkerId) : Bool :=
  s.tombstones.any fun id t => id == workerId && oneOf t.phase [.claimed, .cleanupPending]

/-- `update_worker_unless_gc_claimed`. -/
def updateWorkerUnlessGcClaimed (s : Store) (now : Time) (workerId : WorkerId)
    (patch : WorkerPatch) : Outcome (Option Worker) :=
  if s.workspaceGcClaimActive workerId then .commit s none
  else
    let changed := s.workers.any fun id w => id == workerId && patch.allowed w
    let s' := s.updateWorkers (fun id w => id == workerId && patch.allowed w) fun w =>
      { patch.apply w with updatedAt := now }
    .commit s' (if changed then s'.workers.get? workerId else none)

/-! ## Termination -/

/-- `begin_worker_termination`. The flag says whether this call published the close. -/
def beginWorkerTermination (s : Store) (now : Time) (workerId : WorkerId) :
    Outcome (Option Worker × Bool) :=
  match s.workers.get? workerId with
  | none => .commit s (none, false)
  | some w =>
    if oneOf w.state [.terminating, .terminated] then .commit s (some w, false)
    else
      let s' := s
        |>.updateWorkers (fun id _ => id == workerId)
            (fun w => { w with state := .terminating, lastError := "", updatedAt := now })
        |>.updateOccurrences
            (fun _ o => (s.scheduledRuns.any fun id r =>
                id == o.scheduledRunId && r.workerId == workerId) &&
              !oneOf o.state OccurrenceState.terminal)
            (fun o => { o with
              state := .cancelled, outcome := "workspace_closed", terminalAt := some now })
        |>.updateScheduledRuns
            (fun _ r => r.workerId == workerId && !oneOf r.state [.completed, .failed, .cancelled])
            (fun r => { r with
              state := .cancelled, lastError := "workspace_closed", updatedAt := now })
        |>.updateDefinitions (fun _ d => d.workerId == workerId && d.active)
            (fun d => { d with enabled := false, active := false, updatedAt := now })
      .commit s' (s'.workers.get? workerId, true)

/-- `fail_worker_termination`. -/
def failWorkerTermination (s : Store) (now : Time) (workerId : WorkerId) (message : String) :
    Outcome (Option Worker) :=
  let s' := s.updateWorkers (fun id w => id == workerId && w.state == .terminating)
    fun w => { w with state := .terminationFailed, lastError := message, updatedAt := now }
  .commit s' (s'.workers.get? workerId)

/-- `record_worker_termination_cleanup_failure`. -/
def recordWorkerTerminationCleanupFailure (s : Store) (now : Time) (workerId : WorkerId)
    (message : String) : Outcome (Option Worker) :=
  let s' := s.updateWorkers (fun id w => id == workerId && oneOf w.state WorkerState.closed)
    fun w => { w with state := .terminationFailed, lastError := message, updatedAt := now }
  .commit s' (s'.workers.get? workerId)

/-- `complete_worker_termination`. The flag is `changed.rowcount == 1`. -/
def completeWorkerTermination (s : Store) (now : Time) (workerId : WorkerId)
    (fields : WorkerPatch) : Outcome (Option Worker × Bool) :=
  match s.workers.get? workerId with
  | none => .commit s (none, false)
  | some w =>
    if w.state == .terminating then
      let key : LifecycleKey :=
        { operation := .terminate workerId w.updatedAt, epoch := 0,
          operationKind := .terminateWorker, name := "worker.terminated",
          workerId := workerId, runId := none }
      let s' := s
        |>.updateWorkers (fun id w => id == workerId && w.state == .terminating)
            (fun w => { fields.apply w with
              state := .terminated, lastError := "", updatedAt := now })
        |>.enqueueLifecycleEffects now key
            ["callback.worker_terminated", "signed_links.revoke_worker"]
        |>.insertLifecycleEvent now key w.projectId "Worker terminated"
      .commit s' (s'.workers.get? workerId, true)
    else .commit s (some w, false)

end Store

end GlassHive
