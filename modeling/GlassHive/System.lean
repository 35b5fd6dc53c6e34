import GlassHive.Requests
import GlassHive.Library.Transition

/-!
# The store as a transition system

Every transaction is one step: `BEGIN IMMEDIATE` serialises the writers, so the interleavings of
any number of processes are the sequences of their transactions. A call carries the clock it read.
-/

namespace GlassHive

open Relational

/-- Transactions on workers and their permanent close. -/
inductive WorkerOp
  | createProject (tenantId : TenantId)
  | createWorker (w : NewWorker)
  | updateWorker (workerId : WorkerId) (touchUpdatedAt : Bool) (patch : WorkerPatch)
  | updateWorkerUnlessGcClaimed (workerId : WorkerId) (patch : WorkerPatch)
  | beginWorkerTermination (workerId : WorkerId)
  | failWorkerTermination (workerId : WorkerId) (message : String)
  | recordWorkerTerminationCleanupFailure (workerId : WorkerId) (message : String)
  | completeWorkerTermination (workerId : WorkerId) (fields : WorkerPatch)
  | beginWorkerComputeStart (workerId : WorkerId)

/-- Transactions of the garbage collector. -/
inductive GcOp
  | claimEphemeralWorkspaceGc (workerId : WorkerId) (updatedBefore : Time) (claimToken : Token)
      (claimTtl : ℕ) (managedStorageRoot : String)
  | releaseEphemeralWorkspaceGcClaim (workerId : WorkerId) (claimToken : Token)
  | finalizeEphemeralWorkspaceGc (workerId : WorkerId) (claimToken : Token) (updatedBefore : Time)
  | claimWorkspaceGcCleanup (workerId : WorkerId) (claimToken : Token) (claimTtl : ℕ)
  | recordWorkspaceGcCleanup (workerId : WorkerId) (claimToken : Token) (error : Option String)

/-- Transactions on schedules and their principals. -/
inductive ScheduleOp
  | ensureSchedulePrincipalAuthority (tenantId : TenantId) (ownerId : OwnerId)
  | setSchedulePrincipalAuthority (tenantId : TenantId) (ownerId : OwnerId) (enabled : Bool)
  | createScheduledRun (workerId : WorkerId) (projectId : ProjectId) (tenantId : TenantId)
      (ownerId : OwnerId) (instruction : String) (runAt : Time) (requireAuthority : Bool)
  | createRecurringScheduleDefinition (workerId : WorkerId) (projectId : ProjectId)
      (tenantId : TenantId) (ownerId : OwnerId) (nativeScheduler : Bool) (instruction : String)
      (overlapPolicy : OverlapPolicy) (nextRunAt : Time) (enabled requireAuthority : Bool)
  | materializeRecurringScheduleOccurrence (definitionId : DefinitionId)
      (expectedNextRunAt scheduledFor nextRunAt : Time) (dispatchAt : Option Time)
      (state : OccurrenceState) (outcome : String) (deactivateAfter : Bool)
  | claimSchedule (scheduleId : ScheduleId)
  | recoverStaleRecurringOccurrenceClaims
  | finalizeSchedule (scheduleId : ScheduleId) (state : ScheduleState)
      (queuedRunId : Option RunId) (lastError : String)
  | finalizeScheduleForRun (runId : RunId) (state : ScheduleState) (lastError : String)
  | rebindScheduleRun (sourceRunId replacementRunId : RunId)

/-- Transactions that create a run or move it outside a start. -/
inductive RunOp
  | createRun (workerId : WorkerId) (projectId : ProjectId) (instruction : String)
      (runId : Option RunId) (structured resumePaused : Bool) (fence : Option AccountFence)
      (bootstrapBundle : Option JsonValue)
  | createOrGetRunForSchedule (scheduleId : ScheduleId) (runtimeBundle : Option JsonValue)
      (requireAuthority : Bool) (fence : Option AccountFence)
  | reconcileInvalidRunningRuns
  | updateRun (runId : RunId) (state : Option RunState) (patch : RunPatch)
  | transitionRunIfState (runId : RunId) (expectedState state : RunState) (patch : RunPatch)
  | settleRunIfCurrent (runId : RunId) (outputText childSummary : String) (expected : Generation)
  | finalizeRunIfStateParallel (a : FinalizeRun)
  | finalizeRunIfStateLegacy (a : FinalizeRun)
  | cancelPendingRuns (workerId : WorkerId) (errorText : String) (state : RunState)
  | cancelQueuedRunsForWorker (workerId : WorkerId) (errorText : String)
      (excludeRunId : Option RunId)
  | requeueRunForRetry (a : RequeueRetry)
  | replaceQueuedRunIdempotently (source replacement : RunId) (workerId : WorkerId)
      (projectId : ProjectId) (instruction : String)
  | expireQueuedRunIfDue (a : ExpireQueued)

/-- Transactions of a start: claim, lease, admission, invocation and confirmation. -/
inductive StartOp
  | claimNextQueuedRunParallel (workerId : WorkerId) (executorId : Option ExecutorId) (ttl : ℕ)
  | claimNextQueuedRunLegacy (workerId : WorkerId) (requireAuthority : Bool)
  | acquireHostRunLease (a : AcquireLease)
  | heartbeatHostRunLease (leaseId : LeaseId) (executorId : Option ExecutorId)
      (identity : HeartbeatIdentity) (ttl : ℕ) (reconciled allowExpired : Bool)
  | releaseHostRunLease (leaseId : LeaseId) (executorId : Option ExecutorId) (reason : String)
  | reconcileDeadHostRunLease (leaseId : LeaseId) (runId : RunId) (attemptId : Option AttemptId)
      (executorId : ExecutorId) (reason : String)
  | releaseExpiredPreacceptHostRunLease (leaseId : LeaseId) (runId : RunId) (reason : String)
  | admitClaimedRun (runId : RunId) (leaseId : LeaseId) (executorId : ExecutorId)
  | markRunRuntimeInvoked (runId : RunId) (leaseId : LeaseId) (executorId : ExecutorId)
  | confirmHostRunStart (a : ConfirmStart)
  | markHostRunStartTerminationUnconfirmed (leaseId : LeaseId) (runId : RunId)
      (executorId : ExecutorId) (startupToken : Token)
  | requeueUnconfirmedHostRunStart (workerId : WorkerId) (runId : RunId) (leaseId : LeaseId)
      (startupToken : Token) (retryAfter : Time) (errorText : String)

/-- Transactions on the claim of a worker's compute. -/
inductive LifecycleOp
  | tryClaimWorkerComputeRelease (a : ClaimRelease)
  | confirmWorkerControlRuntimeEffect (workerId : WorkerId) (token : Token) (epoch : ℕ)
      (kind : OperationKind) (target : Option RunId)
  | rebindWorkerTerminationClaimGeneration (workerId : WorkerId) (token : Token) (epoch : ℕ)
      (containerId : Option RowId)
  | rebindWorkerComputeReleaseClaimGeneration (workerId : WorkerId) (token : Token) (epoch : ℕ)
      (kind : OperationKind) (containerId : Option RowId)
  | abandonWorkerRunControlClaim (workerId : WorkerId) (token : Token) (epoch : ℕ)
      (kind : OperationKind) (target : Option RunId) (workerState : WorkerState)
      (lastError : String)
  | abandonStaleWorkerComputeReleaseClaim (workerId : WorkerId) (token : Token) (epoch : ℕ)
      (kind : OperationKind)
  | finalizeWorkerComputeRelease (workerId : WorkerId) (token : Token) (epoch : ℕ)
      (kind : OperationKind) (target : Option RunId) (computeReleasedAt : Option Time)
      (fields : RuntimeFields) (idleState : WorkerState)
  | finalizeWorkerOperationClaim (workerId : WorkerId) (token : Token) (epoch : ℕ)
      (kind : OperationKind) (target : RunId) (expectedStates : List RunState)
      (targetState : RunState) (errorText : String) (fields : RuntimeFields)
      (idleState : WorkerState) (computeReleasedAt : Option Time)
  | finalizeWorkerWorkStopClaim (workerId : WorkerId) (token : Token) (epoch : ℕ) (target : RunId)
      (fields : RuntimeFields) (computeReleasedAt : Option Time) (errorText : String)
  | finalizeWorkerRunControlClaim (a : FinalizeControl)
  | finalizeWorkerSteerClaim (a : FinalizeSteer)
  | finalizeWorkerTerminationClaim (workerId : WorkerId) (token : Token) (epoch : ℕ)
      (computeReleasedAt : Time) (fields : RuntimeFields) (errorText : String)

/-- Transactions on provider requests and on runs that wait for input. -/
inductive RequestOp
  | claimProviderRequestCancel (requestId : RequestId)
  | reconcileCancelledProviderNeedsInputRuns (workerId : WorkerId) (only : Option RunId)
  | arbitrateProviderRequestDeadline (requestId : RequestId) (defaultTimeout : ℕ)
      (f : DeadlineFailure)
  | resumeNeedsInputActiveWorkAction (actionUseId : RowId) (workerId : WorkerId) (runId : RunId)
      (executorId : ExecutorId)

/-- A transaction of the store. -/
inductive Op
  | worker (op : WorkerOp)
  | gc (op : GcOp)
  | schedule (op : ScheduleOp)
  | run (op : RunOp)
  | start (op : StartOp)
  | lifecycle (op : LifecycleOp)
  | request (op : RequestOp)

/-- A transaction with the clock it reads. -/
structure Call where
  now : Time
  op : Op

namespace Store

/-- The store after a worker transaction. -/
def applyWorker (s : Store) (now : Time) : WorkerOp → Store
  | .createProject tenantId => (s.createProject now tenantId).store
  | .createWorker w => (s.createWorker now w).store
  | .updateWorker workerId touch patch => (s.updateWorker now workerId touch patch).store
  | .updateWorkerUnlessGcClaimed workerId patch =>
    (s.updateWorkerUnlessGcClaimed now workerId patch).store
  | .beginWorkerTermination workerId => (s.beginWorkerTermination now workerId).store
  | .failWorkerTermination workerId message =>
    (s.failWorkerTermination now workerId message).store
  | .recordWorkerTerminationCleanupFailure workerId message =>
    (s.recordWorkerTerminationCleanupFailure now workerId message).store
  | .completeWorkerTermination workerId fields =>
    (s.completeWorkerTermination now workerId fields).store
  | .beginWorkerComputeStart workerId => (s.beginWorkerComputeStart now workerId).store

/-- The store after a transaction of the garbage collector. -/
def applyGc (s : Store) (now : Time) : GcOp → Store
  | .claimEphemeralWorkspaceGc workerId updatedBefore token ttl root =>
    (s.claimEphemeralWorkspaceGc workerId updatedBefore now token ttl root).store
  | .releaseEphemeralWorkspaceGcClaim workerId token =>
    (s.releaseEphemeralWorkspaceGcClaim workerId token).store
  | .finalizeEphemeralWorkspaceGc workerId token updatedBefore =>
    (s.finalizeEphemeralWorkspaceGc workerId token updatedBefore now).store
  | .claimWorkspaceGcCleanup workerId token ttl =>
    (s.claimWorkspaceGcCleanup workerId token now ttl).store
  | .recordWorkspaceGcCleanup workerId token error =>
    (s.recordWorkspaceGcCleanup workerId token now error).store

/-- The store after a schedule transaction. -/
def applySchedule (s : Store) (now : Time) : ScheduleOp → Store
  | .ensureSchedulePrincipalAuthority tenantId ownerId =>
    (s.ensureSchedulePrincipalAuthority now tenantId ownerId).store
  | .setSchedulePrincipalAuthority tenantId ownerId enabled =>
    (s.setSchedulePrincipalAuthority now tenantId ownerId enabled).store
  | .createScheduledRun workerId projectId tenantId ownerId instruction runAt require =>
    (s.createScheduledRun now workerId projectId tenantId ownerId instruction runAt require).store
  | .createRecurringScheduleDefinition workerId projectId tenantId ownerId native instruction
      policy nextRunAt enabled require =>
    (s.createRecurringScheduleDefinition now workerId projectId tenantId ownerId native instruction
      policy nextRunAt enabled require).store
  | .materializeRecurringScheduleOccurrence definitionId expected scheduledFor nextRunAt dispatchAt
      state outcome deactivate =>
    (s.materializeRecurringScheduleOccurrence definitionId expected scheduledFor nextRunAt now
      dispatchAt state outcome deactivate).store
  | .claimSchedule scheduleId => (s.claimSchedule now scheduleId).store
  | .recoverStaleRecurringOccurrenceClaims => (s.recoverStaleRecurringOccurrenceClaims now).store
  | .finalizeSchedule scheduleId state queuedRunId lastError =>
    (s.finalizeSchedule now scheduleId state queuedRunId lastError).store
  | .finalizeScheduleForRun runId state lastError =>
    (s.finalizeScheduleForRun now runId state lastError).store
  | .rebindScheduleRun source replacement => (s.rebindScheduleRun now source replacement).store

/-- The store after a run transaction. -/
def applyRun (s : Store) (now : Time) : RunOp → Store
  | .createRun workerId projectId instruction runId structured resumePaused fence bundle =>
    (s.createRun now workerId projectId instruction runId structured resumePaused fence
      bundle).store
  | .createOrGetRunForSchedule scheduleId bundle require fence =>
    (s.createOrGetRunForSchedule now scheduleId bundle require fence).store
  | .reconcileInvalidRunningRuns => (s.reconcileInvalidRunningRuns now).store
  | .updateRun runId state patch => (s.updateRun now runId state patch).store
  | .transitionRunIfState runId expected state patch =>
    (s.transitionRunIfState now runId expected state patch).store
  | .settleRunIfCurrent runId output summary expected =>
    (s.settleRunIfCurrent now runId output summary expected).store
  | .finalizeRunIfStateParallel a => (s.finalizeRunIfStateParallel now a).store
  | .finalizeRunIfStateLegacy a => (s.finalizeRunIfStateLegacy now a).store
  | .cancelPendingRuns workerId errorText state =>
    (s.cancelPendingRuns now workerId errorText state).store
  | .cancelQueuedRunsForWorker workerId errorText exclude =>
    (s.cancelQueuedRunsForWorker now workerId errorText exclude).store
  | .requeueRunForRetry a => (s.requeueRunForRetry now a).store
  | .replaceQueuedRunIdempotently source replacement workerId projectId instruction =>
    (s.replaceQueuedRunIdempotently now source replacement workerId projectId instruction).store
  | .expireQueuedRunIfDue a => (s.expireQueuedRunIfDue now a).store

/-- The store after a start transaction. -/
def applyStart (s : Store) (now : Time) : StartOp → Store
  | .claimNextQueuedRunParallel workerId executorId ttl =>
    (s.claimNextQueuedRunParallel now workerId executorId ttl).store
  | .claimNextQueuedRunLegacy workerId require =>
    (s.claimNextQueuedRunLegacy now workerId require).store
  | .acquireHostRunLease a => (s.acquireHostRunLease now a).store
  | .heartbeatHostRunLease leaseId executorId identity ttl reconciled allowExpired =>
    (s.heartbeatHostRunLease now leaseId executorId identity ttl reconciled allowExpired).store
  | .releaseHostRunLease leaseId executorId reason =>
    (s.releaseHostRunLease now leaseId executorId reason).store
  | .reconcileDeadHostRunLease leaseId runId attemptId executorId reason =>
    (s.reconcileDeadHostRunLease now leaseId runId attemptId executorId reason).store
  | .releaseExpiredPreacceptHostRunLease leaseId runId reason =>
    (s.releaseExpiredPreacceptHostRunLease now leaseId runId reason).store
  | .admitClaimedRun runId leaseId executorId =>
    (s.admitClaimedRun now runId leaseId executorId).store
  | .markRunRuntimeInvoked runId leaseId executorId =>
    (s.markRunRuntimeInvoked now runId leaseId executorId).store
  | .confirmHostRunStart a => (s.confirmHostRunStart now a).store
  | .markHostRunStartTerminationUnconfirmed leaseId runId executorId token =>
    (s.markHostRunStartTerminationUnconfirmed now leaseId runId executorId token).store
  | .requeueUnconfirmedHostRunStart workerId runId leaseId token retryAfter errorText =>
    (s.requeueUnconfirmedHostRunStart now workerId runId leaseId token retryAfter errorText).store

/-- The store after a lifecycle transaction. -/
def applyLifecycle (s : Store) (now : Time) : LifecycleOp → Store
  | .tryClaimWorkerComputeRelease a => (s.tryClaimWorkerComputeRelease now a).store
  | .confirmWorkerControlRuntimeEffect workerId token epoch kind target =>
    (s.confirmWorkerControlRuntimeEffect now workerId token epoch kind target).store
  | .rebindWorkerTerminationClaimGeneration workerId token epoch containerId =>
    (s.rebindWorkerTerminationClaimGeneration now workerId token epoch containerId).store
  | .rebindWorkerComputeReleaseClaimGeneration workerId token epoch kind containerId =>
    (s.rebindWorkerComputeReleaseClaimGeneration now workerId token epoch kind containerId).store
  | .abandonWorkerRunControlClaim workerId token epoch kind target workerState lastError =>
    (s.abandonWorkerRunControlClaim now workerId token epoch kind target workerState
      lastError).store
  | .abandonStaleWorkerComputeReleaseClaim workerId token epoch kind =>
    (s.abandonStaleWorkerComputeReleaseClaim now workerId token epoch kind).store
  | .finalizeWorkerComputeRelease workerId token epoch kind target releasedAt fields idleState =>
    (s.finalizeWorkerComputeRelease now workerId token epoch kind target releasedAt fields
      idleState).store
  | .finalizeWorkerOperationClaim workerId token epoch kind target expected state errorText fields
      idleState releasedAt =>
    (s.finalizeWorkerOperationClaim now workerId token epoch kind target expected state errorText
      fields idleState releasedAt).store
  | .finalizeWorkerWorkStopClaim workerId token epoch target fields releasedAt errorText =>
    (s.finalizeWorkerWorkStopClaim now workerId token epoch target fields releasedAt
      errorText).store
  | .finalizeWorkerRunControlClaim a => (s.finalizeWorkerRunControlClaim now a).store
  | .finalizeWorkerSteerClaim a => (s.finalizeWorkerSteerClaim now a).store
  | .finalizeWorkerTerminationClaim workerId token epoch releasedAt fields errorText =>
    (s.finalizeWorkerTerminationClaim now workerId token epoch releasedAt fields errorText).store

/-- The store after a transaction on a provider request. -/
def applyRequest (s : Store) (now : Time) : RequestOp → Store
  | .claimProviderRequestCancel requestId => (s.claimProviderRequestCancel now requestId).store
  | .reconcileCancelledProviderNeedsInputRuns workerId only =>
    (s.reconcileCancelledProviderNeedsInputRuns now workerId only).store
  | .arbitrateProviderRequestDeadline requestId timeout f =>
    (s.arbitrateProviderRequestDeadline now requestId timeout f).store
  | .resumeNeedsInputActiveWorkAction actionUseId workerId runId executorId =>
    (s.resumeNeedsInputActiveWorkAction now actionUseId workerId runId executorId).store

/-- One transaction. -/
def step (s : Store) (c : Call) : Store :=
  match c.op with
  | .worker op => s.applyWorker c.now op
  | .gc op => s.applyGc c.now op
  | .schedule op => s.applySchedule c.now op
  | .run op => s.applyRun c.now op
  | .start op => s.applyStart c.now op
  | .lifecycle op => s.applyLifecycle c.now op
  | .request op => s.applyRequest c.now op

/-- The stores that sequences of transactions reach from a new database. -/
def Reachable (s : Store) : Prop :=
  ∃ (settings : Settings) (calls : List Call), s = Transition.run step (Store.init settings) calls

/-- The store that transactions leave of a new database under the default settings. -/
def fromCalls (calls : List Call) : Store :=
  Transition.run step (Store.init Settings.default) calls

theorem reachable_fromCalls (calls : List Call) : (fromCalls calls).Reachable :=
  ⟨Settings.default, calls, rfl⟩

/-! ## What some transactions leave -/

/-- An acquisition writes to the leases and records the capacity. -/
theorem acquireHostRunLease_store (s : Store) (now : Time) (a : AcquireLease) :
    ∃ leases capacityAttempts workTrace n, s.nextId ≤ n ∧ (s.acquireHostRunLease now a).store =
      { s with leases, capacityAttempts, workTrace, nextId := n } := by
  have hsame : ∃ leases capacityAttempts workTrace n, s.nextId ≤ n ∧ s =
      { s with leases, capacityAttempts, workTrace, nextId := n } := ⟨_, _, _, _, le_rfl, rfl⟩
  have hrecord : ∀ (leases : Table LeaseId Lease) (n : ℕ) (attemptId : Option AttemptId),
      s.nextId ≤ n → ∃ leases' capacityAttempts workTrace n', s.nextId ≤ n' ∧
        Store.recordCapacity { s with leases, nextId := n } a now attemptId =
          { s with leases := leases', capacityAttempts, workTrace, nextId := n' } := by
    intro leases n attemptId hn
    rw [recordCapacity]
    split
    · exact ⟨_, _, _, n, hn, rfl⟩
    · exact ⟨_, _, _, n, hn, rfl⟩
  unfold acquireHostRunLease
  split
  · split
    · exact hsame
    split
    · exact ⟨_, _, _, _, le_rfl, rfl⟩
    · exact hsame
  split
  · exact hsame
  split
  · exact hsame
  split
  · exact hsame
  dsimp only
  split
  · exact hrecord _ _ _ (Nat.le_succ _)
  split
  · exact hsame
  · exact hrecord _ _ _ ((Nat.le_succ _).trans (Nat.le_succ _))

/-- A transaction on schedules writes to their tables; the revocation of an authority cancels
runs too. -/
theorem applySchedule_store (s : Store) (now : Time) (op : ScheduleOp) :
    (∃ tenantId ownerId enabled, op = .setSchedulePrincipalAuthority tenantId ownerId enabled) ∨
    ∃ authority definitions scheduledRuns occurrences n, s.nextId ≤ n ∧ s.applySchedule now op =
      { s with authority, definitions, scheduledRuns, occurrences, nextId := n } := by
  have hsame : ∃ authority definitions scheduledRuns occurrences n, s.nextId ≤ n ∧ s =
      { s with authority, definitions, scheduledRuns, occurrences, nextId := n } :=
    ⟨_, _, _, _, _, le_rfl, rfl⟩
  have hdrawn := Nat.le_succ s.nextId
  cases op with
  | setSchedulePrincipalAuthority tenantId ownerId enabled =>
    exact Or.inl ⟨tenantId, ownerId, enabled, rfl⟩
  | createScheduledRun =>
    right
    rw [applySchedule, createScheduledRun]
    repeat' split
    all_goals first | exact hsame | exact ⟨_, _, _, _, _, hdrawn, rfl⟩
  | createRecurringScheduleDefinition =>
    right
    rw [applySchedule, createRecurringScheduleDefinition]
    repeat' split
    all_goals first | exact hsame | exact ⟨_, _, _, _, _, hdrawn, rfl⟩
  | materializeRecurringScheduleOccurrence =>
    right
    rw [applySchedule]
    unfold materializeRecurringScheduleOccurrence
    split
    · exact hsame
    split
    · exact hsame
    dsimp only
    split
    · exact ⟨_, _, _, _, _, hdrawn.trans (Nat.le_succ _), rfl⟩
    · exact hsame
  | claimSchedule =>
    right
    rw [applySchedule, claimSchedule]
    split
    · exact hsame
    dsimp only
    split <;> exact ⟨_, _, _, _, _, le_rfl, rfl⟩
  | ensureSchedulePrincipalAuthority => exact Or.inr ⟨_, _, _, _, _, le_rfl, rfl⟩
  | recoverStaleRecurringOccurrenceClaims => exact Or.inr ⟨_, _, _, _, _, le_rfl, rfl⟩
  | finalizeSchedule => exact Or.inr ⟨_, _, _, _, _, le_rfl, rfl⟩
  | finalizeScheduleForRun => exact Or.inr ⟨_, _, _, _, _, le_rfl, rfl⟩
  | rebindScheduleRun => exact Or.inr ⟨_, _, _, _, _, le_rfl, rfl⟩

/-- The transaction finalizes the collection of the ephemeral workspace `w`: it holds the
tombstone, and no work is in the way. -/
structure Collects (s : Store) (now : Time) (op : GcOp) (workerId : WorkerId) (w : Worker) : Prop
    where
  held : ∃ token updatedBefore, op = .finalizeEphemeralWorkspaceGc workerId token updatedBefore ∧
    (s.heldTombstone workerId token).isSome = true
  row : s.workers.get? workerId = some w
  kind : w.workspaceKind = .ephemeral
  claimed : w.state = .gcClaimed
  idle : s.gcWorkBlocker workerId now = false

/-- A transaction of the garbage collector rewrites workers in place, or deletes what belongs to
one. -/
theorem applyGc_store (s : Store) (now : Time) (op : GcOp) :
    (∃ workers tombstones pendingChanges, (∀ id, (workers.get? id).isSome =
        (s.workers.get? id).isSome) ∧
      s.applyGc now op = { s with workers, tombstones, pendingChanges }) ∨
    ∃ workerId w pendingChanges s₁ tombstones, s.Collects now op workerId w ∧
      Store.gcDelete { s with pendingChanges } workerId w.projectId = .ok s₁ ∧
      s.applyGc now op = { s₁ with tombstones } := by
  have hblock : ∀ workerId projectId, ∃ pendingChanges,
      (s.ephemeralGcHasBlocker workerId projectId now).2 = { s with pendingChanges } := by
    intro workerId projectId
    rw [ephemeralGcHasBlocker]
    split <;> exact ⟨_, rfl⟩
  have hkept : ∀ tombstones pendingChanges, ∃ workers tombstones' pendingChanges',
      (∀ id, (workers.get? id).isSome = (s.workers.get? id).isSome) ∧
      { s with tombstones, pendingChanges } =
        { s with workers, tombstones := tombstones', pendingChanges := pendingChanges' } :=
    fun _ _ => ⟨_, _, _, fun _ => rfl, rfl⟩
  cases op with
  | claimEphemeralWorkspaceGc workerId =>
    left
    rw [applyGc, claimEphemeralWorkspaceGc]
    split
    · exact hkept _ _
    rename_i w _
    obtain ⟨pendingChanges, hblock⟩ := hblock workerId w.projectId
    split
    · exact hkept _ _
    split
    · split
      · exact hkept _ _
      dsimp only
      rw [hblock]
      split
      · exact ⟨_, _, _, fun id => by simp [restoreGcClaimed, Table.get?_update], rfl⟩
      · exact hkept _ _
    · split
      · exact hkept _ _
      dsimp only
      rw [hblock]
      split
      · exact hkept _ _
      split
      · exact hkept _ _
      · exact ⟨_, _, _, fun id => by simp [Table.get?_update], rfl⟩
  | releaseEphemeralWorkspaceGcClaim =>
    left
    rw [applyGc, releaseEphemeralWorkspaceGcClaim]
    split
    · exact hkept _ _
    · exact ⟨_, _, _, fun id => by simp [restoreGcClaimed, Table.get?_update], rfl⟩
  | finalizeEphemeralWorkspaceGc workerId token updatedBefore =>
    rw [applyGc, finalizeEphemeralWorkspaceGc]
    split
    · rename_i w hheld hw
      obtain ⟨pendingChanges, hblock⟩ := hblock workerId w.projectId
      split
      · exact Or.inl (hkept _ _)
      rename_i hready
      simp only [Bool.not_eq_true', Bool.not_eq_false, Bool.and_eq_true, beq_iff_eq] at hready
      dsimp only
      rw [hblock]
      split
      · exact Or.inl (hkept _ _)
      rename_i hfree
      split
      · exact Or.inl (hkept _ _)
      · rename_i hdelete
        refine Or.inr ⟨_, _, _, _, _, ⟨⟨token, updatedBefore, rfl, by rw [hheld]; rfl⟩, hw,
          hready.1.1, hready.1.2, ?_⟩, hdelete, rfl⟩
        cases hwork : s.gcWorkBlocker workerId now with
        | false => rfl
        | true => exact absurd (by rw [ephemeralGcHasBlocker, hwork]; rfl) hfree
    · exact Or.inl (hkept _ _)
  | claimWorkspaceGcCleanup =>
    left
    rw [applyGc, claimWorkspaceGcCleanup]
    split
    · exact hkept _ _
    split
    · exact hkept _ _
    split <;> exact hkept _ _
  | recordWorkspaceGcCleanup => exact Or.inl (hkept _ _)

end Store

/-! ## A first run -/

/-- An ephemeral host workspace in the first project. -/
def firstWorker : NewWorker where
  projectId := 0
  tenantId := 0
  ownerId := 0
  profile := "codex-cli"
  executionMode := "host"
  trustedRunLane := "mission"
  workspaceKind := .ephemeral
  runtime := "host-process"
  model := ""
  bootstrapBundle := none
  duplicationReport := ⟨[], []⟩
  parallelCleanRoom := false
  workspaceRoot := ""

/-- A project `0` with a worker `1`. -/
def withWorker : List Call :=
  [⟨1, .worker (.createProject 0)⟩, ⟨2, .worker (.createWorker firstWorker)⟩]

/-- A queued run `3` of worker `1`. -/
def withQueuedRun : List Call :=
  withWorker ++ [⟨3, .run (.createRun 1 0 "first" none true false none none)⟩]

/-- The run is claimed by executor `9`, with attempt `4`. -/
def withClaimedRun : List Call :=
  withQueuedRun ++ [⟨4, .start (.claimNextQueuedRunParallel 1 (some 9) 30)⟩]

/-- A run `.schedule 3` that a schedule of a principal without an authority row queued on worker
`1`. -/
def withScheduledRun : List Call :=
  withWorker ++
    [⟨3, .schedule (.createScheduledRun 1 0 0 7 "scheduled" 3 false)⟩,
     ⟨4, .schedule (.claimSchedule 3)⟩,
     ⟨5, .run (.createOrGetRunForSchedule 3 none false none)⟩]

end GlassHive
