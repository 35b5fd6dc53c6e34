import GlassHive.Starts

/-!
# Claims on a worker's compute

One claim at a time owns a worker's compute, under a token and an epoch. A claim is taken fresh, or
taken over once it has expired; a takeover continues the same operation. Rebinding moves a claim to
a new container, and abandoning gives it up.
-/

namespace GlassHive

open Relational

/-! ## Claim columns -/

/-- The material that `confirm_worker_control_runtime_effect` digests. -/
def ComputeRelease.proof (c : ComputeRelease) : ControlProof where
  operationId := c.operationId
  kind := c.kind
  scope := c.scope
  targetRunId := c.targetRunId
  targetStartedAt := c.targetStartedAt
  containerId := c.containerId
  sessionFingerprint := c.sessionFingerprint

/-- `worker_control_runtime_proof_matches`. -/
def workerControlRuntimeProofMatches (w : Worker) : Bool :=
  w.release.runtimeConfirmedAt.isSome && w.release.runtimeProofDigest == some w.release.proof

/-- The claim columns name this token and epoch. -/
def Worker.ownedBy (w : Worker) (token : Token) (epoch : ℕ) : Bool :=
  w.release.token == some token && w.releaseEpoch == epoch

/-- `_compute_release_claim_expired`. -/
def Worker.claimExpired (w : Worker) (now : Time) : Bool :=
  w.release.expiresAt.any fun t => decide (t ≤ now)

/-- The worker gives up its claim. -/
def Worker.clearRelease (w : Worker) : Worker :=
  { w with release := .clear }

/-- The action an operation kind may be bound to. -/
def OperationKind.action : OperationKind → Option String
  | .pauseRun => some "pause"
  | .resumeRun => some "resume"
  | .steerRun => some "steer"
  | .stopRun => some "stop"
  | _ => none

/-- The run that a steer claim reserves as the replacement of its target. -/
structure Replacement where
  runId : RunId
  workerId : WorkerId
  projectId : ProjectId
  tenantId : TenantId
  instruction : String
  state : RunState

/-- The arguments of `try_claim_worker_compute_release`. -/
structure ClaimRelease where
  workerId : WorkerId
  expectedUpdatedAt : Time
  expectedLastRunId : Option RunId
  expectedState : WorkerState
  expectedContainerId : Option RowId
  owner : ExecutorId
  ttl : ℕ
  kind : OperationKind
  scope : Option OperationScope
  targetRunId : Option RunId
  expectedTargetStartedAt : Option Time
  expectedSessionFingerprint : Option RowId
  replacement : Option Replacement
  action : Option (RowId × ExecutorId)

namespace ClaimRelease

/-- The argument combinations that raise before the transaction begins. -/
def invalid (a : ClaimRelease) : Option StoreError :=
  if a.action.isSome && a.kind.action.isNone then
    some (.valueError "Only active-work run controls may bind a lifecycle claim receipt")
  else if a.kind != .steerRun && a.replacement.isSome then
    some (.valueError "Only steer_run may reserve a replacement run")
  else if a.kind == .steerRun && a.replacement.isNone then
    some (.valueError "steer_run requires a durable replacement run")
  else if a.scope.any (· != a.kind.scope) then
    some (.valueError "Worker compute operation requires its own scope")
  else none

/-- The claim a takeover continues is the one that is asked for. -/
def continues (a : ClaimRelease) (c : ComputeRelease) : Bool :=
  c.kind.getD .idle == a.kind && c.scope == a.kind.scope && c.targetRunId == a.targetRunId &&
    c.targetStartedAt == a.expectedTargetStartedAt && c.containerId == a.expectedContainerId &&
    c.sessionFingerprint == a.expectedSessionFingerprint &&
    c.replacementRunId == a.replacement.map Replacement.runId

/-- The kinds a released worker may still be claimed for. -/
def releasedKinds : List OperationKind :=
  [.resumeWorker, .pauseWorker, .resumeRun, .stopRun, .terminateWorker]

/-- The columns of a fresh claim. -/
def release (a : ClaimRelease) (now : Time) (token : Token) (operationId : OperationId)
    (c : ComputeRelease) : ComputeRelease :=
  { c with
    token := some token
    owner := some a.owner
    claimedAt := some now
    expiresAt := some (now + max 30 a.ttl * 1000000)
    kind := some a.kind
    scope := a.kind.scope
    containerId := a.expectedContainerId
    sessionFingerprint := a.expectedSessionFingerprint
    targetRunId := a.targetRunId
    targetStartedAt := a.expectedTargetStartedAt
    terminalRunId := if a.kind == .idle then a.expectedLastRunId else none
    replacementRunId := a.replacement.map Replacement.runId
    operationId := some operationId }

/-- The columns of a takeover: the operation stays the one that was claimed. -/
def takeOver (a : ClaimRelease) (now : Time) (token : Token) (c : ComputeRelease) :
    ComputeRelease :=
  { c with
    token := some token
    owner := some a.owner
    claimedAt := some now
    expiresAt := some (now + max 30 a.ttl * 1000000)
    kind := c.kind <|> some a.kind }

end ClaimRelease

/-- What a claim hands to its owner. -/
structure ClaimReceipt where
  token : Token
  epoch : ℕ
  takeover : Bool
  deriving DecidableEq, Repr

namespace Store

/-! ## Policies -/

/-- A run of the worker in one of the states. -/
def workerHasRun (s : Store) (workerId : WorkerId) (states : List RunState) : Bool :=
  s.runs.any fun _ r => r.workerId == workerId && oneOf r.state states

/-- A run of the worker in one of the states, other than the target. -/
def workerHasOtherRun (s : Store) (workerId : WorkerId) (target : Option RunId)
    (states : List RunState) : Bool :=
  s.runs.any fun id r => r.workerId == workerId && oneOf r.state states && target != some id

/-- The active leases of the worker. -/
def activeLeases (s : Store) (workerId : WorkerId) : List (LeaseId × Lease) :=
  s.leases.select fun _ l => l.workerId == workerId && l.status == .active

/-- An active lease of the worker belongs to another run than the target. -/
def otherActiveLease (s : Store) (workerId : WorkerId) (target : Option RunId) : Bool :=
  (s.activeLeases workerId).any fun e => target != some e.2.runId

/-- Every active lease of the worker belongs to the target or is an untouched reservation. -/
def otherPreacceptOnly (s : Store) (workerId : WorkerId) (target : Option RunId) : Bool :=
  (s.activeLeases workerId).all fun e =>
    target == some e.2.runId || (e.2.startupState == .reserved && e.2.identityFree)

/-- At most one active lease, and none of another run than the target. -/
def leaseShape (s : Store) (workerId : WorkerId) (target : Option RunId) : Bool :=
  decide ((s.activeLeases workerId).length ≤ 1) && !s.otherActiveLease workerId target

/-- The target of a claim, a run of the worker. -/
def claimTarget (s : Store) (a : ClaimRelease) : Option Run :=
  (a.targetRunId.bind s.runs.get?).filter fun r => r.workerId == a.workerId

/-- The shape that a fresh claim on one run requires of its target: the run is in one of the
states. A takeover accepts any state. -/
def targetShape (s : Store) (a : ClaimRelease) (existing : Bool) (states : List RunState) : Bool :=
  (s.claimTarget a).any (fun r => existing || oneOf r.state states) &&
    !s.workerHasOtherRun a.workerId a.targetRunId RunState.processBearing

/-- The shape a `paused` claim requires of its target. -/
def pausedShape (s : Store) (w : Worker) (a : ClaimRelease) (existing : Bool) : Bool :=
  let pausedRuns := (s.runs.select fun _ r =>
    r.workerId == a.workerId && r.state == .paused).map Prod.fst
  if a.targetRunId.isSome then
    oneOf w.state [.paused, .stopping] &&
      !s.workerHasRun a.workerId [.running, .settling, .needsInput] &&
      (pausedRuns.map some == [a.targetRunId] ||
        (existing && pausedRuns.isEmpty &&
          (s.claimTarget a).any fun r => oneOf r.state RunState.terminal)) &&
      s.leaseShape a.workerId a.targetRunId
  else
    !existing && w.state == .paused && !s.workerHasRun a.workerId RunState.nonterminal &&
      (s.activeLeases a.workerId).isEmpty

/-- The policy of each kind. -/
def policyValid (s : Store) (w : Worker) (a : ClaimRelease) (existing : Bool) : Bool :=
  let noLease := (s.activeLeases a.workerId).isEmpty
  match a.kind with
  | .idle =>
    !s.workerHasOtherRun a.workerId a.targetRunId RunState.processBearing && noLease &&
      (existing || !s.workerHasRun a.workerId RunState.nonterminal ||
        ((s.claimTarget a).any (fun r => r.state == .queued) &&
          !s.workerHasRun a.workerId RunState.executing))
  | .needsInput =>
    (s.claimTarget a).any (fun r => r.state == .needsInput) && w.state == .needsInput &&
      !s.workerHasOtherRun a.workerId a.targetRunId [.needsInput] &&
      !s.workerHasOtherRun a.workerId a.targetRunId RunState.processBearing && noLease
  | .pauseWorker =>
    !s.workerHasRun a.workerId RunState.nonterminal && noLease &&
      !oneOf w.state [.stopping, .terminated]
  | .resumeWorker =>
    !s.workerHasRun a.workerId RunState.nonterminal && noLease && w.state == .paused
  | .paused => s.pausedShape w a existing
  | .maxDuration =>
    s.targetShape a existing [.running, .settling] && s.leaseShape a.workerId a.targetRunId
  | .pauseRun =>
    s.targetShape a existing [.queued, .running, .settling] &&
      s.leaseShape a.workerId a.targetRunId
  | .resumeRun => s.targetShape a existing [.paused] && s.leaseShape a.workerId a.targetRunId
  | .interruptRun =>
    s.targetShape a existing [.running, .settling] && s.leaseShape a.workerId a.targetRunId
  | .steerRun =>
    s.targetShape a existing [.queued, .running, .settling] &&
      s.leaseShape a.workerId a.targetRunId
  | .stopRun =>
    s.targetShape a existing RunState.nonterminal &&
      decide ((s.activeLeases a.workerId).length ≤ 1) &&
      (!s.otherActiveLease a.workerId a.targetRunId ||
        s.otherPreacceptOnly a.workerId a.targetRunId)
  | .terminateWorker =>
    decide ((s.runs.select fun _ r =>
      r.workerId == a.workerId && oneOf r.state RunState.processBearing).length ≤ 1) &&
    s.leaseShape a.workerId a.targetRunId &&
    ((a.targetRunId.isNone && !s.workerHasRun a.workerId RunState.processBearing && noLease) ||
      s.targetShape a existing RunState.nonterminal)

/-! ## Action binding -/

/-- `_bind_active_work_action_lifecycle_in_transaction`; nothing when no row is bound. -/
def bindActiveWorkActionLifecycle (s : Store) (now : Time) (actionUseId : RowId)
    (operationId : OperationId) (kind : OperationKind) (target : RunId)
    (executorId : ExecutorId) : Option Store :=
  let bindable : RowId → ActiveWorkAction → Bool := fun id u =>
    id == actionUseId && u.status == "pending" && u.executorId == some executorId &&
      some u.action == kind.action && u.sourceRunId == some target &&
      (u.lifecycleOperationId.isNone || (u.lifecycleOperationId == some operationId &&
        u.lifecycleOperationKind == some kind && u.lifecycleTargetRunId == some target))
  if s.activeWorkActions.any bindable then
    some (s.updateActiveWorkActions bindable fun u => { u with
      lifecycleOperationId := some operationId, lifecycleOperationKind := some kind,
      lifecycleTargetRunId := some target, updatedAt := now })
  else none

/-- Commit a claim, bound to its action when it names one. A claim that cannot be bound is rolled
back. -/
def commitClaim (s s' : Store) (now : Time) (a : ClaimRelease) (operationId : Option OperationId)
    (receipt : ClaimReceipt) : Outcome (Option ClaimReceipt) :=
  match a.action with
  | none => .commit s' (some receipt)
  | some (actionUseId, executorId) =>
    match operationId, a.targetRunId with
    | some operationId, some target =>
      match s'.bindActiveWorkActionLifecycle now actionUseId operationId a.kind target
          executorId with
      | some s'' => .commit s'' (some receipt)
      | none => .commit s none
    | _, _ =>
      .raise s (.valueError "Action lifecycle binding requires an exact owned operation")

/-! ## Claims -/

/-- What both a fresh claim and a takeover require. -/
def claimAllowed (s : Store) (now : Time) (w : Worker) (a : ClaimRelease) : Bool :=
  (w.release.token.isNone || (w.claimExpired now && a.continues w.release)) &&
    (s.claimTarget a).all (fun r =>
      a.expectedTargetStartedAt.isNone || r.startedAt == a.expectedTargetStartedAt) &&
    s.policyValid w a w.release.token.isSome

/-- The worker state that a claim of this kind publishes. -/
def claimedState (kind : OperationKind) (state : WorkerState) : WorkerState :=
  if oneOf kind OperationKind.stopping then .stopping else state

/-- The reserved replacement of a steer takeover is still there and still the same. -/
def replacementKept (s : Store) (a : ClaimRelease) : Bool :=
  a.kind != .steerRun || a.replacement.any fun p => (s.runs.get? p.runId).any fun r =>
    r.workerId == a.workerId && oneOf r.state (.queued :: RunState.terminal) &&
      r.instruction == p.instruction

/-- The columns of a worker whose claim is taken over. -/
def takenOverRow (now : Time) (a : ClaimRelease) (token : Token) (v : Worker) : Worker :=
  { v with
    release := a.takeOver now token v.release
    releaseEpoch := v.releaseEpoch + 1
    state := claimedState a.kind v.state
    updatedAt := now }

/-- A takeover of an expired claim. -/
def takeOverRelease (s : Store) (now : Time) (w : Worker) (a : ClaimRelease) :
    Outcome (Option ClaimReceipt) :=
  if !s.replacementKept a then .commit s none
  else
    s.commitClaim
      (s.drawId.updateWorkers
        (fun id v => id == a.workerId && v.release.token == w.release.token &&
          v.releaseEpoch == w.releaseEpoch)
        (takenOverRow now a s.nextId))
      now a w.release.operationId ⟨s.nextId, w.releaseEpoch + 1, true⟩

/-- The worker is as the caller of a fresh claim observed it. -/
def observed (s : Store) (w : Worker) (a : ClaimRelease) : Bool :=
  w.updatedAt == a.expectedUpdatedAt && w.lastRunId == a.expectedLastRunId &&
    w.state == a.expectedState &&
    (w.computeReleasedAt.isNone || oneOf a.kind ClaimRelease.releasedKinds ||
      (a.kind == .steerRun && (s.claimTarget a).any fun r => r.state == .queued)) &&
    !(a.kind == .stopRun && w.workStop.id.isSome)

/-- Reserve the replacement of a steer claim. The outer `none` refuses the claim, the inner one is
a violated constraint. -/
def reserveReplacement (s : Store) (now : Time) (w : Worker) (a : ClaimRelease) :
    Option (Option Store) :=
  if a.kind != .steerRun then some (some s)
  else match a.replacement with
  | none => none
  | some p =>
    if p.workerId == a.workerId && p.projectId == w.projectId && p.state == .queued &&
        p.instruction != "" && (s.runs.get? p.runId).isNone then
      some ((s.insertRun? p.runId
        (s.newRun now p.runId p.workerId p.projectId p.tenantId p.instruction .queued)).map
          fun s => s.appendOriginTrace now p.runId p.workerId p.tenantId)
    else none

/-- The stop that a fresh `stop_run` claim requests. -/
def requestedStop (kind : OperationKind) (now : Time) (operationId : OperationId)
    (stop : WorkStop) : WorkStop :=
  if kind == .stopRun then
    { id := some operationId, requestedAt := some now, settledAt := none, outcome := "" }
  else stop

/-- The columns of a worker that is claimed. -/
def claimedRow (now : Time) (a : ClaimRelease) (token : Token) (operationId : OperationId)
    (v : Worker) : Worker :=
  { v with
    release := a.release now token operationId v.release
    releaseEpoch := v.releaseEpoch + 1
    workStop := requestedStop a.kind now operationId v.workStop
    state := claimedState a.kind v.state
    updatedAt := now }

/-- A fresh claim. -/
def freshRelease (s : Store) (now : Time) (w : Worker) (a : ClaimRelease) :
    Outcome (Option ClaimReceipt) :=
  if !s.observed w a then .commit s none
  else match s.drawId.drawId.reserveReplacement now w a with
  | none => .commit s none
  | some none => .raise s (.integrity "runs.run_id")
  | some (some s') =>
    let operationId := s.nextId + 1
    s.commitClaim
      (s'.updateWorkers (fun id v => id == a.workerId && v.release.token.isNone)
        (claimedRow now a s.nextId operationId))
      now a (some operationId) ⟨s.nextId, w.releaseEpoch + 1, false⟩

/-- `try_claim_worker_compute_release`. -/
def tryClaimWorkerComputeRelease (s : Store) (now : Time) (a : ClaimRelease) :
    Outcome (Option ClaimReceipt) :=
  match a.invalid with
  | some e => .raise s e
  | none =>
    match s.workers.get? a.workerId with
    | none => .commit s none
    | some w =>
      if !s.claimAllowed now w a then .commit s none
      else if w.release.token.isSome then s.takeOverRelease now w a
      else s.freshRelease now w a

/-! ## Confirmation, rebinding and abandoning -/

/-- `confirm_worker_control_runtime_effect`. -/
def confirmWorkerControlRuntimeEffect (s : Store) (now : Time) (workerId : WorkerId)
    (token : Token) (epoch : ℕ) (kind : OperationKind) (target : Option RunId) :
    Outcome (Option Worker) :=
  let owned : WorkerId → Worker → Bool := fun id w =>
    id == workerId && w.ownedBy token epoch && w.release.kind == some kind &&
      w.release.targetRunId == target && w.release.operationId.isSome
  if s.workers.any owned then
    let s' := s.updateWorkers owned fun w => { w with
      release := { w.release with
        runtimeConfirmedAt := some now, runtimeProofDigest := some w.release.proof }
      updatedAt := now }
    .commit s' (s'.workers.get? workerId)
  else .commit s none

/-- `rebind_worker_termination_claim_generation`. -/
def rebindWorkerTerminationClaimGeneration (s : Store) (now : Time) (workerId : WorkerId)
    (token : Token) (epoch : ℕ) (containerId : Option RowId) : Outcome (Option Worker) :=
  let owned : WorkerId → Worker → Bool := fun id w =>
    id == workerId && w.ownedBy token epoch && w.release.kind == some .terminateWorker &&
      w.release.scope == .worker && w.state == .stopping
  if s.workers.any owned then
    let s' := s.updateWorkers owned fun w => { w with
      release := { w.release with containerId := containerId }
      releaseEpoch := w.releaseEpoch + 1
      updatedAt := now }
    .commit s' (s'.workers.get? workerId)
  else .commit s none

/-- The kinds whose stale claims may be rebound or abandoned. -/
def staleKinds : List OperationKind :=
  [.idle, .needsInput, .paused]

/-- `rebind_worker_compute_release_claim_generation`. -/
def rebindWorkerComputeReleaseClaimGeneration (s : Store) (now : Time) (workerId : WorkerId)
    (token : Token) (epoch : ℕ) (kind : OperationKind) (containerId : Option RowId) :
    Outcome (Option Worker) :=
  let owned : WorkerId → Worker → Bool := fun id w =>
    id == workerId && w.ownedBy token epoch && w.release.kind == some kind &&
      w.release.scope == .computeOnly
  if !oneOf kind staleKinds then
    .raise s (.valueError
      "Only idle, needs-input, or paused compute release may change generation")
  else if s.workers.any owned then
    let s' := s.updateWorkers owned fun w => { w with
      release := { w.release with containerId := containerId }
      releaseEpoch := w.releaseEpoch + 1
      updatedAt := now }
    .commit s' (s'.workers.get? workerId)
  else .commit s none

/-- `abandon_worker_run_control_claim`. -/
def abandonWorkerRunControlClaim (s : Store) (now : Time) (workerId : WorkerId) (token : Token)
    (epoch : ℕ) (kind : OperationKind) (target : Option RunId) (workerState : WorkerState)
    (lastError : String) : Outcome (Option Worker) :=
  let owned : WorkerId → Worker → Bool := fun id w =>
    id == workerId && w.ownedBy token epoch && w.release.kind == some kind &&
      w.release.targetRunId == target
  if !oneOf kind [.resumeRun, .resumeWorker] then
    .raise s (.valueError "Only a failed resume startup may abandon its claim")
  else if s.workers.any owned then
    let s' := s.updateWorkers owned fun w =>
      { w.clearRelease with state := workerState, lastError := lastError, updatedAt := now }
    .commit s' (s'.workers.get? workerId)
  else .commit s none

/-- The worker state that a released claim leaves to the runs that are there. -/
def demandState (s : Store) (workerId : WorkerId) (otherwise : WorkerState) : WorkerState :=
  if s.workerHasRun workerId [.running, .settling] then .running
  else if s.workerHasRun workerId [.queued] then .starting
  else otherwise

/-- `abandon_stale_worker_compute_release_claim`. -/
def abandonStaleWorkerComputeReleaseClaim (s : Store) (now : Time) (workerId : WorkerId)
    (token : Token) (epoch : ℕ) (kind : OperationKind) : Outcome (Option Worker) :=
  let owned : WorkerId → Worker → Bool := fun id w =>
    id == workerId && w.ownedBy token epoch && w.release.kind == some kind &&
      w.release.scope == .computeOnly
  if !oneOf kind staleKinds then
    .raise s (.valueError
      "Only stale idle, needs-input, or paused release claims may be abandoned")
  else if s.workers.any owned then
    let s' := s.updateWorkers owned fun w =>
      { w.clearRelease with state := s.demandState workerId w.state, updatedAt := now }
    .commit s' (s'.workers.get? workerId)
  else .commit s none

/-! ## What a claim can do -/

section Cases

variable {s : Store} {now : Time}

theorem commitClaim_cases {s' : Store} {a : ClaimRelease} {operationId : Option OperationId}
    {receipt : ClaimReceipt} :
    ((s.commitClaim s' now a operationId receipt).store = s ∧
        (s.commitClaim s' now a operationId receipt).value? = none) ∨
      ∃ actions, (s.commitClaim s' now a operationId receipt).store =
        { s' with activeWorkActions := actions } := by
  rw [commitClaim]
  split
  · exact Or.inr ⟨s'.activeWorkActions, rfl⟩
  split
  · split
    · rename_i s'' hbind
      rw [bindActiveWorkActionLifecycle] at hbind
      split at hbind
      · obtain rfl := Option.some.inj hbind
        exact Or.inr ⟨_, rfl⟩
      · cases hbind
    · exact Or.inl ⟨rfl, rfl⟩
  · exact Or.inl ⟨rfl, rfl⟩

/-- A reservation inserts at most the queued replacement of a steer. -/
theorem reserveReplacement_eq_some {w : Worker} {a : ClaimRelease} {s' : Store}
    (h : s.reserveReplacement now w a = some (some s')) :
    s' = s ∨ ∃ runId row runs workTrace, row.workerId = a.workerId ∧ row.state = .queued ∧
      row.activeAttemptId = none ∧ row.startedAt = none ∧ s.runs.insert? runId row = some runs ∧
      s' = { s with runs := runs, workTrace := workTrace } := by
  rw [reserveReplacement] at h
  split at h
  · obtain rfl := Option.some.inj (Option.some.inj h)
    exact Or.inl rfl
  split at h
  · cases h
  rename_i p _
  split at h
  · rename_i hok
    simp only [Bool.and_eq_true, beq_iff_eq] at hok
    obtain ⟨s₁, hins, rfl⟩ := Option.map_eq_some_iff.mp (Option.some.inj h)
    obtain ⟨runs, hrows, rfl⟩ := insertRun?_eq_some hins
    exact Or.inr ⟨p.runId,
      s.newRun now p.runId p.workerId p.projectId p.tenantId p.instruction .queued, runs, _,
      hok.1.1.1.1, rfl, rfl, rfl, hrows, rfl⟩
  · cases h

/-- A claim is refused, takes an expired one over, or is fresh. -/
theorem tryClaimWorkerComputeRelease_cases (s : Store) (now : Time) (a : ClaimRelease) :
    ((s.tryClaimWorkerComputeRelease now a).store = s ∧
        (s.tryClaimWorkerComputeRelease now a).value? = none) ∨
      ∃ w, a.invalid = none ∧ s.workers.get? a.workerId = some w ∧
        s.claimAllowed now w a = true ∧
        ((w.release.token.isSome = true ∧ ∃ actions,
            (s.tryClaimWorkerComputeRelease now a).store =
              { s.drawId.updateWorkers
                  (fun id v => id == a.workerId && v.release.token == w.release.token &&
                    v.releaseEpoch == w.releaseEpoch) (takenOverRow now a s.nextId) with
                activeWorkActions := actions }) ∨
          (w.release.token = none ∧ s.observed w a = true ∧ ∃ s' actions,
            s.drawId.drawId.reserveReplacement now w a = some (some s') ∧
            (s.tryClaimWorkerComputeRelease now a).store =
              { s'.updateWorkers (fun id v => id == a.workerId && v.release.token.isNone)
                  (claimedRow now a s.nextId (s.nextId + 1)) with
                activeWorkActions := actions })) := by
  rw [tryClaimWorkerComputeRelease]
  split
  · exact Or.inl ⟨rfl, rfl⟩
  rename_i hvalid
  split
  · exact Or.inl ⟨rfl, rfl⟩
  rename_i w hw
  split
  · exact Or.inl ⟨rfl, rfl⟩
  rename_i hallowed
  rw [Bool.not_eq_true', Bool.not_eq_false] at hallowed
  split
  · rename_i htoken
    rw [takeOverRelease]
    split
    · exact Or.inl ⟨rfl, rfl⟩
    refine commitClaim_cases.imp_right ?_
    rintro ⟨actions, hs⟩
    exact ⟨w, hvalid, hw, hallowed, Or.inl ⟨htoken, actions, hs⟩⟩
  · rename_i htoken
    rw [freshRelease]
    split
    · exact Or.inl ⟨rfl, rfl⟩
    rename_i hobserved
    rw [Bool.not_eq_true', Bool.not_eq_false] at hobserved
    split
    · exact Or.inl ⟨rfl, rfl⟩
    · exact Or.inl ⟨rfl, rfl⟩
    rename_i s' hreserve
    refine commitClaim_cases.imp_right ?_
    rintro ⟨actions, hs⟩
    exact ⟨w, hvalid, hw, hallowed,
      Or.inr ⟨by simpa using htoken, hobserved, s', actions, hreserve, hs⟩⟩

end Cases

end Store

end GlassHive
