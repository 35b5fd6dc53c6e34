import GlassHive.Leases

/-!
# Starting a claimed run

A start takes four transactions: the claim, the lease, the admission, and the invocation, which the
startup confirmation may also make. A start that cannot be proved is fenced or put back into the
queue.
-/

namespace GlassHive

open Relational

/-- The columns that both invocations write to the run. -/
def Run.invoke (now : Time) (r : Run) : Run :=
  { r with
    state := .running
    startedAt := r.startedAt <|> some now
    runtimeInvokedAt := some now
    queueWait := { r.queueWait with
      isOpen := false, closedAt := some now,
      durationSeconds := some ((now - r.queueWait.startedAt) / 1000000), nextStatusAt := none }
    failure := .clear
    retry := { r.retry with lastClass := "" } }

/-- The identity that `confirm_host_run_start` publishes. -/
structure StartProof where
  kind : IdentityKind
  pid : ℕ
  processGroup : ℕ
  processStartIdentity : Option StartIdentity
  containerId : Option RowId
  sessionId : Option StartupSession

/-- The identity is exact for its kind. -/
def StartProof.valid (i : StartProof) (runId : RunId) : Bool :=
  match i.kind with
  | .hostProcess => decide (0 < i.pid) && i.processStartIdentity.isSome && i.sessionId.isSome
  | .dockerSession =>
    match i.containerId, i.sessionId, i.processStartIdentity with
    | some c, some (.id n), some (.docker c' n' r _) =>
      decide (0 < i.pid) && c == c' && n == n' && r == runId
    | _, _, _ => false
  | .inProcess => i.containerId.isNone && i.pid == 0 && i.processGroup == 0 &&
      i.processStartIdentity.isNone && i.sessionId == some .inProcess

/-- The lease already carries this identity. -/
def StartProof.recorded (i : StartProof) (l : Lease) : Bool :=
  l.startupIdentityKind == some i.kind && l.pid.getD 0 == i.pid &&
    l.processGroup.getD 0 == i.processGroup && l.processStartIdentity == i.processStartIdentity &&
    l.startupContainerId == i.containerId && l.startupSessionId == i.sessionId

/-- The arguments of `confirm_host_run_start`. -/
structure ConfirmStart where
  workerId : WorkerId
  runId : RunId
  runStartedAt : Option Time
  leaseId : LeaseId
  startupToken : Token
  executorId : ExecutorId
  identity : StartProof
  allowRuntimeInvocation : Bool
  callback : Option CallbackId

/-- The lease is the one the caller started under. -/
def ConfirmStart.exactLease (a : ConfirmStart) (now : Time) (l : Lease) : Bool :=
  l.status == .active && decide (now < l.expiresAt) && l.workerId == a.workerId &&
    l.executorId == a.executorId && l.startupToken == some a.startupToken

/-- The failure evidence of a requeued start. -/
def startupFenced : Failure where
  failureClass := "service_startup_fenced"
  retryable := true
  structured := true
  userMessage := "GlassHive safely recovered an interrupted worker startup and will retry."
  recommendedRecovery := "No action is required unless this work remains queued."
  diagnosticSummary := "Restart recovery cleaned the exact unconfirmed startup generation."

/-- The queue wait of a requeued start: a closed wait opens a new generation, with a fresh
status schedule. -/
def QueueWait.requeue (settings : Settings) (now : Time) (runId : RunId) (w : QueueWait) :
    QueueWait :=
  let generation := max 1 w.generation + if w.isOpen then 0 else 1
  let deadline := if w.isOpen then w.deadlineAt else now + settings.queueWaitTimeout * 1000000
  { w with
    episode := generation
    isOpen := true
    generation := generation
    startedAt := if w.isOpen then w.startedAt else now
    closedAt := none
    durationSeconds := none
    deadlineAt := deadline
    nextStatusAt := if w.isOpen then w.nextStatusAt
      else some (now + settings.queueStatusRefresh * 1000000)
    transitionEmitted := w.isOpen && w.transitionEmitted
    statusSequence := if w.isOpen then w.statusSequence else 0
    callbackState := if w.isOpen then w.callbackState else "unknown"
    terminalCallbackId := some
      { kind := "timeout", runId := runId, generation := generation, deadline := deadline } }

namespace Store

/-! ## Admission and invocation -/

/-- The attempt of a run under its active attempt identity. -/
def activeAttempt (s : Store) (runId : RunId) (r : Run) : Option (AttemptId × Attempt) :=
  r.activeAttemptId.bind fun id =>
    ((s.attempts.get? id).filter fun a => a.runId == runId).map fun a => (id, a)

/-- The live lease an executor presents for a run. -/
def presentedLease (s : Store) (now : Time) (runId : RunId) (leaseId : LeaseId)
    (executorId : ExecutorId) : Option Lease :=
  (s.leases.get? leaseId).filter fun l => l.runId == runId && l.executorId == executorId &&
    l.status == .active && decide (now < l.expiresAt)

/-- The claimed generation that `admit_claimed_run` admits. -/
def admittable (s : Store) (now : Time) (runId : RunId) (leaseId : LeaseId)
    (executorId : ExecutorId) : Option (AttemptId × Lease) :=
  match s.runs.get? runId, s.presentedLease now runId leaseId executorId with
  | some r, some l =>
    match s.activeAttempt runId r with
    | some (id, a) =>
      if r.state == .claimed && l.attemptId == some id && a.state == .of .claimed &&
          (a.leaseId.isNone || a.leaseId == some leaseId) && a.endedAt.isNone then some (id, l)
      else none
    | none => none
  | _, _ => none

/-- Move a claimed generation to admitted, under its lease. -/
def admitGeneration (s : Store) (now : Time) (runId : RunId) (leaseId : LeaseId) (l : Lease)
    (attemptId : AttemptId) : Store :=
  s
    |>.updateRuns now
        (fun id r => id == runId && r.state == .claimed && r.activeAttemptId == some attemptId)
        (fun r => { r with state := .admitted, admittedAt := some now })
    |>.updateAttempts
        (fun id a => id == attemptId && a.runId == runId && a.state == .of .claimed &&
          (a.leaseId.isNone || a.leaseId == some leaseId) && a.endedAt.isNone)
        (fun a => { a with
          state := .of .admitted, admittedAt := some now, leaseId := some leaseId,
          capacity := { a.capacity with reservation := some l.reserved } })
    |>.appendAttemptTraces now [attemptId]

/-- `admit_claimed_run`. The worker is not looked at. -/
def admitClaimedRun (s : Store) (now : Time) (runId : RunId) (leaseId : LeaseId)
    (executorId : ExecutorId) : Outcome (Option Run) :=
  match s.admittable now runId leaseId executorId with
  | none => .commit s none
  | some (attemptId, l) =>
    let s' := s.admitGeneration now runId leaseId l attemptId
    .commit s' (s'.runs.get? runId)

/-- The admitted generation of a run under a lease, with its queue wait still open and in time. -/
def admittedGeneration (s : Store) (now : Time) (runId : RunId) (r : Run) (leaseId : LeaseId)
    (l : Lease) : Option AttemptId :=
  match s.activeAttempt runId r with
  | some (id, a) =>
    if r.state == .admitted && r.runtimeInvokedAt.isNone && l.attemptId == some id &&
        a.state == .of .admitted && a.leaseId == some leaseId && a.runtimeInvokedAt.isNone &&
        a.endedAt.isNone && r.queueWait.isOpen && decide (now < r.queueWait.deadlineAt) then
      some id
    else none
  | none => none

/-- Move an admitted generation to running, with `f` for the run. -/
def invokeGeneration (s : Store) (now : Time) (runId : RunId) (r : Run) (leaseId : LeaseId)
    (attemptId : AttemptId) (f : Run → Run) : Store :=
  s
    |>.updateAttempts
        (fun id a => id == attemptId && a.runId == runId && a.state == .of .admitted &&
          a.leaseId == some leaseId && a.runtimeInvokedAt.isNone && a.endedAt.isNone)
        (fun a => { a with state := .of .running, runtimeInvokedAt := some now })
    |>.updateRuns now
        (fun id r => id == runId && r.state == .admitted && r.activeAttemptId == some attemptId &&
          r.runtimeInvokedAt.isNone && r.queueWait.isOpen && decide (now < r.queueWait.deadlineAt))
        f
    |>.appendRuntimeInvocationTrace runId r attemptId now
    |>.appendAttemptTraces now [attemptId]

/-- The columns of a run whose runtime is invoked by its executor. -/
def invokedRow (now : Time) (r : Run) : Run :=
  { Run.invoke now r with
    liveness := { r.liveness with
      startedAt := some now, meaningfulProgressAt := none, meaningfulProgressSequence := 0,
      internalRetryCount := 0, lastInternalRetryClass := "" }
    retry := { r.retry with capacityCount := 0, lastClass := "" } }

/-- `mark_run_runtime_invoked`. The worker is not looked at. -/
def markRunRuntimeInvoked (s : Store) (now : Time) (runId : RunId) (leaseId : LeaseId)
    (executorId : ExecutorId) : Outcome (Option Run) :=
  match s.runs.get? runId, s.presentedLease now runId leaseId executorId with
  | some r, some l =>
    if r.state == .running && r.runtimeInvokedAt.isSome && l.attemptId == r.activeAttemptId then
      .commit s (if s.runningGenerationIsExact runId now then some r else none)
    else match s.admittedGeneration now runId r leaseId l with
    | none => .commit s none
    | some attemptId =>
      let s' := s.invokeGeneration now runId r leaseId attemptId (invokedRow now)
      .commit s' (s'.runs.get? runId)
  | _, _ => .commit s none

/-! ## Startup confirmation -/

/-- The running generation of a run under a lease, started when the caller says. -/
def runningGeneration (s : Store) (runId : RunId) (r : Run) (leaseId : LeaseId) (l : Lease)
    (startedAt : Option Time) : Bool :=
  (s.activeAttempt runId r).any fun e =>
    r.state == .running && r.runtimeInvokedAt == startedAt && l.attemptId == some e.1 &&
      e.2.state == .of .running && e.2.leaseId == some leaseId &&
      e.2.runtimeInvokedAt == r.runtimeInvokedAt && e.2.endedAt.isNone

/-- The worker allows a start to be confirmed. -/
def workerAllowsStart (w : Worker) : Bool :=
  w.release.token.isNone && w.workStop.id.isNone && !oneOf w.state WorkerState.claimRefused

/-- What a confirmation writes besides the invocation. -/
def publishStart (s : Store) (now : Time) (a : ConfirmStart) (r : Run) : Store :=
  let s' := s
    |>.updateLeases
        (fun id l => id == a.leaseId && l.runId == a.runId && a.exactLease now l &&
          l.startupState == .reserved)
        (fun l => { l with
          startupState := .confirmed, startupConfirmedAt := some now,
          startupIdentityKind := some a.identity.kind,
          startupContainerId := a.identity.containerId, startupSessionId := a.identity.sessionId,
          pid := if a.identity.pid == 0 then none else some a.identity.pid,
          processGroup := if a.identity.processGroup == 0 then none
            else some a.identity.processGroup,
          processStartIdentity := a.identity.processStartIdentity, heartbeatAt := now })
    |>.updateWorkers (fun id _ => id == a.workerId)
        (fun w => { w with state := .running, updatedAt := now })
    |>.insertEventOnce (.started a.startupToken)
        { projectId := r.projectId, workerId := a.workerId, runId := some a.runId,
          eventType := "run.started", message := r.instruction, createdAt := now }
  match a.callback with
  | none => s'
  | some id => s'.insertCallbackIntent id r.projectId a.workerId a.runId

/-- `confirm_host_run_start`. The flag says whether it was a replay. -/
def confirmHostRunStart (s : Store) (now : Time) (a : ConfirmStart) : Outcome (Option Bool) :=
  if !a.identity.valid a.runId then
    .raise s (.valueError "Run startup confirmation requires an exact identity")
  else match s.workers.get? a.workerId,
      (s.runs.get? a.runId).filter fun r => r.workerId == a.workerId,
      (s.leases.get? a.leaseId).filter fun l => l.runId == a.runId with
  | some w, some r, some l =>
    let admitted := if a.allowRuntimeInvocation then
        s.admittedGeneration now a.runId r a.leaseId l
      else none
    let running := s.runningGeneration a.runId r a.leaseId l a.runStartedAt && r.endedAt.isNone
    if !(a.exactLease now l && (admitted.isSome || running) && workerAllowsStart w) then
      .commit (if r.state == .running && !running then
          s.downgradeUnprovenRunning a.runId r now "running_invariant_reconciled"
        else s) none
    else if l.startupState == .confirmed then
      .commit s (if a.identity.recorded l then some true else none)
    else if l.startupState != .reserved then .commit s none
    else match admitted with
    | some attemptId =>
      .commit ((s.invokeGeneration now a.runId r a.leaseId attemptId (Run.invoke now)).publishStart
        now a r) (some false)
    | none => .commit (s.publishStart now a r) (some false)
  | _, _, _ => .commit s none

/-! ## Failed starts -/

/-- Move a running generation to settling, under its lease. -/
def settleGeneration (s : Store) (now : Time) (runId : RunId) (leaseId : LeaseId)
    (attemptId : AttemptId) : Store :=
  s
    |>.updateRuns now
        (fun id r => id == runId && r.state == .running && r.activeAttemptId == some attemptId)
        (fun r => { r with state := .settling })
    |>.updateAttempts
        (fun id a => id == attemptId && a.runId == runId && a.state == .of .running &&
          a.leaseId == some leaseId && a.endedAt.isNone)
        (fun a => { a with state := .of .settling })
    |>.appendAttemptTraces now [attemptId]

/-- The lease of a start whose termination cannot be confirmed. -/
def unconfirmable (leaseId : LeaseId) (runId : RunId) (executorId : ExecutorId)
    (startupToken : Token) (id : LeaseId) (l : Lease) : Bool :=
  id == leaseId && l.runId == runId && l.executorId == executorId &&
    l.startupToken == some startupToken && l.status == .active && l.startupState == .reserved

/-- The attempt of a running generation under the lease. -/
def unconfirmedAttempt (s : Store) (runId : RunId) (leaseId : LeaseId) : Option AttemptId :=
  match s.runs.get? runId, s.leases.get? leaseId with
  | some r, some l =>
    if r.runtimeInvokedAt.isSome && s.runningGeneration runId r leaseId l r.runtimeInvokedAt then
      r.activeAttemptId
    else none
  | _, _ => none

/-- `mark_host_run_start_termination_unconfirmed`. -/
def markHostRunStartTerminationUnconfirmed (s : Store) (now : Time) (leaseId : LeaseId)
    (runId : RunId) (executorId : ExecutorId) (startupToken : Token) : Outcome (Option Lease) :=
  let fenced := unconfirmable leaseId runId executorId startupToken
  if !s.leases.any fenced then .commit s none
  else
    let s₁ := s.updateLeases fenced fun l =>
      { l with startupState := .terminationUnconfirmed, heartbeatAt := now }
    match s.unconfirmedAttempt runId leaseId with
    | none => .commit s₁ (s₁.leases.get? leaseId)
    | some attemptId =>
      let s₂ := s₁.settleGeneration now runId leaseId attemptId
      .commit s₂ (s₂.leases.get? leaseId)

/-- The run states that `requeue_unconfirmed_host_run_start` takes back. -/
def requeuableRunStates : List RunState :=
  [.claimed, .admitted, .running, .settling, .queued]

/-- The unconfirmed generation that is retired. -/
def requeuable (s : Store) (workerId : WorkerId) (runId : RunId) (leaseId : LeaseId)
    (startupToken : Token) : Option Run :=
  match (s.runs.get? runId).filter fun r => r.workerId == workerId,
      (s.leases.get? leaseId).filter fun l => l.runId == runId with
  | some r, some l =>
    if (s.workers.get? workerId).isSome && oneOf r.state requeuableRunStates &&
        l.workerId == workerId && l.status == .active &&
        oneOf l.startupState [.reserved, .terminationUnconfirmed] &&
        l.startupToken == some startupToken then some r
    else none
  | _, _ => none

/-- The columns of a run whose unconfirmed start is retired. -/
def fencedRow (settings : Settings) (now : Time) (runId : RunId) (retryAfter : Time)
    (errorText : String) (r : Run) : Run :=
  { r with
    state := .queued, claimedAt := none, admittedAt := none, runtimeInvokedAt := none,
    activeAttemptId := none, endedAt := none,
    retry := { r.retry with
      retryAfter := some retryAfter, attempts := r.retry.attempts + 1,
      lastClass := "service_startup_fenced" },
    errorText := errorText, failure := startupFenced,
    queueWait := QueueWait.requeue settings now runId r.queueWait }

/-- Retire an unconfirmed generation. -/
def requeueGeneration (s : Store) (now : Time) (workerId : WorkerId) (runId : RunId)
    (leaseId : LeaseId) (startupToken : Token) (retryAfter : Time) (errorText : String) (r : Run) :
    Store :=
  s
    |>.updateLeases
        (fun id l => id == leaseId && l.runId == runId && l.status == .active &&
          oneOf l.startupState [.reserved, .terminationUnconfirmed] &&
          l.startupToken == some startupToken)
        (Lease.release now "startup_generation_cleaned")
    |>.updateRuns now
        (fun id r => id == runId && r.workerId == workerId && oneOf r.state requeuableRunStates)
        (fencedRow s.settings now runId retryAfter errorText)
    |>.updateAttempts (fun id a => some id == r.activeAttemptId && a.endedAt.isNone)
        (Attempt.finish now .retryQueued "service_startup_fenced")
    |>.appendAttemptTraces now (r.activeAttemptId.toList.filter fun id =>
        (s.attempts.get? id).any fun a => a.endedAt.isNone)
    |>.updateWorkers (fun id _ => id == workerId)
        (fun w => { w with
          state := if oneOf w.state WorkerState.claimRefused then w.state else .starting
          lastError := ""
          updatedAt := now })
    |>.insertEventOnce (.requeued startupToken)
        { projectId := r.projectId, workerId := workerId, runId := some runId,
          eventType := "run.requeued",
          message := "Interrupted startup generation was safely cleaned; retry queued",
          createdAt := now }

/-- `requeue_unconfirmed_host_run_start`. -/
def requeueUnconfirmedHostRunStart (s : Store) (now : Time) (workerId : WorkerId) (runId : RunId)
    (leaseId : LeaseId) (startupToken : Token) (retryAfter : Time) (errorText : String) :
    Outcome (Option Run) :=
  match s.requeuable workerId runId leaseId startupToken with
  | none => .commit s none
  | some r =>
    let s' := s.requeueGeneration now workerId runId leaseId startupToken retryAfter errorText r
    .commit s' (s'.runs.get? runId)

/-! ## Direct compute starts -/

/-- `begin_worker_compute_start`. -/
def beginWorkerComputeStart (s : Store) (now : Time) (workerId : WorkerId) :
    Outcome (Option Worker) :=
  match s.workers.get? workerId with
  | none => .commit s none
  | some w =>
    if w.release.token.isSome || w.workStop.id.isSome || oneOf w.state [.stopping, .terminated] then
      .commit s none
    else
      let s' := s.updateWorkers (fun id _ => id == workerId) fun w =>
        { w with state := .starting, computeReleasedAt := none, updatedAt := now }
      .commit s' (s'.workers.get? workerId)

/-! ## What the transactions can do -/

section Cases

variable {s : Store} {now : Time} {runId : RunId} {leaseId : LeaseId} {executorId : ExecutorId}

theorem activeAttempt_eq_some {r : Run} {id : AttemptId} {t : Attempt}
    (h : s.activeAttempt runId r = some (id, t)) :
    r.activeAttemptId = some id ∧ s.attempts.get? id = some t ∧ t.runId = runId := by
  obtain ⟨id', hid, hmap⟩ := Option.bind_eq_some_iff.mp h
  obtain ⟨t', ht', heq⟩ := Option.map_eq_some_iff.mp hmap
  obtain ⟨rfl, rfl⟩ := Prod.mk.inj heq
  obtain ⟨hget, hrun⟩ := Option.filter_eq_some_iff.mp ht'
  exact ⟨hid, hget, by simpa using hrun⟩

theorem markRunRuntimeInvoked_cases (s : Store) (now : Time) (runId : RunId) (leaseId : LeaseId)
    (executorId : ExecutorId) :
    (s.markRunRuntimeInvoked now runId leaseId executorId).store = s ∨
      ∃ r l id, s.runs.get? runId = some r ∧ s.presentedLease now runId leaseId executorId = some l ∧
        s.admittedGeneration now runId r leaseId l = some id ∧
        (s.markRunRuntimeInvoked now runId leaseId executorId).store =
          s.invokeGeneration now runId r leaseId id (invokedRow now) := by
  rw [markRunRuntimeInvoked]
  split
  · rename_i r l hr hl
    split
    · exact Or.inl rfl
    split
    · exact Or.inl rfl
    · rename_i id hid
      exact Or.inr ⟨r, l, id, hr, hl, hid, rfl⟩
  · exact Or.inl rfl

/-- What a confirmation that publishes a start finds. -/
structure Confirms (s : Store) (now : Time) (a : ConfirmStart) (w : Worker) (r : Run) (l : Lease) :
    Prop where
  worker : s.workers.get? a.workerId = some w
  allows : workerAllowsStart w = true
  get : s.runs.get? a.runId = some r
  runWorker : r.workerId = a.workerId
  lease : s.leases.get? a.leaseId = some l
  exact : a.exactLease now l = true

theorem markHostRunStartTerminationUnconfirmed_cases (s : Store) (now : Time) (runId : RunId)
    (leaseId : LeaseId) (executorId : ExecutorId) (startupToken : Token) :
    (s.markHostRunStartTerminationUnconfirmed now leaseId runId executorId startupToken).store = s ∨
      (s.markHostRunStartTerminationUnconfirmed now leaseId runId executorId startupToken).store =
        let s₁ := s.updateLeases (unconfirmable leaseId runId executorId startupToken) fun l =>
          { l with startupState := .terminationUnconfirmed, heartbeatAt := now }
        match s.unconfirmedAttempt runId leaseId with
        | none => s₁
        | some attemptId => s₁.settleGeneration now runId leaseId attemptId := by
  rw [markHostRunStartTerminationUnconfirmed]
  dsimp only
  split
  · exact Or.inl rfl
  · refine Or.inr ?_
    split <;> rfl

theorem requeuable_eq_some {workerId : WorkerId} {startupToken : Token} {r : Run}
    (h : s.requeuable workerId runId leaseId startupToken = some r) :
    s.runs.get? runId = some r ∧ r.workerId = workerId ∧ r.state ∈ requeuableRunStates := by
  rw [requeuable] at h
  split at h
  · rename_i r' l hr hl
    split at h
    · rename_i hok
      obtain rfl := Option.some.inj h
      obtain ⟨hr, hworker⟩ := Option.filter_eq_some_iff.mp hr
      simp only [Bool.and_eq_true, oneOf_eq_true] at hok
      exact ⟨hr, by simpa using hworker, hok.1.1.1.1.2⟩
    · cases h
  · cases h

theorem requeueUnconfirmedHostRunStart_cases (s : Store) (now : Time) (workerId : WorkerId)
    (runId : RunId) (leaseId : LeaseId) (startupToken : Token) (retryAfter : Time)
    (errorText : String) :
    (s.requeueUnconfirmedHostRunStart now workerId runId leaseId startupToken retryAfter
        errorText).store = s ∨
      ∃ r, s.requeuable workerId runId leaseId startupToken = some r ∧
        (s.requeueUnconfirmedHostRunStart now workerId runId leaseId startupToken retryAfter
          errorText).store =
          s.requeueGeneration now workerId runId leaseId startupToken retryAfter errorText r := by
  rw [requeueUnconfirmedHostRunStart]
  split
  · exact Or.inl rfl
  · rename_i r hr
    exact Or.inr ⟨r, hr, rfl⟩

end Cases

end Store

end GlassHive
