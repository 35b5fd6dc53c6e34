import GlassHive.Finalizers

/-!
# Queue waits: retries, replacement and timeouts

A run returns to the queue after a start that did not happen, is replaced there by a run that
carries more guidance, or leaves it when its wait runs out.
-/

namespace GlassHive

open Relational

/-- The generation that the caller of `requeue_run_for_retry` expects. -/
structure RetryGeneration where
  attemptId : Option AttemptId
  leaseId : Option LeaseId
  executorId : Option ExecutorId
  startupToken : Option Token
  deriving DecidableEq, Repr

/-- No generation is expected. -/
def RetryGeneration.none : RetryGeneration :=
  ⟨.none, .none, .none, .none⟩

/-- The arguments of `requeue_run_for_retry`. -/
structure RequeueRetry where
  runId : RunId
  retryAfter : Time
  expected : RetryGeneration
  errorText : String
  lastRetryClass : String
  consumeRetryBudget : Bool
  capacity : Capacity
  statusRefresh : Option ℕ
  failure : FailurePatch

namespace RequeueRetry

/-- The first of the texts that is not empty. -/
def firstText : List String → String
  | [] => ""
  | t :: ts => if t == "" then firstText ts else t

/-- The failure class that the caller passes. -/
def failureClass (a : RequeueRetry) : String :=
  a.failure.failureClass.getD ""

/-- `last_retry_class`. -/
def retryClass (a : RequeueRetry) : String :=
  firstText [a.lastRetryClass, a.failureClass]

/-- `queue_blocker_class`. -/
def blockerClass (a : RequeueRetry) : String :=
  firstText [a.failureClass, a.lastRetryClass, a.capacity.capacityClass, "admission_pending"]

/-- The seconds until the next status of a new wait. -/
def refresh (a : RequeueRetry) (settings : Settings) : ℕ :=
  max 10 (min (a.statusRefresh.getD settings.queueStatusRefresh) (24 * 60 * 60))

/-- The requeue carries a capacity class that is not blank. -/
def carriesClass (a : RequeueRetry) : Bool :=
  !(Text.strip a.capacity.capacityClass.toList).isEmpty

/-- The columns of the requeued run. -/
def row (a : RequeueRetry) (settings : Settings) (now : Time) (r : Run) : Run :=
  let wait := r.queueWait.requeue settings now a.runId
  { r with
    state := .queued
    claimedAt := none
    admittedAt := none
    runtimeInvokedAt := none
    activeAttemptId := none
    endedAt := none
    retry :=
      { retryAfter := some a.retryAfter
        attempts := r.retry.attempts + if a.consumeRetryBudget then 1 else 0
        capacityCount := r.retry.capacityCount +
          if oneOf (firstText [a.failureClass, a.lastRetryClass])
            ["host_capacity", "host_worker_busy"] then 1 else 0
        lastClass := a.retryClass }
    errorText := a.errorText
    capacity := a.capacity
    failure := a.failure.apply r.failure
    queueWait := { wait with
      blockerClass := a.blockerClass
      nextStatusAt := if r.queueWait.isOpen then r.queueWait.nextStatusAt
        else some (now + a.refresh settings * 1000000) } }

end RequeueRetry

namespace Store

/-! ## Retries -/

/-- The caller knows the generation that the run is in. -/
def retryGenerationIsExact (s : Store) (runId : RunId) (r : Run) (expected : RetryGeneration) :
    Bool :=
  match r.activeAttemptId with
  | none => expected == .none
  | some attemptId =>
    expected.attemptId == some attemptId &&
      match s.leases.first (fun _ l => l.runId == runId && l.attemptId == some attemptId)
          fun _ _ => false with
      | some (id, l) => expected.leaseId == some id && expected.executorId == some l.executorId &&
          expected.startupToken == l.startupToken
      | none => expected.leaseId.isNone && expected.executorId.isNone &&
          expected.startupToken.isNone

/-- The lease that a requeue releases. -/
def requeuedLease (a : RequeueRetry) (attemptId : Option AttemptId) (id : LeaseId) (l : Lease) :
    Bool :=
  l.runId == a.runId && l.status == .active && l.attemptId == attemptId &&
    (attemptId.isNone || (some id == a.expected.leaseId &&
      some l.executorId == a.expected.executorId && l.startupToken == a.expected.startupToken))

/-- `INSERT INTO capacity_attempts` for the first capacity refusal of a queue wait. -/
def recordRetryCapacity (s : Store) (now : Time) (a : RequeueRetry) (r : Run) : Store :=
  let seen := s.capacityAttempts.select fun k _ => k.1 == a.runId
  if a.carriesClass && !(r.queueWait.isOpen && !seen.isEmpty) then
    let sequence := seen.foldl (fun n e => max n e.1.2) 0 + 1
    { s with
      capacityAttempts := (s.capacityAttempts.insert? (a.runId, sequence)
        { attemptId := r.activeAttemptId, capacity := a.capacity,
          observedAt := now }).getD s.capacityAttempts }.appendCapacityTrace a.runId sequence now
  else s

/-- The run states that `requeue_run_for_retry` takes back. -/
def retriableRunStates : List RunState :=
  [.queued, .claimed, .admitted, .running]

/-- What a requeue for a retry writes. -/
def retryRun (s : Store) (now : Time) (a : RequeueRetry) (r : Run) : Store :=
  s
    |>.updateRuns now (fun id q => id == a.runId && oneOf q.state retriableRunStates &&
        q.activeAttemptId == r.activeAttemptId) (a.row s.settings now)
    |>.updateLeases (requeuedLease a r.activeAttemptId)
        (Lease.release now ("run_requeued:" ++ a.blockerClass))
    |>.updateAttempts (fun id t => some id == r.activeAttemptId && t.endedAt.isNone)
        (fun t => { Attempt.finish now .retryQueued a.retryClass t with capacity := a.capacity })
    |>.appendAttemptTraces now r.activeAttemptId.toList
    |>.recordRetryCapacity now a r

/-- `requeue_run_for_retry`. -/
def requeueRunForRetry (s : Store) (now : Time) (a : RequeueRetry) : Outcome (Option Run) :=
  match s.runs.get? a.runId with
  | none => .commit s none
  | some r =>
    if !s.retryGenerationIsExact a.runId r a.expected then .commit s none
    else match workAdmissionError (s.workers.get? r.workerId) none with
    | some e => .raise s e
    | none =>
      if !oneOf r.state retriableRunStates then .commit s none
      else
        let s' := s.retryRun now a r
        .commit s' (s'.runs.get? a.runId)

/-! ## Replacement -/

/-- The columns of a replaced run. -/
def replacedRow (now : Time) (r : Run) : Run :=
  { r with
    state := .cancelled, endedAt := some now,
    errorText := "Coalesced into queued message guidance",
    failure := { r.failure with failureClass := "", retryable := false, structured := false },
    retry := { r.retry with retryAfter := none } }

/-- The lease that follows a replaced run. -/
def replacedLease (s : Store) (source : RunId) (workerId : WorkerId) : Option (LeaseId × Lease) :=
  (s.activeLease source).filter fun e => e.2.workerId == workerId

/-- The source of a replacement: queued, the current run of a delegation, and leased at most by an
untouched reservation. -/
def replaceable (s : Store) (source : RunId) (workerId : WorkerId) (r : Run) : Bool :=
  r.state == .queued &&
    (s.delegations.any fun _ d => d.workerId == workerId && d.currentRunId == source) &&
    (s.replacedLease source workerId).all fun e => e.2.preacceptOnly none

/-- What a replacement writes once its run is inserted. -/
def replaceRun (s : Store) (now : Time) (source replacement : RunId) (workerId : WorkerId)
    (tenantId : TenantId) (lease : Option (LeaseId × Lease)) : Store :=
  s
    |>.appendOriginTrace now replacement workerId tenantId
    |>.updateLeases
        (fun id l => lease.any (fun e => e.1 == id) && l.workerId == workerId &&
          l.runId == source && l.status == .active && l.preacceptOnly none)
        (fun l => { l with runId := replacement })
    |>.updateRuns now (fun id r => id == source && r.workerId == workerId && r.state == .queued)
        (replacedRow now)
    |>.updateDelegations (fun _ d => d.workerId == workerId && d.currentRunId == source)
        (fun d => { d with currentRunId := replacement, updatedAt := now })
    |>.recordTerminalArtifactTraces now [source]
    |>.touchLastRun now workerId replacement

/-- `replace_queued_run_idempotently`. The flag says whether the replacement was created. -/
def replaceQueuedRunIdempotently (s : Store) (now : Time) (source replacement : RunId)
    (workerId : WorkerId) (projectId : ProjectId) (instruction : String) :
    Outcome (Option (RunId × Bool)) :=
  match s.runs.get? replacement with
  | some r =>
    if r.workerId == workerId && r.projectId == projectId && r.instruction == instruction then
      .commit s (some (replacement, false))
    else .raise s (.valueError
      "GlassHive idempotency key was reused with a different instruction")
  | none =>
    match workAdmissionError (s.workers.get? workerId) (some projectId), s.workers.get? workerId,
        (s.runs.get? source).filter fun r => r.workerId == workerId && r.projectId == projectId with
    | some e, _, _ => .raise s e
    | none, some w, some r =>
      if !s.replaceable source workerId r then .commit s none
      else match s.insertRun? replacement
          (s.newRun now replacement workerId projectId w.tenantId instruction .queued) with
      | none => .raise s (.integrity "runs.run_id")
      | some s₁ =>
        .commit (s₁.replaceRun now source replacement workerId w.tenantId
          (s.replacedLease source workerId)) (some (replacement, true))
    | none, _, _ => .commit s none

end Store

/-! ## Timeouts -/

/-- The callback that goes out with a queue timeout: the identity it claims and the identity it is
stored under. -/
structure TimeoutIntent where
  callbackId : QueueCallbackId
  runId : RunId
  eventType : String
  outboxId : CallbackId

/-- The arguments of `expire_queued_run_if_due`. -/
structure ExpireQueued where
  runId : RunId
  expectedDeadline : Time
  expectedGeneration : ℕ
  expectedCallbackId : QueueCallbackId
  callback : Option TimeoutIntent

namespace ExpireQueued

/-- The run states that a queue timeout fails. -/
def expirableRunStates : List RunState :=
  [.queued, .claimed, .admitted, .running]

/-- The queue wait is the one the caller saw, and it is over. -/
def due (a : ExpireQueued) (now : Time) (r : Run) : Bool :=
  oneOf r.state expirableRunStates && r.queueWait.isOpen &&
    r.queueWait.generation == a.expectedGeneration &&
    r.queueWait.deadlineAt == a.expectedDeadline &&
    r.queueWait.terminalCallbackId == some a.expectedCallbackId && decide (a.expectedDeadline ≤ now)

/-- The message of a queue timeout. -/
def message : String :=
  "This work left the queue after its bounded admission wait expired. " ++
    "The workspace is preserved and the work can be retried."

/-- The columns of the expired run. -/
def row (a : ExpireQueued) (now : Time) (r : Run) : Run :=
  { r with
    state := .failed
    endedAt := some now
    retry := { r.retry with retryAfter := none }
    failure :=
      { failureClass := "queue_wait_timeout", retryable := true, structured := true
        userMessage := message
        recommendedRecovery :=
          "Retry this preserved workspace when launch capacity is available."
        diagnosticSummary := "The exact queued run reached its durable queue deadline." }
    errorText := "queue_wait_timeout"
    queueWait := { r.queueWait with
      nextStatusAt := none
      isOpen := false
      closedAt := some now
      durationSeconds := some ((now - r.queueWait.startedAt) / 1000000)
      callbackState := if a.callback.isSome then "enqueued" else "unavailable" } }

/-- The callback names the timeout it goes out with. -/
def callbackExact (a : ExpireQueued) : Bool :=
  a.callback.all fun c => c.callbackId == a.expectedCallbackId && c.runId == a.runId &&
    c.eventType == "run.failed"

end ExpireQueued

namespace Store

/-- What an expired queue wait writes. -/
def expireRun (s : Store) (now : Time) (a : ExpireQueued) (r : Run) : Store :=
  let attemptId := r.activeAttemptId.filter fun id =>
    (s.attempts.get? id).any fun t => t.endedAt.isNone
  let s := s
    |>.updateLeases (fun _ l => l.runId == a.runId && l.status == .active)
        (Lease.release now "run_terminal:queue_wait_timeout")
    |>.updateRuns now (fun id q => id == a.runId && a.due now q) (a.row now)
    |>.updateAttempts (fun id t => some id == r.activeAttemptId && t.endedAt.isNone)
        (Attempt.finish now (.of .failed) "queue_wait_timeout")
    |>.appendAttemptTraces now attemptId.toList
    |>.recordTerminalArtifactTraces now [a.runId]
    |>.insertEventOnce (.queueTimeout a.runId a.expectedGeneration a.expectedDeadline)
        { projectId := r.projectId, workerId := r.workerId, runId := some a.runId,
          eventType := "run.failed", message := ExpireQueued.message, createdAt := now }
  match a.callback with
  | none => s
  | some c => s.insertCallbackIntent c.outboxId r.projectId r.workerId a.runId

/-- `expire_queued_run_if_due`. -/
def expireQueuedRunIfDue (s : Store) (now : Time) (a : ExpireQueued) : Outcome (Option Run) :=
  match (s.runs.get? a.runId).filter (a.due now) with
  | none => .commit s none
  | some r =>
    if !a.callbackExact then
      .raise s (.valueError "Queue timeout callback intent is not exact")
    else
      let s' := s.expireRun now a r
      .commit s' (s'.runs.get? a.runId)

/-! ## The runs that the transactions leave -/

section Rows

variable {s : Store} {now : Time}

theorem recordRetryCapacity_eq (s : Store) (now : Time) (a : RequeueRetry) (r : Run) : ∃
    capacityAttempts workTrace,
    s.recordRetryCapacity now a r =
      { s with capacityAttempts := capacityAttempts, workTrace := workTrace } := by
  rw [recordRetryCapacity]
  dsimp only
  split
  · exact ⟨_, _, rfl⟩
  · exact ⟨s.capacityAttempts, s.workTrace, rfl⟩

theorem runs_retryRun (a : RequeueRetry) (r : Run) :
    (s.retryRun now a r).runs =
      s.runs.update (fun id q => id == a.runId && oneOf q.state retriableRunStates &&
          q.activeAttemptId == r.activeAttemptId)
        fun _ q => Run.triggered now q (a.row s.settings now q) := by
  rw [retryRun]
  obtain ⟨_, _, h⟩ := recordRetryCapacity_eq
      (Store.appendAttemptTraces _ now r.activeAttemptId.toList) now a r
  rw [h]
  rfl

theorem runs_replaceRun (source replacement : RunId) (workerId : WorkerId) (tenantId : TenantId)
    (lease : Option (LeaseId × Lease)) :
    (s.replaceRun now source replacement workerId tenantId lease).runs =
      s.runs.update (fun id r => id == source && r.workerId == workerId && r.state == .queued)
        fun _ r => Run.triggered now r (replacedRow now r) := rfl

theorem runs_expireRun (a : ExpireQueued) (r : Run) :
    (s.expireRun now a r).runs =
      s.runs.update (fun id q => id == a.runId && a.due now q)
        fun _ q => Run.triggered now q (a.row now q) := by
  unfold expireRun
  split <;> rfl

end Rows

/-! ## What the transactions can do -/

section Cases

variable {s : Store} {now : Time}

/-- What a replacement finds. -/
structure Replaces (s : Store) (source replacement : RunId) (workerId : WorkerId)
    (projectId : ProjectId) (w : Worker) (r : Run) : Prop where
  free : s.runs.get? replacement = none
  worker : s.workers.get? workerId = some w
  admitted : workAdmissionError (some w) (some projectId) = none
  get : s.runs.get? source = some r
  runWorker : r.workerId = workerId
  runProject : r.projectId = projectId
  replaceable : s.replaceable source workerId r = true

theorem replaceQueuedRunIdempotently_of_replaces {source replacement : RunId}
    {workerId : WorkerId} {projectId : ProjectId} {instruction : String} {w : Worker} {r : Run}
    (h : s.Replaces source replacement workerId projectId w r) :
    (s.replaceQueuedRunIdempotently now source replacement workerId projectId instruction).store =
      match s.insertRun? replacement
          (s.newRun now replacement workerId projectId w.tenantId instruction .queued) with
      | none => s
      | some s₁ => s₁.replaceRun now source replacement workerId w.tenantId
          (s.replacedLease source workerId) := by
  have hr : (s.runs.get? source).filter
      (fun r => r.workerId == workerId && r.projectId == projectId) = some r :=
    Option.filter_eq_some_iff.mpr ⟨h.get, by simp [h.runWorker, h.runProject]⟩
  rw [replaceQueuedRunIdempotently, h.free]
  dsimp only
  rw [h.worker, h.admitted, hr]
  dsimp only
  rw [h.replaceable]
  simp only [Bool.not_true, Bool.false_eq_true, if_false]
  split <;> rfl

theorem replaceQueuedRunIdempotently_cases (s : Store) (now : Time) (source : RunId)
    (replacement : RunId) (workerId : WorkerId) (projectId : ProjectId) (instruction : String) :
    (s.replaceQueuedRunIdempotently now source replacement workerId projectId instruction).store =
        s ∨
      ∃ w r s₁, s.Replaces source replacement workerId projectId w r ∧
        s.insertRun? replacement
          (s.newRun now replacement workerId projectId w.tenantId instruction .queued) = some s₁ ∧
        (s.replaceQueuedRunIdempotently now source replacement workerId projectId
          instruction).store = s₁.replaceRun now source replacement workerId w.tenantId
            (s.replacedLease source workerId) := by
  by_cases h : ∃ w r, s.Replaces source replacement workerId projectId w r
  · obtain ⟨w, r, h⟩ := h
    rw [replaceQueuedRunIdempotently_of_replaces h]
    cases hins : s.insertRun? replacement
        (s.newRun now replacement workerId projectId w.tenantId instruction .queued) with
    | none => exact Or.inl rfl
    | some s₁ => exact Or.inr ⟨w, r, s₁, h, hins, rfl⟩
  · refine Or.inl ?_
    rw [replaceQueuedRunIdempotently]
    split
    · split <;> rfl
    rename_i hfree
    split
    · rfl
    · rename_i w r hadmission hw hr
      obtain ⟨hr, hok⟩ := Option.filter_eq_some_iff.mp hr
      simp only [Bool.and_eq_true, beq_iff_eq] at hok
      split
      · rfl
      rename_i hrep
      rw [hw] at hadmission
      exact absurd ⟨w, r, hfree, hw, hadmission, hr, hok.1, hok.2, by simpa using hrep⟩ h
    · rfl

theorem expireQueuedRunIfDue_of_due {a : ExpireQueued} {r : Run}
    (hr : s.runs.get? a.runId = some r) (hdue : a.due now r = true)
    (hexact : a.callbackExact = true) :
    (s.expireQueuedRunIfDue now a).store = s.expireRun now a r := by
  have h : (s.runs.get? a.runId).filter (a.due now) = some r :=
    Option.filter_eq_some_iff.mpr ⟨hr, hdue⟩
  rw [expireQueuedRunIfDue, h]
  dsimp only
  rw [hexact]
  rfl

theorem expireQueuedRunIfDue_cases (s : Store) (now : Time) (a : ExpireQueued) :
    ((s.expireQueuedRunIfDue now a).store = s ∧
      ¬∃ r, s.runs.get? a.runId = some r ∧ a.due now r = true ∧ a.callbackExact = true) ∨
      ∃ r, s.runs.get? a.runId = some r ∧ a.due now r = true ∧ a.callbackExact = true ∧
        (s.expireQueuedRunIfDue now a).store = s.expireRun now a r := by
  by_cases h : ∃ r, s.runs.get? a.runId = some r ∧ a.due now r = true ∧ a.callbackExact = true
  · obtain ⟨r, hr, hdue, hexact⟩ := h
    exact Or.inr ⟨r, hr, hdue, hexact, expireQueuedRunIfDue_of_due hr hdue hexact⟩
  · refine Or.inl ⟨?_, h⟩
    rw [expireQueuedRunIfDue]
    split
    · rfl
    rename_i r hr
    obtain ⟨hr, hdue⟩ := Option.filter_eq_some_iff.mp hr
    split
    · rfl
    · rename_i hexact
      exact absurd ⟨r, hr, hdue, by simpa using hexact⟩ h

end Cases

end Store

end GlassHive
