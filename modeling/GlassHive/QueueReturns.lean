import GlassHive.Queue

/-!
# Other ways back to the queue

A run that has not produced anything yet is moved to the trusted fallback profile of its worker in
one transaction and returns to the queue, and so does a direct provider turn that waited for a
capability grant. Local QA moves the deadline of a wait to the present.
-/

namespace GlassHive

open Relational

/-- The arguments of `switch_worker_profile_and_requeue_run`. `fallbackEnv` is the `env` of the
fallback bundle, empty when there is none. -/
structure SwitchProfile where
  workerId : WorkerId
  runId : RunId
  expectedProfile : String
  fallbackProfile : String
  fallbackRuntime : String
  fallbackModel : String
  retryAfter : Time
  errorText : String
  routeCooldownUntil : Option Time
  routeFailureClass : String
  routeSourceRuntime : String
  routeSourceModel : String
  fallbackEnv : JsonFields
  failure : FailurePatch

namespace SwitchProfile

/-- The variable that carries the effort of a profile. -/
def effortKey (a : SwitchProfile) : Option String :=
  if a.fallbackProfile == "codex-cli" then some "WPR_CODEX_CLI_REASONING_EFFORT"
  else if a.fallbackProfile == "claude-code" then some "WPR_CLAUDE_CODE_EFFORT"
  else none

/-- `dict(bundle.get("env") or {})`, when it is an object or stands for none. -/
def envFields : Option JsonValue → Option JsonFields
  | none | some .null | some (.bool false) | some (.num 0) | some (.str "") | some (.arr []) =>
    some []
  | some (.obj env) => some env
  | _ => none

/-- The effort that the fallback brings, for the variable that carries it. -/
def effort (a : SwitchProfile) : Option (String × JsonValue) :=
  a.effortKey.bind fun key => (JsonFields.get? a.fallbackEnv key).map fun value => (key, value)

/-- A bundle with the effort of the fallback in its `env`. -/
def withEffort (a : SwitchProfile) (fields : JsonFields) : Option JsonFields :=
  match a.effort with
  | none => some fields
  | some (key, value) =>
    (envFields (JsonFields.get? fields "env")).map fun env =>
      JsonFields.set fields "env" (.obj (JsonFields.set env key value))

/-- The bundle of the worker with the effort of the fallback and its model. -/
def bundle (a : SwitchProfile) (current : Option JsonValue) : Option JsonFields :=
  (((current.getD (.obj [])).fields?).bind a.withEffort).map fun fields =>
    JsonFields.set fields "provider_model" (.str a.fallbackModel)

/-- The failure class that the caller passes. -/
def failureClass (a : SwitchProfile) : String :=
  a.failure.failureClass.getD ""

/-- `route_failure_class`. -/
def routeClass (a : SwitchProfile) : String :=
  RequeueRetry.firstText [a.routeFailureClass, a.failureClass, "provider_quota_exhausted"]

/-- `last_retry_class`. -/
def retryClass (a : SwitchProfile) : String :=
  RequeueRetry.firstText [a.failureClass, "provider_quota_exhausted"]

/-- The columns of the worker. -/
def workerRow (a : SwitchProfile) (now : Time) (fields : JsonFields) (w : Worker) : Worker :=
  { w with
    profile := a.fallbackProfile
    runtime := a.fallbackRuntime
    model := a.fallbackModel
    bootstrapBundle := some (.obj fields)
    state := .ready
    lastError := ""
    updatedAt := now }

/-- The columns of the run, for the worker as it was. -/
def row (a : SwitchProfile) (settings : Settings) (now : Time) (w : Worker) (r : Run) : Run :=
  { r with
    state := .queued
    claimedAt := none
    admittedAt := none
    runtimeInvokedAt := none
    activeAttemptId := none
    endedAt := none
    retry := { r.retry with retryAfter := some a.retryAfter, lastClass := a.retryClass }
    errorText := a.errorText
    native := ⟨"", "\x7b\x7d", "\x7b\x7d"⟩
    route :=
      { profile := a.fallbackProfile
        runtime := a.fallbackRuntime
        model := a.fallbackModel
        decision := "fallback_selected"
        fromProfile := a.expectedProfile
        fromRuntime := RequeueRetry.firstText [a.routeSourceRuntime, w.runtime]
        fromModel := RequeueRetry.firstText [a.routeSourceModel, w.model]
        failureClass := a.routeClass
        cooldownUntil := a.routeCooldownUntil }
    queueWait := { r.queueWait.requeue settings now a.runId with blockerClass := a.routeClass }
    failure := a.failure.apply r.failure }

end SwitchProfile

/-- The arguments of `reopen_direct_provider_needs_input`. -/
structure ReopenRequest where
  requestId : RequestId
  runId : RunId
  responseTimeout : ℕ
  responseDeadlineAt : Option Time

/-- The columns of a run whose direct provider turn is reopened: whatever its wait was, the next
generation opens. -/
def reopenedRow (settings : Settings) (now : Time) (runId : RunId) (r : Run) : Run :=
  { r with
    state := .queued
    claimedAt := none
    admittedAt := none
    runtimeInvokedAt := none
    activeAttemptId := none
    endedAt := none
    retry := { r.retry with retryAfter := none, lastClass := "" }
    errorText := ""
    failure := .clear
    queueWait :=
      { QueueWait.resume settings now runId { r.queueWait with isOpen := false } with
        blockerClass := "admission_pending" } }

/-- The arguments of `force_queue_deadline_for_local_qa`. -/
structure ForceDeadline where
  runId : RunId
  expectedState : RunState
  expectedGeneration : ℕ
  expectedDeadline : Time

namespace ForceDeadline

/-- The wait is the one the caller saw. -/
def matches? (a : ForceDeadline) (r : Run) : Bool :=
  r.state == a.expectedState && r.queueWait.isOpen &&
    r.queueWait.generation == a.expectedGeneration && r.queueWait.deadlineAt == a.expectedDeadline

/-- The columns of the forced run. -/
def row (now : Time) (r : Run) : Run :=
  { r with queueWait := { r.queueWait with deadlineAt := now, nextStatusAt := some now } }

end ForceDeadline

namespace Store

/-! ## The profile switch -/

/-- The run states in which a run may change its profile. -/
def switchableRunStates : List RunState :=
  [.claimed, .admitted, .running]

/-- The run that may be switched. -/
def switchable (s : Store) (a : SwitchProfile) (w : Worker) : Option Run :=
  (s.runs.get? a.runId).filter fun r =>
    r.workerId == a.workerId && oneOf r.state switchableRunStates &&
      w.profile == a.expectedProfile && !r.liveness.routeLocked

/-- What a switch writes. -/
def switchRun (s : Store) (now : Time) (a : SwitchProfile) (fields : JsonFields) (w : Worker)
    (r : Run) : Store :=
  s
    |>.updateWorkers (fun id v => id == a.workerId && v.profile == a.expectedProfile)
        (a.workerRow now fields)
    |>.updateRuns now (fun id q => id == a.runId && q.workerId == a.workerId &&
        oneOf q.state switchableRunStates) (a.row s.settings now w)
    |>.updateLeases (fun _ l => l.runId == a.runId && l.status == .active)
        (Lease.release now ("run_requeued:" ++ a.routeClass))
    |>.updateAttempts (fun id t => some id == r.activeAttemptId && t.endedAt.isNone)
        (Attempt.finish now .retryQueued a.retryClass)
    |>.appendAttemptTraces now r.activeAttemptId.toList

/-- `switch_worker_profile_and_requeue_run`. -/
def switchWorkerProfileAndRequeueRun (s : Store) (now : Time) (a : SwitchProfile) :
    Outcome (Option Run) :=
  match workAdmissionError (s.workers.get? a.workerId) none, s.workers.get? a.workerId with
  | some e, _ => .raise s e
  | none, none => .commit s none
  | none, some w =>
    match s.switchable a w with
    | none => .commit s none
    | some r =>
      match a.bundle w.bootstrapBundle with
      | none => .raise s (.valueError "bootstrap_bundle_json")
      | some fields =>
        let s' := s.switchRun now a fields w r
        .commit s' (s'.runs.get? a.runId)

/-! ## The direct provider turn -/

/-- The last of the worker's pauses and resumes is a pause. -/
def pausedLast (s : Store) (workerId : WorkerId) : Bool :=
  ((s.events.select fun _ e => e.workerId == workerId && oneOf e.eventType
      ["worker.paused", "worker.resumed", "worker.resumed_by_alias"]).getLast?).any
    fun e => e.2.eventType == "worker.paused"

/-- The worker may take its turn up again. -/
def resumableTurn (w : Worker) (q : ProviderRequest) : Bool :=
  (w.state == .needsInput || oneOf w.state [.ready, .starting, .running] && q.stateless) &&
    w.release.token.isNone

/-- The turn failed for want of a grant, before anything was answered. -/
def unansweredTurn (runId : RunId) (q : ProviderRequest) (r : Run) : Bool :=
  q.runId == some runId && q.state == "failed" && q.fallbackState == "" && q.response == "" &&
    r.state == .needsInput && r.failure.failureClass == "conversation_capability_grant_required" &&
    !r.failure.retryable && r.failure.structured

/-- `exact` of `reopen_direct_provider_needs_input`. -/
def reopenable (s : Store) (runId : RunId) (q : ProviderRequest) (r : Run) (w : Worker) : Bool :=
  unansweredTurn runId q r && resumableTurn w q &&
    !(s.runs.any fun _ p => p.workerId == r.workerId && p.state == .paused) &&
    !s.pausedLast r.workerId &&
    !(s.leases.any fun _ l => l.runId == runId && l.status == .active) &&
    (r.activeAttemptId.isNone ||
      (s.activeAttempt runId r).any fun t => t.2.state == .of .needsInput && t.2.endedAt.isSome)

/-- What a reopened turn writes. -/
def reopenRun (s : Store) (now : Time) (a : ReopenRequest) : Store :=
  s
    |>.updateRuns now (fun id r => id == a.runId && r.state == .needsInput &&
        r.failure.failureClass == "conversation_capability_grant_required" &&
        !r.failure.retryable && r.failure.structured) (reopenedRow s.settings now a.runId)
    |>.updateRequests (fun id q => id == a.requestId && q.runId == some a.runId &&
        q.state == "failed" && q.fallbackState == "" && q.response == "")
        (fun q => { q with
          state := "queued", responseTimeout := a.responseTimeout,
          responseDeadlineAt := a.responseDeadlineAt, updatedAt := now })

/-- `reopen_direct_provider_needs_input`. -/
def reopenDirectProviderNeedsInput (s : Store) (now : Time) (a : ReopenRequest) :
    Outcome (Option Run) :=
  match s.requests.get? a.requestId, s.runs.get? a.runId with
  | some q, some r =>
    match s.workers.get? r.workerId with
    | none => .commit s none
    | some w =>
      if !s.reopenable a.runId q r w then .commit s none
      else match workAdmissionError (some w) none with
      | some e => .raise s e
      | none =>
        let s' := s.reopenRun now a
        .commit s' (s'.runs.get? a.runId)
  | _, _ => .commit s none

/-! ## Local QA -/

/-- `force_queue_deadline_for_local_qa`. -/
def forceQueueDeadlineForLocalQa (s : Store) (now : Time) (a : ForceDeadline) :
    Outcome (Option Run) :=
  if !oneOf a.expectedState [.claimed, .admitted] then
    .raise s (.valueError "Local-QA queue stall state is invalid")
  else
    let s' := s.updateRuns now (fun id r => id == a.runId && a.matches? r) (ForceDeadline.row now)
    .commit s' (if (s.runs.get? a.runId).any a.matches? then s'.runs.get? a.runId else none)

/-! ## The runs that they leave -/

section Rows

variable {s : Store} {now : Time} {a : SwitchProfile}

theorem runs_switchRun (fields : JsonFields) (w : Worker) (r : Run) :
    (s.switchRun now a fields w r).runs =
      s.runs.update (fun id q => id == a.runId && q.workerId == a.workerId &&
        oneOf q.state switchableRunStates)
        fun _ q => Run.triggered now q (a.row s.settings now w q) := rfl

/-- A switch moves one run that a worker has claimed, or it changes nothing. -/
theorem switchWorkerProfileAndRequeueRun_cases (s : Store) (now : Time) (a : SwitchProfile) :
    (s.switchWorkerProfileAndRequeueRun now a).store = s ∨
      ∃ w r fields, s.workers.get? a.workerId = some w ∧ s.switchable a w = some r ∧
        (s.switchWorkerProfileAndRequeueRun now a).store = s.switchRun now a fields w r := by
  unfold switchWorkerProfileAndRequeueRun
  split
  · exact Or.inl rfl
  · exact Or.inl rfl
  · rename_i w _ hworker
    split
    · exact Or.inl rfl
    · rename_i r hr
      split
      · exact Or.inl rfl
      · rename_i fields _
        exact Or.inr ⟨w, r, fields, hworker, hr, rfl⟩

theorem runs_reopenRun (a : ReopenRequest) :
    (s.reopenRun now a).runs =
      s.runs.update (fun id r => id == a.runId && r.state == .needsInput &&
          r.failure.failureClass == "conversation_capability_grant_required" &&
          !r.failure.retryable && r.failure.structured)
        fun _ r => Run.triggered now r (reopenedRow s.settings now a.runId r) := rfl

/-- A turn is reopened once, or nothing changes. -/
theorem reopenDirectProviderNeedsInput_cases (s : Store) (now : Time) (a : ReopenRequest) :
    (s.reopenDirectProviderNeedsInput now a).store = s ∨
      (s.reopenDirectProviderNeedsInput now a).store = s.reopenRun now a := by
  unfold reopenDirectProviderNeedsInput
  split
  · split
    · exact Or.inl rfl
    split
    · exact Or.inl rfl
    split
    · exact Or.inl rfl
    · exact Or.inr rfl
  · exact Or.inl rfl

theorem forceQueueDeadlineForLocalQa_cases (s : Store) (now : Time) (a : ForceDeadline) :
    (s.forceQueueDeadlineForLocalQa now a).store = s ∨
      (s.forceQueueDeadlineForLocalQa now a).store.runs =
        s.runs.update (fun id r => id == a.runId && a.matches? r)
          fun _ r => Run.triggered now r (ForceDeadline.row now r) := by
  unfold forceQueueDeadlineForLocalQa
  split
  · exact Or.inl rfl
  · exact Or.inr rfl

end Rows

end Store

end GlassHive
