import GlassHive.Library.Like
import GlassHive.Schedules

/-!
# Runs: creation, generic transitions and terminal outcomes

A run is created queued. The generic writers check work admission for a nonterminal target, refuse
to start a run, and leave a run alone that a destructive claim owns. A terminal outcome ends the
active attempt.
-/

namespace GlassHive

open Relational

/-! ## Column assignments -/

/-- The failure columns a caller assigns. -/
structure FailurePatch where
  failureClass : Option String
  retryable : Option Bool
  structured : Option Bool
  userMessage : Option String
  recommendedRecovery : Option String
  diagnosticSummary : Option String

namespace FailurePatch

/-- No failure column is assigned. -/
def none : FailurePatch :=
  ⟨.none, .none, .none, .none, .none, .none⟩

/-- Every failure column is cleared. -/
def clear : FailurePatch :=
  ⟨some "", some false, some false, some "", some "", some ""⟩

/-- The columns of `p`, and those of `q` where `p` has none. -/
def orElse (p q : FailurePatch) : FailurePatch where
  failureClass := p.failureClass <|> q.failureClass
  retryable := p.retryable <|> q.retryable
  structured := p.structured <|> q.structured
  userMessage := p.userMessage <|> q.userMessage
  recommendedRecovery := p.recommendedRecovery <|> q.recommendedRecovery
  diagnosticSummary := p.diagnosticSummary <|> q.diagnosticSummary

def apply (p : FailurePatch) (f : Failure) : Failure where
  failureClass := p.failureClass.getD f.failureClass
  retryable := p.retryable.getD f.retryable
  structured := p.structured.getD f.structured
  userMessage := p.userMessage.getD f.userMessage
  recommendedRecovery := p.recommendedRecovery.getD f.recommendedRecovery
  diagnosticSummary := p.diagnosticSummary.getD f.diagnosticSummary

end FailurePatch

/-- The columns, besides `state`, that callers of `update_run` and `transition_run_if_state`
assign. -/
structure RunPatch where
  startedAt : Option (Option Time)
  endedAt : Option (Option Time)
  outputText : Option String
  errorText : Option String
  failure : FailurePatch
  retryAfter : Option (Option Time)
  retryAttempts : Option ℕ
  capacityCount : Option ℕ
  lastRetryClass : Option String
  usage : Option TokenUsage
  native : Option NativeSession
  route : Option ProviderRoute

namespace RunPatch

/-- No column is assigned. -/
def none : RunPatch where
  startedAt := .none
  endedAt := .none
  outputText := .none
  errorText := .none
  failure := .none
  retryAfter := .none
  retryAttempts := .none
  capacityCount := .none
  lastRetryClass := .none
  usage := .none
  native := .none
  route := .none

/-- The defaults that `CANCELLATION_CLEAR_FIELDS` adds to a cancellation. -/
def cancelled (p : RunPatch) : RunPatch :=
  { p with
    failure := p.failure.orElse .clear
    retryAfter := p.retryAfter <|> some .none
    retryAttempts := p.retryAttempts <|> some 0
    capacityCount := p.capacityCount <|> some 0
    lastRetryClass := p.lastRetryClass <|> some "" }

/-- The assignments of `UPDATE runs SET …`, without the state. -/
def apply (p : RunPatch) (r : Run) : Run :=
  { r with
    startedAt := p.startedAt.getD r.startedAt
    endedAt := p.endedAt.getD r.endedAt
    outputText := p.outputText.getD r.outputText
    errorText := p.errorText.getD r.errorText
    failure := p.failure.apply r.failure
    retry :=
      { retryAfter := p.retryAfter.getD r.retry.retryAfter
        attempts := p.retryAttempts.getD r.retry.attempts
        capacityCount := p.capacityCount.getD r.retry.capacityCount
        lastClass := p.lastRetryClass.getD r.retry.lastClass }
    usage := p.usage.getD r.usage
    native := p.native.getD r.native
    route := p.route.getD r.route }

/-- A start time that contradicts the one the run already has. -/
def restarts (p : RunPatch) (r : Run) : Bool :=
  match p.startedAt with
  | .none => false
  | some t => r.startedAt.isSome && t != r.startedAt

end RunPatch

/-! ## Admission and ownership -/

/-- `_require_worker_work_admission`: the exception it raises, if any. -/
def workAdmissionError (w : Option Worker) (projectId : Option ProjectId) : Option StoreError :=
  match w with
  | none => some (.workAdmission "worker_not_found" "Worker not found")
  | some w =>
    if w.state == .terminated then
      some (.workAdmission "worker_terminated" "The workspace has ended")
    else if w.workStop.id.isSome then
      if w.workStop.settledAt.isNone then
        some (.workAdmission "work_stopping" "A workspace stop operation is in progress")
      else some (.workAdmission "work_stopped" "The workspace work has stopped")
    else if w.release.token.isSome && oneOf w.release.scope [.work, .worker] then
      some (.workAdmission "work_stopping" "A workspace stop operation is in progress")
    else if projectId.any (· != w.projectId) then
      some (.workAdmission "worker_scope_mismatch"
        "Worker does not belong to the requested project")
    else none

/-- The kinds whose claim owns its target run. -/
def OperationKind.destructive : List OperationKind :=
  [.pauseRun, .resumeRun, .interruptRun, .steerRun, .maxDuration, .stopRun, .terminateWorker]

/-- `_run_is_owned_by_destructive_claim`. -/
def runIsOwnedByDestructiveClaim (w : Worker) (runId : RunId) : Bool :=
  w.release.token.isSome && w.release.targetRunId == some runId &&
    w.release.kind.any fun k => oneOf k OperationKind.destructive

/-- One generation of a run, as its executor knows it. -/
structure Generation where
  attemptId : Option AttemptId
  leaseId : Option LeaseId
  executorId : Option ExecutorId
  startupToken : Option Token
  runtimeInvokedAt : Option Time
  deriving DecidableEq, Repr

/-- No generation is expected. -/
def Generation.none : Generation :=
  ⟨.none, .none, .none, .none, .none⟩

/-- A provider account fence: the account, the mission lane, and whether the mission may fall back
to another account. -/
structure AccountFence where
  accountId : RowId
  missionLane : String
  allowMissionFallback : Bool

namespace Store

/-- `_running_generation_is_exact_conn`. -/
def runningGenerationIsExact (s : Store) (runId : RunId) (now : Time) : Bool :=
  match s.runs.get? runId with
  | none => false
  | some r =>
    match r.activeAttemptId with
    | none => false
    | some attemptId =>
      match s.attempts.get? attemptId with
      | none => false
      | some a =>
        a.runId == runId && r.runtimeInvokedAt.isSome && r.endedAt.isNone &&
          a.state == .of .running && a.runtimeInvokedAt == r.runtimeInvokedAt &&
          a.endedAt.isNone &&
          s.leases.any fun id l => l.runId == runId && l.attemptId == some attemptId &&
            a.leaseId == some id && l.status == .active && decide (now < l.expiresAt)

/-- `_run_generation_is_exact_conn`. -/
def runGenerationIsExact (s : Store) (runId : RunId) (r : Run) (expected : Generation) : Bool :=
  match r.activeAttemptId with
  | none => expected == .none
  | some attemptId =>
    let lease := (expected.leaseId.bind s.leases.get?).filter fun l =>
      l.runId == runId && l.attemptId == some attemptId
    match (s.attempts.get? attemptId).filter fun a => a.runId == runId with
    | none => false
    | some a =>
      expected.attemptId == some attemptId && a.endedAt.isNone &&
        (a.leaseId == expected.leaseId ||
          (a.state == .of .claimed && a.leaseId.isNone && expected.runtimeInvokedAt.isNone)) &&
        a.runtimeInvokedAt == expected.runtimeInvokedAt &&
        r.runtimeInvokedAt == expected.runtimeInvokedAt &&
        match lease with
        | some l => some l.executorId == expected.executorId &&
            l.startupToken == expected.startupToken
        | none => a.leaseId.isNone && expected.leaseId.isNone && expected.executorId.isNone &&
            expected.startupToken.isNone && expected.runtimeInvokedAt.isNone

/-! ## Creation -/

/-- `_queue_defaults`. -/
def queueDefaults (s : Store) (queuedAt : Time) (runId : RunId) : QueueWait :=
  let deadline := queuedAt + s.settings.queueWaitTimeout * 1000000
  { firstQueuedAt := queuedAt
    deadlineAt := deadline
    blockerClass := "admission_pending"
    nextStatusAt := some (queuedAt + s.settings.queueStatusRefresh * 1000000)
    episode := 1
    isOpen := true
    generation := 1
    startedAt := queuedAt
    closedAt := none
    durationSeconds := none
    transitionEmitted := false
    statusSequence := 0
    callbackState := "unknown"
    terminalCallbackId := some
      { kind := "timeout", runId := runId, generation := 1, deadline := deadline } }

/-- The row of a new run. -/
def newRun (s : Store) (now : Time) (runId : RunId) (workerId : WorkerId) (projectId : ProjectId)
    (tenantId : TenantId) (instruction : String) (state : RunState) : Run where
  workerId := workerId
  projectId := projectId
  tenantId := tenantId
  instruction := instruction
  state := state
  queuedAt := now
  queueWait := s.queueDefaults now runId
  claimedAt := none
  admittedAt := none
  startedAt := none
  runtimeInvokedAt := none
  activeAttemptId := none
  endedAt := none
  outputText := ""
  errorText := ""
  terminalResultRevision := if oneOf state RunState.terminal then 1 else 0
  failure := .clear
  runtimeBundle := none
  retry := .clear
  usage := ⟨0, 0, 0, 0⟩
  native := ⟨"", "\x7b\x7d", "\x7b\x7d"⟩
  liveness := ⟨"standard", none, none, 0, 0, "", false⟩
  capacity := .default
  route := .default
  continuationContract := "\x7b\x7d"
  continuationContext := "\x7b\x7d"

/-- `INSERT INTO runs`: the key is free and its worker and project exist. -/
def insertRun? (s : Store) (runId : RunId) (r : Run) : Option Store :=
  if (s.workers.get? r.workerId).isSome && (s.projects.get? r.projectId).isSome then
    (s.runs.insert? runId r).map fun runs => { s with runs := runs }
  else none

/-- A run that is inserted is new, and only the runs change. -/
theorem insertRun?_eq_some {s s' : Store} {runId : RunId} {r : Run}
    (h : s.insertRun? runId r = some s') :
    ∃ runs, s.runs.insert? runId r = some runs ∧ s' = { s with runs := runs } := by
  rw [insertRun?] at h
  split at h
  · obtain ⟨runs, hins, rfl⟩ := Option.map_eq_some_iff.mp h
    exact ⟨runs, hins, rfl⟩
  · cases h

theorem insertRun?_isSome {s : Store} {runId : RunId} {r : Run} :
    (s.insertRun? runId r).isSome = true ↔ (s.workers.get? r.workerId).isSome = true ∧
      (s.projects.get? r.projectId).isSome = true ∧ s.runs.get? runId = none := by
  rw [insertRun?]
  split
  · rename_i h
    rw [Bool.and_eq_true] at h
    rw [Option.isSome_map, Table.insert?_isSome]
    exact ⟨fun hfree => ⟨h.1, h.2, hfree⟩, fun h => h.2.2⟩
  · rename_i h
    rw [Bool.and_eq_true] at h
    exact iff_of_false (by simp) fun h' => h ⟨h'.1, h'.2.1⟩

/-- The origin trace of a follow-up run, `_append_follow_up_origin_trace_conn`. -/
@[simps]
def appendOriginTrace (s : Store) (now : Time) (runId : RunId) (workerId : WorkerId)
    (tenantId : TenantId) : Store :=
  { s with
    workTrace :=
      match s.delegations.first (fun _ d => d.workerId == workerId && d.tenantId == tenantId)
          fun d e => decide (d.createdAt < e.createdAt) with
      | none => s.workTrace
      | some (workRef, _) => appendWorkTraceEvent s.workTrace runId workRef .origin now }

/-- The last run of a worker. -/
def touchLastRun (s : Store) (now : Time) (workerId : WorkerId) (runId : RunId) : Store :=
  s.updateWorkers (fun id _ => id == workerId)
    fun w => { w with lastRunId := some runId, updatedAt := now }

/-- `_create_run_parallel`. A requested `running` is created queued. -/
def createRunParallel (s : Store) (now : Time) (workerId : WorkerId) (projectId : ProjectId)
    (instruction : String) (state : RunState) (runId : Option RunId) : Outcome (Option RunId) :=
  let state := if state == .running then .queued else state
  let id := runId.getD (.uuid s.nextId)
  match workAdmissionError (s.workers.get? workerId) (some projectId), s.workers.get? workerId with
  | some e, _ => .raise s e
  | none, none => .raise s (.workAdmission "worker_not_found" "Worker not found")
  | none, some w =>
    match s.drawId.insertRun? id
        (s.newRun now id workerId projectId w.tenantId instruction state) with
    | none => .raise s (.integrity "runs.run_id")
    | some s' =>
      .commit ((s'.appendOriginTrace now id workerId w.tenantId).touchLastRun now workerId id)
        (some id)

/-- `_interactive_provider_setup_active`. The lane is `LIKE '%:interactive'`. -/
def interactiveProviderSetupActive (s : Store) (workerId : WorkerId) (now : Time) : Bool :=
  s.accountLeases.any fun _ l => l.workerId == workerId && l.releasedAt.isNone &&
    decide (now < l.expiresAt) &&
    Like.like (Points.ofString "%:interactive") (Points.ofString l.lane)

/-- The fenced account is in use elsewhere; the flag says whether interactively. -/
def accountFenceBusy (s : Store) (workerId : WorkerId) (now : Time) (fence : AccountFence) :
    Option Bool :=
  match s.accountLeases.first (fun _ l => l.accountId == fence.accountId &&
      l.releasedAt.isNone && decide (now < l.expiresAt) &&
      !(l.workerId == workerId && l.lane == fence.missionLane)) fun _ _ => false with
  | none => none
  | some (_, l) =>
    let interactive := l.lane.endsWith ":interactive"
    if interactive || !fence.allowMissionFallback then some interactive else none

/-- `INSERT INTO provider_account_run_fences`. -/
@[simps]
def insertAccountFence (s : Store) (runId : RunId) (fence : Option AccountFence) : Store :=
  { s with
    accountFences := match fence with
      | none => s.accountFences
      | some f => (s.accountFences.insert? runId f.accountId).getD s.accountFences }

/-- `INSERT INTO runs` and then `INSERT INTO provider_account_run_fences`. -/
def insertFencedRun? (s : Store) (runId : RunId) (r : Run) (fence : Option AccountFence) :
    Option Store :=
  (s.insertRun? runId r).bind fun s' =>
    match fence with
    | none => some s'
    | some f => (s'.accountFences.insert? runId f.accountId).map fun fences =>
      { s' with accountFences := fences }

/-- The fence row of a run that is inserted with one is new. -/
theorem insertFencedRun?_eq_some {s s' : Store} {runId : RunId} {r : Run}
    {fence : Option AccountFence} (h : s.insertFencedRun? runId r fence = some s') :
    ∃ s₁, s.insertRun? runId r = some s₁ ∧ s' = s₁.insertAccountFence runId fence ∧
      ∀ f, fence = some f → s.accountFences.get? runId = none := by
  obtain ⟨s₁, hins, h⟩ := Option.bind_eq_some_iff.mp h
  refine ⟨s₁, hins, ?_⟩
  obtain ⟨runs, -, rfl⟩ := insertRun?_eq_some hins
  cases fence with
  | none => exact ⟨(Option.some.inj h).symm, by simp⟩
  | some =>
    obtain ⟨fences, hfences, rfl⟩ := Option.map_eq_some_iff.mp h
    refine ⟨?_, fun _ _ => (Table.insert?_eq_some hfences).1⟩
    simp [insertAccountFence, hfences]

/-- `create_run`, in the branch that does not delegate to `_create_run_parallel`. -/
def createRunLegacy (s : Store) (now : Time) (workerId : WorkerId) (projectId : ProjectId)
    (instruction : String) (state : RunState) (resumePaused : Bool) (fence : Option AccountFence)
    (bootstrapBundle : Option JsonValue) : Outcome (Option RunId) :=
  match (s.workers.get? workerId).filter fun w => w.projectId == projectId with
  | none => .raise s (.valueError "Worker not found for project")
  | some w =>
    if oneOf w.state WorkerState.closed then
      .raise s (.workerClosed "Workspace is closed; create a new workspace for new work")
    else if s.workspaceGcClaimActive workerId then
      .raise s (.runtimeError "Workspace is being garbage-collected")
    else if s.interactiveProviderSetupActive workerId now then
      .raise s (.accountBusy "Workspace AI setup is already active" true)
    else match fence.bind (s.accountFenceBusy workerId now) with
      | some interactive =>
        .raise s (.accountBusy "Provider account setup or work is already active" interactive)
      | none =>
        let id := RunId.uuid s.nextId
        match s.drawId.insertFencedRun? id
            (s.newRun now id workerId projectId w.tenantId instruction state) fence with
        | none => .raise s (.integrity "runs.run_id")
        | some s' =>
          .commit (s'.updateWorkers (fun id _ => id == workerId)
            fun w => { w with
              state := if resumePaused && w.state == .paused then .starting else w.state
              lastError := if resumePaused && w.state == .paused then "" else w.lastError
              bootstrapBundle := bootstrapBundle <|> w.bootstrapBundle
              lastRunId := some id
              updatedAt := now }) (some id)

/-- `create_run` for a queued run. The caller's run id, origin trace or continuation, or a clean
room worker, sends it to `_create_run_parallel`. -/
def createRun (s : Store) (now : Time) (workerId : WorkerId) (projectId : ProjectId)
    (instruction : String) (runId : Option RunId) (structured resumePaused : Bool)
    (fence : Option AccountFence) (bootstrapBundle : Option JsonValue) : Outcome (Option RunId) :=
  if (s.workers.get? workerId).any Worker.parallelCleanRoom || runId.isSome || structured then
    s.createRunParallel now workerId projectId instruction .queued runId
  else
    s.createRunLegacy now workerId projectId instruction .queued resumePaused fence bootstrapBundle

/-- `create_or_get_run_for_schedule`. The flag says whether a run was created. -/
def createOrGetRunForSchedule (s : Store) (now : Time) (scheduleId : ScheduleId)
    (runtimeBundle : Option JsonValue) (requirePrincipalAuthority : Bool)
    (fence : Option AccountFence) : Outcome (Option (RunId × Bool)) :=
  match s.scheduledRuns.get? scheduleId with
  | none => .raise s (.valueError "Scheduled run not found")
  | some q =>
    if requirePrincipalAuthority && !s.scheduleAuthorityEnabled q.tenantId q.ownerId then
      .raise s (.principalAuthority "scheduled principal has been disabled")
    else match q.queuedRunId with
    | some linked =>
      if (s.runs.get? linked).isNone then
        .raise s (.runtimeError "Scheduled run references a missing queued run")
      else .commit s (some (linked, false))
    | none =>
      if q.state != .running then
        .raise s (.runtimeError "Scheduled run must be claimed before dispatch")
      else match (s.workers.get? q.workerId).filter fun w => w.projectId == q.projectId with
      | none => .raise s (.valueError "Scheduled workspace no longer exists")
      | some w =>
        if oneOf w.state WorkerState.closed then
          .raise s (.workerClosed "Workspace is closed; create a new workspace for new work")
        else
          let id := RunId.schedule scheduleId
          let link : Store → Store := fun s => s
            |>.updateScheduledRuns
                (fun i r => i == scheduleId && r.state == .running && r.queuedRunId.isNone)
                (fun r => { r with
                  state := .queued, queuedRunId := some id, lastError := "", updatedAt := now })
            |>.updateOccurrences
                (fun _ o => o.scheduledRunId == scheduleId &&
                  !oneOf o.state OccurrenceState.terminal)
                (fun o => { o with
                  state := .queued, outcome := "pending", claimExpiresAt := none })
            |>.updateWorkers (fun i _ => i == q.workerId)
                (fun w => { w with
                  state := if w.state == .paused then .starting else w.state
                  lastError := if w.state == .paused then "" else w.lastError
                  lastRunId := some id
                  updatedAt := now })
          match s.runs.get? id with
          | some r =>
            if r.workerId == q.workerId && r.projectId == q.projectId &&
                r.instruction == q.instruction then .commit (link s) (some (id, false))
            else .raise s (.runtimeError "Stable scheduled run id is bound to another request")
          | none =>
            if s.interactiveProviderSetupActive q.workerId now then
              .raise s (.accountBusy "Workspace AI setup is already active" true)
            else match fence.bind (s.accountFenceBusy q.workerId now) with
            | some interactive =>
              .raise s (.accountBusy "Provider account setup or work is already active" interactive)
            | none =>
              match s.insertRun? id { s.newRun now id q.workerId q.projectId q.tenantId
                  q.instruction .queued with runtimeBundle := runtimeBundle } with
              | none => .raise s (.integrity "runs.run_id")
              | some s' =>
                .commit (link ((s'.appendOriginTrace now id q.workerId q.tenantId)
                  |>.insertAccountFence id fence)) (some (id, true))

end Store

/-! ## Downgrade -/

/-- End an attempt, keeping a terminal reason it already has. -/
def Attempt.retire (now : Time) (state : AttemptState) (reason : String) (a : Attempt) : Attempt :=
  { a with
    state := state
    endedAt := a.endedAt <|> some now
    terminalReason := if a.terminalReason == "" then reason else a.terminalReason }

/-- The failure evidence of a downgraded run. -/
def downgradeFailure (managedRestart : Bool) (reason : String) : Failure :=
  if managedRestart then
    { failureClass := reason, retryable := true, structured := true
      userMessage := "Interrupted by a managed restart; the same work resumes automatically."
      recommendedRecovery := "No action is needed; the preserved work is re-admitted automatically "
        ++ "after the restart."
      diagnosticSummary := "Running state was re-queued because its host run lease was released by "
        ++ "a managed shutdown." }
  else
    { failureClass := reason, retryable := true, structured := true
      userMessage := "The prior execution state lacked exact durable dispatch ownership."
      recommendedRecovery := "Retry the preserved work through normal admission."
      diagnosticSummary := "Running state was downgraded because its invocation lease or "
        ++ "attempt was not exact." }

/-- The queue wait of a run that returns to the queue: a closed wait opens a new generation. -/
def QueueWait.reopen (timeout : ℕ) (now : Time) (blocker : String) (w : QueueWait) : QueueWait :=
  let generation := max 1 w.generation + if w.isOpen then 0 else 1
  { w with
    isOpen := true
    generation := generation
    episode := generation
    startedAt := if w.isOpen then w.startedAt else now
    closedAt := none
    durationSeconds := none
    deadlineAt := if w.isOpen then w.deadlineAt else now + timeout * 1000000
    nextStatusAt := none
    blockerClass := blocker }

namespace Store

/-- The open attempt with the highest number. -/
def latestOpenAttempt (s : Store) (runId : RunId) : Option AttemptId :=
  (s.attempts.first (fun _ a => a.runId == runId && a.endedAt.isNone)
    fun a b => decide (b.attemptNumber < a.attemptNumber)).map Prod.fst

/-- The executor released the run's lease on purpose during a managed shutdown. -/
def managedRestart (s : Store) (runId : RunId) (attemptId : Option AttemptId) : Bool :=
  s.leases.any fun _ l => l.runId == runId && l.status == .released &&
    l.releaseReason == "managed_shutdown" && (attemptId.isNone || l.attemptId == attemptId)

/-- The attempt that a downgrade retires: the active one, or else the latest open one. -/
def downgradedAttempt (s : Store) (runId : RunId) (r : Run) : Option AttemptId :=
  r.activeAttemptId <|> s.latestOpenAttempt runId

/-- An open attempt of the run under the given identity. -/
def openAttempt (s : Store) (runId : RunId) (attemptId : AttemptId) : Bool :=
  (s.attempts.get? attemptId).any fun a => a.runId == runId && a.endedAt.isNone

/-- The columns of a downgraded run. -/
def downgradedRow (s : Store) (runId : RunId) (r : Run) (now : Time) (reason : String)
    (q : Run) : Run :=
  { q with
    state := .queued, claimedAt := none, admittedAt := none, runtimeInvokedAt := none,
    activeAttemptId := none, endedAt := none, errorText := reason,
    retry := { q.retry with retryAfter := some now, lastClass := reason },
    failure := downgradeFailure (s.managedRestart runId r.activeAttemptId) reason,
    queueWait := q.queueWait.reopen s.settings.queueWaitTimeout now reason }

/-- `_downgrade_unproven_running_conn`. -/
def downgradeUnprovenRunning (s : Store) (runId : RunId) (r : Run) (now : Time)
    (reason : String) : Store :=
  s
    |>.updateAttempts
        (fun id a => some id == s.downgradedAttempt runId r && a.runId == runId && a.endedAt.isNone)
        (Attempt.retire now .retryQueued reason)
    |>.appendAttemptTraces now ((s.downgradedAttempt runId r).toList.filter (s.openAttempt runId))
    |>.updateLeases (fun _ l => l.runId == runId && l.status == .active)
        (fun l => { l with
          status := .released, releasedAt := some now, releaseReason := reason,
          reconciledAt := l.reconciledAt <|> some now })
    |>.updateRuns now (fun id q => id == runId && q.state == .running)
        (s.downgradedRow runId r now reason)
    |>.updateWorkers (fun id w => id == r.workerId && w.state == .running)
        (fun w => { w with state := .starting, updatedAt := now })

theorem runs_downgradeUnprovenRunning (s : Store) (runId : RunId) (r : Run) (now : Time)
    (reason : String) :
    (s.downgradeUnprovenRunning runId r now reason).runs =
      s.runs.update (fun id q => id == runId && q.state == .running)
        fun _ q => Run.triggered now q (s.downgradedRow runId r now reason q) := rfl

theorem workers_downgradeUnprovenRunning (s : Store) (runId : RunId) (r : Run) (now : Time)
    (reason : String) :
    (s.downgradeUnprovenRunning runId r now reason).workers =
      s.workers.update (fun id w => id == r.workerId && w.state == .running)
        fun _ w => { w with state := .starting, updatedAt := now } := rfl

/-- `reconcile_invalid_running_runs`: one downgrade for each running row that is not exact. -/
def reconcileInvalidRunningRuns (s : Store) (now : Time) : Outcome Unit :=
  .commit ((s.runs.select fun _ r => r.state == .running).foldl (fun s e =>
    if s.runningGenerationIsExact e.1 now then s
    else s.downgradeUnprovenRunning e.1 e.2 now "running_invariant_reconciled") s) ()

/-- The sweep keeps what its downgrades keep. -/
theorem reconcileInvalidRunningRuns_keeps {s : Store} {now : Time} {P : Store → Prop} (h : P s)
    (hstep : ∀ s' runId r, P s' →
      P (s'.downgradeUnprovenRunning runId r now "running_invariant_reconciled")) :
    P (s.reconcileInvalidRunningRuns now).store := by
  rw [reconcileInvalidRunningRuns, Outcome.store_commit]
  refine List.foldlRecOn _ _ h fun s' h e _ => ?_
  split
  · exact h
  · exact hstep s' _ _ h

end Store

end GlassHive
