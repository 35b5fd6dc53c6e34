import GlassHive.Schema

/-!
# The durable store and its statements

The store is one record of tables. A statement changes one table, and through the triggers of
`_init_db` a run update may also change leases. Every operation of the store is one transaction
built from these statements, so an invariant only has to know which tables a statement touches.
-/

namespace GlassHive

open Relational

/-- The process settings read by `_queue_wait_timeout_seconds` and
`_queue_status_refresh_interval_seconds`, with the bounds that `_bounded_env_seconds` enforces. -/
structure Settings where
  queueWaitTimeout : ℕ
  queueStatusRefresh : ℕ
  timeout_mem : 60 ≤ queueWaitTimeout ∧ queueWaitTimeout ≤ 7 * 24 * 60 * 60
  refresh_mem : 10 ≤ queueStatusRefresh ∧ queueStatusRefresh ≤ 24 * 60 * 60

/-- The defaults of the two settings. -/
def Settings.default : Settings where
  queueWaitTimeout := 30 * 60
  queueStatusRefresh := 2 * 60
  timeout_mem := by decide
  refresh_mem := by decide

/-- The database, with the counter that stands for `uuid4`. -/
structure Store where
  settings : Settings
  nextId : ℕ
  projects : Table ProjectId Project
  workers : Table WorkerId Worker
  tombstones : Table WorkerId Tombstone
  runs : Table RunId Run
  attempts : Table AttemptId Attempt
  leases : Table LeaseId Lease
  scheduledRuns : Table ScheduleId ScheduledRun
  definitions : Table DefinitionId RecurringDefinition
  occurrences : Table OccurrenceId Occurrence
  authority : Table (TenantId × OwnerId) PrincipalAuthority
  delegations : Table WorkRef Delegation
  sessions : Table SessionId ProviderSession
  requests : Table RequestId ProviderRequest
  events : Table EventId EventRow
  effects : Table LifecycleKey LifecycleEffect
  runActionUses : Table RowId RunActionUse
  workTrace : Table (RunId × ℕ) WorkTraceEvent
  accounts : Table RowId ProviderAccount
  accountLeases : Table RowId AccountLease
  library : Table RowId LibraryItem
  pendingChanges : Table RowId PendingChange
  templateInstantiations : Table RowId WorkspaceCopy
  duplications : Table RowId WorkspaceCopy
  accountFences : Table RunId RowId
  capabilityGrants : Table RowId CapabilityGrant
  capacityAttempts : Table (RunId × ℕ) CapacityAttempt
  callbackOutbox : Table CallbackId Reference
  callbackTrace : Table RowId Reference
  callbackReconciliations : Table RowId Reference
  revocations : Table RevocationBinding Revocation
  activity : Table RowId Reference
  livenessEvents : Table RowId Reference
  visibleAdmissions : Table (SessionId × MessageKey) VisibleAdmission
  activeWorkActions : Table RowId ActiveWorkAction

/-- A freshly created database. -/
def Store.init (settings : Settings) : Store where
  settings := settings
  nextId := 0
  projects := .empty
  workers := .empty
  tombstones := .empty
  runs := .empty
  attempts := .empty
  leases := .empty
  scheduledRuns := .empty
  definitions := .empty
  occurrences := .empty
  authority := .empty
  delegations := .empty
  sessions := .empty
  requests := .empty
  events := .empty
  effects := .empty
  runActionUses := .empty
  workTrace := .empty
  accounts := .empty
  accountLeases := .empty
  library := .empty
  pendingChanges := .empty
  templateInstantiations := .empty
  duplications := .empty
  accountFences := .empty
  capabilityGrants := .empty
  capacityAttempts := .empty
  callbackOutbox := .empty
  callbackTrace := .empty
  callbackReconciliations := .empty
  revocations := .empty
  activity := .empty
  livenessEvents := .empty
  visibleAdmissions := .empty
  activeWorkActions := .empty

/-! ## Outcomes -/

/-- The exceptions the store raises. -/
inductive StoreError
  | integrity (constraint : String)
  | valueError (message : String)
  | keyError (message : String)
  | typeError (message : String)
  | callbackIntentGenerationConflict (message : String)
  | runtimeError (message : String)
  | workAdmission (code message : String)
  | workerClosed (message : String)
  | accountBusy (message : String) (interactive : Bool)
  | principalAuthority (message : String)
  | leaseCapacity (capacityClass message : String)
  | isolatedParallelAdmissionConflict (message : String)
  | delegationIdempotencyConflict (message : String)
  | activeWorkActionConflict (message : String) (code : String)
  | controlPlane (message : String)
  | controlPlaneConflict (message : String)
  deriving DecidableEq, Repr

/-- What a call returns or raises, and the committed store. -/
structure Outcome (α : Type) where
  result : Except StoreError α
  store : Store

namespace Outcome

variable {α : Type}

/-- The transaction commits. -/
def commit (s : Store) (a : α) : Outcome α :=
  ⟨.ok a, s⟩

/-- The transaction raises and rolls back to the state it began in. -/
def raise (s : Store) (e : StoreError) : Outcome α :=
  ⟨.error e, s⟩

/-- The value of a call that returned one. -/
def value? (o : Outcome (Option α)) : Option α :=
  match o.result with
  | .ok a => a
  | .error _ => none

@[simp] theorem store_commit (s : Store) (a : α) : (commit s a).store = s := rfl
@[simp] theorem store_raise (s : Store) (e : StoreError) : (raise s e : Outcome α).store = s := rfl
@[simp] theorem result_commit (s : Store) (a : α) : (commit s a).result = .ok a := rfl
@[simp] theorem result_raise (s : Store) (e : StoreError) :
    (raise s e : Outcome α).result = .error e := rfl
@[simp] theorem value?_commit (s : Store) (a : Option α) : (commit s a).value? = a := rfl
@[simp] theorem value?_raise (s : Store) (e : StoreError) :
    (raise s e : Outcome (Option α)).value? = none := rfl

theorem value?_eq_some {o : Outcome (Option α)} {a : α} :
    o.value? = some a ↔ o.result = .ok (some a) := by
  unfold value?
  split <;> simp_all

end Outcome

/-! ## Triggers on runs -/

/-- `CURRENT_TIMESTAMP` has a resolution of one second. -/
def currentTimestamp (now : Time) : Time :=
  now - now % 1000000

/-- The condition of `trg_runs_terminal_lifecycle_fence`. -/
def terminalFence (old new : Run) : Bool :=
  oneOf new.state RunState.terminal && !oneOf old.state RunState.terminal

/-- The condition of `trg_runs_terminal_result_revision_update`. -/
def resultRevised (old new : Run) : Bool :=
  oneOf new.state RunState.terminal &&
    (!oneOf old.state RunState.terminal || old.state != new.state || old.endedAt != new.endedAt ||
      old.activeAttemptId != new.activeAttemptId || old.outputText != new.outputText ||
      old.errorText != new.errorText || old.failure != new.failure)

/-- The queue wait that `trg_runs_terminal_lifecycle_fence` leaves. -/
def QueueWait.close (w : QueueWait) (endedAt : Time) : QueueWait :=
  if w.isOpen then
    { w with
      isOpen := false
      closedAt := w.closedAt <|> some endedAt
      durationSeconds := w.durationSeconds <|> some ((endedAt - w.startedAt) / 1000000)
      nextStatusAt := none }
  else w

/-- A run as the two update triggers leave it. -/
def Run.triggered (now : Time) (old new : Run) : Run :=
  { new with
    terminalResultRevision :=
      if resultRevised old new then
        (if old.terminalResultRevision < 1 then 1 else old.terminalResultRevision + 1)
      else new.terminalResultRevision
    queueWait :=
      if terminalFence old new then
        new.queueWait.close (new.endedAt.getD (currentTimestamp now))
      else new.queueWait }

namespace Run

variable (now : Time) (old new : Run)

@[simp] theorem triggered_workerId : (triggered now old new).workerId = new.workerId := rfl
@[simp] theorem triggered_projectId : (triggered now old new).projectId = new.projectId := rfl
@[simp] theorem triggered_state : (triggered now old new).state = new.state := rfl
@[simp] theorem triggered_startedAt : (triggered now old new).startedAt = new.startedAt := rfl
@[simp] theorem triggered_endedAt : (triggered now old new).endedAt = new.endedAt := rfl
@[simp] theorem triggered_failure : (triggered now old new).failure = new.failure := rfl
@[simp] theorem triggered_runtimeInvokedAt :
    (triggered now old new).runtimeInvokedAt = new.runtimeInvokedAt := rfl
@[simp] theorem triggered_activeAttemptId :
    (triggered now old new).activeAttemptId = new.activeAttemptId := rfl

end Run

/-- An active lease of a run that just became terminal is released. -/
def Lease.fenced (now : Time) (old new : Run) (l : Lease) : Lease :=
  if terminalFence old new && l.status == .active then
    { l with
      status := .released
      releasedAt := some (new.endedAt.getD (currentTimestamp now))
      releaseReason := "run_terminal:" ++
        (if new.failure.failureClass != "" then new.failure.failureClass else new.state.text)
      reconciledAt := l.reconciledAt <|> some (new.endedAt.getD (currentTimestamp now)) }
  else l

/-- A lease as the fence trigger leaves it when its run may have changed. -/
def Lease.fencedBy (now : Time) (old new : Table RunId Run) (l : Lease) : Lease :=
  match old.get? l.runId, new.get? l.runId with
  | some r, some r' => l.fenced now r r'
  | _, _ => l

namespace Store

/-! ## Statements -/

/-- `UPDATE workers`. -/
@[simps]
def updateWorkers (s : Store) (p : WorkerId → Worker → Bool) (f : Worker → Worker) : Store :=
  { s with workers := s.workers.update p fun _ => f }

/-- `UPDATE runs`, with its triggers. -/
@[simps]
def updateRuns (s : Store) (now : Time) (p : RunId → Run → Bool) (f : Run → Run) : Store :=
  { s with
    runs := s.runs.update p fun _ r => Run.triggered now r (f r)
    leases := s.leases.update (fun _ _ => true) fun _ l =>
      l.fencedBy now s.runs (s.runs.update p fun _ => f) }

/-- `UPDATE run_attempts`. -/
@[simps]
def updateAttempts (s : Store) (p : AttemptId → Attempt → Bool) (f : Attempt → Attempt) : Store :=
  { s with attempts := s.attempts.update p fun _ => f }

/-- `UPDATE host_run_leases`. -/
@[simps]
def updateLeases (s : Store) (p : LeaseId → Lease → Bool) (f : Lease → Lease) : Store :=
  { s with leases := s.leases.update p fun _ => f }

/-- `UPDATE scheduled_runs`. -/
@[simps]
def updateScheduledRuns (s : Store) (p : ScheduleId → ScheduledRun → Bool)
    (f : ScheduledRun → ScheduledRun) : Store :=
  { s with scheduledRuns := s.scheduledRuns.update p fun _ => f }

/-- `UPDATE recurring_schedule_occurrences`. -/
@[simps]
def updateOccurrences (s : Store) (p : OccurrenceId → Occurrence → Bool)
    (f : Occurrence → Occurrence) : Store :=
  { s with occurrences := s.occurrences.update p fun _ => f }

/-- `UPDATE recurring_schedule_definitions`. -/
@[simps]
def updateDefinitions (s : Store) (p : DefinitionId → RecurringDefinition → Bool)
    (f : RecurringDefinition → RecurringDefinition) : Store :=
  { s with definitions := s.definitions.update p fun _ => f }

/-- `UPDATE workspace_gc_tombstones`. -/
@[simps]
def updateTombstones (s : Store) (p : WorkerId → Tombstone → Bool)
    (f : Tombstone → Tombstone) : Store :=
  { s with tombstones := s.tombstones.update p fun _ => f }

/-- `UPDATE provider_requests`. -/
@[simps]
def updateRequests (s : Store) (p : RequestId → ProviderRequest → Bool)
    (f : ProviderRequest → ProviderRequest) : Store :=
  { s with requests := s.requests.update p fun _ => f }

/-- `UPDATE provider_sessions`. -/
@[simps]
def updateSessions (s : Store) (p : SessionId → ProviderSession → Bool)
    (f : ProviderSession → ProviderSession) : Store :=
  { s with sessions := s.sessions.update p fun _ => f }

/-- `UPDATE active_work_action_uses`. -/
@[simps]
def updateActiveWorkActions (s : Store) (p : RowId → ActiveWorkAction → Bool)
    (f : ActiveWorkAction → ActiveWorkAction) : Store :=
  { s with activeWorkActions := s.activeWorkActions.update p fun _ => f }

/-- `UPDATE delegations`. -/
@[simps]
def updateDelegations (s : Store) (p : WorkRef → Delegation → Bool)
    (f : Delegation → Delegation) : Store :=
  { s with delegations := s.delegations.update p fun _ => f }

/-- `uuid4`: the next identifier is used up. -/
@[simps]
def drawId (s : Store) : Store :=
  { s with nextId := s.nextId + 1 }

/-- `add_event`. -/
@[simps]
def addEvent (s : Store) (now : Time) (projectId : ProjectId) (workerId : WorkerId)
    (runId : Option RunId) (eventType message : String) : Store :=
  { s with
    nextId := s.nextId + 1
    events := (s.events.insert? (.added s.nextId)
      { projectId := projectId, workerId := workerId, runId := runId,
        eventType := eventType, message := message, createdAt := now }).getD s.events }

/-- An event under an identity of its own, ignored when it is recorded already. -/
@[simps]
def insertEventOnce (s : Store) (id : EventId) (row : EventRow) : Store :=
  { s with events := (s.events.insert? id row).getD s.events }

/-- `_insert_lifecycle_event`: one event for an operation, ignored when it is recorded already. -/
@[simps]
def insertLifecycleEvent (s : Store) (now : Time) (key : LifecycleKey) (projectId : ProjectId)
    (message : String) : Store :=
  { s with
    events := (s.events.insert? (.lifecycle key)
      { projectId := projectId, workerId := key.workerId, runId := key.runId,
        eventType := key.name, message := message, createdAt := now }).getD s.events }

/-- The events of one operation, in order. -/
@[simps]
def insertLifecycleEvents (s : Store) (now : Time) (projectId : ProjectId)
    (events : List (LifecycleKey × String)) : Store :=
  { s with
    events := events.foldl (fun t e =>
      (t.insert? (.lifecycle e.1)
        { projectId := projectId, workerId := e.1.workerId, runId := e.1.runId,
          eventType := e.1.name, message := e.2, createdAt := now }).getD t) s.events }

/-- `_enqueue_lifecycle_effects`: one pending effect for each name, ignored when it is there. -/
@[simps]
def enqueueLifecycleEffects (s : Store) (now : Time) (key : LifecycleKey)
    (effectKinds : List String) : Store :=
  { s with
    effects := effectKinds.foldl (fun t name =>
      (t.insert? { key with name := name }
        { binding := ⟨key.workerId, key.runId⟩, status := .pending,
          createdAt := now, updatedAt := now }).getD t) s.effects }

/-- `_insert_callback_intent_conn`: a callback of a run with its trace event. -/
@[simps]
def insertCallbackIntent (s : Store) (id : CallbackId) (projectId : ProjectId)
    (workerId : WorkerId) (runId : RunId) : Store :=
  { s with
    nextId := s.nextId + 1
    callbackOutbox := (s.callbackOutbox.insert? id
      { projectId := some projectId, workerId := some workerId, runIds := [],
        parent := none }).getD s.callbackOutbox
    callbackTrace := (s.callbackTrace.insert? s.nextId
      { projectId := none, workerId := none, runIds := [runId],
        parent := some id }).getD s.callbackTrace }

/-- `_accept_cancel_actions_for_runs`. -/
@[simps]
def acceptCancelActionsForRuns (s : Store) (now : Time) (runIds : List RunId) : Store :=
  { s with
    runActionUses := s.runActionUses.update
      (fun _ u => oneOf u.sourceRunId runIds && u.action == "cancel" &&
        oneOf u.status ["reserved", "executing"])
      fun _ u => { u with
        status := "accepted", resultCode := "cancellation_confirmed", updatedAt := now } }

/-! ## Work trace -/

/-- The digest columns that identify a trace event of a run, whatever else it carries. -/
def sameTraceEvent : TraceEvent → TraceEvent → Bool
  | .origin, .origin => true
  | .runtimeInvoked a _, .runtimeInvoked b _ => a == b
  | .artifact .., .artifact .. => false
  | a, b => a == b

/-- `_append_work_trace_event_conn`: append to the run's chain unless the event is recorded. -/
def appendWorkTraceEvent (trace : Table (RunId × ℕ) WorkTraceEvent) (runId : RunId)
    (workRef : WorkRef) (event : TraceEvent) (createdAt : Time) :
    Table (RunId × ℕ) WorkTraceEvent :=
  if trace.any fun k e => k.1 == runId && sameTraceEvent e.event event then trace
  else
    let sequence := (trace.select fun k _ => k.1 == runId).foldl (fun n e => max n e.1.2) 0 + 1
    (trace.insert? (runId, sequence)
      { workRef := workRef, event := event, createdAt := createdAt }).getD trace

/-- `_work_trace_scope_conn`: the oldest delegation of the run's worker. -/
def workTraceScope (s : Store) (runId : RunId) : Option WorkRef :=
  (s.runs.get? runId).bind fun r =>
    (s.delegations.first (fun _ d => d.workerId == r.workerId && d.projectId == r.projectId &&
      d.tenantId == r.tenantId) fun d e => decide (d.createdAt < e.createdAt)).map Prod.fst

/-- `_append_attempt_trace_conn` for each of the attempts. -/
@[simps]
def appendAttemptTraces (s : Store) (now : Time) (attemptIds : List AttemptId) : Store :=
  { s with
    workTrace := attemptIds.foldl (fun trace id =>
      match s.attempts.get? id with
      | none => trace
      | some a =>
        match s.workTraceScope a.runId with
        | none => trace
        | some workRef =>
          appendWorkTraceEvent trace a.runId workRef
            (.attempt id a.attemptNumber a.state a.claimedAt a.admittedAt a.runtimeInvokedAt
              a.endedAt a.terminalReason a.leaseId) now) s.workTrace }

/-- `_append_runtime_invocation_trace_conn`. -/
@[simps]
def appendRuntimeInvocationTrace (s : Store) (runId : RunId) (r : Run) (attemptId : AttemptId)
    (invokedAt : Time) : Store :=
  { s with
    workTrace :=
      match s.delegations.first (fun _ d => d.workerId == r.workerId && d.tenantId == r.tenantId)
          (fun d e => decide (d.createdAt < e.createdAt)), s.attempts.get? attemptId with
      | some (workRef, _), some _ =>
        appendWorkTraceEvent s.workTrace runId workRef (.runtimeInvoked attemptId invokedAt)
          invokedAt
      | _, _ => s.workTrace }

/-- `_append_capacity_trace_conn`. -/
@[simps]
def appendCapacityTrace (s : Store) (runId : RunId) (sequence : ℕ) (observedAt : Time) : Store :=
  { s with
    workTrace := match s.workTraceScope runId with
      | none => s.workTrace
      | some workRef =>
        appendWorkTraceEvent s.workTrace runId workRef (.capacity sequence) observedAt }

/-- The last artifact observation of a run. -/
def lastArtifact (trace : Table (RunId × ℕ) WorkTraceEvent) (runId : RunId) :
    Option (String × String × Bool) :=
  ((trace.select fun k e => k.1 == runId && match e.event with
      | .artifact .. => true
      | _ => false).foldl (fun best e =>
    match best with
    | none => some e
    | some b => if b.1.2 < e.1.2 then some e else some b) none).bind fun e =>
      match e.2.event with
      | .artifact output error _ terminal => some (output, error, terminal)
      | _ => none

/-- `_record_terminal_artifact_trace_conn` for each of the runs: nothing for a run that is not
terminal, and nothing new for a run whose last observation is the same. -/
@[simps]
def recordTerminalArtifactTraces (s : Store) (now : Time) (runIds : List RunId) : Store :=
  { s with
    workTrace := runIds.foldl (fun trace id =>
      match s.runs.get? id with
      | none => trace
      | some r =>
        if oneOf r.state RunState.terminal then
          match s.workTraceScope id with
          | none => trace
          | some workRef =>
            if lastArtifact trace id == some (r.outputText, r.errorText, true) then trace
            else appendWorkTraceEvent trace id workRef
              (.artifact r.outputText r.errorText now true) now
        else trace) s.workTrace }

end Store

end GlassHive
