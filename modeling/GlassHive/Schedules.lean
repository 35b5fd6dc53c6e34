import GlassHive.Gc

/-!
# Scheduled runs and recurring occurrences

A scheduled run is claimed, linked to one queued run, and settled when that run is. An occurrence
of a recurring definition follows its scheduled run. The authority row of a principal gates what
its schedules may start.
-/

namespace GlassHive

open Relational

namespace Store

/-! ## Principal authority -/

/-- `_require_schedule_principal_authority_in_transaction` passes. -/
def scheduleAuthorityEnabled (s : Store) (tenantId : TenantId) (ownerId : OwnerId) : Bool :=
  match s.authority.get? (tenantId, ownerId) with
  | none => false
  | some row => row.enabled

/-- `ensure_schedule_principal_authority`. -/
def ensureSchedulePrincipalAuthority (s : Store) (now : Time) (tenantId : TenantId)
    (ownerId : OwnerId) : Outcome (Option PrincipalAuthority) :=
  let s' := { s with
    authority := (s.authority.insert? (tenantId, ownerId)
      { enabled := true, authorityEpoch := 1, updatedAt := now }).getD s.authority }
  .commit s' (s'.authority.get? (tenantId, ownerId))

/-- The upsert of `set_schedule_principal_authority`. -/
def upsertAuthority (s : Store) (now : Time) (tenantId : TenantId) (ownerId : OwnerId)
    (enabled : Bool) : Table (TenantId × OwnerId) PrincipalAuthority :=
  match s.authority.insert? (tenantId, ownerId)
      { enabled := enabled, authorityEpoch := 1, updatedAt := now } with
  | some t => t
  | none => s.authority.update (fun k _ => k == (tenantId, ownerId))
      fun _ row => { enabled := enabled, authorityEpoch := row.authorityEpoch + 1, updatedAt := now }

/-- A scheduled run that disabling its principal cancels: not settled, and not linked to a run
that has left the queue. -/
def retiredByAuthority (s : Store) (tenantId : TenantId) (ownerId : OwnerId)
    (r : ScheduledRun) : Bool :=
  r.tenantId == tenantId && r.ownerId == ownerId && !oneOf r.state ScheduleState.terminal &&
    match r.queuedRunId with
    | none => true
    | some runId => (s.runs.get? runId).any fun q => q.state == .queued

/-- `set_schedule_principal_authority`. -/
def setSchedulePrincipalAuthority (s : Store) (now : Time) (tenantId : TenantId)
    (ownerId : OwnerId) (enabled : Bool) : Outcome (Option PrincipalAuthority) :=
  let s₁ := { s with authority := s.upsertAuthority now tenantId ownerId enabled }
  if enabled then .commit s₁ (s₁.authority.get? (tenantId, ownerId))
  else
    let retired : ScheduleId → Bool := fun id =>
      (s.scheduledRuns.get? id).any (s.retiredByAuthority tenantId ownerId)
    let s₂ := s₁
      |>.updateDefinitions
          (fun _ d => d.tenantId == tenantId && d.ownerId == ownerId && d.active)
          (fun d => { d with active := false, enabled := false, updatedAt := now })
      |>.updateRuns now
          (fun id r => r.state == .queued && s.scheduledRuns.any fun _ q =>
            q.queuedRunId == some id && s.retiredByAuthority tenantId ownerId q)
          (fun r => { r with
            state := .cancelled, endedAt := some now, errorText := "principal_disabled",
            failure := { r.failure with
              failureClass := "principal_disabled", retryable := false,
              userMessage := "Scheduled principal authority was disabled." } })
      |>.updateScheduledRuns
          (fun id r => retired id && !oneOf r.state ScheduleState.terminal)
          (fun r => { r with
            state := .cancelled, lastError := "principal_disabled", updatedAt := now })
      |>.updateOccurrences
          (fun _ o => retired o.scheduledRunId && !oneOf o.state OccurrenceState.terminal)
          (fun o => { o with
            state := .actionRequired, outcome := "principal_disabled", terminalAt := some now })
    .commit s₂ (s₂.authority.get? (tenantId, ownerId))

/-! ## Creation -/

/-- `create_scheduled_run`. -/
def createScheduledRun (s : Store) (now : Time) (workerId : WorkerId) (projectId : ProjectId)
    (tenantId : TenantId) (ownerId : OwnerId) (instruction : String) (runAt : Time)
    (requirePrincipalAuthority : Bool) : Outcome (Option ScheduleId) :=
  match (s.workers.get? workerId).filter fun w => w.projectId == projectId with
  | none => .raise s (.valueError "Scheduled workspace no longer exists")
  | some w =>
    if oneOf w.state WorkerState.closed then
      .raise s (.workerClosed "Workspace is closed; create a new workspace for new work")
    else if requirePrincipalAuthority && !s.scheduleAuthorityEnabled tenantId ownerId then
      .raise s (.principalAuthority "scheduled principal has been disabled")
    else if s.workspaceGcClaimActive workerId then
      .raise s (.runtimeError "Workspace is being garbage-collected")
    else match s.scheduledRuns.insert? s.nextId
        { projectId := projectId, workerId := workerId, tenantId := tenantId, ownerId := ownerId,
          instruction := instruction, runAt := runAt, state := .pending, queuedRunId := none,
          lastError := "", createdAt := now, updatedAt := now } with
      | none => .raise s (.integrity "scheduled_runs.schedule_id")
      | some t => .commit { s.drawId with scheduledRuns := t } (some s.nextId)

/-- `create_recurring_schedule_definition`. -/
def createRecurringScheduleDefinition (s : Store) (now : Time) (workerId : WorkerId)
    (projectId : ProjectId) (tenantId : TenantId) (ownerId : OwnerId) (nativeScheduler : Bool)
    (instruction : String) (overlapPolicy : OverlapPolicy) (nextRunAt : Time)
    (enabled requirePrincipalAuthority : Bool) : Outcome (Option DefinitionId) :=
  match (s.workers.get? workerId).filter fun w => w.projectId == projectId with
  | none => .raise s (.valueError "Scheduled workspace no longer exists")
  | some w =>
    if oneOf w.state WorkerState.closed then
      .raise s (.workerClosed "Workspace is closed; create a new workspace for new work")
    else if requirePrincipalAuthority && !s.scheduleAuthorityEnabled tenantId ownerId then
      .raise s (.principalAuthority "scheduled principal has been disabled")
    else match s.definitions.insert? s.nextId
        { projectId := projectId, workerId := workerId, tenantId := tenantId, ownerId := ownerId,
          instruction := instruction, nativeScheduler := nativeScheduler,
          overlapPolicy := overlapPolicy, enabled := enabled, active := enabled,
          nextRunAt := nextRunAt, retiredAt := none, createdAt := now, updatedAt := now } with
      | none => .raise s (.integrity "recurring_schedule_definitions.definition_id")
      | some t => .commit { s.drawId with definitions := t } (some s.nextId)

/-- `materialize_recurring_schedule_occurrence`. -/
def materializeRecurringScheduleOccurrence (s : Store) (definitionId : DefinitionId)
    (expectedNextRunAt scheduledFor nextRunAt detectedAt : Time) (dispatchAt : Option Time)
    (occurrenceState : OccurrenceState) (outcome : String) (deactivateAfter : Bool) :
    Outcome (Option ScheduleId) :=
  match s.occurrences.first
      (fun _ o => o.definitionId == definitionId && o.scheduledFor == scheduledFor)
      fun _ _ => false with
  | some (_, o) => .commit s (some o.scheduledRunId)
  | none =>
    match (s.definitions.get? definitionId).filter fun d =>
        d.nativeScheduler && d.active && d.nextRunAt == expectedNextRunAt with
    | none => .commit s none
    | some d =>
      match s.scheduledRuns.insert? s.nextId
          { projectId := d.projectId, workerId := d.workerId, tenantId := d.tenantId,
            ownerId := d.ownerId, instruction := d.instruction,
            runAt := dispatchAt.getD scheduledFor,
            state := match occurrenceState with
              | .pending => .pending
              | .skipped => .cancelled
              | _ => .failed
            queuedRunId := none, lastError := "", createdAt := detectedAt,
            updatedAt := detectedAt },
        s.occurrences.insert? (s.nextId + 1)
          { definitionId := definitionId, tenantId := d.tenantId, ownerId := d.ownerId,
            scheduledFor := scheduledFor, detectedAt := detectedAt, scheduledRunId := s.nextId,
            idempotencyKey := .recurrence definitionId scheduledFor, state := occurrenceState,
            outcome := outcome, claimant := none, claimedAt := none, claimExpiresAt := none,
            attemptCount := 0,
            terminalAt := if oneOf occurrenceState [.pending, .claimed, .queued, .running] then none
              else some detectedAt
            createdAt := detectedAt } with
      | some scheduledRuns, some occurrences =>
        .commit (Store.updateDefinitions
          { s.drawId.drawId with scheduledRuns := scheduledRuns, occurrences := occurrences }
          (fun id d => id == definitionId && d.nextRunAt == expectedNextRunAt)
          fun d => { d with
            nextRunAt := nextRunAt, active := !deactivateAfter && d.active,
            enabled := !deactivateAfter && d.enabled, updatedAt := detectedAt }) (some s.nextId)
      | _, _ => .raise s (.integrity "recurring_schedule_occurrences.occurrence_id")

/-- `create_recurring_schedule_run_now`. -/
def createRecurringScheduleRunNow (s : Store) (definitionId : DefinitionId) (tenantId : TenantId)
    (ownerId : OwnerId) (idempotencyToken : String) (scheduledFor : Time)
    (requirePrincipalAuthority : Bool) : Outcome (Option ScheduleId) :=
  if requirePrincipalAuthority && !s.scheduleAuthorityEnabled tenantId ownerId then
    .raise s (.principalAuthority "scheduled principal has been disabled")
  else match (s.definitions.get? definitionId).filter fun d =>
      d.tenantId == tenantId && d.ownerId == ownerId && d.retiredAt.isNone with
  | none => .commit s none
  | some d =>
    match (s.workers.get? d.workerId).filter fun w => w.projectId == d.projectId with
    | none => .raise s (.valueError "Scheduled workspace no longer exists")
    | some w =>
      if oneOf w.state WorkerState.closed then
        .raise s (.workerClosed "Workspace is closed; create a new workspace for new work")
      else match s.occurrences.first
          (fun _ o => o.idempotencyKey == .manual definitionId idempotencyToken)
          fun _ _ => false with
      | some (_, o) => .commit s (some o.scheduledRunId)
      | none =>
        if s.occurrences.any fun _ o =>
            o.definitionId == definitionId && o.scheduledFor == scheduledFor then
          .raise s (.integrity "recurring_schedule_occurrences.scheduled_for")
        else match s.scheduledRuns.insert? s.nextId
            { projectId := d.projectId, workerId := d.workerId, tenantId := d.tenantId,
              ownerId := d.ownerId, instruction := d.instruction, runAt := scheduledFor,
              state := .pending, queuedRunId := none, lastError := "", createdAt := scheduledFor,
              updatedAt := scheduledFor },
          s.occurrences.insert? (s.nextId + 1)
            { definitionId := definitionId, tenantId := d.tenantId, ownerId := d.ownerId,
              scheduledFor := scheduledFor, detectedAt := scheduledFor,
              scheduledRunId := s.nextId,
              idempotencyKey := .manual definitionId idempotencyToken, state := .pending,
              outcome := "manual_pending", claimant := none, claimedAt := none,
              claimExpiresAt := none, attemptCount := 0, terminalAt := none,
              createdAt := scheduledFor } with
        | some scheduledRuns, some occurrences =>
          .commit { s.drawId.drawId with
            scheduledRuns := scheduledRuns, occurrences := occurrences } (some s.nextId)
        | _, _ => .raise s (.integrity "recurring_schedule_occurrences.occurrence_id")

/-! ## Claims -/

/-- The overlap rule of `claim_schedule`: a skip definition yields to a queued or running run. -/
def overlapSkipped (s : Store) (scheduleId : ScheduleId) (workerId : WorkerId) : Bool :=
  (s.occurrences.any fun _ o => o.scheduledRunId == scheduleId &&
    (s.definitions.get? o.definitionId).any fun d => d.overlapPolicy == .skip) &&
  s.runs.any fun _ r => r.workerId == workerId && oneOf r.state [.queued, .running]

/-- `claim_schedule`. -/
def claimSchedule (s : Store) (now : Time) (scheduleId : ScheduleId) :
    Outcome (Option ScheduledRun) :=
  match (s.scheduledRuns.get? scheduleId).filter fun r => r.state == .pending with
  | none => .commit s none
  | some r =>
    let open' : OccurrenceId → Occurrence → Bool := fun _ o =>
      o.scheduledRunId == scheduleId && !oneOf o.state OccurrenceState.terminal
    if s.overlapSkipped scheduleId r.workerId then
      .commit (s
        |>.updateScheduledRuns (fun id r => id == scheduleId && r.state == .pending)
            (fun r => { r with
              state := .cancelled, lastError := "Skipped because another run is active",
              updatedAt := now })
        |>.updateOccurrences open'
            (fun o => { o with
              state := .skipped, outcome := "overlap_skipped", terminalAt := some now,
              claimant := none, claimedAt := none, claimExpiresAt := none })) none
    else
      let s' := s
        |>.updateScheduledRuns (fun id r => id == scheduleId && r.state == .pending)
            (fun r => { r with state := .running, updatedAt := now })
        |>.updateOccurrences open'
            (fun o => { o with
              state := .claimed, outcome := "pending", claimant := some (.native scheduleId),
              claimedAt := some now, claimExpiresAt := some (now + 300 * 1000000),
              attemptCount := o.attemptCount + 1 })
      .commit s' (s'.scheduledRuns.get? scheduleId)

/-- `claim_recurring_schedule_occurrence`. -/
def claimRecurringScheduleOccurrence (s : Store) (now : Time) (occurrenceId : OccurrenceId)
    (claimant : Option Claimant) (leaseSeconds : ℕ) : Outcome (Option Occurrence) :=
  let claimable : OccurrenceId → Occurrence → Bool := fun id o =>
    id == occurrenceId && !oneOf o.state OccurrenceState.terminal &&
      (o.claimExpiresAt.all (fun t => decide (t ≤ now)) || o.claimant == claimant)
  if s.occurrences.any claimable then
    let s' := s.updateOccurrences claimable fun o => { o with
      state := .claimed, claimant := claimant, claimedAt := some now,
      claimExpiresAt := some (now + max 1 (min leaseSeconds 3600) * 1000000),
      attemptCount := o.attemptCount + 1 }
    .commit s' (s'.occurrences.get? occurrenceId)
  else .commit s none

/-- `recover_stale_recurring_occurrence_claims`. -/
def recoverStaleRecurringOccurrenceClaims (s : Store) (now : Time) : Outcome Unit :=
  let stale : Occurrence → Bool := fun o =>
    o.state == .claimed && o.claimExpiresAt.any (fun t => decide (t ≤ now)) &&
      (s.scheduledRuns.get? o.scheduledRunId).any fun r => r.queuedRunId.isNone
  .commit (s
    |>.updateOccurrences (fun _ o => stale o)
        (fun o => { o with
          state := .retryable, outcome := "claim_expired", claimant := none, claimedAt := none,
          claimExpiresAt := none })
    |>.updateScheduledRuns
        (fun id r => r.state == .running && r.queuedRunId.isNone &&
          s.occurrences.any fun _ o => o.scheduledRunId == id && stale o)
        (fun r => { r with
          state := .pending, lastError := "Recovered expired recurrence claim",
          updatedAt := now })) ()

/-! ## Settlement -/

/-- `finalize_schedule`, which `cancel_schedule` calls with the state `cancelled`. -/
def finalizeSchedule (s : Store) (now : Time) (scheduleId : ScheduleId) (state : ScheduleState)
    (queuedRunId : Option RunId) (lastError : String) : Outcome (Option ScheduledRun) :=
  let s' := s
    |>.updateScheduledRuns (fun id r => id == scheduleId && !oneOf r.state ScheduleState.terminal)
        (fun r => { r with
          state := state, queuedRunId := queuedRunId, lastError := lastError, updatedAt := now })
    |>.updateOccurrences
        (fun _ o => o.scheduledRunId == scheduleId && !oneOf o.state OccurrenceState.terminal)
        (fun o => { o with
          state := state.occurrence
          outcome := if oneOf state ScheduleState.terminal then state.text else "pending"
          claimExpiresAt := none
          terminalAt := if oneOf state ScheduleState.terminal then some now else o.terminalAt })
  .commit s' (s'.scheduledRuns.get? scheduleId)

/-- The scheduled run `scheduleId` dispatches `runId`. -/
def scheduleLinked (s : Store) (runId : RunId) (scheduleId : ScheduleId) : Bool :=
  (s.scheduledRuns.get? scheduleId).any fun r => r.queuedRunId == some runId

/-- Settle the scheduled runs and occurrences linked to a run. -/
def settleLinkedSchedules (s : Store) (runId : RunId) (state : ScheduleState)
    (lastError : String) (terminalAt : Time) : Store :=
  s
    |>.updateScheduledRuns
        (fun _ r => r.queuedRunId == some runId && oneOf r.state [.queued, .running])
        (fun r => { r with state := state, lastError := lastError, updatedAt := terminalAt })
    |>.updateOccurrences
        (fun _ o => s.scheduleLinked runId o.scheduledRunId &&
          !oneOf o.state OccurrenceState.terminal)
        (fun o => { o with
          state := state.occurrence, outcome := state.text, claimExpiresAt := none,
          terminalAt := some terminalAt })

/-- `finalize_schedule_for_run`. -/
def finalizeScheduleForRun (s : Store) (now : Time) (runId : RunId) (state : ScheduleState)
    (lastError : String) : Outcome (Option (ScheduleId × ScheduledRun)) :=
  let s' := s.settleLinkedSchedules runId state lastError now
  .commit s' (s'.scheduledRuns.first (fun _ r => r.queuedRunId == some runId) fun _ _ => false)

/-- The schedule state that a terminal run state is published as. -/
def scheduleStateOf : RunState → ScheduleState
  | .completed => .completed
  | .cancelled => .cancelled
  | _ => .failed

/-- `_finalize_linked_schedule_for_terminal_run_conn`. -/
def finalizeLinkedScheduleForTerminalRun (s : Store) (runId : RunId) (runState : RunState)
    (errorText : String) (terminalAt : Time) : Store :=
  if oneOf runState RunState.terminal then
    s.settleLinkedSchedules runId (scheduleStateOf runState)
      (if scheduleStateOf runState == .completed then "" else errorText) terminalAt
  else s

/-- `rebind_schedule_run`. -/
def rebindScheduleRun (s : Store) (now : Time) (sourceRunId replacementRunId : RunId) :
    Outcome (Option (ScheduleId × ScheduledRun)) :=
  let s' := s.updateScheduledRuns
    (fun _ r => r.queuedRunId == some sourceRunId && r.state == .needsInput)
    fun r => { r with
      queuedRunId := some replacementRunId, state := .queued, lastError := "", updatedAt := now }
  .commit s' (s'.scheduledRuns.first
    (fun _ r => r.queuedRunId == some replacementRunId) fun _ _ => false)

end Store

end GlassHive
