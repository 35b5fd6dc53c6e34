import GlassHive.Claims

/-!
# Host run leases

A lease fences one run against every other executor. It is acquired under slot and capacity limits,
kept alive by heartbeats, and released by its executor, by reconciliation, or by the trigger that
sees its run become terminal.
-/

namespace GlassHive

open Relational

/-- The process identity a heartbeat may record. -/
structure HeartbeatIdentity where
  pid : Option ℕ
  processGroup : Option ℕ
  processStartIdentity : Option StartIdentity
  startupIdentityKind : Option IdentityKind
  startupContainerId : Option RowId
  startupSessionId : Option StartupSession

/-- An active lease released for a reason. -/
def Lease.release (now : Time) (reason : String) (l : Lease) : Lease :=
  { l with
    status := .released, releasedAt := some now, releaseReason := reason
    reconciledAt := l.reconciledAt <|> some now }

/-- The arguments of `acquire_host_run_lease`. -/
structure AcquireLease where
  runtimeFamily : String
  lane : Lane
  tenantId : TenantId
  ownerId : OwnerId
  workerId : WorkerId
  runId : RunId
  executorId : ExecutorId
  conversationLimit : ℕ
  missionLimit : ℕ
  accountMissionLimit : ℕ
  tenantMissionLimit : ℕ
  mutationScope : Option String
  ttl : ℕ
  available : Option Resources
  required : Resources
  reservation : Resources
  observedLeaseIds : List LeaseId

namespace Store

/-! ## Limits -/

/-- The number of active leases that satisfy a condition. -/
def countActive (s : Store) (p : Lease → Bool) : ℕ :=
  (s.leases.select fun _ l => l.status == .active && p l).length

/-- What is left of the probed resources after the reservations the probe did not see. -/
def effectiveAvailable (s : Store) (a : AcquireLease) (available : Resources) : Resources :=
  available.map₂ (· - ·) (((s.leases.select fun id l => l.status == .active &&
    l.runId != a.runId && !oneOf id a.observedLeaseIds).map fun e => e.2.reserved).foldl
      (Resources.map₂ (· + ·)) .zero)

/-- The shortage of an admission, componentwise. -/
def capacityShortage (s : Store) (a : AcquireLease) (available : Resources) : Resources :=
  (a.required.map₂ (· + ·) a.reservation).map₂ (· - ·) (s.effectiveAvailable a available)

/-- The limit that refuses a new lease, if any. -/
def leaseRefusal (s : Store) (a : AcquireLease) : Option StoreError :=
  let laneLimit := max 1 (match a.lane with
    | .conversation => a.conversationLimit
    | .mission => a.missionLimit)
  if laneLimit ≤ s.countActive fun l => l.runtimeFamily == a.runtimeFamily && l.lane == a.lane then
    some (.leaseCapacity "family_lane" "The host lane is at its configured capacity.")
  else if a.lane == .mission && decide (max 1 a.accountMissionLimit ≤ s.countActive fun l =>
      l.lane == .mission && l.tenantId == a.tenantId && l.ownerId == a.ownerId) then
    some (.leaseCapacity "account"
      "The account is at its configured active mission capacity.")
  else if a.lane == .mission && decide (max 1 a.tenantMissionLimit ≤ s.countActive fun l =>
      l.lane == .mission && l.tenantId == a.tenantId) then
    some (.leaseCapacity "tenant" "The tenant is at its configured active mission capacity.")
  else if a.lane == .mission && a.mutationScope.isSome && s.leases.any fun _ l =>
      l.status == .active && l.mutationScope == a.mutationScope && l.runId != a.runId then
    some (.leaseCapacity "mutation_scope"
      "The target repository already has an active host mutation mission.")
  else if a.available.any fun available => s.capacityShortage a available != .zero then
    some (.leaseCapacity "resource_pressure"
      "Host resource headroom cannot cover this admission reservation.")
  else none

/-! ## Acquisition -/

/-- An expired reservation of a queued run may change its executor. -/
def transferable (s : Store) (a : AcquireLease) (now : Time) (l : Lease) : Bool :=
  l.workerId == a.workerId && l.startupState == .reserved && l.identityFree &&
    decide (l.expiresAt ≤ now) &&
    (s.runs.get? a.runId).any fun r =>
      r.workerId == a.workerId && r.state == .queued && r.activeAttemptId.isNone

/-- The row that an acquisition writes over the run's released lease, or inserts. -/
def acquiredLease (a : AcquireLease) (now : Time) (startupToken : Token)
    (attemptId : Option AttemptId) : Lease where
  runtimeFamily := a.runtimeFamily
  lane := a.lane
  tenantId := a.tenantId
  ownerId := a.ownerId
  workerId := a.workerId
  runId := a.runId
  executorId := a.executorId
  pid := none
  processGroup := none
  processStartIdentity := none
  startupToken := some startupToken
  startupState := .reserved
  startupConfirmedAt := none
  startupIdentityKind := none
  startupContainerId := none
  startupSessionId := none
  mutationScope := a.mutationScope
  attemptId := attemptId
  reserved := a.reservation
  status := .active
  acquiredAt := now
  heartbeatAt := now
  expiresAt := leaseExpiry now a.ttl
  reconciledAt := none
  releasedAt := none
  releaseReason := ""

/-- `INSERT INTO capacity_attempts` for an admission with probed capacity, with its trace. -/
def recordCapacity (s : Store) (a : AcquireLease) (now : Time) (attemptId : Option AttemptId) :
    Store :=
  match a.available with
  | none => s
  | some available =>
    let sequence := (s.capacityAttempts.select fun k _ => k.1 == a.runId).foldl
      (fun n e => max n e.1.2) 0 + 1
    { s with
      capacityAttempts := (s.capacityAttempts.insert? (a.runId, sequence)
        { attemptId := attemptId
          capacity :=
            { capacityClass := "admission_reserved"
              available := some (s.effectiveAvailable a available)
              required := some (a.required.map₂ (· + ·) a.reservation)
              shortage := some .zero
              reservation := some a.reservation
              nextRetryAt := none }
          observedAt := now }).getD s.capacityAttempts }.appendCapacityTrace a.runId sequence now

/-- The lease of a run, active or released; there is at most one. -/
def leaseOf (s : Store) (runId : RunId) : Option (LeaseId × Lease) :=
  s.leases.first (fun _ l => l.runId == runId) fun _ _ => false

/-- `acquire_host_run_lease`. Neither the worker nor a pending stop is looked at. -/
def acquireHostRunLease (s : Store) (now : Time) (a : AcquireLease) : Outcome (Option LeaseId) :=
  match (s.leaseOf a.runId).filter fun e => e.2.status == .active with
  | some (id, l) =>
    if l.executorId == a.executorId then .commit s (some id)
    else if s.transferable a now l then
      .commit (s.updateLeases (fun i _ => i == id) fun l => { l with
        executorId := a.executorId, heartbeatAt := now, expiresAt := leaseExpiry now a.ttl })
        (some id)
    else .raise s (.leaseCapacity "exact_run_owned"
      "The exact host run is already owned by another live executor.")
  | none =>
    match (s.runs.get? a.runId).filter fun r => r.workerId == a.workerId with
    | none => .raise s (.valueError "Host admission requires an existing run")
    | some r =>
      if r.activeAttemptId.isSome && r.state != .claimed then
        .raise s (.workAdmission "run_not_claimed"
          "Host admission requires a currently claimed run attempt")
      else match s.leaseRefusal a with
      | some e => .raise s e
      | none =>
        let row := acquiredLease a now s.nextId r.activeAttemptId
        match s.leaseOf a.runId with
        | some (id, _) =>
          .commit ((s.drawId.updateLeases (fun i _ => i == id) fun _ => row).recordCapacity a now
            r.activeAttemptId) (some id)
        | none =>
          match s.leases.insert? (s.nextId + 1) row with
          | none => .raise s (.integrity "host_run_leases.lease_id")
          | some leases =>
            .commit (Store.recordCapacity { s.drawId.drawId with leases := leases } a now
              r.activeAttemptId) (some (s.nextId + 1))

/-! ## Heartbeat and release -/

/-- `heartbeat_host_run_lease`. -/
def heartbeatHostRunLease (s : Store) (now : Time) (leaseId : LeaseId)
    (executorId : Option ExecutorId) (i : HeartbeatIdentity) (ttl : ℕ)
    (reconciled allowExpired : Bool) : Outcome (Option Lease) :=
  let live : LeaseId → Lease → Bool := fun id l =>
    id == leaseId && l.status == .active && (allowExpired || decide (now < l.expiresAt)) &&
      !((s.runs.get? l.runId).any fun r => oneOf r.state [.completed, .failed, .cancelled]) &&
      executorId.all (· == l.executorId)
  let s' := s.updateLeases live fun l =>
    let startup := l.startupState == .reserved
    { l with
      heartbeatAt := now
      expiresAt := leaseExpiry now ttl
      pid := i.pid <|> l.pid
      processGroup := i.processGroup <|> l.processGroup
      processStartIdentity := i.processStartIdentity <|> l.processStartIdentity
      startupIdentityKind := if startup then i.startupIdentityKind <|> l.startupIdentityKind
        else l.startupIdentityKind
      startupContainerId := if startup then i.startupContainerId <|> l.startupContainerId
        else l.startupContainerId
      startupSessionId := if startup then i.startupSessionId <|> l.startupSessionId
        else l.startupSessionId
      reconciledAt := if reconciled then some now else l.reconciledAt }
  .commit s' (if s.leases.any live then s'.leases.get? leaseId else none)

/-- `release_host_run_lease`. -/
def releaseHostRunLease (s : Store) (now : Time) (leaseId : LeaseId)
    (executorId : Option ExecutorId) (reason : String) : Outcome (Option Lease) :=
  let s' := s.updateLeases
    (fun id l => id == leaseId && l.status == .active && executorId.all (· == l.executorId))
    (Lease.release now (if reason == "" then "released" else reason))
  .commit s' (s'.leases.get? leaseId)

/-- `reconcile_dead_host_run_lease`. -/
def reconcileDeadHostRunLease (s : Store) (now : Time) (leaseId : LeaseId) (runId : RunId)
    (expectedAttemptId : Option AttemptId) (expectedExecutorId : ExecutorId) (reason : String) :
    Outcome (Option Lease) :=
  let reason := if reason == "" then "dead_host_run_lease" else reason
  let dead : LeaseId → Lease → Bool := fun id l =>
    id == leaseId && l.runId == runId && l.status == .active &&
      l.attemptId == expectedAttemptId && l.executorId == expectedExecutorId
  if !s.leases.any dead then .commit s none
  else
    let s' := match (s.runs.get? runId).filter fun r =>
        r.state == .running && r.activeAttemptId == expectedAttemptId with
      | some r => s.downgradeUnprovenRunning runId r now reason
      | none => s.updateLeases dead (Lease.release now reason)
    .commit s' (s'.leases.get? leaseId)

/-- `release_expired_preaccept_host_run_lease`. -/
def releaseExpiredPreacceptHostRunLease (s : Store) (now : Time) (leaseId : LeaseId)
    (runId : RunId) (reason : String) : Outcome (Option Lease) :=
  let unclaimed : LeaseId → Lease → Bool := fun id l =>
    id == leaseId && l.runId == runId && l.status == .active && l.startupState == .reserved &&
      l.identityFree &&
      (s.runs.get? l.runId).any fun r => r.state == .queued && r.activeAttemptId.isNone
  let s' := s.updateLeases unclaimed
    (Lease.release now (if reason == "" then "expired_preaccept" else reason))
  .commit s' (if s.leases.any unclaimed then s'.leases.get? leaseId else none)

end Store

end GlassHive
