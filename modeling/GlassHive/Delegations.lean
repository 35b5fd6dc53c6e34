import GlassHive.Frames
import GlassHive.WorkerMoves

/-!
# Delegations

`reserve_delegation` accepts a piece of work in one transaction: its project, worker and first run,
bound to the idempotency key of the request. A request that is repeated under its key is answered
with the work that was accepted.
-/

namespace GlassHive

open Relational

/-- A row of `preflight_capacity_reservations`. -/
structure PreflightReservation where
  reservationId : LeaseId
  runtimeFamily : String
  lane : Lane
  tenantId : TenantId
  ownerId : OwnerId
  mutationScope : Option String
  reserved : Resources
  active : Bool
  expiresAt : Time
  deriving Repr

/-- The lease that a caller asks for with the work, `preaccept_host_lease`. -/
structure PreacceptLease where
  runtimeFamily : String
  lane : Lane
  executorId : ExecutorId
  conversationLimit : ℕ
  missionLimit : ℕ
  accountMissionLimit : ℕ
  tenantMissionLimit : ℕ
  mutationScope : Option String
  ttl : ℕ
  available : Resources
  required : Resources
  reservation : Resources
  observedLeaseIds : List LeaseId
  nextRetryAt : Option Time

/-- The arguments of `reserve_delegation`. The resource class is trimmed and in lower case, the
bundle is the one that is stored, or the complaint of `canonical_parallel_clean_room_bootstrap`, and
`preflight` are the reservations that the transaction finds. -/
structure NewDelegation where
  tenantId : TenantId
  ownerId : OwnerId
  idempotencyKey : IdempotencyKey
  requestDigest : RequestDigest
  originRef : String
  title : String
  instruction : String
  originSurface : String
  workerName : String
  profile : String
  runtime : String
  model : String
  executionMode : String
  resourceClass : String
  resourceMemoryBytes : Option ℤ
  workspaceRoot : String
  parallelCleanRoom : Bool
  bootstrapBundle : Except String (Option JsonValue)
  requireIsolatedParallelReady : Bool
  preacceptHostLease : Option PreacceptLease
  queueOnCapacity : Bool
  preflight : List PreflightReservation

/-! ## The arguments -/

/-- `worker_resource_memory_bytes("light")`. -/
def lightWorkerMemoryBytes : ℤ :=
  1536 * 1024 * 1024

/-- What `_worker_resource_values` raises. -/
def workerResourceError (resourceClass : String) (memory : Option ℤ) : Option String :=
  if !oneOf resourceClass ["standard", "light"] then
    some "Worker resource class must be standard or light"
  else match memory with
    | none => none
    | some bytes =>
      if bytes ≤ 0 then some "Worker resource memory must be a positive byte count"
      else if resourceClass == "light" && bytes != lightWorkerMemoryBytes then
        some "Light worker memory must use the trusted server value"
      else none

/-- What `reserve_delegation` raises before its transaction begins. -/
def NewDelegation.argumentError (a : NewDelegation) : Option StoreError :=
  match workerResourceError a.resourceClass a.resourceMemoryBytes, a.bootstrapBundle with
  | some message, _ => some (.valueError message)
  | none, .error message => some (.valueError message)
  | none, .ok _ => none

/-- The row of the worker that takes the work. -/
def NewDelegation.worker (a : NewDelegation) (now : Time) (projectId : ProjectId) (runId : RunId) :
    Worker :=
  { NewWorker.row
      { projectId := projectId
        tenantId := a.tenantId
        ownerId := a.ownerId
        profile := a.profile
        executionMode := a.executionMode
        trustedRunLane := "mission"
        workspaceKind := .legacy
        runtime := a.runtime
        model := a.model
        bootstrapBundle := a.bootstrapBundle.toOption.join
        duplicationReport := ⟨[], []⟩
        parallelCleanRoom := a.parallelCleanRoom
        workspaceRoot := a.workspaceRoot } now with
    lastRunId := some runId }

/-- The row of the delegation. -/
def NewDelegation.row (a : NewDelegation) (now : Time) (projectId : ProjectId)
    (workerId : WorkerId) (runId : RunId) : Delegation where
  tenantId := a.tenantId
  ownerId := a.ownerId
  idempotencyKey := a.idempotencyKey
  requestDigest := a.requestDigest
  originRef := a.originRef
  title := a.title
  originSurface := a.originSurface
  projectId := projectId
  workerId := workerId
  initialRunId := runId
  currentRunId := runId
  dismissedAt := none
  createdAt := now
  updatedAt := now

/-- The acquisition that a preaccepted lease stands for. -/
def NewDelegation.acquire (a : NewDelegation) (p : PreacceptLease) (workerId : WorkerId)
    (runId : RunId) : AcquireLease where
  runtimeFamily := p.runtimeFamily
  lane := p.lane
  tenantId := a.tenantId
  ownerId := a.ownerId
  workerId := workerId
  runId := runId
  executorId := p.executorId
  conversationLimit := p.conversationLimit
  missionLimit := p.missionLimit
  accountMissionLimit := p.accountMissionLimit
  tenantMissionLimit := p.tenantMissionLimit
  mutationScope := p.mutationScope
  ttl := p.ttl
  available := some p.available
  required := p.required
  reservation := p.reservation
  observedLeaseIds := p.observedLeaseIds

namespace Store

/-! ## Isolated admission -/

/-- A worker that runs missions on the host. -/
def hostMission (w : Worker) : Bool :=
  w.executionMode == "host" && w.trustedRunLane == "mission"

/-- The states that the isolated admission looks for. -/
def isolatedBlockingStates : List RunState :=
  [.queued, .running, .settling, .paused, .needsInput]

/-- Some host mission worker has a run in one of the states, or an active lease. -/
def isolatedConflict (s : Store) : Bool :=
  s.workers.any fun id w => hostMission w &&
    ((s.runs.any fun _ r => r.workerId == id && oneOf r.state isolatedBlockingStates) ||
      s.leases.any fun _ l => l.status == .active && l.workerId == id)

/-! ## Lookup -/

/-- The delegation under an idempotency key. -/
def delegationByKey (s : Store) (tenantId : TenantId) (ownerId : OwnerId) (key : IdempotencyKey) :
    Option (WorkRef × Delegation) :=
  s.delegations.first
    (fun _ d => d.tenantId == tenantId && d.ownerId == ownerId && d.idempotencyKey == key)
    fun _ _ => false

/-- An origin reference is bound to some work of the owner. -/
def originBound (s : Store) (tenantId : TenantId) (ownerId : OwnerId) (originRef : String) : Bool :=
  originRef != "" && s.delegations.any fun _ d =>
    d.tenantId == tenantId && d.ownerId == ownerId && d.originRef == originRef

/-- The order in which `_delegation_select` prefers the runs of a worker. -/
def controlRank : RunState → ℕ
  | .running => 0
  | .admitted => 1
  | .claimed => 2
  | .settling => 3
  | .paused => 4
  | .needsInput => 5
  | _ => 6

/-- The run of a worker that is controlled: the first in rank, of these the last queued. -/
def controlledRun (s : Store) (workerId : WorkerId) : Option (RunId × Run) :=
  s.runs.first (fun _ r => r.workerId == workerId && oneOf r.state RunState.nonterminal) fun r q =>
    decide (controlRank r.state < controlRank q.state) ||
      (controlRank r.state == controlRank q.state && decide (q.queuedAt < r.queuedAt))

/-- The active attempt of a run, or its last one. -/
def currentAttempt (s : Store) (runId : RunId) (r : Run) : Option (AttemptId × Attempt) :=
  let id := r.activeAttemptId <|> (s.attempts.first (fun _ a => a.runId == runId) fun a b =>
    decide (b.attemptNumber < a.attemptNumber)).map Prod.fst
  id.bind fun id => (s.attempts.get? id).map fun a => (id, a)

end Store

/-- A row of `_delegation_select`. -/
structure DelegationRecord where
  workRef : WorkRef
  delegation : Delegation
  project : Project
  worker : Worker
  run : Option (RunId × Run)
  attempt : Option (AttemptId × Attempt)

/-- What `reserve_delegation` returns. -/
structure DelegationReply where
  record : DelegationRecord
  idempotentReplay : Bool

namespace Store

/-- `get_delegation`. -/
def getDelegation (s : Store) (workRef : WorkRef) (tenantId : TenantId) (ownerId : OwnerId) :
    Option DelegationRecord :=
  ((s.delegations.get? workRef).filter fun d => d.tenantId == tenantId && d.ownerId == ownerId).bind
    fun d => (s.projects.get? d.projectId).bind fun project =>
      (s.workers.get? d.workerId).map fun worker =>
        let runId := ((s.controlledRun d.workerId).map Prod.fst).getD d.currentRunId
        let run := (s.runs.get? runId).map fun r => (runId, r)
        { workRef := workRef
          delegation := d
          project := project
          worker := worker
          run := run
          attempt := run.bind fun e => s.currentAttempt e.1 e.2 }

/-! ## Capacity -/

/-- The leases and reservations that hold capacity against a run. -/
def capacityHolders (s : Store) (now : Time) (runId : RunId)
    (preflight : List PreflightReservation) : List PreflightReservation :=
  (s.leases.select fun _ l => l.status == .active && decide (now < l.expiresAt) &&
      l.runId != runId).map (fun e =>
    { reservationId := e.1, runtimeFamily := e.2.runtimeFamily, lane := e.2.lane,
      tenantId := e.2.tenantId, ownerId := e.2.ownerId, mutationScope := e.2.mutationScope,
      reserved := e.2.reserved, active := true, expiresAt := e.2.expiresAt }) ++
  preflight.filter fun r => r.active && decide (now < r.expiresAt)

/-- What `_assert_preaccept_host_lease_capacity` raises. -/
def preacceptRefusal (s : Store) (now : Time) (a : NewDelegation) (p : PreacceptLease)
    (runId : RunId) : Option StoreError :=
  let holders := s.capacityHolders now runId a.preflight
  let laneLimit := max 1 (match p.lane with
    | .conversation => p.conversationLimit
    | .mission => p.missionLimit)
  let lane := match p.lane with
    | .conversation => "conversation"
    | .mission => "mission"
  let reserved := ((holders.filter fun r => !oneOf r.reservationId p.observedLeaseIds).map
    PreflightReservation.reserved).foldl (Resources.map₂ (· + ·)) .zero
  let shortage := (p.required.map₂ (· + ·) p.reservation).map₂ (· - ·)
    (p.available.map₂ (· - ·) reserved)
  if laneLimit ≤ (holders.filter fun r =>
      r.runtimeFamily == p.runtimeFamily && r.lane == p.lane).length then
    some (.leaseCapacity "family_lane"
      ("The " ++ p.runtimeFamily ++ " " ++ lane ++ " host lane is at its configured capacity."))
  else if p.lane == .mission && decide (max 1 p.accountMissionLimit ≤ (holders.filter fun r =>
      r.lane == .mission && r.tenantId == a.tenantId && r.ownerId == a.ownerId).length) then
    some (.leaseCapacity "account" "The account is at its configured active mission capacity.")
  else if p.lane == .mission && decide (max 1 p.tenantMissionLimit ≤ (holders.filter fun r =>
      r.lane == .mission && r.tenantId == a.tenantId).length) then
    some (.leaseCapacity "tenant" "The tenant is at its configured active mission capacity.")
  else if p.lane == .mission && p.mutationScope.isSome &&
      holders.any fun r => r.mutationScope == p.mutationScope then
    some (.leaseCapacity "mutation_scope"
      "The target repository already has an active host mutation mission.")
  else if shortage != .zero then
    some (.leaseCapacity "resource_pressure"
      "Host resource headroom cannot cover this admission reservation.")
  else none

/-- The lease that comes with the work: none was asked for, or capacity lacks and the work may be
queued without one. -/
def preacceptedLease (s : Store) (now : Time) (a : NewDelegation) :
    Except StoreError (Option PreacceptLease) :=
  match a.preacceptHostLease with
  | none => .ok none
  | some p =>
    match s.preacceptRefusal now a p (.uuid (s.nextId + 3)) with
    | none => .ok (some p)
    | some e => if a.queueOnCapacity then .ok none else .error e

/-! ## Acceptance -/

/-- `INSERT INTO delegations`: what it refers to is there, and neither the key nor a nonempty origin
reference is taken. -/
def insertDelegation? (s : Store) (workRef : WorkRef) (d : Delegation) : Option Store :=
  if (s.projects.get? d.projectId).isSome && (s.workers.get? d.workerId).isSome &&
      (s.runs.get? d.initialRunId).isSome && (s.runs.get? d.currentRunId).isSome &&
      (s.delegationByKey d.tenantId d.ownerId d.idempotencyKey).isNone &&
      !s.originBound d.tenantId d.ownerId d.originRef then
    (s.delegations.insert? workRef d).map fun delegations => { s with delegations := delegations }
  else none

/-- The lease of the work with its capacity attempt. -/
def insertPreacceptedLease (s : Store) (now : Time) (a : NewDelegation) (p : PreacceptLease)
    (workerId : WorkerId) (runId : RunId) : Option Store := do
  let row := acquiredLease (a.acquire p workerId runId) now (s.nextId + 1) none
  let leases ← s.leases.insert? s.nextId row
  let attempts ← s.capacityAttempts.insert? (runId, 1)
    { attemptId := none
      capacity :=
        { capacityClass := "worker_launch"
          available := some p.available
          required := some p.required
          shortage := some ((p.required.map₂ (· + ·) p.reservation).map₂ (· - ·) p.available)
          reservation := some p.reservation
          nextRetryAt := p.nextRetryAt }
      observedAt := now }
  some (appendCapacityTrace
    { s.drawId.drawId with leases := leases, capacityAttempts := attempts } runId 1 now)

/-- The lease that comes with the work, when there is one. -/
def insertAcceptedLease (s : Store) (now : Time) (a : NewDelegation)
    (lease : Option PreacceptLease) (workerId : WorkerId) (runId : RunId) : Option Store :=
  match lease with
  | none => some s
  | some p => s.insertPreacceptedLease now a p workerId runId

/-- The insertions of `reserve_delegation`, with the four identifiers that it drew. -/
def acceptDelegation (s : Store) (now : Time) (a : NewDelegation) (lease : Option PreacceptLease) :
    Option Store := do
  let workRef := s.nextId
  let projectId := s.nextId + 1
  let workerId := s.nextId + 2
  let runId := RunId.uuid (s.nextId + 3)
  let projects ← s.projects.insert? projectId { tenantId := a.tenantId, createdAt := now }
  let workers ← s.workers.insert? workerId (a.worker now projectId runId)
  let s₁ ← insertRun?
    { s.drawId.drawId.drawId.drawId with projects := projects, workers := workers } runId
    (s.newRun now runId workerId projectId a.tenantId a.instruction .queued)
  let s₂ ← s₁.insertDelegation? workRef (a.row now projectId workerId runId)
  let s₃ := { s₂ with workTrace := appendWorkTraceEvent s₂.workTrace runId workRef .origin now }
  let s₄ ← s₃.insertAcceptedLease now a lease workerId runId
  some ((s₄.addEvent now projectId workerId none "worker.created"
      ("Worker " ++ a.workerName ++ " created")).addEvent now projectId workerId (some runId)
    "run.queued" a.instruction)

/-- The record of committed work, or the complaint that it cannot be read. -/
def answerDelegation (s : Store) (a : NewDelegation) (workRef : WorkRef) (replay : Bool)
    (complaint : String) : Outcome DelegationReply :=
  match s.getDelegation workRef a.tenantId a.ownerId with
  | none => ⟨.error (.runtimeError complaint), s⟩
  | some record => .commit s ⟨record, replay⟩

/-- `reserve_delegation`. -/
def reserveDelegation (s : Store) (now : Time) (a : NewDelegation) : Outcome DelegationReply :=
  match a.argumentError with
  | some e => .raise s e
  | none =>
    if a.requireIsolatedParallelReady && s.isolatedConflict then
      .raise s (.isolatedParallelAdmissionConflict
        "Existing host-native mission work blocks isolated Parallel admission.")
    else match s.delegationByKey a.tenantId a.ownerId a.idempotencyKey with
    | some (workRef, d) =>
      if d.requestDigest != a.requestDigest then
        .raise s (.delegationIdempotencyConflict
          "The delegation idempotency key was reused with a different request.")
      else s.answerDelegation a workRef true "The prior delegation reservation is unavailable"
    | none =>
      if s.originBound a.tenantId a.ownerId a.originRef then
        .raise s (.delegationIdempotencyConflict
          "The delegation origin reference is already bound to other work.")
      else match s.preacceptedLease now a with
      | .error e => .raise s e
      | .ok lease =>
        match s.acceptDelegation now a lease with
        | none => .raise s (.integrity "delegations")
        | some s' => s'.answerDelegation a s.nextId false
            "The delegation reservation was not readable after commit"

/-! ## Later changes -/

/-- `update_delegation_current_run`. -/
def updateDelegationCurrentRun (s : Store) (now : Time) (workRef : WorkRef) (tenantId : TenantId)
    (ownerId : OwnerId) (runId : RunId) : Outcome (Option DelegationRecord) :=
  if (s.runs.get? runId).isNone && (s.delegations.any fun id d =>
      id == workRef && d.tenantId == tenantId && d.ownerId == ownerId) then
    .raise s (.integrity "delegations.current_run_id")
  else
    let s' := s.updateDelegations
      (fun id d => id == workRef && d.tenantId == tenantId && d.ownerId == ownerId)
      fun d => { d with currentRunId := runId, dismissedAt := none, updatedAt := now }
    .commit s' (s'.getDelegation workRef tenantId ownerId)

/-- `dismiss_delegation`. -/
def dismissDelegation (s : Store) (now : Time) (workRef : WorkRef) (tenantId : TenantId)
    (ownerId : OwnerId) : Outcome (Option DelegationRecord) :=
  let s' := s.updateDelegations
    (fun id d => id == workRef && d.tenantId == tenantId && d.ownerId == ownerId)
    fun d => { d with dismissedAt := d.dismissedAt <|> some now, updatedAt := now }
  .commit s' (s'.getDelegation workRef tenantId ownerId)

/-! ## What the transactions do -/

section Rules

variable {s s' s₁ s₂ : Store} {now : Time} {a : NewDelegation} {workRef : WorkRef} {d : Delegation}

variable {lease : Option PreacceptLease} {tenantId : TenantId} {ownerId : OwnerId}

theorem delegationByKey_eq_some {key : IdempotencyKey}
    (h : s.delegationByKey tenantId ownerId key = some (workRef, d)) :
    s.delegations.get? workRef = some d ∧ d.tenantId = tenantId ∧ d.ownerId = ownerId ∧
      d.idempotencyKey = key := by
  obtain ⟨hd, hp⟩ := Table.first_eq_some h
  simp only [Bool.and_eq_true, beq_iff_eq] at hp
  exact ⟨hd, hp.1.1, hp.1.2, hp.2⟩

theorem delegationByKey_eq_none {key : IdempotencyKey} :
    s.delegationByKey tenantId ownerId key = none ↔
      ∀ workRef d, s.delegations.get? workRef = some d → d.tenantId = tenantId →
        d.ownerId = ownerId → d.idempotencyKey ≠ key := by
  rw [delegationByKey, Table.first_eq_none]
  simp [and_imp]

theorem originBound_eq_false {originRef : String} :
    s.originBound tenantId ownerId originRef = false ↔
      (originRef ≠ "" → ∀ workRef d, s.delegations.get? workRef = some d → d.tenantId = tenantId →
        d.ownerId = ownerId → d.originRef ≠ originRef) := by
  by_cases horigin : originRef = ""
  · simp [originBound, horigin]
  · simp [originBound, horigin, and_imp]

/-- A delegation of the owner is readable when its project and its worker are there. -/
theorem getDelegation_isSome (hd : s.delegations.get? workRef = some d)
    (hproject : (s.projects.get? d.projectId).isSome = true)
    (hworker : (s.workers.get? d.workerId).isSome = true) :
    ∃ record, s.getDelegation workRef d.tenantId d.ownerId = some record := by
  obtain ⟨project, hproject⟩ := Option.isSome_iff_exists.mp hproject
  obtain ⟨worker, hworker⟩ := Option.isSome_iff_exists.mp hworker
  simp only [getDelegation, hd]
  rw [Option.filter_some_pos (by simp)]
  simp [hproject, hworker]

theorem getDelegation_eq_some {record : DelegationRecord}
    (h : s.getDelegation workRef tenantId ownerId = some record) :
    record.workRef = workRef ∧ s.delegations.get? workRef = some record.delegation := by
  simp only [getDelegation, Option.bind_eq_some_iff, Option.map_eq_some_iff] at h
  obtain ⟨d, hd, project, -, worker, -, rfl⟩ := h
  exact ⟨rfl, (Option.filter_eq_some_iff.mp hd).1⟩

theorem insertDelegation?_eq_some (h : s.insertDelegation? workRef d = some s') :
    (s.projects.get? d.projectId).isSome = true ∧ (s.workers.get? d.workerId).isSome = true ∧
      s.delegationByKey d.tenantId d.ownerId d.idempotencyKey = none ∧
      s.originBound d.tenantId d.ownerId d.originRef = false ∧
      ∃ delegations, s.delegations.insert? workRef d = some delegations ∧
        s' = { s with delegations := delegations } := by
  rw [insertDelegation?] at h
  split at h
  · rename_i hfree
    simp only [Bool.and_eq_true, Bool.not_eq_true', Option.isNone_iff_eq_none] at hfree
    obtain ⟨delegations, hins, rfl⟩ := Option.map_eq_some_iff.mp h
    exact ⟨hfree.1.1.1.1.1, hfree.1.1.1.1.2, hfree.1.2, hfree.2, delegations, hins, rfl⟩
  · cases h

theorem insertDelegation?_isSome : (s.insertDelegation? workRef d).isSome = true ↔
    ((s.projects.get? d.projectId).isSome = true ∧ (s.workers.get? d.workerId).isSome = true ∧
      (s.runs.get? d.initialRunId).isSome = true ∧ (s.runs.get? d.currentRunId).isSome = true) ∧
    s.delegationByKey d.tenantId d.ownerId d.idempotencyKey = none ∧
    s.originBound d.tenantId d.ownerId d.originRef = false ∧
    s.delegations.get? workRef = none := by
  rw [insertDelegation?]
  split
  · rename_i hfree
    simp only [Bool.and_eq_true, Bool.not_eq_true', Option.isNone_iff_eq_none] at hfree
    rw [Option.isSome_map, Table.insert?_isSome]
    simp [hfree]
  · rename_i hfree
    simp only [Bool.and_eq_true, Bool.not_eq_true', Option.isNone_iff_eq_none] at hfree
    refine iff_of_false (by simp) ?_
    rintro ⟨⟨hproject, hworker, hinitial, hcurrent⟩, hkey, horigin, -⟩
    exact hfree ⟨⟨⟨⟨⟨hproject, hworker⟩, hinitial⟩, hcurrent⟩, hkey⟩, horigin⟩

/-- A lease that comes with the work leaves the work itself as it was inserted. -/
theorem insertAcceptedLease_eq_some {workerId : WorkerId} {runId : RunId}
    (h : s.insertAcceptedLease now a lease workerId runId = some s') :
    s'.projects = s.projects ∧ s'.workers = s.workers ∧ s'.delegations = s.delegations ∧
      s'.activeWorkActions = s.activeWorkActions := by
  cases lease with
  | none =>
    obtain rfl := Option.some.inj h
    exact ⟨rfl, rfl, rfl, rfl⟩
  | some =>
    simp only [insertAcceptedLease, insertPreacceptedLease, Option.bind_eq_bind,
      Option.bind_eq_some_iff, Option.some.injEq] at h
    obtain ⟨leases, -, attempts, -, rfl⟩ := h
    exact ⟨rfl, rfl, rfl, rfl⟩

/-- What accepted work leaves: a project, a worker and a delegation under a key and an origin
reference that were free. -/
structure Accepted (s s' : Store) (now : Time) (a : NewDelegation) : Prop where
  projects : s.projects.insert? (s.nextId + 1) { tenantId := a.tenantId, createdAt := now } =
    some s'.projects
  workers : s.workers.insert? (s.nextId + 2)
    (a.worker now (s.nextId + 1) (.uuid (s.nextId + 3))) = some s'.workers
  delegations : s.delegations.insert? s.nextId
    (a.row now (s.nextId + 1) (s.nextId + 2) (.uuid (s.nextId + 3))) = some s'.delegations
  key : s.delegationByKey a.tenantId a.ownerId a.idempotencyKey = none
  origin : s.originBound a.tenantId a.ownerId a.originRef = false
  actions : s'.activeWorkActions = s.activeWorkActions

theorem accepted_of_acceptDelegation (h : s.acceptDelegation now a lease = some s') :
    s.Accepted s' now a := by
  simp only [acceptDelegation, Option.bind_eq_bind, Option.bind_eq_some_iff,
    Option.some.injEq] at h
  obtain ⟨projects, hprojects, workers, hworkers, s₁, hrun, s₂, hinsert, s₄, hlease, rfl⟩ := h
  obtain ⟨runs, -, rfl⟩ := insertRun?_eq_some hrun
  obtain ⟨-, -, hkey, horigin, delegations, hdelegations, rfl⟩ := insertDelegation?_eq_some hinsert
  obtain ⟨hp, hw, hd, hactions⟩ := insertAcceptedLease_eq_some hlease
  refine ⟨?_, ?_, ?_, hkey, horigin, hactions⟩
  · simpa [hp] using hprojects
  · simpa [hw] using hworkers
  · simpa [hd] using hdelegations

/-- The run that accepted work is queued with, and the capacity attempt of its lease. -/
structure AcceptedRun (s s' : Store) (now : Time) (a : NewDelegation) : Prop where
  run : s.runs.insert? (.uuid (s.nextId + 3)) (s.newRun now (.uuid (s.nextId + 3)) (s.nextId + 2)
    (s.nextId + 1) a.tenantId a.instruction .queued) = some s'.runs
  attempts : s'.attempts = s.attempts
  nextId : s.nextId + 4 ≤ s'.nextId
  settings : s'.settings = s.settings
  capacity : s'.capacityAttempts = s.capacityAttempts ∨ ∃ c,
    s.capacityAttempts.insert? (.uuid (s.nextId + 3), 1) c = some s'.capacityAttempts

theorem acceptedRun_of_acceptDelegation (h : s.acceptDelegation now a lease = some s') :
    s.AcceptedRun s' now a := by
  simp only [acceptDelegation, Option.bind_eq_bind, Option.bind_eq_some_iff,
    Option.some.injEq] at h
  obtain ⟨projects, -, workers, -, s₁, hrun, s₂, hinsert, s₄, hlease, rfl⟩ := h
  obtain ⟨runs, hruns, rfl⟩ := insertRun?_eq_some hrun
  obtain ⟨-, -, -, -, delegations, -, rfl⟩ := insertDelegation?_eq_some hinsert
  cases lease with
  | none =>
    obtain rfl := Option.some.inj hlease
    exact ⟨hruns, rfl, Nat.le_add_right (s.nextId + 4) 2, rfl, Or.inl rfl⟩
  | some =>
    simp only [insertAcceptedLease, insertPreacceptedLease, Option.bind_eq_bind,
      Option.bind_eq_some_iff, Option.some.injEq] at hlease
    obtain ⟨leases, -, attempts, hattempts, rfl⟩ := hlease
    exact ⟨hruns, rfl, Nat.le_add_right (s.nextId + 4) 4, rfl, Or.inr ⟨_, hattempts⟩⟩

/-- A reservation accepts new work, or it changes nothing. -/
theorem reserveDelegation_store (s : Store) (now : Time) (a : NewDelegation) :
    (s.reserveDelegation now a).store = s ∨
      ∃ lease, s.acceptDelegation now a lease = some (s.reserveDelegation now a).store := by
  have hanswer : ∀ (q : Store) (workRef : WorkRef) (replay : Bool) (complaint : String),
      (q.answerDelegation a workRef replay complaint).store = q := by
    intro q workRef replay complaint
    unfold answerDelegation
    split <;> rfl
  unfold reserveDelegation
  split
  · exact Or.inl rfl
  split
  · exact Or.inl rfl
  split
  · split
    · exact Or.inl rfl
    · exact Or.inl (hanswer ..)
  split
  · exact Or.inl rfl
  split
  · exact Or.inl rfl
  split
  · exact Or.inl rfl
  · rename_i haccept
    rw [hanswer]
    exact Or.inr ⟨_, haccept⟩

theorem reserveDelegation_cases (s : Store) (now : Time) (a : NewDelegation) :
    (s.reserveDelegation now a).store = s ∨
      s.Accepted (s.reserveDelegation now a).store now a :=
  (reserveDelegation_store s now a).imp_right fun ⟨_, h⟩ => accepted_of_acceptDelegation h

end Rules

end Store

end GlassHive
