import GlassHive.Workers
import GlassHive.Library.Reference

/-!
# Garbage collection of ephemeral workspaces

A reaper claims a workspace with a tombstone, tears its runtime down, and finalizes the claim by
deleting the worker and what the routine knows of. The deletions run under enforced foreign keys
and the append-only triggers, so a row the routine does not mention makes the transaction fail.
-/

namespace GlassHive

open Relational

/-- The expiry of a claim of the given seconds, between ten seconds and an hour. -/
def gcClaimExpiry (now : Time) (claimTtl : ℕ) : Time :=
  now + max 10 (min claimTtl 3600) * 1000000

/-- The tombstone a first claim inserts. -/
def Tombstone.claimed (w : Worker) (now : Time) (claimToken : Token) (claimTtl : ℕ)
    (managedStorageRoot : String) : Tombstone where
  projectId := w.projectId
  tenantId := w.tenantId
  ownerId := w.ownerId
  profile := w.profile
  executionMode := w.executionMode
  originalState := w.state
  originalUpdatedAt := w.updatedAt
  stateDir := w.stateDir
  workspaceDir := w.workspaceDir
  workspaceRoot := w.workspaceRoot
  managedStorageRoot := managedStorageRoot
  phase := .claimed
  claimToken := some claimToken
  claimExpiresAt := gcClaimExpiry now claimTtl
  cleanupAttempts := 0
  lastError := ""
  claimedAt := now
  metadataDeletedAt := none
  completedAt := none
  updatedAt := now

namespace Store

/-! ## Blockers -/

/-- The run states `_ephemeral_gc_has_blocker` looks for. -/
def gcBlockingRunStates : List RunState :=
  [.queued, .running, .paused]

/-- The scheduled run states `_ephemeral_gc_has_blocker` looks for. -/
def gcBlockingScheduleStates : List ScheduleState :=
  [.pending, .claimed, .running, .queued, .retryable, .actionRequired]

/-- The blockers that are looked for before pending changes are expired. -/
def gcWorkBlocker (s : Store) (workerId : WorkerId) (now : Time) : Bool :=
  (s.runs.any fun _ r => r.workerId == workerId && oneOf r.state gcBlockingRunStates) ||
  (s.scheduledRuns.any fun _ r =>
    r.workerId == workerId && oneOf r.state gcBlockingScheduleStates) ||
  (s.definitions.any fun _ d => d.workerId == workerId && d.active) ||
  (s.accountLeases.any fun _ l =>
    l.workerId == workerId && l.releasedAt.isNone && decide (now < l.expiresAt))

/-- Expire the pending control-plane changes of the worker. -/
@[simps]
def expirePendingChanges (s : Store) (workerId : WorkerId) (now : Time) : Store :=
  { s with
    pendingChanges := s.pendingChanges.update
      (fun _ c => c.targetId == workerId && c.status == "pending" && decide (c.expiresAt ≤ now))
      fun _ c => { c with status := "expired", resolvedAt := some now } }

/-- The blockers that are looked for after pending changes are expired. -/
def gcControlBlocker (s : Store) (workerId : WorkerId) (projectId : ProjectId) (now : Time) :
    Bool :=
  (s.pendingChanges.any fun _ c =>
    c.targetId == workerId && c.status == "pending" && decide (now < c.expiresAt)) ||
  (s.templateInstantiations.any fun _ t => t.status == "pending" &&
    (t.workerId == some workerId || t.projectId == some projectId)) ||
  (s.duplications.any fun _ d => d.status == "pending" &&
    (d.sourceWorkerId == some workerId || d.workerId == some workerId ||
      d.projectId == some projectId))

/-- `_ephemeral_gc_has_blocker`, with the store it leaves. -/
def ephemeralGcHasBlocker (s : Store) (workerId : WorkerId) (projectId : ProjectId) (now : Time) :
    Bool × Store :=
  if s.gcWorkBlocker workerId now then (true, s)
  else
    let s' := s.expirePendingChanges workerId now
    (s'.gcControlBlocker workerId projectId now, s')

/-! ## Claim and release -/

/-- Put a claimed worker back into the state its tombstone recorded. -/
def restoreGcClaimed (s : Store) (workerId : WorkerId) (t : Tombstone) : Store :=
  s.updateWorkers (fun id w => id == workerId && w.state == .gcClaimed)
    fun w => { w with state := t.originalState, updatedAt := t.originalUpdatedAt }

/-- Remove the tombstone of a worker. -/
@[simps]
def deleteTombstone (s : Store) (workerId : WorkerId) : Store :=
  { s with tombstones := s.tombstones.delete fun id _ => id == workerId }

/-- A tombstone whose claim may be adopted: an expired claim of a worker still held by it. -/
def gcClaimAdoptable (t : Tombstone) (w : Worker) (now : Time) : Bool :=
  t.phase == .claimed && decide (t.claimExpiresAt ≤ now) && w.state == .gcClaimed

/-- `claim_ephemeral_workspace_gc`. -/
def claimEphemeralWorkspaceGc (s : Store) (workerId : WorkerId) (updatedBefore now : Time)
    (claimToken : Token) (claimTtl : ℕ) (managedStorageRoot : String) :
    Outcome (Option Worker) :=
  match s.workers.get? workerId with
  | none => .commit s none
  | some w =>
    if !(w.workspaceKind == .ephemeral && decide (w.updatedAt < updatedBefore)) then
      .commit s none
    else match s.tombstones.get? workerId with
      | some t =>
        if !gcClaimAdoptable t w now then .commit s none
        else
          let (blocked, s') := s.ephemeralGcHasBlocker workerId w.projectId now
          if blocked then
            .commit ((s'.restoreGcClaimed workerId t).deleteTombstone workerId) none
          else
            .commit (s'.updateTombstones
              (fun id t => id == workerId && t.phase == .claimed && decide (t.claimExpiresAt ≤ now))
              fun t => { t with
                claimToken := some claimToken, claimExpiresAt := gcClaimExpiry now claimTtl,
                managedStorageRoot := managedStorageRoot, lastError := "", updatedAt := now })
              (some w)
      | none =>
        if oneOf w.state [.created, .starting, .running, .gcClaimed] then .commit s none
        else
          let (blocked, s') := s.ephemeralGcHasBlocker workerId w.projectId now
          if blocked then .commit s' none
          else match s'.tombstones.insert? workerId
              (Tombstone.claimed w now claimToken claimTtl managedStorageRoot) with
            | none => .raise s (.integrity "workspace_gc_tombstones.worker_id")
            | some tombstones =>
              .commit (Store.updateWorkers { s' with tombstones := tombstones }
                (fun id v => id == workerId && v.workspaceKind == .ephemeral &&
                  v.updatedAt == w.updatedAt)
                fun v => { v with state := .gcClaimed }) (some w)

/-- The tombstone that a claim token holds. -/
def heldTombstone (s : Store) (workerId : WorkerId) (claimToken : Token) : Option Tombstone :=
  (s.tombstones.get? workerId).filter fun t =>
    t.phase == .claimed && t.claimToken == some claimToken

/-- `release_ephemeral_workspace_gc_claim`. -/
def releaseEphemeralWorkspaceGcClaim (s : Store) (workerId : WorkerId) (claimToken : Token) :
    Outcome Bool :=
  match s.heldTombstone workerId claimToken with
  | none => .commit s false
  | some t => .commit ((s.restoreGcClaimed workerId t).deleteTombstone workerId) true

/-! ## Deletions -/

/-- The sessions of the worker and the requests of these sessions. -/
def gcSession (s : Store) (workerId : WorkerId) (sessionId : SessionId) : Bool :=
  s.sessions.any fun id c => id == sessionId && c.workerId == workerId

def gcRequest (s : Store) (workerId : WorkerId) (requestId : RequestId) : Bool :=
  s.requests.any fun id q => id == requestId && s.gcSession workerId q.sessionId

/-- A definition or a schedule of the worker. -/
def gcDefinition (s : Store) (workerId : WorkerId) (definitionId : DefinitionId) : Bool :=
  s.definitions.any fun id d => id == definitionId && d.workerId == workerId

def gcSchedule (s : Store) (workerId : WorkerId) (scheduleId : ScheduleId) : Bool :=
  s.scheduledRuns.any fun id r => id == scheduleId && r.workerId == workerId

/-- Everything the routine deletes before it deletes the runs. -/
@[simps]
def gcDeleteDependents (s : Store) (workerId : WorkerId) : Store :=
  { s with
    activity := s.activity.delete fun _ a => a.parent.any (s.gcRequest workerId)
    requests := s.requests.delete fun id _ => s.gcRequest workerId id
    visibleAdmissions := s.visibleAdmissions.delete fun k _ => s.gcSession workerId k.1
    sessions := s.sessions.delete fun id _ => s.gcSession workerId id
    occurrences := s.occurrences.delete fun _ o =>
      s.gcDefinition workerId o.definitionId || s.gcSchedule workerId o.scheduledRunId
    definitions := s.definitions.delete fun _ d => d.workerId == workerId
    scheduledRuns := s.scheduledRuns.delete fun _ r => r.workerId == workerId
    events := s.events.delete fun _ e => e.workerId == workerId
    runActionUses := s.runActionUses.delete fun _ u => u.workerId == workerId }

/-- Some row outside the worker's own deletions still refers to one of the runs. -/
def runsReferenced (s : Store) (p : RunId → Run → Bool) : Bool :=
  s.runs.referenced p s.attempts (fun _ a id => a.runId == id) ||
  s.runs.referenced p s.capacityAttempts (fun k _ id => k.1 == id) ||
  s.runs.referenced p s.accountFences (fun runId _ id => runId == id) ||
  s.runs.referenced p s.callbackTrace (fun _ c id => oneOf id c.runIds) ||
  s.runs.referenced p s.callbackReconciliations (fun _ c id => oneOf id c.runIds) ||
  s.runs.referenced p s.revocations (fun _ c id => c.binding.runId == id) ||
  s.runs.referenced p s.runActionUses (fun _ u id => u.sourceRunId == id || u.newRunId == some id) ||
  s.runs.referenced p s.delegations (fun _ d id => d.initialRunId == id || d.currentRunId == id) ||
  s.runs.referenced p s.workTrace (fun k _ id => k.1 == id) ||
  s.runs.referenced p s.leases (fun _ l id => l.runId == id) ||
  s.runs.referenced p s.requests (fun _ q id => q.runId == some id) ||
  s.runs.referenced p s.livenessEvents (fun _ e id => oneOf id e.runIds)

/-- Some row still refers to one of the workers. -/
def workersReferenced (s : Store) (p : WorkerId → Worker → Bool) : Bool :=
  s.workers.referenced p s.runs (fun _ r id => r.workerId == id) ||
  s.workers.referenced p s.events (fun _ e id => e.workerId == id) ||
  s.workers.referenced p s.callbackOutbox (fun _ c id => c.workerId == some id) ||
  s.workers.referenced p s.effects (fun _ e id => e.binding.workerId == id) ||
  s.workers.referenced p s.revocations (fun _ c id => c.binding.workerId == id) ||
  s.workers.referenced p s.runActionUses (fun _ u id => u.workerId == id) ||
  s.workers.referenced p s.delegations (fun _ d id => d.workerId == id) ||
  s.workers.referenced p s.leases (fun _ l id => l.workerId == id) ||
  s.workers.referenced p s.scheduledRuns (fun _ r id => r.workerId == id) ||
  s.workers.referenced p s.definitions (fun _ d id => d.workerId == id) ||
  s.workers.referenced p s.sessions (fun _ c id => c.workerId == id)

/-- Some row still refers to one of the projects. -/
def projectsReferenced (s : Store) (p : ProjectId → Project → Bool) : Bool :=
  s.projects.referenced p s.workers (fun _ w id => w.projectId == id) ||
  s.projects.referenced p s.runs (fun _ r id => r.projectId == id) ||
  s.projects.referenced p s.events (fun _ e id => e.projectId == id) ||
  s.projects.referenced p s.callbackOutbox (fun _ c id => c.projectId == some id) ||
  s.projects.referenced p s.runActionUses (fun _ u id => u.projectId == id) ||
  s.projects.referenced p s.delegations (fun _ d id => d.projectId == id) ||
  s.projects.referenced p s.scheduledRuns (fun _ r id => r.projectId == id) ||
  s.projects.referenced p s.definitions (fun _ d id => d.projectId == id) ||
  s.projects.referenced p s.sessions (fun _ c id => c.projectId == id)

/-- `DELETE FROM callback_outbox`: the trigger `callback_outbox_delete_forbidden` aborts it as soon
as one row matches. -/
def deleteCallbacks (s : Store) (workerId : WorkerId) : Except StoreError Store :=
  if s.callbackOutbox.any fun _ c => c.workerId == some workerId then
    .error (.integrity "callback authority is immutable")
  else .ok s

/-- `DELETE FROM runs WHERE worker_id = ?`. -/
def deleteRuns (s : Store) (workerId : WorkerId) : Except StoreError Store :=
  if s.runsReferenced fun _ r => r.workerId == workerId then
    .error (.integrity "runs.run_id")
  else .ok { s with runs := s.runs.delete fun _ r => r.workerId == workerId }

/-- The control-plane rows, which nothing refers to. -/
@[simps]
def gcDeleteControlPlane (s : Store) (workerId : WorkerId) : Store :=
  { s with
    accountLeases := s.accountLeases.delete fun _ l => l.workerId == workerId
    capabilityGrants := s.capabilityGrants.delete fun _ g => g.workerId == workerId
    pendingChanges := s.pendingChanges.delete fun _ c => c.targetId == workerId }

/-- `DELETE FROM workers WHERE worker_id = ? AND workspace_kind = 'ephemeral'`. -/
def deleteWorker (s : Store) (workerId : WorkerId) : Except StoreError Store :=
  if s.workersReferenced fun id w => id == workerId && w.workspaceKind == .ephemeral then
    .error (.integrity "workers.worker_id")
  else .ok { s with
    workers := s.workers.delete fun id w => id == workerId && w.workspaceKind == .ephemeral }

/-- `DELETE FROM projects` when the project has no worker left. -/
def deleteProject (s : Store) (projectId : ProjectId) : Except StoreError Store :=
  let p : ProjectId → Project → Bool := fun id _ =>
    id == projectId && !(s.workers.any fun _ w => w.projectId == id)
  if s.projectsReferenced p then .error (.integrity "projects.project_id")
  else .ok { s with projects := s.projects.delete p }

/-- The deletions of `finalize_ephemeral_workspace_gc` in their order. -/
def gcDelete (s : Store) (workerId : WorkerId) (projectId : ProjectId) :
    Except StoreError Store := do
  let s ← s.deleteCallbacks workerId
  let s ← (s.gcDeleteDependents workerId).deleteRuns workerId
  let s ← (s.gcDeleteControlPlane workerId).deleteWorker workerId
  s.deleteProject projectId

/-- What the deletions do to the tables that runs, attempts and claims live in. -/
theorem gcDelete_eq {s s' : Store} {workerId : WorkerId} {projectId : ProjectId}
    (h : s.gcDelete workerId projectId = .ok s') :
    s'.workers = s.workers.delete
        (fun id w => id == workerId && w.workspaceKind == .ephemeral) ∧
      s'.runs = s.runs.delete (fun _ r => r.workerId == workerId) ∧
      s'.attempts = s.attempts ∧ s'.leases = s.leases ∧ s'.tombstones = s.tombstones ∧
      s'.nextId = s.nextId ∧ s'.delegations = s.delegations ∧
      s'.accountLeases = s.accountLeases.delete (fun _ l => l.workerId == workerId) := by
  simp only [gcDelete, deleteCallbacks, deleteRuns, deleteWorker, deleteProject, bind,
    Except.bind] at h
  split at h
  · cases h
  rename_i hcallbacks
  split at hcallbacks
  · cases hcallbacks
  cases hcallbacks
  split at h
  · cases h
  rename_i hruns
  split at hruns
  · cases hruns
  cases hruns
  split at h
  · cases h
  rename_i hworker
  split at hworker
  · cases hworker
  cases hworker
  split at h
  · cases h
  cases h
  exact ⟨rfl, rfl, rfl, rfl, rfl, rfl, rfl, rfl⟩

/-- What a deletion leaves of a table that the child table refers to. -/
private theorem get?_delete_of_unreferenced {κ κ' ρ ρ' : Type} [DecidableEq κ] [DecidableEq κ']
    {parent : Table κ ρ} {p : κ → ρ → Bool} {child : Table κ' ρ'} {refers : κ' → ρ' → κ → Bool}
    (h : parent.referenced p child refers = false) {k' : κ'} {r' : ρ'} {k : κ}
    (hchild : child.get? k' = some r') (hrefers : refers k' r' k = true) :
    (parent.delete p).get? k = parent.get? k := by
  rw [Table.get?_delete]
  cases hk : parent.get? k with
  | none => rfl
  | some r =>
    have hp : p k r = false := by
      by_contra hp
      have hno := Table.referenced_eq_false.mp h k r hk (by simpa using hp) k' r' hchild
      rw [hrefers] at hno
      cases hno
    simp [hp]

/-- The worker and the project of a delegation are never deleted. -/
theorem gcDelete_keeps {s s' : Store} {workerId : WorkerId} {projectId : ProjectId}
    (h : s.gcDelete workerId projectId = .ok s') {workRef : WorkRef} {d : Delegation}
    (hd : s.delegations.get? workRef = some d) :
    s'.workers.get? d.workerId = s.workers.get? d.workerId ∧
      s'.projects.get? d.projectId = s.projects.get? d.projectId := by
  simp only [gcDelete, deleteCallbacks, deleteRuns, deleteWorker, deleteProject, bind,
    Except.bind] at h
  split at h
  · cases h
  rename_i hcallbacks
  split at hcallbacks
  · cases hcallbacks
  cases hcallbacks
  split at h
  · cases h
  rename_i hruns
  split at hruns
  · cases hruns
  cases hruns
  split at h
  · cases h
  rename_i hworker
  split at hworker
  · cases hworker
  rename_i hworkers
  cases hworker
  split at h
  · cases h
  rename_i hprojects
  cases h
  simp only [workersReferenced, Bool.or_eq_true, not_or, Bool.not_eq_true] at hworkers
  simp only [projectsReferenced, Bool.or_eq_true, not_or, Bool.not_eq_true] at hprojects
  exact ⟨get?_delete_of_unreferenced hworkers.1.1.1.1.2 hd (by simp),
    get?_delete_of_unreferenced hprojects.1.1.1.2 hd (by simp)⟩

/-- `finalize_ephemeral_workspace_gc`. -/
def finalizeEphemeralWorkspaceGc (s : Store) (workerId : WorkerId) (claimToken : Token)
    (updatedBefore now : Time) : Outcome (Option Worker) :=
  match s.heldTombstone workerId claimToken, s.workers.get? workerId with
  | some _, some w =>
    if !(w.workspaceKind == .ephemeral && w.state == .gcClaimed &&
        decide (w.updatedAt < updatedBefore)) then .commit s none
    else
      let (blocked, s') := s.ephemeralGcHasBlocker workerId w.projectId now
      if blocked then .commit s' none
      else match s'.gcDelete workerId w.projectId with
        | .error e => .raise s e
        | .ok s'' =>
          .commit (s''.updateTombstones
            (fun id t => id == workerId && t.phase == .claimed && t.claimToken == some claimToken)
            fun t => { t with
              phase := .cleanupPending, metadataDeletedAt := some now, updatedAt := now,
              lastError := "" }) (some w)
  | _, _ => .commit s none

/-! ## Cleanup of deleted workspaces -/

/-- `claim_workspace_gc_cleanup`. -/
def claimWorkspaceGcCleanup (s : Store) (workerId : WorkerId) (claimToken : Token) (now : Time)
    (claimTtl : ℕ) : Outcome (Option Tombstone) :=
  match s.tombstones.get? workerId with
  | none => .commit s none
  | some t =>
    if t.phase != .cleanupPending then .commit s none
    else if t.claimToken.isSome && t.claimToken != some claimToken &&
        decide (now < t.claimExpiresAt) then .commit s none
    else
      let s' := s.updateTombstones (fun id t => id == workerId && t.phase == .cleanupPending)
        fun t => { t with
          claimToken := some claimToken, claimExpiresAt := gcClaimExpiry now claimTtl,
          updatedAt := now }
      .commit s' (s'.tombstones.get? workerId)

/-- `record_workspace_gc_cleanup`. -/
def recordWorkspaceGcCleanup (s : Store) (workerId : WorkerId) (claimToken : Token) (now : Time)
    (error : Option String) : Outcome Bool :=
  let held : WorkerId → Tombstone → Bool := fun id t =>
    id == workerId && t.phase == .cleanupPending && t.claimToken == some claimToken
  let s' := s.updateTombstones held fun t =>
    match error with
    | some message => { t with
        claimToken := none, claimExpiresAt := 0, cleanupAttempts := t.cleanupAttempts + 1,
        lastError := message, updatedAt := now }
    | none => { t with
        phase := .completed, claimToken := none, claimExpiresAt := 0,
        cleanupAttempts := t.cleanupAttempts + 1, lastError := "", completedAt := some now,
        updatedAt := now }
  .commit s' (s.tombstones.any held)

end Store

end GlassHive
