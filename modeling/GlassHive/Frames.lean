import GlassHive.Steps
import GlassHive.Library.Evolution

/-!
# What every transaction leaves alone

Identifiers are only ever used up, a delegation keeps what identifies it and what it refers to, and
nothing but the garbage collector writes tombstones or deletes account leases and projects. Only the
garbage collector deletes runs and workers, and only it and the run actions themselves add or remove
uses of run actions: any other transaction leaves every run in its place, every worker with its
owner, and changes of a use no more than how it ended.
-/

namespace GlassHive

open Relational

/-- What identifies a delegation. The rest of its row follows its runs. -/
structure DelegationBinding where
  tenantId : TenantId
  ownerId : OwnerId
  idempotencyKey : IdempotencyKey
  requestDigest : RequestDigest
  originRef : String
  projectId : ProjectId
  workerId : WorkerId
  initialRunId : RunId
  deriving DecidableEq

def Delegation.binding (d : Delegation) : DelegationBinding where
  tenantId := d.tenantId
  ownerId := d.ownerId
  idempotencyKey := d.idempotencyKey
  requestDigest := d.requestDigest
  originRef := d.originRef
  projectId := d.projectId
  workerId := d.workerId
  initialRunId := d.initialRunId

@[simp] theorem Delegation.binding_inj {d e : Delegation} : d.binding = e.binding ↔
    d.tenantId = e.tenantId ∧ d.ownerId = e.ownerId ∧ d.idempotencyKey = e.idempotencyKey ∧
      d.requestDigest = e.requestDigest ∧ d.originRef = e.originRef ∧ d.projectId = e.projectId ∧
      d.workerId = e.workerId ∧ d.initialRunId = e.initialRunId := by
  simp only [Delegation.binding, DelegationBinding.mk.injEq]

/-- What identifies the use of a run action. -/
structure RunActionBinding where
  action : String
  projectId : ProjectId
  workerId : WorkerId
  sourceRunId : RunId
  newRunId : Option RunId
  deriving DecidableEq

def RunActionUse.binding (u : RunActionUse) : RunActionBinding where
  action := u.action
  projectId := u.projectId
  workerId := u.workerId
  sourceRunId := u.sourceRunId
  newRunId := u.newRunId

@[simp] theorem RunActionUse.binding_inj {u v : RunActionUse} : u.binding = v.binding ↔
    u.action = v.action ∧ u.projectId = v.projectId ∧ u.workerId = v.workerId ∧
      u.sourceRunId = v.sourceRunId ∧ u.newRunId = v.newRunId := by
  simp only [RunActionUse.binding, RunActionBinding.mk.injEq]

/-- Where a run belongs. -/
structure RunPlace where
  projectId : ProjectId
  workerId : WorkerId
  tenantId : TenantId
  deriving DecidableEq

def Run.place (r : Run) : RunPlace where
  projectId := r.projectId
  workerId := r.workerId
  tenantId := r.tenantId

@[simp] theorem Run.place_inj {r q : Run} : r.place = q.place ↔
    r.projectId = q.projectId ∧ r.workerId = q.workerId ∧ r.tenantId = q.tenantId := by
  simp only [Run.place, RunPlace.mk.injEq]

@[simp] theorem Run.triggered_tenantId (now : Time) (old new : Run) :
    (Run.triggered now old new).tenantId = new.tenantId := rfl

namespace Store

/-- The bindings of the delegations under their references. -/
def bindings (s : Store) (workRef : WorkRef) : Option DelegationBinding :=
  (s.delegations.get? workRef).map Delegation.binding

/-- The records that follow no run and no worker. -/
structure Records where
  projects : Table ProjectId Project
  tombstones : Table WorkerId Tombstone
  accountLeases : Table RowId AccountLease
  bindings : WorkRef → Option DelegationBinding

def records (s : Store) : Records where
  projects := s.projects
  tombstones := s.tombstones
  accountLeases := s.accountLeases
  bindings := s.bindings

/-- The records are as they were, and no identifier is given back. -/
structure Framed (s s' : Store) : Prop where
  records : s'.records = s.records
  nextId : s.nextId ≤ s'.nextId

variable {s s' : Store}

theorem framed_refl : s.Framed s :=
  ⟨rfl, le_rfl⟩

/-- The uses of run actions under their capabilities. -/
def useBindings (s : Store) (capabilityId : RowId) : Option RunActionBinding :=
  (s.runActionUses.get? capabilityId).map RunActionUse.binding

/-- No run is removed, and the uses of run actions are the same ones. -/
structure Retains (s s' : Store) : Prop where
  runs : ∀ id, (s.runs.get? id).isSome = true → (s'.runs.get? id).isSome = true
  uses : s'.useBindings = s.useBindings

/-- The owners of the workers. -/
def owners (s : Store) (workerId : WorkerId) : Option OwnerId :=
  (s.workers.get? workerId).map Worker.ownerId

theorem owners_update {p : WorkerId → Worker → Bool} {f : WorkerId → Worker → Worker}
    (h : s'.workers = s.workers.update p f) (hf : ∀ id w, (f id w).ownerId = w.ownerId) :
    s'.owners = s.owners := by
  funext id
  rw [owners, owners, h, Table.map_get?_update _ _ _ _ hf]

/-- What the transactions leave alone of the rows that they rewrite: the rows of the first tables
altogether, of a delegation and of a use what identifies it, of a run its place, and of a worker its
owner. -/
structure Anchored (s s' : Store) : Prop where
  projects : s'.projects = s.projects
  tombstones : s'.tombstones = s.tombstones
  accountLeases : s'.accountLeases = s.accountLeases
  delegations : s.delegations.Agrees Delegation.binding s'.delegations
  uses : s.runActionUses.Agrees RunActionUse.binding s'.runActionUses
  runs : s.runs.Carries Run.place s'.runs
  workers : s.workers.Carries Worker.ownerId s'.workers
  nextId : s.nextId ≤ s'.nextId

@[simp] theorem anchored_refl : s.Anchored s :=
  ⟨rfl, rfl, rfl, Table.agrees_refl, Table.agrees_refl, Table.carries_refl, Table.carries_refl,
    le_rfl⟩

theorem Anchored.trans {s'' : Store} (h : s.Anchored s') (h' : s'.Anchored s'') :
    s.Anchored s'' where
  projects := h'.projects.trans h.projects
  tombstones := h'.tombstones.trans h.tombstones
  accountLeases := h'.accountLeases.trans h.accountLeases
  delegations := h.delegations.trans h'.delegations
  uses := h.uses.trans h'.uses
  runs := h.runs.trans h'.runs
  workers := h.workers.trans h'.workers
  nextId := h.nextId.trans h'.nextId

theorem Anchored.framed (h : s.Anchored s') : s.Framed s' := by
  refine ⟨?_, h.nextId⟩
  have hbindings : s'.bindings = s.bindings := funext h.delegations
  rw [records, records, h.projects, h.tombstones, h.accountLeases, hbindings]

theorem Anchored.retains (h : s.Anchored s') : s.Retains s' :=
  ⟨h.runs.isSome, funext h.uses⟩

section Parts

variable {s s₀ : Store} {now : Time} {r : Run} {runId : RunId} {workerId : WorkerId} {token : Token}
  {w : Worker}

theorem anchored_insertRun? (h : s.insertRun? runId r = some s') : s.Anchored s' := by
  obtain ⟨runs, hins, rfl⟩ := insertRun?_eq_some h
  exact { anchored_refl with runs := Table.carries_insert hins }

theorem anchored_downgradeUnprovenRunning {reason : String} :
    s.Anchored (s.downgradeUnprovenRunning runId r now reason) := by
  constructor <;> simp [downgradeUnprovenRunning, downgradedRow]

theorem Anchored.settleClaim {epoch : ℕ} {state : WorkerState} {f : Worker → Worker}
    (h : s.Anchored s₀) (hf : ∀ w, (f w).ownerId = w.ownerId) :
    s.Anchored (s₀.settleClaim now workerId token epoch state f) :=
  { h with workers := by simp [Store.settleClaim, hf, h.workers] }

theorem Anchored.publishStop {target : RunId} {cancelled : Bool} (h : s.Anchored s₀) :
    s.Anchored (s₀.publishStop now workerId token w target cancelled) := by
  obtain ⟨_, _, heq⟩ := publishStop_eq s₀ now workerId token w target cancelled
  rw [heq]
  exact { h with }

theorem Anchored.steerToReplacement {a : FinalizeSteer} {events : List (RunId × String × String)}
    {queued : Bool} (h : s.Anchored s₀) :
    s.Anchored (s₀.steerToReplacement now a w events queued) := by
  rw [Store.steerToReplacement]
  refine Anchored.settleClaim ?_ fun _ => rfl
  obtain ⟨hprojects, htombstones, hleases, hdelegations, huses, hruns, hworkers, hnext⟩ := h
  cases queued <;> constructor <;> simp [advanceDelegations, releaseRunLeases, *]

theorem Anchored.publishStart {a : ConfirmStart} (h : s.Anchored s₀) :
    s.Anchored (s₀.publishStart now a r) := by
  rw [Store.publishStart]
  obtain ⟨hprojects, htombstones, hleases, hdelegations, huses, hruns, hworkers, hnext⟩ := h
  split <;> constructor <;> simp [*]
  omega

end Parts

/-! ## Each family of transactions -/

section Families

variable {s s' : Store} {now : Time}

theorem anchored_applyWorker {op : WorkerOp} (hcreate : ∀ tenantId, op ≠ .createProject tenantId) :
    s.Anchored (s.applyWorker now op) := by
  cases op with
  | createProject tenantId => exact absurd rfl (hcreate tenantId)
  | createWorker =>
    rw [applyWorker, createWorker]
    split
    · exact anchored_refl
    split
    · exact anchored_refl
    · rename_i workers hins
      exact { anchored_refl with
        workers := Table.carries_insert hins
        nextId := (Nat.le_succ _).trans (Nat.le_succ _) }
  | updateWorker =>
    rw [applyWorker, updateWorker]
    constructor <;> simp [WorkerPatch.apply, apply_ite Worker.ownerId]
  | updateWorkerUnlessGcClaimed =>
    rw [applyWorker, updateWorkerUnlessGcClaimed]
    split
    · exact anchored_refl
    · constructor <;> simp [WorkerPatch.apply]
  | beginWorkerTermination =>
    rw [applyWorker, beginWorkerTermination]
    split
    · exact anchored_refl
    split
    · exact anchored_refl
    · constructor <;> simp
  | failWorkerTermination => constructor <;> simp [applyWorker, failWorkerTermination]
  | recordWorkerTerminationCleanupFailure =>
    constructor <;> simp [applyWorker, recordWorkerTerminationCleanupFailure]
  | completeWorkerTermination =>
    rw [applyWorker, completeWorkerTermination]
    split
    · exact anchored_refl
    split
    · constructor <;> simp [WorkerPatch.apply]
    · exact anchored_refl
  | beginWorkerComputeStart =>
    rw [applyWorker, beginWorkerComputeStart]
    split
    · exact anchored_refl
    split
    · exact anchored_refl
    · constructor <;> simp

theorem anchored_applySchedule {op : ScheduleOp} : s.Anchored (s.applySchedule now op) := by
  rcases applySchedule_store s now op with ⟨_, _, _, rfl⟩ | ⟨_, _, _, _, _, hnext, h⟩
  · rw [applySchedule, setSchedulePrincipalAuthority]
    split
    · exact { anchored_refl with }
    · constructor <;> simp
  · rw [h]
    exact { anchored_refl with nextId := hnext }

theorem anchored_drawId : s.Anchored s.drawId :=
  { anchored_refl with nextId := Nat.le_succ _ }

theorem anchored_reconcileInvalidRunningRuns :
    s.Anchored (s.reconcileInvalidRunningRuns now).store := by
  exact reconcileInvalidRunningRuns_keeps anchored_refl fun _ _ _ h =>
    h.trans anchored_downgradeUnprovenRunning

theorem place_updatedRun (state : Option RunState) (patch : RunPatch) (r : Run) :
    (updatedRun state patch r).place = r.place := by
  rw [updatedRun]
  split <;> rfl

theorem RunStep.anchored {op : RunOp} (h : s.RunStep now op s') : s.Anchored s' := by
  cases h with
  | unchanged => exact anchored_refl
  | created hins | createdFenced hins =>
    refine (anchored_drawId.trans (anchored_insertRun? hins)).trans ?_
    constructor <;> simp [touchLastRun]
  | @scheduled s₁ _ _ _ _ _ _ _ hrun =>
    have hanchored : s.Anchored s₁ := by
      rcases hrun with rfl | ⟨s₀, hins, rfl⟩
      · exact anchored_refl
      · exact (anchored_insertRun? hins).trans { anchored_refl with }
    refine hanchored.trans ?_
    constructor <;> simp
  | reconciled => exact anchored_reconcileInvalidRunningRuns
  | updated _ _ _ _ hs =>
    rcases hs with ⟨-, -, rfl⟩ | ⟨-, rfl⟩
    · exact anchored_downgradeUnprovenRunning
    · have hplace := fun state patch q => Run.place_inj.mp (place_updatedRun state patch q)
      rw [writeRun]
      split <;> constructor <;> simp [hplace]
  | transitioned =>
    rw [transitionRun]
    split <;> split <;> constructor <;> simp [RunPatch.apply]
  | settled => constructor <;> simp [settleRun]
  | finalizedActive =>
    rw [finalizeActive]
    split
    · rw [finalizeLinkedScheduleForTerminalRun]
      split <;> constructor <;> simp [settleLinkedSchedules, activeRow]
    · constructor <;> simp [activeRow]
  | finalizedInactive =>
    rw [finalizeInactive, finalizeLinkedScheduleForTerminalRun]
    split <;> constructor <;> simp [settleLinkedSchedules, inactiveRow]
  | cancelledPending =>
    rw [cancelPendingRuns]
    split
    · exact anchored_refl
    · constructor <;> simp
  | cancelledQueued =>
    rw [cancelQueuedRunsForWorker]
    constructor <;> simp
  | @retried r a =>
    rw [retryRun]
    obtain ⟨_, _, h⟩ := recordRetryCapacity_eq
        (Store.appendAttemptTraces _ now r.activeAttemptId.toList) now a r
    rw [h]
    constructor <;> simp [RequeueRetry.row]
  | replaced _ hins =>
    refine (anchored_insertRun? hins).trans ?_
    constructor <;> simp [replaceRun, touchLastRun, replacedRow]
  | expired =>
    unfold expireRun
    split <;> constructor <;> simp [ExpireQueued.row]

theorem anchored_sweepUnauthorized {workerId : WorkerId} {require : Bool} {n : ℕ}
    {chosen : Option RunId} (h : sweepUnauthorized now workerId require n s = (s', chosen)) :
    s.Anchored s' := by
  induction n generalizing s with
  | zero =>
    obtain ⟨rfl, -⟩ := Prod.mk.inj h
    exact anchored_refl
  | succ n ih =>
    rw [sweepUnauthorized] at h
    split at h
    · obtain ⟨rfl, -⟩ := Prod.mk.inj h
      exact anchored_refl
    split at h
    · refine Anchored.trans ?_ (ih h)
      constructor <;> simp [cancelUnauthorized, unauthorizedRow]
    · obtain ⟨rfl, -⟩ := Prod.mk.inj h
      exact anchored_refl

theorem anchored_invokeGeneration {runId : RunId} {r : Run} {leaseId : LeaseId}
    {attemptId : AttemptId} {f : Run → Run} (hf : ∀ q, (f q).place = q.place) :
    s.Anchored (s.invokeGeneration now runId r leaseId attemptId f) := by
  have hplace := fun q => Run.place_inj.mp (hf q)
  constructor <;> simp [invokeGeneration, hplace]

theorem StartStep.anchored {op : StartOp} (h : s.StartStep now op s') : s.Anchored s' := by
  cases h with
  | unchanged => exact anchored_refl
  | claimed => constructor <;> simp [claimRun, claimedRun]
  | swept _ hsweep => exact anchored_sweepUnauthorized hsweep
  | claimedLegacy _ hsweep =>
    refine (anchored_sweepUnauthorized hsweep).trans ?_
    constructor <;> simp [startLegacy, legacyRow]
  | acquired _ _ _ _ hnext => exact { anchored_refl with nextId := hnext }
  | heartbeat | released | unconfirmed => exact { anchored_refl with }
  | lost | unproven => exact anchored_downgradeUnprovenRunning
  | admitted => constructor <;> simp [admitGeneration]
  | invoked => exact anchored_invokeGeneration (by exact fun _ => rfl)
  | confirmed => exact Anchored.publishStart (anchored_invokeGeneration (by exact fun _ => rfl))
  | confirmedRunning => exact anchored_refl.publishStart
  | unconfirmedSettling => constructor <;> simp [settleGeneration]
  | requeued => constructor <;> simp [requeueGeneration, fencedRow]

theorem LifecycleStep.anchored {op : LifecycleOp} (h : s.LifecycleStep now op s') :
    s.Anchored s' := by
  cases h with
  | unchanged => exact anchored_refl
  | changedRow _ _ _ _ _ howner => constructor <;> simp [howner]
  | @takenOver _ a =>
    have howner : ∀ v, (takenOverRow now a s.nextId v).ownerId = v.ownerId := fun _ => rfl
    constructor <;> simp [howner]
  | @claimed _ a s' _ _ _ hreserve =>
    have hdrawn : s.Anchored s.drawId.drawId := anchored_drawId.trans anchored_drawId
    have hreserved : s.drawId.drawId.Anchored s' := by
      rcases reserveReplacement_eq_some hreserve with rfl | ⟨_, _, _, _, -, -, -, -, hins, rfl⟩
      · exact anchored_refl
      · exact { anchored_refl with runs := Table.carries_insert hins }
    have howner : ∀ v, (claimedRow now a s.nextId (s.nextId + 1) v).ownerId = v.ownerId :=
      fun _ => rfl
    refine (hdrawn.trans hreserved).trans ?_
    constructor <;> simp [howner]
  | @released workerId token _ kind target w =>
    rw [releaseCompute]
    refine Anchored.settleClaim ?_ fun _ => rfl
    obtain ⟨_, _, h⟩ := publishWorkerControl_eq (s.releasePausedTarget now workerId kind target)
        now workerId token w kind
    rw [h]
    unfold releasePausedTarget
    split <;> exact { anchored_refl with }
  | finished =>
    rw [finishOperation]
    refine Anchored.settleClaim ?_ fun _ => rfl
    split <;> constructor <;> simp [releaseRunLeases, concludeTarget, Run.conclude]
  | stopped =>
    refine Anchored.settleClaim (Anchored.publishStop ?_) fun _ => rfl
    constructor <;>
      simp [stopWork, cancelWorkerSchedules, failPendingActions, releaseWorkerLeases, stoppedRow,
        Run.conclude]
  | controlSuppressed =>
    refine Anchored.settleClaim ?_ fun _ => rfl
    exact { anchored_refl with }
  | @controlled a w r =>
    have hmove : s.Anchored (s.moveTarget now a r) := by
      rw [moveTarget]
      split <;> constructor <;> simp [releaseRunLeases, FinalizeControl.targetRow]
    refine Anchored.settleClaim ?_ fun _ => rfl
    exact { hmove with }
  | steerInterrupted => exact anchored_refl.steerToReplacement
  | steerSuppressed =>
    unfold steerTerminalWon
    refine Anchored.settleClaim ?_ fun _ => rfl
    constructor <;> simp [advanceDelegations, releaseRunLeases]
  | steered =>
    refine Anchored.steerToReplacement ?_
    constructor <;> simp [steerTarget, Run.conclude]
  | terminated =>
    rw [finishTermination]
    refine Anchored.settleClaim ?_ fun _ => rfl
    constructor <;>
      simp [endWork, cancelWorkerSchedules, failPendingActions, releaseWorkerLeases, Run.conclude]

theorem RequestStep.anchored {op : RequestOp} (h : s.RequestStep now op s') : s.Anchored s' := by
  cases h with
  | unchanged => exact anchored_refl
  | cancelled | recorded => exact { anchored_refl with }
  | cancelledRun =>
    constructor <;>
      simp [cancelRequestedRun, cancelAwaiting, cancelRequest, releaseAttention, Run.conclude]
  | cancelledAttention =>
    constructor <;> simp [cancelAttention, cancelAwaiting, releaseAttention, Run.conclude]
  | overdue => constructor <;> simp [failOverdueRun, overdueRow]
  | resumed => constructor <;> simp [resumeRun, recordResume, resumedRow]
  | resumedQueued => exact { anchored_refl with nextId := Nat.le_succ _ }

end Families

/-! ## Every transaction -/

variable {s : Store} {c : Call}

theorem anchored_step (hgc : ∀ op, c.op ≠ .gc op)
    (hcreate : ∀ tenantId, c.op ≠ .worker (.createProject tenantId)) : s.Anchored (s.step c) := by
  obtain ⟨now, op⟩ := c
  cases op with
  | worker =>
    exact anchored_applyWorker fun tenantId h => hcreate tenantId (congrArg Op.worker h)
  | gc op => exact absurd rfl (hgc op)
  | schedule => exact anchored_applySchedule
  | run op => exact (applyRun_step s now op).anchored
  | start op => exact (applyStart_step s now op).anchored
  | lifecycle op => exact (applyLifecycle_step s now op).anchored
  | request op => exact (applyRequest_step s now op).anchored

/-- Only the garbage collector writes tombstones or deletes account leases and projects, and only
`create_project` inserts projects. -/
theorem framed_step (hgc : ∀ op, c.op ≠ .gc op)
    (hcreate : ∀ tenantId, c.op ≠ .worker (.createProject tenantId)) : s.Framed (s.step c) :=
  (anchored_step hgc hcreate).framed

/-- What a transaction leaves of the runs, of the uses and of the workers, the creation of a project
included. -/
theorem carries_step (hgc : ∀ op, c.op ≠ .gc op) :
    s.Retains (s.step c) ∧ s.runs.Carries Run.place (s.step c).runs ∧
      s.workers.Carries Worker.ownerId (s.step c).workers := by
  by_cases hcreate : ∃ tenantId, c.op = .worker (.createProject tenantId)
  · obtain ⟨tenantId, hop⟩ := hcreate
    rw [step, hop]
    dsimp only [applyWorker]
    rw [createProject]
    split <;> exact ⟨⟨fun _ h => h, rfl⟩, Table.carries_refl, Table.carries_refl⟩
  · have h := anchored_step (s := s) hgc fun tenantId hop => hcreate ⟨tenantId, hop⟩
    exact ⟨h.retains, h.runs, h.workers⟩

/-- Only the garbage collector removes runs, and no transaction adds, removes or changes the uses of
run actions. -/
theorem retains_step (hgc : ∀ op, c.op ≠ .gc op) : s.Retains (s.step c) :=
  (carries_step hgc).1

/-- A worker keeps its owner as long as it is not collected. -/
theorem owners_step (hgc : ∀ op, c.op ≠ .gc op) {id : WorkerId} {ownerId : OwnerId}
    (h : s.owners id = some ownerId) : (s.step c).owners id = some ownerId :=
  (carries_step hgc).2.2 id ownerId h

/-- A run that is not collected keeps its place. -/
theorem place_step {id : RunId} {r : Run} (hgc : ∀ op, c.op ≠ .gc op)
    (hr : s.runs.get? id = some r) :
    ∃ r', (s.step c).runs.get? id = some r' ∧ r'.place = r.place :=
  Option.map_eq_some_iff.mp ((carries_step hgc).2.1 id r.place (by rw [hr, Option.map_some]))

/-- What the creation of a project leaves of the records. -/
theorem createProject_kept {now : Time} {tenantId : TenantId} :
    s.nextId ≤ (s.createProject now tenantId).store.nextId ∧
      (s.createProject now tenantId).store.bindings = s.bindings ∧
      (s.createProject now tenantId).store.accountLeases = s.accountLeases ∧
      ∀ id p, s.projects.get? id = some p →
        (s.createProject now tenantId).store.projects.get? id = some p := by
  rw [createProject]
  split
  · exact ⟨le_rfl, rfl, rfl, fun _ _ h => h⟩
  · rename_i projects hins
    refine ⟨Nat.le_succ _, rfl, rfl, fun id p h => ?_⟩
    exact Table.get?_insert_of_some hins h

/-- What the garbage collector leaves of the identifiers, the account leases, the delegations and
what they refer to. -/
structure GcFramed (s s' : Store) : Prop where
  nextId : s'.nextId = s.nextId
  delegations : s'.delegations = s.delegations
  accountLeases : ∀ id l, s'.accountLeases.get? id = some l → s.accountLeases.get? id = some l
  projects : ∀ workRef d, s.delegations.get? workRef = some d →
    s'.projects.get? d.projectId = s.projects.get? d.projectId
  workers : ∀ workRef d, s.delegations.get? workRef = some d →
    (s'.workers.get? d.workerId).isSome = (s.workers.get? d.workerId).isSome

theorem gcFramed_refl : s.GcFramed s :=
  ⟨rfl, rfl, fun _ _ h => h, fun _ _ _ => rfl, fun _ _ _ => rfl⟩

/-- A transaction that goes on from such a store and neither inserts nor deletes workers. -/
theorem GcFramed.writes {s₀ : Store} (h : s.GcFramed s₀) (hnext : s'.nextId = s₀.nextId)
    (hdelegations : s'.delegations = s₀.delegations) (hleases : s'.accountLeases = s₀.accountLeases)
    (hprojects : s'.projects = s₀.projects)
    (hworkers : ∀ id, (s'.workers.get? id).isSome = (s₀.workers.get? id).isSome) :
    s.GcFramed s' := by
  refine ⟨hnext.trans h.nextId, hdelegations.trans h.delegations, fun id l hl => ?_,
    fun workRef d hd => ?_, fun workRef d hd => ?_⟩
  · rw [hleases] at hl
    exact h.accountLeases id l hl
  · rw [hprojects]
    exact h.projects workRef d hd
  · rw [hworkers]
    exact h.workers workRef d hd

theorem gcFramed_applyGc {now : Time} {op : GcOp} : s.GcFramed (s.applyGc now op) := by
  rcases applyGc_store s now op with
    ⟨workers, _, _, hworkers, h⟩ | ⟨_, _, pendingChanges, s₁, _, -, hdelete, h⟩ <;> rw [h]
  · exact gcFramed_refl.writes rfl rfl rfl rfl hworkers
  obtain ⟨-, -, -, -, -, hnext, hdelegations, hleases⟩ := gcDelete_eq hdelete
  refine ⟨hnext, hdelegations, fun id l hl => ?_, fun workRef d hd => ?_, fun workRef d hd => ?_⟩
  · simp only [hleases, Table.get?_delete_eq_some] at hl
    exact hl.1
  · exact (gcDelete_keeps (s := { s with pendingChanges }) hdelete hd).2
  · exact congrArg Option.isSome (gcDelete_keeps (s := { s with pendingChanges }) hdelete hd).1

/-- A transaction is one of the garbage collector, the creation of a project, or a framed one. -/
theorem step_framed_cases (s : Store) (c : Call) :
    (∃ op, c.op = .gc op ∧ s.GcFramed (s.step c)) ∨
      (∃ tenantId, s.step c = (s.createProject c.now tenantId).store) ∨ s.Framed (s.step c) := by
  by_cases hgc : ∃ op, c.op = .gc op
  · obtain ⟨op, hop⟩ := hgc
    refine Or.inl ⟨op, hop, ?_⟩
    rw [step, hop]
    exact gcFramed_applyGc
  by_cases hcreate : ∃ tenantId, c.op = .worker (.createProject tenantId)
  · obtain ⟨tenantId, hop⟩ := hcreate
    refine Or.inr (Or.inl ⟨tenantId, ?_⟩)
    rw [step, hop]
    rfl
  · exact Or.inr (Or.inr (framed_step (fun op h => hgc ⟨op, h⟩) fun t h => hcreate ⟨t, h⟩))

/-- Identifiers are never given back. -/
theorem nextId_step (s : Store) (c : Call) : s.nextId ≤ (s.step c).nextId := by
  rcases step_framed_cases s c with ⟨op, -, h⟩ | ⟨tenantId, h⟩ | h
  · exact h.nextId.ge
  · rw [h]
    exact createProject_kept.1
  · exact h.nextId

/-- A delegation keeps what identifies it, and none is ever deleted. -/
theorem bindings_step (s : Store) (c : Call) : (s.step c).bindings = s.bindings := by
  rcases step_framed_cases s c with ⟨op, -, h⟩ | ⟨tenantId, h⟩ | h
  · funext workRef
    rw [bindings, bindings, h.delegations]
  · rw [h]
    exact createProject_kept.2.1
  · exact congrArg Records.bindings h.records

/-- The store itself only ever deletes account leases. -/
theorem accountLeases_step {id : RowId} {l : AccountLease}
    (hl : (s.step c).accountLeases.get? id = some l) : s.accountLeases.get? id = some l := by
  rcases step_framed_cases s c with ⟨op, -, h⟩ | ⟨tenantId, h⟩ | h
  · exact h.accountLeases id l hl
  · rw [h, createProject_kept.2.2.1] at hl
    exact hl
  · have hleases : (s.step c).accountLeases = s.accountLeases :=
      congrArg Records.accountLeases h.records
    rw [hleases] at hl
    exact hl

/-- The project of a delegation is never deleted. -/
theorem projects_step {workRef : WorkRef} {d : Delegation}
    (hd : s.delegations.get? workRef = some d) {p : Project}
    (hp : s.projects.get? d.projectId = some p) :
    (s.step c).projects.get? d.projectId = some p := by
  rcases step_framed_cases s c with ⟨op, -, h⟩ | ⟨tenantId, h⟩ | h
  · exact (h.projects workRef d hd).trans hp
  · rw [h]
    exact createProject_kept.2.2.2 _ p hp
  · have hprojects : (s.step c).projects = s.projects := congrArg Records.projects h.records
    rw [hprojects]
    exact hp

end Store

end GlassHive
