import GlassHive.Steps
import GlassHive.Library.Evolution

/-!
# How transactions move workers

For every transaction, the rows of `workers` that it leaves: what it needed of the row that it
changes, and which state, claim, epoch and stop it writes. Everything that follows about workers
follows from this one inversion.
-/

namespace GlassHive

open Relational

namespace Store

/-! ## The moves -/

/-- How a downgrade of an unproven run moves its worker. -/
def downgradeMoves (w w' : Worker) : Prop :=
  w.state = .running ∧ w.Restated w' .starting

/-- How the transactions on workers move the worker `id`. -/
def workerMoves (s : Store) (id : WorkerId) (w w' : Worker) : WorkerOp → Prop
  | .updateWorker workerId _ patch =>
    id = workerId ∧ patch.allowed w = true ∧ ∃ t, w' = { patch.apply w with updatedAt := t }
  | .updateWorkerUnlessGcClaimed workerId patch =>
    id = workerId ∧ s.workspaceGcClaimActive workerId = false ∧ patch.allowed w = true ∧
      ∃ t, w' = { patch.apply w with updatedAt := t }
  | .beginWorkerTermination workerId =>
    id = workerId ∧ w.state ∉ [WorkerState.terminating, .terminated] ∧
      w.Restated w' .terminating
  | .failWorkerTermination workerId _ =>
    id = workerId ∧ w.state = .terminating ∧ w.Restated w' .terminationFailed
  | .recordWorkerTerminationCleanupFailure workerId _ =>
    id = workerId ∧ w.state ∈ WorkerState.closed ∧ w.Restated w' .terminationFailed
  | .completeWorkerTermination workerId fields =>
    id = workerId ∧ w.state = .terminating ∧
      ∃ t, w' = { fields.apply w with state := .terminated, lastError := "", updatedAt := t }
  | .beginWorkerComputeStart workerId =>
    id = workerId ∧ w.release.token = none ∧ w.workStop.id = none ∧
      w.state ∉ [WorkerState.stopping, .terminated] ∧ w.Restated w' .starting
  | _ => False

/-- How the garbage collector moves the worker `id`. -/
def gcMoves (s : Store) (now : Time) (id : WorkerId) (w w' : Worker) : GcOp → Prop
  | .claimEphemeralWorkspaceGc workerId .. =>
    id = workerId ∧
      ((∃ t, s.tombstones.get? id = some t ∧ gcClaimAdoptable t w now = true ∧
          w.Restated w' t.originalState) ∨
        s.tombstones.get? id = none ∧
          w.state ∉ [WorkerState.created, .starting, .running, .gcClaimed] ∧
          w.Restated w' .gcClaimed)
  | .releaseEphemeralWorkspaceGcClaim workerId claimToken =>
    id = workerId ∧ w.state = .gcClaimed ∧
      ∃ t, s.heldTombstone workerId claimToken = some t ∧ w.Restated w' t.originalState
  | _ => False

/-- How the transactions on runs move the worker `id`. -/
def runMovesWorker (s : Store) (id : WorkerId) (w w' : Worker) : RunOp → Prop
  | .createRun .. | .createOrGetRunForSchedule .. | .replaceQueuedRunIdempotently .. =>
    w.Restated w' w.state ∨ w.state = .paused ∧ w.Restated w' .starting
  | .reconcileInvalidRunningRuns => downgradeMoves w w'
  | .updateRun runId .. =>
    downgradeMoves w w' ∧ ∃ r, s.runs.get? runId = some r ∧ r.workerId = id
  | _ => False

/-- How the transactions of a start move the worker `id`. -/
def startMoves (s : Store) (now : Time) (id : WorkerId) (w w' : Worker) : StartOp → Prop
  | .claimNextQueuedRunParallel workerId executorId _ =>
    id = workerId ∧ claimAccepted w = true ∧ (s.claimable now workerId executorId).isSome = true ∧
      w.Restated w' .starting
  | .reconcileDeadHostRunLease .. => downgradeMoves w w'
  | .confirmHostRunStart a =>
    downgradeMoves w w' ∨ id = a.workerId ∧ workerAllowsStart w = true ∧ w.Restated w' .running
  | .requeueUnconfirmedHostRunStart workerId runId leaseId token _ _ =>
    id = workerId ∧ (s.requeuable workerId runId leaseId token).isSome = true ∧
      w.Restated w' (if oneOf w.state WorkerState.claimRefused then w.state else .starting)
  | _ => False

/-- How the transactions on requests move the worker `id`. -/
def requestMoves (id : WorkerId) (w w' : Worker) : RequestOp → Prop
  | .claimProviderRequestCancel _ | .reconcileCancelledProviderNeedsInputRuns .. =>
    w.state = .needsInput ∧ w.Restated w' .ready
  | .resumeNeedsInputActiveWorkAction _ workerId .. => id = workerId ∧ w.Restated w' .starting
  | _ => False

/-- How a transaction moves the worker `id`, whose row it changes. -/
def Moves (s : Store) (c : Call) (id : WorkerId) (w w' : Worker) : Prop :=
  match c.op with
  | .worker op => s.workerMoves id w w' op
  | .gc op => s.gcMoves c.now id w w' op
  | .schedule _ => False
  | .run op => s.runMovesWorker id w w' op
  | .start op => s.startMoves c.now id w w' op
  | .lifecycle op => s.lifecycleMoves c.now id w w' op
  | .request op => requestMoves id w w' op

/-- A worker that a transaction creates. -/
def Creates (s : Store) (c : Call) (id : WorkerId) (w : Worker) : Prop :=
  id = s.nextId ∧ ∃ nw : NewWorker, c.op = .worker (.createWorker nw) ∧ w = nw.row c.now

/-- The rows of `workers` are the same in `s'`, unchanged or through the moves. -/
def MovesWithin (s s' : Store) (M : WorkerId → Worker → Worker → Prop) : Prop :=
  s.workers.Rewrites (fun id w w' => w' = w ∨ M id w w') s'.workers

section Rules

variable {s s' s₀ : Store} {M : WorkerId → Worker → Worker → Prop} {now : Time}
  {workerId : WorkerId} {token : Token} {epoch : ℕ} {f : Worker → Worker}

theorem movesWithin_refl : s.MovesWithin s M :=
  Table.rewrites_of_eq (fun _ _ => Or.inl rfl) rfl

theorem movesWithin_of_eq (h : s'.workers = s.workers) : s.MovesWithin s' M :=
  Table.rewrites_of_eq (fun _ _ => Or.inl rfl) h

theorem movesWithin_update {p : WorkerId → Worker → Bool}
    (hM : ∀ id w, s.workers.get? id = some w → p id w = true → M id w (f w)) :
    s.workers.Rewrites (fun id w w' => w' = w ∨ M id w w') (s.workers.update p fun _ => f) :=
  Table.rewrites_update (fun _ _ => Or.inl rfl) fun id w hw hp => Or.inr (hM id w hw hp)

/-- A settled claim moves the worker of its owner. -/
theorem movesWithin_settleClaim {state : WorkerState} (h : s₀.workers = s.workers)
    (hM : ∀ w, s.workers.get? workerId = some w → w.ownedBy token epoch = true →
      M workerId w { f w with state := state, release := .clear, updatedAt := now }) :
    s.MovesWithin (s₀.settleClaim now workerId token epoch state f) M := by
  rw [MovesWithin, settleClaim, updateWorkers_workers, h]
  refine movesWithin_update fun id w hw hp => ?_
  simp only [Bool.and_eq_true, beq_iff_eq] at hp
  obtain ⟨rfl, howned⟩ := hp
  exact hM w hw howned

end Rules

/-! ## Workers, collection and runs -/

section Workers

variable {s s' : Store} {now : Time} {runId : RunId} {r : Run}

theorem movesWithin_downgradeUnprovenRunning {reason : String}
    {M : WorkerId → Worker → Worker → Prop} (hM : ∀ w w', downgradeMoves w w' → M r.workerId w w') :
    s.MovesWithin (s.downgradeUnprovenRunning runId r now reason) M := by
  rw [MovesWithin, workers_downgradeUnprovenRunning]
  refine movesWithin_update fun id w _ hp => ?_
  simp only [Bool.and_eq_true, beq_iff_eq] at hp
  obtain ⟨rfl, hstate⟩ := hp
  exact hM w _ ⟨hstate, rfl, rfl, rfl, rfl⟩

theorem applyWorker_movesWithin {op : WorkerOp} (hcreate : ∀ w, op ≠ .createWorker w) :
    s.MovesWithin (s.applyWorker now op) fun id w w' => s.workerMoves id w w' op := by
  cases op with
  | createProject =>
    refine movesWithin_of_eq ?_
    rw [applyWorker, createProject]
    split <;> rfl
  | createWorker w => exact absurd rfl (hcreate w)
  | updateWorker =>
    simp only [MovesWithin, applyWorker, updateWorker, Outcome.store_commit, updateWorkers_workers]
    refine movesWithin_update fun id w _ hp => ?_
    simp only [Bool.and_eq_true, beq_iff_eq] at hp
    refine ⟨hp.1, hp.2, ?_⟩
    split
    · exact ⟨now, rfl⟩
    · exact ⟨_, rfl⟩
  | updateWorkerUnlessGcClaimed =>
    rw [applyWorker, updateWorkerUnlessGcClaimed]
    split
    · exact movesWithin_refl
    · rename_i hfree
      simp only [MovesWithin, Outcome.store_commit, updateWorkers_workers]
      refine movesWithin_update fun id w _ hp => ?_
      simp only [Bool.and_eq_true, beq_iff_eq] at hp
      exact ⟨hp.1, by simpa using hfree, hp.2, now, rfl⟩
  | beginWorkerTermination workerId =>
    rw [applyWorker, beginWorkerTermination]
    split
    · exact movesWithin_refl
    rename_i w₀ hw₀
    split
    · exact movesWithin_refl
    · rename_i hopen
      simp only [MovesWithin, Outcome.store_commit, updateDefinitions_workers,
        updateScheduledRuns_workers, updateOccurrences_workers, updateWorkers_workers]
      refine movesWithin_update fun id w hw hp => ?_
      obtain rfl : id = workerId := by simpa using hp
      obtain rfl : w₀ = w := Option.some.inj (hw₀.symm.trans hw)
      exact ⟨rfl, by simpa using hopen, rfl, rfl, rfl, rfl⟩
  | failWorkerTermination =>
    simp only [MovesWithin, applyWorker, failWorkerTermination, Outcome.store_commit,
      updateWorkers_workers]
    refine movesWithin_update fun id w _ hp => ?_
    simp only [Bool.and_eq_true, beq_iff_eq] at hp
    exact ⟨hp.1, hp.2, rfl, rfl, rfl, rfl⟩
  | recordWorkerTerminationCleanupFailure =>
    simp only [MovesWithin, applyWorker, recordWorkerTerminationCleanupFailure,
      Outcome.store_commit, updateWorkers_workers]
    refine movesWithin_update fun id w _ hp => ?_
    simp only [Bool.and_eq_true, beq_iff_eq, oneOf_eq_true] at hp
    exact ⟨hp.1, hp.2, rfl, rfl, rfl, rfl⟩
  | completeWorkerTermination =>
    rw [applyWorker, completeWorkerTermination]
    split
    · exact movesWithin_refl
    split
    · simp only [MovesWithin, Outcome.store_commit, insertLifecycleEvent_workers,
        enqueueLifecycleEffects_workers, updateWorkers_workers]
      refine movesWithin_update fun id w _ hp => ?_
      simp only [Bool.and_eq_true, beq_iff_eq] at hp
      exact ⟨hp.1, hp.2, now, rfl⟩
    · exact movesWithin_refl
  | beginWorkerComputeStart workerId =>
    rw [applyWorker, beginWorkerComputeStart]
    split
    · exact movesWithin_refl
    rename_i w₀ hw₀
    split
    · exact movesWithin_refl
    · rename_i hfree
      simp only [MovesWithin, Outcome.store_commit, updateWorkers_workers]
      refine movesWithin_update fun id w hw hp => ?_
      obtain rfl : id = workerId := by simpa using hp
      obtain rfl : w₀ = w := Option.some.inj (hw₀.symm.trans hw)
      simp only [Bool.not_eq_true, Bool.or_eq_false_iff, Option.isSome_eq_false_iff,
        Option.isNone_iff_eq_none, oneOf_eq_false] at hfree
      exact ⟨rfl, hfree.1.1, hfree.1.2, hfree.2, rfl, rfl, rfl, rfl⟩

theorem workers_applyGc {op : GcOp} :
    s.workers.Evolves (fun id w w' => w' = w ∨ s.gcMoves now id w w' op) (fun _ _ => False)
      (s.applyGc now op).workers := by
  cases op with
  | claimEphemeralWorkspaceGc workerId =>
    rw [applyGc, claimEphemeralWorkspaceGc]
    split
    · exact movesWithin_refl.evolves
    rename_i w₀ hw₀
    split
    · exact movesWithin_refl.evolves
    have hblock : (s.ephemeralGcHasBlocker workerId w₀.projectId now).2.workers = s.workers := by
      rw [ephemeralGcHasBlocker]
      split <;> rfl
    split
    · rename_i t ht
      split
      · exact movesWithin_refl.evolves
      rename_i hadopt
      dsimp only
      split
      · simp only [Outcome.store_commit, deleteTombstone_workers, restoreGcClaimed,
          updateWorkers_workers, hblock]
        refine (movesWithin_update fun id w hw hp => ?_).evolves
        simp only [Bool.and_eq_true, beq_iff_eq] at hp
        obtain ⟨rfl, -⟩ := hp
        obtain rfl : w₀ = w := Option.some.inj (hw₀.symm.trans hw)
        exact ⟨rfl, Or.inl ⟨t, ht, by simpa using hadopt, rfl, rfl, rfl, rfl⟩⟩
      · exact (movesWithin_of_eq (by simpa using hblock)).evolves
    · rename_i hnone
      split
      · exact movesWithin_refl.evolves
      rename_i hstate
      dsimp only
      split
      · exact (movesWithin_of_eq hblock).evolves
      split
      · exact movesWithin_refl.evolves
      · simp only [Outcome.store_commit, updateWorkers_workers, hblock]
        refine (movesWithin_update fun id w hw hp => ?_).evolves
        simp only [Bool.and_eq_true, beq_iff_eq] at hp
        obtain rfl : id = workerId := hp.1.1
        obtain rfl : w₀ = w := Option.some.inj (hw₀.symm.trans hw)
        exact ⟨rfl, Or.inr ⟨hnone, by simpa using hstate, rfl, rfl, rfl, rfl⟩⟩
  | releaseEphemeralWorkspaceGcClaim =>
    rw [applyGc, releaseEphemeralWorkspaceGcClaim]
    split
    · exact movesWithin_refl.evolves
    · rename_i t ht
      simp only [Outcome.store_commit, deleteTombstone_workers, restoreGcClaimed,
        updateWorkers_workers]
      refine (movesWithin_update fun id w _ hp => ?_).evolves
      simp only [Bool.and_eq_true, beq_iff_eq] at hp
      exact ⟨hp.1, hp.2, t, ht, rfl, rfl, rfl, rfl⟩
  | finalizeEphemeralWorkspaceGc workerId =>
    rw [applyGc, finalizeEphemeralWorkspaceGc]
    split
    · rename_i t w₀ _ _
      split
      · exact movesWithin_refl.evolves
      have hblock : (s.ephemeralGcHasBlocker workerId w₀.projectId now).2.workers = s.workers := by
        rw [ephemeralGcHasBlocker]
        split <;> rfl
      dsimp only
      split
      · exact (movesWithin_of_eq hblock).evolves
      split
      · exact movesWithin_refl.evolves
      · rename_i s'' hdelete
        have hworkers := (gcDelete_eq hdelete).1
        rw [hblock] at hworkers
        simp only [Outcome.store_commit, updateTombstones_workers, hworkers]
        exact Table.evolves_delete fun _ _ => Or.inl rfl
    · exact movesWithin_refl.evolves
  | claimWorkspaceGcCleanup =>
    refine (movesWithin_of_eq ?_).evolves
    rw [applyGc, claimWorkspaceGcCleanup]
    split
    · rfl
    split
    · rfl
    split <;> rfl
  | recordWorkspaceGcCleanup => exact (movesWithin_of_eq rfl).evolves

theorem workers_applySchedule {op : ScheduleOp} : (s.applySchedule now op).workers = s.workers := by
  rcases applySchedule_store s now op with ⟨_, _, _, rfl⟩ | ⟨_, _, _, _, _, -, h⟩
  · rw [applySchedule, setSchedulePrincipalAuthority]
    split <;> rfl
  · rw [h]

theorem workers_finalizeLinkedScheduleForTerminalRun (runId : RunId) (state : RunState)
    (errorText : String) :
    (s.finalizeLinkedScheduleForTerminalRun runId state errorText now).workers = s.workers := by
  rw [finalizeLinkedScheduleForTerminalRun]
  split <;> rfl

/-- A worker that a run is created for leaves its pause, or goes on as it was. -/
theorem restated_of_created {w w' : Worker} (resumes : Bool)
    (hstate : w'.state = if resumes && w.state == .paused then .starting else w.state)
    (hrelease : w'.release = w.release) (hepoch : w'.releaseEpoch = w.releaseEpoch)
    (hstop : w'.workStop = w.workStop) :
    w.Restated w' w.state ∨ w.state = .paused ∧ w.Restated w' .starting := by
  split at hstate
  · rename_i hpaused
    simp only [Bool.and_eq_true, beq_iff_eq] at hpaused
    exact Or.inr ⟨hpaused.2, hstate, hrelease, hepoch, hstop⟩
  · exact Or.inl ⟨hstate, hrelease, hepoch, hstop⟩

/-- A sweep over running runs moves a worker at most once, from running to starting. -/
theorem reconcileInvalidRunningRuns_movesWithin :
    s.MovesWithin (s.reconcileInvalidRunningRuns now).store
      fun _ w w' => downgradeMoves w w' := by
  refine reconcileInvalidRunningRuns_keeps (P := fun s' => s.MovesWithin s' _) movesWithin_refl
    fun s' runId r h => ?_
  refine Table.Rewrites.trans h (movesWithin_downgradeUnprovenRunning fun _ _ h => h) ?_
  rintro _ w w' w'' (rfl | h) (rfl | h')
  · exact Or.inl rfl
  · exact Or.inr h'
  · exact Or.inr h
  · exact absurd (h.2.state.symm.trans h'.1) (by decide)

theorem RunStep.movesWithin {op : RunOp} (h : s.RunStep now op s') :
    s.MovesWithin s' fun id w w' => s.runMovesWorker id w w' op := by
  cases h with
  | unchanged => exact movesWithin_refl
  | created hins =>
    obtain ⟨runs, -, rfl⟩ := insertRun?_eq_some hins
    simp only [MovesWithin, touchLastRun, updateWorkers_workers, appendOriginTrace_workers,
      drawId_workers]
    exact movesWithin_update fun id w _ _ => Or.inl ⟨rfl, rfl, rfl, rfl⟩
  | createdFenced hins =>
    obtain ⟨runs, -, rfl⟩ := insertRun?_eq_some hins
    simp only [MovesWithin, updateWorkers_workers, insertAccountFence_workers, drawId_workers]
    exact movesWithin_update fun id w _ _ => restated_of_created _ rfl rfl rfl rfl
  | @scheduled s₁ _ _ _ _ _ _ _ hrun =>
    have hworkers : s₁.workers = s.workers := by
      rcases hrun with rfl | ⟨s₀, hins, rfl⟩
      · rfl
      · obtain ⟨runs, -, rfl⟩ := insertRun?_eq_some hins
        rfl
    simp only [MovesWithin, updateWorkers_workers, hworkers]
    exact movesWithin_update fun _ w _ _ => restated_of_created true rfl rfl rfl rfl
  | reconciled => exact reconcileInvalidRunningRuns_movesWithin
  | updated hr _ _ _ hs =>
    rcases hs with ⟨-, -, rfl⟩ | ⟨-, rfl⟩
    · exact movesWithin_downgradeUnprovenRunning fun _ _ h => ⟨h, _, hr, rfl⟩
    · refine movesWithin_of_eq ?_
      rw [writeRun]
      split <;> rfl
  | transitioned =>
    refine movesWithin_of_eq ?_
    rw [transitionRun]
    split <;> split <;> rfl
  | settled => exact movesWithin_of_eq rfl
  | finalizedActive =>
    refine movesWithin_of_eq ?_
    rw [finalizeActive]
    split
    · rw [recordTerminalArtifactTraces_workers, workers_finalizeLinkedScheduleForTerminalRun]
      rfl
    · rfl
  | finalizedInactive => exact movesWithin_of_eq (workers_finalizeLinkedScheduleForTerminalRun ..)
  | cancelledPending =>
    refine movesWithin_of_eq ?_
    rw [cancelPendingRuns]
    split <;> rfl
  | cancelledQueued => exact movesWithin_of_eq rfl
  | @retried r a =>
    refine movesWithin_of_eq ?_
    rw [retryRun]
    obtain ⟨_, _, h⟩ := recordRetryCapacity_eq
        (Store.appendAttemptTraces _ now r.activeAttemptId.toList) now a r
    rw [h]
    rfl
  | replaced _ hins =>
    obtain ⟨runs, -, rfl⟩ := insertRun?_eq_some hins
    simp only [MovesWithin, replaceRun, touchLastRun, updateWorkers_workers,
      recordTerminalArtifactTraces_workers, updateDelegations_workers, updateRuns_workers,
      updateLeases_workers, appendOriginTrace_workers]
    exact movesWithin_update fun id w _ _ => Or.inl ⟨rfl, rfl, rfl, rfl⟩
  | expired =>
    refine movesWithin_of_eq ?_
    unfold expireRun
    split <;> rfl

theorem workers_invokeGeneration {leaseId : LeaseId} {attemptId : AttemptId} {f : Run → Run} :
    (s.invokeGeneration now runId r leaseId attemptId f).workers = s.workers := rfl

/-- A confirmed start moves its worker to running. -/
theorem publishStart_movesWithin {a : ConfirmStart} {w₀ : Worker} {s₀ : Store}
    (h₀ : s₀.workers = s.workers) (hw₀ : s.workers.get? a.workerId = some w₀)
    (hallow : workerAllowsStart w₀ = true) :
    s.MovesWithin (s₀.publishStart now a r) fun id w w' =>
      downgradeMoves w w' ∨ id = a.workerId ∧ workerAllowsStart w = true ∧
        w.Restated w' .running := by
  have hworkers : (s₀.publishStart now a r).workers = s.workers.update
      (fun id _ => id == a.workerId) fun _ w => { w with state := .running, updatedAt := now } := by
    rw [publishStart]
    split <;> simp [h₀]
  rw [MovesWithin, hworkers]
  refine movesWithin_update fun id w hw hp => ?_
  obtain rfl : id = a.workerId := by simpa using hp
  obtain rfl : w₀ = w := Option.some.inj (hw₀.symm.trans hw)
  exact Or.inr ⟨rfl, hallow, rfl, rfl, rfl, rfl⟩

theorem StartStep.movesWithin {op : StartOp} (h : s.StartStep now op s') :
    s.MovesWithin s' fun id w w' => s.startMoves now id w w' op := by
  cases h with
  | unchanged => exact movesWithin_refl
  | claimed _ hclaim =>
    obtain ⟨⟨w₀, hw₀, haccept⟩, -⟩ := accepted_of_claimable hclaim
    simp only [MovesWithin, claimRun, appendAttemptTraces_workers, updateWorkers_workers,
      updateRuns_workers, updateLeases_workers, drawId_workers]
    refine movesWithin_update fun id w hw hp => ?_
    obtain rfl := eq_of_beq hp
    obtain rfl : w₀ = w := Option.some.inj (hw₀.symm.trans hw)
    exact ⟨rfl, haccept, by rw [hclaim]; rfl, rfl, rfl, rfl, rfl⟩
  | @swept workerId require s' _ hsweep | @claimedLegacy workerId require _ _ s' _ hsweep =>
    have hworkers := sweepUnauthorized_workers now workerId require (s.runs.entries.length + 1) s
    rw [hsweep] at hworkers
    exact movesWithin_of_eq hworkers
  | acquired | heartbeat | released | admitted | unconfirmed | unconfirmedSettling =>
    exact movesWithin_of_eq rfl
  | lost => exact movesWithin_downgradeUnprovenRunning fun _ _ h => h
  | invoked => exact movesWithin_of_eq workers_invokeGeneration
  | unproven => exact movesWithin_downgradeUnprovenRunning fun _ _ h => Or.inl h
  | confirmed hconfirms =>
    exact publishStart_movesWithin workers_invokeGeneration hconfirms.worker hconfirms.allows
  | confirmedRunning hconfirms =>
    exact publishStart_movesWithin rfl hconfirms.worker hconfirms.allows
  | requeued hr =>
    simp only [MovesWithin, requeueGeneration, insertEventOnce_workers, updateWorkers_workers,
      appendAttemptTraces_workers, updateAttempts_workers, updateRuns_workers,
      updateLeases_workers]
    refine movesWithin_update fun id w _ hp => ?_
    exact ⟨by simpa using hp, by rw [hr]; rfl, rfl, rfl, rfl, rfl⟩

end Workers

/-! ## Claims on compute -/

section Lifecycle

variable {s s' : Store} {now : Time} {workerId : WorkerId} {token : Token} {epoch : ℕ} {w₀ : Worker}
  {r : Run} {op : LifecycleOp}

/-- The owner's worker is the row that its finalizer changes. -/
theorem eq_of_ownedWorker {w : Worker} {kind : OperationKind}
    (h₀ : s.ownedWorker workerId token epoch kind = some w₀) (hw : s.workers.get? workerId = some w) :
    w₀ = w :=
  Option.some.inj ((ownedWorker_eq_some h₀).1.symm.trans hw)

theorem workers_moveTarget {a : FinalizeControl} : (s.moveTarget now a r).workers = s.workers := by
  rw [moveTarget]
  split <;> simp [releaseRunLeases]

/-- A finalized steer gives up its claim. -/
theorem steerToReplacement_movesWithin {s₀ : Store} {a : FinalizeSteer} {q : Run}
    {events : List (RunId × String × String)} {queued : Bool} (h : s₀.workers = s.workers)
    (hsteers : s.Steers a w₀ r q) :
    s.MovesWithin (s₀.steerToReplacement now a w₀ events queued) fun id w w' =>
      s.lifecycleMoves now id w w' (.finalizeWorkerSteerClaim a) := by
  rw [steerToReplacement]
  refine movesWithin_settleClaim (s := s) ?_ fun w hw _ => ?_
  · cases queued <;> simp [advanceDelegations, releaseRunLeases, h]
  · obtain rfl := eq_of_ownedWorker (ownedWorkerFor_eq_some hsteers.owned).1 hw
    refine ⟨rfl, rfl, ⟨r, q, hsteers⟩, ?_⟩
    cases queued
    · exact Or.inr ⟨rfl, rfl, rfl⟩
    · exact Or.inl ⟨rfl, rfl, rfl⟩

theorem LifecycleStep.movesWithin (h : s.LifecycleStep now op s')
    (hs : s.applyLifecycle now op = s') :
    s.MovesWithin s' fun id w w' => s.lifecycleMoves now id w w' op := by
  cases h with
  | unchanged => exact movesWithin_refl
  | changedRow _ _ _ _ hp => exact movesWithin_update fun id w _ hpw => (hp id w hpw).2
  | @takenOver w₀ a _ hw₀ hallowed hvalid htoken =>
    simp only [MovesWithin, updateWorkers_workers, drawId_workers]
    refine movesWithin_update fun id w hw hp => ?_
    simp only [Bool.and_eq_true, beq_iff_eq] at hp
    obtain rfl : id = a.workerId := hp.1.1
    obtain rfl : w₀ = w := Option.some.inj (hw₀.symm.trans hw)
    exact ⟨rfl, hallowed, hvalid, rfl, Or.inl ⟨htoken, ⟨rfl, rfl⟩, rfl⟩⟩
  | @claimed w₀ a s₀ _ hw₀ hallowed hreserve hvalid htoken hobserved =>
    obtain ⟨hworkers, hnext⟩ : s₀.workers = s.workers ∧ s₀.nextId = s.nextId + 2 := by
      rcases reserveReplacement_eq_some hreserve with rfl | ⟨_, _, _, _, -, -, -, -, -, rfl⟩ <;>
        exact ⟨rfl, rfl⟩
    have hid : (s.tryClaimWorkerComputeRelease now a).store.nextId = s.nextId + 2 :=
      (congrArg Store.nextId hs).trans hnext
    simp only [MovesWithin, updateWorkers_workers, hworkers]
    refine movesWithin_update fun id w hw hp => ?_
    simp only [Bool.and_eq_true, beq_iff_eq] at hp
    obtain rfl : id = a.workerId := hp.1
    obtain rfl : w₀ = w := Option.some.inj (hw₀.symm.trans hw)
    exact ⟨rfl, hallowed, hvalid, rfl, Or.inr ⟨htoken, hobserved, ⟨rfl, rfl⟩, rfl, hid⟩⟩
  | @released workerId token _ kind target w₀ _ _ _ hw₀ hkind =>
    rw [releaseCompute]
    refine movesWithin_settleClaim (s := s) ?_ fun w hw _ => ?_
    · obtain ⟨_, _, h⟩ := publishWorkerControl_eq (s.releasePausedTarget now workerId kind target)
        now workerId token w₀ kind
      rw [h]
      change (s.releasePausedTarget now workerId kind target).workers = s.workers
      unfold releasePausedTarget
      split <;> rfl
    · obtain rfl := eq_of_ownedWorker (ownedWorkerFor_eq_some hw₀).1 hw
      exact ⟨rfl, hkind, hw₀, rfl, rfl, rfl, rfl⟩
  | finished _ hw₀ =>
    rw [finishOperation]
    refine movesWithin_settleClaim (s := s) ?_ fun w hw _ => ?_
    · rw [releaseRunLeases, updateLeases_workers]
      split <;> simp [concludeTarget]
    · obtain rfl := eq_of_ownedWorker (ownedWorkerFor_eq_some hw₀).1 hw
      exact ⟨rfl, hw₀, rfl, rfl, rfl, rfl⟩
  | @stopped workerId token _ target w₀ r _ _ errorText hstop =>
    rw [finishStop]
    refine movesWithin_settleClaim (s := s) ?_ fun w hw _ => ?_
    · obtain ⟨_, _, h⟩ := publishStop_eq (s.stopWork now workerId errorText) now workerId token w₀
        target (stopCancels w₀ r)
      rw [h]
      simp [stopWork, cancelWorkerSchedules, failPendingActions, releaseWorkerLeases]
    · obtain rfl := eq_of_ownedWorker (ownedWorkerFor_eq_some hstop.owned).1 hw
      exact ⟨rfl, ⟨r, hstop⟩, rfl, rfl, rfl⟩
  | controlSuppressed hctl hterminal hopen =>
    rw [controlTerminalWon]
    refine movesWithin_settleClaim (s := s) (by simp [releaseRunLeases]) fun w hw _ => ?_
    obtain rfl := eq_of_ownedWorker (ownedWorkerFor_eq_some hctl.owned).1 hw
    exact ⟨rfl, rfl, _, hctl, Or.inl ⟨hopen, hterminal, rfl, rfl, rfl⟩⟩
  | controlled hctl hlive =>
    rw [finishControl]
    refine movesWithin_settleClaim (s := s) workers_moveTarget fun w hw _ => ?_
    obtain rfl := eq_of_ownedWorker (ownedWorkerFor_eq_some hctl.owned).1 hw
    exact ⟨rfl, rfl, _, hctl, Or.inr ⟨hlive, rfl, rfl, rfl⟩⟩
  | steerInterrupted hsteers => exact steerToReplacement_movesWithin rfl hsteers
  | steerSuppressed hsteers =>
    rw [steerTerminalWon]
    refine movesWithin_settleClaim (s := s) ?_ fun w hw _ => ?_
    · simp [advanceDelegations, releaseRunLeases]
    · obtain rfl := eq_of_ownedWorker (ownedWorkerFor_eq_some hsteers.owned).1 hw
      exact ⟨rfl, rfl, ⟨_, _, hsteers⟩, Or.inr ⟨rfl, rfl, rfl⟩⟩
  | steered hsteers => exact steerToReplacement_movesWithin (by simp [steerTarget]) hsteers
  | terminated hw₀ =>
    rw [finishTermination]
    refine movesWithin_settleClaim (s := s) ?_ fun w hw _ => ?_
    · simp [endWork, cancelWorkerSchedules, failPendingActions, releaseWorkerLeases]
    · obtain rfl := eq_of_ownedWorker hw₀ hw
      exact ⟨rfl, hw₀, rfl, rfl, rfl, rfl⟩

theorem applyLifecycle_movesWithin :
    s.MovesWithin (s.applyLifecycle now op) fun id w w' => s.lifecycleMoves now id w w' op :=
  (applyLifecycle_step s now op).movesWithin rfl

end Lifecycle

/-! ## Every transaction -/

section Step

variable {s s' : Store} {now : Time}

theorem releaseAttention_movesWithin {s₀ : Store} {workerId : WorkerId} {states : List RunState}
    (h : s₀.workers = s.workers) :
    s.MovesWithin (s₀.releaseAttention now workerId states)
      fun _ w w' => w.state = .needsInput ∧ w.Restated w' .ready := by
  simp only [MovesWithin, releaseAttention, updateWorkers_workers, h]
  refine movesWithin_update fun id w _ hp => ?_
  simp only [Bool.and_eq_true, beq_iff_eq] at hp
  exact ⟨hp.1.2, rfl, rfl, rfl, rfl⟩

theorem RequestStep.movesWithin {op : RequestOp} (h : s.RequestStep now op s') :
    s.MovesWithin s' fun id w w' => requestMoves id w w' op := by
  cases h with
  | unchanged => exact movesWithin_refl
  | cancelled | recorded | overdue | resumedQueued => exact movesWithin_of_eq rfl
  | cancelledRun | cancelledAttention => exact releaseAttention_movesWithin (s := s) rfl
  | resumed =>
    simp only [MovesWithin, resumeRun, recordResume, enqueueLifecycleEffects_workers,
      insertLifecycleEvent_workers, updateActiveWorkActions_workers, updateWorkers_workers,
      updateRuns_workers, drawId_workers]
    refine movesWithin_update fun id w _ hp => ?_
    exact ⟨by simpa using hp, rfl, rfl, rfl, rfl⟩

/-- Every row of `workers` after a transaction is a new worker, the row it was, or one that the
transaction moved. -/
theorem workers_step (s : Store) (c : Call) :
    s.workers.Evolves (fun id w w' => w' = w ∨ s.Moves c id w w') (s.Creates c)
      (s.step c).workers := by
  obtain ⟨now, op⟩ := c
  have hmoved : ∀ {s' : Store} {M : WorkerId → Worker → Worker → Prop}, s.MovesWithin s' M →
      (∀ id w w', M id w w' → s.Moves ⟨now, op⟩ id w w') →
      s.workers.Evolves (fun id w w' => w' = w ∨ s.Moves ⟨now, op⟩ id w w') (s.Creates ⟨now, op⟩)
        s'.workers :=
    fun h hM => h.evolves.mono (fun id w w' _ _ h => h.imp_right (hM id w w')) fun _ _ _ h => h.elim
  cases op with
  | worker op =>
    by_cases hcreate : ∃ nw, op = .createWorker nw
    · obtain ⟨nw, rfl⟩ := hcreate
      simp only [step, applyWorker, createWorker]
      split
      · exact Table.evolves_refl fun _ _ => Or.inl rfl
      split
      · exact Table.evolves_refl fun _ _ => Or.inl rfl
      · rename_i workers hins
        exact Table.evolves_insert hins (fun _ _ => Or.inl rfl) ⟨rfl, nw, rfl, rfl⟩
    · exact hmoved (applyWorker_movesWithin fun nw h => hcreate ⟨nw, h⟩) fun _ _ _ h => h
  | gc => exact workers_applyGc.mono (fun _ _ _ _ _ h => h) fun _ _ _ h => h.elim
  | schedule =>
    exact hmoved (movesWithin_of_eq (M := fun _ _ _ => False) workers_applySchedule)
      fun _ _ _ h => h
  | run op => exact hmoved (applyRun_step s now op).movesWithin fun _ _ _ h => h
  | start op => exact hmoved (applyStart_step s now op).movesWithin fun _ _ _ h => h
  | lifecycle => exact hmoved applyLifecycle_movesWithin fun _ _ _ h => h
  | request op => exact hmoved (applyRequest_step s now op).movesWithin fun _ _ _ h => h

/-- The garbage collector is the only transaction that removes workers. -/
theorem worker_kept {c : Call} (hgc : ∀ op, c.op ≠ .gc op) {id : WorkerId}
    (h : (s.workers.get? id).isSome = true) : ((s.step c).workers.get? id).isSome = true := by
  obtain ⟨now, op⟩ := c
  have hmoved : ∀ {s' : Store} {M : WorkerId → Worker → Worker → Prop}, s.MovesWithin s' M →
      (s'.workers.get? id).isSome = true := fun hmoves => (hmoves.keys id).trans h
  cases op with
  | worker op =>
    by_cases hcreate : ∃ nw, op = .createWorker nw
    · obtain ⟨nw, rfl⟩ := hcreate
      simp only [step, applyWorker, createWorker]
      split
      · exact h
      split
      · exact h
      · rename_i workers hins
        simp only [Outcome.store_commit, addEvent_workers, Table.get?_insert hins]
        split
        · rfl
        · exact h
    · exact hmoved (applyWorker_movesWithin fun nw h => hcreate ⟨nw, h⟩)
  | gc op => exact absurd rfl (hgc op)
  | schedule => exact hmoved (movesWithin_of_eq (M := fun _ _ _ => False) workers_applySchedule)
  | run op => exact hmoved (applyRun_step s now op).movesWithin
  | start op => exact hmoved (applyStart_step s now op).movesWithin
  | lifecycle => exact hmoved applyLifecycle_movesWithin
  | request op => exact hmoved (applyRequest_step s now op).movesWithin

end Step

end Store

end GlassHive
