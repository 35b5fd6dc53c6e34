import GlassHive.WorkerMoves
import GlassHive.Frames

/-!
# Ownership of lifecycle claims

A claim on a worker's compute is held under a token and an epoch. Any number of owners may claim,
take over, rebind, finalize and abandon in any order, between any other transactions: the pair that
can change the worker is a function of the epoch, epochs only grow, a takeover continues the
operation it finds, and every operation is settled at most once.
-/

namespace GlassHive

open Relational Transition

namespace LifecycleOp

/-- A claim, a takeover or a rebinding. -/
def advances : LifecycleOp → Bool
  | .tryClaimWorkerComputeRelease _ | .rebindWorkerTerminationClaimGeneration ..
  | .rebindWorkerComputeReleaseClaimGeneration .. => true
  | _ => false

/-- A finalizer other than that of a termination. -/
def finalizesTarget : LifecycleOp → Bool
  | .finalizeWorkerComputeRelease .. | .finalizeWorkerOperationClaim ..
  | .finalizeWorkerWorkStopClaim .. | .finalizeWorkerRunControlClaim _
  | .finalizeWorkerSteerClaim _ => true
  | _ => false

/-- A finalizer or an abandonment. -/
def settles : LifecycleOp → Bool
  | .abandonWorkerRunControlClaim .. | .abandonStaleWorkerComputeReleaseClaim ..
  | .finalizeWorkerTerminationClaim .. => true
  | op => op.finalizesTarget

end LifecycleOp

/-- The columns of a claim that its takeover continues. -/
structure ComputeRelease.Continues (c c' : ComputeRelease) : Prop where
  operationId : c'.operationId = c.operationId
  kind : c'.kind = c.kind
  scope : c'.scope = c.scope
  targetRunId : c'.targetRunId = c.targetRunId
  targetStartedAt : c'.targetStartedAt = c.targetStartedAt
  replacementRunId : c'.replacementRunId = c.replacementRunId

/-- A later row of a worker: of a later epoch, or of the same one with the same token or none. -/
def Worker.Later (w w' : Worker) : Prop :=
  w.releaseEpoch < w'.releaseEpoch ∨ w'.releaseEpoch = w.releaseEpoch ∧
    (w'.release.token = w.release.token ∨ w'.release.token = none)

theorem Worker.Later.refl (w : Worker) : w.Later w :=
  Or.inr ⟨rfl, Or.inl rfl⟩

variable {w' w : Worker}

theorem Worker.Later.trans {w'' : Worker} (h : w.Later w') (h' : w'.Later w'') : w.Later w'' := by
  rcases h with h | ⟨he, ht⟩
  · rcases h' with h' | ⟨he', -⟩
    · exact Or.inl (h.trans h')
    · exact Or.inl (he' ▸ h)
  · rcases h' with h' | ⟨he', ht'⟩
    · exact Or.inl (he ▸ h')
    · refine Or.inr ⟨he'.trans he, ?_⟩
      rcases ht' with ht' | ht'
      · rw [ht']
        exact ht
      · exact Or.inr ht'

theorem Worker.Settled.later {state : WorkerState} (h : w.Settled w' state) : w.Later w' :=
  Or.inr ⟨h.releaseEpoch, Or.inr (by rw [h.release]; rfl)⟩

theorem Worker.Advanced.later {release : ComputeRelease} (h : w.Advanced w' release) : w.Later w' :=
  Or.inl (by rw [h.releaseEpoch]; exact Nat.lt_succ_self _)

theorem Worker.ownedBy_iff {token : Token} {epoch : ℕ} :
    w.ownedBy token epoch = true ↔ w.release.token = some token ∧ w.releaseEpoch = epoch := by
  simp [ownedBy]

namespace Store

/-! ## What holds of the claims of every store -/

/-- Operations were drawn from the store's identifiers, no two workers share one, and a held claim
has a kind. -/
structure ClaimsDrawn (s : Store) : Prop where
  worker : ∀ id w, s.workers.get? id = some w → id < s.nextId
  operation : ∀ id w o, s.workers.get? id = some w → w.release.operationId = some o → o < s.nextId
  distinct : ∀ id id' w w' o, s.workers.get? id = some w → s.workers.get? id' = some w' →
    w.release.operationId = some o → w'.release.operationId = some o → id = id'
  kind : ∀ id w, s.workers.get? id = some w → w.release.token.isSome = true →
    w.release.kind.isSome = true

/-- What a move does to the operation of a claim: it keeps it, gives it up, or draws a new one. -/
inductive OperationMove (s s' : Store) (w w' : Worker) : Prop
  | kept (h : w'.release.operationId = w.release.operationId)
  | cleared (h : w'.release.operationId = none)
  | drawn (h : w'.release.operationId = some (s.nextId + 1)) (hid : s'.nextId = s.nextId + 2)

section Moves

variable {s : Store} {c : Call} {id : WorkerId} {w w' : Worker}

/-- The claim of a row after a transaction that does not touch claims: the one it had, or none. -/
def Unclaimed (w w' : Worker) : Prop :=
  w'.releaseEpoch = w.releaseEpoch ∧ (w'.release = w.release ∨ w'.release = .clear)

theorem unclaimed_of_restated {state : WorkerState} (h : w.Restated w' state) : Unclaimed w w' :=
  ⟨h.releaseEpoch, Or.inl h.release⟩

theorem unclaimed_apply (patch : WorkerPatch) (state : WorkerState) (lastError : String)
    (t : Time) :
    Unclaimed w { patch.apply w with updatedAt := t } ∧
      Unclaimed w { patch.apply w with
        state := state, lastError := lastError, updatedAt := t } := by
  have h : (patch.apply w).release = w.release ∨ (patch.apply w).release = .clear := by
    rw [WorkerPatch.apply]
    dsimp only
    split
    · exact Or.inr rfl
    · exact Or.inl rfl
  exact ⟨⟨rfl, h⟩, ⟨rfl, h⟩⟩

/-- No transaction but those on claims gives a worker another claim. -/
theorem unclaimed_of_moves (h : s.Moves c id w w') (hop : ∀ op, c.op ≠ .lifecycle op) :
    Unclaimed w w' := by
  obtain ⟨now, op⟩ := c
  have hdown : ∀ {w w' : Worker}, downgradeMoves w w' → Unclaimed w w' :=
    fun h => unclaimed_of_restated h.2
  cases op with
  | worker op =>
    cases op with
    | updateWorker =>
      obtain ⟨-, -, t, rfl⟩ := h
      exact (unclaimed_apply _ .created "" t).1
    | updateWorkerUnlessGcClaimed =>
      obtain ⟨-, -, -, t, rfl⟩ := h
      exact (unclaimed_apply _ .created "" t).1
    | beginWorkerTermination => exact unclaimed_of_restated h.2.2
    | failWorkerTermination => exact unclaimed_of_restated h.2.2
    | recordWorkerTerminationCleanupFailure => exact unclaimed_of_restated h.2.2
    | completeWorkerTermination =>
      obtain ⟨-, -, t, rfl⟩ := h
      exact (unclaimed_apply _ .terminated "" t).2
    | beginWorkerComputeStart => exact unclaimed_of_restated h.2.2.2.2
    | _ => exact h.elim
  | gc op =>
    cases op with
    | claimEphemeralWorkspaceGc =>
      obtain ⟨-, ⟨_, -, -, h⟩ | ⟨-, -, h⟩⟩ := h
      · exact unclaimed_of_restated h
      · exact unclaimed_of_restated h
    | releaseEphemeralWorkspaceGcClaim =>
      obtain ⟨-, -, _, -, h⟩ := h
      exact unclaimed_of_restated h
    | _ => exact h.elim
  | schedule => exact h.elim
  | run op =>
    cases op with
    | createRun => exact h.elim unclaimed_of_restated fun h => unclaimed_of_restated h.2
    | createOrGetRunForSchedule =>
      exact h.elim unclaimed_of_restated fun h => unclaimed_of_restated h.2
    | replaceQueuedRunIdempotently =>
      exact h.elim unclaimed_of_restated fun h => unclaimed_of_restated h.2
    | reconcileInvalidRunningRuns => exact hdown h
    | updateRun => exact hdown h.1
    | _ => exact h.elim
  | start op =>
    cases op with
    | claimNextQueuedRunParallel => exact unclaimed_of_restated h.2.2.2
    | reconcileDeadHostRunLease => exact hdown h
    | confirmHostRunStart => exact h.elim hdown fun h => unclaimed_of_restated h.2.2
    | requeueUnconfirmedHostRunStart => exact unclaimed_of_restated h.2.2
    | _ => exact h.elim
  | lifecycle op => exact absurd rfl (hop op)
  | request op =>
    cases op with
    | claimProviderRequestCancel => exact unclaimed_of_restated h.2
    | reconcileCancelledProviderNeedsInputRuns => exact unclaimed_of_restated h.2
    | resumeNeedsInputActiveWorkAction => exact unclaimed_of_restated h.2
    | _ => exact h.elim

theorem Unclaimed.later (h : Unclaimed w w') : w.Later w' := by
  refine Or.inr ⟨h.1, ?_⟩
  rcases h.2 with hr | hr <;> rw [hr]
  · exact Or.inl rfl
  · exact Or.inr rfl

variable {op : LifecycleOp} {now : Time}

/-- Only the owner of the current token and epoch moves a worker, unless it is claimed afresh or
its claim has expired. -/
theorem owner_of_moves (h : s.lifecycleMoves now id w w' op) :
    id = op.workerId ∧
      (∀ token epoch, op.presents = some (token, epoch) →
        w.release.token = some token ∧ w.releaseEpoch = epoch) ∧
      (op.presents = none → w.release.token = none ∨ w.claimExpired now = true) := by
  have hown : ∀ {token epoch}, w.ownedBy token epoch = true →
      (∀ t e, some (token, epoch) = some (t, e) → w.release.token = some t ∧ w.releaseEpoch = e) ∧
        (some (token, epoch) = none → w.release.token = none ∨ w.claimExpired now = true) := by
    intro token epoch h
    refine ⟨fun t e heq => ?_, fun heq => nomatch heq⟩
    obtain ⟨rfl, rfl⟩ := Prod.mk.inj (Option.some.inj heq)
    exact Worker.ownedBy_iff.mp h
  have howned : ∀ {workerId token epoch kind}, s.ownedWorker workerId token epoch kind = some w →
      w.ownedBy token epoch = true := fun h => (ownedWorker_eq_some h).2.1
  have hfor : ∀ {workerId token epoch kind target},
      s.ownedWorkerFor workerId token epoch kind target = some w → w.ownedBy token epoch = true :=
    fun h => howned (ownedWorkerFor_eq_some h).1
  cases op with
  | tryClaimWorkerComputeRelease =>
    obtain ⟨hid, hallowed, -⟩ := h
    refine ⟨hid, ?_, fun _ => ?_⟩
    · intro _ _ h
      cases h
    simp only [claimAllowed, Bool.and_eq_true, Bool.or_eq_true, Option.isNone_iff_eq_none] at hallowed
    exact hallowed.1.1.imp_right And.left
  | confirmWorkerControlRuntimeEffect => exact ⟨h.1, hown h.2.1⟩
  | rebindWorkerTerminationClaimGeneration => exact ⟨h.1, hown h.2.1⟩
  | rebindWorkerComputeReleaseClaimGeneration => exact ⟨h.1, hown h.2.1⟩
  | abandonWorkerRunControlClaim => exact ⟨h.1, hown h.2.1⟩
  | abandonStaleWorkerComputeReleaseClaim => exact ⟨h.1, hown h.2.1⟩
  | finalizeWorkerComputeRelease => exact ⟨h.1, hown (hfor h.2.2.1)⟩
  | finalizeWorkerOperationClaim => exact ⟨h.1, hown (hfor h.2.1)⟩
  | finalizeWorkerWorkStopClaim =>
    obtain ⟨hid, ⟨_, hstop⟩, -⟩ := h
    exact ⟨hid, hown (hfor hstop.owned)⟩
  | finalizeWorkerRunControlClaim =>
    obtain ⟨hid, -, _, hctl, -⟩ := h
    exact ⟨hid, hown (hfor hctl.owned)⟩
  | finalizeWorkerSteerClaim =>
    obtain ⟨hid, -, ⟨_, _, hsteers⟩, -⟩ := h
    exact ⟨hid, hown (hfor hsteers.owned)⟩
  | finalizeWorkerTerminationClaim => exact ⟨h.1, hown (howned h.2.1)⟩

/-- A finalizer or an abandonment gives the claim up. -/
theorem settled_of_moves (h : s.lifecycleMoves now id w w' op) (hop : op.settles = true) :
    ∃ state, w.Settled w' state := by
  cases op with
  | abandonWorkerRunControlClaim => exact ⟨_, h.2.2.2.2.2.2⟩
  | abandonStaleWorkerComputeReleaseClaim => exact ⟨_, h.2.2.2.2.2.2⟩
  | finalizeWorkerComputeRelease => exact ⟨_, h.2.2.2.2⟩
  | finalizeWorkerOperationClaim => exact ⟨_, h.2.2.2⟩
  | finalizeWorkerWorkStopClaim => exact ⟨_, h.2.2⟩
  | finalizeWorkerRunControlClaim =>
    obtain ⟨-, -, _, -, ⟨-, -, hs⟩ | ⟨-, hs⟩⟩ := h
    · exact ⟨_, hs⟩
    · exact ⟨_, hs⟩
  | finalizeWorkerSteerClaim =>
    obtain ⟨-, -, -, hs | hs⟩ := h
    · exact ⟨_, hs⟩
    · exact ⟨_, hs⟩
  | finalizeWorkerTerminationClaim => exact ⟨_, h.2.2.2⟩
  | _ => cases hop

/-- A claim, a takeover and a rebinding begin the next epoch. -/
theorem advanced_of_moves (h : s.lifecycleMoves now id w w' op) (hop : op.advances = true) :
    ∃ release, w.Advanced w' release := by
  cases op with
  | tryClaimWorkerComputeRelease =>
    obtain ⟨-, -, -, -, ⟨-, hs, -⟩ | ⟨-, -, hs, -⟩⟩ := h
    · exact ⟨_, hs⟩
    · exact ⟨_, hs⟩
  | rebindWorkerTerminationClaimGeneration => exact ⟨_, h.2.2.2.2.2⟩
  | rebindWorkerComputeReleaseClaimGeneration => exact ⟨_, h.2.2.2.2.2.2⟩
  | _ => cases hop

/-- The confirmation of a runtime effect is the one transaction on a claim that neither settles it
nor begins an epoch. -/
theorem confirmed_of_moves (h : s.lifecycleMoves now id w w' op) (hsettles : op.settles = false)
    (hadvances : op.advances = false) :
    w'.releaseEpoch = w.releaseEpoch ∧ w'.release.token = w.release.token ∧
      w'.release.kind = w.release.kind ∧ w'.release.operationId = w.release.operationId := by
  cases op with
  | confirmWorkerControlRuntimeEffect =>
    obtain ⟨-, -, -, -, _, _, rfl⟩ := h
    exact ⟨rfl, rfl, rfl, rfl⟩
  | tryClaimWorkerComputeRelease => cases hadvances
  | rebindWorkerTerminationClaimGeneration => cases hadvances
  | rebindWorkerComputeReleaseClaimGeneration => cases hadvances
  | _ => cases hsettles

theorem later_of_lifecycleMoves (h : s.lifecycleMoves now id w w' op) : w.Later w' := by
  cases hsettles : op.settles with
  | true =>
    obtain ⟨_, hs⟩ := settled_of_moves h hsettles
    exact hs.later
  | false =>
    cases hadvances : op.advances with
    | true =>
      obtain ⟨_, hs⟩ := advanced_of_moves h hadvances
      exact hs.later
    | false =>
      obtain ⟨he, ht, -⟩ := confirmed_of_moves h hsettles hadvances
      exact Or.inr ⟨he, Or.inl ht⟩

/-- Whatever moves a worker, its row is later afterwards. -/
theorem later_of_moves (h : s.Moves c id w w') : w.Later w' := by
  obtain ⟨now, op⟩ := c
  cases op with
  | lifecycle => exact later_of_lifecycleMoves h
  | _ => exact (unclaimed_of_moves h fun _ hop => nomatch hop).later

/-- The operation of a claim is kept, given up, or drawn by a fresh claim. -/
theorem operation_of_lifecycleMoves (h : s.lifecycleMoves now id w w' op) :
    OperationMove s (s.applyLifecycle now op) w w' := by
  cases op with
  | tryClaimWorkerComputeRelease =>
    obtain ⟨-, -, -, -, ⟨-, hs, -⟩ | ⟨-, -, hs, -, hid⟩⟩ := h
    · exact .kept (by rw [hs.release]; rfl)
    · exact .drawn (by rw [hs.release]; rfl) hid
  | confirmWorkerControlRuntimeEffect => exact .kept (confirmed_of_moves h rfl rfl).2.2.2
  | rebindWorkerTerminationClaimGeneration => exact .kept (by rw [h.2.2.2.2.2.release])
  | rebindWorkerComputeReleaseClaimGeneration => exact .kept (by rw [h.2.2.2.2.2.2.release])
  | _ =>
    obtain ⟨_, hs⟩ := settled_of_moves h rfl
    exact .cleared (by rw [hs.release]; rfl)

theorem operation_of_moves (h : s.Moves c id w w') : OperationMove s (s.step c) w w' := by
  obtain ⟨now, op⟩ := c
  have hplain : Unclaimed w w' → OperationMove s (s.step ⟨now, op⟩) w w' := by
    rintro ⟨-, hr | hr⟩
    · exact .kept (by rw [hr])
    · exact .cleared (by rw [hr]; rfl)
  cases op with
  | lifecycle => exact operation_of_lifecycleMoves h
  | _ => exact hplain (unclaimed_of_moves h fun _ hop => nomatch hop)

theorem kind_of_lifecycleMoves (h : s.lifecycleMoves now id w w' op)
    (hkind : w.release.token.isSome = true → w.release.kind.isSome = true) :
    w'.release.token.isSome = true → w'.release.kind.isSome = true := by
  cases op with
  | tryClaimWorkerComputeRelease =>
    obtain ⟨-, -, -, -, ⟨-, hs, -⟩ | ⟨-, -, hs, -⟩⟩ := h
    · intro _
      rw [hs.release, ClaimRelease.takeOver]
      cases w.release.kind <;> rfl
    · intro _
      rw [hs.release]
      rfl
  | confirmWorkerControlRuntimeEffect =>
    obtain ⟨-, ht, hk, -⟩ := confirmed_of_moves h rfl rfl
    rw [ht, hk]
    exact hkind
  | rebindWorkerTerminationClaimGeneration =>
    rw [h.2.2.2.2.2.release]
    exact hkind
  | rebindWorkerComputeReleaseClaimGeneration =>
    rw [h.2.2.2.2.2.2.release]
    exact hkind
  | _ =>
    obtain ⟨_, hs⟩ := settled_of_moves h rfl
    rw [hs.release]
    intro htoken
    cases htoken

/-- A claim that a transaction leaves has a kind. -/
theorem kind_of_moves (h : s.Moves c id w w')
    (hkind : w.release.token.isSome = true → w.release.kind.isSome = true) :
    w'.release.token.isSome = true → w'.release.kind.isSome = true := by
  obtain ⟨now, op⟩ := c
  have hplain : Unclaimed w w' →
      (w'.release.token.isSome = true → w'.release.kind.isSome = true) := by
    rintro ⟨-, hr | hr⟩
    · rw [hr]
      exact hkind
    · rw [hr]
      intro htoken
      cases htoken
  cases op with
  | lifecycle => exact kind_of_lifecycleMoves h hkind
  | _ => exact hplain (unclaimed_of_moves h fun _ hop => nomatch hop)

end Moves

/-! ## The claims of every reachable store -/

theorem claimsDrawn_init (settings : Settings) : (init settings).ClaimsDrawn where
  worker _ _ h := nomatch h
  operation _ _ _ h := nomatch h
  distinct _ _ _ _ _ h := nomatch h
  kind _ _ h := nomatch h

section Step

variable {s : Store} {c : Call} {id : WorkerId}

/-- The row of `createWorker` holds no claim, and its identifier is used up. -/
theorem creates_eq (h : s.Creates c id w) (hw : (s.step c).workers.get? id = some w)
    (hnone : s.workers.get? id = none) :
    id = s.nextId ∧ w.release = .clear ∧ s.nextId < (s.step c).nextId := by
  obtain ⟨rfl, nw, hop, rfl⟩ := h
  refine ⟨rfl, rfl, ?_⟩
  simp only [step, hop, applyWorker, createWorker] at hw ⊢
  split
  · rename_i hproject
    rw [if_pos hproject, Outcome.store_raise, hnone] at hw
    cases hw
  · split
    · rename_i hproject _ hins
      rw [if_neg hproject, hins, Outcome.store_raise, hnone] at hw
      cases hw
    · exact Nat.lt_succ_of_lt (Nat.lt_succ_self _)

/-- What a transaction makes of the operation of a worker it finds or creates. -/
theorem operation_step {o : OperationId} (hw' : (s.step c).workers.get? id = some w')
    (ho : w'.release.operationId = some o) :
    (∃ w, s.workers.get? id = some w ∧ w.release.operationId = some o) ∨
      o = s.nextId + 1 ∧ (s.step c).nextId = s.nextId + 2 := by
  rcases workers_step s c id w' hw' with ⟨hnone, hnew⟩ | ⟨w, hw, rfl | hmove⟩
  · rw [(creates_eq hnew hw' hnone).2.1] at ho
    cases ho
  · exact Or.inl ⟨w', hw, ho⟩
  · rcases operation_of_moves hmove with h | h | ⟨h, hid⟩
    · exact Or.inl ⟨w, hw, h ▸ ho⟩
    · rw [h] at ho
      cases ho
    · rw [h] at ho
      exact Or.inr ⟨(Option.some.inj ho).symm, hid⟩

/-- Two workers never draw one operation: a transaction moves the claim of one worker only. -/
theorem drawn_unique {id' : WorkerId} (hw : (s.step c).workers.get? id = some w)
    (hw' : (s.step c).workers.get? id' = some w') (ho : w.release.operationId = some (s.nextId + 1))
    (ho' : w'.release.operationId = some (s.nextId + 1)) (hs : s.ClaimsDrawn) : id = id' := by
  have hown : ∀ {id w}, (s.step c).workers.get? id = some w →
      w.release.operationId = some (s.nextId + 1) →
      ∃ op, c.op = .lifecycle op ∧ id = op.workerId := by
    intro id w hw ho
    rcases workers_step s c id w hw with ⟨hnone, hnew⟩ | ⟨v, hv, rfl | hmove⟩
    · rw [(creates_eq hnew hw hnone).2.1] at ho
      cases ho
    · exact absurd (hs.operation id w _ hv ho) Nat.not_succ_lt_self
    · by_cases hop : ∃ op, c.op = .lifecycle op
      · obtain ⟨op, hop⟩ := hop
        obtain ⟨now, _⟩ := c
        obtain rfl : _ = Op.lifecycle op := hop
        exact ⟨op, rfl, (owner_of_moves hmove).1⟩
      · obtain ⟨-, hr | hr⟩ := unclaimed_of_moves hmove fun op h => hop ⟨op, h⟩
        · rw [hr] at ho
          exact absurd (hs.operation id v _ hv ho) Nat.not_succ_lt_self
        · rw [hr] at ho
          cases ho
  obtain ⟨op, hop, rfl⟩ := hown hw ho
  obtain ⟨op', hop', rfl⟩ := hown hw' ho'
  rw [hop] at hop'
  obtain rfl := Op.lifecycle.inj hop'
  rfl

theorem claimsDrawn_step (hs : s.ClaimsDrawn) : (s.step c).ClaimsDrawn where
  worker id w' hw' := by
    rcases workers_step s c id w' hw' with ⟨hnone, hnew⟩ | ⟨w, hw, -⟩
    · obtain ⟨rfl, -, hlt⟩ := creates_eq hnew hw' hnone
      exact hlt
    · exact (hs.worker id w hw).trans_le (nextId_step s c)
  operation id w' o hw' ho := by
    rcases operation_step hw' ho with ⟨w, hw, hwo⟩ | ⟨rfl, hid⟩
    · exact (hs.operation id w o hw hwo).trans_le (nextId_step s c)
    · rw [hid]
      exact Nat.lt_succ_self _
  distinct id id' w w' o hw hw' ho ho' := by
    rcases operation_step hw ho with ⟨v, hv, hvo⟩ | ⟨rfl, -⟩
    · rcases operation_step hw' ho' with ⟨v', hv', hvo'⟩ | ⟨rfl, -⟩
      · exact hs.distinct id id' v v' o hv hv' hvo hvo'
      · exact absurd (hs.operation id v _ hv hvo) Nat.not_succ_lt_self
    · exact drawn_unique hw hw' ho ho' hs
  kind id w' hw' := by
    rcases workers_step s c id w' hw' with ⟨hnone, hnew⟩ | ⟨w, hw, rfl | hmove⟩
    · rw [(creates_eq hnew hw' hnone).2.1]
      intro htoken
      cases htoken
    · exact hs.kind id w' hw
    · exact kind_of_moves hmove (hs.kind id w hw)

theorem Reachable.claimsDrawn (hs : s.Reachable) : s.ClaimsDrawn := by
  obtain ⟨settings, calls, rfl⟩ := hs
  exact invariant_run (C := fun _ _ => True) (fun _ _ hs _ => claimsDrawn_step hs)
    (claimsDrawn_init settings) (along_of_forall step (fun _ _ => trivial) _ calls)

end Step

/-! ## Rows only grow later -/

section Later

variable {s : Store} {id : WorkerId}

theorem later_step {c : Call} (hw : s.workers.get? id = some w)
    (hw' : (s.step c).workers.get? id = some w') : w.Later w' := by
  rcases workers_step s c id w' hw' with ⟨hnone, -⟩ | ⟨v, hv, hmove⟩
  · rw [hw] at hnone
    cases hnone
  · obtain rfl := Option.some.inj (hw.symm.trans hv)
    rcases hmove with rfl | hmove
    · exact .refl _
    · exact later_of_moves hmove

/-- A worker that is gone does not come back under its identifier. -/
theorem absent_step {c : Call} (hid : id < s.nextId) (hnone : s.workers.get? id = none) :
    (s.step c).workers.get? id = none := by
  by_contra hsome
  obtain ⟨w', hw'⟩ := Option.ne_none_iff_exists'.mp hsome
  rcases workers_step s c id w' hw' with ⟨-, hnew⟩ | ⟨w, hw, -⟩
  · exact hid.ne (creates_eq hnew hw' hnone).1
  · rw [hnone] at hw
    cases hw

theorem absent_run (calls : List Call) (hid : id < s.nextId) (hnone : s.workers.get? id = none) :
    (run step s calls).workers.get? id = none := by
  induction calls generalizing s with
  | nil => exact hnone
  | cons c calls ih => exact ih (hid.trans_le (nextId_step s c)) (absent_step hid hnone)

theorem later_run {calls : List Call} (hs : s.ClaimsDrawn) (hw : s.workers.get? id = some w)
    (hw' : (run step s calls).workers.get? id = some w') : w.Later w' := by
  induction calls generalizing s w with
  | nil =>
    obtain rfl := Option.some.inj (hw.symm.trans hw')
    exact .refl w
  | cons c calls ih =>
    cases hv : (s.step c).workers.get? id with
    | none =>
      have hgone := absent_run calls
        ((hs.worker id w hw).trans_le (nextId_step s c)) hv
      rw [run_cons, hgone] at hw'
      cases hw'
    | some => exact (later_step hw hv).trans (ih (claimsDrawn_step hs) hv hw')

end Later

/-! ## Settled operations -/

/-- The operation that a finalizer or an abandonment settles. -/
def settledOperation (s : Store) (c : Call) : Option OperationId :=
  match c.op with
  | .lifecycle op =>
    if op.settles then
      ((s.workers.get? op.workerId).bind fun w => w.release.operationId).filter fun o =>
        ((s.step c).workers.get? op.workerId).all fun w => w.release.operationId != some o
    else none
  | _ => none

/-- An operation that was drawn and that no worker holds any more. -/
def OperationUsed (s : Store) (o : OperationId) : Prop :=
  o < s.nextId ∧ ∀ id w, s.workers.get? id = some w → w.release.operationId ≠ some o

section Settled

variable {s : Store} {c : Call} {o : OperationId}

theorem settledOperation_eq_some (h : s.settledOperation c = some o) :
    ∃ id w, s.workers.get? id = some w ∧ w.release.operationId = some o ∧
      ∀ w', (s.step c).workers.get? id = some w' → w'.release.operationId ≠ some o := by
  rw [settledOperation] at h
  split at h
  · split at h
    · obtain ⟨hw, hgone⟩ := Option.filter_eq_some_iff.mp h
      obtain ⟨w, hw, ho⟩ := Option.bind_eq_some_iff.mp hw
      refine ⟨_, w, hw, ho, fun w' hw' => ?_⟩
      rw [hw'] at hgone
      simpa using hgone
    · cases h
  · cases h

theorem operationUsed_step (h : s.OperationUsed o) : (s.step c).OperationUsed o := by
  refine ⟨h.1.trans_le (nextId_step s c), fun id w' hw' ho => ?_⟩
  rcases operation_step hw' ho with ⟨w, hw, hwo⟩ | ⟨rfl, -⟩
  · exact h.2 id w hw hwo
  · exact absurd h.1 Nat.not_succ_lt_self

/-- A settled operation was held, and nobody holds it afterwards. -/
theorem operationUsed_of_settled (hs : s.ClaimsDrawn) (h : s.settledOperation c = some o) :
    ¬s.OperationUsed o ∧ (s.step c).OperationUsed o := by
  obtain ⟨id, w, hw, ho, hgone⟩ := settledOperation_eq_some h
  have hlt := hs.operation id w o hw ho
  refine ⟨fun hused => hused.2 id w hw ho, hlt.trans_le (nextId_step s c), ?_⟩
  intro id' w' hw' ho'
  rcases operation_step hw' ho' with ⟨v, hv, hvo⟩ | ⟨rfl, -⟩
  · obtain rfl := hs.distinct id' id v w o hv hw hvo ho
    exact hgone w' hw' ho'
  · exact Nat.not_succ_lt_self hlt

end Settled

/-! ## One transaction on a claim -/

/-- The caller may act on the claim of the worker: it presents the current token and epoch, or the
worker is free, or its claim has expired. -/
def MayAct (s : Store) (now : Time) (op : LifecycleOp) : Prop :=
  ∃ w, s.workers.get? op.workerId = some w ∧
    match op.presents with
    | some (token, epoch) => w.release.token = some token ∧ w.releaseEpoch = epoch
    | none => w.release.token = none ∨ w.claimExpired now = true

/-- The transaction handed out a claim, a takeover or a rebinding. -/
def grants (s : Store) (now : Time) : LifecycleOp → Bool
  | .tryClaimWorkerComputeRelease a => (s.tryClaimWorkerComputeRelease now a).value?.isSome
  | .rebindWorkerTerminationClaimGeneration workerId token epoch containerId =>
    (s.rebindWorkerTerminationClaimGeneration now workerId token epoch containerId).value?.isSome
  | .rebindWorkerComputeReleaseClaimGeneration workerId token epoch kind containerId =>
    (s.rebindWorkerComputeReleaseClaimGeneration now workerId token epoch kind
      containerId).value?.isSome
  | _ => false

/-- What every transaction on claims keeps to. -/
structure ClaimStep (s : Store) (now : Time) (op : LifecycleOp) : Prop where
  owner : s.applyLifecycle now op = s ∨ s.MayAct now op
  epoch : s.grants now op = true → ∃ w w', s.workers.get? op.workerId = some w ∧
    (s.applyLifecycle now op).workers.get? op.workerId = some w' ∧
    w'.releaseEpoch = w.releaseEpoch + 1
  takeover : ∀ a w w', op = .tryClaimWorkerComputeRelease a →
    s.workers.get? a.workerId = some w → w.release.token.isSome = true →
    (s.applyLifecycle now op).workers.get? a.workerId = some w' → w.release.Continues w'.release
  generation : op.finalizesTarget = true → ∀ w id r r', s.workers.get? op.workerId = some w →
    w.release.targetRunId = some id → s.runs.get? id = some r →
    (s.applyLifecycle now op).runs.get? id = some r' → r' ≠ r →
    r.startedAt = w.release.targetStartedAt
  termination : ∀ workerId token epoch releasedAt fields errorText id r r',
    op = .finalizeWorkerTerminationClaim workerId token epoch releasedAt fields errorText →
    s.runs.get? id = some r → (s.applyLifecycle now op).runs.get? id = some r' → r' ≠ r →
    r.workerId = workerId ∧ r.state ∈ RunState.nonterminal ∧ r'.state = .cancelled

section ClaimStep

variable {s : Store} {now : Time}

variable {op : LifecycleOp} {w : Worker} {token : Token} {epoch : ℕ} {p : WorkerId → Worker → Bool}
  {s' : Store} {workerId : WorkerId} {id : RunId} {r r' : Run}

theorem mayAct_of_owned (hop : op.presents = some (token, epoch))
    (hw : s.workers.get? op.workerId = some w) (howned : w.ownedBy token epoch = true) :
    s.MayAct now op := by
  refine ⟨w, hw, ?_⟩
  rw [hop]
  exact Worker.ownedBy_iff.mp howned

theorem mayAct_of_any (hop : op.presents = some (token, epoch))
    (hp : ∀ id w, p id w = true → id = op.workerId ∧ w.ownedBy token epoch = true)
    (h : s.workers.any p = true) : s.MayAct now op := by
  obtain ⟨id, w, hw, hok⟩ := Table.any_eq_true.mp h
  obtain ⟨rfl, howned⟩ := hp id w hok
  exact mayAct_of_owned hop hw howned

/-- A transaction on a claim changes nothing unless its caller may act. -/
theorem LifecycleStep.eq_or_mayAct (h : s.LifecycleStep now op s') : s' = s ∨ s.MayAct now op := by
  have hfor : ∀ {op : LifecycleOp} {token epoch kind target w},
      op.presents = some (token, epoch) →
      s.ownedWorkerFor op.workerId token epoch kind target = some w → s.MayAct now op := by
    intro op token epoch kind target w hop h
    obtain ⟨hw, howned, -⟩ := ownedWorker_eq_some (ownedWorkerFor_eq_some h).1
    exact mayAct_of_owned hop hw howned
  cases h with
  | unchanged => exact Or.inl rfl
  | changedRow _ _ hop hany hp =>
    exact Or.inr (mayAct_of_any hop (fun id w hpw => (hp id w hpw).1) hany)
  | takenOver _ hw hallowed | claimed _ hw hallowed =>
    refine Or.inr ⟨_, hw, ?_⟩
    simp only [claimAllowed, Bool.and_eq_true, Bool.or_eq_true, Option.isNone_iff_eq_none]
      at hallowed
    exact hallowed.1.1.imp_right And.left
  | released hw | finished _ hw => exact Or.inr (hfor rfl hw)
  | stopped hstop => exact Or.inr (hfor rfl hstop.owned)
  | controlSuppressed hctl | controlled hctl => exact Or.inr (hfor rfl hctl.owned)
  | steerInterrupted hsteers | steerSuppressed hsteers | steered hsteers =>
    exact Or.inr (hfor rfl hsteers.owned)
  | terminated hw =>
    obtain ⟨hw, howned, -⟩ := ownedWorker_eq_some hw
    exact Or.inr (mayAct_of_owned rfl hw howned)

/-- The epoch of a row that an update of its owner advances. -/
theorem epoch_update {f : Worker → Worker} (hf : ∀ w, (f w).releaseEpoch = w.releaseEpoch + 1)
    (hp : ∀ id w, p id w = true → id = workerId) (h : s.workers.any p = true) :
    ∃ w w', s.workers.get? workerId = some w ∧
      (s.workers.update p fun _ => f).get? workerId = some w' ∧
      w'.releaseEpoch = w.releaseEpoch + 1 := by
  obtain ⟨id, w, hw, hok⟩ := Table.any_eq_true.mp h
  obtain rfl := hp id w hok
  exact ⟨w, f w, hw, by rw [Table.get?_update, hw, Option.map_some, if_pos hok], hf w⟩

/-- A claim, a takeover and a rebinding that succeed begin the next epoch. -/
theorem epoch_of_grants (h : s.grants now op = true) :
    ∃ w w', s.workers.get? op.workerId = some w ∧
      (s.applyLifecycle now op).workers.get? op.workerId = some w' ∧
      w'.releaseEpoch = w.releaseEpoch + 1 := by
  cases op with
  | tryClaimWorkerComputeRelease a =>
    rcases tryClaimWorkerComputeRelease_cases s now a with
      ⟨-, hnone⟩ | ⟨w, -, hw, -, ⟨-, _, hs⟩ | ⟨htoken, -, s', _, hreserve, hs⟩⟩
    · rw [grants, hnone] at h
      cases h
    · refine ⟨w, takenOverRow now a s.nextId w, hw, ?_, rfl⟩
      simp only [applyLifecycle, LifecycleOp.workerId, hs, updateWorkers_workers, drawId_workers]
      rw [Table.get?_update, hw]
      simp
    · refine ⟨w, claimedRow now a s.nextId (s.nextId + 1) w, hw, ?_, rfl⟩
      have hworkers : s'.workers = s.workers := by
        rcases reserveReplacement_eq_some hreserve with rfl | ⟨_, _, _, _, -, -, -, -, -, rfl⟩ <;> rfl
      simp only [applyLifecycle, LifecycleOp.workerId, hs, updateWorkers_workers, hworkers]
      rw [Table.get?_update, hw]
      simp [htoken]
  | rebindWorkerTerminationClaimGeneration =>
    rw [grants, rebindWorkerTerminationClaimGeneration] at h
    rw [applyLifecycle, rebindWorkerTerminationClaimGeneration]
    dsimp only at h ⊢
    split at h
    · rename_i hany
      rw [if_pos hany, Outcome.store_commit, updateWorkers_workers]
      refine epoch_update (fun _ => rfl) (fun id w hp => ?_) hany
      simp only [Bool.and_eq_true, beq_iff_eq] at hp
      exact hp.1.1.1.1
    · cases h
  | rebindWorkerComputeReleaseClaimGeneration =>
    rw [grants, rebindWorkerComputeReleaseClaimGeneration] at h
    rw [applyLifecycle, rebindWorkerComputeReleaseClaimGeneration]
    dsimp only at h ⊢
    split at h
    · cases h
    rename_i hkind
    rw [if_neg hkind]
    split at h
    · rename_i hany
      rw [if_pos hany, Outcome.store_commit, updateWorkers_workers]
      refine epoch_update (fun _ => rfl) (fun id w hp => ?_) hany
      simp only [Bool.and_eq_true, beq_iff_eq] at hp
      exact hp.1.1.1
    · cases h
  | _ => cases h

/-- A takeover continues the operation it finds. -/
theorem continues_of_takeover {a : ClaimRelease} (hs : s.ClaimsDrawn)
    (hw : s.workers.get? a.workerId = some w) (htoken : w.release.token.isSome = true)
    (hw' : (s.applyLifecycle now (.tryClaimWorkerComputeRelease a)).workers.get? a.workerId =
      some w') : w.release.Continues w'.release := by
  rcases workers_step s ⟨now, .lifecycle (.tryClaimWorkerComputeRelease a)⟩ a.workerId w' hw' with
    ⟨hnone, -⟩ | ⟨v, hv, hmove⟩
  · rw [hw] at hnone
    cases hnone
  obtain rfl := Option.some.inj (hw.symm.trans hv)
  rcases hmove with rfl | ⟨-, -, -, -, ⟨-, hadv, -⟩ | ⟨hfree, -⟩⟩
  · exact ⟨rfl, rfl, rfl, rfl, rfl, rfl⟩
  · obtain ⟨kind, hkind⟩ := Option.isSome_iff_exists.mp (hs.kind _ w hw htoken)
    rw [hadv.release]
    exact ⟨rfl, by simp [ClaimRelease.takeOver, hkind], rfl, rfl, rfl, rfl⟩
  · rw [hfree] at htoken
    cases htoken

/-- A finalizer changes its target only in the generation that was claimed. -/
theorem LifecycleStep.generation (h : s.LifecycleStep now op s') (hop : op.finalizesTarget = true)
    (hw : s.workers.get? op.workerId = some w) (htarget : w.release.targetRunId = some id)
    (hr : s.runs.get? id = some r) (hr' : s'.runs.get? id = some r') (hne : r' ≠ r) :
    r.startedAt = w.release.targetStartedAt := by
  have hsame : s'.runs ≠ s.runs := by
    intro heq
    rw [heq, hr] at hr'
    exact hne (Option.some.inj hr').symm
  have hfound : ∀ {token epoch kind target v},
      s.ownedWorkerFor op.workerId token epoch kind target = some v →
      v = w ∧ target = some id := by
    intro token epoch kind target v h
    obtain ⟨howned, ht⟩ := ownedWorkerFor_eq_some h
    obtain rfl := Option.some.inj ((ownedWorker_eq_some howned).1.symm.trans hw)
    exact ⟨rfl, ht.symm.trans htarget⟩
  cases h with
  | unchanged | changedRow => exact absurd rfl hsame
  | released => exact absurd (runs_releaseCompute ..) hsame
  | finished _ howned =>
    obtain ⟨rfl, ht⟩ := hfound howned
    rw [runs_finishOperation ..] at hr' hsame
    split at hr'
    · rw [Table.get?_update, hr, Option.map_some] at hr'
      obtain rfl := Option.some.inj hr'
      split at hne
      · rename_i hp
        simp only [claimedGeneration, Bool.and_eq_true, beq_iff_eq] at hp
        exact hp.1.2
      · exact absurd rfl hne
    · exact absurd (if_neg ‹_›) hsame
  | stopped hstop =>
    obtain ⟨rfl, ht⟩ := hfound hstop.owned
    obtain rfl := Option.some.inj ht
    obtain rfl := Option.some.inj (hr.symm.trans hstop.get)
    rcases hstop.generation with hterminal | hgen
    · rw [runs_finishStop, Table.get?_update, hr, Option.map_some,
        if_neg (by simp [(RunState.mem_terminal_iff _).mp hterminal])] at hr'
      exact absurd (Option.some.inj hr').symm hne
    · exact hgen
  | controlSuppressed hctl | controlled hctl =>
    obtain ⟨rfl, ht⟩ := hfound hctl.owned
    obtain rfl := Option.some.inj ht
    obtain rfl := Option.some.inj (hr.symm.trans hctl.get)
    exact hctl.generation
  | steerInterrupted hsteers | steerSuppressed hsteers | steered hsteers =>
    obtain ⟨rfl, ht⟩ := hfound hsteers.owned
    obtain rfl := Option.some.inj ht
    obtain rfl := Option.some.inj (hr.symm.trans hsteers.get)
    exact hsteers.generation
  | _ => cases hop

/-- The finalizer of a termination cancels nonterminal runs of its worker, whatever their
generation, and changes no other run. -/
theorem cancelled_of_termination {releasedAt : Time} {fields : RuntimeFields} {errorText : String}
    (hr : s.runs.get? id = some r)
    (hr' : (s.applyLifecycle now (.finalizeWorkerTerminationClaim workerId token epoch releasedAt
      fields errorText)).runs.get? id = some r')
    (hne : r' ≠ r) :
    r.workerId = workerId ∧ r.state ∈ RunState.nonterminal ∧ r'.state = .cancelled := by
  rw [applyLifecycle, finalizeWorkerTerminationClaim] at hr'
  split at hr'
  · exact absurd (Option.some.inj (hr.symm.trans hr')).symm hne
  · rw [Outcome.store_commit, runs_finishTermination, Table.get?_update, hr, Option.map_some] at hr'
    obtain rfl := Option.some.inj hr'
    split at hne
    · rename_i hp
      rw [if_pos hp]
      simp only [Bool.and_eq_true, beq_iff_eq, oneOf_eq_true] at hp
      exact ⟨hp.1, hp.2, rfl⟩
    · exact absurd rfl hne

theorem claimStep (hs : s.ClaimsDrawn) (op : LifecycleOp) : s.ClaimStep now op where
  owner := (applyLifecycle_step s now op).eq_or_mayAct
  epoch := epoch_of_grants
  takeover a w w' hop hw htoken hw' := by
    subst hop
    exact continues_of_takeover hs hw htoken hw'
  generation hop w id r r' := (applyLifecycle_step s now op).generation hop
  termination workerId token epoch releasedAt fields errorText id r r' hop hr hr' := by
    subst hop
    exact cancelled_of_termination hr hr'

end ClaimStep

/-- Every transaction on claims, from every reachable store and in any order with all others, keeps
to the rules of ownership; no operation is settled twice; and rows only grow later, so that a worker
has one token for each epoch. -/
theorem lifecycleClaims_owned {s : Store} (hs : s.Reachable) (calls : List Call) :
    Along step (fun s c => ∀ op, c.op = .lifecycle op → s.ClaimStep c.now op) s calls ∧
      (outputs step settledOperation s calls).Nodup ∧
      ∀ pre id w w', pre <+: calls → s.workers.get? id = some w →
        (run step s pre).workers.get? id = some w' → w.Later w' := by
  have hinv : ∀ (s : Store) (c : Call), s.ClaimsDrawn → True → (s.step c).ClaimsDrawn :=
    fun _ _ hs _ => claimsDrawn_step hs
  refine ⟨?_, ?_, ?_⟩
  · exact along_of_invariant hinv (fun s c hs _ op _ => claimStep hs op) hs.claimsDrawn
      (along_of_forall step (fun _ _ => trivial) s calls)
  · exact nodup_outputs (fun s c hs => hinv s c hs trivial)
      (fun _ _ _ _ => operationUsed_step) (fun _ _ _ hs h => (operationUsed_of_settled hs h).1)
      (fun _ _ _ hs h => (operationUsed_of_settled hs h).2) hs.claimsDrawn
  · exact fun pre id w w' _ hw hw' => later_run hs.claimsDrawn hw hw'

/-! ## A target that starts under the claim of a termination -/

/-- The claim that terminates worker `1`, whose target `3` waits in the queue. -/
def terminationOfQueued : ClaimRelease where
  workerId := 1
  expectedUpdatedAt := 3
  expectedLastRunId := some (.uuid 3)
  expectedState := .created
  expectedContainerId := none
  owner := 9
  ttl := 60
  kind := .terminateWorker
  scope := none
  targetRunId := some (.uuid 3)
  expectedTargetStartedAt := none
  expectedSessionFingerprint := none
  replacement := none
  action := none

/-- The termination is claimed with token `4` and epoch `1`, and then the target is started. -/
def withTerminationOfStarted : List Call :=
  withQueuedRun ++
    [⟨4, .lifecycle (.tryClaimWorkerComputeRelease terminationOfQueued)⟩,
     ⟨5, .start (.claimNextQueuedRunLegacy 1 true)⟩]

/-- The rules over the runs that continue this scenario. -/
theorem lifecycleClaims_owned_termination :
    Along step (fun s c => ∀ op, c.op = .lifecycle op → s.ClaimStep c.now op)
        (fromCalls withTerminationOfStarted)
        [⟨6, .lifecycle (.finalizeWorkerTerminationClaim 1 4 1 6 .none "closed")⟩] ∧
      (outputs step settledOperation (fromCalls withTerminationOfStarted)
        [⟨6, .lifecycle (.finalizeWorkerTerminationClaim 1 4 1 6 .none "closed")⟩]).Nodup ∧
      ∀ pre id w w',
        pre <+: [(⟨6, .lifecycle (.finalizeWorkerTerminationClaim 1 4 1 6 .none "closed")⟩ : Call)] →
        (fromCalls withTerminationOfStarted).workers.get? id = some w →
        (run step (fromCalls withTerminationOfStarted) pre).workers.get? id = some w' →
        w.Later w' :=
  lifecycleClaims_owned (reachable_fromCalls _) _

/-- The finalizer of the termination cancels the target in a generation that was not claimed. -/
theorem finalizeWorkerTerminationClaim_ignores_generation :
    (fromCalls withTerminationOfStarted).Reachable ∧
      ∃ w r r', (fromCalls withTerminationOfStarted).workers.get? 1 = some w ∧
        w.release.targetRunId = some (.uuid 3) ∧
        (fromCalls withTerminationOfStarted).runs.get? (.uuid 3) = some r ∧
        ((fromCalls withTerminationOfStarted).finalizeWorkerTerminationClaim 6 1 4 1 6 .none
          "closed").store.runs.get? (.uuid 3) = some r' ∧
        r' ≠ r ∧ r.startedAt ≠ w.release.targetStartedAt := by
  have hworker : ((fromCalls withTerminationOfStarted).workers.get? 1).map
      (fun w => (w.release.targetRunId, w.release.targetStartedAt)) =
        some (some (.uuid 3), none) := by
    decide
  have hbefore : ((fromCalls withTerminationOfStarted).runs.get? (.uuid 3)).map
      (fun r => (r.state, r.startedAt)) = some (.running, some 5) := by
    decide
  have hafter : (((fromCalls withTerminationOfStarted).finalizeWorkerTerminationClaim 6 1 4 1 6
      .none "closed").store.runs.get? (.uuid 3)).map Run.state = some .cancelled := by
    decide
  obtain ⟨w, hw, hclaim⟩ := Option.map_eq_some_iff.mp hworker
  obtain ⟨r, hr, hrow⟩ := Option.map_eq_some_iff.mp hbefore
  obtain ⟨r', hr', hstate⟩ := Option.map_eq_some_iff.mp hafter
  rw [Prod.mk.injEq] at hclaim hrow
  refine ⟨reachable_fromCalls _, w, r, r', hw, hclaim.1, hr, hr', ?_, ?_⟩
  · rintro rfl
    rw [hrow.1] at hstate
    cases hstate
  · rw [hrow.2, hclaim.2]
    exact Option.some_ne_none 5

end Store

end GlassHive
