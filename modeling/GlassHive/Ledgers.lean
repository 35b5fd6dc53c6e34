import GlassHive.Library.Transition
import GlassHive.Store

/-!
# Lifecycle effects and grant revocations

Two ledgers of the store with one lease discipline. Effects of lifecycle operations are enqueued
pending by the transactions that decide them, and revocations of capability grants are enqueued
armed before the grant is projected. Executors claim rows of either, and settle or reschedule what
they hold. Any transaction may enqueue, so steps elsewhere keep the rows and may add new ones.
-/

namespace GlassHive

open Relational Transition

/-- `LIFECYCLE_EFFECT_KINDS`. -/
def lifecycleEffectKinds : List String :=
  ["callback.run_cancelled", "callback.run_paused", "callback.run_resumed",
    "callback.run_resumed_in_place", "callback.run_resumed_queued", "callback.run_interrupted",
    "callback.run_steered", "callback.run_needs_input", "callback.work_stopped",
    "callback.worker_paused", "callback.worker_resumed", "callback.worker_terminated",
    "signed_links.revoke_worker"]

/-- `LIFECYCLE_EFFECT_ERROR_CODES`. -/
def lifecycleEffectErrorCodes : List String :=
  ["callback_config_missing", "callback_build_failed", "callback_enqueue_failed",
    "signed_link_revoke_failed", "transient_dependency", "unknown"]

/-- The codes of `retry_capability_grant_revocation`. -/
def revocationErrorCodes : List String :=
  ["broker_revocation_rejected", "broker_revocation_unavailable", "transient_dependency", "unknown"]

/-- When a claim expires: after the time asked for, and one second at least. -/
def claimExpiry (now : Time) (ttl : ℤ) : Time :=
  now + (max 1000000 ttl).toNat

/-- When a row is tried again: at once, or after the delay asked for, and one day at most. -/
def retryTime (now : Time) (delay : ℤ) : Option Time :=
  let delay := max 0 (min delay 86400000000)
  if 0 < delay then some (now + delay.toNat) else none

/-- `container_generation_id`. -/
def GrantProjection.generationId : GrantProjection → Text
  | .container generationId => generationId
  | .host _ => []

namespace RevocationBinding

/-- A binding without white space around its values. -/
def normalized (b : RevocationBinding) : RevocationBinding :=
  { b with
    authorizationRef := Text.strip b.authorizationRef
    originRef := Text.strip b.originRef
    grantId := Text.strip b.grantId
    projection :=
      match b.projection with
      | .container generationId => .container (Text.strip generationId)
      | .host startupLeaseId => .host (Text.strip startupLeaseId) }

/-- Every value is there and not too long. -/
def exact (b : RevocationBinding) : Bool :=
  let projection :=
    match b.projection with
    | .container generationId => generationId
    | .host startupLeaseId => startupLeaseId
  [b.authorizationRef, b.originRef, b.grantId, projection].all fun value =>
    !value.isEmpty && value.length ≤ 256

end RevocationBinding

/-- How the digests that are the primary keys of the two ledgers are ordered. -/
structure DigestOrder where
  effect : LifecycleKey → ℕ
  revocation : RevocationBinding → ℕ

namespace Store

/-! ## Lifecycle effects -/

/-- `_enqueue_lifecycle_effects` on names that may be unknown. -/
def enqueueNamedEffects (s : Store) (now : Time) (key : LifecycleKey) (effectKinds : List String) :
    Outcome (List LifecycleKey) :=
  match effectKinds.find? fun name => !lifecycleEffectKinds.contains name with
  | some name => .raise s (.valueError s!"Unsupported lifecycle operation effect: {name}")
  | none =>
    .commit (s.enqueueLifecycleEffects now key effectKinds)
      (effectKinds.map fun name => { key with name := name })

/-- `claim_next_lifecycle_effect`. -/
def claimNextLifecycleEffect (s : Store) (order : DigestOrder) (now : Time) (executorId : Text)
    (ttl : ℤ) (effectKinds : List String) (createdBefore : Option Time) :
    Outcome (Option (LifecycleKey × LifecycleEffect)) :=
  let owner := Text.strip executorId
  if owner.isEmpty then
    .raise s (.valueError "Lifecycle effect claims require an executor")
  else
    let claim := Ledger.claimNext s.effects
      (fun k r => createdBefore.all (fun t => r.createdAt ≤ t) &&
        (effectKinds.isEmpty || effectKinds.contains k.name))
      order.effect owner (claimExpiry now ttl) now
    .commit { s with effects := claim.1 } claim.2

/-- `mark_lifecycle_effect_applied`. -/
def markLifecycleEffectApplied (s : Store) (now : Time) (effectId : LifecycleKey)
    (executorId : Text) (leaseEpoch : ℕ) : Outcome (Option LifecycleEffect) :=
  let ended := Ledger.markApplied s.effects effectId executorId leaseEpoch now
  .commit { s with effects := ended.1 } ended.2

/-- `retry_lifecycle_effect`. -/
def retryLifecycleEffect (s : Store) (now : Time) (effectId : LifecycleKey) (executorId : Text)
    (leaseEpoch : ℕ) (errorCode : String) (retryDelay : ℤ) : Outcome (Option LifecycleEffect) :=
  if !lifecycleEffectErrorCodes.contains errorCode then
    .raise s (.valueError "Lifecycle effect failures require a safe error code")
  else
    let ended := Ledger.retry s.effects effectId executorId leaseEpoch
      (retryTime now retryDelay) errorCode now
    .commit { s with effects := ended.1 } ended.2

/-! ## Grant revocations -/

/-- `enqueue_capability_grant_revocation`. A row of the same grant and container generation makes it
ignore the insertion. -/
def enqueueCapabilityGrantRevocation (s : Store) (now : Time) (binding : RevocationBinding) :
    Outcome Revocation :=
  let key := binding.normalized
  if !key.exact then
    .raise s (.valueError "Capability revocation requires an exact binding")
  else
    match s.revocations.get? key with
    | some r => .commit s r
    | none =>
      if s.revocations.any fun _ r => r.binding.grantId == key.grantId &&
          r.binding.projection.generationId == key.projection.generationId then
        .raise s (.runtimeError "Capability revocation persistence failed")
      else if (s.workers.get? key.workerId).isNone || (s.runs.get? key.runId).isNone then
        .raise s (.integrity "capability_grant_revocations")
      else
        let row : Revocation :=
          { binding := key, status := .armed, createdAt := now, updatedAt := now }
        .commit { s with revocations := Ledger.enqueue s.revocations key row } row

/-- `activate_capability_grant_revocation`. -/
def activateCapabilityGrantRevocation (s : Store) (now : Time) (revocationId : RevocationBinding) :
    Outcome (Option Revocation) :=
  let revocations := Ledger.activate s.revocations (fun k _ => k == revocationId) now
  .commit { s with revocations := revocations } (revocations.get? revocationId)

/-- `activate_due_capability_grant_revocations`. -/
def activateDueCapabilityGrantRevocations (s : Store) (now : Time) : Outcome ℕ :=
  let due : RevocationBinding → Revocation → Bool := fun _ r =>
    !(s.leases.any fun _ l => l.runId == r.binding.runId && l.status == .active)
  .commit { s with revocations := Ledger.activate s.revocations due now }
    (s.revocations.select fun k r => due k r && r.status == .armed).length

/-- `claim_next_capability_grant_revocation`. -/
def claimNextCapabilityGrantRevocation (s : Store) (order : DigestOrder) (now : Time)
    (executorId : Text) (ttl : ℤ) (createdBefore : Option Time)
    (revocationId : Option RevocationBinding) : Outcome (Option (RevocationBinding × Revocation)) :=
  let owner := Text.strip executorId
  if owner.isEmpty then
    .raise s (.valueError "Capability revocation claims require an executor")
  else
    let claim := Ledger.claimNext s.revocations
      (fun k r => createdBefore.all (fun t => r.createdAt ≤ t) &&
        revocationId.all fun id => k == id)
      order.revocation owner (claimExpiry now ttl) now
    .commit { s with revocations := claim.1 } claim.2

/-- `mark_capability_grant_revocation_applied`. -/
def markCapabilityGrantRevocationApplied (s : Store) (now : Time)
    (revocationId : RevocationBinding) (executorId : Text) (leaseEpoch : ℕ) :
    Outcome (Option Revocation) :=
  let ended := Ledger.markApplied s.revocations revocationId executorId leaseEpoch now
  .commit { s with revocations := ended.1 } ended.2

/-- `retry_capability_grant_revocation`. -/
def retryCapabilityGrantRevocation (s : Store) (now : Time) (revocationId : RevocationBinding)
    (executorId : Text) (leaseEpoch : ℕ) (errorCode : String) (retryDelay : ℤ) :
    Outcome (Option Revocation) :=
  if !revocationErrorCodes.contains errorCode then
    .raise s (.valueError "Capability revocation failures require a safe error code")
  else
    let ended := Ledger.retry s.revocations revocationId executorId leaseEpoch
      (retryTime now retryDelay) errorCode now
    .commit { s with revocations := ended.1 } ended.2

end Store

/-! ## Executors -/

/-- A transaction elsewhere. It keeps the rows of both ledgers and may enqueue new ones. -/
structure LedgerEnvironment where
  apply : Store → Store
  effects : ∀ s k r, s.effects.get? k = some r → (apply s).effects.get? k = some r
  revocations : ∀ s k r, s.revocations.get? k = some r → (apply s).revocations.get? k = some r

/-- A transaction on one of the ledgers, or another. -/
inductive LedgerOp
  | enqueueEffects (key : LifecycleKey) (effectKinds : List String)
  | claimEffect (executorId : Text) (ttl : ℤ) (effectKinds : List String)
      (createdBefore : Option Time)
  | applyEffect (effectId : LifecycleKey) (executorId : Text) (leaseEpoch : ℕ)
  | retryEffect (effectId : LifecycleKey) (executorId : Text) (leaseEpoch : ℕ) (errorCode : String)
      (retryDelay : ℤ)
  | enqueueRevocation (binding : RevocationBinding)
  | activateRevocation (revocationId : RevocationBinding)
  | activateDueRevocations
  | claimRevocation (executorId : Text) (ttl : ℤ) (createdBefore : Option Time)
      (revocationId : Option RevocationBinding)
  | applyRevocation (revocationId : RevocationBinding) (executorId : Text) (leaseEpoch : ℕ)
  | retryRevocation (revocationId : RevocationBinding) (executorId : Text) (leaseEpoch : ℕ)
      (errorCode : String) (retryDelay : ℤ)
  | elsewhere (e : LedgerEnvironment)

/-- A transaction and the time that passes before it. -/
structure LedgerStep where
  elapsed : ℕ
  op : LedgerOp

/-- The store under a clock that never goes back, with the claims on both ledgers. -/
structure LedgerState where
  clock : Time
  store : Store
  effects : LedgerLog LifecycleKey := {}
  revocations : LedgerLog RevocationBinding := {}

namespace LedgerOp

/-- The operation settles or reschedules an effect under a claim. -/
def FinishesEffect (op : LedgerOp) (k : LifecycleKey) (owner : Text) (epoch : ℕ) : Prop :=
  op = .applyEffect k owner epoch ∨ ∃ code delay, op = .retryEffect k owner epoch code delay

/-- The operation settles or reschedules a revocation under a claim. -/
def FinishesRevocation (op : LedgerOp) (k : RevocationBinding) (owner : Text) (epoch : ℕ) : Prop :=
  op = .applyRevocation k owner epoch ∨ ∃ code delay, op = .retryRevocation k owner epoch code delay

/-- The operation activates a revocation: explicitly, or while its run has no active lease. -/
def Activates (op : LedgerOp) (s : Store) (k : RevocationBinding) (r : Revocation) : Prop :=
  op = .activateRevocation k ∨ op = .activateDueRevocations ∧
    ∀ id l, s.leases.get? id = some l → l.runId = r.binding.runId → l.status ≠ .active

end LedgerOp

namespace LedgerState

/-- One transaction at a time, with the claims that it grants and ends. -/
def step (order : DigestOrder) (s : LedgerState) (i : LedgerStep) : LedgerState :=
  let now := s.clock + i.elapsed
  match i.op with
  | .enqueueEffects key effectKinds =>
    { s with clock := now, store := (s.store.enqueueNamedEffects now key effectKinds).store }
  | .claimEffect executorId ttl effectKinds createdBefore =>
    let o := s.store.claimNextLifecycleEffect order now executorId ttl effectKinds createdBefore
    { s with
      clock := now
      store := o.store
      effects := s.effects.granted (Text.strip executorId) (claimExpiry now ttl) o.value? }
  | .applyEffect effectId executorId leaseEpoch =>
    let o := s.store.markLifecycleEffectApplied now effectId executorId leaseEpoch
    { s with
      clock := now
      store := o.store
      effects := s.effects.finished effectId executorId leaseEpoch o.value? }
  | .retryEffect effectId executorId leaseEpoch errorCode retryDelay =>
    let o := s.store.retryLifecycleEffect now effectId executorId leaseEpoch errorCode retryDelay
    { s with
      clock := now
      store := o.store
      effects := s.effects.finished effectId executorId leaseEpoch o.value? }
  | .enqueueRevocation binding =>
    { s with clock := now, store := (s.store.enqueueCapabilityGrantRevocation now binding).store }
  | .activateRevocation revocationId =>
    { s with
      clock := now
      store := (s.store.activateCapabilityGrantRevocation now revocationId).store }
  | .activateDueRevocations =>
    { s with clock := now, store := (s.store.activateDueCapabilityGrantRevocations now).store }
  | .claimRevocation executorId ttl createdBefore revocationId =>
    let o := s.store.claimNextCapabilityGrantRevocation order now executorId ttl createdBefore
      revocationId
    { s with
      clock := now
      store := o.store
      revocations := s.revocations.granted (Text.strip executorId) (claimExpiry now ttl) o.value? }
  | .applyRevocation revocationId executorId leaseEpoch =>
    let o := s.store.markCapabilityGrantRevocationApplied now revocationId executorId leaseEpoch
    { s with
      clock := now
      store := o.store
      revocations := s.revocations.finished revocationId executorId leaseEpoch o.value? }
  | .retryRevocation revocationId executorId leaseEpoch errorCode retryDelay =>
    let o := s.store.retryCapabilityGrantRevocation now revocationId executorId leaseEpoch errorCode
      retryDelay
    { s with
      clock := now
      store := o.store
      revocations := s.revocations.finished revocationId executorId leaseEpoch o.value? }
  | .elsewhere e => { s with clock := now, store := e.apply s.store }

/-- Both ledgers agree with the claims on them. -/
structure Agrees (s : LedgerState) : Prop where
  effects : s.effects.Agrees s.store.effects s.clock
  revocations : s.revocations.Agrees s.store.revocations s.clock

/-- A transaction moves the rows of both ledgers as the discipline allows. -/
structure Moves (s : LedgerState) (i : LedgerStep) (s' : LedgerState) : Prop where
  effects : LedgerMoves i.op.FinishesEffect (fun _ _ => False) s.store.effects s'.store.effects
  revocations : LedgerMoves i.op.FinishesRevocation (i.op.Activates s.store) s.store.revocations
    s'.store.revocations

end LedgerState

namespace Store

variable {s : Store} {now : Time} {key k : LifecycleKey} {effectKinds : List String}
  {r : LifecycleEffect} {binding : RevocationBinding}

/-! ## What a transaction does to the rows -/

/-- Enqueued effects leave the rows that are there. -/
theorem get?_enqueueLifecycleEffects (hr : s.effects.get? k = some r) :
    (s.enqueueLifecycleEffects now key effectKinds).effects.get? k = some r := by
  have hfold : ∀ (names : List String) (t : Ledger LifecycleKey EffectBinding),
      t.get? k = some r → (names.foldl (fun t name => Ledger.enqueue t { key with name := name }
        { binding := ⟨key.workerId, key.runId⟩, status := .pending, createdAt := now,
          updatedAt := now }) t).get? k = some r := by
    intro names
    induction names with
    | nil => exact fun _ h => h
    | cons name names ih => exact fun t h => ih _ (Ledger.get?_enqueue h)
  exact hfold effectKinds s.effects hr

theorem enqueueNamedEffects_kept (hr : s.effects.get? k = some r) :
    (s.enqueueNamedEffects now key effectKinds).store.effects.get? k = some r := by
  unfold enqueueNamedEffects
  split
  · exact hr
  · exact get?_enqueueLifecycleEffects hr

theorem enqueueNamedEffects_revocations :
    (s.enqueueNamedEffects now key effectKinds).store.revocations = s.revocations := by
  unfold enqueueNamedEffects
  split <;> rfl

/-- An enqueued revocation leaves the rows that are there. -/
theorem enqueueCapabilityGrantRevocation_kept {k : RevocationBinding} {r : Revocation}
    (hr : s.revocations.get? k = some r) :
    (s.enqueueCapabilityGrantRevocation now binding).store.revocations.get? k = some r := by
  unfold enqueueCapabilityGrantRevocation
  dsimp only
  split
  · exact hr
  · split
    · exact hr
    · split
      · exact hr
      · split
        · exact hr
        · exact Ledger.get?_enqueue hr

theorem enqueueCapabilityGrantRevocation_effects :
    (s.enqueueCapabilityGrantRevocation now binding).store.effects = s.effects := by
  unfold enqueueCapabilityGrantRevocation
  dsimp only
  split
  · rfl
  · split
    · rfl
    · split
      · rfl
      · split <;> rfl

end Store

namespace LedgerState

variable {order : DigestOrder} {s : LedgerState}

/-- One step keeps both ledgers in agreement with the claims on them. -/
theorem Agrees.step (h : s.Agrees) (i : LedgerStep) : (s.step order i).Agrees := by
  obtain ⟨elapsed, op⟩ := i
  have hle : s.clock ≤ s.clock + elapsed := Nat.le_add_right _ _
  have heffects := h.effects.advance hle
  have hrevocations := h.revocations.advance hle
  cases op with
  | enqueueEffects =>
    constructor
    · exact heffects.of_kept fun _ r hr => ⟨r, Store.enqueueNamedEffects_kept hr, rfl, fun _ => rfl⟩
    · simpa only [LedgerState.step, Store.enqueueNamedEffects_revocations] using hrevocations
  | claimEffect =>
    unfold LedgerState.step Store.claimNextLifecycleEffect
    dsimp only
    split
    · exact ⟨heffects, hrevocations⟩
    · exact ⟨heffects.claimNext _ _ _ _, hrevocations⟩
  | applyEffect effectId executorId leaseEpoch =>
    exact ⟨heffects.finish effectId executorId leaseEpoch fun _ => rfl, hrevocations⟩
  | retryEffect effectId executorId leaseEpoch =>
    unfold LedgerState.step Store.retryLifecycleEffect
    dsimp only
    split
    · exact ⟨heffects, hrevocations⟩
    · exact ⟨heffects.finish effectId executorId leaseEpoch fun _ => rfl, hrevocations⟩
  | enqueueRevocation =>
    constructor
    · simpa only [LedgerState.step, Store.enqueueCapabilityGrantRevocation_effects] using heffects
    · exact hrevocations.of_kept fun _ r hr =>
        ⟨r, Store.enqueueCapabilityGrantRevocation_kept hr, rfl, fun _ => rfl⟩
  | activateRevocation revocationId =>
    exact ⟨heffects, hrevocations.activate (fun k _ => k == revocationId) (s.clock + elapsed)⟩
  | activateDueRevocations =>
    exact ⟨heffects, hrevocations.activate (fun _ r => !(s.store.leases.any fun _ l =>
      l.runId == r.binding.runId && l.status == .active)) (s.clock + elapsed)⟩
  | claimRevocation =>
    unfold LedgerState.step Store.claimNextCapabilityGrantRevocation
    dsimp only
    split
    · exact ⟨heffects, hrevocations⟩
    · exact ⟨heffects, hrevocations.claimNext _ _ _ _⟩
  | applyRevocation revocationId executorId leaseEpoch =>
    exact ⟨heffects, hrevocations.finish revocationId executorId leaseEpoch fun _ => rfl⟩
  | retryRevocation revocationId executorId leaseEpoch =>
    unfold LedgerState.step Store.retryCapabilityGrantRevocation
    dsimp only
    split
    · exact ⟨heffects, hrevocations⟩
    · exact ⟨heffects, hrevocations.finish revocationId executorId leaseEpoch fun _ => rfl⟩
  | elsewhere e =>
    exact ⟨heffects.of_kept fun k r hr => ⟨r, e.effects s.store k r hr, rfl, fun _ => rfl⟩,
      hrevocations.of_kept fun k r hr => ⟨r, e.revocations s.store k r hr, rfl, fun _ => rfl⟩⟩

/-- A ledger that keeps its rows. -/
theorem moves_of_kept {κ β : Type} [DecidableEq κ] {t t' : Ledger κ β}
    {finishes : κ → Text → ℕ → Prop} {activates : κ → LedgerRow β → Prop}
    (h : ∀ k r, t.get? k = some r → t'.get? k = some r) : LedgerMoves finishes activates t t' :=
  fun k r hr => ⟨r, h k r hr, LedgerRow.moves_refl r⟩

/-- One step moves the rows of both ledgers as the discipline allows. -/
theorem moves_step (s : LedgerState) (i : LedgerStep) : s.Moves i (s.step order i) := by
  obtain ⟨elapsed, op⟩ := i
  have hkept : ∀ {κ β : Type} [DecidableEq κ] {t : Ledger κ β} {finishes : κ → Text → ℕ → Prop}
      {activates : κ → LedgerRow β → Prop}, LedgerMoves finishes activates t t :=
    Ledger.moves_of_eq rfl
  cases op with
  | enqueueEffects =>
    constructor
    · exact moves_of_kept fun _ _ hr => Store.enqueueNamedEffects_kept hr
    · exact Ledger.moves_of_eq Store.enqueueNamedEffects_revocations
  | claimEffect =>
    unfold LedgerState.step Store.claimNextLifecycleEffect
    dsimp only
    split
    · exact ⟨hkept, hkept⟩
    · refine ⟨Ledger.moves_claimNext _ _ _ ?_, hkept⟩
      simp [LedgerOp.FinishesEffect]
  | applyEffect =>
    refine ⟨Ledger.moves_finish (fun _ => rfl) (by simp) (Or.inl rfl) ?_, hkept⟩
    rintro k owner epoch (hop | ⟨_, _, hop⟩)
    · cases hop
      exact ⟨rfl, rfl, rfl⟩
    · cases hop
  | retryEffect =>
    unfold LedgerState.step Store.retryLifecycleEffect
    dsimp only
    split
    · exact ⟨hkept, hkept⟩
    · refine ⟨Ledger.moves_finish (fun _ => rfl) (by simp) (Or.inr ⟨_, _, rfl⟩) ?_, hkept⟩
      rintro k owner epoch (hop | ⟨_, _, hop⟩)
      · cases hop
      · cases hop
        exact ⟨rfl, rfl, rfl⟩
  | enqueueRevocation =>
    constructor
    · exact Ledger.moves_of_eq Store.enqueueCapabilityGrantRevocation_effects
    · exact moves_of_kept fun _ _ hr => Store.enqueueCapabilityGrantRevocation_kept hr
  | activateRevocation =>
    refine ⟨hkept, Ledger.moves_activate ?_ ?_⟩
    · intro k r hk
      rw [beq_iff_eq] at hk
      exact Or.inl (by rw [hk])
    · simp [LedgerOp.FinishesRevocation]
  | activateDueRevocations =>
    refine ⟨hkept, Ledger.moves_activate ?_ ?_⟩
    · intro k r hdue
      refine Or.inr ⟨rfl, fun id l hl hrun hactive => ?_⟩
      rw [Bool.not_eq_true', Table.any_eq_false] at hdue
      simpa [hrun, hactive] using hdue id l hl
    · simp [LedgerOp.FinishesRevocation]
  | claimRevocation =>
    unfold LedgerState.step Store.claimNextCapabilityGrantRevocation
    dsimp only
    split
    · exact ⟨hkept, hkept⟩
    · refine ⟨hkept, Ledger.moves_claimNext _ _ _ ?_⟩
      simp [LedgerOp.FinishesRevocation]
  | applyRevocation =>
    refine ⟨hkept, Ledger.moves_finish (fun _ => rfl) (by simp) (Or.inl rfl) ?_⟩
    rintro k owner epoch (hop | ⟨_, _, hop⟩)
    · cases hop
      exact ⟨rfl, rfl, rfl⟩
    · cases hop
  | retryRevocation =>
    unfold LedgerState.step Store.retryCapabilityGrantRevocation
    dsimp only
    split
    · exact ⟨hkept, hkept⟩
    · refine ⟨hkept, Ledger.moves_finish (fun _ => rfl) (by simp) (Or.inr ⟨_, _, rfl⟩) ?_⟩
      rintro k owner epoch (hop | ⟨_, _, hop⟩)
      · cases hop
      · cases hop
        exact ⟨rfl, rfl, rfl⟩
  | elsewhere e => exact ⟨moves_of_kept (e.effects s.store), moves_of_kept (e.revocations s.store)⟩

end LedgerState

/-- Both ledgers are leased exactly in every run. In every state it visits the epochs of the claims
on a row increase and at most one of them is open and not expired. In every step a row is settled or
rescheduled only under its current claim, an applied row stays as it is, no row goes back to being
armed, and an armed revocation leaves that state only by its activation or while its run has no
active lease. -/
theorem ledgers_leased_exactly (order : DigestOrder) (clock : Time) (store : Store)
    (is : List LedgerStep) :
    (∀ pre, pre <+: is →
      let s := run (LedgerState.step order) ⟨clock, store, {}, {}⟩ pre
      s.effects.Exact s.clock ∧ s.revocations.Exact s.clock) ∧
    Along (LedgerState.step order) (fun s i => s.Moves i (s.step order i)) ⟨clock, store, {}, {}⟩
      is := by
  have hinit : (⟨clock, store, {}, {}⟩ : LedgerState).Agrees :=
    ⟨LedgerLog.agrees_empty, LedgerLog.agrees_empty⟩
  have hstep : ∀ (s : LedgerState) (i : LedgerStep), s.Agrees → True → (s.step order i).Agrees :=
    fun _ i h _ => h.step i
  constructor
  · intro pre hpre
    have hagrees := invariant_prefix hstep hinit
      (along_of_forall _ (fun _ _ => trivial) _ is) hpre
    exact ⟨hagrees.effects.exact, hagrees.revocations.exact⟩
  · exact along_of_forall _ (fun s i => LedgerState.moves_step s i) _ is

end GlassHive
