import GlassHive.RunMoves

/-!
# What a transaction can do to a lease

Only `acquire_host_run_lease` makes a lease active. Every other transaction keeps who a lease was
granted to and at most ends it, lets a holder extend it, or hands it to a run that it creates. And
a transaction that finishes a run releases its leases: the update trigger does it for every way a
run can become terminal.
-/

namespace GlassHive

open Relational

/-- The columns of a lease that only an acquisition sets. -/
structure Lease.Keeps (l l' : Lease) : Prop where
  runtimeFamily : l'.runtimeFamily = l.runtimeFamily
  lane : l'.lane = l.lane
  tenantId : l'.tenantId = l.tenantId
  ownerId : l'.ownerId = l.ownerId
  workerId : l'.workerId = l.workerId
  mutationScope : l'.mutationScope = l.mutationScope
  reserved : l'.reserved = l.reserved

namespace Lease.Keeps

variable {l l' l'' : Lease}

theorem refl : l.Keeps l :=
  ⟨rfl, rfl, rfl, rfl, rfl, rfl, rfl⟩

theorem trans (h : l.Keeps l') (h' : l'.Keeps l'') : l.Keeps l'' :=
  ⟨h'.1.trans h.1, h'.2.trans h.2, h'.3.trans h.3, h'.4.trans h.4, h'.5.trans h.5,
    h'.6.trans h.6, h'.7.trans h.7⟩

end Lease.Keeps

/-- A lease goes on or ends. Only the lease `E` may be extended, while it is active, and only to the
run `M` may a lease be handed. -/
structure Lease.Follows (E : Option LeaseId) (M : Option RunId) (id : LeaseId) (l l' : Lease) :
    Prop where
  keeps : l.Keeps l'
  active : l'.status = .active → l.status = .active
  expiresAt : l'.expiresAt = l.expiresAt ∨ (E = some id ∧ l.status = .active)
  runId : l'.runId = l.runId ∨ M = some l'.runId

/-- Leases follow, and an active lease of a terminal run was one before. -/
structure LeaseFrame (E : Option LeaseId) (M : Option RunId) (runs : Table RunId Run)
    (leases : Table LeaseId Lease) (runs' : Table RunId Run) (leases' : Table LeaseId Lease) :
    Prop where
  follows : leases.Evolves (Lease.Follows E M) (fun _ _ => False) leases'
  ended : ∀ id l' r', leases'.get? id = some l' → l'.status = .active →
    runs'.get? l'.runId = some r' → r'.state ∈ RunState.terminal →
    ∃ l r, leases.get? id = some l ∧ l.status = .active ∧ runs.get? l.runId = some r ∧
      r.state ∈ RunState.terminal

/-! ## Rules -/

section Rules

variable {E : Option LeaseId} {M : Option RunId} {id : LeaseId} {l l' l'' : Lease}
  {runs runs₁ runs₂ : Table RunId Run} {leases leases₁ leases₂ : Table LeaseId Lease} {now : Time}

theorem Lease.follows_refl : l.Follows E M id l :=
  ⟨.refl, fun h => h, Or.inl rfl, Or.inl rfl⟩

theorem Lease.Follows.trans (h : l.Follows E M id l') (h' : l'.Follows E none id l'') :
    l.Follows E M id l'' where
  keeps := h.keeps.trans h'.keeps
  active := fun ha => h.active (h'.active ha)
  expiresAt := by
    rcases h'.expiresAt with he | ⟨he, ha⟩
    · exact he ▸ h.expiresAt
    · exact Or.inr ⟨he, h.active ha⟩
  runId := by
    rcases h'.runId with hr | hr
    · exact hr ▸ h.runId
    · cases hr

theorem Lease.follows_release {reason : String} : l.Follows E M id (l.release now reason) :=
  ⟨⟨rfl, rfl, rfl, rfl, rfl, rfl, rfl⟩, fun h => LeaseStatus.noConfusion h, Or.inl rfl, Or.inl rfl⟩

variable {old new : Table RunId Run}

/-- The trigger releases a lease or leaves it alone. -/
theorem Lease.follows_fencedBy :
    l.Follows E M id (l.fencedBy now old new) := by
  rw [Lease.fencedBy]
  split
  · rw [Lease.fenced]
    split
    · exact ⟨⟨rfl, rfl, rfl, rfl, rfl, rfl, rfl⟩, fun h => LeaseStatus.noConfusion h, Or.inl rfl, Or.inl rfl⟩
    · exact follows_refl
  · exact follows_refl

@[simp]
theorem Lease.fencedBy_runId :
    (l.fencedBy now old new).runId = l.runId := by
  rw [Lease.fencedBy]
  split
  · rw [Lease.fenced]
    split <;> rfl
  · rfl

/-- A lease that the trigger leaves active is not one of a run that just became terminal. -/
theorem Lease.terminalFence_of_fencedBy {r r' : Run} (h : (l.fencedBy now old new).status = .active)
    (hr : old.get? l.runId = some r) (hr' : new.get? l.runId = some r') :
    terminalFence r r' = false := by
  rw [Lease.fencedBy, hr, hr'] at h
  simp only [Lease.fenced] at h
  split at h
  · cases h
  · rename_i hno
    cases hfence : terminalFence r r' with
    | false => rfl
    | true =>
      rw [hfence, Bool.true_and, beq_iff_eq] at hno
      exact absurd h hno

namespace LeaseFrame

theorem refl : LeaseFrame E M runs leases runs leases where
  follows := Table.evolves_refl fun _ _ => Lease.follows_refl
  ended := fun _ l' r' hl' hactive hr' hterminal => ⟨l', r', hl', hactive, hr', hterminal⟩

theorem trans (h : LeaseFrame E M runs leases runs₁ leases₁)
    (h' : LeaseFrame E none runs₁ leases₁ runs₂ leases₂) :
    LeaseFrame E M runs leases runs₂ leases₂ where
  follows := by
    intro id l'' hl''
    rcases h'.follows id l'' hl'' with ⟨_, hnew⟩ | ⟨l', hl', hfollows'⟩
    · exact hnew.elim
    rcases h.follows id l' hl' with ⟨_, hnew⟩ | ⟨l, hl, hfollows⟩
    · exact hnew.elim
    · exact Or.inr ⟨l, hl, hfollows.trans hfollows'⟩
  ended := by
    intro id l'' r'' hl'' hactive hr'' hterminal
    obtain ⟨l', r', hl', hactive', hr', hterminal'⟩ :=
      h'.ended id l'' r'' hl'' hactive hr'' hterminal
    exact h.ended id l' r' hl' hactive' hr' hterminal'

/-- `UPDATE host_run_leases`. -/
theorem rewrite {p : LeaseId → Lease → Bool} {f : Lease → Lease}
    (h : LeaseFrame E M runs leases runs₁ leases₁)
    (hf : ∀ id l, p id l = true → l.Follows E none id (f l)) :
    LeaseFrame E M runs leases runs₁ (leases₁.update p fun _ => f) := by
  refine h.trans ⟨Table.evolves_update (fun _ _ => Lease.follows_refl) fun id l _ hp =>
    hf id l hp, ?_⟩
  intro id l' r' hl' hactive hr' hterminal
  obtain ⟨l, hl, rfl⟩ := Table.get?_update_eq_some.mp hl'
  have hfollows : l.Follows E none id (if p id l then f l else l) := by
    split
    · exact hf id l ‹_›
    · exact Lease.follows_refl
  rcases hfollows.runId with hrun | hrun
  · exact ⟨l, r', hl, hfollows.active hactive, hrun ▸ hr', hterminal⟩
  · cases hrun

variable {p : RunId → Run → Bool}

/-- `UPDATE runs` with its trigger. -/
theorem fence {f : Run → Run} (h : LeaseFrame E M runs leases runs₁ leases₁) :
    LeaseFrame E M runs leases (runs₁.update p fun _ r => Run.triggered now r (f r))
      (leases₁.update (fun _ _ => true) fun _ l =>
        l.fencedBy now runs₁ (runs₁.update p fun _ => f)) := by
  refine h.trans ⟨?_, ?_⟩
  · exact Table.evolves_update (fun _ _ => Lease.follows_refl) fun _ _ _ _ =>
      Lease.follows_fencedBy
  · intro id l' r' hl' hactive hr' hterminal
    obtain ⟨l, hl, rfl⟩ := Table.get?_update_eq_some.mp hl'
    obtain ⟨r, hr, rfl⟩ := Table.get?_update_eq_some.mp hr'
    simp only [if_true, Lease.fencedBy_runId] at hactive hr hterminal
    have hfollows : l.Follows E M id (l.fencedBy now runs₁ (runs₁.update p fun _ => f)) :=
      Lease.follows_fencedBy
    refine ⟨l, r, hl, hfollows.active hactive, hr, ?_⟩
    split at hterminal
    · -- the trigger of this update would have released the lease
      rename_i hp
      have hset : (runs₁.update p fun _ => f).get? l.runId = some (f r) := by
        rw [Table.get?_update, hr, Option.map_some, if_pos hp]
      have hfence := Lease.terminalFence_of_fencedBy hactive hr hset
      rw [Run.triggered_state] at hterminal
      simpa [terminalFence, hterminal] using hfence
    · exact hterminal

/-- `INSERT INTO runs` of a run that has not ended. -/
theorem insert {runId : RunId} {r : Run} (h : LeaseFrame E M runs leases runs₁ leases₁)
    (hins : runs₁.insert? runId r = some runs₂) (hlive : r.state ∉ RunState.terminal) :
    LeaseFrame E M runs leases runs₂ leases₁ := by
  refine h.trans ⟨Table.evolves_refl fun _ _ => Lease.follows_refl, ?_⟩
  intro _ l' r' hl' hactive hr' hterminal
  rw [Table.get?_insert hins] at hr'
  split at hr'
  · obtain rfl := Option.some.inj hr'
    exact absurd hterminal hlive
  · exact ⟨l', r', hl', hactive, hr', hterminal⟩

/-- `DELETE FROM runs`. -/
theorem delete (h : LeaseFrame E M runs leases runs₁ leases₁) :
    LeaseFrame E M runs leases (runs₁.delete p) leases₁ := by
  refine h.trans ⟨Table.evolves_refl fun _ _ => Lease.follows_refl, ?_⟩
  intro _ l' r' hl' hactive hr' hterminal
  exact ⟨l', r', hl', hactive, (Table.get?_delete_eq_some.mp hr').1, hterminal⟩

end LeaseFrame

end Rules

/-- The run that a transaction may hand a lease to. -/
def RunOp.handedTo : RunOp → Option RunId
  | .replaceQueuedRunIdempotently _ replacement _ _ _ => some replacement
  | _ => none

/-- The run that a transaction may hand a lease to. -/
def Op.handedTo : Op → Option RunId
  | .run op => op.handedTo
  | _ => none

namespace Store

/-- The leases of a store follow those of another. -/
def LeasesFollow (s s' : Store) (E : Option LeaseId) (M : Option RunId) : Prop :=
  LeaseFrame E M s.runs s.leases s'.runs s'.leases

section Follow

variable {s s₁ s₂ : Store} {E : Option LeaseId} {M : Option RunId} {now : Time}
  {p : LeaseId → Lease → Bool} {reason : String} {runId : RunId} {r : Run}

theorem leasesFollow_refl : s.LeasesFollow s E M :=
  LeaseFrame.refl

theorem leasesFollow_of_eq (hruns : s₁.runs = s.runs) (hleases : s₁.leases = s.leases) :
    s.LeasesFollow s₁ E M := by
  rw [LeasesFollow, hruns, hleases]
  exact .refl

theorem LeasesFollow.trans (h : s.LeasesFollow s₁ E M) (h' : s₁.LeasesFollow s₂ E none) :
    s.LeasesFollow s₂ E M :=
  LeaseFrame.trans h h'

theorem leasesFollow_updateRuns {p : RunId → Run → Bool} {f : Run → Run} :
    s.LeasesFollow (s.updateRuns now p f) E M := by
  rw [LeasesFollow, updateRuns_runs, updateRuns_leases]
  exact .fence .refl

theorem leasesFollow_updateLeases {f : Lease → Lease}
    (hf : ∀ id l, p id l = true → l.Follows E none id (f l)) :
    s.LeasesFollow (s.updateLeases p f) E M := by
  rw [LeasesFollow, updateLeases_runs, updateLeases_leases]
  exact .rewrite .refl hf

theorem leasesFollow_release : s.LeasesFollow (s.updateLeases p (Lease.release now reason)) E M :=
  leasesFollow_updateLeases fun _ _ _ => Lease.follows_release

theorem leasesFollow_insertRun? (h : s.insertRun? runId r = some s₁)
    (hlive : r.state ∉ RunState.terminal) : s.LeasesFollow s₁ E M := by
  obtain ⟨runs, hrows, rfl⟩ := insertRun?_eq_some h
  exact LeaseFrame.insert .refl hrows hlive

theorem leasesFollow_downgradeUnprovenRunning :
    s.LeasesFollow (s.downgradeUnprovenRunning runId r now reason) E M := by
  simp only [LeasesFollow, downgradeUnprovenRunning, updateWorkers_runs, updateWorkers_leases,
    updateRuns_runs, updateRuns_leases, updateLeases_runs, updateLeases_leases,
    appendAttemptTraces_runs, appendAttemptTraces_leases, updateAttempts_runs,
    updateAttempts_leases]
  exact .fence (.rewrite .refl fun _ _ _ => Lease.follows_release)

end Follow

/-! ## Each family of transactions -/

section Families

variable {s s₁ : Store} {E : Option LeaseId} {M : Option RunId} {now : Time}

theorem leasesFollow_of_executions (h : s₁.executions = s.executions) : s.LeasesFollow s₁ E M :=
  leasesFollow_of_eq (congrArg Prod.fst h) (congrArg (fun t => t.2.2) h)

theorem applyGc_leasesFollow {op : GcOp} : s.LeasesFollow (s.applyGc now op) E M := by
  obtain ⟨runs, h, rfl | ⟨p, rfl⟩⟩ := executions_applyGc s now op
  · exact leasesFollow_of_executions h
  · have hruns : (s.applyGc now op).runs = s.runs.delete p := congrArg Prod.fst h
    have hleases : (s.applyGc now op).leases = s.leases := congrArg (fun t => t.2.2) h
    rw [LeasesFollow, hruns, hleases]
    exact .delete .refl

theorem applySchedule_leasesFollow {op : ScheduleOp} :
    s.LeasesFollow (s.applySchedule now op) E M := by
  rcases applySchedule_store s now op with ⟨_, _, _, rfl⟩ | ⟨_, _, _, _, _, -, h⟩
  · rw [applySchedule, setSchedulePrincipalAuthority]
    split
    · exact leasesFollow_of_eq rfl rfl
    · simp [LeasesFollow]
      exact .fence .refl
  · rw [h]
    exact leasesFollow_of_eq rfl rfl

/-- A new run has not ended. -/
theorem queued_notMem_terminal : RunState.queued ∉ RunState.terminal := by
  decide

variable {s' s₀ : Store} {runId : RunId} {workerId : WorkerId} {r : Run} {errorText : String}
  {w : Worker}

theorem reconcileInvalidRunningRuns_leasesFollow :
    s.LeasesFollow (s.reconcileInvalidRunningRuns now).store E M := by
  exact reconcileInvalidRunningRuns_keeps (P := fun s' => s.LeasesFollow s' E M) leasesFollow_refl
    fun _ _ _ h => h.trans leasesFollow_downgradeUnprovenRunning

theorem leasesFollow_finalizeLinkedScheduleForTerminalRun {state : RunState}
    (h : s.LeasesFollow s₀ E M) :
    s.LeasesFollow (s₀.finalizeLinkedScheduleForTerminalRun runId state errorText now) E M := by
  rw [finalizeLinkedScheduleForTerminalRun]
  split <;> exact h

/-- The lease goes from the cancelled source to the run that replaces it, which is queued. -/
theorem leasesFollow_replaceRun {source replacement : RunId} {tenantId : TenantId}
    {lease : Option (LeaseId × Lease)} (hins : s.insertRun? replacement r = some s₁)
    (hqueued : r.state = .queued) :
    s.LeasesFollow (s₁.replaceRun now source replacement workerId tenantId lease) E
      (some replacement) := by
  obtain ⟨runs, hrows, rfl⟩ := insertRun?_eq_some hins
  simp [LeasesFollow, replaceRun, touchLastRun]
  refine .fence ⟨?_, ?_⟩
  · exact Table.evolves_update (fun _ _ => Lease.follows_refl) fun _ _ _ _ =>
      ⟨⟨rfl, rfl, rfl, rfl, rfl, rfl, rfl⟩, fun h => h, Or.inl rfl, Or.inr rfl⟩
  · intro id l' r' hl' hactive hr' hterminal
    rw [Table.get?_insert hrows] at hr'
    split at hr'
    · obtain rfl := Option.some.inj hr'
      exact absurd hterminal (hqueued ▸ queued_notMem_terminal)
    rename_i hne
    obtain ⟨l, hl, rfl⟩ := Table.get?_update_eq_some.mp hl'
    split at hne
    · exact absurd rfl hne
    · rename_i hp
      rw [if_neg hp] at hactive hr'
      exact ⟨l, r', hl, hactive, hr', hterminal⟩

theorem RunStep.leasesFollow {op : RunOp} (h : s.RunStep now op s') :
    s.LeasesFollow s' E op.handedTo := by
  have hdraw : ∀ M : Option RunId, s.LeasesFollow s.drawId E M := fun _ =>
    leasesFollow_of_eq rfl rfl
  cases h with
  | unchanged => exact leasesFollow_refl
  | created hins | createdFenced hins =>
    exact ((hdraw _).trans (leasesFollow_insertRun? hins queued_notMem_terminal)).trans
      (leasesFollow_of_eq rfl rfl)
  | scheduled q _ _ hrun =>
    rcases hrun with rfl | ⟨s₀, hins, rfl⟩
    · exact leasesFollow_of_eq rfl rfl
    · exact (leasesFollow_insertRun? hins queued_notMem_terminal).trans (leasesFollow_of_eq rfl rfl)
  | reconciled => exact reconcileInvalidRunningRuns_leasesFollow
  | updated _ _ _ _ hs =>
    rcases hs with ⟨-, -, rfl⟩ | ⟨-, rfl⟩
    · exact leasesFollow_downgradeUnprovenRunning
    · rw [writeRun]
      split
      · exact leasesFollow_updateRuns.trans (leasesFollow_of_eq rfl rfl)
      · exact leasesFollow_updateRuns
  | @transitioned runId r expected state patch =>
    have hupdate : s.LeasesFollow
        (s.updateRuns now (fun id q => id == runId && q.state == expected)
          fun q => { (transitionPatch now state patch).apply q with state := state }) E
        (RunOp.handedTo (.transitionRunIfState runId expected state patch)) :=
      leasesFollow_updateRuns
    rw [transitionRun]
    split <;> split <;> exact hupdate.trans (leasesFollow_of_eq rfl rfl)
  | settled => exact leasesFollow_updateRuns
  | @finalizedActive a r =>
    rw [finalizeActive]
    have hupdate : s.LeasesFollow
        (s.updateRuns now (fun id q => id == a.runId && q.state == a.expectedState)
          (activeRow now a)) E (RunOp.handedTo (.finalizeRunIfStateParallel a)) :=
      leasesFollow_updateRuns
    split
    · rw [LeasesFollow, recordTerminalArtifactTraces_runs, recordTerminalArtifactTraces_leases]
      exact leasesFollow_finalizeLinkedScheduleForTerminalRun
        (hupdate.trans (leasesFollow_of_eq rfl rfl))
    · exact hupdate.trans (leasesFollow_of_eq rfl rfl)
  | finalizedInactive =>
    exact leasesFollow_finalizeLinkedScheduleForTerminalRun leasesFollow_updateRuns
  | cancelledPending =>
    rw [cancelPendingRuns]
    split
    · exact leasesFollow_refl
    · simp [LeasesFollow]
      exact .fence .refl
  | cancelledQueued => exact leasesFollow_updateRuns.trans (leasesFollow_of_eq rfl rfl)
  | @retried r a =>
    rw [retryRun]
    obtain ⟨_, _, h⟩ := recordRetryCapacity_eq
        (Store.appendAttemptTraces _ now r.activeAttemptId.toList) now a r
    rw [h]
    simp [LeasesFollow]
    exact .rewrite (.fence .refl) fun _ _ _ => Lease.follows_release
  | replaced _ hins => exact leasesFollow_replaceRun hins rfl
  | expired =>
    unfold expireRun
    split <;>
    · simp [LeasesFollow]
      exact .fence (.rewrite .refl fun _ _ _ => Lease.follows_release)

/-! ## Starts -/

theorem leasesFollow_publishStart {a : ConfirmStart} :
    s.LeasesFollow (s.publishStart now a r) E M := by
  rw [publishStart]
  split <;>
  · simp [LeasesFollow]
    exact .rewrite .refl fun _ _ _ =>
      ⟨⟨rfl, rfl, rfl, rfl, rfl, rfl, rfl⟩, fun h => h, Or.inl rfl, Or.inl rfl⟩

theorem leasesFollow_invokeGeneration {leaseId : LeaseId} {attemptId : AttemptId} {f : Run → Run} :
    s.LeasesFollow (s.invokeGeneration now runId r leaseId attemptId f) E M := by
  simp [LeasesFollow, invokeGeneration]
  exact .fence .refl

theorem leasesFollow_cancelUnauthorized {scheduleId : ScheduleId} :
    s.LeasesFollow (s.cancelUnauthorized now runId scheduleId) E M :=
  leasesFollow_updateRuns (p := fun id r => id == runId && r.state == .queued)
    (f := unauthorizedRow now)

theorem leasesFollow_sweepUnauthorized {require : Bool} {n : ℕ} {chosen : Option RunId}
    (h : sweepUnauthorized now workerId require n s = (s', chosen)) : s.LeasesFollow s' E none := by
  induction n generalizing s with
  | zero =>
    obtain ⟨rfl, -⟩ := Prod.mk.inj h
    exact leasesFollow_refl
  | succ n ih =>
    rw [sweepUnauthorized] at h
    split at h
    · obtain ⟨rfl, -⟩ := Prod.mk.inj h
      exact leasesFollow_refl
    split at h
    · exact leasesFollow_cancelUnauthorized.trans (ih h)
    · obtain ⟨rfl, -⟩ := Prod.mk.inj h
      exact leasesFollow_refl

/-- The lease that a start transaction may extend. -/
def extendedLease (s : Store) (now : Time) : StartOp → Option LeaseId
  | .claimNextQueuedRunParallel workerId executorId _ =>
    (s.claimable now workerId executorId).bind fun e => (s.claimLease workerId e.1).map Prod.fst
  | .heartbeatHostRunLease leaseId .. => some leaseId
  | _ => none

/-- No start transaction but an acquisition makes a lease active. -/
theorem StartStep.leasesFollow {op : StartOp} (h : s.StartStep now op s')
    (hop : ∀ a, op ≠ .acquireHostRunLease a) :
    s.LeasesFollow s' (s.extendedLease now op) none := by
  cases h with
  | unchanged => exact leasesFollow_refl
  | claimed _ hclaim =>
    simp [LeasesFollow, claimRun]
    refine .fence (.rewrite .refl fun id l hp => ?_)
    refine ⟨⟨rfl, rfl, rfl, rfl, rfl, rfl, rfl⟩, fun h => h, Or.inr ?_, Or.inl rfl⟩
    rw [Bool.and_eq_true, Option.any_eq_true] at hp
    obtain ⟨⟨e, he, hid⟩, hactive⟩ := hp
    refine ⟨?_, eq_of_beq hactive⟩
    rw [extendedLease, hclaim, Option.bind_some, he, Option.map_some, eq_of_beq hid]
  | swept _ hsweep => exact leasesFollow_sweepUnauthorized hsweep
  | claimedLegacy _ hsweep =>
    exact (leasesFollow_sweepUnauthorized hsweep).trans leasesFollow_updateRuns
  | acquired => exact absurd rfl (hop _)
  | heartbeat =>
    rw [heartbeatHostRunLease]
    simp [LeasesFollow]
    refine .rewrite .refl fun id l hp => ?_
    refine ⟨⟨rfl, rfl, rfl, rfl, rfl, rfl, rfl⟩, fun h => h, Or.inr ?_, Or.inl rfl⟩
    simp only [Bool.and_eq_true, beq_iff_eq] at hp
    exact ⟨by rw [extendedLease, hp.1.1.1.1], hp.1.1.1.2⟩
  | released => exact leasesFollow_release
  | lost | unproven => exact leasesFollow_downgradeUnprovenRunning
  | admitted =>
    simp [LeasesFollow, admitGeneration]
    exact .fence .refl
  | invoked => exact leasesFollow_invokeGeneration
  | confirmed => exact leasesFollow_invokeGeneration.trans leasesFollow_publishStart
  | confirmedRunning => exact leasesFollow_publishStart
  | unconfirmed =>
    exact leasesFollow_updateLeases fun _ _ _ =>
      ⟨⟨rfl, rfl, rfl, rfl, rfl, rfl, rfl⟩, fun h => h, Or.inl rfl, Or.inl rfl⟩
  | unconfirmedSettling =>
    simp [LeasesFollow, settleGeneration]
    exact .fence (.rewrite .refl fun _ _ _ =>
      ⟨⟨rfl, rfl, rfl, rfl, rfl, rfl, rfl⟩, fun h => h, Or.inl rfl, Or.inl rfl⟩)
  | requeued =>
    simp [LeasesFollow, requeueGeneration]
    exact .fence (.rewrite .refl fun _ _ _ => Lease.follows_release)

/-! ## Claims and requests -/

theorem leasesFollow_reserveReplacement {a : ClaimRelease}
    (h : s.reserveReplacement now w a = some (some s')) : s.LeasesFollow s' E M := by
  rcases reserveReplacement_eq_some h with rfl | ⟨_, row, runs, _, -, hqueued, -, -, hins, rfl⟩
  · exact leasesFollow_refl
  · exact LeaseFrame.insert .refl hins (hqueued ▸ queued_notMem_terminal)

theorem leasesFollow_releasePausedTarget {kind : OperationKind} {target : Option RunId} :
    s.LeasesFollow (s.releasePausedTarget now workerId kind target) E M := by
  unfold releasePausedTarget
  split
  · exact leasesFollow_release
  · exact leasesFollow_refl

theorem leasesFollow_steerToReplacement {a : FinalizeSteer}
    {events : List (RunId × String × String)} {queued : Bool} :
    s.LeasesFollow (s.steerToReplacement now a w events queued) E M := by
  have hrelease : s.LeasesFollow ((s.advanceDelegations now a.workerId a.replacement)
      |>.releaseRunLeases now a.workerId a.target "steer_run_confirmed") E M :=
    (leasesFollow_of_eq rfl rfl).trans (leasesFollow_release (s := s.advanceDelegations now
      a.workerId a.replacement))
  cases queued <;> exact hrelease.trans (leasesFollow_of_eq rfl rfl)

theorem LifecycleStep.leasesFollow {op : LifecycleOp} (h : s.LifecycleStep now op s') :
    s.LeasesFollow s' E M := by
  cases h with
  | unchanged => exact leasesFollow_refl
  | changedRow | takenOver => exact leasesFollow_of_eq rfl rfl
  | claimed _ _ _ hreserve =>
    exact (leasesFollow_reserveReplacement hreserve).trans (leasesFollow_of_eq rfl rfl)
  | @released workerId token _ kind target w =>
    obtain ⟨_, _, h⟩ := publishWorkerControl_eq (s.releasePausedTarget now workerId kind target)
      now workerId token w kind
    rw [releaseCompute, h]
    exact leasesFollow_releasePausedTarget.trans (leasesFollow_of_eq rfl rfl)
  | finished =>
    rw [finishOperation]
    split
    · simp [LeasesFollow, settleClaim, releaseRunLeases, concludeTarget]
      exact .rewrite (.fence .refl) fun _ _ _ => Lease.follows_release
    · simp [LeasesFollow, settleClaim, releaseRunLeases]
      exact .rewrite .refl fun _ _ _ => Lease.follows_release
  | @stopped workerId token epoch target w r fields releasedAt errorText =>
    have hstop : s.LeasesFollow (s.stopWork now workerId errorText) E M := by
      simp [LeasesFollow, stopWork, releaseWorkerLeases, failPendingActions,
        cancelWorkerSchedules]
      exact .rewrite (.fence .refl) fun _ _ _ => Lease.follows_release
    rw [finishStop]
    obtain ⟨_, _, h⟩ := publishStop_eq (s.stopWork now workerId errorText) now workerId token w
        target (stopCancels w r)
    rw [h]
    exact hstop.trans (leasesFollow_of_eq rfl rfl)
  | controlSuppressed =>
    simp [LeasesFollow, controlTerminalWon, settleClaim, releaseRunLeases]
    exact .rewrite .refl fun _ _ _ => Lease.follows_release
  | @controlled a w r =>
    have hmove : s.LeasesFollow (s.moveTarget now a r) E M := by
      rw [moveTarget]
      split <;>
      · simp [LeasesFollow, releaseRunLeases]
        first
        | exact .rewrite (.fence .refl) fun _ _ _ => Lease.follows_release
        | exact .fence .refl
    exact hmove.trans (leasesFollow_of_eq rfl rfl)
  | steerInterrupted => exact leasesFollow_steerToReplacement
  | steerSuppressed =>
    simp [LeasesFollow, steerTerminalWon, settleClaim, releaseRunLeases, advanceDelegations]
    exact .rewrite (.fence .refl) fun _ _ _ => Lease.follows_release
  | @steered a =>
    have hsteer : s.LeasesFollow (s.steerTarget now a) E M :=
      leasesFollow_updateRuns.trans (leasesFollow_of_eq rfl rfl)
    exact hsteer.trans leasesFollow_steerToReplacement
  | terminated =>
    simp [LeasesFollow, finishTermination, settleClaim, endWork, releaseWorkerLeases,
      failPendingActions, cancelWorkerSchedules]
    exact .rewrite (.fence .refl) fun _ _ _ => Lease.follows_release

theorem leasesFollow_cancelAwaiting {p : RunId → Run → Bool} {runIds : List RunId}
    {states : List RunState} (h : s.LeasesFollow s₀ E M) :
    s.LeasesFollow ((s₀.cancelAwaiting now p runIds errorText).releaseAttention now workerId
      states) E M := by
  simp [LeasesFollow, releaseAttention, cancelAwaiting]
  exact .fence h

theorem RequestStep.leasesFollow {op : RequestOp} (h : s.RequestStep now op s') :
    s.LeasesFollow s' E M := by
  cases h with
  | unchanged => exact leasesFollow_refl
  | cancelled | recorded | resumedQueued => exact leasesFollow_of_eq rfl rfl
  | cancelledRun => exact leasesFollow_cancelAwaiting (leasesFollow_of_eq rfl rfl)
  | cancelledAttention => exact leasesFollow_cancelAwaiting leasesFollow_refl
  | overdue =>
    simp [LeasesFollow, failOverdueRun]
    exact .fence .refl
  | resumed =>
    simp [LeasesFollow, resumeRun, recordResume]
    exact .fence .refl

end Families

/-! ## Every transaction -/

/-- The lease that a transaction may extend. -/
def extendedBy (s : Store) (c : Call) : Option LeaseId :=
  match c.op with
  | .start op => s.extendedLease c.now op
  | _ => none

/-- Every transaction but an acquisition lets the leases go on or end, and releases those of the
runs that it finishes. -/
theorem leasesFollow_step {s : Store} {c : Call}
    (hc : ∀ a, c.op ≠ .start (.acquireHostRunLease a)) :
    s.LeasesFollow (s.step c) (s.extendedBy c) c.op.handedTo := by
  obtain ⟨now, op⟩ := c
  cases op with
  | worker => exact leasesFollow_of_executions executions_applyWorker
  | gc => exact applyGc_leasesFollow
  | schedule => exact applySchedule_leasesFollow
  | run op => exact (applyRun_step s now op).leasesFollow
  | start op => exact (applyStart_step s now op).leasesFollow fun a h => hc a (h ▸ rfl)
  | lifecycle op => exact (applyLifecycle_step s now op).leasesFollow
  | request op => exact (applyRequest_step s now op).leasesFollow

end Store

end GlassHive
