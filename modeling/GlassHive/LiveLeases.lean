import GlassHive.Frames
import GlassHive.LeaseFrames

/-!
# Leases of ended runs

A run that becomes terminal loses its active leases, and neither a heartbeat nor a claim revives
one. Only `acquire_host_run_lease` can break this: it looks at the state of a run only when the run
has an active attempt, so a run that ended before it was claimed is granted a new lease.
-/

namespace GlassHive

open Relational

namespace Store

/-- No active lease belongs to a terminal run. -/
def LeasesLive (s : Store) : Prop :=
  ∀ id l r, s.leases.get? id = some l → l.status = .active → s.runs.get? l.runId = some r →
    r.state ∉ RunState.terminal

/-- Lease identifiers were drawn. -/
def LeaseIdsDrawn (s : Store) : Prop :=
  ∀ id l, s.leases.get? id = some l → id < s.nextId

/-! ## Acquisition -/

/-- The run that an acquisition grants a new lease for. -/
def grantedRun (s : Store) (a : AcquireLease) : Option Run :=
  if ((s.leaseOf a.runId).filter fun e => e.2.status == .active).isSome then none
  else ((s.runs.get? a.runId).filter fun r => r.workerId == a.workerId).filter fun r =>
    !(r.activeAttemptId.isSome && r.state != .claimed) && (s.leaseRefusal a).isNone

/-- An acquisition hands an expired reservation to another executor. -/
structure Transfers (s : Store) (now : Time) (a : AcquireLease) (id : LeaseId) (l : Lease) :
    Prop where
  lease : s.leaseOf a.runId = some (id, l)
  active : l.status = .active
  transferable : s.transferable a now l = true

section Acquire

variable {s : Store} {now : Time} {a : AcquireLease}

theorem leaseOf_eq_some {runId : RunId} {id : LeaseId} {l : Lease}
    (h : s.leaseOf runId = some (id, l)) : s.leases.get? id = some l ∧ l.runId = runId := by
  obtain ⟨hget, hrun⟩ := Table.first_eq_some h
  exact ⟨hget, by simpa using hrun⟩

theorem leases_recordCapacity (s : Store) (attemptId : Option AttemptId) :
    (s.recordCapacity a now attemptId).leases = s.leases := by
  rw [recordCapacity]
  split <;> rfl

theorem nextId_recordCapacity (s : Store) (attemptId : Option AttemptId) :
    (s.recordCapacity a now attemptId).nextId = s.nextId := by
  rw [recordCapacity]
  split <;> rfl

theorem grantedRun_eq_some {r : Run} (h : s.grantedRun a = some r) :
    ((s.leaseOf a.runId).filter fun e => e.2.status == .active) = none ∧
      s.runs.get? a.runId = some r ∧ r.workerId = a.workerId ∧
      (r.activeAttemptId.isSome && r.state != .claimed) = false ∧ s.leaseRefusal a = none := by
  rw [grantedRun] at h
  split at h
  · cases h
  · rename_i hactive
    obtain ⟨hr, hok⟩ := Option.filter_eq_some_iff.mp h
    obtain ⟨hget, hworker⟩ := Option.filter_eq_some_iff.mp hr
    rw [Bool.and_eq_true, Bool.not_eq_true', Option.isNone_iff_eq_none] at hok
    exact ⟨Option.not_isSome_iff_eq_none.mp hactive, hget, by simpa using hworker, hok⟩

/-- Without a grant, an acquisition finds the run's active lease, hands over an expired reservation,
or is refused. -/
theorem acquireHostRunLease_of_not_granted (now : Time) (h : s.grantedRun a = none) :
    ((s.acquireHostRunLease now a).store = s ∧
        ∀ id, (s.acquireHostRunLease now a).value? = some id →
          ∃ l, s.leaseOf a.runId = some (id, l) ∧ l.status = .active) ∨
      ∃ id l, s.Transfers now a id l ∧ (s.acquireHostRunLease now a).store =
        s.updateLeases (fun i _ => i == id) fun l => { l with
          executorId := a.executorId, heartbeatAt := now, expiresAt := leaseExpiry now a.ttl } := by
  unfold acquireHostRunLease
  split
  · rename_i id l hlease
    obtain ⟨hlease, hactive⟩ := Option.filter_eq_some_iff.mp hlease
    rw [beq_iff_eq] at hactive
    split
    · refine Or.inl ⟨rfl, fun id' hid => ?_⟩
      obtain rfl := Option.some.inj hid
      exact ⟨l, hlease, hactive⟩
    split
    · rename_i htransfer
      exact Or.inr ⟨id, l, ⟨hlease, hactive, htransfer⟩, rfl⟩
    · exact Or.inl ⟨rfl, fun _ hid => by cases hid⟩
  rename_i hfree
  rw [grantedRun, hfree] at h
  simp only [Option.isSome_none, Bool.false_eq_true, if_false] at h
  refine Or.inl ?_
  split
  · exact ⟨rfl, fun _ hid => by cases hid⟩
  rename_i r hr
  rw [hr, Option.filter_some] at h
  split
  · exact ⟨rfl, fun _ hid => by cases hid⟩
  rename_i hattempt
  split
  · exact ⟨rfl, fun _ hid => by cases hid⟩
  · rename_i hrefusal
    simp [hrefusal, hattempt] at h

/-- A granted lease is a new row or replaces the released lease of the run. -/
theorem acquireHostRunLease_of_granted (now : Time) {r : Run} (hids : s.LeaseIdsDrawn)
    (h : s.grantedRun a = some r) :
    ∃ id, (s.acquireHostRunLease now a).value? = some id ∧
      id < (s.acquireHostRunLease now a).store.nextId ∧
      (∀ l, s.leases.get? id = some l → l.runId = a.runId ∧ l.status ≠ .active) ∧
      ∀ j, (s.acquireHostRunLease now a).store.leases.get? j =
        if j = id then some (acquiredLease a now s.nextId r.activeAttemptId)
        else s.leases.get? j := by
  obtain ⟨hfree, hr, hworker, hattempt, hrefusal⟩ := grantedRun_eq_some h
  have hrun : (s.runs.get? a.runId).filter (fun r => r.workerId == a.workerId) = some r :=
    Option.filter_eq_some_iff.mpr ⟨hr, by simp [hworker]⟩
  unfold acquireHostRunLease
  rw [hfree]
  dsimp only
  rw [hrun]
  dsimp only
  rw [hattempt, hrefusal]
  simp only [Bool.false_eq_true, if_false]
  cases hlease : s.leaseOf a.runId with
  | some e =>
    obtain ⟨hget, hown⟩ := leaseOf_eq_some hlease
    refine ⟨e.1, rfl, ?_, ?_, fun j => ?_⟩
    · rw [Outcome.store_commit, nextId_recordCapacity]
      exact (hids _ _ hget).trans (Nat.lt_succ_self _)
    · intro l hl
      obtain rfl := Option.some.inj (hget.symm.trans hl)
      refine ⟨hown, fun hactive => ?_⟩
      rw [hlease, Option.filter_some, hactive] at hfree
      cases hfree
    · rw [Outcome.store_commit, leases_recordCapacity, updateLeases_leases, drawId_leases,
        Table.get?_update]
      by_cases hj : j = e.1
      · rw [hj, hget]
        simp
      · cases s.leases.get? j <;> simp [hj]
  | none =>
    have hfresh : s.leases.get? (s.nextId + 1) = none := by
      cases hl : s.leases.get? (s.nextId + 1) with
      | none => rfl
      | some => exact absurd (hids _ _ hl) (Nat.not_lt.mpr (Nat.le_succ _))
    have hins := (Table.insert?_isSome
      (r := acquiredLease a now s.nextId r.activeAttemptId)).mpr hfresh
    obtain ⟨leases, hins⟩ := Option.isSome_iff_exists.mp hins
    rw [hins]
    refine ⟨s.nextId + 1, rfl, ?_, ?_, fun j => ?_⟩
    · rw [Outcome.store_commit, nextId_recordCapacity]
      exact Nat.lt_succ_self _
    · intro l hl
      rw [hfresh] at hl
      cases hl
    · rw [Outcome.store_commit, leases_recordCapacity]
      exact Table.get?_insert hins j

end Acquire

/-! ## Steps -/

/-- What the release of leases promises of a transaction: no active lease of a terminal run is left,
an acquisition returns a lease only for a run that has not ended, a lease of an ended run is not
extended, and a run that ends has no active lease. -/
structure LeasesEnd (s : Store) (c : Call) : Prop where
  live : (s.step c).LeasesLive
  granted : ∀ a id r, c.op = .start (.acquireHostRunLease a) →
    (s.acquireHostRunLease c.now a).value? = some id → s.runs.get? a.runId = some r →
    r.state ∉ RunState.terminal
  extended : ∀ id l l' r, s.leases.get? id = some l → (s.step c).leases.get? id = some l' →
    s.runs.get? l.runId = some r → r.state ∈ RunState.terminal → l'.expiresAt = l.expiresAt
  released : ∀ id l r', (s.step c).runs.get? l.runId = some r' → r'.state ∈ RunState.terminal →
    (s.step c).leases.get? id = some l → l.status ≠ .active

/-- An acquisition grants no new lease for a terminal run. -/
def grantsLive (s : Store) (c : Call) : Bool :=
  match c.op with
  | .start (.acquireHostRunLease a) =>
    (s.grantedRun a).all fun r => !oneOf r.state RunState.terminal
  | _ => true

section Steps

variable {s : Store} {c : Call}

variable {E : Option LeaseId} {s' : Store} {M : Option RunId} {a : AcquireLease} {id : LeaseId}
  {r : Run}

theorem LeasesFollow.leasesLive (h : s.LeasesFollow s' E M) (hlive : s.LeasesLive) :
    s'.LeasesLive := by
  intro id l' r' hl' hactive hr' hterminal
  obtain ⟨l, r, hl, hactive, hr, hterminal⟩ := h.ended id l' r' hl' hactive hr' hterminal
  exact hlive id l r hl hactive hr hterminal

theorem LeasesFollow.leaseIdsDrawn (h : s.LeasesFollow s' E M) (hnext : s.nextId ≤ s'.nextId)
    (hids : s.LeaseIdsDrawn) : s'.LeaseIdsDrawn := by
  intro id l' hl'
  rcases h.follows id l' hl' with ⟨_, hnew⟩ | ⟨l, hl, -⟩
  · exact hnew.elim
  · exact (hids id l hl).trans_le hnext

/-- A transfer changes no run and no lease of another run. -/
theorem Transfers.leasesFollow {now : Time} {l : Lease} (h : s.Transfers now a id l) :
    s.LeasesFollow (s.updateLeases (fun i _ => i == id) fun l => { l with
      executorId := a.executorId, heartbeatAt := now, expiresAt := leaseExpiry now a.ttl })
      (some id) none := by
  refine ⟨?_, ?_⟩
  · refine Table.evolves_update (fun _ _ => Lease.follows_refl) fun i l₁ hl₁ hi => ?_
    obtain rfl : i = id := by simpa using hi
    obtain rfl := Option.some.inj ((leaseOf_eq_some h.lease).1.symm.trans hl₁)
    exact ⟨⟨rfl, rfl, rfl, rfl, rfl, rfl, rfl⟩, fun h => h, Or.inr ⟨rfl, h.active⟩, Or.inl rfl⟩
  · intro i l' r' hl' hactive hr' hterminal
    obtain ⟨l₁, hl₁, rfl⟩ := Table.get?_update_eq_some.mp hl'
    refine ⟨l₁, r', hl₁, ?_, ?_, hterminal⟩
    · split at hactive <;> exact hactive
    · split at hr' <;> exact hr'

/-- A granted lease belongs to the run it was granted for, which keeps its state. -/
theorem leasesLive_of_granted {now : Time} (hids : s.LeaseIdsDrawn) (hlive : s.LeasesLive)
    (h : s.grantedRun a = some r) :
    (s.acquireHostRunLease now a).store.LeasesLive ↔ r.state ∉ RunState.terminal := by
  obtain ⟨id, -, -, -, hrows⟩ := acquireHostRunLease_of_granted now hids h
  obtain ⟨-, hr, -⟩ := grantedRun_eq_some h
  have hruns : (s.acquireHostRunLease now a).store.runs = s.runs := by
    obtain ⟨_, _, _, _, -, h⟩ := acquireHostRunLease_store s now a
    rw [h]
  constructor
  · intro hlive'
    refine hlive' id (acquiredLease a now s.nextId r.activeAttemptId) r ?_ rfl ?_
    · rw [hrows, if_pos rfl]
    · rw [hruns]
      exact hr
  · intro hstate j l r' hl hactive hr'
    rw [hruns] at hr'
    rw [hrows] at hl
    split at hl
    · obtain rfl := Option.some.inj hl
      obtain rfl := Option.some.inj (hr.symm.trans hr')
      exact hstate
    · exact hlive j l r' hl hactive hr'

theorem step_acquire (hop : c.op = .start (.acquireHostRunLease a)) :
    s.step c = (s.acquireHostRunLease c.now a).store := by
  rw [step, hop]
  rfl

theorem leaseIdsDrawn_step (hids : s.LeaseIdsDrawn) : (s.step c).LeaseIdsDrawn := by
  by_cases hc : ∃ a, c.op = .start (.acquireHostRunLease a)
  · obtain ⟨a, hop⟩ := hc
    have hnext := nextId_step s c
    rw [step_acquire hop] at hnext ⊢
    cases hgrant : s.grantedRun a with
    | none =>
      rcases acquireHostRunLease_of_not_granted c.now hgrant with
        ⟨hs, -⟩ | ⟨id, l, htransfer, hs⟩ <;> rw [hs]
      · exact hids
      · exact htransfer.leasesFollow.leaseIdsDrawn le_rfl hids
    | some =>
      obtain ⟨id, -, hid, -, hrows⟩ := acquireHostRunLease_of_granted c.now hids hgrant
      intro j l hl
      rw [hrows] at hl
      split at hl
      · rename_i hj
        exact hj ▸ hid
      · exact (hids j l hl).trans_le hnext
  · exact (leasesFollow_step fun a h => hc ⟨a, h⟩).leaseIdsDrawn (nextId_step s c) hids

/-- A lease that a step extends was active before it. -/
theorem LeasesFollow.extended (h : s.LeasesFollow s' E M) (hlive : s.LeasesLive) {l l' : Lease}
    (hl : s.leases.get? id = some l) (hl' : s'.leases.get? id = some l')
    (hr : s.runs.get? l.runId = some r) (hterminal : r.state ∈ RunState.terminal) :
    l'.expiresAt = l.expiresAt := by
  rcases h.follows id l' hl' with ⟨_, hnew⟩ | ⟨l₁, hl₁, hfollows⟩
  · exact hnew.elim
  obtain rfl := Option.some.inj (hl.symm.trans hl₁)
  rcases hfollows.expiresAt with he | ⟨-, hactive⟩
  · exact he
  · exact absurd hterminal (hlive id l r hl hactive hr)

/-- An acquisition that grants no lease for a terminal run returns none for one. -/
theorem granted_of_leasesLive (hop : c.op = .start (.acquireHostRunLease a)) (hlive : s.LeasesLive)
    (hgrants : s.grantsLive c = true) (hid : (s.acquireHostRunLease c.now a).value? = some id)
    (hr : s.runs.get? a.runId = some r) : r.state ∉ RunState.terminal := by
  cases hgrant : s.grantedRun a with
  | none =>
    rcases acquireHostRunLease_of_not_granted c.now hgrant with
      ⟨-, hvalue⟩ | ⟨_, l, htransfer, -⟩
    · obtain ⟨l, hl, hactive⟩ := hvalue id hid
      obtain ⟨hget, hrun⟩ := leaseOf_eq_some hl
      exact hlive id l r hget hactive (hrun ▸ hr)
    · obtain ⟨hget, hrun⟩ := leaseOf_eq_some htransfer.lease
      exact hlive _ l r hget htransfer.active (hrun ▸ hr)
  | some =>
    obtain rfl := Option.some.inj ((grantedRun_eq_some hgrant).2.1.symm.trans hr)
    simpa [grantsLive, hop, hgrant] using hgrants

/-- From a store without an active lease of a terminal run, a transaction keeps the promise exactly
when it is not an acquisition that grants a lease for a terminal run. -/
theorem leasesEnd_iff (hids : s.LeaseIdsDrawn) (hlive : s.LeasesLive) :
    s.LeasesEnd c ↔ s.grantsLive c = true := by
  suffices h : (s.grantsLive c = true → (s.step c).LeasesLive ∧
      ∀ id l l' r, s.leases.get? id = some l → (s.step c).leases.get? id = some l' →
        s.runs.get? l.runId = some r → r.state ∈ RunState.terminal →
        l'.expiresAt = l.expiresAt) ∧ ((s.step c).LeasesLive → s.grantsLive c = true) by
    refine ⟨fun hend => h.2 hend.live, fun hgrants => ?_⟩
    obtain ⟨hlive', hextended⟩ := h.1 hgrants
    exact ⟨hlive', fun a id r hop => granted_of_leasesLive hop hlive hgrants, hextended,
      fun id l r' hr' hterminal hl hactive => hlive' id l r' hl hactive hr' hterminal⟩
  by_cases hc : ∃ a, c.op = .start (.acquireHostRunLease a)
  · obtain ⟨a, hop⟩ := hc
    rw [step_acquire hop]
    cases hgrant : s.grantedRun a with
    | none =>
      have hgrants : s.grantsLive c = true := by simp [grantsLive, hop, hgrant]
      refine ⟨fun _ => ?_, fun _ => hgrants⟩
      rcases acquireHostRunLease_of_not_granted c.now hgrant with
        ⟨hs, -⟩ | ⟨id, l, htransfer, hs⟩ <;> rw [hs]
      · exact ⟨hlive, fun _ _ _ _ => leasesFollow_refl.extended (E := none) (M := none) hlive⟩
      · exact ⟨htransfer.leasesFollow.leasesLive hlive,
          fun _ _ _ _ => htransfer.leasesFollow.extended hlive⟩
    | some r =>
      have hgrants : s.grantsLive c = true ↔ r.state ∉ RunState.terminal := by
        simp [grantsLive, hop, hgrant]
      rw [hgrants, leasesLive_of_granted hids hlive hgrant]
      refine ⟨fun hstate => ⟨hstate, ?_⟩, fun hstate => hstate⟩
      obtain ⟨id, -, -, hreplaced, hrows⟩ :=
        acquireHostRunLease_of_granted c.now hids hgrant
      intro j l l' r' hl hl' hr' hterminal
      rw [hrows] at hl'
      split at hl'
      · rename_i hj
        obtain ⟨hrun, -⟩ := hreplaced l (hj ▸ hl)
        rw [hrun] at hr'
        obtain rfl := Option.some.inj ((grantedRun_eq_some hgrant).2.1.symm.trans hr')
        exact absurd hterminal hstate
      · rw [Option.some.inj (hl.symm.trans hl')]
  · have hfollow := leasesFollow_step (s := s) (c := c) fun a h => hc ⟨a, h⟩
    refine ⟨fun _ => ⟨hfollow.leasesLive hlive, fun _ _ _ _ => hfollow.extended hlive⟩,
      fun _ => ?_⟩
    obtain ⟨now, op⟩ := c
    unfold grantsLive
    split
    · rename_i a hop
      exact absurd ⟨a, hop⟩ hc
    · rfl

end Steps

/-- Along every sequence of transactions from a new database, leases end with their runs exactly
when no acquisition grants a lease for a terminal run. -/
theorem leasesEnd_run_iff (settings : Settings) (calls : List Call) :
    Transition.Along step LeasesEnd (init settings) calls ↔
      Transition.Along step (fun s c => s.grantsLive c = true) (init settings) calls := by
  refine Transition.along_congr_of_invariant (I := fun s => s.LeaseIdsDrawn ∧ s.LeasesLive)
    (fun s c h => leasesEnd_iff h.1 h.2) (fun s c h hend => ⟨leaseIdsDrawn_step h.1, hend.live⟩)
    ⟨?_, ?_⟩
  · intro id l hl
    cases hl
  · intro id l r hl
    cases hl

/-- A first run that was cancelled in the queue. -/
def withCancelledRun : List Call :=
  withQueuedRun ++ [⟨4, .run (.cancelPendingRuns 1 "cancelled" .cancelled)⟩]

def leaseForCancelled : AcquireLease where
  runtimeFamily := "codex"
  lane := .mission
  tenantId := 0
  ownerId := 0
  workerId := 1
  runId := .uuid 3
  executorId := 9
  conversationLimit := 1
  missionLimit := 1
  accountMissionLimit := 1
  tenantMissionLimit := 1
  mutationScope := none
  ttl := 30
  available := none
  required := .zero
  reservation := .zero
  observedLeaseIds := []

/-- A run that was cancelled in the queue is granted a lease. -/
theorem acquireHostRunLease_grants_cancelled :
    (fromCalls withCancelledRun).Reachable ∧
      ((fromCalls withCancelledRun).acquireHostRunLease 5 leaseForCancelled).value? = some 5 ∧
      ¬((fromCalls withCancelledRun).step
        ⟨5, .start (.acquireHostRunLease leaseForCancelled)⟩).LeasesLive := by
  have hrun : (((fromCalls withCancelledRun).step
      ⟨5, .start (.acquireHostRunLease leaseForCancelled)⟩).runs.get? (.uuid 3)).map Run.state =
        some .cancelled := by decide
  have hlease : (((fromCalls withCancelledRun).step
      ⟨5, .start (.acquireHostRunLease leaseForCancelled)⟩).leases.get? 5).map
        (fun l => (l.status, l.runId)) = some (.active, .uuid 3) := by decide
  refine ⟨reachable_fromCalls _, by decide, fun hlive => ?_⟩
  obtain ⟨r, hr, hstate⟩ := Option.map_eq_some_iff.mp hrun
  obtain ⟨l, hl, hgranted⟩ := Option.map_eq_some_iff.mp hlease
  obtain ⟨hactive, hid⟩ := Prod.mk.inj hgranted
  have hterminal := hlive 5 l r hl hactive (hid ▸ hr)
  rw [hstate] at hterminal
  exact hterminal (by decide)

end Store

end GlassHive
