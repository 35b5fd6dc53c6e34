import GlassHive.Accounts
import GlassHive.Frames

/-!
# Exclusive account leases

The leases of provider accounts beside every transaction of the store, under a clock that never goes
back. A lease lives from its acquisition until it is released or expires, and only an acquisition
begins one, when no other lease of the account is alive. The interactive lane also looks for runs,
by two of the seven nonterminal states.
-/

namespace GlassHive

open Relational Transition

/-- A transaction of the control plane on accounts, any of the store, or none. -/
inductive AccountOp
  | create (a : NewAccount)
  | updateStatus (accountId : RowId) (tenantId : TenantId) (ownerId : OwnerId)
      (status : AccountStatus) (reconnectReason : String) (recoveryCode : Option RecoveryCode)
  | acquire (a : AcquireAccount)
  | heartbeat (leaseId : RowId) (tenantId : TenantId) (ownerId : OwnerId) (ttl : ℕ)
  | release (leaseId : RowId) (tenantId : TenantId) (ownerId : OwnerId)
  | disconnect (accountId : RowId) (tenantId : TenantId) (ownerId : OwnerId)
      (reconnectReason : String)
  | forget (accountId : RowId) (tenantId : TenantId) (ownerId : OwnerId)
  | store (op : Op)
  | wait

/-- A transaction and the time that passes before it. -/
structure AccountStep where
  elapsed : ℕ
  op : AccountOp

/-- A lease that is alive was alive earlier. -/
theorem AccountLease.live_of_le {l : AccountLease} {now later : Time} (h : now ≤ later)
    (hlive : l.live later = true) : l.live now = true := by
  simp only [live, Bool.and_eq_true, decide_eq_true_eq] at hlive ⊢
  exact ⟨hlive.1, h.trans_lt hlive.2⟩

namespace Store

variable {s s' : Store} {now : Time}

/-- One transaction at a time. -/
def accountStep (s : Store) (now : Time) : AccountOp → Store
  | .create a => (s.createProviderAccount now a).store
  | .updateStatus accountId tenantId ownerId status reason code =>
    (s.updateProviderAccountStatus now accountId tenantId ownerId status reason code).store
  | .acquire a => (s.acquireProviderLease now a).store
  | .heartbeat leaseId tenantId ownerId ttl =>
    (s.heartbeatProviderLease now leaseId tenantId ownerId ttl).store
  | .release leaseId tenantId ownerId => (s.releaseProviderLease now leaseId tenantId ownerId).store
  | .disconnect accountId tenantId ownerId reason =>
    (s.disconnectProviderAccount now accountId tenantId ownerId reason).store
  | .forget accountId tenantId ownerId =>
    (s.forgetProviderAccount now accountId tenantId ownerId).store
  | .store op => s.step ⟨now, op⟩
  | .wait => s

/-- Every account lease has an identifier that was drawn. -/
def AccountLeaseIdsDrawn (s : Store) : Prop :=
  ∀ id l, s.accountLeases.get? id = some l → id < s.nextId

/-- At most one lease of an account is alive. -/
def AccountLeasesExclusive (s : Store) (now : Time) : Prop :=
  ∀ id₁ id₂ l₁ l₂, s.accountLeases.get? id₁ = some l₁ → s.accountLeases.get? id₂ = some l₂ →
    l₁.accountId = l₂.accountId → l₁.live now = true → l₂.live now = true → id₁ = id₂

/-- A transaction revives no lease. -/
structure AccountLeasesKept (s s' : Store) (now : Time) : Prop where
  nextId : s.nextId ≤ s'.nextId
  lease : ∀ id l', s'.accountLeases.get? id = some l' →
    ∃ l, s.accountLeases.get? id = some l ∧ l'.accountId = l.accountId ∧
      (l'.live now = true → l.live now = true)

/-- An acquisition begins a lease of an account that has none alive. -/
structure AccountLeased (s s' : Store) (now : Time) : Prop where
  nextId : s'.nextId = s.nextId + 1
  lease : ∃ l', s'.accountLeases.get? s.nextId = some l' ∧
    ∀ id l, s.accountLeases.get? id = some l → l.accountId = l'.accountId → l.live now = false
  other : ∀ id, id ≠ s.nextId → s'.accountLeases.get? id = s.accountLeases.get? id

/-! ## One transaction -/

theorem accountLeasesKept_of_eq (hnext : s.nextId ≤ s'.nextId)
    (h : s'.accountLeases = s.accountLeases) : s.AccountLeasesKept s' now :=
  ⟨hnext, fun _ l hl => ⟨l, h ▸ hl, rfl, fun hlive => hlive⟩⟩

/-- An update that keeps the account of a lease and revives none. -/
theorem accountLeasesKept_update {p : RowId → AccountLease → Bool}
    {f : AccountLease → AccountLease} (haccount : ∀ l, (f l).accountId = l.accountId)
    (hlive : ∀ id l, p id l = true → (f l).live now = true → l.live now = true) :
    s.AccountLeasesKept (s.updateAccountLeases p f) now := by
  refine ⟨le_rfl, fun id l' hl' => ?_⟩
  obtain ⟨l, hl, rfl⟩ := Table.get?_update_eq_some.mp hl'
  refine ⟨l, hl, ?_, ?_⟩
  · split
    · exact haccount l
    · rfl
  · split
    · exact hlive id l ‹_›
    · exact fun h => h

theorem createProviderAccount_kept (s : Store) (now : Time) (a : NewAccount) :
    s.AccountLeasesKept (s.createProviderAccount now a).store now := by
  unfold createProviderAccount
  dsimp only
  split
  · exact accountLeasesKept_of_eq le_rfl rfl
  · split
    · exact accountLeasesKept_of_eq le_rfl rfl
    · refine accountLeasesKept_of_eq ?_ ?_
      · split <;> exact Nat.le_succ _
      · split <;> rfl

theorem updateProviderAccountStatus_kept (s : Store) (now : Time) (accountId : RowId)
    (tenantId : TenantId) (ownerId : OwnerId) (status : AccountStatus) (reason : String)
    (code : Option RecoveryCode) :
    s.AccountLeasesKept
      (s.updateProviderAccountStatus now accountId tenantId ownerId status reason code).store
      now := by
  unfold updateProviderAccountStatus
  split
  · exact accountLeasesKept_of_eq le_rfl rfl
  · exact accountLeasesKept_of_eq le_rfl rfl

/-- A heartbeat extends a lease only while it is alive. -/
theorem heartbeatProviderLease_kept (s : Store) (now : Time) (leaseId : RowId)
    (tenantId : TenantId) (ownerId : OwnerId) (ttl : ℕ) :
    s.AccountLeasesKept (s.heartbeatProviderLease now leaseId tenantId ownerId ttl).store now := by
  unfold heartbeatProviderLease
  dsimp only
  split
  · exact accountLeasesKept_of_eq le_rfl rfl
  · refine accountLeasesKept_update (fun _ => rfl) fun id l hheld _ => ?_
    rw [Bool.and_eq_true] at hheld
    exact hheld.2

theorem releaseProviderLease_kept (s : Store) (now : Time) (leaseId : RowId)
    (tenantId : TenantId) (ownerId : OwnerId) :
    s.AccountLeasesKept (s.releaseProviderLease now leaseId tenantId ownerId).store now := by
  unfold releaseProviderLease
  dsimp only
  split
  · exact accountLeasesKept_of_eq le_rfl rfl
  · exact accountLeasesKept_update (fun _ => rfl) fun _ l _ h => by simp [AccountLease.live] at h

theorem disconnectProviderAccount_kept (s : Store) (now : Time) (accountId : RowId)
    (tenantId : TenantId) (ownerId : OwnerId) (reason : String) :
    s.AccountLeasesKept
      (s.disconnectProviderAccount now accountId tenantId ownerId reason).store now := by
  unfold disconnectProviderAccount
  split
  · exact accountLeasesKept_of_eq le_rfl rfl
  · have hleases : s.AccountLeasesKept
        (s.updateAccountLeases
          (fun _ l => l.accountId == accountId && l.ownedBy tenantId ownerId &&
            l.releasedAt.isNone)
          (fun l => { l with releasedAt := some now })) now :=
      accountLeasesKept_update (fun _ => rfl) fun _ l _ h => by simp [AccountLease.live] at h
    exact ⟨hleases.nextId, hleases.lease⟩

theorem forgetProviderAccount_kept (s : Store) (now : Time) (accountId : RowId)
    (tenantId : TenantId) (ownerId : OwnerId) :
    s.AccountLeasesKept (s.forgetProviderAccount now accountId tenantId ownerId).store now := by
  unfold forgetProviderAccount
  dsimp only
  split
  · exact accountLeasesKept_of_eq le_rfl rfl
  · split
    · exact accountLeasesKept_of_eq le_rfl rfl
    · split
      · exact accountLeasesKept_of_eq le_rfl rfl
      · split
        · exact accountLeasesKept_of_eq le_rfl rfl
        · refine ⟨le_rfl, fun id l hl => ⟨l, ?_, rfl, fun h => h⟩⟩
          exact (Table.get?_delete_eq_some.mp hl).1

/-! ## Acquisition -/

/-- The principal can lease the account now: it has the status and the recovery code that the
caller asks for, and no lease of it is alive. -/
structure AccountFree (s : Store) (now : Time) (a : AcquireAccount) : Prop where
  account : ∃ account, s.ownedAccount a.accountId a.tenantId a.ownerId = some account ∧
    account.status ∈ a.allowedStatuses ∧
    ∀ code, a.requiredRecoveryCode = some code → code = account.recoveryCode
  unleased : ∀ id l, s.accountLeases.get? id = some l → l.accountId = a.accountId →
    l.live now = false

/-- A run of the workspace that the lease is for, or one fenced to the account. -/
def AccountRun (s : Store) (a : AcquireAccount) (runId : RunId) (r : Run) : Prop :=
  s.runs.get? runId = some r ∧
    (r.workerId = a.workerId ∨ s.accountFences.get? runId = some a.accountId)

theorem accountWorkActive_iff (a : AcquireAccount) :
    s.accountWorkActive a.workerId a.accountId = true ↔
      ∃ runId r, s.AccountRun a runId r ∧ (r.state = .queued ∨ r.state = .running) := by
  simp only [accountWorkActive, AccountRun, Bool.or_eq_true, Table.any_eq_true, Bool.and_eq_true,
    beq_iff_eq, oneOf_eq_true, List.mem_cons, List.not_mem_nil, or_false, Option.any_eq_true]
  constructor
  · rintro (⟨runId, r, hr, hw, hst⟩ | ⟨runId, id, hfence, rfl, r, hr, hst⟩)
    · exact ⟨runId, r, ⟨hr, Or.inl hw⟩, hst⟩
    · exact ⟨runId, r, ⟨hr, Or.inr hfence⟩, hst⟩
  · rintro ⟨runId, r, ⟨hr, hw | hfence⟩, hst⟩
    · exact Or.inl ⟨runId, r, hr, hw, hst⟩
    · exact Or.inr ⟨runId, _, hfence, rfl, r, hr, hst⟩

/-- The checks of an acquisition. -/
theorem accountRefusal_eq_none_iff (a : AcquireAccount) :
    s.accountRefusal now a = none ↔ s.AccountFree now a ∧
      (interactiveLane (normalizedLane a.lane) = true →
        s.accountWorkActive a.workerId a.accountId = false) := by
  unfold accountRefusal
  split
  · rename_i hempty
    refine ⟨fun h => absurd h (by simp), fun ⟨⟨⟨account, _, hst, _⟩, _⟩, _⟩ => ?_⟩
    rw [List.isEmpty_iff.mp hempty] at hst
    exact absurd hst List.not_mem_nil
  · split
    · rename_i hnone
      refine ⟨fun h => absurd h (by simp), fun ⟨⟨⟨account, hsome, _⟩, _⟩, _⟩ => ?_⟩
      rw [hnone] at hsome
      exact absurd hsome (by simp)
    · rename_i account hsome
      have hfree : s.AccountFree now a ↔
          (∀ id l, s.accountLeases.get? id = some l → l.accountId = a.accountId →
            l.live now = false) ∧ account.status ∈ a.allowedStatuses ∧
          ∀ code, a.requiredRecoveryCode = some code → code = account.recoveryCode := by
        constructor
        · rintro ⟨⟨account', hsome', hst, hcode⟩, hleases⟩
          rw [hsome, Option.some.injEq] at hsome'
          exact hsome' ▸ ⟨hleases, hst, hcode⟩
        · exact fun ⟨hleases, hst, hcode⟩ => ⟨⟨account, hsome, hst, hcode⟩, hleases⟩
      have hlease : (s.accountLeases.any fun _ l => l.accountId == a.accountId && l.live now) =
          false ↔ ∀ id l, s.accountLeases.get? id = some l → l.accountId = a.accountId →
            l.live now = false := by
        simp [Table.any_eq_false]
      have hcode : a.requiredRecoveryCode.any (· != account.recoveryCode) = false ↔
          ∀ code, a.requiredRecoveryCode = some code → code = account.recoveryCode := by
        cases a.requiredRecoveryCode <;> simp
      rw [hfree, ← hlease, ← hcode, ← oneOf_eq_true]
      clear hfree hlease hcode
      generalize (s.accountLeases.any fun _ l => l.accountId == a.accountId && l.live now) = leased
      generalize a.requiredRecoveryCode.any (· != account.recoveryCode) = changed
      split_ifs <;> simp_all

/-- An acquisition that no check refuses inserts a lease under a fresh identifier. -/
theorem acquireProviderLease_of_granted {a : AcquireAccount} (hids : s.AccountLeaseIdsDrawn)
    (h : s.accountRefusal now a = none) :
    ∃ leases, s.accountLeases.insert? s.nextId (acquiredAccountLease now a) = some leases ∧
      s.acquireProviderLease now a =
        .commit { s.drawId with accountLeases := leases } (some s.nextId) := by
  have hfresh : s.accountLeases.get? s.nextId = none := by
    by_contra hne
    obtain ⟨l, hl⟩ := Option.ne_none_iff_exists'.mp hne
    exact lt_irrefl _ (hids _ l hl)
  obtain ⟨leases, hins⟩ := Option.isSome_iff_exists.mp
    (Table.insert?_isSome (r := acquiredAccountLease now a) |>.mpr hfresh)
  refine ⟨leases, hins, ?_⟩
  rw [acquireProviderLease, h, hins]

theorem acquireProviderLease_of_refused {a : AcquireAccount} {e : StoreError}
    (h : s.accountRefusal now a = some e) : s.acquireProviderLease now a = .raise s e := by
  rw [acquireProviderLease, h]

theorem acquireProviderLease_leased {a : AcquireAccount} (hids : s.AccountLeaseIdsDrawn)
    (h : s.accountRefusal now a = none) :
    s.AccountLeased (s.acquireProviderLease now a).store now := by
  obtain ⟨leases, hins, heq⟩ := acquireProviderLease_of_granted hids h
  have hget := Table.get?_insert hins
  rw [heq]
  refine ⟨rfl, ⟨acquiredAccountLease now a, ?_, ?_⟩, fun id hne => ?_⟩
  · simp [hget]
  · exact ((accountRefusal_eq_none_iff a).mp h).1.unleased
  · simp [hget, hne]

/-- Every transaction either revives no lease or begins one of an account without. -/
theorem accountStep_cases (hids : s.AccountLeaseIdsDrawn) (now : Time) (op : AccountOp) :
    s.AccountLeasesKept (s.accountStep now op) now ∨
      s.AccountLeased (s.accountStep now op) now := by
  cases op with
  | create a => exact Or.inl (createProviderAccount_kept s now a)
  | updateStatus accountId tenantId ownerId status reason code =>
    exact Or.inl (updateProviderAccountStatus_kept s now accountId tenantId ownerId status reason
      code)
  | acquire a =>
    cases hrefusal : s.accountRefusal now a with
    | none => exact Or.inr (acquireProviderLease_leased hids hrefusal)
    | some =>
      left
      rw [accountStep, acquireProviderLease_of_refused hrefusal]
      exact accountLeasesKept_of_eq le_rfl rfl
  | heartbeat leaseId tenantId ownerId ttl =>
    exact Or.inl (heartbeatProviderLease_kept s now leaseId tenantId ownerId ttl)
  | release leaseId tenantId ownerId =>
    exact Or.inl (releaseProviderLease_kept s now leaseId tenantId ownerId)
  | disconnect accountId tenantId ownerId reason =>
    exact Or.inl (disconnectProviderAccount_kept s now accountId tenantId ownerId reason)
  | forget accountId tenantId ownerId =>
    exact Or.inl (forgetProviderAccount_kept s now accountId tenantId ownerId)
  | store op =>
    exact Or.inl ⟨nextId_step s ⟨now, op⟩, fun id l hl =>
      ⟨l, accountLeases_step hl, rfl, fun h => h⟩⟩
  | wait => exact Or.inl (accountLeasesKept_of_eq le_rfl rfl)

end Store

/-! ## Runs -/

/-- The database and the clock. -/
structure AccountSystem where
  store : Store
  clock : Time

namespace AccountSystem

variable {e : AccountSystem}

/-- The clock that a step reads. -/
def now (e : AccountSystem) (i : AccountStep) : Time :=
  e.clock + i.elapsed

/-- One step. -/
def step (e : AccountSystem) (i : AccountStep) : AccountSystem :=
  ⟨e.store.accountStep (e.now i) i.op, e.now i⟩

/-- A new database. -/
def init (settings : Settings) : AccountSystem :=
  ⟨.init settings, 0⟩

/-- At most one unreleased, unexpired lease of an account. -/
def Exclusive (e : AccountSystem) : Prop :=
  e.store.AccountLeasesExclusive e.clock

/-- The lease was issued, and it is deleted, released or expired. -/
def Ended (e : AccountSystem) (leaseId : RowId) : Prop :=
  leaseId < e.store.nextId ∧
    ∀ l, e.store.accountLeases.get? leaseId = some l → l.live e.clock = false

/-- Identifiers are drawn, and leases are exclusive. -/
structure Leased (e : AccountSystem) : Prop where
  drawn : e.store.AccountLeaseIdsDrawn
  exclusive : e.Exclusive

theorem leased_init (settings : Settings) : (init settings).Leased :=
  ⟨fun id l h => by simp [init, Store.init] at h,
    fun id₁ id₂ l₁ l₂ h => by simp [init, Store.init] at h⟩

/-- A lease after a step that is alive then was alive before it, unless the step began it. -/
theorem lease_step (h : e.Leased) (i : AccountStep) {id : RowId} {l' : AccountLease}
    (hl' : (e.step i).store.accountLeases.get? id = some l') :
    (∃ l, e.store.accountLeases.get? id = some l ∧ l'.accountId = l.accountId ∧
      (l'.live (e.now i) = true → l.live (e.now i) = true)) ∨
    id = e.store.nextId ∧ ∀ id₂ l, e.store.accountLeases.get? id₂ = some l →
      l.accountId = l'.accountId → l.live (e.now i) = false := by
  rcases Store.accountStep_cases h.drawn (e.now i) i.op with hkept | hleased
  · exact Or.inl (hkept.lease id l' hl')
  · by_cases hid : id = e.store.nextId
    · obtain ⟨l₀, hl₀, hnone⟩ := hleased.lease
      have heq : l₀ = l' := by
        rw [← hid] at hl₀
        exact Option.some.inj (hl₀.symm.trans hl')
      exact Or.inr ⟨hid, heq ▸ hnone⟩
    · have hsame := (hleased.other id hid).symm.trans hl'
      exact Or.inl ⟨l', hsame, rfl, fun hlive => hlive⟩

theorem nextId_step (h : e.Leased) (i : AccountStep) :
    e.store.nextId ≤ (e.step i).store.nextId := by
  rcases Store.accountStep_cases h.drawn (e.now i) i.op with hkept | hleased
  · exact hkept.nextId
  · exact hleased.nextId.ge.trans' (Nat.le_succ _)

theorem Leased.step (h : e.Leased) (i : AccountStep) : (e.step i).Leased := by
  constructor
  · intro id l' hl'
    rcases Store.accountStep_cases h.drawn (e.now i) i.op with hkept | hleased
    · obtain ⟨l, hl, -⟩ := hkept.lease id l' hl'
      exact (h.drawn id l hl).trans_le hkept.nextId
    · have hnext : (e.step i).store.nextId = e.store.nextId + 1 := hleased.nextId
      rw [hnext]
      by_cases hid : id = e.store.nextId
      · exact hid ▸ Nat.lt_succ_self _
      · have hold := h.drawn id l' ((hleased.other id hid).symm.trans hl')
        exact hold.trans (Nat.lt_succ_self _)
  · intro id₁ id₂ l₁' l₂' h₁ h₂ haccount hlive₁ hlive₂
    have hle : e.clock ≤ e.now i := Nat.le_add_right _ _
    rcases lease_step h i h₁ with ⟨l₁, hl₁, ha₁, hback₁⟩ | ⟨rfl, hnone⟩
    · rcases lease_step h i h₂ with ⟨l₂, hl₂, ha₂, hback₂⟩ | ⟨rfl, hnone⟩
      · exact h.exclusive id₁ id₂ l₁ l₂ hl₁ hl₂ (ha₁ ▸ ha₂ ▸ haccount)
          (AccountLease.live_of_le hle (hback₁ hlive₁))
          (AccountLease.live_of_le hle (hback₂ hlive₂))
      · have hdead := hnone id₁ l₁ hl₁ (ha₁ ▸ haccount)
        rw [hback₁ hlive₁] at hdead
        exact absurd hdead (by simp)
    · rcases lease_step h i h₂ with ⟨l₂, hl₂, ha₂, hback₂⟩ | ⟨rfl, -⟩
      · have hdead := hnone id₂ l₂ hl₂ (ha₂ ▸ haccount.symm)
        rw [hback₂ hlive₂] at hdead
        exact absurd hdead (by simp)
      · rfl

theorem Ended.step (h : e.Leased) {leaseId : RowId} (hended : e.Ended leaseId)
    (i : AccountStep) : (e.step i).Ended leaseId := by
  refine ⟨hended.1.trans_le (nextId_step h i), fun l' hl' => ?_⟩
  rcases lease_step h i hl' with ⟨l, hl, -, hback⟩ | ⟨rfl, -⟩
  · rw [Bool.eq_false_iff]
    intro hlive
    have hwas := AccountLease.live_of_le (Nat.le_add_right e.clock i.elapsed) (hback hlive)
    rw [hended.2 l hl] at hwas
    exact absurd hwas (by simp)
  · exact absurd hended.1 (lt_irrefl _)

/-- An interactive lease is granted only when every run of the workspace and of the account is
terminal. -/
def GrantsIdle (e : AccountSystem) (i : AccountStep) : Prop :=
  ∀ a leaseId, i.op = .acquire a → interactiveLane (normalizedLane a.lane) = true →
    (e.store.acquireProviderLease (e.now i) a).result = .ok (some leaseId) →
    ∀ runId r, e.store.AccountRun a runId r → r.state ∉ RunState.nonterminal

/-- While an interactive lease is asked for of a free account, and no run of the workspace or of the
account is queued or running, none of them is in an overlooked state. -/
def NoneOverlooked (e : AccountSystem) (i : AccountStep) : Prop :=
  ∀ a, i.op = .acquire a → interactiveLane (normalizedLane a.lane) = true →
    e.store.AccountFree (e.now i) a →
    (∀ runId r, e.store.AccountRun a runId r → r.state ≠ .queued ∧ r.state ≠ .running) →
    ∀ runId r, e.store.AccountRun a runId r → r.state ∉ RunState.overlooked

theorem grantsIdle_iff (h : e.Leased) (i : AccountStep) :
    e.GrantsIdle i ↔ e.NoneOverlooked i := by
  constructor
  · intro hidle a hop hlane hfree hstates runId r hr hover
    have hquiet : e.store.accountWorkActive a.workerId a.accountId = false := by
      rw [Bool.eq_false_iff]
      intro hactive
      obtain ⟨runId, r, hr, hst⟩ := (Store.accountWorkActive_iff a).mp hactive
      exact hst.elim (hstates runId r hr).1 (hstates runId r hr).2
    have hgranted := (Store.accountRefusal_eq_none_iff a).mpr ⟨hfree, fun _ => hquiet⟩
    obtain ⟨leases, -, hacq⟩ := Store.acquireProviderLease_of_granted h.drawn hgranted
    refine hidle a e.store.nextId hop hlane (by rw [hacq]; rfl) runId r hr ?_
    exact (RunState.mem_nonterminal_iff_overlooked _).mpr (Or.inl hover)
  · intro hnone a leaseId hop hlane hok runId r hr hst
    cases hrefusal : e.store.accountRefusal (e.now i) a with
    | some =>
      rw [Store.acquireProviderLease_of_refused hrefusal] at hok
      exact absurd hok (by simp)
    | none =>
      obtain ⟨hfree, hquiet⟩ := (Store.accountRefusal_eq_none_iff a).mp hrefusal
      have hstates : ∀ runId r, e.store.AccountRun a runId r →
          r.state ≠ .queued ∧ r.state ≠ .running := by
        intro runId r hr
        rw [← not_or]
        intro hst
        have hactive := (Store.accountWorkActive_iff a).mpr ⟨runId, r, hr, hst⟩
        rw [hquiet hlane] at hactive
        exact absurd hactive (by simp)
      rcases (RunState.mem_nonterminal_iff_overlooked _).mp hst with hover | hq | hrun
      · exact hnone a hop hlane hfree hstates runId r hr hover
      · exact (hstates runId r hr).1 hq
      · exact (hstates runId r hr).2 hrun

end AccountSystem

/-- Along every run from a new database, account leases are exclusive in every state and a lease
that ended stays ended; an interactive lease is granted beside idle runs only, exactly when no
acquisition finds just runs in overlooked states. -/
theorem accountLeases_exclusive_iff (settings : Settings) (steps : List AccountStep) :
    (∀ pre, pre <+: steps → (run AccountSystem.step (.init settings) pre).Exclusive) ∧
    (∀ pre post leaseId, pre ++ post <+: steps →
      (run AccountSystem.step (.init settings) pre).Ended leaseId →
      (run AccountSystem.step (.init settings) (pre ++ post)).Ended leaseId) ∧
    (Along AccountSystem.step AccountSystem.GrantsIdle (.init settings) steps ↔
      Along AccountSystem.step AccountSystem.NoneOverlooked (.init settings) steps) := by
  have hleased : ∀ is, (run AccountSystem.step (.init settings) is).Leased := fun is =>
    invariant_run (C := fun _ _ => True) (fun _ i h _ => h.step i)
      (AccountSystem.leased_init settings) (along_of_forall _ (fun _ _ => trivial) _ _)
  refine ⟨fun pre _ => (hleased pre).exclusive, fun pre post leaseId _ hended => ?_, ?_⟩
  · have hboth : ∀ (e : AccountSystem) (i : AccountStep), e.Leased ∧ e.Ended leaseId → True →
        (e.step i).Leased ∧ (e.step i).Ended leaseId :=
      fun _ i h _ => ⟨h.1.step i, h.2.step h.1 i⟩
    rw [run_append]
    exact (invariant_run hboth ⟨hleased pre, hended⟩
      (along_of_forall _ (fun _ _ => trivial) _ _)).2
  · exact along_congr_of_invariant (I := AccountSystem.Leased)
      (fun _ i h => AccountSystem.grantsIdle_iff h i) (fun _ i h _ => h.step i)
      (AccountSystem.leased_init settings)

/-! ## A claimed run -/

/-- A ready account. -/
def firstAccount : NewAccount where
  tenantId := 0
  ownerId := 0
  provider := .codex
  label := "work"
  makeDefault := true
  status := .ready
  limit := 8

/-- An interactive setup of the account `5` in the workspace of worker `1`. -/
def interactiveSetup : AcquireAccount where
  accountId := 5
  tenantId := 0
  ownerId := 0
  lane := "codex-cli:interactive"
  workerId := 1
  runId := .uuid 0
  ttl := 900
  allowedStatuses := [.ready]
  requiredRecoveryCode := none

/-- A run of worker `1` is claimed, and then the account is created. -/
def withAccount : List AccountStep :=
  withClaimedRun.map (fun c => ⟨1, .store c.op⟩) ++ [⟨1, .create firstAccount⟩]

/-- The interactive lease is granted although the workspace has a claimed run. -/
theorem accountLeases_overlook_claimed :
    ¬Along AccountSystem.step AccountSystem.GrantsIdle (.init .default)
      (withAccount ++ [⟨1, .acquire interactiveSetup⟩]) := by
  intro halong
  have hgranted : ((run AccountSystem.step (.init .default) withAccount).store.acquireProviderLease
      6 interactiveSetup).value? = some 6 := by decide
  have hclaimed : ((run AccountSystem.step (.init .default) withAccount).store.runs.get?
      (.uuid 3)).any (fun r => r.workerId == 1 && r.state == .claimed) = true := by decide
  obtain ⟨r, hr, hok⟩ := (Option.any_eq_true ..).mp hclaimed
  rw [Bool.and_eq_true, beq_iff_eq, beq_iff_eq] at hok
  have hidle := ((along_append _).mp halong).2.1
  refine hidle interactiveSetup 6 rfl (by decide) (Outcome.value?_eq_some.mp hgranted) (.uuid 3) r
    ⟨hr, Or.inl hok.1⟩ ?_
  rw [hok.2]
  decide

end GlassHive
