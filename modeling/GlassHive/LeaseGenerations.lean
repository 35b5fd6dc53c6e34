import GlassHive.Invocations
import GlassHive.LiveLeases

/-!
# Lease generations

An acquisition writes a new generation over the released lease of a run: the identifier stays and
the startup token is fresh. What the holder of an earlier generation still does must not reach a
later one. The operations that compare the token keep to that. A heartbeat and a release compare
the identifier and the executor only, and a confirmation that finds the run running under another
start downgrades the run and releases its lease, whoever holds it.
-/

namespace GlassHive

open Relational Transition

/-- A generation of a lease, as the acquisition hands it to its holder. -/
structure LeaseGrant where
  runId : RunId
  leaseId : LeaseId
  executorId : ExecutorId
  startupToken : Token
  deriving DecidableEq, Repr

/-- What the holder of a generation does with its lease. -/
inductive HolderOp
  | confirm (workerId : WorkerId) (runStartedAt : Option Time) (identity : StartProof)
      (allowRuntimeInvocation : Bool) (callback : Option CallbackId)
  | heartbeat (executorId : Option ExecutorId) (identity : HeartbeatIdentity) (ttl : ℕ)
      (reconciled allowExpired : Bool)
  | release (executorId : Option ExecutorId) (reason : String)
  | markUnconfirmed
  | requeue (workerId : WorkerId) (retryAfter : Time) (errorText : String)

/-- The confirmation of a holder. -/
def LeaseGrant.confirmation (g : LeaseGrant) (workerId : WorkerId) (runStartedAt : Option Time)
    (identity : StartProof) (allowRuntimeInvocation : Bool) (callback : Option CallbackId) :
    ConfirmStart where
  workerId := workerId
  runId := g.runId
  runStartedAt := runStartedAt
  leaseId := g.leaseId
  startupToken := g.startupToken
  executorId := g.executorId
  identity := identity
  allowRuntimeInvocation := allowRuntimeInvocation
  callback := callback

/-- The transaction of a holder. -/
def HolderOp.start (g : LeaseGrant) : HolderOp → StartOp
  | .confirm workerId runStartedAt identity allow callback =>
    .confirmHostRunStart (g.confirmation workerId runStartedAt identity allow callback)
  | .heartbeat executorId identity ttl reconciled allowExpired =>
    .heartbeatHostRunLease g.leaseId executorId identity ttl reconciled allowExpired
  | .release executorId reason => .releaseHostRunLease g.leaseId executorId reason
  | .markUnconfirmed =>
    .markHostRunStartTerminationUnconfirmed g.leaseId g.runId g.executorId g.startupToken
  | .requeue workerId retryAfter errorText =>
    .requeueUnconfirmedHostRunStart workerId g.runId g.leaseId g.startupToken retryAfter errorText

/-- A lease as far as a stale holder must leave it alone. -/
structure Lease.Untouched (l l' : Lease) : Prop where
  extended : l'.expiresAt ≤ l.expiresAt
  released : l'.status = l.status
  confirmed : l'.startupState = l.startupState ∧ l'.startupConfirmedAt = l.startupConfirmedAt
  pid : l'.pid = l.pid
  processGroup : l'.processGroup = l.processGroup
  processStartIdentity : l'.processStartIdentity = l.processStartIdentity
  startupIdentityKind : l'.startupIdentityKind = l.startupIdentityKind
  startupContainerId : l'.startupContainerId = l.startupContainerId
  startupSessionId : l'.startupSessionId = l.startupSessionId

theorem Lease.untouched_refl (l : Lease) : l.Untouched l :=
  ⟨le_refl _, rfl, ⟨rfl, rfl⟩, rfl, rfl, rfl, rfl, rfl, rfl⟩

/-! ## Runs of holders -/

/-- The database with the generations that were acquired, the last one first. -/
structure Fencing where
  store : Store
  grants : List LeaseGrant

/-- A step: any transaction of the system, or one of a holder. -/
inductive FencingStep
  | system (c : Call)
  | held (now : Time) (g : LeaseGrant) (op : HolderOp)

/-- The new generation of an acquisition. -/
def Store.granted (s : Store) (c : Call) : Option LeaseGrant :=
  match c.op with
  | .start (.acquireHostRunLease a) =>
    if (s.grantedRun a).isSome then
      (s.acquireHostRunLease c.now a).value?.map fun id => ⟨a.runId, id, a.executorId, s.nextId⟩
    else none
  | _ => none

namespace Fencing

/-- A new database. -/
def init (settings : Settings) : Fencing :=
  ⟨Store.init settings, []⟩

/-- One step. -/
def step (e : Fencing) : FencingStep → Fencing
  | .system c => ⟨e.store.step c, (e.store.granted c).toList ++ e.grants⟩
  | .held now g op => ⟨e.store.step ⟨now, .start (op.start g)⟩, e.grants⟩

/-- The row `l` is that of a generation that was acquired for the run of `g` after `g`. -/
structure Supersedes (e : Fencing) (g g' : LeaseGrant) (l : Lease) : Prop where
  later : [g', g].Sublist e.grants
  run : g'.runId = g.runId
  row : e.store.leases.get? g'.leaseId = some l
  current : l.startupToken = some g'.startupToken

/-- A holder leaves the later generations of its run alone. -/
def Fenced (e : Fencing) : FencingStep → Prop
  | .system _ => True
  | .held now g op => ∀ g' l, e.Supersedes g g' l →
    ∃ l', (e.step (.held now g op)).store.leases.get? g'.leaseId = some l' ∧ l.Untouched l'

end Fencing

/-! ## What reaches a later generation -/

/-- A heartbeat with this identity changes the recorded one. -/
def HeartbeatIdentity.writes (i : HeartbeatIdentity) (l : Lease) : Bool :=
  i.pid.any (some · != l.pid) || i.processGroup.any (some · != l.processGroup) ||
    i.processStartIdentity.any (some · != l.processStartIdentity) ||
    l.startupState == .reserved &&
      (i.startupIdentityKind.any (some · != l.startupIdentityKind) ||
        i.startupContainerId.any (some · != l.startupContainerId) ||
        i.startupSessionId.any (some · != l.startupSessionId))

namespace Store

/-- The running run that a confirmation downgrades: it does not run under that lease since the time
that the caller gives. -/
def unprovenRun (s : Store) (a : ConfirmStart) : Option Run :=
  match s.workers.get? a.workerId,
    (s.runs.get? a.runId).filter fun r => r.workerId == a.workerId,
    (s.leases.get? a.leaseId).filter fun l => l.runId == a.runId with
  | some _, some r, some l =>
    if a.identity.valid a.runId && r.state == .running &&
        !(s.runningGeneration a.runId r a.leaseId l a.runStartedAt && r.endedAt.isNone) then some r
    else none
  | _, _, _ => none

/-- An operation of the holder of `g` reaches the row `l` of a lease. A heartbeat and a release
reach any row of the lease that they may change for that executor, and a confirmation reaches the
active leases of the run that it downgrades. -/
def reaches (s : Store) (now : Time) (g : LeaseGrant) (id : LeaseId) (l : Lease) :
    HolderOp → Bool
  | .confirm workerId runStartedAt identity allow callback =>
    (s.unprovenRun (g.confirmation workerId runStartedAt identity allow callback)).isSome &&
      l.runId == g.runId && l.status == .active
  | .heartbeat executorId identity ttl _ allowExpired =>
    id == g.leaseId && l.status == .active && (allowExpired || decide (now < l.expiresAt)) &&
      !((s.runs.get? l.runId).any fun r => oneOf r.state [.completed, .failed, .cancelled]) &&
      executorId.all (· == l.executorId) &&
      (decide (l.expiresAt < leaseExpiry now ttl) || identity.writes l)
  | .release executorId _ =>
    id == g.leaseId && l.status == .active && executorId.all (· == l.executorId)
  | .markUnconfirmed => false
  | .requeue .. => false

end Store

/-- The holder of an earlier generation does nothing that reaches a later one. -/
def Fencing.Retires (e : Fencing) : FencingStep → Prop
  | .system _ => True
  | .held now g op => ∀ g' l, e.Supersedes g g' l →
    e.store.reaches now g g'.leaseId l op = false

/-! ## Each operation of a holder -/

namespace Store

section Leases

variable {s : Store} {now : Time} {id : LeaseId} {l : Lease}

/-- The trigger leaves the leases of runs that do not become terminal. -/
theorem get?_leases_updateRuns {p : RunId → Run → Bool} {f : Run → Run}
    (hf : ∀ r, (f r).state ∉ RunState.terminal) :
    (s.updateRuns now p f).leases.get? id = s.leases.get? id := by
  rw [updateRuns_leases, Table.get?_update]
  cases s.leases.get? id with
  | none => rfl
  | some l =>
    have hkeep : l.fencedBy now s.runs (s.runs.update p fun _ => f) = l := by
      rw [Lease.fencedBy, Table.get?_update]
      cases s.runs.get? l.runId with
      | none => rfl
      | some r =>
        have hfence : terminalFence r (if p l.runId r then f r else r) = false := by
          unfold terminalFence
          split
          · simp [hf r]
          · simp
        simp [Lease.fenced, hfence]
    simp [hkeep]

variable {leaseId : LeaseId} {runId : RunId} {a : ConfirmStart} {r : Run}

/-- A downgrade releases the active leases of the run. -/
theorem get?_leases_downgradeUnprovenRunning {reason : String} :
    (s.downgradeUnprovenRunning runId r now reason).leases.get? id =
      (s.leases.get? id).map fun l =>
        if l.runId == runId && l.status == .active then l.release now reason else l := by
  have hqueued : ∀ q, (s.downgradedRow runId r now reason q).state ∉ RunState.terminal :=
    fun _ => queued_notMem_terminal
  rw [downgradeUnprovenRunning, updateWorkers_leases, get?_leases_updateRuns hqueued,
    updateLeases_leases, Table.get?_update]
  rfl

theorem unprovenRun_eq_some (h : s.unprovenRun a = some r) :
    ∃ w l, s.workers.get? a.workerId = some w ∧
      ((s.runs.get? a.runId).filter fun r => r.workerId == a.workerId) = some r ∧
      ((s.leases.get? a.leaseId).filter fun l => l.runId == a.runId) = some l ∧
      a.identity.valid a.runId = true ∧ r.state = .running ∧
      (s.runningGeneration a.runId r a.leaseId l a.runStartedAt && r.endedAt.isNone) = false := by
  unfold unprovenRun at h
  split at h
  · rename_i w r' l hw hr hl
    split at h
    · rename_i hok
      obtain rfl := Option.some.inj h
      simp only [Bool.and_eq_true, beq_iff_eq, Bool.not_eq_true'] at hok
      exact ⟨w, l, hw, hr, hl, hok.1.1, hok.1.2, hok.2⟩
    · cases h
  · cases h

/-- A run that runs is not admitted. -/
theorem admittedGeneration_of_running (h : r.state = .running) :
    s.admittedGeneration now runId r leaseId l = none := by
  unfold admittedGeneration
  split
  · simp [h]
  · rfl

theorem confirmHostRunStart_of_unproven (h : s.unprovenRun a = some r) :
    (s.confirmHostRunStart now a).store =
      s.downgradeUnprovenRunning a.runId r now "running_invariant_reconciled" := by
  obtain ⟨w, l, hw, hr, hl, hvalid, hstate, hrunning⟩ := unprovenRun_eq_some h
  unfold confirmHostRunStart
  rw [hvalid, hw, hr, hl]
  simp [admittedGeneration_of_running hstate, hrunning, hstate]

/-- A publication writes to the exact lease only. -/
theorem get?_leases_publishStart (hl : s.leases.get? id = some l)
    (hne : id ≠ a.leaseId ∨ l.startupToken ≠ some a.startupToken) :
    (s.publishStart now a r).leases.get? id = some l := by
  have hother : (id == a.leaseId && l.runId == a.runId && a.exactLease now l &&
      l.startupState == .reserved) = false := by
    unfold ConfirmStart.exactLease
    rcases hne with hne | hne <;> simp [hne]
  unfold publishStart
  cases a.callback <;>
    simp only [insertCallbackIntent_leases, insertEventOnce_leases, updateWorkers_leases,
      updateLeases_leases, Table.get?_update, hl, Option.map_some, hother, Bool.false_eq_true,
      if_false]

theorem get?_leases_invokeGeneration {attemptId : AttemptId} :
    (s.invokeGeneration now runId r leaseId attemptId (Run.invoke now)).leases.get? id =
      s.leases.get? id := by
  have hrunning : ∀ r, (Run.invoke now r).state ∉ RunState.terminal := by
    intro r
    simp [Run.invoke, RunState.terminal]
  unfold invokeGeneration
  rw [appendAttemptTraces_leases, appendRuntimeInvocationTrace_leases,
    get?_leases_updateRuns hrunning, updateAttempts_leases]

/-- Without an unproven run, a confirmation changes at most the lease that it confirms. -/
theorem confirmHostRunStart_of_proven (h : s.unprovenRun a = none) (hl : s.leases.get? id = some l)
    (hne : id ≠ a.leaseId ∨ l.startupToken ≠ some a.startupToken) :
    (s.confirmHostRunStart now a).store.leases.get? id = some l := by
  unfold confirmHostRunStart
  split
  · exact hl
  rename_i hvalid
  split
  · rename_i w r l₁ hw hr hl₁
    have hproven : ¬(r.state == .running &&
        !(s.runningGeneration a.runId r a.leaseId l₁ a.runStartedAt && r.endedAt.isNone)) := by
      intro hunproven
      rw [unprovenRun, hw, hr, hl₁] at h
      rw [Bool.not_eq_true, Bool.not_eq_false'] at hvalid
      simp only [hvalid, Bool.true_and, hunproven, if_true] at h
      cases h
    dsimp only
    generalize (if a.allowRuntimeInvocation then
      s.admittedGeneration now a.runId r a.leaseId l₁ else none) = admitted
    split
    · exact hl
    split
    · exact hl
    split
    · exact hl
    split
    · exact get?_leases_publishStart (get?_leases_invokeGeneration.trans hl) hne
    · exact get?_leases_publishStart hl hne
  · exact hl

theorem orElse_eq_iff {α : Type} [DecidableEq α] {x y : Option α} :
    (x <|> y) = y ↔ x.any (fun v => some v != y) = false := by
  cases x <;> simp

/-- A heartbeat leaves a row alone when it changes none of the recorded identity. -/
theorem untouched_of_heartbeat {i : HeartbeatIdentity} {heartbeatAt expiresAt : Time}
    {reconciledAt : Option Time} :
    l.Untouched { l with
      heartbeatAt := heartbeatAt
      expiresAt := expiresAt
      pid := i.pid <|> l.pid
      processGroup := i.processGroup <|> l.processGroup
      processStartIdentity := i.processStartIdentity <|> l.processStartIdentity
      startupIdentityKind := if l.startupState == .reserved then
        i.startupIdentityKind <|> l.startupIdentityKind else l.startupIdentityKind
      startupContainerId := if l.startupState == .reserved then
        i.startupContainerId <|> l.startupContainerId else l.startupContainerId
      startupSessionId := if l.startupState == .reserved then
        i.startupSessionId <|> l.startupSessionId else l.startupSessionId
      reconciledAt := reconciledAt } ↔
    expiresAt ≤ l.expiresAt ∧ i.writes l = false := by
  unfold HeartbeatIdentity.writes
  simp only [Bool.or_eq_false_iff, Bool.and_eq_false_iff, ← orElse_eq_iff]
  cases hstate : l.startupState == .reserved
  · simp only [Bool.false_eq_true, if_false, true_or, and_true]
    constructor
    · intro h
      exact ⟨h.extended, ⟨h.pid, h.processGroup⟩, h.processStartIdentity⟩
    · rintro ⟨hextended, ⟨hpid, hgroup⟩, hstart⟩
      exact ⟨hextended, rfl, ⟨rfl, rfl⟩, hpid, hgroup, hstart, rfl, rfl, rfl⟩
  · simp only [if_true, Bool.true_eq_false, false_or]
    constructor
    · intro h
      exact ⟨h.extended, ⟨⟨h.pid, h.processGroup⟩, h.processStartIdentity⟩,
        ⟨h.startupIdentityKind, h.startupContainerId⟩, h.startupSessionId⟩
    · rintro ⟨hextended, ⟨⟨hpid, hgroup⟩, hstart⟩, ⟨hkind, hcontainer⟩, hsession⟩
      exact ⟨hextended, rfl, ⟨rfl, rfl⟩, hpid, hgroup, hstart, hkind, hcontainer, hsession⟩

theorem not_untouched_of_release {reason : String} (h : l.status = .active) :
    ¬l.Untouched (l.release now reason) := by
  intro huntouched
  have hreleased := huntouched.released
  rw [h] at hreleased
  cases hreleased

/-- A row that an operation replaces by another one is left alone exactly when the other one is. -/
theorem exists_untouched_iff {s' : Store} {l' : Lease} (h : s'.leases.get? id = some l') :
    (∃ l₁, s'.leases.get? id = some l₁ ∧ l.Untouched l₁) ↔ l.Untouched l' := by
  constructor
  · rintro ⟨l₁, hl₁, huntouched⟩
    rw [h, Option.some.injEq] at hl₁
    exact hl₁ ▸ huntouched
  · intro huntouched
    exact ⟨l', h, huntouched⟩

theorem get?_leases_markUnconfirmed {executorId : ExecutorId} {startupToken : Token}
    (hl : s.leases.get? id = some l) (htoken : l.startupToken ≠ some startupToken) :
    (s.markHostRunStartTerminationUnconfirmed now leaseId runId executorId
      startupToken).store.leases.get? id = some l := by
  have hother : unconfirmable leaseId runId executorId startupToken id l = false := by
    simp [unconfirmable, htoken]
  have hsettling : ∀ r : Run, { r with state := RunState.settling }.state ∉ RunState.terminal := by
    intro r
    simp [RunState.terminal]
  rcases markHostRunStartTerminationUnconfirmed_cases s now runId leaseId executorId startupToken
    with hs | hs <;> rw [hs]
  · exact hl
  · dsimp only
    split
    · rw [updateLeases_leases, Table.get?_update, hl, Option.map_some, hother]
      rfl
    · rw [settleGeneration, appendAttemptTraces_leases, updateAttempts_leases,
        get?_leases_updateRuns hsettling, updateLeases_leases, Table.get?_update, hl,
        Option.map_some, hother]
      rfl

theorem get?_leases_requeue {workerId : WorkerId} {startupToken : Token} {retryAfter : Time}
    {errorText : String} (hl : s.leases.get? id = some l)
    (htoken : l.startupToken ≠ some startupToken) :
    (s.requeueUnconfirmedHostRunStart now workerId runId leaseId startupToken retryAfter
      errorText).store.leases.get? id = some l := by
  have hother : (id == leaseId && l.runId == runId && l.status == .active &&
      oneOf l.startupState [.reserved, .terminationUnconfirmed] &&
      l.startupToken == some startupToken) = false := by
    simp [htoken]
  have hqueued : ∀ r, (fencedRow s.settings now runId retryAfter errorText r).state ∉
      RunState.terminal := fun _ => queued_notMem_terminal
  rcases requeueUnconfirmedHostRunStart_cases s now workerId runId leaseId startupToken retryAfter
    errorText with hs | ⟨r, -, hs⟩ <;> rw [hs]
  · exact hl
  · rw [requeueGeneration, insertEventOnce_leases, updateWorkers_leases,
      appendAttemptTraces_leases, updateAttempts_leases, get?_leases_updateRuns hqueued,
      updateLeases_leases, Table.get?_update, hl, Option.map_some, hother]
    rfl

/-- The holder of another token leaves a row alone exactly when its operation does not reach it. -/
theorem held_untouched_iff {g : LeaseGrant} {op : HolderOp} (hl : s.leases.get? id = some l)
    (htoken : l.startupToken ≠ some g.startupToken) :
    (∃ l', (s.step ⟨now, .start (op.start g)⟩).leases.get? id = some l' ∧ l.Untouched l') ↔
      s.reaches now g id l op = false := by
  cases op with
  | confirm workerId runStartedAt identity allow callback =>
    generalize ha : g.confirmation workerId runStartedAt identity allow callback = a
    have hrun : a.runId = g.runId := by rw [← ha, LeaseGrant.confirmation]
    have htoken' : l.startupToken ≠ some a.startupToken := by
      rw [← ha]
      exact htoken
    simp only [HolderOp.start, reaches, ha]
    change (∃ l', (s.confirmHostRunStart now a).store.leases.get? id = some l' ∧ _) ↔ _
    cases hunproven : s.unprovenRun a with
    | none =>
      rw [exists_untouched_iff (confirmHostRunStart_of_proven hunproven hl (Or.inr htoken'))]
      simp [Lease.untouched_refl]
    | some =>
      rw [confirmHostRunStart_of_unproven hunproven, get?_leases_downgradeUnprovenRunning, hl,
        Option.map_some, hrun]
      cases hreach : l.runId == g.runId && l.status == .active with
      | true =>
        have hactive : l.status = .active := by simpa using (Bool.and_eq_true_iff.mp hreach).2
        simp [hreach, not_untouched_of_release hactive]
      | false =>
        simp [hreach, Lease.untouched_refl]
  | heartbeat executorId identity ttl reconciled allowExpired =>
    simp only [HolderOp.start, reaches]
    change (∃ l', (s.heartbeatHostRunLease now g.leaseId executorId identity ttl reconciled
      allowExpired).store.leases.get? id = some l' ∧ _) ↔ _
    unfold heartbeatHostRunLease
    dsimp only
    rw [Outcome.store_commit, updateLeases_leases, Table.get?_update, hl, Option.map_some]
    generalize (id == g.leaseId && l.status == .active &&
      (allowExpired || decide (now < l.expiresAt)) &&
      !((s.runs.get? l.runId).any fun r => oneOf r.state [.completed, .failed, .cancelled]) &&
      executorId.all (· == l.executorId)) = live
    cases live with
    | true =>
      simp only [if_true, Option.some.injEq, exists_eq_left', untouched_of_heartbeat]
      simp
    | false => simp [Lease.untouched_refl]
  | release executorId reason =>
    simp only [HolderOp.start, reaches]
    change (∃ l', (s.releaseHostRunLease now g.leaseId executorId reason).store.leases.get? id =
      some l' ∧ _) ↔ _
    unfold releaseHostRunLease
    dsimp only
    rw [Outcome.store_commit, updateLeases_leases, Table.get?_update, hl, Option.map_some]
    cases hreach : id == g.leaseId && l.status == .active &&
      executorId.all (· == l.executorId) with
    | true =>
      have hactive : l.status = .active := by
        simp only [Bool.and_eq_true, beq_iff_eq] at hreach
        exact hreach.1.2
      simp [not_untouched_of_release hactive]
    | false => simp [Lease.untouched_refl]
  | markUnconfirmed =>
    simp only [HolderOp.start, reaches]
    change (∃ l', (s.markHostRunStartTerminationUnconfirmed now g.leaseId g.runId g.executorId
      g.startupToken).store.leases.get? id = some l' ∧ _) ↔ _
    rw [exists_untouched_iff (get?_leases_markUnconfirmed hl htoken)]
    simp [Lease.untouched_refl]
  | requeue workerId retryAfter errorText =>
    simp only [HolderOp.start, reaches]
    change (∃ l', (s.requeueUnconfirmedHostRunStart now workerId g.runId g.leaseId g.startupToken
      retryAfter errorText).store.leases.get? id = some l' ∧ _) ↔ _
    rw [exists_untouched_iff (get?_leases_requeue hl htoken)]
    simp [Lease.untouched_refl]

/-- A grant draws its token. -/
theorem nextId_lt_of_granted {a : AcquireLease} (h : s.grantedRun a = some r)
    (hid : (s.acquireHostRunLease now a).value? = some id) :
    s.nextId < (s.acquireHostRunLease now a).store.nextId := by
  obtain ⟨hfree, hr, hworker, hattempt, hrefusal⟩ := grantedRun_eq_some h
  have hrun : (s.runs.get? a.runId).filter (fun r => r.workerId == a.workerId) = some r :=
    Option.filter_eq_some_iff.mpr ⟨hr, by simp [hworker]⟩
  unfold acquireHostRunLease at hid ⊢
  rw [hfree] at hid ⊢
  simp only [hrun, hattempt, hrefusal, Bool.false_eq_true, if_false] at hid ⊢
  cases hlease : s.leaseOf a.runId with
  | some =>
    rw [Outcome.store_commit, nextId_recordCapacity]
    exact Nat.lt_succ_self _
  | none =>
    rw [hlease] at hid
    cases hins : s.leases.insert? (s.nextId + 1) (acquiredLease a now s.nextId r.activeAttemptId) with
    | none =>
      simp only [hins] at hid
      cases hid
    | some =>
      simp only [Outcome.store_commit, nextId_recordCapacity]
      exact Nat.lt_succ_of_lt (Nat.lt_succ_self _)

theorem granted_eq_some {c : Call} {g : LeaseGrant} (h : s.granted c = some g) :
    g.startupToken = s.nextId ∧ s.nextId < (s.step c).nextId := by
  unfold granted at h
  split at h
  · rename_i a hop
    split at h
    · rename_i hgranted
      obtain ⟨r, hr⟩ := Option.isSome_iff_exists.mp hgranted
      obtain ⟨id, hid, rfl⟩ := Option.map_eq_some_iff.mp h
      rw [step_acquire hop]
      exact ⟨rfl, nextId_lt_of_granted hr hid⟩
    · cases h
  · cases h

end Leases

end Store

/-! ## Runs -/

namespace Fencing

/-- Tokens were drawn in the order of the acquisitions. -/
structure Ordered (e : Fencing) : Prop where
  drawn : ∀ g ∈ e.grants, g.startupToken < e.store.nextId
  order : e.grants.Pairwise fun g' g => g.startupToken < g'.startupToken

variable {e : Fencing}

theorem ordered_init (settings : Settings) : (init settings).Ordered :=
  ⟨by simp [init], List.Pairwise.nil⟩

theorem Ordered.step (h : e.Ordered) (i : FencingStep) : (e.step i).Ordered := by
  cases i with
  | system c =>
    have hnext := Store.nextId_step e.store c
    have hdrawn : ∀ g ∈ e.grants, g.startupToken < (e.store.step c).nextId :=
      fun g hg => (h.drawn g hg).trans_le hnext
    cases hgrant : e.store.granted c with
    | none =>
      simp only [Fencing.step, hgrant, Option.toList_none, List.nil_append]
      exact ⟨hdrawn, h.order⟩
    | some =>
      obtain ⟨htoken, hlt⟩ := Store.granted_eq_some hgrant
      simp only [Fencing.step, hgrant, Option.toList_some, List.singleton_append]
      refine ⟨?_, List.pairwise_cons.mpr ⟨fun g₁ hg₁ => ?_, h.order⟩⟩
      · intro g₁ hg₁
        rcases List.mem_cons.mp hg₁ with rfl | hg₁
        · rw [htoken]
          exact hlt
        · exact hdrawn g₁ hg₁
      · rw [htoken]
        exact h.drawn g₁ hg₁
  | held now g op =>
    have hnext := Store.nextId_step e.store ⟨now, .start (op.start g)⟩
    exact ⟨fun g₁ hg₁ => (h.drawn g₁ hg₁).trans_le hnext, h.order⟩

/-- A later generation has another token. -/
theorem Ordered.token_ne (h : e.Ordered) {g g' : LeaseGrant} {l : Lease}
    (hlater : e.Supersedes g g' l) : l.startupToken ≠ some g.startupToken := by
  have hpair := h.order.sublist hlater.later
  have hlt : g.startupToken < g'.startupToken := by simpa using hpair
  rw [hlater.current]
  intro heq
  rw [Option.some.inj heq] at hlt
  exact lt_irrefl _ hlt

theorem fenced_iff (h : e.Ordered) (i : FencingStep) : e.Fenced i ↔ e.Retires i := by
  cases i with
  | system => exact Iff.rfl
  | held =>
    refine forall_congr' fun g' => forall_congr' fun l => ?_
    refine imp_congr_right fun hlater => ?_
    exact Store.held_untouched_iff hlater.row (h.token_ne hlater)

end Fencing

/-- Along every interleaving of holders and other transactions from a new database, holders leave
the later generations of their runs alone exactly when no operation of an earlier holder reaches
one. -/
theorem leaseGenerations_fenced_iff (settings : Settings) (steps : List FencingStep) :
    Along Fencing.step Fencing.Fenced (.init settings) steps ↔
      Along Fencing.step Fencing.Retires (.init settings) steps :=
  along_congr_of_invariant (I := Fencing.Ordered) (fun _ i h => Fencing.fenced_iff h i)
    (fun _ i h _ => h.step i) (Fencing.ordered_init settings)

/-! ## A slow thread of the same executor -/

namespace Fencing

/-- An operation of an earlier holder that reaches a later generation breaks the fence. -/
theorem not_fenced_of_reaches {settings : Settings} {steps : List FencingStep} {now : Time}
    {g g' : LeaseGrant} {op : HolderOp}
    (hgrants : (run step (init settings) steps).grants = [g', g]) (hrun : g'.runId = g.runId)
    (hreach : ((run step (init settings) steps).store.leases.get? g'.leaseId).any (fun l =>
      l.startupToken == some g'.startupToken &&
        (run step (init settings) steps).store.reaches now g g'.leaseId l op) = true) :
    ¬Along step Fenced (init settings) (steps ++ [.held now g op]) := by
  intro halong
  obtain ⟨l, hl, hok⟩ := (Option.any_eq_true ..).mp hreach
  rw [Bool.and_eq_true, beq_iff_eq] at hok
  have hordered : (run step (init settings) steps).Ordered :=
    invariant_run (C := fun _ _ => True) (fun _ i h _ => h.step i) (ordered_init settings)
      (along_of_forall step (fun _ _ => trivial) _ _)
  have hlater : (run step (init settings) steps).Supersedes g g' l :=
    ⟨hgrants ▸ List.Sublist.refl _, hrun, hl, hok.1⟩
  have hfenced := ((along_append step).mp halong).2.1
  rw [(fenced_iff hordered _).mp hfenced g' l hlater] at hok
  exact Bool.false_ne_true hok.2

end Fencing

/-- The first generation of the run. -/
def firstGrant : LeaseGrant := ⟨.uuid 3, 6, 9, 5⟩

/-- The run is acquired again, by the same executor, after its first start was fenced. -/
def acquiredAgain : List FencingStep :=
  Store.withSecondAdmission.map .system

/-- The second attempt runs. -/
def runningAgain : List FencingStep :=
  acquiredAgain ++ [.system ⟨1000000003, .start (.markRunRuntimeInvoked (.uuid 3) 6 9)⟩]

/-- The holder of the first generation writes its process into the second one, releases it, and
downgrades its run by a late confirmation. -/
theorem leaseGenerations_reached :
    ¬Along Fencing.step Fencing.Fenced (.init .default) (acquiredAgain ++
      [.held 1000000004 firstGrant
        (.heartbeat (some 9) ⟨some 777, none, none, none, none, none⟩ 30 false false)]) ∧
    ¬Along Fencing.step Fencing.Fenced (.init .default) (acquiredAgain ++
      [.held 1000000004 firstGrant (.release (some 9) "runtime_returned")]) ∧
    ¬Along Fencing.step Fencing.Fenced (.init .default) (runningAgain ++
      [.held 1000000004 firstGrant (.confirm 1 (some 10)
        ⟨.hostProcess, 12, 12, some (.text "12"), none, some (.id 1)⟩ false none)]) := by
  refine ⟨?_, ?_, ?_⟩
  · exact @Fencing.not_fenced_of_reaches .default acquiredAgain 1000000004 firstGrant
      ⟨.uuid 3, 6, 9, 8⟩ _ (by decide) rfl (by decide)
  · exact @Fencing.not_fenced_of_reaches .default acquiredAgain 1000000004 firstGrant
      ⟨.uuid 3, 6, 9, 8⟩ _ (by decide) rfl (by decide)
  · exact @Fencing.not_fenced_of_reaches .default runningAgain 1000000004 firstGrant
      ⟨.uuid 3, 6, 9, 8⟩ _ (by decide) rfl (by decide)

end GlassHive
