import GlassHive.AccountLeases

/-!
# Account fences of new runs

`create_run` with all of its arguments, beside every transaction on accounts and of the store. A
caller that names a provider account fences the run: the run is refused while another lease of the
account is alive, and is otherwise inserted together with a row that keeps interactive setups away
from the account. One of the two ways to insert a run looks at the fence.
-/

namespace GlassHive

open Relational Transition

/-- The state that a caller of `create_run` asks for, or the restoration of a running snapshot. -/
inductive RequestedState
  | state (st : RunState)
  | restoration
  deriving DecidableEq

/-- The readings of the clock by the transactions of a restoration. -/
structure RestorationTimes where
  peeked : Time
  claimed : Time
  leased : Time
  admitted : Time
  invoked : Time
  updated : Time

/-- The arguments of `create_run` beside the fence, with the executor that a restoration draws. An
origin trace, a continuation contract or a continuation context makes the call structured. -/
structure CreateRun where
  workerId : WorkerId
  projectId : ProjectId
  instruction : String
  requested : RequestedState
  resumePaused : Bool
  bootstrapBundle : Option JsonValue
  runId : Option RunId
  structured : Bool
  executorId : ExecutorId
  times : RestorationTimes

/-- The first text that is not empty, else the default, stripped and in lower case. -/
def firstClean (texts : List String) (default : String) : String :=
  String.ofList (Text.lower (Text.strip ((texts.find? (· != "")).getD default).toList))

/-- The lease that a restoration acquires. -/
def restoredLease (w : Worker) (workerId : WorkerId) (runId : RunId) (executorId : ExecutorId) :
    AcquireLease where
  runtimeFamily := firstClean [w.executionMode] "docker" ++ ":" ++
    firstClean [w.profile, w.runtime] "worker"
  lane := if firstClean [w.trustedRunLane] "" = "conversation" then .conversation else .mission
  tenantId := w.tenantId
  ownerId := w.ownerId
  workerId := workerId
  runId := runId
  executorId := executorId
  conversationLimit := 1000
  missionLimit := 1000
  accountMissionLimit := 1000
  tenantMissionLimit := 1000
  mutationScope := none
  ttl := 86400
  available := none
  required := .zero
  reservation := .zero
  observedLeaseIds := []

namespace Outcome

variable {α β : Type}

/-- A further transaction, unless the first one raised. -/
def andThen (o : Outcome α) (f : Store → α → Outcome β) : Outcome β :=
  match o.result with
  | .ok a => f o.store a
  | .error e => .raise o.store e

@[simp] theorem andThen_commit (s : Store) (a : α) (f : Store → α → Outcome β) :
    (commit s a).andThen f = f s a := rfl

/-- What the first transaction leaves and the further one keeps holds after both. -/
theorem andThen_store {P : Store → Prop} {o : Outcome α} {f : Store → α → Outcome β}
    (h : P o.store) (hf : ∀ s a, P s → P (f s a).store) : P (o.andThen f).store := by
  rw [andThen]
  split
  · exact hf _ _ h
  · exact h

end Outcome

namespace Store

/-! ## Restoration -/

/-- `_restore_queued_run_as_running`, transaction by transaction. -/
def restoreQueuedRunAsRunning (s : Store) (workerId : WorkerId) (runId : RunId)
    (executorId : ExecutorId) (t : RestorationTimes) : Outcome (Option RunId) :=
  match s.workers.get? workerId with
  | none => .raise s (.valueError
      "A running snapshot can be restored only as the exact next queued run")
  | some w =>
    if (s.peekNextQueuedRun workerId t.peeked).any fun e => e.1 == runId then
      (s.claimNextQueuedRunParallel t.claimed workerId (some executorId) 86400).andThen
        fun s claimed =>
      if claimed != some runId then
        .raise s (.runtimeError "The running snapshot could not claim its exact run")
      else
      (s.acquireHostRunLease t.leased (restoredLease w workerId runId executorId)).andThen
        fun s lease =>
      (s.admitClaimedRun t.admitted runId (lease.getD 0) executorId).andThen fun s admitted =>
      if admitted.isNone then
        .raise s (.runtimeError
          "The running snapshot could not establish an exact runtime generation")
      else
      (s.markRunRuntimeInvoked t.invoked runId (lease.getD 0) executorId).andThen fun s invoked =>
      if invoked.isNone then
        .raise s (.runtimeError
          "The running snapshot could not establish an exact runtime generation")
      else
      (s.updateWorker t.updated workerId true
        { WorkerPatch.none with state := some .running, lastError := some "" }).andThen fun s _ =>
      .commit s (some runId)
    else .raise s (.valueError
      "A running snapshot can be restored only as the exact next queued run")

/-- `create_run` with all of its arguments. -/
def createRunAs (s : Store) (now : Time) (a : CreateRun) (fence : Option AccountFence) :
    Outcome (Option RunId) :=
  match a.requested with
  | .restoration =>
    (s.createRunParallel now a.workerId a.projectId a.instruction .queued a.runId).andThen
      fun s runId =>
    match runId with
    | none => .commit s none
    | some runId => s.restoreQueuedRunAsRunning a.workerId runId a.executorId a.times
  | .state st =>
    if (s.workers.get? a.workerId).any Worker.parallelCleanRoom || st == .running ||
        a.runId.isSome || a.structured then
      s.createRunParallel now a.workerId a.projectId a.instruction st a.runId
    else
      s.createRunLegacy now a.workerId a.projectId a.instruction st a.resumePaused fence
        a.bootstrapBundle

/-- A call for a queued run. -/
theorem createRunAs_queued (s : Store) (now : Time) (a : CreateRun) (fence : Option AccountFence)
    (h : a.requested = .state .queued) :
    s.createRunAs now a fence = s.createRun now a.workerId a.projectId a.instruction a.runId
      a.structured a.resumePaused fence a.bootstrapBundle := by
  rw [createRunAs, h, createRun]
  simp

/-! ## What a restoration leaves alone -/

variable {s s' s₁ : Store} {now : Time}

/-- No fence and no account lease changes, and no run is removed. -/
structure FencesKept (s s' : Store) : Prop where
  fences : s'.accountFences = s.accountFences
  leases : s'.accountLeases = s.accountLeases
  nextId : s.nextId ≤ s'.nextId
  runs : ∀ id, (s.runs.get? id).isSome = true → (s'.runs.get? id).isSome = true

theorem fencesKept_refl : s.FencesKept s :=
  ⟨rfl, rfl, le_rfl, fun _ h => h⟩

theorem FencesKept.trans (h : s.FencesKept s₁) (h' : s₁.FencesKept s') : s.FencesKept s' :=
  ⟨h'.fences.trans h.fences, h'.leases.trans h.leases, h.nextId.trans h'.nextId,
    fun id hid => h'.runs id (h.runs id hid)⟩

/-- A transaction of the store that leaves the fences alone. -/
theorem fencesKept_step {c : Call} (hgc : ∀ op, c.op ≠ .gc op)
    (hcreate : ∀ tenantId, c.op ≠ .worker (.createProject tenantId))
    (hfences : (s.step c).accountFences = s.accountFences) : s.FencesKept (s.step c) := by
  have hframed := framed_step (s := s) hgc hcreate
  exact ⟨hfences, congrArg Records.accountLeases hframed.records, hframed.nextId,
    (retains_step hgc).runs⟩

theorem fencesKept_applyStart (op : StartOp)
    (hop : ∀ workerId require, op ≠ .claimNextQueuedRunLegacy workerId require) :
    s.FencesKept (s.applyStart now op) := by
  refine fencesKept_step (c := ⟨now, .start op⟩) (by simp) (by simp) ?_
  have h := applyStart_step s now op
  rw [step]
  dsimp only
  generalize s.applyStart now op = s' at h
  cases h with
  | swept | claimedLegacy => exact absurd rfl (hop _ _)
  | confirmed | confirmedRunning =>
    rw [publishStart]
    split <;> simp [invokeGeneration]
  | _ => rfl

theorem fencesKept_updateWorker (workerId : WorkerId) (touch : Bool) (patch : WorkerPatch) :
    s.FencesKept (s.updateWorker now workerId touch patch).store :=
  fencesKept_step (c := ⟨now, .worker (.updateWorker workerId touch patch)⟩) (by simp) (by simp)
    rfl

/-- However far a restoration comes, it writes no fence. -/
theorem fencesKept_restoreQueuedRunAsRunning (workerId : WorkerId) (runId : RunId)
    (executorId : ExecutorId) (t : RestorationTimes) :
    s.FencesKept (s.restoreQueuedRunAsRunning workerId runId executorId t).store := by
  rw [restoreQueuedRunAsRunning]
  split
  · exact fencesKept_refl
  split
  · refine Outcome.andThen_store (P := s.FencesKept)
      (fencesKept_applyStart (.claimNextQueuedRunParallel _ _ _) (by simp)) fun _ claimed hclaimed => ?_
    split
    · exact hclaimed
    refine Outcome.andThen_store (P := s.FencesKept)
      (hclaimed.trans (fencesKept_applyStart (.acquireHostRunLease _) (by simp))) fun _ lease hleased => ?_
    refine Outcome.andThen_store (P := s.FencesKept)
      (hleased.trans (fencesKept_applyStart (.admitClaimedRun _ _ _) (by simp))) fun _ admitted hadmitted => ?_
    split
    · exact hadmitted
    refine Outcome.andThen_store (P := s.FencesKept)
      (hadmitted.trans (fencesKept_applyStart (.markRunRuntimeInvoked _ _ _) (by simp))) fun _ invoked hinvoked => ?_
    split
    · exact hinvoked
    exact Outcome.andThen_store (P := s.FencesKept)
      (hinvoked.trans (fencesKept_updateWorker ..)) fun _ _ hupdated => hupdated
  · exact fencesKept_refl

/-! ## The two insertions -/

/-- The fence refuses the run: an interactive setup is active on the worker, or a lease of the
account is alive, is not the mission's own, and is interactive or may not be avoided. -/
def FenceConflict (s : Store) (now : Time) (workerId : WorkerId) (f : AccountFence) : Prop :=
  s.interactiveProviderSetupActive workerId now = true ∨
    ∃ id l, s.accountLeases.get? id = some l ∧ l.accountId = f.accountId ∧ l.live now = true ∧
      ¬(l.workerId = workerId ∧ l.lane = f.missionLane) ∧
      (l.lane.endsWith ":interactive" = true ∨ f.allowMissionFallback = false)

/-- What a call of `create_run` with a fence promises: it raises that the account is busy only for
a conflict, it returns a run that it inserted, and a run that it inserted met no conflict and has a
fence row that was inserted with it. -/
structure Fenced (s : Store) (now : Time) (workerId : WorkerId) (f : AccountFence)
    (o : Outcome (Option RunId)) : Prop where
  busy : ∀ message interactive, o.result = .error (.accountBusy message interactive) →
    s.FenceConflict now workerId f
  returned : ∀ id, o.result = .ok id → ∃ runId, id = some runId ∧ s.runs.get? runId = none ∧
    (o.store.runs.get? runId).isSome = true
  inserted : ∀ runId, s.runs.get? runId = none → (o.store.runs.get? runId).isSome = true →
    ¬s.FenceConflict now workerId f ∧ s.accountFences.get? runId = none ∧
      o.store.accountFences.get? runId = some f.accountId

/-- The only run that is inserted is new, and no account lease changes. -/
structure InsertsRun (s s' : Store) (runId : RunId) : Prop where
  fresh : s.runs.get? runId = none
  row : (s'.runs.get? runId).isSome = true
  other : ∀ id, id ≠ runId → s'.runs.get? id = s.runs.get? id
  leases : s'.accountLeases = s.accountLeases
  nextId : s'.nextId = s.nextId + 1

/-- When at most one lease of an account is alive, the lease that is looked at is the one that
matters. -/
theorem accountFenceBusy_isSome_iff (hexcl : s.AccountLeasesExclusive now) (workerId : WorkerId)
    (f : AccountFence) :
    (s.accountFenceBusy workerId now f).isSome = true ↔
      ∃ id l, s.accountLeases.get? id = some l ∧ l.accountId = f.accountId ∧ l.live now = true ∧
        ¬(l.workerId = workerId ∧ l.lane = f.missionLane) ∧
        (l.lane.endsWith ":interactive" = true ∨ f.allowMissionFallback = false) := by
  rw [accountFenceBusy]
  split
  · rename_i hnone
    rw [Table.first_eq_none] at hnone
    refine iff_of_false (by simp) ?_
    rintro ⟨id, l, hl, haccount, hlive, hother, -⟩
    have := hnone id l hl
    simp only [AccountLease.live, Bool.and_eq_true] at hlive
    simp_all
  · rename_i id l hfirst
    obtain ⟨hl, hp⟩ := Table.first_eq_some hfirst
    simp only [Bool.and_eq_true, beq_iff_eq, Bool.not_eq_true', Bool.and_eq_false_iff,
      beq_eq_false_iff_ne, ne_eq] at hp
    have hlive : l.live now = true := by
      rw [AccountLease.live, Bool.and_eq_true]
      exact ⟨hp.1.1.2, hp.1.2⟩
    have hother : ¬(l.workerId = workerId ∧ l.lane = f.missionLane) := by
      rintro ⟨hw, hlane⟩
      exact hp.2.elim (· hw) (· hlane)
    dsimp only
    constructor
    · intro h
      refine ⟨id, l, hl, hp.1.1.1, hlive, hother, ?_⟩
      split at h
      · rename_i hbusy
        simpa using hbusy
      · cases h
    · rintro ⟨id', l', hl', haccount', hlive', -, hblocks⟩
      obtain rfl : id' = id :=
        hexcl _ _ _ _ hl' hl (haccount'.trans hp.1.1.1.symm) hlive' hlive
      obtain rfl : l' = l := Option.some.inj (hl'.symm.trans hl)
      rw [if_pos (by simpa using hblocks)]
      rfl

/-- Inserting a run that was free, and going on without touching the runs. -/
theorem insertsRun_of_insert {runId : RunId} {r : Run} {runs : Table RunId Run}
    (h : s.runs.insert? runId r = some runs) (hruns : s'.runs = runs)
    (hleases : s'.accountLeases = s.accountLeases) (hnext : s'.nextId = s.nextId + 1) :
    s.InsertsRun s' runId := by
  have hget := Table.get?_insert h
  refine ⟨(Table.insert?_eq_some h).1, ?_, fun id hne => ?_, hleases, hnext⟩
  · simp [hruns, hget]
  · simp [hruns, hget, hne]

/-- A refused call inserts nothing. -/
theorem fenced_of_raise {workerId : WorkerId} {f : AccountFence} {e : StoreError}
    (hbusy : ∀ message interactive, e = .accountBusy message interactive →
      s.FenceConflict now workerId f) :
    s.Fenced now workerId f (.raise s e) := by
  refine ⟨fun message interactive h => hbusy message interactive (by simpa using h),
    fun id h => by simp at h, fun runId hfree hrow => ?_⟩
  rw [Outcome.store_raise, hfree] at hrow
  cases hrow

theorem workAdmissionError_eq_some {w : Option Worker} {projectId : Option ProjectId}
    {e : StoreError} (h : workAdmissionError w projectId = some e) :
    ∃ code message, e = .workAdmission code message := by
  unfold workAdmissionError at h
  split at h
  · exact ⟨_, _, (Option.some.inj h).symm⟩
  · split_ifs at h <;> exact ⟨_, _, (Option.some.inj h).symm⟩

/-- `_create_run_parallel` inserts the run: the worker takes work of the project, and the
identifier is free. -/
def ParallelAdmits (s : Store) (a : CreateRun) : Prop :=
  workAdmissionError (s.workers.get? a.workerId) (some a.projectId) = none ∧
    (s.projects.get? a.projectId).isSome = true ∧
    s.runs.get? (a.runId.getD (.uuid s.nextId)) = none

theorem createRunParallel_cases (s : Store) (now : Time) (a : CreateRun) (st : RunState) :
    (¬s.ParallelAdmits a ∧ ∃ e, s.createRunParallel now a.workerId a.projectId a.instruction st
        a.runId = .raise s e ∧ ∀ message interactive, e ≠ .accountBusy message interactive) ∨
    (s.ParallelAdmits a ∧ ∃ s', s.createRunParallel now a.workerId a.projectId a.instruction st
        a.runId = .commit s' (some (a.runId.getD (.uuid s.nextId))) ∧
      s.InsertsRun s' (a.runId.getD (.uuid s.nextId)) ∧ s'.accountFences = s.accountFences) := by
  rw [createRunParallel]
  split
  · rename_i e herror
    refine Or.inl ⟨fun h => ?_, e, rfl, ?_⟩
    · rw [h.1] at herror
      cases herror
    · rintro message interactive rfl
      obtain ⟨code, text, heq⟩ := workAdmissionError_eq_some herror
      cases heq
  · rename_i herror hworker
    rw [hworker] at herror
    cases herror
  · rename_i w herror hworker
    split
    · rename_i hnone
      refine Or.inl ⟨fun h => ?_, _, rfl, by simp⟩
      have hsome := @insertRun?_isSome s.drawId (a.runId.getD (.uuid s.nextId))
        (s.newRun now (a.runId.getD (.uuid s.nextId)) a.workerId a.projectId w.tenantId
          a.instruction (if (st == .running) = true then .queued else st))
      rw [hnone] at hsome
      exact absurd (hsome.mpr ⟨by simp [newRun, hworker], by simpa [newRun] using h.2.1,
        by simpa using h.2.2⟩) (by simp)
    · rename_i s₁ hins
      have hsome := insertRun?_isSome.mp (Option.isSome_of_eq_some hins)
      refine Or.inr ⟨⟨herror, by simpa [newRun] using hsome.2.1, by simpa using hsome.2.2⟩, _, rfl,
        ?_⟩
      obtain ⟨runs, hruns, rfl⟩ := insertRun?_eq_some hins
      exact ⟨insertsRun_of_insert hruns rfl rfl rfl, rfl⟩

/-- The insertion that looks at the fence: a refusal names a conflict if it names the account, and
an insertion met none and put the fence down. -/
theorem createRunLegacy_cases (hexcl : s.AccountLeasesExclusive now) (a : CreateRun)
    (st : RunState) (fence : Option AccountFence) :
    (∃ e, s.createRunLegacy now a.workerId a.projectId a.instruction st a.resumePaused fence
        a.bootstrapBundle = .raise s e ∧
      ∀ f message interactive, fence = some f → e = .accountBusy message interactive →
        s.FenceConflict now a.workerId f) ∨
    ∃ s', s.createRunLegacy now a.workerId a.projectId a.instruction st a.resumePaused fence
        a.bootstrapBundle = .commit s' (some (.uuid s.nextId)) ∧
      s.InsertsRun s' (.uuid s.nextId) ∧
      ∀ f, fence = some f → ¬s.FenceConflict now a.workerId f ∧
        s.accountFences.get? (.uuid s.nextId) = none ∧
        s'.accountFences.get? (.uuid s.nextId) = some f.accountId := by
  rw [createRunLegacy]
  split
  · exact Or.inl ⟨_, rfl, by simp⟩
  split
  · exact Or.inl ⟨_, rfl, by simp⟩
  split
  · exact Or.inl ⟨_, rfl, by simp⟩
  split
  · rename_i hsetup
    exact Or.inl ⟨_, rfl, fun _ _ _ _ _ => Or.inl hsetup⟩
  rename_i hsetup
  split
  · rename_i interactive hbusy
    refine Or.inl ⟨_, rfl, fun f _ _ hf _ => Or.inr ?_⟩
    rw [hf] at hbusy
    exact (accountFenceBusy_isSome_iff hexcl a.workerId f).mp (Option.isSome_of_eq_some hbusy)
  rename_i hfree
  dsimp only
  split
  · exact Or.inl ⟨_, rfl, by simp⟩
  · rename_i s₂ hfenced
    obtain ⟨s₁, hins, rfl, hnew⟩ := insertFencedRun?_eq_some hfenced
    obtain ⟨runs, hruns, rfl⟩ := insertRun?_eq_some hins
    refine Or.inr ⟨_, rfl, insertsRun_of_insert hruns rfl rfl rfl, fun f hf => ?_⟩
    subst hf
    refine ⟨?_, hnew f rfl, ?_⟩
    · rintro (hactive | hconflict)
      · exact hsetup hactive
      · have := (accountFenceBusy_isSome_iff hexcl a.workerId f).mpr hconflict
        rw [Option.bind_some] at hfree
        rw [hfree] at this
        cases this
    · obtain ⟨fences, hfences⟩ := Option.isSome_iff_exists.mp
        (Table.insert?_isSome (t := s.accountFences) (r := f.accountId) |>.mpr (hnew f rfl))
      simp [insertAccountFence, hfences, Table.get?_insert hfences]

/-! ## Either way -/

/-- The call goes to `_create_run_parallel`. -/
def TakesParallel (s : Store) (a : CreateRun) : Prop :=
  a.requested = .restoration ∨ a.requested = .state .running ∨
    (s.workers.get? a.workerId).any Worker.parallelCleanRoom = true ∨ a.runId.isSome = true ∨
    a.structured = true

/-- What a call does: it is refused or inserts without a look at the fence, where a restoration
goes on from there, or it takes the other way. -/
theorem createRunAs_cases (s : Store) (now : Time) (a : CreateRun) (fence : Option AccountFence) :
    (s.TakesParallel a ∧ ¬s.ParallelAdmits a ∧ ∃ e, s.createRunAs now a fence = .raise s e ∧
      ∀ message interactive, e ≠ .accountBusy message interactive) ∨
    (s.TakesParallel a ∧ s.ParallelAdmits a ∧ ∃ s₁ runId, s.InsertsRun s₁ runId ∧
      s₁.accountFences = s.accountFences ∧ s₁.FencesKept (s.createRunAs now a fence).store) ∨
    (¬s.TakesParallel a ∧ ∃ st, s.createRunAs now a fence =
      s.createRunLegacy now a.workerId a.projectId a.instruction st a.resumePaused fence
        a.bootstrapBundle) := by
  rw [createRunAs]
  split
  · rename_i hrequested
    rcases createRunParallel_cases s now a .queued with
      ⟨hno, e, heq, hbusy⟩ | ⟨hadmits, s₁, heq, hins, hfences⟩
    · rw [heq]
      exact Or.inl ⟨Or.inl hrequested, hno, e, rfl, hbusy⟩
    · rw [heq, Outcome.andThen_commit]
      exact Or.inr (Or.inl ⟨Or.inl hrequested, hadmits, s₁, _, hins, hfences,
        fencesKept_restoreQueuedRunAsRunning ..⟩)
  · rename_i st hrequested
    have hways : ((s.workers.get? a.workerId).any Worker.parallelCleanRoom || st == .running ||
        a.runId.isSome || a.structured) = true ↔ s.TakesParallel a := by
      simp only [TakesParallel, hrequested, Bool.or_eq_true, beq_iff_eq, RequestedState.state.injEq,
        reduceCtorEq, false_or]
      tauto
    split
    · rename_i htakes
      rcases createRunParallel_cases s now a st with
        ⟨hno, e, heq, hbusy⟩ | ⟨hadmits, s₁, heq, hins, hfences⟩
      · rw [heq]
        exact Or.inl ⟨hways.mp htakes, hno, e, rfl, hbusy⟩
      · rw [heq]
        exact Or.inr (Or.inl ⟨hways.mp htakes, hadmits, s₁, _, hins, hfences, fencesKept_refl⟩)
    · rename_i htakes
      exact Or.inr (Or.inr ⟨fun h => htakes (hways.mpr h), st, rfl⟩)

/-- No call touches the leases of accounts. -/
theorem createRunAs_accountLeases (hexcl : s.AccountLeasesExclusive now) (a : CreateRun)
    (fence : Option AccountFence) :
    (s.createRunAs now a fence).store.accountLeases = s.accountLeases ∧
      s.nextId ≤ (s.createRunAs now a fence).store.nextId := by
  rcases createRunAs_cases s now a fence with
    ⟨-, -, e, heq, -⟩ | ⟨-, -, s₁, runId, hins, -, hkept⟩ | ⟨-, st, heq⟩
  · rw [heq]
    exact ⟨rfl, le_rfl⟩
  · refine ⟨hkept.leases.trans hins.leases, hkept.nextId.trans' ?_⟩
    rw [hins.nextId]
    exact Nat.le_succ _
  · rw [heq]
    rcases createRunLegacy_cases hexcl a st fence with ⟨e, hraise, -⟩ | ⟨s', hcommit, hins, -⟩
    · rw [hraise]
      exact ⟨rfl, le_rfl⟩
    · rw [hcommit, Outcome.store_commit, hins.nextId]
      exact ⟨hins.leases, Nat.le_succ _⟩

/-- A call with a fence applies it unless the way that overlooks it inserts the run. -/
theorem fenced_createRunAs_iff (hexcl : s.AccountLeasesExclusive now) (a : CreateRun)
    (f : AccountFence) :
    s.Fenced now a.workerId f (s.createRunAs now a (some f)) ↔
      ¬(s.TakesParallel a ∧ s.ParallelAdmits a) := by
  rcases createRunAs_cases s now a (some f) with
    ⟨-, hno, e, heq, hbusy⟩ | ⟨htakes, hadmits, s₁, runId, hins, hfences, hkept⟩ |
      ⟨htakes, st, heq⟩
  · rw [heq]
    exact iff_of_true (fenced_of_raise fun m i h => absurd h (hbusy m i)) fun h => hno h.2
  · refine iff_of_false (fun h => ?_) fun h => h ⟨htakes, hadmits⟩
    obtain ⟨-, hold, hnew⟩ := h.inserted runId hins.fresh (hkept.runs runId hins.row)
    rw [hkept.fences, hfences, hold] at hnew
    cases hnew
  · refine iff_of_true ?_ fun h => htakes h.1
    rw [heq]
    rcases createRunLegacy_cases hexcl a st (some f) with
      ⟨e, hraise, hbusy⟩ | ⟨s', hcommit, hins, hfence⟩
    · rw [hraise]
      exact fenced_of_raise fun m i => hbusy f m i rfl
    · rw [hcommit]
      obtain ⟨hfree, hold, hnew⟩ := hfence f rfl
      refine ⟨fun m i h => by simp at h, fun id h => ⟨_, ?_, hins.fresh, hins.row⟩,
        fun runId hfresh hrow => ?_⟩
      · exact (Except.ok.inj h).symm
      · have hid : runId = .uuid s.nextId := by
          by_contra hne
          rw [Outcome.store_commit, hins.other runId hne, hfresh] at hrow
          cases hrow
        subst hid
        exact ⟨hfree, hold, hnew⟩

end Store

/-! ## Runs -/

/-- A step on accounts or of the store, or a call of `create_run`, after some time. -/
inductive CreationStep
  | account (i : AccountStep)
  | createRun (elapsed : ℕ) (a : CreateRun) (fence : Option AccountFence)

namespace AccountSystem

variable {e : AccountSystem}

/-- One step. -/
def creationStep (e : AccountSystem) : CreationStep → AccountSystem
  | .account i => e.step i
  | .createRun elapsed a fence =>
    ⟨(e.store.createRunAs (e.clock + elapsed) a fence).store, e.clock + elapsed⟩

/-- Leases stay exclusive while time passes. -/
theorem Leased.exclusive_later (h : e.Leased) (elapsed : ℕ) :
    e.store.AccountLeasesExclusive (e.clock + elapsed) := by
  intro id₁ id₂ l₁ l₂ h₁ h₂ haccount hlive₁ hlive₂
  have hle : e.clock ≤ e.clock + elapsed := Nat.le_add_right _ _
  exact h.exclusive id₁ id₂ l₁ l₂ h₁ h₂ haccount (AccountLease.live_of_le hle hlive₁)
    (AccountLease.live_of_le hle hlive₂)

theorem Leased.creationStep (h : e.Leased) (i : CreationStep) : (e.creationStep i).Leased := by
  cases i with
  | account i => exact h.step i
  | createRun elapsed a fence =>
    have hexcl := h.exclusive_later elapsed
    obtain ⟨hleases, hnext⟩ := Store.createRunAs_accountLeases hexcl a fence
    constructor
    · intro id l hl
      rw [AccountSystem.creationStep, hleases] at hl
      exact (h.drawn id l hl).trans_le hnext
    · intro id₁ id₂ l₁ l₂ h₁ h₂
      rw [AccountSystem.creationStep, hleases] at h₁ h₂
      exact hexcl id₁ id₂ l₁ l₂ h₁ h₂

end AccountSystem

/-- Along every run from a new database, a call of `create_run` with a fence applies it exactly
unless it takes the way that overlooks the fence and that way admits the run. -/
theorem createRun_fenced_iff (settings : Settings) (steps : List CreationStep) (elapsed : ℕ)
    (a : CreateRun) (f : AccountFence) :
    (run AccountSystem.creationStep (.init settings) steps).store.Fenced
      ((run AccountSystem.creationStep (.init settings) steps).clock + elapsed) a.workerId f
      ((run AccountSystem.creationStep (.init settings) steps).store.createRunAs
        ((run AccountSystem.creationStep (.init settings) steps).clock + elapsed) a (some f)) ↔
    ¬((run AccountSystem.creationStep (.init settings) steps).store.TakesParallel a ∧
      (run AccountSystem.creationStep (.init settings) steps).store.ParallelAdmits a) := by
  have hleased : (run AccountSystem.creationStep (.init settings) steps).Leased :=
    invariant_run (C := fun _ _ => True) (fun _ i h _ => h.creationStep i)
      (AccountSystem.leased_init settings) (along_of_forall _ (fun _ _ => trivial) _ _)
  exact Store.fenced_createRunAs_iff (hleased.exclusive_later elapsed) a f

/-! ## A clean room worker -/

/-- A clean room worker, whose account is being set up interactively. -/
def cleanRoomSetup : List CreationStep :=
  [.account ⟨1, .store (.worker (.createProject 0))⟩,
    .account ⟨1, .store (.worker (.createWorker { firstWorker with parallelCleanRoom := true }))⟩,
    .account ⟨1, .create firstAccount⟩,
    .account ⟨1, .acquire { interactiveSetup with accountId := 3 }⟩]

/-- An assigned run of the worker. -/
def assignedRun : CreateRun where
  workerId := 1
  projectId := 0
  instruction := "review"
  requested := .state .queued
  resumePaused := true
  bootstrapBundle := none
  runId := none
  structured := false
  executorId := 0
  times := ⟨0, 0, 0, 0, 0, 0⟩

/-- The account of the worker, without a fallback. -/
def missionFence : AccountFence where
  accountId := 3
  missionLane := "codex-cli:mission"
  allowMissionFallback := false

/-- The system then. -/
def cleanRoomSystem : AccountSystem :=
  run AccountSystem.creationStep (.init .default) cleanRoomSetup

/-- The run is inserted while the setup is active. -/
theorem createRun_overlooks_fence :
    ¬cleanRoomSystem.store.Fenced (cleanRoomSystem.clock + 1) assignedRun.workerId missionFence
      (cleanRoomSystem.store.createRunAs (cleanRoomSystem.clock + 1) assignedRun
        (some missionFence)) := by
  intro h
  obtain ⟨hfree, hrow, hactive⟩ :
      (cleanRoomSystem.store.runs.get? (.uuid 5)).isNone = true ∧
        ((cleanRoomSystem.store.createRunAs (cleanRoomSystem.clock + 1) assignedRun
          (some missionFence)).store.runs.get? (.uuid 5)).isSome = true ∧
        cleanRoomSystem.store.interactiveProviderSetupActive assignedRun.workerId
          (cleanRoomSystem.clock + 1) = true := by
    decide +kernel
  exact (h.inserted (.uuid 5) (Option.isNone_iff_eq_none.mp hfree) hrow).1 (Or.inl hactive)

end GlassHive
