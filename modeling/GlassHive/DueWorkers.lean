import GlassHive.AttemptMoves
import GlassHive.DelegationReplay
import GlassHive.Library.Rotation

/-!
# Workers that are due

The dispatcher starts the workers that `list_due_retry_worker_ids` lists, and
`next_queued_retry_after` tells it when to look again. Whether a worker gets a run is decided by
`claim_next_queued_run`, which also reads the claim on its compute, the stop of its work and the
lease of the run, and lets a run pass that waits for a capability grant.
-/

namespace GlassHive

open Relational

/-- A row of `due_workers`. -/
structure DueWorker where
  workerId : WorkerId
  tenantId : TenantId
  ownerId : OwnerId
  firstQueuedAt : Time
  deriving DecidableEq, Repr

namespace DueWorker

def owner (d : DueWorker) : TenantId × OwnerId :=
  (d.tenantId, d.ownerId)

/-- The order of an owner: `first_queued_at`, `worker_id`. -/
def key (d : DueWorker) : Time ×ₗ WorkerId :=
  toLex (d.firstQueuedAt, d.workerId)

/-- The order of a round: `first_queued_at`, `tenant_id`, `owner_id`, `worker_id`. -/
def tie (d : DueWorker) : Time ×ₗ TenantId ×ₗ OwnerId ×ₗ WorkerId :=
  toLex (d.firstQueuedAt, toLex (d.tenantId, toLex (d.ownerId, d.workerId)))

end DueWorker

namespace Store

/-! ## The lists of the dispatcher -/

/-- Some run of the worker is claimed, admitted, running, settling, paused or waits for input. -/
def executing (s : Store) (workerId : WorkerId) : Bool :=
  s.runs.any fun _ r => r.workerId == workerId && oneOf r.state RunState.executing

/-- When the first due run of the worker was queued. -/
def firstQueuedAt (s : Store) (now : Time) (workerId : WorkerId) : Option Time :=
  ((s.runs.select fun _ r => due workerId now r).map fun e => e.2.queuedAt).min?

/-- `due_workers`. -/
def dueWorkers (s : Store) (now : Time) : List DueWorker :=
  s.workers.entries.filterMap fun e =>
    if oneOf e.2.state WorkerState.claimRefused || s.executing e.1 then none
    else (s.firstQueuedAt now e.1).map fun t => ⟨e.1, e.2.tenantId, e.2.ownerId, t⟩

/-- `list_due_retry_worker_ids`. -/
def listDueRetryWorkerIds (s : Store) (now : Time) (limit : ℤ) : List WorkerId :=
  ((Rotation.turns DueWorker.owner DueWorker.key DueWorker.tie (s.dueWorkers now)).map
    DueWorker.workerId).take (max 1 limit).toNat

/-- A queued run that a worker in an accepted state keeps for a later time. -/
def waiting (s : Store) (now : Time) (r : Run) : Bool :=
  r.state == .queued &&
    ((s.workers.get? r.workerId).any fun w => !oneOf w.state WorkerState.claimRefused) &&
    r.retry.retryAfter.any fun t => decide (now < t)

/-- `next_queued_retry_after`. -/
def nextQueuedRetryAfter (s : Store) (now : Time) : Option Time :=
  ((s.runs.select fun _ r => s.waiting now r).filterMap fun e => e.2.retry.retryAfter).min?

/-! ## What the dispatcher relies on -/

/-- The tenant and owner of a worker. -/
def ownerOf (s : Store) (workerId : WorkerId) : Option (TenantId × OwnerId) :=
  (s.workers.get? workerId).map fun w => (w.tenantId, w.ownerId)

/-- The list has the workers that a claim would serve, the next time is the first one at which the
list has a worker, and the owners take turns. -/
structure DispatchAgrees (s : Store) (now : Time) (executorId : Option ExecutorId) (ttl : ℕ) :
    Prop where
  listed : ∀ limit : ℤ, (s.dueWorkers now).length ≤ limit → ∀ workerId,
    workerId ∈ s.listDueRetryWorkerIds now limit ↔
      ∃ runId, (s.claimNextQueuedRun now workerId executorId ttl false).result = .ok (some runId)
  never : ∀ limit, s.listDueRetryWorkerIds now limit = [] → s.nextQueuedRetryAfter now = none →
    ∀ t, now ≤ t → s.listDueRetryWorkerIds t limit = []
  next : ∀ limit t, s.listDueRetryWorkerIds now limit = [] →
    s.nextQueuedRetryAfter now = some t → now < t ∧ s.listDueRetryWorkerIds t limit ≠ [] ∧
      ∀ t', now ≤ t' → t' < t → s.listDueRetryWorkerIds t' limit = []
  fair : ∀ limit, Rotation.Fair s.ownerOf (s.listDueRetryWorkerIds now limit)

/-- A worker in an accepted state has a due run. -/
structure HasDue (s : Store) (now : Time) (workerId : WorkerId) (w : Worker) : Prop where
  worker : s.workers.get? workerId = some w
  accepted : w.state ∉ WorkerState.claimRefused
  run : ∃ id r, s.runs.get? id = some r ∧ due workerId now r = true

/-- No claim on its compute, no stop of its work and no lease of its next due run keeps a worker
from a claim of the executor. -/
def Unhindered (s : Store) (now : Time) (executorId : Option ExecutorId) (workerId : WorkerId)
    (w : Worker) : Prop :=
  w.release.token = none ∧ w.workStop.id = none ∧
    ∀ id r, s.peekNextQueuedRun workerId now = some (id, r) →
      (s.claimLease workerId id).all (fun l => l.2.preacceptOnly executorId) = true

/-- A worker with a due run is unhindered when none of its runs executes, and hindered when those
that execute only wait for a capability grant; when no worker is due, the first queued run to come
due is one of a worker that executes none. -/
structure Dispatchable (s : Store) (now : Time) (executorId : Option ExecutorId) : Prop where
  idle : ∀ workerId w, s.HasDue now workerId w → s.executing workerId = false →
    s.Unhindered now executorId workerId w
  busy : ∀ workerId w, s.HasDue now workerId w → s.executing workerId = true →
    s.claimBlocked workerId = false → ¬s.Unhindered now executorId workerId w
  first : (∀ workerId w, s.HasDue now workerId w → s.executing workerId = true) →
    ∀ id r t, s.runs.get? id = some r → s.waiting now r = true → r.retry.retryAfter = some t →
      ∃ id' r' t', s.runs.get? id' = some r' ∧ s.waiting now r' = true ∧
        r'.retry.retryAfter = some t' ∧ t' ≤ t ∧ s.executing r'.workerId = false

/-! ## The list -/

section Lists

variable {s : Store} {now : Time} {workerId : WorkerId}

theorem firstQueuedAt_isSome : (s.firstQueuedAt now workerId).isSome = true ↔
    ∃ id r, s.runs.get? id = some r ∧ due workerId now r = true := by
  rw [firstQueuedAt, List.isSome_min?_iff, ne_eq, List.map_eq_nil_iff]
  constructor
  · intro h
    obtain ⟨⟨id, r⟩, hmem⟩ := List.exists_mem_of_ne_nil _ h
    exact ⟨id, r, Table.mem_select.mp hmem⟩
  · rintro ⟨id, r, h⟩
    exact List.ne_nil_of_mem (Table.mem_select.mpr h)

/-- The due workers are those in an accepted state with a due run and none that executes. -/
theorem mem_dueWorkers {d : DueWorker} : d ∈ s.dueWorkers now ↔
    ∃ w, s.workers.get? d.workerId = some w ∧ w.state ∉ WorkerState.claimRefused ∧
      s.executing d.workerId = false ∧ s.firstQueuedAt now d.workerId = some d.firstQueuedAt ∧
      d.owner = (w.tenantId, w.ownerId) := by
  rw [dueWorkers, List.mem_filterMap]
  constructor
  · rintro ⟨⟨id, w⟩, hw, h⟩
    split at h
    · cases h
    · rename_i hopen
      rw [Bool.or_eq_true, not_or, oneOf_eq_true, Bool.not_eq_true] at hopen
      obtain ⟨t, ht, rfl⟩ := Option.map_eq_some_iff.mp h
      exact ⟨w, Table.get?_eq_some_iff.mpr hw, hopen.1, hopen.2, ht, rfl⟩
  · rintro ⟨w, hw, hstate, hidle, hfirst, howner⟩
    refine ⟨(d.workerId, w), Table.get?_eq_some_iff.mp hw, ?_⟩
    rw [if_neg (by simp [hstate, hidle]), hfirst]
    obtain ⟨workerId, tenantId, ownerId, firstQueuedAt⟩ := d
    obtain ⟨rfl, rfl⟩ := Prod.mk.inj howner
    rfl

theorem exists_mem_dueWorkers : (∃ d ∈ s.dueWorkers now, d.workerId = workerId) ↔
    ∃ w, s.HasDue now workerId w ∧ s.executing workerId = false := by
  constructor
  · rintro ⟨d, hd, rfl⟩
    obtain ⟨w, hw, hstate, hidle, hfirst, -⟩ := mem_dueWorkers.mp hd
    exact ⟨w, ⟨hw, hstate, firstQueuedAt_isSome.mp (by rw [hfirst]; rfl)⟩, hidle⟩
  · rintro ⟨w, h, hidle⟩
    obtain ⟨t, ht⟩ := Option.isSome_iff_exists.mp (firstQueuedAt_isSome.mpr h.run)
    exact ⟨⟨workerId, w.tenantId, w.ownerId, t⟩,
      mem_dueWorkers.mpr ⟨w, h.worker, h.accepted, hidle, ht, rfl⟩, rfl⟩

theorem nodup_key_dueWorkers : ((s.dueWorkers now).map DueWorker.key).Nodup := by
  have hkeys : s.workers.entries.Pairwise fun a b => a.1 ≠ b.1 :=
    List.pairwise_map.mp s.workers.nodup
  rw [List.Nodup, List.pairwise_map, dueWorkers, List.pairwise_filterMap]
  refine hkeys.imp fun {a b} hne d hd e he heq => hne ?_
  have hid : ∀ {c : WorkerId × Worker} {d : DueWorker},
      (if oneOf c.2.state WorkerState.claimRefused || s.executing c.1 then none
        else (s.firstQueuedAt now c.1).map fun t =>
          (⟨c.1, c.2.tenantId, c.2.ownerId, t⟩ : DueWorker)) = some d → d.workerId = c.1 := by
    intro c d h
    split at h
    · cases h
    · obtain ⟨t, -, rfl⟩ := Option.map_eq_some_iff.mp h
      rfl
  rw [← hid hd, ← hid he]
  exact congrArg (fun k : Time ×ₗ WorkerId => (ofLex k).2) heq

theorem mem_listDueRetryWorkerIds {limit : ℤ} (h : (s.dueWorkers now).length ≤ limit) :
    workerId ∈ s.listDueRetryWorkerIds now limit ↔
      ∃ w, s.HasDue now workerId w ∧ s.executing workerId = false := by
  rw [listDueRetryWorkerIds, List.take_of_length_le, List.mem_map, ← exists_mem_dueWorkers]
  · simp only [Rotation.mem_turns]
  · rw [List.length_map, (Rotation.turns_perm _).length_eq]
    omega

theorem listDueRetryWorkerIds_eq_nil {limit : ℤ} : s.listDueRetryWorkerIds now limit = [] ↔
    ∀ workerId w, s.HasDue now workerId w → s.executing workerId = true := by
  rw [listDueRetryWorkerIds, List.take_eq_nil_iff, List.map_eq_nil_iff]
  constructor
  · rintro (hzero | hnil) workerId w h
    · omega
    · by_contra hidle
      rw [Bool.not_eq_true] at hidle
      obtain ⟨d, hd, -⟩ := exists_mem_dueWorkers.mpr ⟨w, h, hidle⟩
      have hturn : d ∈ Rotation.turns DueWorker.owner DueWorker.key DueWorker.tie
          (s.dueWorkers now) := Rotation.mem_turns.mpr hd
      rw [hnil] at hturn
      cases hturn
  · intro h
    refine Or.inr (List.eq_nil_iff_forall_not_mem.mpr fun d hd => ?_)
    obtain ⟨w, hw, hidle⟩ := exists_mem_dueWorkers.mp ⟨d, Rotation.mem_turns.mp hd, rfl⟩
    rw [h _ w hw] at hidle
    cases hidle

theorem fair_listDueRetryWorkerIds (limit : ℤ) :
    Rotation.Fair s.ownerOf (s.listDueRetryWorkerIds now limit) := by
  refine Rotation.Fair.take (Rotation.Fair.map ?_) _
  have howner : ∀ d ∈ s.dueWorkers now, (s.ownerOf ∘ DueWorker.workerId) d = some d.owner := by
    intro d hd
    obtain ⟨w, hw, -, -, -, heq⟩ := mem_dueWorkers.mp hd
    simp [ownerOf, hw, heq]
  refine (Rotation.fair_turns nodup_key_dueWorkers).of_owner fun d hd e he => ?_
  rw [howner d (Rotation.mem_turns.mp hd), howner e (Rotation.mem_turns.mp he),
    Option.some.injEq]

end Lists

/-! ## The claim -/

section Claims

variable {s : Store} {now : Time} {workerId : WorkerId} {executorId : Option ExecutorId} {ttl : ℕ}

theorem claimBlocked_of_idle (h : s.executing workerId = false) :
    s.claimBlocked workerId = false := by
  simp only [executing, claimBlocked, Table.any_eq_false] at h ⊢
  intro id r hr
  rw [h id r hr, Bool.false_and]

theorem hasDue_of_peek {w : Worker} {id : RunId} {r : Run} (hw : s.workers.get? workerId = some w)
    (hstate : w.state ∉ WorkerState.claimRefused)
    (h : s.peekNextQueuedRun workerId now = some (id, r)) : s.HasDue now workerId w :=
  ⟨hw, hstate, id, r, Table.first_eq_some h⟩

theorem peek_of_hasDue {w : Worker} (h : s.HasDue now workerId w) :
    ∃ id r, s.peekNextQueuedRun workerId now = some (id, r) := by
  obtain ⟨id, r, hr, hdue⟩ := h.run
  cases hpeek : s.peekNextQueuedRun workerId now with
  | none =>
    rw [Table.first_eq_none.mp hpeek id r hr] at hdue
    cases hdue
  | some e => exact ⟨e.1, e.2, rfl⟩

theorem claimable_isSome : (s.claimable now workerId executorId).isSome = true ↔
    ∃ w, s.HasDue now workerId w ∧ s.claimBlocked workerId = false ∧
      s.Unhindered now executorId workerId w := by
  constructor
  · intro h
    obtain ⟨⟨id, r⟩, he⟩ := Option.isSome_iff_exists.mp h
    obtain ⟨⟨w, hw, haccepted⟩, hblocked⟩ := accepted_of_claimable he
    simp only [claimAccepted, Bool.and_eq_true, Option.isNone_iff_eq_none, Bool.not_eq_true',
      ← Bool.not_eq_true, oneOf_eq_true] at haccepted
    have hfree : (s.workers.get? workerId).any claimAccepted && !s.claimBlocked workerId := by
      simp [hw, claimAccepted, haccepted, hblocked]
    rw [claimable, if_pos hfree, Option.filter_eq_some_iff] at he
    refine ⟨w, hasDue_of_peek hw haccepted.2 he.1, hblocked, haccepted.1.1, haccepted.1.2, ?_⟩
    intro id' r' hpeek
    obtain ⟨rfl, rfl⟩ := Prod.mk.inj (Option.some.inj (he.1.symm.trans hpeek))
    exact he.2
  · rintro ⟨w, h, hblocked, htoken, hstop, hlease⟩
    obtain ⟨id, r, hpeek⟩ := peek_of_hasDue h
    have hfree : (s.workers.get? workerId).any claimAccepted && !s.claimBlocked workerId := by
      simp [h.worker, claimAccepted, htoken, hstop, h.accepted, hblocked]
    rw [claimable, if_pos hfree, hpeek, Option.filter_some, if_pos (hlease id r hpeek)]
    rfl

/-- A claim for the worker returns a run exactly when the worker has a due run, no run of it blocks
the claim, and nothing hinders it. -/
theorem claimNextQueuedRun_isSome (hfree : s.attempts.get? s.nextId = none) :
    (∃ runId, (s.claimNextQueuedRun now workerId executorId ttl false).result =
        .ok (some runId)) ↔
      ∃ w, s.HasDue now workerId w ∧ s.claimBlocked workerId = false ∧
        s.Unhindered now executorId workerId w := by
  have hparallel : s.claimNextQueuedRun now workerId executorId ttl false =
      s.claimNextQueuedRunParallel now workerId executorId ttl := by simp [claimNextQueuedRun]
  simp only [hparallel, ← Outcome.value?_eq_some]
  rw [← claimable_isSome]
  rcases claimNextQueuedRunParallel_cases s now workerId executorId ttl with
    ⟨-, hvalue, hnone⟩ | ⟨runId, r, attempts, hsome, -, hvalue, -⟩
  · simp [hvalue, hnone hfree]
  · simp [hvalue, hsome]

end Claims

/-! ## The next time -/

section Next

variable {s : Store} {now : Time}

/-- When no worker is due, the workers that are due later are those that wait and execute none. -/
theorem hasDue_later_iff (hnone : ∀ workerId w, s.HasDue now workerId w →
    s.executing workerId = true) {t : Time} :
    (∃ workerId w, s.HasDue t workerId w ∧ s.executing workerId = false) ↔
      ∃ id r t', s.runs.get? id = some r ∧ s.waiting now r = true ∧
        r.retry.retryAfter = some t' ∧ t' ≤ t ∧ s.executing r.workerId = false := by
  constructor
  · rintro ⟨workerId, w, ⟨hw, hstate, id, r, hr, hdue⟩, hidle⟩
    have hlater : due workerId now r = false := by
      by_contra hnow
      rw [Bool.not_eq_false] at hnow
      rw [hnone workerId w ⟨hw, hstate, id, r, hr, hnow⟩] at hidle
      cases hidle
    simp only [due, Bool.and_eq_true, beq_iff_eq] at hdue
    obtain ⟨⟨rfl, hqueued⟩, htime⟩ := hdue
    cases hretry : r.retry.retryAfter with
    | none => simp [due, hqueued, hretry] at hlater
    | some t' =>
      simp only [due, hqueued, hretry, Option.all_some, beq_self_eq_true, Bool.and_self,
        Bool.true_and, decide_eq_false_iff_not, not_le] at hlater
      refine ⟨id, r, t', hr, ?_, hretry, by simpa [hretry] using htime, hidle⟩
      simp [waiting, hqueued, hw, hstate, hretry, hlater]
  · rintro ⟨id, r, t', hr, hwaits, hretry, hle, hidle⟩
    simp only [waiting, Bool.and_eq_true, beq_iff_eq, Option.any_eq_true] at hwaits
    obtain ⟨⟨hqueued, w, hw, hstate⟩, -⟩ := hwaits
    refine ⟨r.workerId, w, ⟨hw, by simpa using hstate, id, r, hr, ?_⟩, hidle⟩
    simp [due, hqueued, hretry, hle]

theorem nextQueuedRetryAfter_eq_none : s.nextQueuedRetryAfter now = none ↔
    ∀ id r, s.runs.get? id = some r → s.waiting now r = false := by
  rw [nextQueuedRetryAfter, List.min?_eq_none_iff, List.filterMap_eq_nil_iff]
  constructor
  · intro h id r hr
    by_contra hwaits
    rw [Bool.not_eq_false] at hwaits
    have hnone : r.retry.retryAfter = none := h (id, r) (Table.mem_select.mpr ⟨hr, hwaits⟩)
    simp [waiting, hnone] at hwaits
  · rintro h ⟨id, r⟩ hmem
    obtain ⟨hr, hwaits⟩ := Table.mem_select.mp hmem
    rw [h id r hr] at hwaits
    cases hwaits

theorem nextQueuedRetryAfter_eq_some {t : Time} : s.nextQueuedRetryAfter now = some t ↔
    (∃ id r, s.runs.get? id = some r ∧ s.waiting now r = true ∧ r.retry.retryAfter = some t) ∧
      ∀ id r t', s.runs.get? id = some r → s.waiting now r = true →
        r.retry.retryAfter = some t' → t ≤ t' := by
  rw [nextQueuedRetryAfter, List.min?_eq_some_iff]
  have hmem : ∀ t, t ∈ ((s.runs.select fun _ r => s.waiting now r).filterMap
      fun e => e.2.retry.retryAfter) ↔
      ∃ id r, s.runs.get? id = some r ∧ s.waiting now r = true ∧ r.retry.retryAfter = some t := by
    intro t
    rw [List.mem_filterMap]
    constructor
    · rintro ⟨⟨id, r⟩, hsel, ht⟩
      exact ⟨id, r, (Table.mem_select.mp hsel).1, (Table.mem_select.mp hsel).2, ht⟩
    · rintro ⟨id, r, hr, hwaits, ht⟩
      exact ⟨(id, r), Table.mem_select.mpr ⟨hr, hwaits⟩, ht⟩
  simp only [hmem]
  constructor
  · rintro ⟨hex, hmin⟩
    exact ⟨hex, fun id r t' hr hwaits ht => hmin t' ⟨id, r, hr, hwaits, ht⟩⟩
  · rintro ⟨hex, hmin⟩
    refine ⟨hex, ?_⟩
    rintro t' ⟨id, r, hr, hwaits, ht⟩
    exact hmin id r t' hr hwaits ht

end Next

/-! ## When the dispatcher agrees with the claim -/

section Dispatch

variable {s : Store} {now : Time} {executorId : Option ExecutorId} {ttl : ℕ}

/-- The list has the workers that a claim would serve exactly when idle workers are unhindered and
busy ones are blocked or hindered. -/
theorem listed_iff (hfree : s.attempts.get? s.nextId = none) (workerId : WorkerId) :
    ((∃ w, s.HasDue now workerId w ∧ s.executing workerId = false) ↔
      ∃ runId, (s.claimNextQueuedRun now workerId executorId ttl false).result =
        .ok (some runId)) ↔
    ∀ w, s.HasDue now workerId w →
      (s.executing workerId = false → s.Unhindered now executorId workerId w) ∧
      (s.executing workerId = true → s.claimBlocked workerId = false →
        ¬s.Unhindered now executorId workerId w) := by
  rw [claimNextQueuedRun_isSome hfree]
  constructor
  · intro h w hdue
    refine ⟨fun hidle => ?_, fun hbusy hblocked hun => ?_⟩
    · obtain ⟨v, hv, -, hun⟩ := h.mp ⟨w, hdue, hidle⟩
      obtain rfl := Option.some.inj (hv.worker.symm.trans hdue.worker)
      exact hun
    · obtain ⟨-, -, hidle⟩ := h.mpr ⟨w, hdue, hblocked, hun⟩
      rw [hbusy] at hidle
      cases hidle
  · intro h
    constructor
    · rintro ⟨w, hdue, hidle⟩
      exact ⟨w, hdue, claimBlocked_of_idle hidle, (h w hdue).1 hidle⟩
    · rintro ⟨w, hdue, hblocked, hun⟩
      refine ⟨w, hdue, ?_⟩
      by_contra hbusy
      rw [Bool.not_eq_false] at hbusy
      exact (h w hdue).2 hbusy hblocked hun

theorem dispatchAgrees_iff (hfree : s.attempts.get? s.nextId = none) :
    s.DispatchAgrees now executorId ttl ↔ s.Dispatchable now executorId := by
  constructor
  · intro h
    have hlisted := fun workerId => (listed_iff hfree workerId).mp
      ((mem_listDueRetryWorkerIds le_rfl).symm.trans (h.listed _ le_rfl workerId))
    refine ⟨fun workerId w hdue => (hlisted workerId w hdue).1,
      fun workerId w hdue => (hlisted workerId w hdue).2, fun hnone id r t hr hwaits hretry => ?_⟩
    cases hnext : s.nextQueuedRetryAfter now with
    | none =>
      rw [nextQueuedRetryAfter_eq_none.mp hnext id r hr] at hwaits
      cases hwaits
    | some u =>
      obtain ⟨-, hdue, -⟩ := h.next 1 u (listDueRetryWorkerIds_eq_nil.mpr hnone) hnext
      rw [Ne, listDueRetryWorkerIds_eq_nil] at hdue
      push Not at hdue
      obtain ⟨workerId, w, hdue, hidle⟩ := hdue
      obtain ⟨id', r', t', hr', hwaits', hretry', hle, hidle'⟩ := (hasDue_later_iff hnone).mp
        ⟨workerId, w, hdue, by simpa using hidle⟩
      exact ⟨id', r', t', hr', hwaits', hretry',
        hle.trans ((nextQueuedRetryAfter_eq_some.mp hnext).2 id r t hr hwaits hretry), hidle'⟩
  · intro h
    have hlater : ∀ {limit t}, (∀ workerId w, s.HasDue now workerId w →
        s.executing workerId = true) → s.listDueRetryWorkerIds t limit ≠ [] →
        ∃ id r t', s.runs.get? id = some r ∧ s.waiting now r = true ∧
          r.retry.retryAfter = some t' ∧ t' ≤ t ∧ s.executing r.workerId = false := by
      intro limit t hnone hdue
      rw [Ne, listDueRetryWorkerIds_eq_nil] at hdue
      push Not at hdue
      obtain ⟨workerId, w, hdue, hidle⟩ := hdue
      exact (hasDue_later_iff hnone).mp ⟨workerId, w, hdue, by simpa using hidle⟩
    refine ⟨fun limit hlimit workerId => ?_, fun limit hnil hnext t _ => ?_,
      fun limit t hnil hnext => ⟨?_, ?_, fun t' _ hlt => ?_⟩, fair_listDueRetryWorkerIds⟩
    · exact (mem_listDueRetryWorkerIds hlimit).trans ((listed_iff hfree workerId).mpr
        fun w hdue => ⟨h.idle workerId w hdue, h.busy workerId w hdue⟩)
    · by_contra hdue
      obtain ⟨id, r, -, hr, hwaits, -⟩ := hlater (listDueRetryWorkerIds_eq_nil.mp hnil) hdue
      rw [nextQueuedRetryAfter_eq_none.mp hnext id r hr] at hwaits
      cases hwaits
    · obtain ⟨⟨id, r, -, hwaits, hretry⟩, -⟩ := nextQueuedRetryAfter_eq_some.mp hnext
      simp only [waiting, hretry, Option.any_some, Bool.and_eq_true, decide_eq_true_eq] at hwaits
      exact hwaits.2
    · obtain ⟨⟨id, r, hr, hwaits, hretry⟩, -⟩ := nextQueuedRetryAfter_eq_some.mp hnext
      have hnone := listDueRetryWorkerIds_eq_nil.mp hnil
      obtain ⟨workerId, w, hdue, hidle⟩ :=
        (hasDue_later_iff hnone).mpr (h.first hnone id r t hr hwaits hretry)
      intro hempty
      rw [listDueRetryWorkerIds_eq_nil.mp hempty workerId w hdue] at hidle
      cases hidle
    · by_contra hdue
      obtain ⟨id, r, u, hr, hwaits, hretry, hle, -⟩ :=
        hlater (listDueRetryWorkerIds_eq_nil.mp hnil) hdue
      have hmin := (nextQueuedRetryAfter_eq_some.mp hnext).2 id r u hr hwaits hretry
      exact absurd (hmin.trans hle) hlt.not_ge

end Dispatch

/-! ## In every store that is reached -/

/-- Every attempt has an identifier that was drawn. -/
def AttemptIdsDrawn (s : Store) : Prop :=
  ∀ id t, s.attempts.get? id = some t → id < s.nextId

section Drawn

variable {s s' : Store}

theorem attemptIdsDrawn_of_eq (hs : s.AttemptIdsDrawn) (h : s'.attempts = s.attempts)
    (hnext : s.nextId ≤ s'.nextId) : s'.AttemptIdsDrawn := by
  intro id t ht
  rw [h] at ht
  exact (hs id t ht).trans_le hnext

theorem attemptIdsDrawn_step (hs : s.AttemptIdsDrawn) (c : Call) :
    (s.step c).AttemptIdsDrawn := by
  intro id t ht
  cases hold : s.attempts.get? id with
  | some t₀ => exact (hs id t₀ hold).trans_le (nextId_step s c)
  | none =>
    have hopens := (attempts_step s c).fresh id t hold ht
    obtain ⟨now, op⟩ := c
    unfold Opens at hopens
    split at hopens
    · rename_i workerId executorId ttl hop
      obtain rfl : op = .start (.claimNextQueuedRunParallel workerId executorId ttl) := hop
      obtain ⟨runId, r, hsome, rfl, -⟩ := hopens
      change s.nextId < (s.claimNextQueuedRunParallel now workerId executorId ttl).store.nextId
      rcases claimNextQueuedRunParallel_cases s now workerId executorId ttl with
        ⟨hstore, -⟩ | ⟨runId, r, attempts, -, -, -, hstore⟩
      · have hopened : (s.claimNextQueuedRunParallel now workerId executorId
            ttl).store.attempts.get? s.nextId = some t := ht
        rw [hstore, hold] at hopened
        cases hopened
      · rw [hstore]
        exact Nat.lt_succ_self s.nextId
    · exact hopens.elim

theorem attemptIdsDrawn_stepWork (hs : s.AttemptIdsDrawn) (c : WorkCall) :
    (s.stepWork c).AttemptIdsDrawn := by
  obtain ⟨now, op⟩ := c
  cases op with
  | store op => exact attemptIdsDrawn_step hs ⟨now, op⟩
  | reserveDelegation a =>
    change (s.reserveDelegation now a).store.AttemptIdsDrawn
    rcases reserveDelegation_store s now a with h | ⟨lease, h⟩
    · rw [h]
      exact hs
    · have hrun := acceptedRun_of_acceptDelegation h
      exact attemptIdsDrawn_of_eq hs hrun.attempts (by have := hrun.nextId; omega)
  | updateDelegationCurrentRun workRef tenantId ownerId runId =>
    have hkept : (s.updateDelegationCurrentRun now workRef tenantId ownerId runId).store.attempts =
          s.attempts ∧
        (s.updateDelegationCurrentRun now workRef tenantId ownerId runId).store.nextId =
          s.nextId := by
      unfold updateDelegationCurrentRun
      split <;> exact ⟨rfl, rfl⟩
    exact attemptIdsDrawn_of_eq hs hkept.1 hkept.2.ge
  | dismissDelegation => exact attemptIdsDrawn_of_eq hs rfl le_rfl

theorem attemptIdsDrawn_afterWork (settings : Settings) (calls : List WorkCall) :
    (afterWork settings calls).AttemptIdsDrawn := by
  have hinit : (init settings).AttemptIdsDrawn := by
    intro id t ht
    simp [init] at ht
  have halong := Transition.along_of_forall stepWork (C := fun _ _ => True) (fun _ _ => trivial)
    (init settings) calls
  have hstep : ∀ (s : Store) (c : WorkCall), s.AttemptIdsDrawn → True →
      (s.stepWork c).AttemptIdsDrawn := fun _ c h _ => attemptIdsDrawn_stepWork h c
  exact Transition.invariant_run hstep hinit halong

end Drawn

/-- In every store that is reached and at every instant, the lists of the dispatcher agree with the
claim exactly when the store is dispatchable. -/
theorem afterWork_dispatchAgrees_iff (settings : Settings) (calls : List WorkCall) (now : Time)
    (executorId : Option ExecutorId) (ttl : ℕ) :
    (afterWork settings calls).DispatchAgrees now executorId ttl ↔
      (afterWork settings calls).Dispatchable now executorId := by
  refine dispatchAgrees_iff ?_
  cases hold : (afterWork settings calls).attempts.get? (afterWork settings calls).nextId with
  | none => rfl
  | some t => exact absurd (attemptIdsDrawn_afterWork settings calls _ t hold) (lt_irrefl _)

/-! ## A claim on the compute of an idle worker -/

/-- The claim of worker `1`, which is idle, on behalf of its queued run `3`. -/
def idleRelease : ClaimRelease where
  workerId := 1
  expectedUpdatedAt := 3
  expectedLastRunId := some (.uuid 3)
  expectedState := .created
  expectedContainerId := none
  owner := 9
  ttl := 60
  kind := .idle
  scope := none
  targetRunId := some (.uuid 3)
  expectedTargetStartedAt := none
  expectedSessionFingerprint := none
  replacement := none
  action := none

/-- A worker with a queued run whose compute is being released. -/
def withIdleRelease : List WorkCall :=
  withQueuedRun.map (fun c => ⟨c.now, .store c.op⟩) ++
    [⟨4, .store (.lifecycle (.tryClaimWorkerComputeRelease idleRelease))⟩]

/-- The worker is listed, and no claim for it returns a run. -/
theorem listDueRetryWorkerIds_lists_claimed : ∃ settings calls now executorId ttl,
    ¬(afterWork settings calls).DispatchAgrees now executorId ttl := by
  refine ⟨.default, withIdleRelease, 5, none, 30, fun h => ?_⟩
  generalize hs : afterWork .default withIdleRelease = s at h
  have hdue : (s.dueWorkers 5).length = 1 := by
    rw [← hs]
    decide +kernel
  have hlist : s.listDueRetryWorkerIds 5 1 = [1] := by
    rw [← hs]
    decide +kernel
  have hclaim : s.claimable 5 1 none = none := by
    rw [← hs]
    decide +kernel
  have hlisted : 1 ∈ s.listDueRetryWorkerIds 5 1 := by rw [hlist]; simp
  obtain ⟨runId, hclaimed⟩ := (h.listed 1 (by rw [hdue]; rfl) 1).mp hlisted
  simp [claimNextQueuedRun, claimNextQueuedRunParallel, hclaim] at hclaimed

end Store

end GlassHive
