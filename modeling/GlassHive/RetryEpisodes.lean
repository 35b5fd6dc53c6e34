import GlassHive.LeaseGenerations
import GlassHive.QueueWaits
import GlassHive.Traces

/-!
# The bookkeeping of a retry

A requeue for a retry ends the generation that its caller knows, puts the run back into the queue
and records the first capacity refusal of the wait. Whether a wait has such a record is looked up
over all waits of the run, and the callback of an open wait is written again.
-/

namespace GlassHive

open Relational

namespace Store

/-! ## What is asked of a retry -/

/-- The caller of a retry knows the generation of the run. -/
def IsCurrent (s : Store) (runId : RunId) (r : Run) (g : RetryGeneration) : Prop :=
  match r.activeAttemptId with
  | none => g = .none
  | some attemptId => g.attemptId = some attemptId ∧
      ((∃ id l, s.leases.get? id = some l ∧ l.runId = runId ∧ l.attemptId = some attemptId ∧
          g.leaseId = some id ∧ g.executorId = some l.executorId ∧
          g.startupToken = l.startupToken) ∨
        (∀ id l, s.leases.get? id = some l → ¬(l.runId = runId ∧ l.attemptId = some attemptId)) ∧
          g.leaseId = none ∧ g.executorId = none ∧ g.startupToken = none)

/-- The run that a retry takes back. -/
structure Retries (s : Store) (a : RequeueRetry) (r : Run) : Prop where
  get : s.runs.get? a.runId = some r
  generation : s.retryGenerationIsExact a.runId r a.expected = true
  admitted : workAdmissionError (s.workers.get? r.workerId) none = none
  state : r.state ∈ retriableRunStates

end Store

/-- A store with the capacity attempts that its transactions recorded, each with the generation that
its run was in after the transaction. -/
structure CapacityLog where
  store : Store
  recorded : List (RunId × ℕ × ℕ)

namespace CapacityLog

/-- The capacity attempts that a transaction recorded. -/
def recordedBy (s s' : Store) : List (RunId × ℕ × ℕ) :=
  (s'.capacityAttempts.select fun k _ => (s.capacityAttempts.get? k).isNone).filterMap fun e =>
    (s'.runs.get? e.1.1).map fun r => (e.1.1, e.1.2, r.queueWait.generation)

/-- One transaction of the queue. -/
def step (h : CapacityLog) (c : QueueCall) : CapacityLog :=
  { store := h.store.stepQueue c
    recorded := recordedBy h.store (h.store.stepQueue c) ++ h.recorded }

/-- Nothing is recorded of a new database. -/
def init (settings : Settings) : CapacityLog :=
  ⟨Store.init settings, []⟩

/-- The capacity log has a row of the run that was recorded in a generation of its wait. -/
def HasIn (h : CapacityLog) (runId : RunId) (generation : ℕ) : Prop :=
  ∃ sequence, (runId, sequence, generation) ∈ h.recorded ∧
    (h.store.capacityAttempts.get? (runId, sequence)).isSome = true

/-- A retry that took the run `r` back has left it as `r'`, in the log `h'`. -/
structure Booked (h h' : CapacityLog) (a : RequeueRetry) (r r' : Run) : Prop where
  current : h.store.IsCurrent a.runId r a.expected
  live : r.state ∉ RunState.terminal ∧ r.state ∉ [RunState.settling, .paused, .needsInput]
  generation : r.queueWait.generation ≤ r'.queueWait.generation ∧
    (r.queueWait.generation < r'.queueWait.generation ↔ r.queueWait.isOpen = false)
  wait : r.queueWait.isOpen = true → r'.queueWait.deadlineAt = r.queueWait.deadlineAt ∧
    r'.queueWait.terminalCallbackId = r.queueWait.terminalCallbackId
  attempt : ∀ id t, r.activeAttemptId = some id → h'.store.attempts.get? id = some t →
    t.endedAt.isSome = true
  lease : ∀ id l, h'.store.leases.get? id = some l → l.runId = a.runId →
    l.attemptId = r.activeAttemptId →
    (r.activeAttemptId.isSome = true → a.expected.leaseId = some id) → l.status ≠ .active
  capacity : a.carriesClass = true → h'.HasIn a.runId r'.queueWait.generation

/-- A retry that takes nothing back changes nothing, and one that returns a run is booked. -/
def RetriesBooked (h : CapacityLog) (c : QueueCall) : Prop :=
  ∀ a, c.op = .work (.store (.run (.requeueRunForRetry a))) →
    ((h.store.requeueRunForRetry c.now a).value? = none → (h.step c).store = h.store) ∧
      ∀ r', (h.store.requeueRunForRetry c.now a).value? = some r' →
        (h.step c).store.runs.get? a.runId = some r' ∧
          ∃ r, h.store.runs.get? a.runId = some r ∧ h.Booked (h.step c) a r r'

/-- A retry that finds the wait open finds it announced under its own generation and deadline, and
if it carries a capacity class, the run has a capacity attempt of this generation or none at all. -/
def RetriesInOrder (h : CapacityLog) (c : QueueCall) : Prop :=
  ∀ a r, c.op = .work (.store (.run (.requeueRunForRetry a))) → h.store.Retries a r →
    r.queueWait.isOpen = true → r.episode.Announced a.runId ∧
      (a.carriesClass = true → h.HasIn a.runId r.queueWait.generation ∨
        ∀ k c, h.store.capacityAttempts.get? k = some c → k.1 ≠ a.runId)

end CapacityLog

namespace Store

/-! ## What a retry writes -/

section Retry

variable {s : Store} {now : Time} {a : RequeueRetry} {r : Run}

theorem requeueRunForRetry_of_retries (now : Time) (h : s.Retries a r) :
    (s.requeueRunForRetry now a).store = s.retryRun now a r ∧
      (s.requeueRunForRetry now a).value? = (s.retryRun now a r).runs.get? a.runId := by
  have hstate : oneOf r.state retriableRunStates = true := by simpa using h.state
  rw [requeueRunForRetry, h.get]
  simp [h.generation, h.admitted, hstate]

theorem requeueRunForRetry_of_not_retries (now : Time) (h : ∀ r, ¬s.Retries a r) :
    (s.requeueRunForRetry now a).store = s ∧ (s.requeueRunForRetry now a).value? = none := by
  rw [requeueRunForRetry]
  split
  · exact ⟨rfl, rfl⟩
  rename_i r hr
  split
  · exact ⟨rfl, rfl⟩
  rename_i hexact
  split
  · exact ⟨rfl, rfl⟩
  rename_i hadmission
  split
  · exact ⟨rfl, rfl⟩
  rename_i hstate
  exact absurd ⟨hr, by simpa using hexact, hadmission, by simpa using hstate⟩ (h r)

theorem get?_retryRun (h : s.Retries a r) :
    (s.retryRun now a r).runs.get? a.runId =
      some (Run.triggered now r (a.row s.settings now r)) := by
  rw [runs_retryRun, Table.get?_update, h.get]
  simp [h.state]

theorem episode_retried (s : Store) (now : Time) (a : RequeueRetry) (r : Run) :
    (Run.triggered now r (a.row s.settings now r)).episode =
      r.episode.renewed s.settings now a.runId :=
  episode_triggered_of_queued rfl

/-- The caller of a retry that takes a run back knows its generation. -/
theorem Retries.isCurrent (h : s.Retries a r) : s.IsCurrent a.runId r a.expected := by
  have hexact := h.generation
  unfold retryGenerationIsExact at hexact
  unfold IsCurrent
  revert hexact
  cases r.activeAttemptId with
  | none => simp
  | some =>
    intro hexact
    dsimp only at hexact
    rw [Bool.and_eq_true, beq_iff_eq] at hexact
    refine ⟨hexact.1, ?_⟩
    have hlease := hexact.2
    split at hlease
    · rename_i id l hfirst
      obtain ⟨hl, hmatch⟩ := Table.first_eq_some hfirst
      simp only [Bool.and_eq_true, beq_iff_eq] at hmatch hlease
      exact Or.inl ⟨id, l, hl, hmatch.1, hmatch.2, hlease.1.1, hlease.1.2, hlease.2⟩
    · rename_i hnone
      simp only [Bool.and_eq_true, Option.isNone_iff_eq_none] at hlease
      refine Or.inr ⟨fun id l hl hmatch => ?_, hlease.1.1, hlease.1.2, hlease.2⟩
      have hfalse := Table.first_eq_none.mp hnone id l hl
      simp [hmatch.1, hmatch.2] at hfalse

theorem leases_retryRun (a : RequeueRetry) (r : Run) (id : LeaseId) :
    (s.retryRun now a r).leases.get? id = (s.leases.get? id).map fun l =>
      if requeuedLease a r.activeAttemptId id l then
        Lease.release now ("run_requeued:" ++ a.blockerClass) l
      else l := by
  have hqueued : ∀ q, (a.row s.settings now q).state ∉ RunState.terminal := by
    intro q
    simp [RequeueRetry.row, RunState.terminal]
  rw [retryRun]
  obtain ⟨_, _, h⟩ := recordRetryCapacity_eq
      (Store.appendAttemptTraces _ now r.activeAttemptId.toList) now a r
  rw [h]
  simp only [appendAttemptTraces_leases, updateAttempts_leases, updateLeases_leases,
    Table.get?_update]
  rw [get?_leases_updateRuns hqueued]

/-- No lease of the generation that a retry ends is active. -/
theorem Retries.lease_ended (h : s.Retries a r) {id : LeaseId} {l : Lease}
    (hl : (s.retryRun now a r).leases.get? id = some l) (hrun : l.runId = a.runId)
    (hattempt : l.attemptId = r.activeAttemptId)
    (hexpected : r.activeAttemptId.isSome = true → a.expected.leaseId = some id) :
    l.status ≠ .active := by
  rw [leases_retryRun, Option.map_eq_some_iff] at hl
  obtain ⟨l₀, hl₀, rfl⟩ := hl
  split
  · simp [Lease.release]
  rename_i hkept
  rw [if_neg hkept] at hrun hattempt
  intro hactive
  refine hkept ?_
  simp only [requeuedLease, Bool.and_eq_true, beq_iff_eq, Bool.or_eq_true]
  refine ⟨⟨⟨hrun, hactive⟩, hattempt⟩, ?_⟩
  cases hid : r.activeAttemptId with
  | none => exact Or.inl rfl
  | some =>
    have hcurrent := h.isCurrent
    simp only [IsCurrent, hid] at hcurrent
    have hlease := hexpected (by rw [hid]; rfl)
    obtain ⟨-, ⟨id', l', hl', -, -, hid', hexecutor, htoken⟩ | ⟨-, hnone, -⟩⟩ := hcurrent
    · obtain rfl : id = id' := Option.some.inj (hlease.symm.trans hid')
      obtain rfl : l₀ = l' := Option.some.inj (hl₀.symm.trans hl')
      exact Or.inr ⟨⟨hlease.symm, hexecutor.symm⟩, htoken.symm⟩
    · rw [hnone] at hlease
      cases hlease

theorem requeued_attempt_ended (a : RequeueRetry) {id : AttemptId} {t : Attempt}
    (hid : r.activeAttemptId = some id) (ht : (s.retryRun now a r).attempts.get? id = some t) :
    t.endedAt.isSome = true := by
  rw [attempts_retryRun, Table.get?_update, Option.map_eq_some_iff] at ht
  obtain ⟨t₀, -, rfl⟩ := ht
  split
  · rfl
  · rename_i hkept
    simpa [hid, Option.isSome_iff_ne_none] using hkept

/-! ## The capacity log -/

theorem capacityAttempts_recordRetryCapacity {s' : Store}
    (h : s'.capacityAttempts = s.capacityAttempts) (a : RequeueRetry) (r : Run) :
    (s'.recordRetryCapacity now a r).capacityAttempts =
      (s.recordRetryCapacity now a r).capacityAttempts := by
  simp only [recordRetryCapacity, h]
  split
  · rfl
  · exact h

theorem capacityAttempts_retryRun (a : RequeueRetry) (r : Run) :
    (s.retryRun now a r).capacityAttempts = (s.recordRetryCapacity now a r).capacityAttempts := by
  rw [retryRun]
  refine capacityAttempts_recordRetryCapacity ?_ a r
  rfl

/-- A retry records the capacity class that it carries, unless the wait is open and the run has a
record of any wait. -/
theorem recordRetryCapacity_cases (s : Store) (now : Time) (a : RequeueRetry) (r : Run) :
    (s.recordRetryCapacity now a r).capacityAttempts = s.capacityAttempts ∧
        (a.carriesClass = true → r.queueWait.isOpen = true ∧
          ∃ k c, s.capacityAttempts.get? k = some c ∧ k.1 = a.runId) ∨
      a.carriesClass = true ∧ (r.queueWait.isOpen = true →
          ∀ k c, s.capacityAttempts.get? k = some c → k.1 ≠ a.runId) ∧
        ∃ sequence row, s.capacityAttempts.insert? (a.runId, sequence) row =
          some (s.recordRetryCapacity now a r).capacityAttempts := by
  rw [recordRetryCapacity]
  dsimp only
  generalize hseen : (s.capacityAttempts.select fun k _ => k.1 == a.runId) = seen
  have hmem : ∀ k c, (k, c) ∈ seen ↔ s.capacityAttempts.get? k = some c ∧ k.1 = a.runId := by
    intro k c
    rw [← hseen, Table.mem_select, beq_iff_eq]
  split
  · rename_i hrecords
    simp only [Bool.and_eq_true, Bool.not_eq_true', Bool.and_eq_false_iff, Bool.not_eq_false',
      List.isEmpty_iff] at hrecords
    refine Or.inr ⟨hrecords.1, fun hopen k c hk hrun => ?_, ?_⟩
    · rcases hrecords.2 with hclosed | hempty
      · rw [hopen] at hclosed
        cases hclosed
      · have hmemk := (hmem k c).mpr ⟨hk, hrun⟩
        rw [hempty] at hmemk
        cases hmemk
    · generalize hn : seen.foldl (fun n e => max n e.1.2) 0 + 1 = n
      have hfresh : s.capacityAttempts.get? (a.runId, n) = none := by
        by_contra hsome
        obtain ⟨c, hc⟩ := Option.ne_none_iff_exists'.mp hsome
        have hle := le_foldl_max (fun e : (RunId × ℕ) × CapacityAttempt => e.1.2) 0
          ((hmem _ c).mpr ⟨hc, rfl⟩)
        dsimp only at hle
        omega
      obtain ⟨attempts, hins⟩ := Option.isSome_iff_exists.mp (Table.insert?_isSome
        (r := ⟨r.activeAttemptId, a.capacity, now⟩) |>.mpr hfresh)
      refine ⟨n, _, hins.trans ?_⟩
      rw [hins]
      rfl
  · rename_i hkept
    refine Or.inl ⟨rfl, fun hcarries => ?_⟩
    rw [hcarries, Bool.true_and, Bool.not_eq_true, Bool.not_eq_false', Bool.and_eq_true,
      Bool.not_eq_true', List.isEmpty_eq_false_iff] at hkept
    obtain ⟨⟨k, c⟩, hkc⟩ := List.exists_mem_of_ne_nil seen hkept.2
    exact ⟨hkept.1, k, c, (hmem k c).mp hkc⟩

end Retry

end Store

namespace CapacityLog

/-! ## When retries are booked -/

section Booked

variable {h : CapacityLog} {c : QueueCall} {s s' : Store} {a : RequeueRetry} {r : Run}

theorem mem_recordedBy {runId : RunId} {sequence generation : ℕ} :
    (runId, sequence, generation) ∈ recordedBy s s' ↔
      (∃ row, s'.capacityAttempts.get? (runId, sequence) = some row) ∧
        s.capacityAttempts.get? (runId, sequence) = none ∧
        ∃ r, s'.runs.get? runId = some r ∧ r.queueWait.generation = generation := by
  simp only [recordedBy, List.mem_filterMap, Option.map_eq_some_iff, Prod.mk.injEq]
  constructor
  · rintro ⟨⟨⟨runId', sequence'⟩, row⟩, hmem, r, hr, rfl, rfl, hgeneration⟩
    obtain ⟨hrow, hnew⟩ := Table.mem_select.mp hmem
    exact ⟨⟨row, hrow⟩, Option.isNone_iff_eq_none.mp hnew, r, hr, hgeneration⟩
  · rintro ⟨⟨row, hrow⟩, hnew, r, hr, hgeneration⟩
    exact ⟨((runId, sequence), row), Table.mem_select.mpr ⟨hrow, by rw [hnew]; rfl⟩, r, hr, rfl,
      rfl, hgeneration⟩

/-- A transaction that leaves the capacity attempts as they are records nothing. -/
theorem hasIn_step_of_eq (heq : (h.step c).store.capacityAttempts = h.store.capacityAttempts)
    {runId : RunId} {generation : ℕ} :
    (h.step c).HasIn runId generation ↔ h.HasIn runId generation := by
  have hrecorded : ∀ sequence, (runId, sequence, generation) ∈ (h.step c).recorded ↔
      (runId, sequence, generation) ∈ h.recorded := by
    intro sequence
    rw [step, List.mem_append, mem_recordedBy]
    refine or_iff_right ?_
    rintro ⟨⟨row, hrow⟩, hnew, -⟩
    rw [step] at heq
    rw [heq, hnew] at hrow
    cases hrow
  simp only [HasIn, hrecorded, heq]

/-- A capacity attempt that a transaction inserts is recorded in the generation of its run. -/
theorem hasIn_step_of_insert {runId : RunId} {sequence : ℕ} {row : CapacityAttempt}
    (hins : h.store.capacityAttempts.insert? (runId, sequence) row =
      some (h.step c).store.capacityAttempts)
    (hr : (h.step c).store.runs.get? runId = some r) :
    (h.step c).HasIn runId r.queueWait.generation := by
  have hrow : (h.step c).store.capacityAttempts.get? (runId, sequence) = some row := by
    rw [Table.get?_insert hins, if_pos rfl]
  refine ⟨sequence, ?_, by rw [hrow]; rfl⟩
  rw [step, List.mem_append, mem_recordedBy]
  exact Or.inl ⟨⟨row, hrow⟩, (Table.insert?_eq_some hins).1, r, hr, rfl⟩

/-- The capacity record that a retry owes: either it has the generation of an open wait, or the run
has none. -/
theorem capacity_iff (hstore : (h.step c).store = h.store.retryRun c.now a r) {r' : Run}
    (hr' : (h.step c).store.runs.get? a.runId = some r')
    (hgeneration : r.queueWait.isOpen = true → r'.queueWait.generation = r.queueWait.generation) :
    (a.carriesClass = true → (h.step c).HasIn a.runId r'.queueWait.generation) ↔
      (r.queueWait.isOpen = true → a.carriesClass = true →
        h.HasIn a.runId r.queueWait.generation ∨
          ∀ k c, h.store.capacityAttempts.get? k = some c → k.1 ≠ a.runId) := by
  have hcapacity : (h.step c).store.capacityAttempts =
      (h.store.recordRetryCapacity c.now a r).capacityAttempts := by
    rw [hstore, Store.capacityAttempts_retryRun]
  rcases Store.recordRetryCapacity_cases h.store c.now a r with
    ⟨hkept, hopen⟩ | ⟨hcarries, hnone, sequence, row, hins⟩
  · rw [hasIn_step_of_eq (hcapacity.trans hkept)]
    constructor
    · intro hhas hwas hcarries
      exact Or.inl (hgeneration hwas ▸ hhas hcarries)
    · intro hcond hcarries
      obtain ⟨hwas, k, row, hk, hrun⟩ := hopen hcarries
      rw [hgeneration hwas]
      rcases hcond hwas hcarries with hhas | hnone
      · exact hhas
      · exact absurd hrun (hnone k row hk)
  · rw [← hcapacity] at hins
    have hhas := hasIn_step_of_insert hins hr'
    exact iff_of_true (fun _ => hhas) fun hwas _ => Or.inr (hnone hwas)

/-- A retry that takes a run back is booked exactly when an open wait is announced as it is, and its
generation has a record if the retry carries a class and the run has any. -/
theorem booked_iff (hc : c.op = .work (.store (.run (.requeueRunForRetry a))))
    (hretry : h.store.Retries a r) (hnum : 1 ≤ r.queueWait.generation) :
    h.Booked (h.step c) a r (Run.triggered c.now r (a.row h.store.settings c.now r)) ↔
      (r.queueWait.isOpen = true → r.episode.Announced a.runId ∧
        (a.carriesClass = true → h.HasIn a.runId r.queueWait.generation ∨
          ∀ k c, h.store.capacityAttempts.get? k = some c → k.1 ≠ a.runId)) := by
  have hstore : (h.step c).store = h.store.retryRun c.now a r := by
    obtain ⟨now, op⟩ := c
    simp only at hc
    subst hc
    exact (Store.requeueRunForRetry_of_retries _ hretry).1
  have hr' : (h.step c).store.runs.get? a.runId =
      some (Run.triggered c.now r (a.row h.store.settings c.now r)) := by
    rw [hstore, Store.get?_retryRun hretry]
  have hepisode := Store.episode_retried h.store c.now a r
  generalize Run.triggered c.now r (a.row h.store.settings c.now r) = r' at hr' hepisode ⊢
  have hgeneration : r'.queueWait.generation =
      r.queueWait.generation + if r.queueWait.isOpen then 0 else 1 := by
    have hmax : max 1 r.queueWait.generation = r.queueWait.generation := max_eq_right hnum
    exact (congrArg Episode.generation hepisode).trans (congrArg (· + _) hmax)
  have hdeadline : r.queueWait.isOpen = true →
      r'.queueWait.deadlineAt = r.queueWait.deadlineAt := fun hopen =>
    (congrArg Episode.deadlineAt hepisode).trans (if_pos hopen)
  have hcallback : r'.queueWait.terminalCallbackId =
      some (timeoutCallbackId a.runId r'.queueWait.generation r'.queueWait.deadlineAt) := by
    have hannounced : r'.episode.Announced a.runId := hepisode ▸ Episode.announced_renewed
    exact hannounced
  have hsame : r.queueWait.isOpen = true →
      r'.queueWait.generation = r.queueWait.generation := fun hopen => by
    rw [hgeneration, if_pos hopen, Nat.add_zero]
  have hcapacity := capacity_iff hstore hr' hsame
  constructor
  · intro hbooked hopen
    refine ⟨?_, hcapacity.mp hbooked.capacity hopen⟩
    have hkept := (hbooked.wait hopen).2
    rw [hcallback, hsame hopen, hdeadline hopen] at hkept
    exact hkept.symm
  · intro hcond
    refine ⟨hretry.isCurrent, ?_, ?_, ?_, ?_, ?_, ?_⟩
    · have hstate := hretry.state
      simp only [Store.retriableRunStates, List.mem_cons, List.not_mem_nil, or_false] at hstate
      rcases hstate with h | h | h | h <;> simp [h, RunState.terminal]
    · rw [hgeneration]
      cases r.queueWait.isOpen <;> simp
    · intro hopen
      refine ⟨hdeadline hopen, ?_⟩
      rw [hcallback, hsame hopen, hdeadline hopen]
      exact (hcond hopen).1.symm
    · intro id t hid ht
      rw [hstore] at ht
      exact Store.requeued_attempt_ended a hid ht
    · intro id l hl hrun hattempt hexpected
      rw [hstore] at hl
      exact hretry.lease_ended hl hrun hattempt hexpected
    · exact hcapacity.mpr fun hopen => (hcond hopen).2

theorem retriesBooked_iff (hnum : h.store.Numbered) : h.RetriesBooked c ↔ h.RetriesInOrder c := by
  constructor
  · intro hbooked a r hc hretry hopen
    obtain ⟨-, hvalue⟩ := Store.requeueRunForRetry_of_retries c.now hretry
    rw [Store.get?_retryRun hretry] at hvalue
    obtain ⟨-, r₀, hr₀, hb⟩ := (hbooked a hc).2 _ hvalue
    obtain rfl := Option.some.inj (hretry.get.symm.trans hr₀)
    exact (booked_iff hc hretry (hnum _ _ hretry.get)).mp hb hopen
  · intro horder a hc
    have hstep : (h.step c).store = (h.store.requeueRunForRetry c.now a).store := by
      obtain ⟨now, op⟩ := c
      simp only at hc
      subst hc
      rfl
    by_cases hretries : ∃ r, h.store.Retries a r
    · obtain ⟨r, hretry⟩ := hretries
      obtain ⟨hs, hvalue⟩ := Store.requeueRunForRetry_of_retries c.now hretry
      rw [Store.get?_retryRun hretry] at hvalue
      rw [hvalue]
      refine ⟨fun hnone => absurd hnone (Option.some_ne_none _), fun r' hr' => ?_⟩
      obtain rfl := Option.some.inj hr'
      refine ⟨by rw [hstep, hs, Store.get?_retryRun hretry], r, hretry.get, ?_⟩
      exact (booked_iff hc hretry (hnum _ _ hretry.get)).mpr (horder a r hc hretry)
    · obtain ⟨hs, hvalue⟩ := Store.requeueRunForRetry_of_not_retries c.now
        fun r hr => hretries ⟨r, hr⟩
      rw [hvalue]
      exact ⟨fun _ => hstep.trans hs, fun r' hr' => absurd hr' (Option.some_ne_none r').symm⟩

end Booked

/-- Along every run, all retries are booked exactly when each of them finds an open wait announced
under its own generation and deadline, and with a capacity record of its generation or none at all
when it carries a class. -/
theorem retries_booked_iff (settings : Settings) (calls : List QueueCall) :
    Transition.Along step RetriesBooked (init settings) calls ↔
      Transition.Along step RetriesInOrder (init settings) calls := by
  have hstep : ∀ (h : CapacityLog) (c : QueueCall), h.store.Numbered → h.RetriesBooked c →
      (h.step c).store.Numbered := fun _ _ hnum _ => Store.numbered_stepQueue hnum
  have hiff : ∀ (h : CapacityLog) (c : QueueCall), h.store.Numbered →
      (h.RetriesBooked c ↔ h.RetriesInOrder c) := fun _ _ hnum => retriesBooked_iff hnum
  have hinit : (init settings).store.Numbered := fun id r hr => by cases hr
  exact Transition.along_congr_of_invariant (I := fun h => h.store.Numbered) hiff hstep hinit

/-! A run is refused for want of a slot, starts, loses its lease and is downgraded, and is refused
again: the new wait was announced under the callback of the first one, and its refusal is not
recorded. -/

/-- A retry of the first run that was refused for want of a slot. -/
def slotRetry (expected : RetryGeneration) : RequeueRetry :=
  { Store.retryFirstRun with
    retryAfter := 8
    expected := expected
    capacity := { Capacity.default with capacityClass := "mission_slots" } }

/-- The transactions before the second refusal. -/
def beforeSecondRefusal : List QueueCall :=
  Store.withAdmittedRun.map Store.asQueueCall ++
    [⟨7, .work (.store (.run (.requeueRunForRetry (slotRetry ⟨some 4, some 6, some 9, some 5⟩))))⟩,
     ⟨8, .work (.store (.start (.claimNextQueuedRunParallel 1 (some 9) 30)))⟩,
     ⟨9, .work (.store (.start (.acquireHostRunLease Store.leaseForFirstRun)))⟩,
     ⟨10, .work (.store (.start (.admitClaimedRun (.uuid 3) 6 9)))⟩,
     ⟨11, .work (.store (.start (.markRunRuntimeInvoked (.uuid 3) 6 9)))⟩,
     ⟨100000000, .work (.store (.run .reconcileInvalidRunningRuns))⟩]

theorem retries_not_booked : ¬Transition.Along step RetriesBooked (init .default)
    (beforeSecondRefusal ++
      [⟨100000001, .work (.store (.run (.requeueRunForRetry (slotRetry .none))))⟩]) := by
  intro h
  have hlast := ((Transition.along_append step).mp h).2.1
  have hwait : ((Transition.run step (init .default) beforeSecondRefusal).store.runs.get?
      (.uuid 3)).any (fun r => r.queueWait.isOpen && r.queueWait.terminalCallbackId ==
        some (timeoutCallbackId (.uuid 3) 1 1800000003)) = true := by decide +kernel
  have hretried : (((Transition.run step (init .default)
      beforeSecondRefusal).store.requeueRunForRetry 100000001 (slotRetry .none)).value?).any (fun r => r.queueWait.terminalCallbackId ==
        some (timeoutCallbackId (.uuid 3) 2 1900000000)) = true := by decide +kernel
  obtain ⟨r', hr', hnew⟩ := (Option.any_eq_true ..).mp hretried
  obtain ⟨-, r₀, hr₀, hbooked⟩ := (hlast _ rfl).2 r' hr'
  obtain ⟨r, hr, hold⟩ := (Option.any_eq_true ..).mp hwait
  obtain rfl := Option.some.inj (hr.symm.trans hr₀)
  simp only [Bool.and_eq_true, beq_iff_eq] at hold hnew
  have hsame := (hbooked.wait hold.1).2
  rw [hold.2, hnew] at hsame
  simp [timeoutCallbackId] at hsame

end CapacityLog

end GlassHive
