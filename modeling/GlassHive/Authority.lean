import GlassHive.System

/-!
# The authority of a scheduled principal

A principal without an enabled authority row may start nothing that its schedules queued. The
legacy claim looks the principal up, for the first scheduled run that it finds; the parallel claim,
to which an executor, a reserved lease or a delegation sends the call, does not.
-/

namespace GlassHive

open Relational

namespace Store

/-! ## The fence -/

/-- A scheduled run of a principal whose authority is missing or disabled dispatches the run. -/
def unauthorized (s : Store) (runId : RunId) : Bool :=
  s.scheduledRuns.any fun _ q =>
    q.queuedRunId == some runId && !s.scheduleAuthorityEnabled q.tenantId q.ownerId

/-- No queued run of a principal without authority was moved into an executing state. -/
def AuthorityFenced (s s' : Store) : Prop :=
  ∀ id r r', s.runs.get? id = some r → s'.runs.get? id = some r' → s.unauthorized id = true →
    r.state = .queued → r'.state ∉ RunState.executing

/-- The run that either claim would take belongs to no principal without authority: in the parallel
claim the next due run, in the legacy claim the next one that it does not refuse. -/
structure AuthorityChecked (s : Store) (now : Time) (workerId : WorkerId)
    (executorId : Option ExecutorId) : Prop where
  parallel : s.dispatchesParallel now workerId executorId = true →
    s.attempts.get? s.nextId = none → ∀ id r, s.claimable now workerId executorId = some (id, r) →
      s.unauthorized id = false
  legacy : s.dispatchesParallel now workerId executorId = false →
    ∀ id r, s.legacyClaimable now workerId true = some (id, r) → s.unauthorized id = false

/-! ## The two claims -/

section Claims

variable {s : Store} {now : Time} {workerId : WorkerId} {executorId : Option ExecutorId} {ttl : ℕ}

theorem authorityFenced_refl : s.AuthorityFenced s := by
  intro id r r' hr hr' _ hq
  obtain rfl : r = r' := Option.some.inj (hr.symm.trans hr')
  simp [hq, RunState.executing]

/-- The parallel claim is fenced exactly when the run it would take is authorised. -/
theorem claimNextQueuedRunParallel_fenced_iff :
    s.AuthorityFenced (s.claimNextQueuedRunParallel now workerId executorId ttl).store ↔
      (s.attempts.get? s.nextId = none →
        ∀ id r, s.claimable now workerId executorId = some (id, r) → s.unauthorized id = false) := by
  rcases claimNextQueuedRunParallel_cases s now workerId executorId ttl with
    ⟨hs, -, hnone⟩ | ⟨runId, r₀, attempts, hsome, hins, -, hs⟩
  · rw [hs]
    exact ⟨fun _ hfree id r h => by simp [hnone hfree] at h, fun _ => authorityFenced_refl⟩
  · rw [hs]
    obtain ⟨hget, hdue⟩ := claimable_eq_some hsome
    have hfree : s.attempts.get? s.nextId = none := Table.insert?_isSome.mp (by rw [hins]; rfl)
    constructor
    · intro hf _ id r h
      obtain ⟨rfl, rfl⟩ := Prod.mk.inj (Option.some.inj (hsome.symm.trans h))
      by_contra hun
      rw [Bool.not_eq_false] at hun
      obtain ⟨r', hr'⟩ : ∃ r', (s.claimRun now workerId executorId ttl runId
          (s.claimLease workerId runId) attempts).runs.get? runId = some r' := by
        simp [claimRun, Table.get?_update, hget]
      obtain ⟨-, -, -, ⟨-, hstate, -⟩ | ⟨hne, -⟩⟩ := claimRun_rows hr'
      · exact hf _ _ _ hget hr' hun (state_of_due hdue) (by simp [hstate, RunState.executing])
      · exact hne rfl
    · intro hok id r r' hr hr' hun hq hin
      obtain ⟨r₁, hr₁, -, ⟨rfl, -, -⟩ | ⟨-, rfl⟩⟩ := claimRun_rows hr'
      · rw [hok hfree _ _ hsome] at hun
        cases hun
      · exact authorityFenced_refl _ _ _ hr hr₁ hun hq hin

/-- The sweep starts nothing. -/
theorem sweepUnauthorized_fenced (s : Store) (now : Time) (workerId : WorkerId) (require : Bool)
    (n : ℕ) (id : RunId) (r : Run) (r' : Run) (hr : s.runs.get? id = some r)
    (hr' : (sweepUnauthorized now workerId require n s).1.runs.get? id = some r')
    (hq : r.state = .queued) : r'.state ∉ RunState.executing := by
  obtain ⟨r₁, hr₁, rfl | hs⟩ := sweepUnauthorized_rows n s hr'
  · obtain rfl : r = r' := Option.some.inj (hr.symm.trans hr₁)
    simp [hq, RunState.executing]
  · simp [hs.state, RunState.executing]

/-- The legacy claim is fenced exactly when the first run that it does not refuse is authorised. -/
theorem claimNextQueuedRunLegacy_fenced_iff :
    s.AuthorityFenced (s.claimNextQueuedRunLegacy now workerId true).store ↔
      ∀ id r, s.legacyClaimable now workerId true = some (id, r) → s.unauthorized id = false := by
  rcases claimNextQueuedRunLegacy_cases s now workerId true with
    ⟨hs, hnone, -⟩ | ⟨s', hsweep, -, hs⟩
  · rw [hs, hnone]
    exact ⟨fun _ _ _ h => (Option.some_ne_none _ h.symm).elim, fun _ => authorityFenced_refl⟩
  · have hfenced := fun {id r r'} => sweepUnauthorized_fenced s now workerId true
      (s.runs.entries.length + 1) id r r'
    rw [hsweep] at hfenced
    have hkept := fun {id} => sweepUnauthorized_kept now workerId true id
        (s.runs.entries.length + 1) s
    rw [hsweep] at hkept
    cases htaken : s.legacyClaimable now workerId true with
    | none =>
      rw [htaken] at hs
      rw [hs]
      exact ⟨fun _ _ _ h => (Option.some_ne_none _ h.symm).elim,
        fun _ id r r' hr hr' _ hq => hfenced hr hr' hq⟩
    | some e =>
      obtain ⟨runId, r₀⟩ := e
      rw [htaken] at hs
      rw [hs]
      obtain ⟨hget, hdue, hrefused, -⟩ := legacyClaimable_eq_some htaken
      have hrow : s'.runs.get? runId = some r₀ := (hkept hrefused).trans hget
      constructor
      · intro hf id r h
        obtain ⟨rfl, rfl⟩ := Prod.mk.inj (Option.some.inj h)
        by_contra hun
        rw [Bool.not_eq_false] at hun
        obtain ⟨r', hr'⟩ : ∃ r', (s'.startLegacy now runId).runs.get? runId = some r' := by
          simp [startLegacy, Table.get?_update, hrow]
        obtain ⟨-, -, -, -, ⟨-, hstate⟩ | ⟨hne, -⟩⟩ := startLegacy_rows hr'
        · exact hf _ _ _ hget hr' hun (state_of_due hdue) (by simp [hstate, RunState.executing])
        · exact hne rfl
      · intro hok id r r' hr hr' hun hq hin
        obtain ⟨r₁, hr₁, -, -, ⟨rfl, -⟩ | ⟨-, rfl⟩⟩ := startLegacy_rows hr'
        · rw [hok _ _ rfl] at hun
          cases hun
        · exact hfenced hr hr₁ hq hin

/-- A claim that requires the authority of scheduled principals starts no run of a principal
without it if and only if the run that it would take was checked. -/
theorem claimNextQueuedRun_fenced_iff :
    s.AuthorityFenced (s.claimNextQueuedRun now workerId executorId ttl true).store ↔
      s.AuthorityChecked now workerId executorId := by
  rw [claimNextQueuedRun, Bool.true_and]
  cases hdispatch : s.dispatchesParallel now workerId executorId with
  | true =>
    simp only [Bool.not_true, Bool.false_eq_true, if_false]
    rw [claimNextQueuedRunParallel_fenced_iff]
    exact ⟨fun h => ⟨fun _ => h, fun hd => by simp [hdispatch] at hd⟩,
      fun h => h.parallel hdispatch⟩
  | false =>
    simp only [Bool.not_false, if_true]
    rw [claimNextQueuedRunLegacy_fenced_iff]
    exact ⟨fun h => ⟨fun hd => by simp [hdispatch] at hd, fun _ => h⟩,
      fun h => h.legacy hdispatch⟩

/-- An executor starts the run of a principal that has no authority. -/
theorem claimNextQueuedRun_starts_unauthorized :
    (fromCalls withScheduledRun).Reachable ∧
      (fromCalls withScheduledRun).scheduleAuthorityEnabled 0 7 = false ∧
      ¬(fromCalls withScheduledRun).AuthorityFenced
        ((fromCalls withScheduledRun).claimNextQueuedRun 6 1 (some 9) 30 true).store := by
  refine ⟨reachable_fromCalls _, by decide, fun h => ?_⟩
  have hbefore : ((fromCalls withScheduledRun).runs.get? (.schedule 3)).map Run.state =
      some .queued := by
    decide
  have hafter : (((fromCalls withScheduledRun).claimNextQueuedRun 6 1 (some 9) 30
      true).store.runs.get? (.schedule 3)).map Run.state = some .claimed := by
    decide
  obtain ⟨r, hr, hs⟩ := Option.map_eq_some_iff.mp hbefore
  obtain ⟨r', hr', hs'⟩ := Option.map_eq_some_iff.mp hafter
  exact h _ r r' hr hr' (by decide) hs (by simp [hs', RunState.executing])

end Claims

end Store

end GlassHive
