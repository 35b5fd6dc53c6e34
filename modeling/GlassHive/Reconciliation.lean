import GlassHive.LeaseGenerations

/-!
# The sweep over running runs

The sweep downgrades the running runs whose generation is not exact, one after another. No downgrade
touches what the others read, so the sweep is one simultaneous update.
-/

namespace GlassHive

open Relational

namespace Store

/-- The sweep reads the same of a run in both stores. -/
structure Spares (s s' : Store) (id : RunId) : Prop where
  settings : s'.settings = s.settings
  row : s'.runs.get? id = s.runs.get? id
  attempts : ∀ k a, a.runId = id → (s'.attempts.get? k = some a ↔ s.attempts.get? k = some a)
  leases : ∀ k l, l.runId = id → (s'.leases.get? k = some l ↔ s.leases.get? k = some l)

variable {s s' : Store} {now : Time} {id : RunId}

theorem Spares.trans {s'' : Store} (h : s.Spares s' id) (h' : s'.Spares s'' id) :
    s.Spares s'' id where
  settings := h'.settings.trans h.settings
  row := h'.row.trans h.row
  attempts k a ha := (h'.attempts k a ha).trans (h.attempts k a ha)
  leases k l hl := (h'.leases k l hl).trans (h.leases k l hl)

theorem Spares.any (h : s.Spares s' id) {p : LeaseId → Lease → Bool}
    (hp : ∀ k l, p k l = true → l.runId = id) : s'.leases.any p = s.leases.any p := by
  rw [Bool.eq_iff_iff, Table.any_eq_true, Table.any_eq_true]
  exact exists₂_congr fun k l => and_congr_left fun hl => h.leases k l (hp k l hl)

theorem Spares.generation (h : s.Spares s' id) :
    s'.runningGenerationIsExact id now = s.runningGenerationIsExact id now := by
  unfold runningGenerationIsExact
  rw [h.row]
  cases s.runs.get? id with
  | none => rfl
  | some r =>
    cases hactive : r.activeAttemptId with
    | none => simp [hactive]
    | some attemptId =>
      have hattempts := h.attempts attemptId
      simp only [hactive]
      cases ha' : s'.attempts.get? attemptId with
      | none => cases ha : s.attempts.get? attemptId <;> grind
      | some a =>
        by_cases hown : a.runId = id
        · rw [(hattempts a hown).mp ha']
          dsimp only
          rw [h.any fun k l hl => by simp at hl; exact hl.1.1.1.1]
        · cases ha : s.attempts.get? attemptId <;> grind

theorem Spares.managed (h : s.Spares s' id) : s'.managedRestart id = s.managedRestart id :=
  funext fun _ => h.any fun k l hl => by simp at hl; exact hl.1.1.1

/-- A downgrade touches nothing of another run. -/
theorem spares_downgradeUnprovenRunning {runId : RunId} {r : Run} {reason : String}
    (hne : runId ≠ id) : s.Spares (s.downgradeUnprovenRunning runId r now reason) id where
  settings := rfl
  row := by
    rw [runs_downgradeUnprovenRunning, Table.get?_update]
    simp [hne.symm]
  attempts k a ha := by
    simp only [downgradeUnprovenRunning, updateWorkers_attempts, updateRuns_attempts,
      updateLeases_attempts, appendAttemptTraces_attempts, updateAttempts_attempts,
      Table.get?_update_eq_some]
    grind [Attempt.retire]
  leases k l hl := by
    rw [get?_leases_downgradeUnprovenRunning, Option.map_eq_some_iff]
    grind [Lease.release]

/-- One row of the sweep. -/
def sweepRun (now : Time) (s : Store) (e : RunId × Run) : Store :=
  if s.runningGenerationIsExact e.1 now then s
  else s.downgradeUnprovenRunning e.1 e.2 now "running_invariant_reconciled"

theorem spares_sweep {rows : List (RunId × Run)} (h : ∀ e ∈ rows, e.1 ≠ id) :
    s.Spares (rows.foldl (sweepRun now) s) id := by
  refine List.foldlRecOn (motive := fun s' => s.Spares s' id) _ _
    ⟨rfl, rfl, fun _ _ _ => Iff.rfl, fun _ _ _ => Iff.rfl⟩ fun s' hs e he => ?_
  unfold sweepRun
  split
  · exact hs
  · exact hs.trans (spares_downgradeUnprovenRunning (h e he))

/-- The sweep reads a run as it was, and leaves what it makes of it. -/
theorem sweep_cases (s : Store) (now : Time) (id : RunId) :
    (s.Spares (s.reconcileInvalidRunningRuns now).store id ∧
      ∀ r, s.runs.get? id = some r → r.state = .running →
        s.runningGenerationIsExact id now = true) ∨
    ∃ r, s.runs.get? id = some r ∧ r.state = .running ∧
      s.runningGenerationIsExact id now = false ∧
      (s.reconcileInvalidRunningRuns now).store.runs.get? id =
        some (Run.triggered now r (s.downgradedRow id r now "running_invariant_reconciled" r)) := by
  have hsweep : (s.reconcileInvalidRunningRuns now).store =
      (s.runs.select fun _ r => r.state == .running).foldl (sweepRun now) s := rfl
  rw [hsweep]
  by_cases hmem : ∃ r, (id, r) ∈ s.runs.select fun _ r => r.state == .running
  · obtain ⟨r, hmem⟩ := hmem
    obtain ⟨hr, hrun⟩ := Table.mem_select.mp hmem
    rw [beq_iff_eq] at hrun
    -- the rows before and after this one are of other runs
    obtain ⟨pre, post, hrows⟩ := List.append_of_mem hmem
    have hnodup : ((s.runs.select fun _ r => r.state == .running).map Prod.fst).Nodup :=
      s.runs.nodup.sublist (List.filter_sublist.map Prod.fst)
    rw [hrows, List.map_append, List.map_cons, List.nodup_middle, List.nodup_cons,
      ← List.map_append] at hnodup
    have hother : ∀ e ∈ pre ++ post, e.1 ≠ id :=
      fun e he heq => hnodup.1 (List.mem_map.mpr ⟨e, he, heq⟩)
    rw [List.forall_mem_append] at hother
    have hpre : s.Spares (pre.foldl (sweepRun now) s) id := spares_sweep hother.1
    rw [hrows, List.foldl_append, List.foldl_cons]
    generalize pre.foldl (sweepRun now) s = t at hpre
    have hpost : (sweepRun now t (id, r)).Spares (post.foldl (sweepRun now) _) id :=
      spares_sweep hother.2
    rw [sweepRun, hpre.generation] at hpost ⊢
    cases hexact : s.runningGenerationIsExact id now with
    | true =>
      rw [hexact, if_pos rfl] at hpost
      exact Or.inl ⟨hpre.trans hpost, fun _ _ _ => rfl⟩
    | false =>
      rw [hexact, if_neg Bool.false_ne_true] at hpost
      refine Or.inr ⟨r, hr, hrun, rfl, hpost.row.trans ?_⟩
      rw [runs_downgradeUnprovenRunning, Table.get?_update, hpre.row, hr]
      simp [hrun, downgradedRow, hpre.managed, hpre.settings]
  · refine Or.inl ⟨spares_sweep fun e he heq => hmem ⟨e.2, heq ▸ he⟩, fun r hr hrun => ?_⟩
    exact absurd ⟨r, Table.mem_select.mpr ⟨hr, by simpa using hrun⟩⟩ hmem

/-- The sweep downgrades at once every running run whose generation is not exact. It leaves the
generations of all running runs exact, and has nothing to do when it is repeated. -/
theorem running_reconciled (s : Store) (now : Time) :
    let s' := (s.reconcileInvalidRunningRuns now).store
    (∀ id, s'.runs.get? id = (s.runs.get? id).map fun r =>
      if r.state = .running ∧ s.runningGenerationIsExact id now = false then
        Run.triggered now r (s.downgradedRow id r now "running_invariant_reconciled" r)
      else r) ∧
    (∀ id r, s'.runs.get? id = some r → r.state = .running →
      s'.runningGenerationIsExact id now = true) ∧
    (s'.reconcileInvalidRunningRuns now).store = s' := by
  intro s'
  have hexact : ∀ id r, s'.runs.get? id = some r → r.state = .running →
      s'.runningGenerationIsExact id now = true := by
    intro id r hr hrun
    rcases s.sweep_cases now id with ⟨hsame, hexact⟩ | ⟨q, -, -, -, hq⟩
    · exact hsame.generation.trans (hexact r (hsame.row ▸ hr) hrun)
    · obtain rfl := Option.some.inj (hq.symm.trans hr)
      cases hrun
  refine ⟨fun id => ?_, hexact, ?_⟩
  · rcases s.sweep_cases now id with ⟨hsame, hexact⟩ | ⟨r, hr, hrun, hfalse, hrow⟩
    · refine hsame.row.trans (Eq.symm ?_)
      cases hr : s.runs.get? id with
      | none => rfl
      | some r => simp +contextual [hexact r hr]
    · rw [hr]
      simpa [hrun, hfalse] using hrow
  · have hidle : ∀ rows : List (RunId × Run), (∀ e ∈ rows, s'.runningGenerationIsExact e.1 now) →
        rows.foldl (sweepRun now) s' = s' := by
      intro rows hrows
      induction rows with
      | nil => rfl
      | cons e rows ih =>
        rw [List.forall_mem_cons] at hrows
        rw [List.foldl_cons, sweepRun, if_pos hrows.1, ih hrows.2]
    refine hidle _ fun e he => ?_
    obtain ⟨hr, hrun⟩ := Table.mem_select.mp he
    exact hexact e.1 e.2 hr (by simpa using hrun)

end Store

end GlassHive
