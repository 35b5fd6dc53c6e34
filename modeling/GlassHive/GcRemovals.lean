import GlassHive.Frames
import GlassHive.GcCommit
import GlassHive.WorkerMoves

/-!
# What a collection removes

Workers and runs are removed by nothing but the finalization of a garbage collection, which needs
the token of the tombstone, a claimed ephemeral workspace and no blocker. It removes no run that a
record which outlives it names, so an attempt never loses its run.
-/

namespace GlassHive

open Relational Transition

namespace Store

/-- The call removes the worker `workerId`, its runs, and nothing that is referred to. -/
def Removes (s : Store) (c : Call) (workerId : WorkerId) : Prop :=
  ∃ op w, c.op = .gc op ∧ s.Collects c.now op workerId w ∧ s.Collectable workerId w.projectId

variable {s : Store} {c : Call}

/-- A transaction of the garbage collector leaves runs and workers, or removes those of one. -/
theorem gc_step {op : GcOp} (hop : c.op = .gc op) :
    ((s.step c).runs = s.runs ∧
      ∀ id, ((s.step c).workers.get? id).isSome = (s.workers.get? id).isSome) ∨
    ∃ workerId, s.Removes c workerId ∧
      (s.step c).runs = s.runs.delete (fun _ r => r.workerId == workerId) ∧
      (s.step c).workers = s.workers.delete
        fun id w => id == workerId && w.workspaceKind == .ephemeral := by
  have hstep : s.step c = s.applyGc c.now op := by rw [step, hop]
  rw [hstep]
  rcases applyGc_store s c.now op with
    ⟨_, _, _, hkept, h⟩ | ⟨workerId, w, pendingChanges, _, _, hcollects, hdelete, h⟩ <;> rw [h]
  · exact Or.inl ⟨rfl, hkept⟩
  · have hfree := (gcDelete_isOk (s := { s with pendingChanges }) hcollects.row
      hcollects.kind).mp ⟨_, hdelete⟩
    obtain ⟨hworkers, hruns, -⟩ := gcDelete_eq hdelete
    exact Or.inr ⟨workerId, ⟨op, w, hop, hcollects, hfree.withPending s.pendingChanges⟩, hruns,
      hworkers⟩

/-- A run stays in its place unless its worker is collected. -/
theorem run_step {id : RunId} {r : Run} (hr : s.runs.get? id = some r) :
    (∃ r', (s.step c).runs.get? id = some r' ∧ r'.place = r.place) ∨ s.Removes c r.workerId := by
  by_cases hgc : ∃ op, c.op = .gc op
  · obtain ⟨op, hop⟩ := hgc
    rcases gc_step (s := s) hop with ⟨hruns, -⟩ | ⟨workerId, hremoves, hruns, -⟩ <;> rw [hruns]
    · exact Or.inl ⟨r, hr, rfl⟩
    · by_cases hown : r.workerId = workerId
      · exact Or.inr (hown ▸ hremoves)
      · exact Or.inl ⟨r, by simp [Table.get?_delete, hr, hown], rfl⟩
  · exact Or.inl (place_step (fun op h => hgc ⟨op, h⟩) hr)

end Store

end GlassHive
