import Mathlib.Data.List.Basic
import Mathlib.Data.List.Infix

/-!
# Runs of a deterministic transition system

A system is a step function from a state and a label to a state. A run is the list of its labels.
Invariants that hold only while a condition on each step holds are the common case, so the
condition is carried along the run.
-/

namespace Transition

variable {σ ι : Type*} (step : σ → ι → σ)

/-- The state after a list of labels. -/
def run (s : σ) (is : List ι) : σ :=
  is.foldl step s

@[simp]
theorem run_nil (s : σ) : run step s [] = s := rfl

@[simp]
theorem run_cons (s : σ) (i : ι) (is : List ι) :
    run step s (i :: is) = run step (step s i) is := rfl

theorem run_append (s : σ) (is js : List ι) :
    run step s (is ++ js) = run step (run step s is) js :=
  List.foldl_append

/-- Every step of the run meets a condition on the state before the step and its label. -/
def Along (C : σ → ι → Prop) : σ → List ι → Prop
  | _, [] => True
  | s, i :: is => C s i ∧ Along C (step s i) is

@[simp]
theorem along_nil (C : σ → ι → Prop) (s : σ) : Along step C s [] := trivial

@[simp]
theorem along_cons (C : σ → ι → Prop) (s : σ) (i : ι) (is : List ι) :
    Along step C s (i :: is) ↔ C s i ∧ Along step C (step s i) is := Iff.rfl

instance decidableAlong (C : σ → ι → Prop) [∀ s i, Decidable (C s i)] :
    ∀ (s : σ) (is : List ι), Decidable (Along step C s is)
  | _, [] => isTrue trivial
  | s, i :: is =>
    have := decidableAlong C (step s i) is
    inferInstanceAs (Decidable (C s i ∧ Along step C (step s i) is))

variable {C : σ → ι → Prop} {is : List ι} {s : σ}

theorem along_append {js : List ι} :
    Along step C s (is ++ js) ↔ Along step C s is ∧ Along step C (run step s is) js := by
  induction is generalizing s with
  | nil => simp
  | cons i is ih => simp [ih, and_assoc]

theorem Along.imp {D : σ → ι → Prop} (h : ∀ s i, C s i → D s i) (hC : Along step C s is) :
    Along step D s is := by
  induction is generalizing s with
  | nil => trivial
  | cons i is ih => exact ⟨h _ _ hC.1, ih hC.2⟩

theorem along_of_forall (h : ∀ s i, C s i) (s : σ) (is : List ι) :
    Along step C s is := by
  induction is generalizing s with
  | nil => trivial
  | cons i is ih => exact ⟨h s i, ih (step s i)⟩

theorem along_of_forall_mem (h : ∀ i ∈ is, ∀ s, C s i) (s : σ) :
    Along step C s is := by
  induction is generalizing s with
  | nil => trivial
  | cons i is ih =>
    rw [List.forall_mem_cons] at h
    exact ⟨h.1 s, ih h.2 _⟩

variable {step} {Inv I : σ → Prop}

/-- An invariant preserved by every step that meets the condition holds at the end of a run whose
steps all meet it. -/
theorem invariant_run (hstep : ∀ s i, Inv s → C s i → Inv (step s i)) (hs : Inv s)
    (hC : Along step C s is) : Inv (run step s is) := by
  induction is generalizing s with
  | nil => exact hs
  | cons i is ih => exact ih (hstep s i hs hC.1) hC.2

/-- The same for every state the run visits. -/
theorem invariant_prefix (hstep : ∀ s i, Inv s → C s i → Inv (step s i)) {pre : List ι} (hs : Inv s)
    (hC : Along step C s is) (hpre : pre <+: is) : Inv (run step s pre) := by
  obtain ⟨post, rfl⟩ := hpre
  exact invariant_run hstep hs ((along_append step).mp hC).1

/-- Under an invariant, every step of a run has any property that one step from a state of the
invariant has. -/
theorem along_of_invariant {D : σ → ι → Prop} (hstep : ∀ s i, Inv s → C s i → Inv (step s i))
    (hD : ∀ s i, Inv s → C s i → D s i) (hs : Inv s) (hC : Along step C s is) :
    Along step D s is := by
  induction is generalizing s with
  | nil => trivial
  | cons i is ih => exact ⟨hD s i hs hC.1, ih (hstep s i hs hC.1) hC.2⟩

/-- Two conditions that agree under an invariant, which either of them keeps, agree along runs of
labels for which this is known. -/
theorem along_congr_of_forall_mem {U : ι → Prop} {D : σ → ι → Prop}
    (hiff : ∀ s i, I s → U i → (C s i ↔ D s i)) (hstep : ∀ s i, I s → U i → C s i → I (step s i))
    (hU : ∀ i ∈ is, U i) (hs : I s) : Along step C s is ↔ Along step D s is := by
  induction is generalizing s with
  | nil => exact Iff.rfl
  | cons i is ih =>
    rw [List.forall_mem_cons] at hU
    rw [along_cons, along_cons, ← hiff s i hs hU.1]
    exact and_congr_right fun hC => ih hU.2 (hstep s i hs hU.1 hC)

theorem along_congr_of_invariant {D : σ → ι → Prop} (hiff : ∀ s i, I s → (C s i ↔ D s i))
    (hstep : ∀ s i, I s → C s i → I (step s i)) (hs : I s) :
    Along step C s is ↔ Along step D s is := by
  have hall : ∀ i ∈ is, True := fun _ _ => trivial
  exact along_congr_of_forall_mem (fun s i hs _ => hiff s i hs) (fun s i hs _ => hstep s i hs)
    hall hs

/-- A property that holds at first holds in every state of a run exactly when every step meets the
condition that decides whether the step keeps it. -/
theorem forall_prefix_iff_along {P : σ → Prop} (hstep : ∀ s i, I s → I (step s i))
    (hiff : ∀ s i, I s → P s → (P (step s i) ↔ C s i)) (hs : I s) (hP : P s) :
    (∀ pre, pre <+: is → P (run step s pre)) ↔ Along step C s is := by
  induction is generalizing s with
  | nil => simpa using hP
  | cons i is ih =>
    rw [along_cons, ← hiff s i hs hP]
    constructor
    · intro hall
      have hnext : P (step s i) := hall [i] (List.prefix_append [i] is)
      refine ⟨hnext, (ih (hstep s i hs) hnext).mp fun pre hpre => ?_⟩
      exact hall (i :: pre) ((List.prefix_cons_inj i).mpr hpre)
    · rintro ⟨hnext, hrest⟩ pre hpre
      cases pre with
      | nil => exact hP
      | cons j pre =>
        obtain ⟨rfl, htail⟩ := List.cons_prefix_cons.mp hpre
        exact (ih (hstep s j hs) hnext).mpr hrest pre htail

section Outputs

variable {ω : Type*} (step)

/-- The outputs of the steps of a run, in order. -/
def outputs (out : σ → ι → Option ω) : σ → List ι → List ω
  | _, [] => []
  | s, i :: is => (out s i).toList ++ outputs out (step s i) is

variable {step} {out : σ → ι → Option ω} {Inv : σ → Prop} {Used : σ → ω → Prop}

/-- An output of a run was unused when the run began. -/
theorem unused_of_mem_outputs (hinv : ∀ s i, Inv s → Inv (step s i))
    (hkeep : ∀ s i o, Inv s → Used s o → Used (step s i) o)
    (hout : ∀ s i o, Inv s → out s i = some o → ¬Used s o) {o : ω} (hs : Inv s)
    (ho : o ∈ outputs step out s is) : ¬Used s o := by
  induction is generalizing s with
  | nil => cases ho
  | cons i is ih =>
    rcases List.mem_append.mp ho with h | h
    · exact hout s i o hs (Option.mem_toList.mp h)
    · exact fun hused => ih (hinv s i hs) h (hkeep s i o hs hused)

/-- When every output is unused before its step and used after it, and what is used stays used, no
output occurs twice. -/
theorem nodup_outputs (hinv : ∀ s i, Inv s → Inv (step s i))
    (hkeep : ∀ s i o, Inv s → Used s o → Used (step s i) o)
    (hout : ∀ s i o, Inv s → out s i = some o → ¬Used s o)
    (huse : ∀ s i o, Inv s → out s i = some o → Used (step s i) o) (hs : Inv s) :
    (outputs step out s is).Nodup := by
  induction is generalizing s with
  | nil => exact List.nodup_nil
  | cons i is ih =>
    rw [outputs, List.nodup_append]
    refine ⟨?_, ih (hinv s i hs), ?_⟩
    · cases out s i <;> simp
    · rintro o ho _ ho' rfl
      exact unused_of_mem_outputs hinv hkeep hout (hinv s i hs) ho'
        (huse s i o hs (Option.mem_toList.mp ho))

end Outputs

end Transition
