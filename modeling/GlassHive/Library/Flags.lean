import Mathlib.Data.List.Basic

/-!
# Flags raised and lowered along a trace

Each moment of a trace raises a flag, lowers it, or leaves it. A flag is up at the end exactly when
it was raised, at first or by some moment, and no later moment lowered it.
-/

namespace Flags

variable {μ : Type*} (mark : μ → Option Bool)

/-- The flag after a trace: what the last moment with a mark made of it. -/
def latest (up : Bool) (trace : List μ) : Bool :=
  trace.foldl (fun b m => (mark m).getD b) up

@[simp]
theorem latest_nil (up : Bool) : latest mark up [] = up := rfl

@[simp]
theorem latest_cons (up : Bool) (m : μ) (trace : List μ) :
    latest mark up (m :: trace) = latest mark ((mark m).getD up) trace := rfl

theorem latest_append (up : Bool) (trace more : List μ) :
    latest mark up (trace ++ more) = latest mark (latest mark up trace) more :=
  List.foldl_append

/-- No moment of the trace lowers the flag. -/
def Kept (trace : List μ) : Prop :=
  ∀ m ∈ trace, mark m ≠ some false

/-- The flag was raised, and not lowered since. -/
def Outstanding (up : Bool) (trace : List μ) : Prop :=
  (up = true ∧ Kept mark trace) ∨
    ∃ pre m post, trace = pre ++ m :: post ∧ mark m = some true ∧ Kept mark post

variable {mark} {up : Bool} {m : μ} {trace : List μ}

theorem outstanding_cons : Outstanding mark up (m :: trace) ↔
    Outstanding mark ((mark m).getD up) trace := by
  constructor
  · rintro (⟨hup, hkept⟩ | ⟨pre, m', post, htrace, hm, hkept⟩)
    · have hm : mark m ≠ some false := hkept m (List.mem_cons_self ..)
      refine Or.inl ⟨?_, fun m' hm' => hkept m' (List.mem_cons_of_mem m hm')⟩
      cases h : mark m with
      | none => exact hup
      | some b => cases b <;> simp_all
    · cases pre with
      | nil =>
        obtain ⟨rfl, rfl⟩ := List.cons.inj htrace
        exact Or.inl ⟨by simp [hm], hkept⟩
      | cons m₀ pre =>
        obtain ⟨rfl, rfl⟩ := List.cons.inj htrace
        exact Or.inr ⟨pre, m', post, rfl, hm, hkept⟩
  · rintro (⟨hup, hkept⟩ | ⟨pre, m', post, rfl, hm, hkept⟩)
    · cases h : mark m with
      | none =>
        refine Or.inl ⟨by simpa [h] using hup, fun m' hm' => ?_⟩
        rcases List.mem_cons.mp hm' with rfl | hm'
        · simp [h]
        · exact hkept m' hm'
      | some b =>
        obtain rfl : b = true := by simpa [h] using hup
        exact Or.inr ⟨[], m, trace, rfl, h, hkept⟩
    · exact Or.inr ⟨m :: pre, m', post, rfl, hm, hkept⟩

/-- The last mark decides. -/
theorem latest_eq_true_iff : latest mark up trace = true ↔ Outstanding mark up trace := by
  induction trace generalizing up with
  | nil => simp [Outstanding, Kept]
  | cons m trace ih => rw [latest_cons, outstanding_cons, ih]

/-- A flag that is down stays down until a moment raises it. -/
theorem latest_of_down (hraised : ∀ m ∈ trace, mark m ≠ some true) :
    latest mark false trace = false := by
  induction trace with
  | nil => rfl
  | cons m trace ih =>
    have hm : (mark m).getD false = false := by
      have hne := hraised m (List.mem_cons_self ..)
      cases h : mark m with
      | none => rfl
      | some b => cases b <;> simp_all
    rw [latest_cons, hm]
    exact ih fun m' hm' => hraised m' (List.mem_cons_of_mem m hm')

end Flags
