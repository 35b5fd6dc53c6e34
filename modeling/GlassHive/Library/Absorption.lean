import Mathlib.Data.List.Basic
import Mathlib.Data.List.Perm.Basic

/-!
# Folds that absorb repetitions

When the effects of operations commute and doing one twice is doing it once, a fold over a list of
operations depends only on which operations occur.
-/

namespace Absorption

variable {σ ι : Type*} {f : σ → ι → σ} {P : ι → Prop}

/-- The effects of the operations with a property commute and absorb repetitions. -/
structure Absorbs (f : σ → ι → σ) (P : ι → Prop) : Prop where
  comm : ∀ s a b, P a → P b → f (f s a) b = f (f s b) a
  idem : ∀ s a, P a → f (f s a) a = f s a

/-- An operation moves to the end of a list of operations. -/
theorem Absorbs.foldl_comm (h : Absorbs f P) {l : List ι} (hl : ∀ a ∈ l, P a) {a : ι} (ha : P a)
    (s : σ) : l.foldl f (f s a) = f (l.foldl f s) a := by
  induction l generalizing s with
  | nil => rfl
  | cons b l ih =>
    have hb : P b := hl b List.mem_cons_self
    rw [List.foldl_cons, List.foldl_cons, h.comm s a b ha hb]
    exact ih (fun c hc => hl c (List.mem_cons_of_mem _ hc)) (f s b)

/-- An operation that occurs is absorbed. -/
theorem Absorbs.foldl_absorb (h : Absorbs f P) {l : List ι} (hl : ∀ a ∈ l, P a) {a : ι}
    (ha : a ∈ l) (s : σ) : f (l.foldl f s) a = l.foldl f s := by
  induction l generalizing s with
  | nil => cases ha
  | cons b l ih =>
    have hl' : ∀ c ∈ l, P c := fun c hc => hl c (List.mem_cons_of_mem _ hc)
    rw [List.foldl_cons]
    rcases List.mem_cons.mp ha with rfl | hmem
    · have hb : P a := hl a List.mem_cons_self
      rw [← h.foldl_comm hl' hb, h.idem s a hb]
    · exact ih hl' hmem (f s b)

theorem Absorbs.foldl_append (h : Absorbs f P) {l m : List ι} (hl : ∀ a ∈ l, P a)
    (hm : ∀ a ∈ m, a ∈ l) (s : σ) : (l ++ m).foldl f s = l.foldl f s := by
  rw [List.foldl_append]
  induction m with
  | nil => rfl
  | cons a m ih =>
    rw [List.foldl_cons, h.foldl_absorb hl (hm a List.mem_cons_self)]
    exact ih fun b hb => hm b (List.mem_cons_of_mem _ hb)

end Absorption
