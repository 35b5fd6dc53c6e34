import Mathlib.Data.Finset.Card
import Mathlib.Data.Finset.Dedup
import Mathlib.Order.Bounds.Basic

/-!
# Arrivals in and out of time

Values arrive in a list, perhaps more than once. A value is in time when none of those before its
first arrival has a higher rank.
-/

namespace Arrivals

variable {α κ ι : Type} [DecidableEq α] [DecidableEq κ] [LinearOrder ι] (key : α → κ) (rank : α → ι)

/-- What arrives before the first value with the key of the given one. -/
def before (l : List α) (a : α) : List α :=
  l.takeWhile fun b => key b ≠ key a

/-- The values that are in time. -/
def inTime (l : List α) : Finset α :=
  l.toFinset.filter fun a => ∀ b ∈ before key l a, rank b ≤ rank a

variable {key rank} {l : List α} {a b : α}

omit [DecidableEq α] in
theorem before_append_of_mem (m : List α) (h : a ∈ l) :
    before key (l ++ m) a = before key l a := by
  induction l with
  | nil => cases h
  | cons b l ih =>
    rw [before, before, List.cons_append, List.takeWhile_cons, List.takeWhile_cons]
    split
    · rename_i hb
      have hne : a ≠ b := by
        rintro rfl
        simp at hb
      exact congrArg (b :: ·) (ih ((List.mem_cons.mp h).resolve_left hne))
    · rfl

omit [DecidableEq α] in
theorem before_append_new (h : ∀ b ∈ l, key b ≠ key a) : before key (l ++ [a]) a = l := by
  rw [before, List.takeWhile_append_of_pos (by simpa using h)]
  simp

theorem mem_inTime : a ∈ inTime key rank l ↔ a ∈ l ∧ ∀ b ∈ before key l a, rank b ≤ rank a := by
  simp [inTime]

theorem inTime_nil : inTime key rank [] = ∅ := rfl

theorem inTime_append_old (h : a ∈ l) : inTime key rank (l ++ [a]) = inTime key rank l := by
  ext b
  rw [mem_inTime, mem_inTime, List.mem_append, List.mem_singleton]
  constructor
  · rintro ⟨hb, hle⟩
    have hmem : b ∈ l := hb.elim id fun hba => hba ▸ h
    rw [before_append_of_mem [a] hmem] at hle
    exact ⟨hmem, hle⟩
  · rintro ⟨hb, hle⟩
    rw [before_append_of_mem [a] hb]
    exact ⟨Or.inl hb, hle⟩

theorem inTime_append_new (h : ∀ b ∈ l, key b ≠ key a) :
    inTime key rank (l ++ [a]) =
      if ∀ b ∈ l, rank b ≤ rank a then insert a (inTime key rank l) else inTime key rank l := by
  have hnew : a ∉ l := fun ha => h a ha rfl
  have hold : ∀ b ∈ l, b ∈ inTime key rank (l ++ [a]) ↔ b ∈ inTime key rank l := by
    intro b hb
    rw [mem_inTime, mem_inTime, before_append_of_mem [a] hb]
    simp [hb]
  have hlast : a ∈ inTime key rank (l ++ [a]) ↔ ∀ b ∈ l, rank b ≤ rank a := by
    rw [mem_inTime, before_append_new h]
    simp
  ext b
  by_cases hb : b ∈ l
  · have hne : b ≠ a := fun hba => hnew (hba ▸ hb)
    rw [hold b hb]
    split
    · simp [hne]
    · rfl
  · by_cases hba : b = a
    · subst hba
      rw [hlast]
      split
      · rename_i hall
        exact iff_of_true hall (Finset.mem_insert_self b _)
      · rename_i hall
        exact iff_of_false hall fun hmem => hb (mem_inTime.mp hmem).1
    · split <;> simp [mem_inTime, hb, hba]

theorem inTime_singleton : inTime key rank [a] = {a} := by
  have h : inTime key rank ([] ++ [a]) = _ := inTime_append_new (by simp)
  simpa [inTime_nil] using h

end Arrivals
