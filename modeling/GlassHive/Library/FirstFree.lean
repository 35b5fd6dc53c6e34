import Mathlib.Data.List.Basic
import Mathlib.Data.List.Nodup
import Mathlib.Data.List.Perm.Subperm

/-!
# Names with a number

A name that is taken gets a number, and the first number whose name is free is found among as many
numbers as there are names in use and one more.
-/

namespace FirstFree

/-- Numbers are written differently. -/
theorem digits_injective : Function.Injective fun n : ℕ => (toString n).toList := by
  intro m n h
  have hdigits : Nat.toDigits 10 m = Nat.toDigits 10 n := by
    simpa [Nat.toString_eq_ofList_toDigits] using h
  rw [← Nat.ofDigitChars_ten_toDigits (n := m), hdigits, Nat.ofDigitChars_ten_toDigits]

/-- A number is written with digits. -/
theorem isDigit_of_mem_digits {n : ℕ} {c : Char} (h : c ∈ (toString n).toList) :
    c.isDigit = true := by
  rw [Nat.toString_eq_ofList_toDigits, String.toList_ofList] at h
  exact Nat.isDigit_of_mem_toDigits (by decide) (by decide) h

theorem digits_ne_nil (n : ℕ) : (toString n).toList ≠ [] := by
  rw [Nat.toString_eq_ofList_toDigits, String.toList_ofList]
  exact Nat.toDigits_ne_nil

variable {α : Type*} [DecidableEq α]

/-- The first name from a number on that is not in use, or the last one after so many that are. -/
def firstFree (name : ℕ → α) (used : List α) : ℕ → ℕ → α
  | 0, n => name n
  | k + 1, n => if name n ∈ used then firstFree name used k (n + 1) else name n

variable {name : ℕ → α} {used : List α}

/-- What is found is one of the names. -/
theorem exists_eq_firstFree (k n : ℕ) : ∃ m, firstFree name used k n = name m := by
  induction k generalizing n with
  | zero => exact ⟨n, rfl⟩
  | succ k ih =>
    rw [firstFree]
    split
    · exact ih (n + 1)
    · exact ⟨n, rfl⟩

/-- Nothing is found only where all of the names are in use. -/
theorem mem_of_firstFree_mem {k n : ℕ} (h : firstFree name used k n ∈ used) :
    ∀ i ≤ k, name (n + i) ∈ used := by
  induction k generalizing n with
  | zero =>
    intro i hi
    obtain rfl : i = 0 := by omega
    exact h
  | succ k ih =>
    rw [firstFree] at h
    split at h
    · rename_i hn
      intro i hi
      cases i with
      | zero => exact hn
      | succ i =>
        have hi' := ih h i (by omega)
        rwa [show n + 1 + i = n + (i + 1) by omega] at hi'
    · rename_i hn
      exact absurd h hn

/-- With one name more than are in use, a free one is found. -/
theorem firstFree_notMem (hname : Function.Injective name) (n : ℕ) :
    firstFree name used used.length n ∉ used := by
  intro h
  have hall := mem_of_firstFree_mem h
  have hnodup : ((List.range (used.length + 1)).map fun i => name (n + i)).Nodup :=
    List.nodup_range.map fun i j hij => by simpa using hname hij
  have hsub : (List.range (used.length + 1)).map (fun i => name (n + i)) ⊆ used := by
    intro a ha
    obtain ⟨i, hi, rfl⟩ := List.mem_map.mp ha
    rw [List.mem_range] at hi
    exact hall i (by omega)
  have hle := (hnodup.subperm hsub).length_le
  rw [List.length_map, List.length_range] at hle
  omega

end FirstFree
