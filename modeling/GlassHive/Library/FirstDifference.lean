import Mathlib.Data.List.Basic
import Mathlib.Order.Lattice

/-!
# Comparison at the first difference

Two lists are compared by the keys of the elements at which they first differ; a list that goes on
where the other ends is greater. Elements that differ may have the same key. The order is strict
and transitive in any case, and it is total but for such collisions.
-/

namespace FirstDifference

variable {α κ : Type} [DecidableEq α] [LinearOrder κ] (key : α → κ)

/-- The comparison. Of two elements with one key, the left one counts as the lesser. -/
def compare : List α → List α → Ordering
  | [], [] => .eq
  | [], _ :: _ => .lt
  | _ :: _, [] => .gt
  | x :: xs, y :: ys =>
    if x = y then compare xs ys else if key y < key x then .gt else .lt

/-- The elements at the first difference have one key. -/
def Collide : List α → List α → Prop
  | x :: xs, y :: ys => if x = y then Collide xs ys else key x = key y
  | _, _ => False

variable {key} {l m r : List α}

theorem compare_self (l : List α) : compare key l l = .eq := by
  induction l with
  | nil => rfl
  | cons x xs ih => rw [compare, if_pos rfl, ih]

theorem compare_eq_eq : compare key l r = .eq ↔ l = r := by
  constructor
  · intro h
    induction l generalizing r with
    | nil =>
      cases r with
      | nil => rfl
      | cons => cases h
    | cons x xs ih =>
      cases r with
      | nil => cases h
      | cons =>
        rw [compare] at h
        split at h
        · rename_i hxy
          rw [hxy, ih h]
        · split at h <;> cases h
  · rintro rfl
    exact compare_self l

/-- Comparing the other way gives the opposite, exactly when there is no collision. -/
theorem compare_swap_iff : compare key r l = (compare key l r).swap ↔ ¬Collide key l r := by
  induction l generalizing r with
  | nil => cases r <;> simp [compare, Collide]
  | cons x xs ih =>
    cases r with
    | nil => simp [compare, Collide]
    | cons y =>
      rw [compare, compare, Collide]
      by_cases hxy : x = y
      · rw [if_pos hxy, if_pos hxy.symm, if_pos hxy]
        exact ih
      · rw [if_neg hxy, if_neg (Ne.symm hxy), if_neg hxy]
        rcases lt_trichotomy (key x) (key y) with hlt | heq | hgt
        · simp [hlt, hlt.not_gt, hlt.ne]
        · simp [heq]
        · simp [hgt, hgt.not_gt, hgt.ne']

/-- Being greater is transitive, whatever collides. -/
theorem gt_trans (h : compare key l m = .gt) (h' : compare key m r = .gt) :
    compare key l r = .gt := by
  induction l generalizing m r with
  | nil => cases m <;> cases h
  | cons x xs ih =>
    cases r with
    | nil => rfl
    | cons z =>
      cases m with
      | nil => cases h'
      | cons y =>
        rw [compare] at h h' ⊢
        by_cases hxy : x = y <;> by_cases hyz : y = z
        · rw [if_pos hxy] at h
          rw [if_pos hyz] at h'
          rw [if_pos (hxy.trans hyz)]
          exact ih h h'
        · rw [if_neg hyz] at h'
          rw [hxy, if_neg hyz]
          exact h'
        · rw [if_neg hxy] at h
          rw [← hyz, if_neg hxy]
          exact h
        · rw [if_neg hxy, ite_eq_left_iff] at h
          rw [if_neg hyz, ite_eq_left_iff] at h'
          have hlt : key y < key x := by_contra fun hn => by cases h hn
          have hlt' : key z < key y := by_contra fun hn => by cases h' hn
          have hxz : x ≠ z := by
            rintro rfl
            exact lt_asymm hlt hlt'
          rw [if_neg hxz, if_pos (hlt'.trans hlt)]

end FirstDifference
