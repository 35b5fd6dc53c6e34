import Mathlib.Data.List.Basic

/-!
# Lists joined by a separator

A joined list forgets where its members end: it determines only the pieces that the separators
leave of them, those that the members bring with them included.
-/

namespace Joined

variable {α : Type*} [DecidableEq α]

/-- What the separators leave of the members of a list. -/
def pieces (sep : α) (ls : List (List α)) : List (List α) :=
  ls.flatMap (List.splitOn sep)

/-- Members without the separator are pieces as they are. -/
theorem pieces_of_not_mem {sep : α} {ls : List (List α)} (h : ∀ l ∈ ls, sep ∉ l) :
    pieces sep ls = ls := by
  induction ls with
  | nil => rfl
  | cons l ls ih =>
    rw [List.forall_mem_cons] at h
    have hl : List.splitOn sep ([sep].intercalate [l]) = [l] :=
      List.splitOn_intercalate sep (by simpa using h.1) (by simp)
    rw [List.intercalate_singleton] at hl
    rw [pieces, List.flatMap_cons, hl]
    exact congrArg (l :: ·) (ih h.2)

theorem splitOn_intercalate (sep : α) (l : List α) (ls : List (List α)) :
    List.splitOn sep ([sep].intercalate (l :: ls)) = pieces sep (l :: ls) := by
  induction ls generalizing l with
  | nil => simp [pieces]
  | cons m ls ih =>
    rw [List.intercalate_cons_cons, List.append_assoc, List.singleton_append,
      List.splitOn_append_cons_self, ih m]
    rfl

/-- Two joined lists are the same exactly when they have the same pieces. -/
theorem intercalate_eq_iff {sep : α} {l m : List α} {ls ms : List (List α)} :
    [sep].intercalate (l :: ls) = [sep].intercalate (m :: ms) ↔
      pieces sep (l :: ls) = pieces sep (m :: ms) := by
  rw [← splitOn_intercalate, ← splitOn_intercalate]
  refine ⟨congrArg _, fun h => ?_⟩
  rw [← @List.intercalate_splitOn α ([sep].intercalate (l :: ls)) _ _ sep, h,
    List.intercalate_splitOn]

theorem pieces_append (sep : α) (ls ms : List (List α)) :
    pieces sep (ls ++ ms) = pieces sep ls ++ pieces sep ms :=
  List.flatMap_append

theorem length_le_pieces (sep : α) (ls : List (List α)) : ls.length ≤ (pieces sep ls).length := by
  induction ls with
  | nil => exact Nat.zero_le _
  | cons l ls =>
    have hpos : 0 < (List.splitOn sep l).length :=
      List.length_pos_of_ne_nil (List.splitOn_ne_nil _ _)
    rw [pieces, List.flatMap_cons, List.length_append, List.length_cons]
    change _ ≤ _ + (pieces sep ls).length
    omega

/-- As many pieces as members are the members. -/
theorem eq_of_pieces_eq {sep : α} {ls ms : List (List α)} (h : pieces sep ms = ls)
    (hlength : ms.length = ls.length) : ms = ls := by
  induction ms generalizing ls with
  | nil => exact h
  | cons m ms ih =>
    rw [pieces, List.flatMap_cons] at h
    change List.splitOn sep m ++ pieces sep ms = ls at h
    have hle := length_le_pieces sep ms
    obtain ⟨p, ps, hsplit⟩ := List.exists_cons_of_ne_nil (List.splitOn_ne_nil sep m)
    have hcount := congrArg List.length h
    rw [List.length_append, hsplit, List.length_cons] at hcount
    rw [List.length_cons] at hlength
    obtain rfl : ps = [] := List.length_eq_zero_iff.mp (by omega)
    have hm : p = m := by
      have hjoined := @List.intercalate_splitOn α m _ _ sep
      rwa [hsplit, List.intercalate_singleton] at hjoined
    rw [hsplit] at h
    subst h hm
    have hms : ms = pieces sep ms := ih rfl (by simpa using hlength)
    simpa using hms

end Joined
