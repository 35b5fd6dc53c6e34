import GlassHive.Library.CodePoints
import Mathlib.Data.List.Infix

/-!
# Patterns of LIKE

The operator `LIKE` of SQL without an escape character: `%` stands for any text, `_` for any
character, and the letters of ASCII are matched in either case.
-/

namespace Like

/-- A letter of ASCII in lower case. -/
def fold (c : ℕ) : ℕ :=
  if 65 ≤ c ∧ c ≤ 90 then c + 32 else c

/-- A character of a pattern other than `%` matches a character. -/
def matchesChar (p c : ℕ) : Bool :=
  p == 95 || fold p == fold c

/-- The text matches the pattern. -/
def like : Points → Points → Bool
  | [], t => t.isEmpty
  | p :: ps, t =>
    if p = 37 then t.tails.any (like ps)
    else
      match t with
      | [] => false
      | c :: t => matchesChar p c && like ps t

@[simp]
theorem like_nil (t : Points) : like [] t = t.isEmpty := rfl

theorem like_percent (ps t : Points) : like (37 :: ps) t = t.tails.any (like ps) := by
  simp [like]

theorem like_cons {p : ℕ} (hp : p ≠ 37) (ps : Points) (c : ℕ) (t : Points) :
    like (p :: ps) (c :: t) = (matchesChar p c && like ps t) := by
  simp [like, hp]

/-- A character below the letters matches itself only. -/
theorem matchesChar_of_lt {p : ℕ} (hp : p < 65) (c : ℕ) : matchesChar p c = (p == c) := by
  have hunder : (p == 95) = false := by
    rw [beq_eq_false_iff_ne]
    omega
  have hfold : fold p = fold c ↔ p = c := by
    unfold fold
    split <;> split <;> omega
  rw [matchesChar, hunder, Bool.false_or, Bool.eq_iff_iff, beq_iff_eq, beq_iff_eq, hfold]

/-- A text matches what it starts with. -/
theorem like_append_self {t : Points} (h : 37 ∉ t) (ps rest : Points) :
    like (t ++ ps) (t ++ rest) = like ps rest := by
  induction t with
  | nil => rfl
  | cons c t ih =>
    simp only [List.mem_cons, not_or] at h
    rw [List.cons_append, List.cons_append, like_cons (Ne.symm h.1), ih h.2]
    simp [matchesChar]

/-- A match cannot start at a character that the pattern does not start with. -/
theorem tails_any_cons {p : ℕ} (hp : p ≠ 37) {ps : Points} {c : ℕ} {t : Points}
    (h : matchesChar p c = false) :
    (c :: t).tails.any (like (p :: ps)) = t.tails.any (like (p :: ps)) := by
  rw [List.tails, List.any_cons, like_cons hp, h, Bool.false_and, Bool.false_or]

end Like
