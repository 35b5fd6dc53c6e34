import Mathlib.Data.List.Basic

/-!
# Hash chains

Each row of a chain names the digest of the row before it and has its own digest, of what the row
says. A row that is appended to the head keeps the chain.
-/

namespace HashChain

variable {ρ δ : Type} (previous own expected : ρ → δ)

/-- The digest of the last row, or the one that the chain begins from. -/
def head (start : δ) (rows : List ρ) : δ :=
  (rows.getLast?.map own).getD start

/-- The rows name each other's digests, and their digests are those of what they say. -/
def Linked : δ → List ρ → Prop
  | _, [] => True
  | start, r :: rows => previous r = start ∧ own r = expected r ∧ Linked (expected r) rows

variable {previous own expected} {start : δ} {rows : List ρ} {r : ρ}

@[simp]
theorem head_nil : head own start [] = start := rfl

@[simp]
theorem head_cons : head own start (r :: rows) = head own (own r) rows := by
  cases rows <;> simp [head, List.getLast?_cons]

theorem Linked.concat (h : Linked previous own expected start rows)
    (hprevious : previous r = head own start rows) (hown : own r = expected r) :
    Linked previous own expected start (rows ++ [r]) := by
  induction rows generalizing start with
  | nil => exact ⟨hprevious, hown, trivial⟩
  | cons q rows ih =>
    obtain ⟨hq, hqown, hrest⟩ := h
    refine ⟨hq, hqown, ih hrest ?_⟩
    rw [hprevious, head_cons, hqown]

end HashChain
