import Mathlib.Data.List.Sort

/-!
# Eviction

A list is cut to its last entries in an order: the first of the sorted list go. An entry goes exactly
when at least as many as are kept come after it.
-/

namespace Eviction

variable {α : Type*} {r : α → α → Prop} [DecidableRel r]

/-- The entries that go when only so many are kept. -/
def evicted (r : α → α → Prop) [DecidableRel r] (kept : ℕ) (l : List α) : List α :=
  (l.insertionSort r).take (l.length - kept)

/-- The entries that come after one. -/
def after (r : α → α → Prop) [DecidableRel r] (l : List α) (a : α) : List α :=
  l.filter fun b => ¬r b a

theorem length_after_eq {l m : List α} (h : l.Perm m) (a : α) :
    (after r l a).length = (after r m a).length :=
  (h.filter _).length_eq

theorem mem_evicted_iff [Std.Total r] [IsTrans α r] {l : List α} (hnodup : l.Nodup) {a : α}
    (ha : a ∈ l) (hanti : ∀ b ∈ l, r a b → r b a → b = a) {kept : ℕ} :
    a ∈ evicted r kept l ↔ kept ≤ (after r l a).length := by
  have hperm : (l.insertionSort r).Perm l := List.perm_insertionSort r l
  have hsplit := List.take_append_drop (l.length - kept) (l.insertionSort r)
  have hlength : ((l.insertionSort r).drop (l.length - kept)).length =
      l.length - (l.length - kept) := by
    rw [List.length_drop, List.length_insertionSort]
  have hsorted := List.pairwise_insertionSort r l
  have hdistinct := hperm.nodup_iff.mpr hnodup
  rw [← hsplit] at hsorted hdistinct hperm
  rw [← length_after_eq hperm, after, List.filter_append, List.length_append, evicted]
  obtain ⟨-, -, hcross⟩ := List.pairwise_append.mp hsorted
  constructor
  · intro hgoes
    have hlater : ∀ b ∈ (l.insertionSort r).drop (l.length - kept), decide (¬r b a) = true := by
      intro b hb
      refine decide_eq_true fun hba => ?_
      have hmem : b ∈ l := hperm.subset (List.mem_append_right _ hb)
      obtain rfl := hanti b hmem (hcross a hgoes b hb) hba
      exact List.disjoint_of_nodup_append hdistinct hgoes hb
    have hpos : 0 < l.length - kept := by
      by_contra hzero
      rw [Nat.eq_zero_of_not_pos hzero, List.take_zero] at hgoes
      simp at hgoes
    rw [List.filter_eq_self.mpr hlater, hlength]
    omega
  · intro hcount
    by_contra hstays
    have hdrop : a ∈ (l.insertionSort r).drop (l.length - kept) := by
      rcases List.mem_append.mp (hperm.symm.subset ha) with h | h
      · exact absurd h hstays
      · exact h
    have hearlier : ((l.insertionSort r).take (l.length - kept)).filter
        (fun b => ¬r b a) = [] := by
      rw [List.filter_eq_nil_iff]
      intro b hb
      simpa using hcross b hb a hdrop
    have hself : ¬decide (¬r a a) = true := by
      have hrefl : r a a := (Std.Total.total a a).elim id id
      simpa using hrefl
    have hfewer : (((l.insertionSort r).drop (l.length - kept)).filter
        fun b => ¬r b a).length < ((l.insertionSort r).drop (l.length - kept)).length :=
      List.length_filter_lt_length_iff_exists.mpr ⟨a, hdrop, hself⟩
    rw [hearlier, List.length_nil, Nat.zero_add] at hcount
    omega

end Eviction
