import Mathlib.Data.List.Count
import Mathlib.Data.List.Sort
import Mathlib.Data.Prod.Lex

/-!
# Taking turns

The rows of each owner have an order. Sorted by the place that a row has among those of its owner,
the rows take turns: every first row of an owner stands before any second one, every second one
before any third one, and so on.
-/

namespace Rotation

variable {α β κ τ ι : Type*} [DecidableEq β] [LinearOrder κ] [LinearOrder τ] {owner : α → β}
  {key : α → κ} {tie : α → τ} {l rows : List α} {a : α}

/-- How many rows of the same owner come before a row in the order of the owner. -/
def place (owner : α → β) (key : α → κ) (rows : List α) (a : α) : ℕ :=
  rows.countP fun b => decide (owner b = owner a) && decide (key b < key a)

/-- The rows in turns; rows with the same place are ordered by `tie`. -/
def turns (owner : α → β) (key : α → κ) (tie : α → τ) (rows : List α) : List α :=
  rows.insertionSort fun a b =>
    toLex (place owner key rows a, tie a) ≤ toLex (place owner key rows b, tie b)

/-- A row of an owner stands before every row that has more rows of its own owner before it. -/
def Fair (owner : α → β) (l : List α) : Prop :=
  ∀ pre a post pre' b post', l = pre ++ a :: post → l = pre' ++ b :: post' →
    (pre.countP fun c => decide (owner c = owner a)) <
      (pre'.countP fun c => decide (owner c = owner b)) →
    pre.length < pre'.length

/-! ## Fairness is kept -/

theorem Fair.take (h : Fair owner l) (n : ℕ) : Fair owner (l.take n) := by
  intro pre a post pre' b post' ha hb hlt
  refine h pre a (post ++ l.drop n) pre' b (post' ++ l.drop n) ?_ ?_ hlt
  · rw [← List.cons_append, ← List.append_assoc, ← ha, List.take_append_drop]
  · rw [← List.cons_append, ← List.append_assoc, ← hb, List.take_append_drop]

/-- Only which rows have the same owner matters. -/
theorem Fair.of_owner [DecidableEq ι] {owner' : α → ι} (h : Fair owner l)
    (hsame : ∀ a ∈ l, ∀ b ∈ l, owner' a = owner' b ↔ owner a = owner b) : Fair owner' l := by
  intro pre a post pre' b post' ha hb hlt
  refine h pre a post pre' b post' ha hb ?_
  have hcount : ∀ {pre a post}, l = pre ++ a :: post →
      (pre.countP fun c => decide (owner c = owner a)) =
        pre.countP fun c => decide (owner' c = owner' a) := by
    rintro pre a post rfl
    refine List.countP_congr fun c hc => ?_
    rw [decide_eq_true_eq, decide_eq_true_eq]
    exact (hsame c (List.mem_append_left _ hc) a (by simp)).symm
  rw [hcount ha, hcount hb]
  exact hlt

theorem Fair.map {f : α → ι} {owner : ι → β} (h : Fair (owner ∘ f) l) : Fair owner (l.map f) := by
  intro pre a post pre' b post' ha hb hlt
  obtain ⟨l₁, l₂, hl, rfl, hrest⟩ := List.map_eq_append_iff.mp ha
  obtain ⟨x, l₃, rfl, rfl, -⟩ := List.map_eq_cons_iff.mp hrest
  obtain ⟨l₁', l₂', hl', rfl, hrest'⟩ := List.map_eq_append_iff.mp hb
  obtain ⟨y, l₃', rfl, rfl, -⟩ := List.map_eq_cons_iff.mp hrest'
  rw [List.countP_map, List.countP_map] at hlt
  rw [List.length_map, List.length_map]
  exact h l₁ x l₃ l₁' y l₃' hl hl' hlt

/-! ## The turns are fair -/

theorem mem_turns : a ∈ turns owner key tie rows ↔ a ∈ rows :=
  List.mem_insertionSort _

theorem turns_perm (rows : List α) : (turns owner key tie rows).Perm rows :=
  List.perm_insertionSort _ rows

/-- Of two rows of an owner, the one before has the smaller place. -/
theorem place_lt {b : α} (ha : a ∈ rows) (howner : owner a = owner b) (h : key a < key b) :
    place owner key rows a < place owner key rows b := by
  have hmono : ∀ l : List α,
      (l.countP fun c => decide (owner c = owner a) && decide (key c < key a)) ≤
        l.countP fun c => decide (owner c = owner b) && decide (key c < key b) := by
    intro l
    refine List.countP_mono_left fun c _ hc => ?_
    simp only [Bool.and_eq_true, decide_eq_true_eq] at hc ⊢
    exact ⟨hc.1.trans howner, hc.2.trans h⟩
  obtain ⟨l, l', rfl⟩ := List.append_of_mem ha
  have hl := hmono l
  have hl' := hmono l'
  simp only [place, List.countP_append, List.countP_cons, lt_self_iff_false, decide_false,
    Bool.and_false, howner, h, decide_true, Bool.and_self, if_true]
  simp only [howner] at hl hl'
  simp
  omega

theorem pairwise_place (rows : List α) : (turns owner key tie rows).Pairwise fun a b =>
    place owner key rows a ≤ place owner key rows b := by
  have htotal : Std.Total fun a b : α =>
      toLex (place owner key rows a, tie a) ≤ toLex (place owner key rows b, tie b) :=
    ⟨fun _ _ => le_total _ _⟩
  have htrans : IsTrans α fun a b =>
      toLex (place owner key rows a, tie a) ≤ toLex (place owner key rows b, tie b) :=
    ⟨fun _ _ _ => le_trans⟩
  refine (List.pairwise_insertionSort _ rows).imp fun {a b} h => ?_
  rcases Prod.Lex.toLex_le_toLex.mp h with h | h
  · exact h.le
  · exact h.1.le

/-- Before a row stand as many rows of its owner as come before it in the order of the owner. -/
theorem countP_before {pre post : List α} (hkeys : (rows.map key).Nodup)
    (h : turns owner key tie rows = pre ++ a :: post) :
    (pre.countP fun c => decide (owner c = owner a)) = place owner key rows a := by
  have hperm : (pre ++ a :: post).Perm rows := h ▸ turns_perm rows
  have hsorted : (turns owner key tie rows).Pairwise fun a b =>
      place owner key rows a ≤ place owner key rows b := pairwise_place rows
  rw [h, List.pairwise_append, List.pairwise_cons] at hsorted
  obtain ⟨-, ⟨hafter, -⟩, hbefore⟩ := hsorted
  have hdistinct := List.pairwise_map.mp ((hperm.map key).nodup_iff.mpr hkeys)
  rw [List.pairwise_append] at hdistinct
  have hpre : (pre.countP fun c => decide (owner c = owner a) && decide (key c < key a)) =
      pre.countP fun c => decide (owner c = owner a) := by
    refine List.countP_congr fun c hc => ?_
    simp only [Bool.and_eq_true, decide_eq_true_eq, and_iff_left_iff_imp]
    intro howner
    rcases lt_trichotomy (key c) (key a) with hlt | heq | hlt
    · exact hlt
    · exact absurd heq (hdistinct.2.2 c hc a (List.mem_cons_self ..))
    · have ha : a ∈ rows := hperm.mem_iff.mp (by simp)
      exact absurd (hbefore c hc a (List.mem_cons_self ..)) (place_lt ha howner.symm hlt).not_ge
  have hpost : (post.countP fun c => decide (owner c = owner a) && decide (key c < key a)) = 0 := by
    rw [List.countP_eq_zero]
    intro c hc hboth
    simp only [Bool.and_eq_true, decide_eq_true_eq] at hboth
    have hmem : c ∈ rows := hperm.mem_iff.mp (by simp [hc])
    exact absurd (hafter c hc) (place_lt hmem hboth.1 hboth.2).not_ge
  rw [place, ← hperm.countP_eq, List.countP_append, List.countP_cons, hpre, hpost]
  simp

theorem fair_turns (hkeys : (rows.map key).Nodup) : Fair owner (turns owner key tie rows) := by
  intro pre a post pre' b post' ha hb hlt
  rw [countP_before hkeys ha, countP_before hkeys hb] at hlt
  by_contra hle
  have hsorted : (turns owner key tie rows).Pairwise fun a b =>
      place owner key rows a ≤ place owner key rows b := pairwise_place rows
  rcases List.append_eq_append_iff.mp (ha.symm.trans hb) with ⟨mid, rfl, hmid⟩ | ⟨mid, rfl, hmid⟩
  · cases mid with
    | nil =>
      obtain rfl := (List.cons.inj hmid).1
      exact lt_irrefl _ hlt
    | cons => simp at hle
  · cases mid with
    | nil =>
      obtain rfl := (List.cons.inj hmid).1
      exact lt_irrefl _ hlt
    | cons =>
      obtain rfl := (List.cons.inj hmid).1
      rw [ha, List.pairwise_append] at hsorted
      exact absurd (hsorted.2.2 b (by simp) a (List.mem_cons_self ..)) hlt.not_ge

end Rotation
