import Mathlib.Algebra.GroupWithZero.Nat
import Mathlib.Data.List.Count
import Mathlib.Data.List.Sort

/-!
# Pages of a sorted query

A query returns the rows whose key is below a cursor, the greatest first, up to a limit. A reader
that takes the last row of every page as its next cursor reads the whole result in order, whatever
the limits are. Two predicates select equally many rows from every cursor only when they agree on
every row.
-/

namespace Pages

variable {α κ ι : Type*} [LinearOrder κ] {key : α → κ} {rows : List α} {a : α}

/-- A row comes after a cursor. -/
def below (key : α → κ) (before : Option κ) (a : α) : Bool :=
  match before with
  | none => true
  | some k => decide (key a < k)

/-- The rows, the greatest key first. -/
def descending (key : α → κ) (rows : List α) : List α :=
  rows.insertionSort fun a b => key b ≤ key a

/-- What a reader sees who takes the last row of every page as the next cursor. -/
def follow (key : α → κ) (query : ι → Option κ → List α) : List ι → Option κ → List α
  | [], _ => []
  | limit :: limits, before =>
    match (query limit before).getLast? with
    | none => []
    | some a => query limit before ++ follow key query limits (some (key a))

@[simp]
theorem below_none (a : α) : below key none a = true := rfl

/-! ## Order -/

instance total_descending : Std.Total fun a b : α => key b ≤ key a :=
  ⟨fun a b => le_total (key b) (key a)⟩

instance trans_descending : IsTrans α fun a b => key b ≤ key a :=
  ⟨fun _ _ _ h h' => h'.trans h⟩

theorem mem_descending : a ∈ descending key rows ↔ a ∈ rows :=
  List.mem_insertionSort _

theorem descending_perm (rows : List α) : (descending key rows).Perm rows :=
  List.perm_insertionSort _ rows

/-- Rows with different keys are strictly descending. -/
theorem pairwise_descending (h : (rows.map key).Nodup) :
    (descending key rows).Pairwise fun a b => key b < key a := by
  have hsorted : (descending key rows).Pairwise fun a b => key b ≤ key a :=
    List.pairwise_insertionSort _ rows
  have hkeys : (descending key rows).Pairwise fun a b => key a ≠ key b :=
    List.pairwise_map.mp (((descending_perm rows).map key).nodup_iff.mpr h)
  exact (hsorted.and hkeys).imp fun hab => lt_of_le_of_ne hab.1 hab.2.symm

/-- A selection may be made before or after the rows are sorted. -/
theorem descending_filter (h : (rows.map key).Nodup) (p : α → Bool) :
    descending key (rows.filter p) = (descending key rows).filter p := by
  have hleft : (descending key (rows.filter p)).Pairwise fun a b => key b < key a :=
    pairwise_descending (h.sublist (List.filter_sublist.map key))
  have hright : ((descending key rows).filter p).Pairwise fun a b => key b < key a :=
    (pairwise_descending h).filter p
  have hperm : (descending key (rows.filter p)).Perm ((descending key rows).filter p) :=
    (descending_perm _).trans ((descending_perm rows).filter p).symm
  exact hperm.eq_of_pairwise (fun a b _ _ hab hba => absurd hab hba.not_gt) hleft hright

/-- So may the rows from a cursor on. -/
theorem descending_below (h : (rows.map key).Nodup) (p : α → Bool) (before : Option κ) :
    descending key (rows.filter fun a => p a && below key before a) =
      (descending key (rows.filter p)).filter (below key before) := by
  rw [← descending_filter (h.sublist (List.filter_sublist.map key)), List.filter_filter]
  simp only [Bool.and_comm]

/-! ## Cursors -/

/-- The rows after the last row of a page are those that the page left out. -/
theorem filter_below_last (h : rows.Pairwise fun a b => key b < key a) {n : ℕ}
    (ha : (rows.take n).getLast? = some a) :
    rows.filter (below key (some (key a))) = rows.drop n := by
  obtain ⟨pre, hpre⟩ := List.getLast?_eq_some_iff.mp ha
  have hsplit : rows = (pre ++ [a]) ++ rows.drop n := by
    rw [← hpre, List.take_append_drop]
  rw [hsplit, List.append_assoc, List.singleton_append, List.pairwise_append,
    List.pairwise_cons] at h
  obtain ⟨-, ⟨hrest, -⟩, hpage⟩ := h
  have hskipped : (pre ++ [a]).filter (below key (some (key a))) = [] := by
    rw [List.filter_eq_nil_iff]
    intro b hb
    rw [below, decide_eq_true_eq, not_lt]
    rcases List.mem_append.mp hb with hb | hb
    · exact (hpage b hb a (List.mem_cons_self ..)).le
    · rw [List.mem_singleton.mp hb]
  have hkept : (rows.drop n).filter (below key (some (key a))) = rows.drop n := by
    rw [List.filter_eq_self]
    intro b hb
    rw [below, decide_eq_true_eq]
    exact hrest b hb
  calc rows.filter (below key (some (key a)))
      = ((pre ++ [a]) ++ rows.drop n).filter (below key (some (key a))) := by rw [← hsplit]
    _ = rows.drop n := by rw [List.filter_append, hskipped, hkept, List.nil_append]

/-- A row below the key of a row after a cursor is after the cursor as well. -/
theorem filter_below_of_below (rows : List α) {before : Option κ} (ha : below key before a = true) :
    (rows.filter (below key before)).filter (below key (some (key a))) =
      rows.filter (below key (some (key a))) := by
  rw [List.filter_filter]
  refine List.filter_congr fun b _ => ?_
  cases before with
  | none => simp [below]
  | some =>
    simp only [below, decide_eq_true_eq] at ha ⊢
    rw [Bool.and_eq_left_iff_imp, decide_eq_true_eq, decide_eq_true_eq]
    exact fun hb => hb.trans ha

/-- Pages read the rows after the cursor in order, none twice and none left out. -/
theorem follow_eq (h : rows.Pairwise fun a b => key b < key a) {query : ι → Option κ → List α}
    {size : ι → ℕ}
    (hquery : ∀ i before, query i before = (rows.filter (below key before)).take (size i))
    (hsize : ∀ i, 0 < size i) (limits : List ι) (before : Option κ) :
    follow key query limits before =
      (rows.filter (below key before)).take (limits.map size).sum := by
  induction limits generalizing before with
  | nil => simp [follow]
  | cons i limits ih =>
    rw [follow, hquery, List.map_cons, List.sum_cons]
    split
    · rename_i hlast
      rw [List.getLast?_eq_none_iff, List.take_eq_nil_iff] at hlast
      rcases hlast with hzero | hnil
      · exact absurd hzero (hsize i).ne'
      · rw [hnil, List.take_nil]
    · rename_i a hlast
      have ha : a ∈ rows.filter (below key before) :=
        List.mem_of_mem_take (List.mem_of_getLast? hlast)
      rw [ih, ← filter_below_of_below rows (List.mem_filter.mp ha).2,
        filter_below_last (h.filter _) hlast, List.take_add]

/-! ## Counts -/

theorem countP_below_congr_cons {p q : α → Bool} {l : List α}
    (h : (a :: l).Pairwise fun a b => key b < key a)
    (hcount : ∀ before, (a :: l).countP (fun b => p b && below key before b) =
      (a :: l).countP fun b => q b && below key before b) :
    p a = q a ∧ ∀ before, l.countP (fun b => p b && below key before b) =
      l.countP fun b => q b && below key before b := by
  obtain ⟨hlt, -⟩ := List.pairwise_cons.mp h
  have hself : below key (some (key a)) a = false := by simp [below]
  have hall : ∀ r : α → Bool, l.countP (fun b => r b && below key (some (key a)) b) =
      l.countP fun b => r b && below key none b := by
    intro r
    refine List.countP_congr fun b hb => ?_
    simp [below, hlt b hb]
  have htail : l.countP (fun b => p b && below key none b) =
      l.countP fun b => q b && below key none b := by
    have := hcount (some (key a))
    simp only [List.countP_cons, hself, Bool.and_false, Bool.false_eq_true, if_false,
      Nat.add_zero] at this
    rw [← hall p, ← hall q]
    exact this
  have hhead : p a = q a := by
    have := hcount none
    rw [List.countP_cons, List.countP_cons, htail] at this
    cases hp : p a <;> cases hq : q a <;> simp [hp, hq, below] at this ⊢
  refine ⟨hhead, fun before => ?_⟩
  have := hcount before
  rw [List.countP_cons, List.countP_cons, hhead] at this
  omega

/-- Two predicates select equally many rows from every cursor exactly when they agree. -/
theorem countP_below_eq_iff {p q : α → Bool} (h : (rows.map key).Nodup) :
    (∀ before, rows.countP (fun a => p a && below key before a) =
        rows.countP fun a => q a && below key before a) ↔
      ∀ a ∈ rows, p a = q a := by
  constructor
  · intro hcount
    have hsorted : ∀ l : List α, l.Pairwise (fun a b => key b < key a) →
        (∀ before, l.countP (fun a => p a && below key before a) =
          l.countP fun a => q a && below key before a) → ∀ a ∈ l, p a = q a := by
      intro l hl hc
      induction l with
      | nil => exact fun a ha => absurd ha List.not_mem_nil
      | cons b l ih =>
        obtain ⟨hhead, htail⟩ := countP_below_congr_cons hl hc
        intro a ha
        rcases List.mem_cons.mp ha with rfl | ha
        · exact hhead
        · exact ih hl.of_cons htail a ha
    intro a ha
    refine hsorted (descending key rows) (pairwise_descending h) (fun before => ?_) a
      (mem_descending.mpr ha)
    rw [(descending_perm rows).countP_eq, (descending_perm rows).countP_eq]
    exact hcount before
  · intro hsame before
    refine List.countP_congr fun a ha => ?_
    rw [hsame a ha]

end Pages
