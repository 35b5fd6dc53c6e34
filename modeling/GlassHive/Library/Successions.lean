import Mathlib.Data.Set.Card
import Mathlib.Order.WellFoundedSet

/-!
# Successive elements of a set

A function that finds the next element of a set, under a strict order, walks through the set: its
`n`-th step from a point reaches the element that `n` others separate from that point.
-/

namespace Successions

variable {α : Type} (r : α → α → Prop)

/-- An element of the set that is the next one after a point. -/
structure IsNext (S : Set α) (c x : α) : Prop where
  mem : x ∈ S
  after : r c x
  least : ∀ y ∈ S, r c y → ¬r y x

/-- The elements of the set strictly between two points. -/
def between (S : Set α) (c x : α) : Set α :=
  {y | y ∈ S ∧ r c y ∧ r y x}

/-- A function that finds the next element of the set, wherever there is one. -/
def Enumerates (next : α → Option α) (S : Set α) : Prop :=
  ∀ c x, next c = some x ↔ IsNext r S c x

/-- The element that some steps lead to, after the first. -/
def nth (next : α → Option α) : ℕ → α → Option α
  | 0, c => next c
  | n + 1, c => (next c).bind fun x => nth next n x

variable {r} {S : Set α} {next : α → Option α} {c x y : α} {n : ℕ} [hr : IsStrictTotalOrder α r]

theorem nth_succ_eq_some :
    nth next (n + 1) c = some x ↔ ∃ y, next c = some y ∧ nth next n y = some x := by
  simp [nth, Option.bind_eq_some_iff]

omit hr in
theorem between_eq_empty (h : IsNext r S c x) : between r S c x = ∅ := by
  ext y
  simp only [between, Set.mem_ofPred_eq, Set.mem_empty_iff_false, iff_false]
  rintro ⟨hmem, hcy, hyx⟩
  exact h.least y hmem hcy hyx

/-- The elements between two points are the next one and those after it. -/
theorem between_eq_insert (h : IsNext r S c y) (hyx : r y x) :
    between r S c x = insert y (between r S y x) := by
  ext z
  simp only [between, Set.mem_ofPred_eq, Set.mem_insert_iff]
  constructor
  · rintro ⟨hmem, hcz, hzx⟩
    rcases trichotomous_of r z y with hzy | rfl | hyz
    · exact absurd hzy (h.least z hmem hcz)
    · exact Or.inl rfl
    · exact Or.inr ⟨hmem, hyz, hzx⟩
  · rintro (rfl | ⟨hmem, hyz, hzx⟩)
    · exact ⟨h.mem, h.after, hyx⟩
    · exact ⟨hmem, trans_of r h.after hyz, hzx⟩

/-- Where there are finitely many elements before one of the set, there is a next one. -/
theorem exists_isNext (hmem : x ∈ S) (hcx : r c x) (hfin : (between r S c x).Finite) :
    ∃ y, IsNext r S c y ∧ (y = x ∨ r y x) := by
  rcases (between r S c x).eq_empty_or_nonempty with hempty | hsome
  · refine ⟨x, ⟨hmem, hcx, fun y hy hcy hyx => ?_⟩, Or.inl rfl⟩
    have hbetween : y ∈ between r S c x := ⟨hy, hcy, hyx⟩
    rw [hempty] at hbetween
    exact hbetween
  · have hwf : (between r S c x).WellFoundedOn r := hfin.wellFoundedOn
    obtain ⟨z, hz⟩ := hsome
    obtain ⟨⟨y, hy⟩, -, hleast⟩ := hwf.has_min Set.univ ⟨⟨z, hz⟩, trivial⟩
    refine ⟨y, ⟨hy.1, hy.2.1, fun w hw hcw hwy => ?_⟩, Or.inr hy.2.2⟩
    exact hleast ⟨w, hw, hcw, trans_of r hwy hy.2.2⟩ trivial hwy

/-- A step reaches an element exactly when as many others separate it from the point. -/
theorem nth_eq_some_iff (h : Enumerates r next S) :
    nth next n c = some x ↔ x ∈ S ∧ r c x ∧ (between r S c x).encard = n := by
  induction n generalizing c with
  | zero =>
    rw [nth, h c x, Nat.cast_zero, Set.encard_eq_zero]
    constructor
    · intro hnext
      exact ⟨hnext.mem, hnext.after, between_eq_empty hnext⟩
    · rintro ⟨hmem, hcx, hempty⟩
      refine ⟨hmem, hcx, fun y hy hcy hyx => ?_⟩
      have hbetween : y ∈ between r S c x := ⟨hy, hcy, hyx⟩
      rw [hempty] at hbetween
      exact hbetween
  | succ n ih =>
    have hcard : ∀ y, IsNext r S c y → r y x →
        ((between r S c x).encard = (n + 1 : ℕ) ↔ (between r S y x).encard = n) := by
      intro y hnext hyx
      have hnot : y ∉ between r S y x := fun hy => irrefl_of r y hy.2.1
      rw [between_eq_insert hnext hyx, Set.encard_insert_of_notMem hnot, Nat.cast_add, Nat.cast_one]
      exact WithTop.add_right_inj ENat.one_ne_top
    rw [nth_succ_eq_some]
    constructor
    · rintro ⟨y, hy, hyn⟩
      obtain ⟨hmem, hyx, hbetween⟩ := ih.mp hyn
      have hnext := (h c y).mp hy
      exact ⟨hmem, trans_of r hnext.after hyx, (hcard y hnext hyx).mpr hbetween⟩
    · rintro ⟨hmem, hcx, hbetween⟩
      have hfin : (between r S c x).Finite := Set.finite_of_encard_eq_coe hbetween
      obtain ⟨y, hnext, rfl | hyx⟩ := exists_isNext hmem hcx hfin
      · rw [between_eq_empty hnext, Set.encard_empty] at hbetween
        exact absurd hbetween.symm (by simp)
      · exact ⟨y, (h c y).mpr hnext, ih.mpr ⟨hmem, hyx, (hcard y hnext hyx).mp hbetween⟩⟩

/-- The elements that earlier steps reach are those in between. -/
theorem exists_nth_of_between (h : Enumerates r next S) (hx : nth next n c = some x)
    (hy : y ∈ between r S c x) : ∃ m < n, nth next m c = some y := by
  obtain ⟨hmem, hcx, hcard⟩ := (nth_eq_some_iff h).mp hx
  have hfin : (between r S c x).Finite := Set.finite_of_encard_eq_coe hcard
  have hsub : between r S c y ⊂ between r S c x := by
    refine ⟨fun z hz => ⟨hz.1, hz.2.1, trans_of r hz.2.2 hy.2.2⟩, fun hback => ?_⟩
    exact irrefl_of r y (hback hy).2.2
  have hlt := (hfin.subset hsub.1).encard_lt_encard hsub
  obtain ⟨m, hm⟩ := (hfin.subset hsub.1).exists_encard_eq_coe
  refine ⟨m, ?_, (nth_eq_some_iff h).mpr ⟨hy.1, hy.2.1, hm⟩⟩
  rw [hm, hcard] at hlt
  exact_mod_cast hlt

/-- The elements that earlier steps reach are in between. -/
theorem exists_between_of_nth (h : Enumerates r next S) {m : ℕ} (hx : nth next n c = some x)
    (hm : m < n) : ∃ y, nth next m c = some y ∧ y ∈ between r S c x := by
  induction n generalizing c m with
  | zero => omega
  | succ n ih =>
    obtain ⟨y, hy, hyn⟩ := nth_succ_eq_some.mp hx
    obtain ⟨-, hyx, -⟩ := (nth_eq_some_iff h).mp hyn
    have hnext := (h c y).mp hy
    cases m with
    | zero => exact ⟨y, hy, hnext.mem, hnext.after, hyx⟩
    | succ m =>
      obtain ⟨z, hz, hbetween⟩ := ih hyn (by omega : m < n)
      exact ⟨z, nth_succ_eq_some.mpr ⟨y, hy, hz⟩, hbetween.1,
        trans_of r hnext.after hbetween.2.1, hbetween.2.2⟩

/-- In an ordered list the first element with a property comes before the others that have it. -/
theorem find?_eq_some_iff_of_pairwise {l : List α} (h : l.Pairwise r) {p : α → Bool} :
    l.find? p = some x ↔ x ∈ l ∧ p x = true ∧ ∀ y ∈ l, p y = true → y = x ∨ r x y := by
  induction l with
  | nil => simp
  | cons a l ih =>
    obtain ⟨hfirst, hrest⟩ := List.pairwise_cons.mp h
    rw [List.find?_cons]
    cases ha : p a with
    | true =>
      constructor
      · intro hx
        obtain rfl := Option.some.inj hx
        refine ⟨List.mem_cons_self, ha, fun y hy _ => ?_⟩
        exact (List.mem_cons.mp hy).imp_right (hfirst y)
      · rintro ⟨hmem, hx, hleast⟩
        rcases hleast a List.mem_cons_self ha with rfl | hxa
        · rfl
        · rcases List.mem_cons.mp hmem with rfl | htail
          · rfl
          · exact absurd (trans_of r hxa (hfirst x htail)) (irrefl_of r x)
    | false =>
      rw [ih hrest]
      constructor
      · rintro ⟨hmem, hx, hleast⟩
        refine ⟨List.mem_cons_of_mem a hmem, hx, fun y hy hpy => ?_⟩
        rcases List.mem_cons.mp hy with rfl | htail
        · rw [ha] at hpy
          cases hpy
        · exact hleast y htail hpy
      · rintro ⟨hmem, hx, hleast⟩
        rcases List.mem_cons.mp hmem with rfl | htail
        · rw [ha] at hx
          cases hx
        · exact ⟨htail, hx, fun y hy hpy => hleast y (List.mem_cons_of_mem a hy) hpy⟩

end Successions
