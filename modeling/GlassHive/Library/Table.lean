import Mathlib.Data.List.Nodup
import Mathlib.Data.List.Basic
import Mathlib.Order.Lattice

/-!
# Keyed tables

A table is a finite list of keyed rows whose keys are pairwise different, in insertion order.
Bulk updates, deletions and insertions are the three ways a statement changes a table; a bulk
update never touches a key, so key uniqueness is a field and is never proved again.
-/

namespace Relational

/-- A list of rows under pairwise different primary keys, in insertion order. -/
structure Table (κ ρ : Type) where
  entries : List (κ × ρ)
  nodup : (entries.map Prod.fst).Nodup

namespace Table

variable {κ ρ : Type}

/-- The table without rows. -/
def empty : Table κ ρ :=
  ⟨[], List.nodup_nil⟩

/-- The row under a key. -/
def get? [DecidableEq κ] (t : Table κ ρ) (k : κ) : Option ρ :=
  (t.entries.find? fun e => e.1 == k).map Prod.snd

/-- Some row satisfies the predicate. -/
def any (t : Table κ ρ) (p : κ → ρ → Bool) : Bool :=
  t.entries.any fun e => p e.1 e.2

/-- The rows satisfying a predicate, in insertion order. -/
def select (t : Table κ ρ) (p : κ → ρ → Bool) : List (κ × ρ) :=
  t.entries.filter fun e => p e.1 e.2

/-- Change every row that satisfies the predicate. -/
def update (t : Table κ ρ) (p : κ → ρ → Bool) (f : κ → ρ → ρ) : Table κ ρ where
  entries := t.entries.map fun e => (e.1, if p e.1 e.2 then f e.1 e.2 else e.2)
  nodup := by simpa [Function.comp_def] using t.nodup

/-- Remove every row that satisfies the predicate. -/
def delete (t : Table κ ρ) (p : κ → ρ → Bool) : Table κ ρ where
  entries := t.entries.filter fun e => !p e.1 e.2
  nodup := t.nodup.sublist (List.filter_sublist.map Prod.fst)

/-- Insert a row, refused when the key is taken. -/
def insert? [DecidableEq κ] (t : Table κ ρ) (k : κ) (r : ρ) : Option (Table κ ρ) :=
  if h : k ∈ t.entries.map Prod.fst then none
  else some ⟨t.entries ++ [(k, r)], by
    rw [List.map_append, List.nodup_append]
    refine ⟨t.nodup, by simp, ?_⟩
    intro a ha b hb hab
    simp only [List.map_cons, List.map_nil, List.mem_singleton] at hb
    exact h (hb ▸ hab ▸ ha)⟩

/-- Write a row, in place of the one under its key. -/
def put [DecidableEq κ] (t : Table κ ρ) (k : κ) (r : ρ) : Table κ ρ :=
  (t.insert? k r).getD (t.update (fun j _ => j = k) fun _ _ => r)

/-- The row of a list that comes first in a strict order; of two rows that neither precedes the
other, the earlier listed. -/
def earliest (before : ρ → ρ → Bool) (es : List (κ × ρ)) : Option (κ × ρ) :=
  es.foldl
    (fun best e =>
      match best with
      | none => some e
      | some b => if before e.2 b.2 then some e else some b)
    none

/-- The earliest row among those that satisfy the predicate. -/
def first (t : Table κ ρ) (p : κ → ρ → Bool) (before : ρ → ρ → Bool) : Option (κ × ρ) :=
  earliest before (t.select p)

variable [DecidableEq κ]

/-! ## Lookup -/

variable {t : Table κ ρ} {p : κ → ρ → Bool} {k : κ} {r : ρ}

theorem mem_of_get? (h : t.get? k = some r) :
    (k, r) ∈ t.entries := by
  simp only [get?, Option.map_eq_some_iff] at h
  obtain ⟨e, he, rfl⟩ := h
  have hk := List.find?_some he
  simp only [beq_iff_eq] at hk
  have hm := List.mem_of_find?_eq_some he
  rw [← hk]
  exact hm

theorem get?_of_mem (h : (k, r) ∈ t.entries) :
    t.get? k = some r := by
  obtain ⟨es, hn⟩ := t
  simp only [get?] at h ⊢
  induction es with
  | nil => simp at h
  | cons e es ih =>
    simp only [List.map_cons, List.nodup_cons] at hn
    rcases List.mem_cons.mp h with rfl | h
    · simp
    · have hne : e.1 ≠ k := by
        intro hk
        exact hn.1 (List.mem_map.mpr ⟨(k, r), h, hk.symm⟩)
      rw [List.find?_cons_of_neg (by simpa using hne)]
      exact ih hn.2 h

theorem get?_eq_some_iff :
    t.get? k = some r ↔ (k, r) ∈ t.entries :=
  ⟨mem_of_get?, get?_of_mem⟩

theorem get?_eq_none_iff :
    t.get? k = none ↔ k ∉ t.entries.map Prod.fst := by
  rw [get?, Option.map_eq_none_iff, List.find?_eq_none]
  constructor
  · intro h hk
    obtain ⟨e, he, rfl⟩ := List.mem_map.mp hk
    exact h e he (by simp)
  · intro h e he hk
    simp only [beq_iff_eq] at hk
    exact h (List.mem_map.mpr ⟨e, he, hk⟩)

@[simp]
theorem get?_empty (k : κ) : (empty : Table κ ρ).get? k = none := rfl

omit [DecidableEq κ] in
theorem any_eq_true_iff_mem :
    t.any p = true ↔ ∃ k r, (k, r) ∈ t.entries ∧ p k r = true := by
  simp [any]

@[simp]
theorem any_eq_true :
    t.any p = true ↔ ∃ k r, t.get? k = some r ∧ p k r = true := by
  simp only [any_eq_true_iff_mem, get?_eq_some_iff]

@[simp]
theorem any_eq_false :
    t.any p = false ↔ ∀ k r, t.get? k = some r → p k r = false := by
  rw [← Bool.not_eq_true, any_eq_true]
  push Not
  simp

theorem mem_select :
    (k, r) ∈ t.select p ↔ t.get? k = some r ∧ p k r = true := by
  simp [select, get?_eq_some_iff]

/-! ## Bulk update and deletion -/

theorem get?_update (t : Table κ ρ) (p : κ → ρ → Bool) (f : κ → ρ → ρ) (k : κ) :
    (t.update p f).get? k = (t.get? k).map fun r => if p k r then f k r else r := by
  obtain ⟨es, hn⟩ := t
  simp only [get?, update]
  clear hn
  induction es with
  | nil => rfl
  | cons e es ih =>
    by_cases hk : e.1 = k
    · subst hk
      simp
    · rw [List.map_cons, List.find?_cons_of_neg (by simpa using hk),
        List.find?_cons_of_neg (by simpa using hk)]
      exact ih

theorem get?_delete (t : Table κ ρ) (p : κ → ρ → Bool) (k : κ) :
    (t.delete p).get? k = (t.get? k).filter fun r => !p k r := by
  cases h : t.get? k with
  | none =>
    rw [get?_eq_none_iff] at h
    rw [Option.filter_none, get?_eq_none_iff]
    intro hm
    exact h ((List.filter_sublist.map Prod.fst).subset hm)
  | some r =>
    have hm := mem_of_get? h
    cases hp : p k r with
    | false =>
      rw [Option.filter_some_pos (by simp [hp]), get?_eq_some_iff]
      exact List.mem_filter.mpr ⟨hm, by simp [hp]⟩
    | true =>
      rw [Option.filter_some_neg (by simp [hp]), get?_eq_none_iff]
      intro hk
      obtain ⟨⟨k', r'⟩, he, rfl⟩ := List.mem_map.mp hk
      obtain ⟨he, hp'⟩ := List.mem_filter.mp he
      have hr : r' = r := by
        have := get?_of_mem he
        rw [h] at this
        exact (Option.some.inj this).symm
      subst hr
      simp [hp] at hp'

/-- An update keeps what it leaves of every row. -/
theorem map_get?_update {β : Type} (t : Table κ ρ) (p : κ → ρ → Bool) (f : κ → ρ → ρ) (g : ρ → β)
    (h : ∀ k r, g (f k r) = g r) (k : κ) :
    ((t.update p f).get? k).map g = (t.get? k).map g := by
  rw [get?_update, Option.map_map]
  congr 1
  funext r
  simp only [Function.comp_apply]
  split
  · exact h k r
  · rfl

theorem get?_update_eq_some {f : κ → ρ → ρ} {r' : ρ} :
    (t.update p f).get? k = some r' ↔
      ∃ r, t.get? k = some r ∧ (if p k r then f k r else r) = r' := by
  rw [get?_update, Option.map_eq_some_iff]

theorem get?_delete_eq_some :
    (t.delete p).get? k = some r ↔ t.get? k = some r ∧ p k r = false := by
  rw [get?_delete, Option.filter_eq_some_iff]
  simp

/-! ## Insertion -/

theorem insert?_eq_some {t' : Table κ ρ} (h : t.insert? k r = some t') :
    t.get? k = none ∧ t'.entries = t.entries ++ [(k, r)] := by
  simp only [insert?] at h
  split at h
  · cases h
  · rename_i hk
    cases h
    exact ⟨get?_eq_none_iff.mpr hk, rfl⟩

theorem insert?_isSome :
    (t.insert? k r).isSome = true ↔ t.get? k = none := by
  rw [get?_eq_none_iff, insert?]
  split <;> simp_all

theorem get?_insert {t' : Table κ ρ} (h : t.insert? k r = some t') (j : κ) :
    t'.get? j = if j = k then some r else t.get? j := by
  obtain ⟨hk, he⟩ := insert?_eq_some h
  split
  · rename_i hj
    subst hj
    rw [get?_eq_some_iff, he]
    simp
  · rename_i hj
    cases hg : t.get? j with
    | some =>
      rw [get?_eq_some_iff, he]
      exact List.mem_append_left _ (mem_of_get? hg)
    | none =>
      rw [get?_eq_none_iff] at hg ⊢
      rw [he]
      simpa [hj] using hg

/-- The rows that were there before an insertion. -/
theorem get?_insert_of_some {t' : Table κ ρ} (h : t.insert? k r = some t') {j : κ} {r' : ρ}
    (hj : t.get? j = some r') : t'.get? j = some r' := by
  rw [get?_insert h, if_neg]
  · exact hj
  · rintro rfl
    rw [(insert?_eq_some h).1] at hj
    cases hj

/-- An insertion that is ignored when the key is taken. -/
@[simp]
theorem get?_put (t : Table κ ρ) (k : κ) (r : ρ) (j : κ) :
    (t.put k r).get? j = if j = k then some r else t.get? j := by
  unfold put
  cases hi : t.insert? k r with
  | some => exact get?_insert hi j
  | none =>
    have htaken : t.get? k ≠ none := by
      intro hk
      have hsome := (@insert?_isSome κ ρ _ t k r).mpr hk
      simp [hi] at hsome
    obtain ⟨r', hr⟩ := Option.ne_none_iff_exists'.mp htaken
    rw [Option.getD_none, get?_update]
    by_cases hj : j = k
    · subst hj
      simp [hr]
    · simp [hj]

theorem get?_insert_getD (t : Table κ ρ) (k : κ) (r : ρ) (j : κ) :
    ((t.insert? k r).getD t).get? j = (t.get? j <|> if j = k then some r else none) := by
  cases hi : t.insert? k r with
  | none =>
    have htaken : t.get? k ≠ none := by
      intro hk
      have hsome := (@insert?_isSome κ ρ _ t k r).mpr hk
      simp [hi] at hsome
    by_cases hj : j = k
    · subst hj
      obtain ⟨r', hr⟩ := Option.ne_none_iff_exists'.mp htaken
      simp [hr]
    · simp [hj]
  | some =>
    rw [Option.getD_some, get?_insert hi]
    by_cases hj : j = k
    · subst hj
      simp [(insert?_eq_some hi).1]
    · simp [hj]

/-- A row that is inserted unless its key is taken leaves every key that was there. -/
theorem isSome_get?_insert_getD {j : κ} (h : (t.get? j).isSome = true) :
    (((t.insert? k r).getD t).get? j).isSome = true := by
  rw [get?_insert_getD]
  cases hj : t.get? j with
  | none => simp [hj] at h
  | some => rfl

theorem isSome_get?_insert_getD_self (t : Table κ ρ) (k : κ) (r : ρ) :
    (((t.insert? k r).getD t).get? k).isSome = true := by
  rw [get?_insert_getD]
  cases t.get? k <;> simp

/-! ## Ordered selection -/

section Earliest

omit [DecidableEq κ]

variable {es : List (κ × ρ)} {before : ρ → ρ → Bool} {e : κ × ρ}

private theorem earliest_fold (before : ρ → ρ → Bool) (es : List (κ × ρ)) (best : Option (κ × ρ))
    (h : es.foldl (fun best e => match best with | none => some e | some b => if before e.2 b.2 then some e else some b) best = some e)
    :
    e ∈ es ∨ best = some e := by
  induction es generalizing best with
  | nil => exact Or.inr h
  | cons a es ih =>
    rcases ih _ h with h | h
    · exact Or.inl (List.mem_cons_of_mem _ h)
    · cases best with
      | none =>
        cases h
        exact Or.inl List.mem_cons_self
      | some =>
        simp only at h
        split at h
        · cases h
          exact Or.inl List.mem_cons_self
        · exact Or.inr h

theorem mem_of_earliest (h : earliest before es = some e) : e ∈ es := by
  rcases earliest_fold before es none h with h | h
  · exact h
  · cases h

private theorem earliest_fold_isSome (before : ρ → ρ → Bool) (es : List (κ × ρ)) (b : κ × ρ) :
    (es.foldl (fun best e =>
      match best with
      | none => some e
      | some b => if before e.2 b.2 then some e else some b) (some b)).isSome = true := by
  induction es generalizing b with
  | nil => rfl
  | cons a es ih =>
    simp only [List.foldl_cons]
    split <;> exact ih _

theorem earliest_eq_none :
    earliest before es = none ↔ es = [] := by
  cases es with
  | nil => simp [earliest]
  | cons e es =>
    have hs := earliest_fold_isSome before es e
    rw [earliest, List.foldl_cons]
    simp only [Option.isSome_iff_ne_none] at hs
    simp [hs]

/-- In the order of a key, a row splits the list: every row before it has a greater key and no row
behind it a smaller one. -/
def Splits {β : Type} [LinearOrder β] (f : ρ → β) (es : List (κ × ρ)) (e : κ × ρ) : Prop :=
  ∃ l₁ l₂, es = l₁ ++ e :: l₂ ∧ (∀ x ∈ l₁, f e.2 < f x.2) ∧ ∀ x ∈ l₂, f e.2 ≤ f x.2

section Splits

variable {β : Type} [LinearOrder β] {f : ρ → β}

theorem splits_cons {a : κ × ρ} : Splits f (a :: es) e ↔
    e = a ∧ (∀ x ∈ es, f e.2 ≤ f x.2) ∨ f e.2 < f a.2 ∧ Splits f es e := by
  constructor
  · rintro ⟨l₁, l₂, hes, h₁, h₂⟩
    rcases List.cons_eq_append_iff.mp hes with ⟨rfl, heq⟩ | ⟨l₁, rfl, rfl⟩
    · obtain ⟨rfl, rfl⟩ := List.cons.inj heq
      exact Or.inl ⟨rfl, h₂⟩
    · rw [List.forall_mem_cons] at h₁
      exact Or.inr ⟨h₁.1, l₁, l₂, rfl, h₁.2, h₂⟩
  · rintro (⟨rfl, h⟩ | ⟨hlt, l₁, l₂, rfl, h₁, h₂⟩)
    · exact ⟨[], es, rfl, by simp, h⟩
    · exact ⟨a :: l₁, l₂, rfl, List.forall_mem_cons.mpr ⟨hlt, h₁⟩, h₂⟩

theorem Splits.le (h : Splits f es e) : ∀ x ∈ es, f e.2 ≤ f x.2 := by
  obtain ⟨l₁, l₂, rfl, h₁, h₂⟩ := h
  rw [List.forall_mem_append, List.forall_mem_cons]
  exact ⟨fun x hx => (h₁ x hx).le, le_rfl, h₂⟩

private theorem earliest_fold_iff (es : List (κ × ρ)) (b : κ × ρ) :
    es.foldl (fun best e =>
      match best with
      | none => some e
      | some b => if decide (f e.2 < f b.2) then some e else some b) (some b) = some e ↔
      Splits f (b :: es) e := by
  induction es generalizing b with
  | nil =>
    rw [splits_cons]
    simp [Splits, eq_comm]
  | cons a es ih =>
    simp only [List.foldl_cons]
    split
    · rename_i hab
      rw [decide_eq_true_eq] at hab
      rw [ih a, splits_cons (a := b)]
      constructor
      · exact fun h => Or.inr ⟨(h.le a List.mem_cons_self).trans_lt hab, h⟩
      · rintro (⟨rfl, hle⟩ | ⟨-, h⟩)
        · exact absurd hab (not_lt.mpr (hle a List.mem_cons_self))
        · exact h
    · rename_i hab
      rw [decide_eq_true_eq, not_lt] at hab
      rw [ih b, splits_cons, splits_cons, splits_cons, List.forall_mem_cons]
      constructor
      · rintro (⟨rfl, hle⟩ | ⟨hlt, h⟩)
        · exact Or.inl ⟨rfl, hab, hle⟩
        · exact Or.inr ⟨hlt, Or.inr ⟨hlt.trans_le hab, h⟩⟩
      · rintro (⟨rfl, -, hle⟩ | ⟨hlt, ⟨rfl, -⟩ | ⟨-, h⟩⟩)
        · exact Or.inl ⟨rfl, hle⟩
        · exact absurd hlt (not_lt.mpr hab)
        · exact Or.inr ⟨hlt, h⟩

theorem earliest_eq_some_iff :
    earliest (fun a b => decide (f a < f b)) es = some e ↔ Splits f es e := by
  cases es with
  | nil => simp [earliest, Splits]
  | cons a es => exact earliest_fold_iff es a

end Splits

/-- Dropping other rows leaves the earliest row earliest. -/
theorem earliest_filter {β : Type} [LinearOrder β] {f : ρ → β} {q : κ × ρ → Bool}
    (h : earliest (fun a b => decide (f a < f b)) es = some e) (hq : q e = true) :
    earliest (fun a b => decide (f a < f b)) (es.filter q) = some e := by
  obtain ⟨l₁, l₂, rfl, h₁, h₂⟩ := earliest_eq_some_iff.mp h
  refine earliest_eq_some_iff.mpr ⟨l₁.filter q, l₂.filter q, ?_, ?_, ?_⟩
  · rw [List.filter_append, List.filter_cons_of_pos hq]
  · exact fun x hx => h₁ x (List.mem_filter.mp hx).1
  · exact fun x hx => h₂ x (List.mem_filter.mp hx).1

theorem select_and (t : Table κ ρ) (p q : κ → ρ → Bool) :
    (t.select fun k r => p k r && q k r) = (t.select p).filter fun e => q e.1 e.2 := by
  rw [select, select, List.filter_filter]
  exact List.filter_congr fun e _ => Bool.and_comm _ _

/-- An update that takes the rows it changes out of a selection. -/
theorem select_update_of_leave (t : Table κ ρ) {q : κ → ρ → Bool} {f : κ → ρ → ρ}
    (h : ∀ k r, p k r = true → q k (f k r) = false) :
    (t.update p f).select q = (t.select q).filter fun e => !p e.1 e.2 := by
  obtain ⟨es, hn⟩ := t
  simp only [select, update]
  clear hn
  induction es with
  | nil => rfl
  | cons e es ih =>
    rw [List.map_cons, List.filter_cons, List.filter_cons, ih]
    cases hp : p e.1 e.2 with
    | true =>
      have hleave := h _ _ hp
      cases hq : q e.1 e.2 <;> simp [hp, hleave]
    | false => cases hq : q e.1 e.2 <;> simp [hp, hq]

/-- An update that keeps the rows it changes in a selection. -/
theorem select_update_of_stay (t : Table κ ρ) {q : κ → ρ → Bool} {f : κ → ρ → ρ}
    (h : ∀ k r, p k r = true → q k (f k r) = q k r) :
    (t.update p f).select q =
      (t.select q).map fun e => (e.1, if p e.1 e.2 then f e.1 e.2 else e.2) := by
  obtain ⟨es, hn⟩ := t
  simp only [select, update]
  clear hn
  induction es with
  | nil => rfl
  | cons e es ih =>
    rw [List.map_cons, List.filter_cons, List.filter_cons, ih]
    cases hp : p e.1 e.2 with
    | true =>
      have hstay := h _ _ hp
      cases hq : q e.1 e.2 <;> simp [hp, hq, hstay]
    | false => cases hq : q e.1 e.2 <;> simp [hp, hq]

/-- A change of the rows that keeps their order keeps the earliest one. -/
theorem earliest_map {g : κ × ρ → κ × ρ} (h : ∀ a b, before (g a).2 (g b).2 = before a.2 b.2)
    (es : List (κ × ρ)) :
    earliest before (es.map g) = (earliest before es).map g := by
  have key : ∀ (es : List (κ × ρ)) (best : Option (κ × ρ)),
      (es.map g).foldl (fun best e =>
        match best with
        | none => some e
        | some b => if before e.2 b.2 then some e else some b) (best.map g) =
      (es.foldl (fun best e =>
        match best with
        | none => some e
        | some b => if before e.2 b.2 then some e else some b) best).map g := by
    intro es
    induction es with
    | nil => exact fun _ => rfl
    | cons e es ih =>
      intro best
      rw [List.map_cons, List.foldl_cons, List.foldl_cons, ← ih]
      cases best with
      | none => rfl
      | some =>
        simp only [Option.map_some, h]
        split <;> rfl
  exact key es none

end Earliest

theorem first_eq_some {before : ρ → ρ → Bool} (h : t.first p before = some (k, r)) :
    t.get? k = some r ∧ p k r = true :=
  mem_select.mp (mem_of_earliest h)

theorem first_eq_none {before : ρ → ρ → Bool} :
    t.first p before = none ↔ ∀ k r, t.get? k = some r → p k r = false := by
  rw [first, earliest_eq_none, List.eq_nil_iff_forall_not_mem]
  constructor
  · intro h k r hk
    have := h (k, r)
    rw [mem_select] at this
    simpa [hk] using this
  · rintro h ⟨k, r⟩ hm
    obtain ⟨hk, hp⟩ := mem_select.mp hm
    rw [h k r hk] at hp
    cases hp

end Table

end Relational
