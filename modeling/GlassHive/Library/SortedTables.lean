import GlassHive.Library.Table
import Mathlib.Data.List.Perm.Basic

/-!
# Tables in the order of their keys

Two tables that show the same under every key have the same rows once these are sorted by their
keys, in whatever order they were inserted.
-/

namespace Relational

/-- Sorting by a total order does not depend on the order before. -/
theorem mergeSort_eq_of_perm {α : Type} {le : α → α → Bool} {l m : List α}
    (trans : ∀ a b c, le a b = true → le b c = true → le a c = true)
    (total : ∀ a b, (le a b || le b a) = true)
    (antisymm : ∀ a ∈ l, ∀ b ∈ l, le a b = true → le b a = true → a = b) (h : l.Perm m) :
    l.mergeSort le = m.mergeSort le := by
  have hl := List.pairwise_mergeSort trans total l
  have hm := List.pairwise_mergeSort trans total m
  have hperm : (l.mergeSort le).Perm (m.mergeSort le) :=
    (List.mergeSort_perm l le).trans (h.trans (List.mergeSort_perm m le).symm)
  refine List.Perm.eq_of_pairwise (fun a b ha hb => ?_) hl hm hperm
  have ha' : a ∈ l := (List.mergeSort_perm l le).mem_iff.mp ha
  have hb' : b ∈ l := h.mem_iff.mpr ((List.mergeSort_perm m le).mem_iff.mp hb)
  exact antisymm a ha' b hb'

namespace Table

variable {κ ρ σ β : Type}

/-- The rows in the order of their keys. -/
def sorted (t : Table κ ρ) (le : κ → κ → Bool) : List (κ × ρ) :=
  t.entries.mergeSort fun a b => le a.1 b.1

theorem mem_sorted {t : Table κ ρ} {le : κ → κ → Bool} {e : κ × ρ} :
    e ∈ t.sorted le ↔ e ∈ t.entries :=
  (List.mergeSort_perm _ _).mem_iff

theorem nodup_sorted (t : Table κ ρ) (le : κ → κ → Bool) :
    ((t.sorted le).map Prod.fst).Nodup :=
  ((List.mergeSort_perm _ _).map Prod.fst).nodup_iff.mpr t.nodup

variable [DecidableEq κ] {t : Table κ ρ} {u : Table κ σ} {f : ρ → β} {g : σ → β}

theorem mem_view {k : κ} {b : β} :
    (k, b) ∈ (t.entries.map fun e => (e.1, f e.2)) ↔ (t.get? k).map f = some b := by
  rw [List.mem_map, Option.map_eq_some_iff]
  constructor
  · rintro ⟨⟨k', r⟩, hmem, heq⟩
    obtain ⟨rfl, rfl⟩ := Prod.mk.inj heq
    exact ⟨r, get?_of_mem hmem, rfl⟩
  · rintro ⟨r, hr, rfl⟩
    exact ⟨(k, r), mem_of_get? hr, rfl⟩

omit [DecidableEq κ] in
theorem nodup_view (t : Table κ ρ) (f : ρ → β) : (t.entries.map fun e => (e.1, f e.2)).Nodup := by
  refine List.Nodup.of_map Prod.fst ?_
  rw [List.map_map]
  exact t.nodup

/-- What two tables show under every key is the same list up to its order. -/
theorem perm_view (h : ∀ k, (t.get? k).map f = (u.get? k).map g) :
    (t.entries.map fun e => (e.1, f e.2)).Perm (u.entries.map fun e => (e.1, g e.2)) := by
  rw [List.perm_ext_iff_of_nodup (nodup_view t f) (nodup_view u g)]
  rintro ⟨k, b⟩
  rw [mem_view, mem_view, h k]

omit [DecidableEq κ] in
theorem map_sorted (t : Table κ ρ) (le : κ → κ → Bool) (f : ρ → β) :
    ((t.sorted le).map fun e => (e.1, f e.2)) =
      (t.entries.map fun e => (e.1, f e.2)).mergeSort fun a b => le a.1 b.1 :=
  List.map_mergeSort fun _ _ _ _ => rfl

theorem mem_sorted_view (le : κ → κ → Bool) {k : κ} {b : β} :
    (k, b) ∈ ((t.sorted le).map fun e => (e.1, f e.2)) ↔ (t.get? k).map f = some b := by
  rw [map_sorted, (List.mergeSort_perm _ _).mem_iff, mem_view]

/-- Tables that show the same are the same in the order of their keys. -/
theorem sorted_view {le : κ → κ → Bool}
    (trans : ∀ a b c, le a b = true → le b c = true → le a c = true)
    (total : ∀ a b, (le a b || le b a) = true)
    (antisymm : ∀ a b, le a b = true → le b a = true → a = b)
    (h : ∀ k, (t.get? k).map f = (u.get? k).map g) :
    ((t.sorted le).map fun e => (e.1, f e.2)) = (u.sorted le).map fun e => (e.1, g e.2) := by
  rw [map_sorted, map_sorted]
  refine mergeSort_eq_of_perm (fun a b c => trans a.1 b.1 c.1) (fun a b => total a.1 b.1) ?_
    (perm_view h)
  rintro ⟨k, a⟩ ha ⟨j, b⟩ hb hle hge
  obtain rfl : k = j := antisymm k j hle hge
  rw [mem_view] at ha hb
  rw [Option.some.inj (ha.symm.trans hb)]

/-- The keys of the rows that satisfy a predicate are the same in two tables up to their order. -/
theorem perm_keys_select {p : κ → ρ → Bool} {q : κ → σ → Bool}
    (h : ∀ k, (∃ r, t.get? k = some r ∧ p k r = true) ↔ ∃ r, u.get? k = some r ∧ q k r = true) :
    ((t.select p).map Prod.fst).Perm ((u.select q).map Prod.fst) := by
  have hmem : ∀ {τ : Type} (v : Table κ τ) (s : κ → τ → Bool) (k : κ),
      k ∈ (v.select s).map Prod.fst ↔ ∃ r, v.get? k = some r ∧ s k r = true := by
    intro τ v s k
    rw [List.mem_map]
    constructor
    · rintro ⟨⟨k', r⟩, hr, rfl⟩
      exact ⟨r, mem_select.mp hr⟩
    · rintro ⟨r, hr⟩
      exact ⟨(k, r), mem_select.mpr hr, rfl⟩
  have hnodup : ∀ {τ : Type} (v : Table κ τ) (s : κ → τ → Bool),
      ((v.select s).map Prod.fst).Nodup :=
    fun v s => v.nodup.sublist (List.filter_sublist.map Prod.fst)
  rw [List.perm_ext_iff_of_nodup (hnodup t p) (hnodup u q)]
  intro k
  rw [hmem, hmem, h k]

end Table

end Relational
