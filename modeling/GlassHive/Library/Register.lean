import Mathlib.Order.Lattice

/-!
# Registers that keep the highest rank

A register takes the value that it is offered when it is empty or the value has a higher rank. What
it keeps of many offers is the first one of the highest rank. It does not depend on their order
where the rank determines it.
-/

namespace Relational

variable {α β ι : Type} [LinearOrder ι]

/-- Offer a value to a register. -/
def offer (rank : α → ι) (kept : Option α) (a : α) : Option α :=
  match kept with
  | none => some a
  | some c => if rank c < rank a then some a else some c

variable {rank : α → ι} {kept : Option α} {a m : α} {l l' : List α}

/-- The value that a register keeps after an offer. -/
theorem offer_cases (rank : α → ι) (kept : Option α) (a : α) :
    (offer rank kept a = some a ∧ ∀ c, kept = some c → rank c < rank a) ∨
      ∃ c, kept = some c ∧ offer rank kept a = some c ∧ rank a ≤ rank c := by
  cases kept with
  | none => exact Or.inl ⟨rfl, fun _ h => (nomatch h)⟩
  | some c =>
    rw [offer]
    split
    · rename_i hlt
      exact Or.inl ⟨rfl, fun c' h => Option.some.inj h ▸ hlt⟩
    · rename_i hle
      exact Or.inr ⟨c, rfl, rfl, not_lt.mp hle⟩

/-- An offer never lowers the rank. -/
theorem rank_le_offer {c : α} (hc : kept = some c) :
    ∃ c', offer rank kept a = some c' ∧ rank c ≤ rank c' := by
  rcases offer_cases rank kept a with ⟨h, hlt⟩ | ⟨c', hc', h, -⟩
  · exact ⟨a, h, (hlt c hc).le⟩
  · rw [hc] at hc'
    exact ⟨c', h, (Option.some.inj hc' ▸ le_rfl)⟩

/-- What a register keeps was there or was offered, and nothing had a higher rank. -/
theorem foldl_offer_eq_some (h : l.foldl (offer rank) kept = some m) :
    (kept = some m ∨ m ∈ l) ∧ (∀ a ∈ l, rank a ≤ rank m) ∧ ∀ c, kept = some c → rank c ≤ rank m := by
  induction l generalizing kept with
  | nil => exact ⟨Or.inl h, fun _ hmem => (List.not_mem_nil hmem).elim,
      fun c hc => (Option.some.inj (hc.symm.trans h) ▸ le_rfl)⟩
  | cons a l ih =>
    rw [List.foldl_cons] at h
    obtain ⟨hfrom, hle, hkept⟩ := ih h
    rcases offer_cases rank kept a with ⟨hoffer, hlt⟩ | ⟨c, hc, hoffer, hac⟩
    · have ham := hkept a hoffer
      refine ⟨?_, fun b hb => ?_, fun c hc => (hlt c hc).le.trans ham⟩
      · rcases hfrom with hm | hm
        · rw [hoffer] at hm
          exact Or.inr (Option.some.inj hm ▸ List.mem_cons_self)
        · exact Or.inr (List.mem_cons_of_mem a hm)
      · rcases List.mem_cons.mp hb with rfl | hb
        · exact ham
        · exact hle b hb
    · have hcm := hkept c hoffer
      refine ⟨?_, fun b hb => ?_, fun c' hc' => ?_⟩
      · rcases hfrom with hm | hm
        · exact Or.inl (hc.trans (hoffer.symm.trans hm))
        · exact Or.inr (List.mem_cons_of_mem a hm)
      · rcases List.mem_cons.mp hb with rfl | hb
        · exact hac.trans hcm
        · exact hle b hb
      · rw [hc] at hc'
        exact Option.some.inj hc' ▸ hcm

theorem foldl_offer_eq_none : l.foldl (offer rank) kept = none ↔ kept = none ∧ l = [] := by
  induction l generalizing kept with
  | nil => exact ⟨fun h => ⟨h, rfl⟩, fun h => h.1⟩
  | cons a l ih =>
    rw [List.foldl_cons, ih]
    refine ⟨fun h => ?_, fun h => nomatch h.2⟩
    rcases offer_cases rank kept a with ⟨hoffer, -⟩ | ⟨c, -, hoffer, -⟩ <;>
      · rw [hoffer] at h
        exact nomatch h.1

/-- Two empty registers that are offered the same values, as `f` sees them, keep the same, as long as
the rank of an offered value determines what `f` sees. -/
theorem foldl_offer_congr (f : α → β) (hmem : ∀ b, b ∈ l.map f ↔ b ∈ l'.map f)
    (hrank : ∀ a b, f a = f b → rank a = rank b)
    (hf : ∀ a ∈ l, ∀ b ∈ l, rank a = rank b → f a = f b) :
    (l.foldl (offer rank) none).map f = (l'.foldl (offer rank) none).map f := by
  cases h : l.foldl (offer rank) none with
  | none =>
    obtain ⟨-, rfl⟩ := foldl_offer_eq_none.mp h
    have hnil : l' = [] := List.eq_nil_iff_forall_not_mem.mpr fun a ha =>
      List.not_mem_nil ((hmem (f a)).mpr (List.mem_map_of_mem ha))
    rw [hnil]
    rfl
  | some m =>
    obtain ⟨hfrom, hle, -⟩ := foldl_offer_eq_some h
    have hm : m ∈ l := hfrom.resolve_left fun h => nomatch h
    obtain ⟨n, hn, hnm⟩ := List.mem_map.mp ((hmem (f m)).mp (List.mem_map_of_mem hm))
    cases h' : l'.foldl (offer rank) none with
    | none =>
      obtain ⟨-, rfl⟩ := foldl_offer_eq_none.mp h'
      exact (List.not_mem_nil hn).elim
    | some m' =>
      obtain ⟨hfrom', hle', -⟩ := foldl_offer_eq_some h'
      have hm' : m' ∈ l' := hfrom'.resolve_left fun h => nomatch h
      obtain ⟨n', hn', hnm'⟩ := List.mem_map.mp ((hmem (f m')).mpr (List.mem_map_of_mem hm'))
      -- each of the two has a twin among the offers of the other
      have hrankm : rank m = rank n' := by
        refine le_antisymm ?_ (hle n' hn')
        rw [hrank n' m' hnm', ← hrank n m hnm]
        exact hle' n hn
      rw [Option.map_some, Option.map_some, hf m hm n' hn' hrankm, hnm']

end Relational
