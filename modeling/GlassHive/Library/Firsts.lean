import Mathlib.Data.List.Induction
import Mathlib.Data.List.Nodup
import Mathlib.Data.List.Perm.Subperm

/-!
# The first of each key

The elements of a list whose key no earlier element has. Where the key is computed from a finer one,
each finer key has one element exactly when the coarser key tells the elements apart as well.
-/

namespace Firsts

variable {α β γ : Type*} [DecidableEq β] {key : α → β}

/-- An element is kept unless its key is there. -/
def keep (key : α → β) (kept : List α) (a : α) : List α :=
  if key a ∈ kept.map key then kept else kept ++ [a]

/-- The first element of each key, in order. -/
def firsts (key : α → β) (l : List α) : List α :=
  l.foldl (keep key) []

theorem firsts_concat (l : List α) (a : α) :
    firsts key (l ++ [a]) = keep key (firsts key l) a := by
  rw [firsts, List.foldl_append]
  rfl

/-- Every key is kept. -/
theorem mem_map_firsts {l : List α} {b : β} :
    b ∈ (firsts key l).map key ↔ b ∈ l.map key := by
  induction l using List.reverseRecOn with
  | nil => simp [firsts]
  | append_singleton l a ih =>
    rw [firsts_concat, keep, List.map_append, List.mem_append, ← ih]
    split
    · rename_i h
      constructor
      · exact Or.inl
      · rintro (hb | hb)
        · exact hb
        · rw [List.map_singleton, List.mem_singleton] at hb
          exact hb ▸ h
    · rw [List.map_append, List.mem_append]

theorem nodup_map_firsts (l : List α) : ((firsts key l).map key).Nodup := by
  induction l using List.reverseRecOn with
  | nil => simp [firsts]
  | append_singleton l a ih =>
    rw [firsts_concat, keep]
    split
    · exact ih
    · rename_i h
      rw [List.map_append, List.map_singleton]
      exact List.nodup_append.mpr ⟨ih, List.nodup_singleton _, fun b hb c hc => by
        rw [List.mem_singleton] at hc
        exact fun heq => h (hc ▸ heq ▸ hb)⟩

theorem firsts_sublist (l : List α) : (firsts key l).Sublist l := by
  induction l using List.reverseRecOn with
  | nil => exact List.Sublist.refl _
  | append_singleton l a ih =>
    rw [firsts_concat, keep]
    split
    · exact ih.trans (List.sublist_append_left l [a])
    · exact ih.append (List.Sublist.refl _)

/-- As many elements as the first ones of the coarser key have each of the finer keys exactly once
if and only if elements with the same coarser key have the same finer key. -/
theorem exists_one_each_iff {fine : α → γ} {coarse : γ → β} {l : List α} (n : List α → Prop)
    (hn : n (firsts (coarse ∘ fine) l))
    (hlength : ∀ kept, n kept → kept.length = (firsts (coarse ∘ fine) l).length) :
    (∃ kept, kept.Sublist l ∧ n kept ∧ (kept.map fine).Nodup ∧
      ∀ a ∈ l, fine a ∈ kept.map fine) ↔
    ∀ a ∈ l, ∀ b ∈ l, coarse (fine a) = coarse (fine b) → fine a = fine b := by
  have hnodup : ((firsts (coarse ∘ fine) l).map fine).Nodup := by
    have h : ((firsts (coarse ∘ fine) l).map (coarse ∘ fine)).Nodup := nodup_map_firsts l
    rw [← List.map_map] at h
    exact h.of_map coarse
  have hfirst : ∀ a ∈ l, ∃ d ∈ firsts (coarse ∘ fine) l, coarse (fine d) = coarse (fine a) := by
    intro a ha
    have h : (coarse ∘ fine) a ∈ (firsts (coarse ∘ fine) l).map (coarse ∘ fine) :=
      mem_map_firsts.mpr (List.mem_map_of_mem ha)
    exact List.mem_map.mp h
  constructor
  · rintro ⟨kept, hsub, hkept, hkeptNodup, hcover⟩ a ha b hb hab
    have hperm : List.Perm ((firsts (coarse ∘ fine) l).map fine) (kept.map fine) := by
      refine (hnodup.subperm ?_).perm_of_length_le ?_
      · intro c hc
        obtain ⟨d, hd, rfl⟩ := List.mem_map.mp hc
        exact hcover d ((firsts_sublist l).subset hd)
      · rw [List.length_map, List.length_map]
        exact Nat.le_of_eq (hlength kept hkept)
    obtain ⟨d, hd, hda⟩ := List.mem_map.mp (hperm.mem_iff.mpr (hcover a ha))
    obtain ⟨e, he, heb⟩ := List.mem_map.mp (hperm.mem_iff.mpr (hcover b hb))
    have hkeys : ((firsts (coarse ∘ fine) l).map (coarse ∘ fine)).Nodup := nodup_map_firsts l
    have hde : d = e := by
      refine List.inj_on_of_nodup_map hkeys hd he ?_
      simp only [Function.comp_apply, hda, heb, hab]
    rw [← hda, hde, heb]
  · intro hinj
    refine ⟨_, firsts_sublist l, hn, hnodup, fun a ha => ?_⟩
    obtain ⟨d, hd, hkey⟩ := hfirst a ha
    exact List.mem_map.mpr ⟨d, hd, hinj d ((firsts_sublist l).subset hd) a ha hkey⟩

end Firsts
