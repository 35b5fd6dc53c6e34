import GlassHive.Library.Table

/-!
# How tables evolve

A statement rewrites some rows under their keys, deletes some, and inserts some. What it does to a
row is a relation between the row before and the row after, with a condition on new rows; such
descriptions compose, and an invariant of the rows only has to look at them.
-/

namespace Relational

namespace Table

variable {κ ρ : Type} [DecidableEq κ] {R S : κ → ρ → ρ → Prop} {N M : κ → ρ → Prop}
  {t t' t'' : Table κ ρ} {p : κ → ρ → Bool}

/-- Every row of `t'` comes from the row of `t` under its key, or is new. -/
def Evolves (R : κ → ρ → ρ → Prop) (N : κ → ρ → Prop) (t t' : Table κ ρ) : Prop :=
  ∀ k r', t'.get? k = some r' → (t.get? k = none ∧ N k r') ∨ ∃ r, t.get? k = some r ∧ R k r r'

theorem evolves_refl (hR : ∀ k r, R k r r) : Evolves R N t t :=
  fun k r h => Or.inr ⟨r, h, hR k r⟩

theorem evolves_of_eq (hR : ∀ k r, R k r r) (h : t' = t) : Evolves R N t t' :=
  h ▸ evolves_refl hR

theorem Evolves.mono (h : Evolves R N t t')
    (hR : ∀ k r r', t.get? k = some r → t'.get? k = some r' → R k r r' → S k r r')
    (hN : ∀ k r', t.get? k = none → N k r' → M k r') : Evolves S M t t' := by
  intro k r' hr'
  rcases h k r' hr' with ⟨hnew, hN'⟩ | ⟨r, hr, hrel⟩
  · exact Or.inl ⟨hnew, hN k r' hnew hN'⟩
  · exact Or.inr ⟨r, hr, hR k r r' hr hr' hrel⟩

/-- Evolutions compose when the relation is transitive and keeps new rows acceptable. -/
theorem Evolves.trans {u : Table κ ρ} (h : Evolves R N t u) (h' : Evolves R N u t'')
    (hR : ∀ k r r' r'', R k r r' → R k r' r'' → R k r r'')
    (hN : ∀ k r r', N k r → R k r r' → N k r')
    (hdel : ∀ k r r', t.get? k = some r → u.get? k = none → N k r' → R k r r') :
    Evolves R N t t'' := by
  intro k r'' hr''
  rcases h' k r'' hr'' with ⟨hnew', hN'⟩ | ⟨r', hr', hrel'⟩
  · cases hr : t.get? k with
    | none => exact Or.inl ⟨rfl, hN'⟩
    | some r => exact Or.inr ⟨r, rfl, hdel k r r'' hr hnew' hN'⟩
  · rcases h k r' hr' with ⟨hnew, hN'⟩ | ⟨r, hr, hrel⟩
    · exact Or.inl ⟨hnew, hN k r' r'' hN' hrel'⟩
    · exact Or.inr ⟨r, hr, hR k r r' r'' hrel hrel'⟩

theorem evolves_update {f : κ → ρ → ρ} (hkeep : ∀ k r, R k r r)
    (hset : ∀ k r, t.get? k = some r → p k r = true → R k r (f k r)) :
    Evolves R N t (t.update p f) := by
  intro k r' hr'
  obtain ⟨r, hr, rfl⟩ := get?_update_eq_some.mp hr'
  refine Or.inr ⟨r, hr, ?_⟩
  split
  · rename_i hp
    exact hset k r hr hp
  · exact hkeep k r

theorem evolves_delete (hkeep : ∀ k r, R k r r) : Evolves R N t (t.delete p) := by
  intro k r' hr'
  exact Or.inr ⟨r', (get?_delete_eq_some.mp hr').1, hkeep k r'⟩

theorem evolves_insert {k : κ} {r : ρ} (h : t.insert? k r = some t') (hkeep : ∀ k r, R k r r)
    (hnew : N k r) : Evolves R N t t' := by
  intro j r' hr'
  rw [get?_insert h] at hr'
  split at hr'
  · rename_i hj
    obtain rfl := Option.some.inj hr'
    subst hj
    exact Or.inl ⟨(insert?_eq_some h).1, hnew⟩
  · exact Or.inr ⟨r', hr', hkeep j r'⟩

/-! ## Rewriting in place -/

/-- Every row is rewritten under its key: none is new and none is removed. -/
structure Rewrites (R : κ → ρ → ρ → Prop) (t t' : Table κ ρ) : Prop where
  evolves : t.Evolves R (fun _ _ => False) t'
  keys : ∀ k, (t'.get? k).isSome = (t.get? k).isSome

theorem rewrites_of_eq (hR : ∀ k r, R k r r) (h : t' = t) : t.Rewrites R t' :=
  ⟨evolves_of_eq hR h, fun _ => by rw [h]⟩

theorem rewrites_update {f : κ → ρ → ρ} (hkeep : ∀ k r, R k r r)
    (hset : ∀ k r, t.get? k = some r → p k r = true → R k r (f k r)) :
    t.Rewrites R (t.update p f) := by
  refine ⟨evolves_update hkeep hset, fun k => ?_⟩
  rw [get?_update, Option.isSome_map]

theorem Rewrites.trans {u : Table κ ρ} (h : t.Rewrites R u) (h' : u.Rewrites R t'')
    (hR : ∀ k r r' r'', R k r r' → R k r' r'' → R k r r'') : t.Rewrites R t'' := by
  refine ⟨h.evolves.trans h'.evolves hR (fun _ _ _ hnew _ => hnew) fun _ _ _ _ _ hnew => hnew.elim,
    fun k => ?_⟩
  rw [h'.keys, h.keys]

/-! ## What the rows keep -/

section Keeping

variable {β : Type} {g : ρ → β} {p : κ → ρ → Bool} {f : κ → ρ → ρ}

/-- Both tables have the same rows, as far as `g` reads them. -/
def Agrees (g : ρ → β) (t t' : Table κ ρ) : Prop :=
  ∀ k, (t'.get? k).map g = (t.get? k).map g

@[simp] theorem agrees_refl : t.Agrees g t :=
  fun _ => rfl

theorem Agrees.trans (h : t.Agrees g t') (h' : t'.Agrees g t'') : t.Agrees g t'' :=
  fun k => (h' k).trans (h k)

@[simp] theorem agrees_update (hf : ∀ k r, g (f k r) = g r) :
    t.Agrees g (t'.update p f) ↔ t.Agrees g t' := by
  simp only [Agrees, map_get?_update t' p f g hf]

theorem Agrees.put (h : t.Agrees g t') (k : κ) {r r' : ρ} (hr : g r' = g r) :
    (t.put k r).Agrees g (t'.put k r') := by
  intro j
  rw [get?_put, get?_put]
  split
  · rw [Option.map_some, Option.map_some, hr]
  · exact h j

/-- Updates that look only at what `g` reads. -/
theorem Agrees.update (h : t.Agrees g t') (hp : ∀ k r r', g r' = g r → p k r' = p k r)
    (hf : ∀ k r r', g r' = g r → g (f k r') = g (f k r)) :
    (t.update p f).Agrees g (t'.update p f) := by
  intro k
  have hk := h k
  rw [get?_update, get?_update]
  cases hr : t.get? k with
  | none =>
    rw [hr, Option.map_none, Option.map_eq_none_iff] at hk
    rw [hk]
  | some r =>
    rw [hr, Option.map_some] at hk
    obtain ⟨r', hr', hg⟩ := Option.map_eq_some_iff.mp hk
    simp only [hr', Option.map_some, hp k r r' hg]
    split
    · rw [hf k r r' hg]
    · rw [hg]

/-- No row is removed, and `g` reads the same of each. -/
def Carries (g : ρ → β) (t t' : Table κ ρ) : Prop :=
  ∀ k b, (t.get? k).map g = some b → (t'.get? k).map g = some b

@[simp] theorem carries_refl : t.Carries g t :=
  fun _ _ h => h

theorem Carries.trans (h : t.Carries g t') (h' : t'.Carries g t'') : t.Carries g t'' :=
  fun k b hb => h' k b (h k b hb)

@[simp] theorem carries_update (hf : ∀ k r, g (f k r) = g r) :
    t.Carries g (t'.update p f) ↔ t.Carries g t' := by
  simp only [Carries, map_get?_update t' p f g hf]

theorem carries_insert {k : κ} {r : ρ} (h : t.insert? k r = some t') : t.Carries g t' := by
  intro j b hb
  rw [get?_insert h]
  split
  · rename_i hj
    rw [hj, (insert?_eq_some h).1] at hb
    cases hb
  · exact hb

theorem Carries.isSome (h : t.Carries g t') (k : κ) (hk : (t.get? k).isSome = true) :
    (t'.get? k).isSome = true := by
  obtain ⟨r, hr⟩ := Option.isSome_iff_exists.mp hk
  obtain ⟨r', hr', -⟩ := Option.map_eq_some_iff.mp (h k (g r) (by rw [hr, Option.map_some]))
  exact Option.isSome_iff_exists.mpr ⟨r', hr'⟩

end Keeping

end Table

end Relational
