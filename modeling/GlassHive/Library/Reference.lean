import GlassHive.Library.Table

/-!
# Foreign keys with immediate restriction

A child table refers to the keys of a parent table. Deleting parent rows is refused while some
child row still refers to one of them; that is the check at the end of a `DELETE` statement when
foreign keys are enforced and not deferred.
-/

namespace Relational

namespace Table

variable {κ ρ κ' ρ' : Type} [DecidableEq κ] [DecidableEq κ'] {parent : Table κ ρ} {p : κ → ρ → Bool}
  {child : Table κ' ρ'} {refers : κ' → ρ' → κ → Bool}

/-- Some row of the child table refers to a parent row that the predicate selects. -/
def referenced (parent : Table κ ρ) (p : κ → ρ → Bool) (child : Table κ' ρ')
    (refers : κ' → ρ' → κ → Bool) : Bool :=
  child.any fun k' r' => parent.any fun k r => p k r && refers k' r' k

theorem referenced_eq_false :
    parent.referenced p child refers = false ↔
      ∀ k r, parent.get? k = some r → p k r = true →
        ∀ k' r', child.get? k' = some r' → refers k' r' k = false := by
  simp only [referenced, any_eq_false]
  constructor
  · intro h k r hk hp k' r' hk'
    simpa [hp] using h k' r' hk' k r hk
  · intro h k' r' hk' k r hk
    cases hp : p k r with
    | false => rfl
    | true => simpa using h k r hk hp k' r' hk'

/-- No row of the table has the property. -/
def Avoids (t : Table κ' ρ') (q : κ' → ρ' → Prop) : Prop :=
  ∀ k r, t.get? k = some r → ¬q k r

/-- No child row refers to an owned parent key. -/
theorem referenced_eq_false_iff_avoids :
    parent.referenced p child refers = false ↔
      child.Avoids fun k' r' =>
        ∃ k, refers k' r' k = true ∧ ∃ r, parent.get? k = some r ∧ p k r = true := by
  rw [referenced_eq_false]
  constructor
  · rintro h k' r' hk' ⟨k, href, r, hk, hp⟩
    rw [h k r hk hp k' r' hk'] at href
    cases href
  · intro h k r hk hp k' r' hk'
    rw [← Bool.not_eq_true]
    intro href
    exact h k' r' hk' ⟨k, href, r, hk, hp⟩

/-- After a deletion, the rows that are left avoid a property if the deleted ones are excused. -/
theorem avoids_delete {t : Table κ' ρ'} {p : κ' → ρ' → Bool} {q : κ' → ρ' → Prop} :
    (t.delete p).Avoids q ↔ t.Avoids fun k r => p k r = false ∧ q k r := by
  simp only [Avoids, get?_delete_eq_some, not_and]
  exact ⟨fun h k r hk hp => h k r ⟨hk, hp⟩, fun h k r hk => h k r hk.1 hk.2⟩

end Table

end Relational
