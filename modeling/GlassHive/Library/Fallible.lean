import Mathlib.Init

/-!
# Computations that may fail
-/

namespace Fallible

variable {ε α β : Type} {x : Except ε α} {f : α → Except ε β} {b : β}

/-- A sequence succeeds when both of its parts do. -/
theorem bind_eq_ok : (x >>= f) = .ok b ↔ ∃ a, x = .ok a ∧ f a = .ok b := by
  cases x <;> simp [bind, Except.bind]

/-- A computation behind a guard, which answers otherwise when the guard holds. -/
theorem guard_eq_ok {x : Except ε Bool} {f : Bool → Except ε β} (h : (x >>= f) = .ok b)
    (htrue : f true ≠ .ok b) : x = .ok false ∧ f false = .ok b := by
  obtain ⟨g, hg, hf⟩ := bind_eq_ok.mp h
  cases g with
  | true => exact absurd hf htrue
  | false => exact ⟨hg, hf⟩

theorem map_eq_ok {f : α → β} : x.map f = .ok b ↔ ∃ a, x = .ok a ∧ f a = b := by
  cases x <;> simp [Except.map]

theorem isOk_of_eq_ok {a : α} (h : x = .ok a) : x.isOk = true := by
  rw [h]
  rfl

theorem eq_ok_of_isOk (h : x.isOk = true) : ∃ a, x = .ok a := by
  cases x with
  | error => cases h
  | ok a => exact ⟨a, rfl⟩

/-- A computation returns. -/
def Returns (x : Except ε α) : Prop :=
  ∃ a, x = .ok a

@[simp]
theorem returns_ok (a : α) : Returns (.ok a : Except ε α) :=
  ⟨a, rfl⟩

@[simp]
theorem returns_error (e : ε) : ¬Returns (.error e : Except ε α) := by
  rintro ⟨a, h⟩
  cases h

/-- A sequence returns when its first part does, and then the rest. -/
theorem returns_bind : Returns (x >>= f) ↔ Returns x ∧ ∀ a, x = .ok a → Returns (f a) := by
  cases x <;> simp [bind, Except.bind]

/-- A computation that fails unless a condition holds. -/
def demand (condition : Bool) (e : ε) : Except ε Unit :=
  if condition then .ok () else .error e

theorem demand_eq_ok {condition : Bool} {e : ε} {u : Unit} :
    demand condition e = .ok u ↔ condition = true := by
  cases condition <;> simp [demand]

/-- What follows a check is reached when it passes. -/
theorem demand_bind_eq_ok {condition : Bool} {e : ε} {f : Unit → Except ε β} :
    (demand condition e >>= f) = .ok b ↔ condition = true ∧ f () = .ok b := by
  cases condition <;> simp [demand, bind, Except.bind]

/-- A check of every element of a list succeeds when each does. -/
theorem forM_eq_ok {f : α → Except ε Unit} {l : List α} {u : Unit} :
    l.forM f = .ok u ↔ ∀ a ∈ l, f a = .ok () := by
  induction l with
  | nil => simp [pure, Except.pure]
  | cons a l ih =>
    change (f a >>= fun _ => l.forM f) = .ok u ↔ _
    rw [bind_eq_ok, List.forall_mem_cons, ← ih]
    constructor
    · rintro ⟨⟨⟩, ha, hl⟩
      exact ⟨ha, hl⟩
    · rintro ⟨ha, hl⟩
      exact ⟨(), ha, hl⟩

/-- Every result of a computation over a list is the result at one of its elements. -/
theorem mem_of_mapM_eq_ok {l : List α} {bs : List β} (h : l.mapM f = .ok bs) (hb : b ∈ bs) :
    ∃ a ∈ l, f a = .ok b := by
  induction l generalizing bs with
  | nil =>
    obtain rfl : [] = bs := Except.ok.inj h
    exact absurd hb List.not_mem_nil
  | cons a l ih =>
    simp only [List.mapM_cons, bind_eq_ok] at h
    obtain ⟨c, hc, cs, hcs, hbs⟩ := h
    obtain rfl := Except.ok.inj hbs
    rcases List.mem_cons.mp hb with rfl | htail
    · exact ⟨a, List.mem_cons_self, hc⟩
    · obtain ⟨d, hd, hfd⟩ := ih hcs htail
      exact ⟨d, List.mem_cons_of_mem a hd, hfd⟩

end Fallible
