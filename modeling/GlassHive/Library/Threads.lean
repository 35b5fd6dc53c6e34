import Mathlib.Data.List.Basic

/-!
# Threads of a process

The threads of a process are the list of the phases that they are in. A step moves one of them, and
a new one comes last. What the threads hold is counted over all of them.
-/

namespace Threads

variable {φ ρ : Type*} {ts : List φ} {i j : ℕ} {p q : φ} {hold : φ → List ρ}

/-- What the threads hold together. -/
def held (hold : φ → List ρ) (ts : List φ) : List ρ :=
  ts.flatMap hold

@[simp]
theorem held_nil (hold : φ → List ρ) : held hold [] = [] := rfl

@[simp]
theorem held_cons (hold : φ → List ρ) (p : φ) (ts : List φ) :
    held hold (p :: ts) = hold p ++ held hold ts := rfl

@[simp]
theorem held_append (hold : φ → List ρ) (ts us : List φ) :
    held hold (ts ++ us) = held hold ts ++ held hold us := by
  simp [held]

theorem mem_held {r : ρ} : r ∈ held hold ts ↔ ∃ (i : ℕ) (p : φ), ts[i]? = some p ∧ r ∈ hold p := by
  rw [held, List.mem_flatMap]
  constructor
  · rintro ⟨p, hmem, hr⟩
    obtain ⟨i, hp⟩ := List.mem_iff_getElem?.mp hmem
    exact ⟨i, p, hp, hr⟩
  · rintro ⟨i, p, hp, hr⟩
    exact ⟨p, List.mem_of_getElem? hp, hr⟩

/-- The move of a thread changes what is held by what this thread held and holds. -/
theorem count_held_set [DecidableEq ρ] (hold : φ → List ρ) (hp : ts[i]? = some p) (r : ρ) :
    (held hold (ts.set i q)).count r + (hold p).count r =
      (held hold ts).count r + (hold q).count r := by
  induction ts generalizing i with
  | nil => simp at hp
  | cons t ts ih =>
    cases i with
    | zero =>
      obtain rfl : t = p := by simpa using hp
      simp only [List.set_cons_zero, held_cons, List.count_append]
      omega
    | succ i =>
      have hrest := ih (i := i) (by simpa using hp)
      simp only [List.set_cons_succ, held_cons, List.count_append]
      omega

theorem count_held_set_of_eq [DecidableEq ρ] (hp : ts[i]? = some p) (h : hold q = hold p) (r : ρ) :
    (held hold (ts.set i q)).count r = (held hold ts).count r := by
  have hcount := count_held_set hold hp (q := q) r
  rw [h] at hcount
  omega

/-- What two threads hold is held twice. -/
theorem two_le_count_held [DecidableEq ρ] (hne : i ≠ j) (hp : ts[i]? = some p)
    (hq : ts[j]? = some q) {r : ρ} (hrp : r ∈ hold p) (hrq : r ∈ hold q) :
    2 ≤ (held hold ts).count r := by
  induction ts generalizing i j with
  | nil => simp at hp
  | cons t ts ih =>
    rw [held_cons, List.count_append]
    have hone : ∀ {k : ℕ} {u : φ}, ts[k]? = some u → r ∈ hold u → 1 ≤ (held hold ts).count r :=
      fun hu hr => List.one_le_count_iff.mpr (mem_held.mpr ⟨_, _, hu, hr⟩)
    cases i with
    | zero =>
      cases j with
      | zero => exact absurd rfl hne
      | succ =>
        obtain rfl : t = p := by simpa using hp
        have hfirst := List.one_le_count_iff.mpr hrp
        have hrest := hone (by simpa using hq) hrq
        omega
    | succ i =>
      cases j with
      | zero =>
        obtain rfl : t = q := by simpa using hq
        have hfirst := List.one_le_count_iff.mpr hrq
        have hrest := hone (by simpa using hp) hrp
        omega
      | succ j =>
        have hrest := ih (i := i) (j := j) (by omega) (by simpa using hp) (by simpa using hq)
        omega

/-! ## One move -/

theorem getElem?_set_self (hp : ts[i]? = some p) : (ts.set i q)[i]? = some q := by
  obtain ⟨hlt, -⟩ := List.getElem?_eq_some_iff.mp hp
  simp [hlt]

/-- A property of every thread, which the moved one has where it goes. -/
theorem forall_set {P : ℕ → φ → Prop} (h : ∀ j t, ts[j]? = some t → P j t) (hq : P i q) :
    ∀ j t, (ts.set i q)[j]? = some t → P j t := by
  intro j t ht
  by_cases hj : i = j
  · subst hj
    rw [List.getElem?_set_self'] at ht
    cases hi : ts[i]? with
    | none => simp [hi] at ht
    | some =>
      obtain rfl : q = t := by simpa [hi] using ht
      exact hq
  · rw [List.getElem?_set_ne hj] at ht
    exact h j t ht

/-- A property of every thread, which the new one begins with. -/
theorem forall_append {P : ℕ → φ → Prop} (h : ∀ j t, ts[j]? = some t → P j t)
    (hq : P ts.length q) : ∀ j t, (ts ++ [q])[j]? = some t → P j t := by
  intro j t ht
  rcases Nat.lt_trichotomy j ts.length with hj | rfl | hj
  · rw [List.getElem?_append_left hj] at ht
    exact h j t ht
  · obtain rfl : q = t := by simpa using ht
    exact hq
  · rw [List.getElem?_eq_none (by simp; omega)] at ht
    cases ht

/-- A property of one thread, which it keeps when it is the one that moves. -/
theorem exists_set {P : φ → Prop} (h : ∃ t, ts[j]? = some t ∧ P t) (hq : i = j → P q) :
    ∃ t, (ts.set i q)[j]? = some t ∧ P t := by
  obtain ⟨t, ht, hPt⟩ := h
  by_cases hj : i = j
  · subst hj
    exact ⟨q, getElem?_set_self ht, hq rfl⟩
  · exact ⟨t, by rwa [List.getElem?_set_ne hj], hPt⟩

theorem getElem?_append {t : φ} (ht : ts[j]? = some t) : (ts ++ [q])[j]? = some t := by
  obtain ⟨hlt, -⟩ := List.getElem?_eq_some_iff.mp ht
  rwa [List.getElem?_append_left hlt]

theorem getElem?_append_eq_some {t : φ} (ht : (ts ++ [q])[j]? = some t) :
    ts[j]? = some t ∨ t = q := by
  rcases Nat.lt_or_ge j ts.length with hj | hj
  · rw [List.getElem?_append_left hj] at ht
    exact Or.inl ht
  · rw [List.getElem?_append_right hj, List.getElem?_singleton] at ht
    split at ht
    · exact Or.inr (Option.some.inj ht).symm
    · cases ht

end Threads
