import GlassHive.Library.Table
import GlassHive.Library.Threads

/-!
# Holdings of the threads of a process

What a process acquires is recorded in a table. A thread may take records out of the table and hold
them, and it gets rid of what it holds by a release, or loses it. Nothing is acquired by a thread
that holds something.
-/

namespace Holdings

open Relational

variable {κ γ φ : Type} [DecidableEq γ]

/-- What was acquired is recorded, held by a thread, released or lost; and this as often as it was
acquired. -/
def Conserved (hold : φ → List γ) (recorded : Table κ γ) (threads : List φ)
    (acquired released lost : List γ) : Prop :=
  ∀ g, acquired.count g = (recorded.entries.map Prod.snd).count g +
    (Threads.held hold threads).count g + released.count g + lost.count g

section Moves

variable {hold : φ → List γ} {recorded : Table κ γ} {threads : List φ}
  {acquired released lost : List γ} {i : ℕ} {p q : φ}

theorem conserved_empty : Conserved hold (Table.empty : Table κ γ) [] [] [] [] :=
  fun _ => rfl

/-- A thread that begins holds nothing. -/
theorem Conserved.begin (h : Conserved hold recorded threads acquired released lost)
    (hq : hold q = []) : Conserved hold recorded (threads ++ [q]) acquired released lost := by
  intro g
  have hbefore := h g
  simpa [hq] using hbefore

/-- A thread goes on with what it holds. -/
theorem Conserved.keep (h : Conserved hold recorded threads acquired released lost)
    (hp : threads[i]? = some p) (hq : hold q = hold p) :
    Conserved hold recorded (threads.set i q) acquired released lost := by
  intro g
  have hbefore := h g
  have hcount := Threads.count_held_set_of_eq hp hq g
  omega

/-- What is acquired is recorded under a free key. -/
theorem Conserved.record [DecidableEq κ]
    (h : Conserved hold recorded threads acquired released lost) (hp : threads[i]? = some p)
    (hq : hold q = hold p) {k : κ} {g : γ} {recorded' : Table κ γ}
    (hinsert : recorded.insert? k g = some recorded') :
    Conserved hold recorded' (threads.set i q) (g :: acquired) released lost := by
  intro x
  have hbefore := h x
  have hcount := Threads.count_held_set_of_eq hp hq x
  rw [(Table.insert?_eq_some hinsert).2]
  simp only [List.map_append, List.map_cons, List.map_nil, List.count_append, List.count_cons,
    List.count_nil]
  omega

/-- A thread takes records out of the table. -/
theorem Conserved.take (h : Conserved hold recorded threads acquired released lost)
    (hp : threads[i]? = some p) (hnone : hold p = []) {f : κ → γ → Bool}
    (hq : hold q = (recorded.select f).map Prod.snd) :
    Conserved hold (recorded.delete f) (threads.set i q) acquired released lost := by
  intro g
  have hbefore := h g
  have hcount := Threads.count_held_set hold hp (q := q) g
  have hsplit : (recorded.entries.map Prod.snd).count g =
      ((recorded.select f).map Prod.snd).count g +
        ((recorded.delete f).entries.map Prod.snd).count g := by
    have hperm := List.filter_append_perm (fun e => f e.1 e.2) recorded.entries
    rw [← (hperm.map Prod.snd).count_eq g, List.map_append, List.count_append]
    rfl
  rw [hnone, hq, List.count_nil] at hcount
  omega

/-- A thread releases the first of what it holds. -/
theorem Conserved.release (h : Conserved hold recorded threads acquired released lost)
    (hp : threads[i]? = some p) {g : γ} (hq : hold p = g :: hold q) :
    Conserved hold recorded (threads.set i q) acquired (g :: released) lost := by
  intro x
  have hbefore := h x
  have hcount := Threads.count_held_set hold hp (q := q) x
  rw [hq, List.count_cons] at hcount
  rw [List.count_cons]
  omega

/-- A thread loses all that it holds. -/
theorem Conserved.lose (h : Conserved hold recorded threads acquired released lost)
    (hp : threads[i]? = some p) (hq : hold q = []) :
    Conserved hold recorded (threads.set i q) acquired released (hold p ++ lost) := by
  intro g
  have hbefore := h g
  have hcount := Threads.count_held_set hold hp (q := q) g
  rw [hq, List.count_nil] at hcount
  rw [List.count_append]
  omega

/-- What a thread holds was acquired. -/
theorem Conserved.mem_acquired (h : Conserved hold recorded threads acquired released lost)
    (hp : threads[i]? = some p) {g : γ} (hg : g ∈ hold p) : g ∈ acquired := by
  have hheld : g ∈ Threads.held hold threads := Threads.mem_held.mpr ⟨i, p, hp, hg⟩
  have hpos := List.count_pos_iff.mpr hheld
  have hcount := h g
  exact List.count_pos_iff.mp (by omega)

/-- What was acquired, in the places where it is. -/
theorem Conserved.perm (h : Conserved hold recorded threads acquired released lost) :
    acquired.Perm (recorded.entries.map Prod.snd ++ Threads.held hold threads ++ released ++
      lost) := by
  rw [List.perm_iff_count]
  intro g
  have hcount := h g
  simp only [List.count_append]
  exact hcount

end Moves

end Holdings
