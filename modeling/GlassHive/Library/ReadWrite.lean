import Mathlib.Data.List.Perm.Basic
import Mathlib.Logic.Function.Basic

/-!
# Clients that read a cell and write it later

Each of two clients reads a cell, makes of it what it will write, and writes that later. A complete
schedule either takes the clients one after the other, or lets both of them read the first cell.
-/

namespace ReadWrite

inductive Client
  | first
  | second
  deriving DecidableEq

def Client.other : Client → Client
  | .first => .second
  | .second => .first

@[simp]
theorem Client.other_ne (c : Client) : c.other ≠ c := by
  cases c <;> exact Client.noConfusion

@[simp]
theorem Client.ne_other (c : Client) : c ≠ c.other :=
  c.other_ne.symm

@[simp]
theorem Client.other_other (c : Client) : c.other.other = c := by
  cases c <;> rfl

theorem Client.eq_or_eq_other (c d : Client) : d = c ∨ d = c.other := by
  cases c <;> cases d <;> simp [Client.other]

/-- A client has yet to read the cell, holds what it will write, or has written it. -/
inductive Phase (δ : Type)
  | waiting
  | holding (d : δ)
  | done

structure System (γ δ : Type) where
  cell : γ
  phase : Client → Phase δ := fun _ => .waiting

variable {γ δ : Type} (read : Client → γ → δ) (write : Client → δ → γ → γ)

/-- A client takes its next step. -/
def step (s : System γ δ) (c : Client) : System γ δ :=
  match s.phase c with
  | .waiting => { s with phase := Function.update s.phase c (.holding (read c s.cell)) }
  | .holding d =>
    { cell := write c d s.cell
      phase := Function.update s.phase c .done }
  | .done => s

/-- The cell after a schedule. -/
def final (cell : γ) (sched : List Client) : γ :=
  (sched.foldl (step read write) { cell := cell }).cell

/-- Each client takes both of its steps. -/
def Complete (sched : List Client) : Prop :=
  sched.Perm [.first, .first, .second, .second]

instance (sched : List Client) : Decidable (Complete sched) :=
  inferInstanceAs (Decidable (sched.Perm _))

/-- Both clients read before one of them writes, and the given one writes first. -/
def Overlaps (c : Client) (sched : List Client) : Prop :=
  ∃ r : Client, sched = [r, r.other, c, c.other]

theorem complete_cases {sched : List Client} (h : Complete sched) :
    (∃ c : Client, sched = [c, c, c.other, c.other]) ∨ ∃ c, Overlaps c sched := by
  obtain ⟨a, b, c, d, rfl⟩ : ∃ a b c d, sched = [a, b, c, d] := by
    have hlen : sched.length = 4 := h.length_eq
    match sched, hlen with
    | [a, b, c, d], _ => exact ⟨a, b, c, d, rfl⟩
  have hfirst := h.count_eq .first
  cases a <;> cases b <;> cases c <;> cases d <;> simp [Overlaps, Client.other] at hfirst ⊢

/-- One after the other, the second client reads what the first one wrote. -/
theorem final_serial (cell : γ) (c : Client) :
    final read write cell [c, c, c.other, c.other] =
      write c.other (read c.other (write c (read c cell) cell)) (write c (read c cell) cell) := by
  simp [final, step]

/-- What the second client to write has read is the cell as it was at first. -/
theorem final_overlap (cell : γ) {c : Client} {sched : List Client} (h : Overlaps c sched) :
    final read write cell sched =
      write c.other (read c.other cell) (write c (read c cell) cell) := by
  obtain ⟨r, rfl⟩ := h
  rcases r.eq_or_eq_other c with rfl | rfl <;> simp [final, step]

end ReadWrite
