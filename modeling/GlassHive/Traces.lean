import GlassHive.Store

/-!
# The work trace

Each run of a delegated worker has a chain of trace events. Appending keeps every event that is
there, and adds the event it is given unless the same one is recorded.
-/

namespace GlassHive

open Relational

/-- The event that `_append_attempt_trace_conn` appends for an attempt as it stands. -/
def Attempt.event (id : AttemptId) (a : Attempt) : TraceEvent :=
  .attempt id a.attemptNumber a.state a.claimedAt a.admittedAt a.runtimeInvokedAt a.endedAt
    a.terminalReason a.leaseId

/-- The trace of a run holds an event. -/
def Recorded (trace : Table (RunId × ℕ) WorkTraceEvent) (runId : RunId) (event : TraceEvent) :
    Prop :=
  ∃ n e, trace.get? (runId, n) = some e ∧ e.event = event

theorem le_foldl_max {α : Type} (f : α → ℕ) {a : α} {l : List α} (n : ℕ) (h : a ∈ l) :
    f a ≤ l.foldl (fun m x => max m (f x)) n := by
  have hstart : ∀ (l : List α) (n : ℕ), n ≤ l.foldl (fun m x => max m (f x)) n := by
    intro l
    induction l with
    | nil => exact fun n => Nat.le_refl n
    | cons x l ih => exact fun n => Nat.le_trans (Nat.le_max_left n (f x)) (ih _)
  induction l generalizing n with
  | nil => cases h
  | cons x l ih =>
    rcases List.mem_cons.mp h with rfl | h
    · exact Nat.le_trans (Nat.le_max_right n (f a)) (hstart l _)
    · exact ih _ h

theorem foldl_max_le {α : Type} (f : α → ℕ) {l : List α} {n m : ℕ} (hn : n ≤ m)
    (h : ∀ a ∈ l, f a ≤ m) : l.foldl (fun m x => max m (f x)) n ≤ m := by
  induction l generalizing n with
  | nil => exact hn
  | cons x l ih =>
    exact ih (Nat.max_le.mpr ⟨hn, h x List.mem_cons_self⟩) fun a ha => h a (List.mem_cons_of_mem x ha)

namespace Store

section Append

variable {trace : Table (RunId × ℕ) WorkTraceEvent} {runId runId' : RunId} {workRef : WorkRef}
  {event event' : TraceEvent} {createdAt : Time}

/-- An append leaves the trace alone, because the event is there, or inserts it under a new
sequence number. -/
theorem appendWorkTraceEvent_cases (trace : Table (RunId × ℕ) WorkTraceEvent) (runId : RunId)
    (workRef : WorkRef) (event : TraceEvent) (createdAt : Time) :
    ((∃ k e, trace.get? k = some e ∧ k.1 = runId ∧ sameTraceEvent e.event event = true) ∧
        appendWorkTraceEvent trace runId workRef event createdAt = trace) ∨
      ∃ n, trace.insert? (runId, n) ⟨workRef, event, createdAt⟩ =
        some (appendWorkTraceEvent trace runId workRef event createdAt) := by
  rw [appendWorkTraceEvent]
  split
  · rename_i hany
    obtain ⟨k, e, he, hp⟩ := Table.any_eq_true.mp hany
    simp only [Bool.and_eq_true, beq_iff_eq] at hp
    exact Or.inl ⟨⟨k, e, he, hp⟩, rfl⟩
  · dsimp only
    generalize hn : (trace.select fun k _ => k.1 == runId).foldl (fun n e => max n e.1.2) 0 + 1 = n
    have hfresh : trace.get? (runId, n) = none := by
      by_contra hsome
      obtain ⟨e, he⟩ := Option.ne_none_iff_exists'.mp hsome
      have hmem : ((runId, n), e) ∈ trace.select fun k _ => k.1 == runId :=
        Table.mem_select.mpr ⟨he, by simp⟩
      have hle := le_foldl_max (fun e : (RunId × ℕ) × WorkTraceEvent => e.1.2) 0 hmem
      dsimp only at hle
      omega
    obtain ⟨trace', hins⟩ := Option.isSome_iff_exists.mp (Table.insert?_isSome.mpr hfresh)
    exact Or.inr ⟨n, by rw [hins]; rfl⟩

theorem recorded_appendWorkTraceEvent_of_recorded (h : Recorded trace runId' event') :
    Recorded (appendWorkTraceEvent trace runId workRef event createdAt) runId' event' := by
  obtain ⟨m, e, he, heq⟩ := h
  rcases appendWorkTraceEvent_cases trace runId workRef event createdAt with ⟨-, hsame⟩ | ⟨n, hins⟩
  · rw [hsame]
    exact ⟨m, e, he, heq⟩
  · exact ⟨m, e, Table.get?_insert_of_some hins he, heq⟩

/-- What an append adds is its own event. -/
theorem recorded_of_appendWorkTraceEvent
    (h : Recorded (appendWorkTraceEvent trace runId workRef event createdAt) runId' event') :
    Recorded trace runId' event' ∨ runId' = runId ∧ event' = event := by
  rcases appendWorkTraceEvent_cases trace runId workRef event createdAt with ⟨-, hsame⟩ | ⟨n, hins⟩
  · rw [hsame] at h
    exact Or.inl h
  · obtain ⟨m, e, he, heq⟩ := h
    rw [Table.get?_insert hins] at he
    split at he
    · rename_i hk
      obtain rfl := Option.some.inj he
      exact Or.inr ⟨congrArg Prod.fst hk, heq.symm⟩
    · exact Or.inl ⟨m, e, he, heq⟩

/-- An attempt's event is recorded once it has been appended. -/
theorem recorded_appendWorkTraceEvent_attempt {id : AttemptId} {a : Attempt} :
    Recorded (appendWorkTraceEvent trace runId workRef (a.event id) createdAt) runId
      (a.event id) := by
  rcases appendWorkTraceEvent_cases trace runId workRef (a.event id) createdAt with
    ⟨⟨k, e, he, hk, hsame⟩, heq⟩ | ⟨n, hins⟩
  · rw [heq]
    refine ⟨k.2, e, by rw [← hk]; exact he, ?_⟩
    revert hsame
    rw [Attempt.event]
    cases e.event <;> simp [sameTraceEvent]
  · exact ⟨n, _, by rw [Table.get?_insert hins, if_pos rfl], rfl⟩

end Append

/-! ## Traces of attempts and of artifacts -/

section Fold

variable {s : Store} {now : Time} {runId : RunId} {event : TraceEvent} {ids : List AttemptId}
  {id : AttemptId} {a : Attempt} {runIds : List RunId}

/-- What one attempt adds to a trace. -/
theorem appendAttemptTraces_cons (id : AttemptId) (ids : List AttemptId) :
    s.appendAttemptTraces now (id :: ids) =
      (s.appendAttemptTraces now [id]).appendAttemptTraces now ids := rfl

theorem appendAttemptTraces_singleton (s : Store) (now : Time) (id : AttemptId) :
    (s.appendAttemptTraces now [id]).workTrace = s.workTrace ∧
        (∀ a, s.attempts.get? id = some a → s.workTraceScope a.runId = none) ∨
      ∃ a workRef, s.attempts.get? id = some a ∧ s.workTraceScope a.runId = some workRef ∧
        (s.appendAttemptTraces now [id]).workTrace =
          appendWorkTraceEvent s.workTrace a.runId workRef (a.event id) now := by
  simp only [appendAttemptTraces_workTrace, List.foldl_cons, List.foldl_nil]
  cases ha : s.attempts.get? id with
  | none => exact Or.inl ⟨rfl, by simp⟩
  | some a =>
    dsimp only
    cases hscope : s.workTraceScope a.runId with
    | none =>
      refine Or.inl ⟨rfl, fun b hb => ?_⟩
      obtain rfl := Option.some.inj hb
      exact hscope
    | some workRef => exact Or.inr ⟨a, workRef, rfl, hscope, rfl⟩

theorem recorded_appendAttemptTraces_of_recorded (h : Recorded s.workTrace runId event) :
    Recorded (s.appendAttemptTraces now ids).workTrace runId event := by
  induction ids generalizing s with
  | nil => exact h
  | cons id ids ih =>
    rw [appendAttemptTraces_cons]
    refine ih ?_
    rcases appendAttemptTraces_singleton s now id with
      ⟨heq, -⟩ | ⟨a, workRef, -, -, heq⟩ <;> rw [heq]
    · exact h
    · exact recorded_appendWorkTraceEvent_of_recorded h

/-- Every traced attempt of the list is recorded as it stands. -/
theorem recorded_appendAttemptTraces (hid : id ∈ ids) (ha : s.attempts.get? id = some a)
    (hscope : (s.workTraceScope a.runId).isSome = true) :
    Recorded (s.appendAttemptTraces now ids).workTrace a.runId (a.event id) := by
  induction ids generalizing s with
  | nil => cases hid
  | cons id' ids ih =>
    rw [appendAttemptTraces_cons]
    rcases List.mem_cons.mp hid with rfl | hid
    · refine recorded_appendAttemptTraces_of_recorded ?_
      rcases appendAttemptTraces_singleton s now id with
        ⟨-, hnone⟩ | ⟨b, workRef, hb, -, heq⟩
      · rw [hnone a ha] at hscope
        cases hscope
      · obtain rfl := Option.some.inj (ha.symm.trans hb)
        rw [heq]
        exact recorded_appendWorkTraceEvent_attempt
    · exact ih hid ha hscope

/-- Appending records nothing but the traced attempts of the list. -/
theorem recorded_of_appendAttemptTraces
    (h : Recorded (s.appendAttemptTraces now ids).workTrace runId event) :
    Recorded s.workTrace runId event ∨ ∃ id ∈ ids, ∃ a, s.attempts.get? id = some a ∧
      a.runId = runId ∧ a.event id = event ∧ (s.workTraceScope runId).isSome = true := by
  induction ids generalizing s with
  | nil => exact Or.inl h
  | cons id ids ih =>
    rw [appendAttemptTraces_cons] at h
    rcases ih h with h | ⟨id', hid', a, ha, hrun, hevent, hscope⟩
    · rcases appendAttemptTraces_singleton s now id with
        ⟨heq, -⟩ | ⟨a, workRef, ha, hscope, heq⟩
      · rw [heq] at h
        exact Or.inl h
      · rw [heq] at h
        rcases recorded_of_appendWorkTraceEvent h with h | ⟨rfl, rfl⟩
        · exact Or.inl h
        · exact Or.inr ⟨id, List.mem_cons_self, a, ha, rfl, rfl, by rw [hscope]; rfl⟩
    · exact Or.inr ⟨id', List.mem_cons_of_mem id hid', a, ha, hrun, hevent, hscope⟩

/-- One artifact observation leaves the trace alone or appends an artifact. -/
theorem recordTerminalArtifactTraces_cons (r : RunId) (runIds : List RunId) :
    s.recordTerminalArtifactTraces now (r :: runIds) =
      (s.recordTerminalArtifactTraces now [r]).recordTerminalArtifactTraces now runIds := rfl

theorem recordTerminalArtifactTraces_singleton (s : Store) (now : Time) (r : RunId) :
    (s.recordTerminalArtifactTraces now [r]).workTrace = s.workTrace ∨
      ∃ workRef output error, (s.recordTerminalArtifactTraces now [r]).workTrace =
        appendWorkTraceEvent s.workTrace r workRef (.artifact output error now true) now := by
  simp only [recordTerminalArtifactTraces_workTrace, List.foldl_cons, List.foldl_nil]
  split
  · exact Or.inl rfl
  split
  · split
    · exact Or.inl rfl
    split
    · exact Or.inl rfl
    · exact Or.inr ⟨_, _, _, rfl⟩
  · exact Or.inl rfl

theorem recorded_recordTerminalArtifactTraces_of_recorded (h : Recorded s.workTrace runId event) :
    Recorded (s.recordTerminalArtifactTraces now runIds).workTrace runId event := by
  induction runIds generalizing s with
  | nil => exact h
  | cons r runIds ih =>
    rw [recordTerminalArtifactTraces_cons]
    refine ih ?_
    rcases recordTerminalArtifactTraces_singleton s now r with
      heq | ⟨_, _, _, heq⟩ <;> rw [heq]
    · exact h
    · exact recorded_appendWorkTraceEvent_of_recorded h

/-- Artifact observations leave the events of attempts as they are. -/
theorem recorded_recordTerminalArtifactTraces_iff :
    Recorded (s.recordTerminalArtifactTraces now runIds).workTrace runId (a.event id) ↔
      Recorded s.workTrace runId (a.event id) := by
  refine ⟨fun h => ?_, recorded_recordTerminalArtifactTraces_of_recorded⟩
  induction runIds generalizing s with
  | nil => exact h
  | cons r runIds ih =>
    rw [recordTerminalArtifactTraces_cons] at h
    have h' := ih h
    rcases recordTerminalArtifactTraces_singleton s now r with
      heq | ⟨_, _, _, heq⟩ <;> rw [heq] at h'
    · exact h'
    · rcases recorded_of_appendWorkTraceEvent h' with h' | ⟨-, hevent⟩
      · exact h'
      · cases hevent

end Fold

end Store

end GlassHive
