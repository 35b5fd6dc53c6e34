import GlassHive.LiveWork
import GlassHive.ScheduleSettlement

/-!
# The two paths of a finalization

`finalize_run_if_state` has one transaction for a run with an active attempt and another one for a
run without. A finalized run should have the same row whichever of them it went through, with its
schedule settled and its last artifact observation recorded. The paths differ in the columns that
they assign: the first keeps the runtime bundle; the second keeps the retry columns, takes the
failure evidence of the caller as it is, and records no artifact observation.
-/

namespace GlassHive

open Relational

namespace Store

/-! ## The last artifact observation -/

/-- An artifact observation is never taken for an event that is there. -/
theorem sameTraceEvent_artifact (event : TraceEvent) (output error : String) (now : Time)
    (terminal : Bool) : sameTraceEvent event (.artifact output error now terminal) = false := by
  cases event <;> simp [sameTraceEvent]

/-- A fold that keeps the best entry so far or takes the next one ends with an entry of the list. -/
theorem mem_of_foldl_eq_some {α : Type} {g : Option α → α → Option α}
    (hg : ∀ best e, g best e = best ∨ g best e = some e) {l : List α} {init : Option α} {b : α}
    (h : l.foldl g init = some b) : init = some b ∨ b ∈ l := by
  induction l generalizing init with
  | nil => exact Or.inl h
  | cons e l ih =>
    rcases ih h with hnext | hmem
    · rcases hg init e with hkeep | htake
      · exact Or.inl (hkeep.symm.trans hnext)
      · have he : e = b := Option.some.inj (htake.symm.trans hnext)
        exact Or.inr (he ▸ List.mem_cons_self)
    · exact Or.inr (List.mem_cons_of_mem e hmem)

section Artifact

variable {s : Store} {now : Time} {runId : RunId} {trace : Table (RunId × ℕ) WorkTraceEvent}

/-- An artifact observation that is appended is the last one of its run. -/
theorem lastArtifact_append (workRef : WorkRef) (output error : String) (terminal : Bool) :
    lastArtifact (appendWorkTraceEvent trace runId workRef
      (.artifact output error now terminal) now) runId = some (output, error, terminal) := by
  have hnew : trace.any (fun k e => k.1 == runId &&
      sameTraceEvent e.event (.artifact output error now terminal)) = false := by
    refine Table.any_eq_false.mpr fun k e _ => ?_
    rw [sameTraceEvent_artifact, Bool.and_false]
  rw [appendWorkTraceEvent, hnew, if_neg Bool.false_ne_true]
  dsimp only
  generalize hn : (trace.select fun k _ => k.1 == runId).foldl (fun n e => max n e.1.2) 0 + 1 = n
  have hbelow : ∀ k e, trace.get? (runId, k) = some e → k < n := by
    intro k e he
    have hmem : ((runId, k), e) ∈ trace.select fun k _ => k.1 == runId :=
      Table.mem_select.mpr ⟨he, by simp⟩
    have hle := le_foldl_max (fun e : (RunId × ℕ) × WorkTraceEvent => e.1.2) 0 hmem
    dsimp only at hle
    omega
  have hfresh : trace.get? (runId, n) = none := by
    by_contra hsome
    obtain ⟨e, he⟩ := Option.ne_none_iff_exists'.mp hsome
    exact absurd (hbelow n e he) (Nat.lt_irrefl n)
  obtain ⟨trace', hins⟩ := Option.isSome_iff_exists.mp
    (Table.insert?_isSome (r := ⟨workRef, .artifact output error now terminal, now⟩) |>.mpr hfresh)
  rw [hins, Option.getD_some, lastArtifact, Table.select, (Table.insert?_eq_some hins).2,
    List.filter_append, List.foldl_append]
  simp only [List.filter_cons, beq_self_eq_true, Bool.and_self, if_true, List.filter_nil,
    List.foldl_cons, List.foldl_nil]
  split
  · rfl
  · rename_i b hb
    rw [if_pos]
    · rfl
    · have hmem := mem_of_foldl_eq_some (fun best e => by
        cases best with
        | none => exact Or.inr rfl
        | some =>
          dsimp only
          split
          · exact Or.inr rfl
          · exact Or.inl rfl) hb
      obtain ⟨hentry, hkind⟩ := List.mem_filter.mp (hmem.resolve_left (by simp))
      rw [Bool.and_eq_true, beq_iff_eq] at hkind
      refine hbelow b.1.2 b.2 (Table.get?_of_mem ?_)
      rw [← hkind.1]
      exact hentry

/-- What the recording leaves as the last observation of a traced run that is terminal. -/
theorem lastArtifact_record {r : Run} (hr : s.runs.get? runId = some r)
    (hterminal : r.state ∈ RunState.terminal) (hscope : (s.workTraceScope runId).isSome = true) :
    lastArtifact (s.recordTerminalArtifactTraces now [runId]).workTrace runId =
      some (r.outputText, r.errorText, true) := by
  obtain ⟨workRef, hworkRef⟩ := Option.isSome_iff_exists.mp hscope
  rw [recordTerminalArtifactTraces_workTrace, List.foldl_cons, List.foldl_nil, hr]
  dsimp only
  rw [if_pos (by simpa using hterminal), hworkRef]
  dsimp only
  split
  · rename_i hsame
    exact beq_iff_eq.mp hsame
  · exact lastArtifact_append workRef r.outputText r.errorText true

end Artifact

/-! ## A finalized run -/

/-- The columns of a finalized run, with every column that one of the paths assigns. -/
def finalizedRow (now : Time) (a : FinalizeRun) (q : Run) : Run :=
  { q with
    state := a.state
    endedAt := some now
    outputText := a.outputText
    errorText := a.errorText
    failure := (terminalFailureFields a.state a.failure).apply q.failure
    runtimeBundle := none
    usage := a.usage
    retry := { q.retry with
      retryAfter := none
      attempts := if a.state == .cancelled then 0 else q.retry.attempts
      lastClass := if a.state == .cancelled then "" else q.retry.lastClass } }

/-- A completed or cancelled run has no failure evidence. -/
theorem failure_finalizedRow {now : Time} {a : FinalizeRun} {q : Run}
    (h : a.state ∈ [RunState.completed, .cancelled]) :
    (finalizedRow now a q).failure = Failure.clear := by
  rw [finalizedRow, terminalFailureFields, if_pos (by simpa using h)]
  rfl

/-- The last artifact observation of a traced run is that of its result. -/
def ArtifactSettled (s : Store) (runId : RunId) (output error : String) : Prop :=
  (s.workTraceScope runId).isSome = true →
    lastArtifact s.workTrace runId = some (output, error, true)

/-- What a finalization should leave of a run, whichever path it takes. -/
structure Finalized (s : Store) (now : Time) (a : FinalizeRun) (r : Run) : Prop where
  row : s.runs.get? a.runId = some (Run.triggered now r (finalizedRow now a r))
  schedules : s.SchedulesSettled a.runId
  artifact : s.ArtifactSettled a.runId a.outputText a.errorText

/-- A run that the path of its attempt, or the path without one, finalizes as it should. With an
attempt it has no runtime bundle. Without one no retry is due; a cancelled run has used none; the
failure fields of the caller leave a completed or cancelled run without failure evidence; and the
observation of the result is recorded already. -/
def FinalizesAlike (s : Store) (a : FinalizeRun) (r : Run) : Prop :=
  if r.activeAttemptId.isSome = true then r.runtimeBundle = none
  else r.retry.retryAfter = none ∧
    (a.state = .cancelled → r.retry.attempts = 0 ∧ r.retry.lastClass = "") ∧
    (a.state ∈ [RunState.completed, .cancelled] →
      a.failure.apply r.failure = FailurePatch.clear.apply r.failure) ∧
    s.ArtifactSettled a.runId a.outputText a.errorText

section Paths

variable {s : Store} {now : Time} {a : FinalizeRun} {r : Run}

/-- Rows that differ in columns which no trigger reads or writes differ after the triggers. -/
theorem triggered_activeRow_iff :
    Run.triggered now r (activeRow now a r) = Run.triggered now r (finalizedRow now a r) ↔
      r.runtimeBundle = none := by
  constructor
  · intro h
    exact congrArg Run.runtimeBundle h
  · intro h
    have hrow : activeRow now a r = finalizedRow now a r := by
      rw [activeRow, finalizedRow, ← h]
    rw [hrow]

theorem triggered_inactiveRow_iff :
    Run.triggered now r (inactiveRow now a r) = Run.triggered now r (finalizedRow now a r) ↔
      r.retry.retryAfter = none ∧
      (a.state = .cancelled → r.retry.attempts = 0 ∧ r.retry.lastClass = "") ∧
      (a.state ∈ [RunState.completed, .cancelled] →
        a.failure.apply r.failure = FailurePatch.clear.apply r.failure) := by
  constructor
  · intro h
    have hretry : r.retry = (finalizedRow now a r).retry := by
      have hrows := congrArg Run.retry h
      exact hrows
    have hfailure : a.failure.apply r.failure = (finalizedRow now a r).failure := by
      have hrows := congrArg Run.failure h
      exact hrows
    refine ⟨congrArg Retry.retryAfter hretry, fun hcancelled => ?_, fun hcleared => ?_⟩
    · have hattempts := congrArg Retry.attempts hretry
      have hclass := congrArg Retry.lastClass hretry
      simp only [finalizedRow, hcancelled, beq_self_eq_true, if_true] at hattempts hclass
      exact ⟨hattempts, hclass⟩
    · rw [hfailure, finalizedRow, terminalFailureFields, if_pos (by simpa using hcleared)]
  · rintro ⟨hafter, hcancelled, hcleared⟩
    have hfailure : a.failure.apply r.failure =
        (terminalFailureFields a.state a.failure).apply r.failure := by
      rw [terminalFailureFields]
      split
      · rename_i hstate
        exact hcleared (by simpa using hstate)
      · rfl
    have hretry : r.retry = (finalizedRow now a r).retry := by
      by_cases hstate : a.state = .cancelled
      · obtain ⟨hattempts, hclass⟩ := hcancelled hstate
        simp only [finalizedRow, hstate, beq_self_eq_true, if_true, ← hafter, ← hattempts,
          ← hclass]
      · simp only [finalizedRow, beq_eq_false_iff_ne.mpr hstate, Bool.false_eq_true, if_false,
          ← hafter]
    have hrow : inactiveRow now a r = finalizedRow now a r := by
      rw [inactiveRow, hfailure]
      simp only [finalizedRow] at hretry ⊢
      rw [← hretry]
    rw [hrow]

/-- A call on a run with an active attempt that succeeds has written the row of its path. -/
theorem finalizeRunIfStateParallel_eq_ok {r' : Run}
    (h : (s.finalizeRunIfStateParallel now a).result = .ok (some r')) :
    ∃ r, s.runs.get? a.runId = some r ∧ r.state = a.expectedState ∧
      (s.finalizeRunIfStateParallel now a).store = s.finalizeActive now a r := by
  unfold finalizeRunIfStateParallel at h ⊢
  split at h
  · simp at h
  rename_i hrunning
  split at h
  · simp at h
  rename_i r hr
  split at h
  · simp at h
  rename_i hok
  split at h
  · simp at h
  rename_i hadmission
  split at h
  · simp at h
  rename_i hexpected
  refine ⟨r, hr, by simpa using hexpected, ?_⟩
  simp only [if_neg hrunning, if_neg hok, if_neg hexpected, Outcome.store_commit]

/-- The same for a run without an active attempt. -/
theorem finalizeRunIfStateLegacy_eq_ok {r' : Run}
    (h : (s.finalizeRunIfStateLegacy now a).result = .ok (some r')) :
    ∃ r, s.runs.get? a.runId = some r ∧ r.state = a.expectedState ∧
      (s.finalizeRunIfStateLegacy now a).store = s.finalizeInactive now a := by
  unfold finalizeRunIfStateLegacy at h ⊢
  split at h
  · simp at h
  rename_i r hr
  split at h
  · simp at h
  rename_i hok
  split at h
  · simp at h
  rename_i hexact
  split at h
  · simp at h
  rename_i hadmission
  split at h
  · simp at h
  rename_i hexpected
  refine ⟨r, hr, by simpa using hexpected, ?_⟩
  simp only [if_neg hok, if_neg hexact, if_neg hexpected, Outcome.store_commit]

/-- The path of the attempt settles everything but the runtime bundle. -/
theorem finalized_finalizeActive_iff (hr : s.runs.get? a.runId = some r)
    (hstate : r.state = a.expectedState) (hterminal : a.state ∈ RunState.terminal) :
    (s.finalizeActive now a r).Finalized now a r ↔ r.runtimeBundle = none := by
  have hrow : (s.finalizeActive now a r).runs.get? a.runId =
      some (Run.triggered now r (activeRow now a r)) := by
    rw [runs_finalizeActive, Table.get?_update, hr, Option.map_some, if_pos (by simp [hstate])]
  have hschedules : (s.finalizeActive now a r).SchedulesSettled a.runId := by
    rw [finalizeActive, if_pos (by simpa using hterminal),
      schedulesSettled_recordTerminalArtifactTraces]
    exact schedulesSettled_hook hterminal
  have hartifact : (s.finalizeActive now a r).ArtifactSettled a.runId a.outputText a.errorText := by
    intro hscope
    obtain ⟨s', hrecord⟩ : ∃ s', s.finalizeActive now a r =
        recordTerminalArtifactTraces s' now [a.runId] := by
      rw [finalizeActive, if_pos (by simpa using hterminal)]
      exact ⟨_, rfl⟩
    rw [hrecord] at hrow hscope ⊢
    exact lastArtifact_record (s := s') hrow hterminal hscope
  constructor
  · intro h
    exact triggered_activeRow_iff.mp (Option.some.inj (hrow.symm.trans h.row))
  · intro hbundle
    exact ⟨hrow.trans (congrArg some (triggered_activeRow_iff.mpr hbundle)), hschedules, hartifact⟩

/-- The path without an attempt settles the schedule only. -/
theorem finalized_finalizeInactive_iff (hr : s.runs.get? a.runId = some r)
    (hstate : r.state = a.expectedState) (hterminal : a.state ∈ RunState.terminal) :
    (s.finalizeInactive now a).Finalized now a r ↔
      r.retry.retryAfter = none ∧
      (a.state = .cancelled → r.retry.attempts = 0 ∧ r.retry.lastClass = "") ∧
      (a.state ∈ [RunState.completed, .cancelled] →
        a.failure.apply r.failure = FailurePatch.clear.apply r.failure) ∧
      s.ArtifactSettled a.runId a.outputText a.errorText := by
  have hrow : (s.finalizeInactive now a).runs.get? a.runId =
      some (Run.triggered now r (inactiveRow now a r)) := by
    rw [runs_finalizeInactive, Table.get?_update, hr, Option.map_some, if_pos (by simp [hstate])]
  have hartifact : (s.finalizeInactive now a).ArtifactSettled a.runId a.outputText a.errorText ↔
      s.ArtifactSettled a.runId a.outputText a.errorText := by
    have hscope : (s.finalizeInactive now a).workTraceScope a.runId = s.workTraceScope a.runId := by
      rw [finalizeInactive, finalizeLinkedScheduleForTerminalRun,
        if_pos (by simpa using hterminal)]
      exact @workTraceScope_updateRuns s now _ (inactiveRow now a) (fun _ => ⟨rfl, rfl, rfl⟩)
        a.runId
    have htrace : (s.finalizeInactive now a).workTrace = s.workTrace := by
      rw [finalizeInactive, finalizeLinkedScheduleForTerminalRun,
        if_pos (by simpa using hterminal)]
      rfl
    rw [ArtifactSettled, ArtifactSettled, hscope, htrace]
  constructor
  · intro h
    obtain ⟨hafter, hcancelled, hcleared⟩ :=
      triggered_inactiveRow_iff.mp (Option.some.inj (hrow.symm.trans h.row))
    exact ⟨hafter, hcancelled, hcleared, hartifact.mp h.artifact⟩
  · rintro ⟨hafter, hcancelled, hcleared, hsettled⟩
    have hrows : Run.triggered now r (inactiveRow now a r) =
        Run.triggered now r (finalizedRow now a r) :=
      triggered_inactiveRow_iff.mpr ⟨hafter, hcancelled, hcleared⟩
    exact ⟨hrow.trans (congrArg some hrows), schedulesSettled_hook hterminal,
      hartifact.mpr hsettled⟩

/-- A finalization that succeeds leaves the run as either path should exactly when the run and the
call are such that the path it takes does. -/
theorem finalizeRunIfState_finalized_iff {r' : Run} (hterminal : a.state ∈ RunState.terminal)
    (hr : s.runs.get? a.runId = some r)
    (h : (s.finalizeRunIfState now a).result = .ok (some r')) :
    (s.finalizeRunIfState now a).store.Finalized now a r ↔ s.FinalizesAlike a r := by
  unfold finalizeRunIfState FinalizesAlike at *
  rw [hr, Option.any_some] at h ⊢
  split at h
  · rename_i hactive
    obtain ⟨q, hq, hstate, hstore⟩ := finalizeRunIfStateParallel_eq_ok h
    obtain rfl := Option.some.inj (hr.symm.trans hq)
    rw [if_pos hactive, if_pos hactive, hstore]
    exact finalized_finalizeActive_iff hr hstate hterminal
  · rename_i hinactive
    obtain ⟨q, hq, hstate, hstore⟩ := finalizeRunIfStateLegacy_eq_ok h
    obtain rfl := Option.some.inj (hr.symm.trans hq)
    rw [if_neg hinactive, if_neg hinactive, hstore]
    exact finalized_finalizeInactive_iff hr hstate hterminal

end Paths

/-! ## A run of each kind -/

/-- The arguments that finalize the first run. -/
def finalizeFirstRun (expectedState state : RunState) (attemptId : Option AttemptId)
    (failure : FailurePatch) : FinalizeRun where
  runId := .uuid 3
  expectedState := expectedState
  state := state
  outputText := "done"
  errorText := ""
  usage := ⟨0, 0, 0, 0⟩
  expected := { Generation.none with attemptId := attemptId }
  failure := failure

/-- A claimed run without a runtime bundle is finalized as it should. -/
theorem finalizeRunIfState_finalized_iff_claimed :
    ∃ r r', ((fromCalls withClaimedRun).finalizeRunIfState 5
        (finalizeFirstRun .claimed .cancelled (some 4) .none)).result = .ok (some r') ∧
      (((fromCalls withClaimedRun).finalizeRunIfState 5
          (finalizeFirstRun .claimed .cancelled (some 4) .none)).store.Finalized 5
            (finalizeFirstRun .claimed .cancelled (some 4) .none) r ↔
        (fromCalls withClaimedRun).FinalizesAlike
          (finalizeFirstRun .claimed .cancelled (some 4) .none) r) := by
  have hrow : ((fromCalls withClaimedRun).runs.get? (.uuid 3)).isSome = true := by decide
  have hok : ((fromCalls withClaimedRun).finalizeRunIfState 5
      (finalizeFirstRun .claimed .cancelled (some 4) .none)).value?.isSome = true := by decide
  obtain ⟨r, hr⟩ := Option.isSome_iff_exists.mp hrow
  obtain ⟨r', hr'⟩ := Option.isSome_iff_exists.mp hok
  rw [Outcome.value?_eq_some] at hr'
  exact ⟨r, r', hr', finalizeRunIfState_finalized_iff (by decide) hr hr'⟩

/-- A completion that comes with failure evidence. -/
def completeWithFailure : FinalizeRun :=
  finalizeFirstRun .queued .completed none
    { FailurePatch.none with failureClass := some "timeout" }

/-- A queued run that is completed keeps the failure evidence that the caller gave it. -/
theorem finalizeRunIfState_keeps_failure :
    (fromCalls withQueuedRun).Reachable ∧
      ((fromCalls withQueuedRun).finalizeRunIfState 5 completeWithFailure).value?.isSome = true ∧
      ∀ r, (fromCalls withQueuedRun).runs.get? (.uuid 3) = some r →
        ¬((fromCalls withQueuedRun).finalizeRunIfState 5 completeWithFailure).store.Finalized 5
          completeWithFailure r := by
  refine ⟨reachable_fromCalls _, by decide, fun r _ h => ?_⟩
  have hkept : (((fromCalls withQueuedRun).finalizeRunIfState 5
      completeWithFailure).store.runs.get? completeWithFailure.runId).map (·.failure.failureClass) =
        some "timeout" := by
    decide
  rw [h.row, Option.map_some, Run.triggered_failure, failure_finalizedRow (by decide)] at hkept
  exact absurd hkept (by decide)

end Store

end GlassHive
