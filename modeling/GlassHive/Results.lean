import GlassHive.RunMoves

/-!
# Result revisions name results

A terminal result is what `_terminal_result_digest` hashes. The update trigger counts the results
of a run in `terminal_result_revision`: while the row of the run stands, a revision never comes
back with another result.
-/

namespace GlassHive

open Relational

/-- The canonical object of `_terminal_result_digest`: `TERMINAL_RESULT_DIGEST_FIELDS`. -/
structure TerminalResult where
  state : RunState
  endedAt : Option Time
  activeAttemptId : Option AttemptId
  outputText : String
  errorText : String
  failure : Failure
  deriving DecidableEq

namespace Run

/-- The terminal result of a row. -/
def terminalResult (r : Run) : TerminalResult where
  state := r.state
  endedAt := r.endedAt
  activeAttemptId := r.activeAttemptId
  outputText := r.outputText
  errorText := r.errorText
  failure := r.failure

/-- `_terminal_result_digest`, for a hash of the canonical object. -/
def terminalResultDigest {δ : Type} (hash : TerminalResult → δ) (r : Run) : δ :=
  hash r.terminalResult

/-- The later row `r'` of a run numbers its results after those of `r`. -/
structure Revises (r r' : Run) : Prop where
  le : r.terminalResultRevision ≤ r'.terminalResultRevision
  same : r.state ∈ RunState.terminal → r'.state ∈ RunState.terminal →
    r'.terminalResultRevision = r.terminalResultRevision → r'.terminalResult = r.terminalResult
  entered : r.state ∉ RunState.terminal → r'.state ∈ RunState.terminal →
    r.terminalResultRevision < r'.terminalResultRevision

theorem revises_refl (r : Run) : r.Revises r :=
  ⟨Nat.le_refl _, fun _ _ _ => rfl, fun hlive hterminal => absurd hterminal hlive⟩

/-- A run that was reopened in between has a later revision when it ends again. -/
theorem Revises.trans {r r' r'' : Run} (h : r.Revises r') (h' : r'.Revises r'') :
    r.Revises r'' where
  le := Nat.le_trans h.le h'.le
  same hr hr'' heq := by
    have hle := h.le
    have hle' := h'.le
    by_cases hr' : r'.state ∈ RunState.terminal
    · rw [h'.same hr' hr'' (by omega), h.same hr hr' (by omega)]
    · have hlt := h'.entered hr' hr''
      omega
  entered hr hr'' := by
    have hle := h.le
    have hle' := h'.le
    by_cases hr' : r'.state ∈ RunState.terminal
    · have hlt := h.entered hr hr'
      omega
    · have hlt := h'.entered hr' hr''
      omega

/-- The columns that the trigger watches are the columns of the digest. -/
theorem resultRevised_eq_true {old new : Run} : resultRevised old new = true ↔
    new.state ∈ RunState.terminal ∧
      (old.state ∉ RunState.terminal ∨ new.terminalResult ≠ old.terminalResult) := by
  simp only [resultRevised, Bool.and_eq_true, Bool.or_eq_true, Bool.not_eq_true', oneOf_eq_true,
    oneOf_eq_false, bne_iff_ne, terminalResult, ne_eq, TerminalResult.mk.injEq]
  tauto

/-- An update that leaves the revision to the trigger revises its row. -/
theorem revises_triggered {now : Time} {r w : Run}
    (hw : w.terminalResultRevision = r.terminalResultRevision) :
    r.Revises (triggered now r w) := by
  have hrevision : (triggered now r w).terminalResultRevision =
      if resultRevised r w then
        (if r.terminalResultRevision < 1 then 1 else r.terminalResultRevision + 1)
      else r.terminalResultRevision := by
    change (if resultRevised r w then
      (if r.terminalResultRevision < 1 then 1 else r.terminalResultRevision + 1)
      else w.terminalResultRevision) = _
    rw [hw]
  have hresult : (triggered now r w).terminalResult = w.terminalResult := rfl
  by_cases hrev : resultRevised r w = true
  · have hlt : r.terminalResultRevision < (triggered now r w).terminalResultRevision := by
      rw [hrevision, if_pos hrev]
      split <;> omega
    exact ⟨hlt.le, fun _ _ heq => absurd heq hlt.ne', fun _ _ => hlt⟩
  · rw [if_neg hrev] at hrevision
    rw [resultRevised_eq_true] at hrev
    refine ⟨hrevision.ge, fun hr hr' _ => ?_, fun hr hr' => ?_⟩
    · rw [hresult]
      by_contra hne
      exact hrev ⟨hr', Or.inr hne⟩
    · exact absurd ⟨hr', Or.inl hr⟩ hrev

end Run

/-! ## Histories of a row -/

/-- An `UPDATE runs` statement. No statement assigns `terminal_result_revision`. -/
structure RunUpdate where
  now : Time
  chosen : RunId → Run → Bool
  set : Run → Run
  keepsRevision : ∀ r, (set r).terminalResultRevision = r.terminalResultRevision

/-- What may happen to the rows of `runs`: a transaction, or any other statement. -/
inductive RowEvent
  | call (c : Call)
  | update (u : RunUpdate)

namespace Store

/-- The store after an event. -/
def afterEvent (s : Store) : RowEvent → Store
  | .call c => s.step c
  | .update u => s.updateRuns u.now u.chosen u.set

section Keeps

variable {s : Store} {c : Call} {id : RunId} {r w : Run}

theorem terminalResultRevision_updatedRun (state : Option RunState) (patch : RunPatch) (r : Run) :
    (updatedRun state patch r).terminalResultRevision = r.terminalResultRevision := by
  rw [updatedRun]
  split <;> rfl

/-- No transaction assigns the revision of a run. -/
theorem Rewrites.terminalResultRevision (h : s.Rewrites c id r w) :
    w.terminalResultRevision = r.terminalResultRevision := by
  have hdown : ∀ {reason : String}, s.Downgrades c.now reason r w →
      w.terminalResultRevision = r.terminalResultRevision := by
    rintro _ ⟨-, s₀, _, _, -, rfl⟩
    rfl
  obtain ⟨now, op⟩ := c
  cases op with
  | worker => exact h.elim
  | gc => exact h.elim
  | schedule op =>
    cases op <;> first | exact h.elim | (obtain ⟨-, -, -, rfl⟩ := h; rfl)
  | run op =>
    cases op with
    | createRun => exact h.elim
    | createOrGetRunForSchedule => exact h.elim
    | reconcileInvalidRunningRuns => exact hdown h
    | updateRun runId state patch =>
      obtain ⟨-, -, -, -, h | ⟨-, rfl⟩⟩ := h
      · exact hdown h
      · exact terminalResultRevision_updatedRun state patch r
    | transitionRunIfState => obtain ⟨-, -, -, -, -, -, rfl⟩ := h; rfl
    | settleRunIfCurrent => obtain ⟨-, -, -, rfl⟩ := h; rfl
    | finalizeRunIfStateParallel => obtain ⟨-, -, -, rfl⟩ := h; rfl
    | finalizeRunIfStateLegacy => obtain ⟨-, -, -, rfl⟩ := h; rfl
    | cancelPendingRuns => obtain ⟨-, -, -, rfl⟩ := h; rfl
    | cancelQueuedRunsForWorker => obtain ⟨-, -, -, rfl⟩ := h; rfl
    | requeueRunForRetry => obtain ⟨-, -, -, -, rfl⟩ := h; rfl
    | replaceQueuedRunIdempotently => obtain ⟨-, -, -, rfl⟩ := h; rfl
    | expireQueuedRunIfDue => obtain ⟨-, -, rfl⟩ := h; rfl
  | start op =>
    cases op with
    | claimNextQueuedRunParallel => obtain ⟨-, -, rfl⟩ := h; rfl
    | claimNextQueuedRunLegacy => obtain ⟨-, -, rfl⟩ | ⟨-, rfl⟩ := h <;> rfl
    | reconcileDeadHostRunLease => exact hdown h.2.2
    | admitClaimedRun => obtain ⟨-, -, -, rfl⟩ := h; rfl
    | markRunRuntimeInvoked => obtain ⟨-, -, rfl⟩ := h; rfl
    | confirmHostRunStart =>
      obtain ⟨-, -, h | ⟨-, -, rfl⟩⟩ := h
      · exact hdown h
      · rfl
    | markHostRunStartTerminationUnconfirmed => obtain ⟨-, -, -, rfl⟩ := h; rfl
    | requeueUnconfirmedHostRunStart => obtain ⟨-, -, rfl⟩ := h; rfl
    | acquireHostRunLease => exact h.elim
    | heartbeatHostRunLease => exact h.elim
    | releaseHostRunLease => exact h.elim
    | releaseExpiredPreacceptHostRunLease => exact h.elim
  | lifecycle op =>
    cases op with
    | finalizeWorkerOperationClaim => obtain ⟨-, -, -, rfl⟩ := h; rfl
    | finalizeWorkerWorkStopClaim => obtain ⟨-, -, -, rfl⟩ := h; rfl
    | finalizeWorkerRunControlClaim => obtain ⟨-, -, -, rfl⟩ := h; rfl
    | finalizeWorkerSteerClaim =>
      obtain ⟨_, _, _, -, ⟨-, -, -, -, rfl⟩ | ⟨-, -, -, rfl⟩⟩ := h <;> rfl
    | finalizeWorkerTerminationClaim => obtain ⟨-, -, -, rfl⟩ := h; rfl
    | tryClaimWorkerComputeRelease => exact h.elim
    | confirmWorkerControlRuntimeEffect => exact h.elim
    | rebindWorkerTerminationClaimGeneration => exact h.elim
    | rebindWorkerComputeReleaseClaimGeneration => exact h.elim
    | abandonWorkerRunControlClaim => exact h.elim
    | abandonStaleWorkerComputeReleaseClaim => exact h.elim
    | finalizeWorkerComputeRelease => exact h.elim
  | request op =>
    cases op with
    | claimProviderRequestCancel => obtain ⟨-, rfl⟩ := h; rfl
    | reconcileCancelledProviderNeedsInputRuns => obtain ⟨-, rfl⟩ := h; rfl
    | arbitrateProviderRequestDeadline => obtain ⟨-, rfl⟩ := h; rfl
    | resumeNeedsInputActiveWorkAction => obtain ⟨-, -, -, rfl⟩ := h; rfl

end Keeps

section History

variable {s : Store} {id : RunId} {r r' : Run}

/-- One event revises the row of a run that it keeps. -/
theorem revises_afterEvent {e : RowEvent} (hr : s.runs.get? id = some r)
    (hr' : (s.afterEvent e).runs.get? id = some r') : r.Revises r' := by
  cases e with
  | call c =>
    rcases s.runs_step c id r' hr' with ⟨hnone, -⟩ | ⟨r₀, hr₀, hrel⟩
    · exact absurd (hr.symm.trans hnone) (Option.some_ne_none r)
    · obtain rfl : r = r₀ := Option.some.inj (hr.symm.trans hr₀)
      rcases hrel with rfl | ⟨w, hw, rfl⟩
      · exact Run.revises_refl r'
      · exact Run.revises_triggered hw.terminalResultRevision
  | update u =>
    rw [afterEvent, updateRuns_runs] at hr'
    obtain ⟨r₀, hr₀, rfl⟩ := Table.get?_update_eq_some.mp hr'
    obtain rfl : r = r₀ := Option.some.inj (hr.symm.trans hr₀)
    split
    · exact Run.revises_triggered (u.keepsRevision r)
    · exact Run.revises_refl r

/-- A history through which the row of the run stands. -/
def Stands (s : Store) (id : RunId) (events : List RowEvent) : Prop :=
  Transition.Along afterEvent (fun s _ => (s.runs.get? id).isSome = true) s events

theorem revises_run {events : List RowEvent} (hstands : s.Stands id events)
    (hr : s.runs.get? id = some r)
    (hr' : (Transition.run afterEvent s events).runs.get? id = some r') : r.Revises r' := by
  induction events generalizing s r with
  | nil =>
    obtain rfl : r = r' := Option.some.inj (hr.symm.trans hr')
    exact Run.revises_refl r
  | cons e events ih =>
    -- the row after the event stands before the next one, or at the end
    have hstill : ((s.afterEvent e).runs.get? id).isSome = true := by
      cases events with
      | nil =>
        rw [Transition.run_cons, Transition.run_nil] at hr'
        rw [hr']
        rfl
      | cons => exact hstands.2.1
    obtain ⟨q, hq⟩ := Option.isSome_iff_exists.mp hstill
    exact (revises_afterEvent hr hq).trans (ih hstands.2 hq hr')

/-- Two moments at which a run is terminal under the same revision have the same result digest, and
any difference between their results strictly increases the revision. -/
theorem terminalResultRevision_names_result {δ : Type} (hash : TerminalResult → δ)
    {events : List RowEvent} (hstands : s.Stands id events) (hr : s.runs.get? id = some r)
    (hr' : (Transition.run afterEvent s events).runs.get? id = some r')
    (hterminal : r.state ∈ RunState.terminal) (hterminal' : r'.state ∈ RunState.terminal) :
    (r'.terminalResultRevision = r.terminalResultRevision →
      r'.terminalResultDigest hash = r.terminalResultDigest hash) ∧
    (r'.terminalResult ≠ r.terminalResult ∨
        r'.terminalResultDigest hash ≠ r.terminalResultDigest hash →
      r.terminalResultRevision < r'.terminalResultRevision) := by
  have h := revises_run hstands hr hr'
  have hsame := h.same hterminal hterminal'
  refine ⟨fun heq => congrArg hash (hsame heq), fun hne => ?_⟩
  refine lt_of_le_of_ne h.le fun heq => ?_
  rcases hne with hne | hne
  · exact hne (hsame heq.symm)
  · exact hne (congrArg hash (hsame heq.symm))

end History

/-- A first run that is cancelled, put back into the queue, and cancelled for another reason. -/
def cancelledRun : Store :=
  fromCalls (withQueuedRun ++ [⟨4, .run (.cancelQueuedRunsForWorker 1 "first reason" none)⟩])

def reopenedEvents : List RowEvent :=
  [.call ⟨5, .run (.transitionRunIfState (.uuid 3) .cancelled .queued .none)⟩,
   .call ⟨6, .run (.cancelQueuedRunsForWorker 1 "second reason" none)⟩]

theorem terminalResultRevision_names_result_reopened : ∃ r r',
    cancelledRun.runs.get? (.uuid 3) = some r ∧
      (Transition.run afterEvent cancelledRun reopenedEvents).runs.get? (.uuid 3) = some r' ∧
      r.terminalResultRevision < r'.terminalResultRevision := by
  have hbefore : (cancelledRun.runs.get? (.uuid 3)).map (fun r => (r.state, r.errorText)) =
      some (.cancelled, "first reason") := by decide
  have hafter : ((Transition.run afterEvent cancelledRun reopenedEvents).runs.get? (.uuid 3)).map
      (fun r => (r.state, r.errorText)) = some (.cancelled, "second reason") := by decide
  obtain ⟨r, hr, hstate⟩ := Option.map_eq_some_iff.mp hbefore
  obtain ⟨r', hr', hstate'⟩ := Option.map_eq_some_iff.mp hafter
  obtain ⟨hstate, herror⟩ := Prod.mk.inj hstate
  obtain ⟨hstate', herror'⟩ := Prod.mk.inj hstate'
  have hstands : cancelledRun.Stands (.uuid 3) reopenedEvents := ⟨by decide, by decide, trivial⟩
  refine ⟨r, r', hr, hr', (terminalResultRevision_names_result id hstands hr hr' (by rw [hstate]; decide) (by rw [hstate']; decide)).2
    (Or.inl fun h => ?_)⟩
  have htext := congrArg TerminalResult.errorText h
  simp only [Run.terminalResult] at htext
  rw [herror, herror'] at htext
  exact absurd htext (by decide)

end Store

end GlassHive
