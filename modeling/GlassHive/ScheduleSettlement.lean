import GlassHive.System

/-!
# A finished run and its schedule

A run that becomes terminal should settle the scheduled runs that dispatched it, and with them
their occurrences. Of the transactions that finish runs, `finalize_run_if_state` calls the schedule
hook; others cancel scheduled runs only, and the rest leave both alone.
-/

namespace GlassHive

open Relational

namespace Store

/-! ## Settled schedules -/

/-- Every occurrence behind a run is over. -/
def OccurrencesSettled (s : Store) (runId : RunId) : Prop :=
  ∀ id o, s.occurrences.get? id = some o → s.scheduleLinked runId o.scheduledRunId = true →
    o.state ∈ OccurrenceState.terminal

/-- No scheduled run that dispatched the run is queued or running, and every occurrence is over. -/
structure SchedulesSettled (s : Store) (runId : RunId) : Prop where
  schedules : ∀ id q, s.scheduledRuns.get? id = some q → q.queuedRunId = some runId →
    q.state ∉ [ScheduleState.queued, ScheduleState.running]
  occurrences : s.OccurrencesSettled runId

/-- A call settles the schedule of every run that it finishes. -/
def SettlesFinished (s s' : Store) : Prop :=
  ∀ id r r', s.runs.get? id = some r → r.state ∉ RunState.terminal →
    s'.runs.get? id = some r' → r'.state ∈ RunState.terminal → s'.SchedulesSettled id

section Finished

variable {s s' : Store} {now : Time} {p : RunId → Run → Bool} {f : Run → Run}

/-- The runs that a call finishes, and what it leaves of their schedules, decide whether it settles
them. -/
theorem settlesFinished_iff {fin : RunId → Run → Prop} {Q : RunId → Prop}
    (hruns : ∀ id r, s.runs.get? id = some r → r.state ∉ RunState.terminal →
      ((∃ r', s'.runs.get? id = some r' ∧ r'.state ∈ RunState.terminal) ↔ fin id r))
    (hsched : ∀ id r, s.runs.get? id = some r → fin id r → (s'.SchedulesSettled id ↔ Q id)) :
    s.SettlesFinished s' ↔
      ∀ id r, s.runs.get? id = some r → r.state ∉ RunState.terminal → fin id r → Q id := by
  constructor
  · intro h id r hr ht hfin
    obtain ⟨r', hr', ht'⟩ := (hruns id r hr ht).mpr hfin
    exact (hsched id r hr hfin).mp (h id r r' hr ht hr' ht')
  · intro h id r r' hr ht hr' ht'
    have hfin := (hruns id r hr ht).mp ⟨r', hr', ht'⟩
    exact (hsched id r hr hfin).mpr (h id r hr ht hfin)

/-- A call that leaves the runs alone finishes none. -/
theorem finishes_none (hruns : s'.runs = s.runs) (id : RunId) (r : Run)
    (hr : s.runs.get? id = some r) (ht : r.state ∉ RunState.terminal) :
    ¬∃ r', s'.runs.get? id = some r' ∧ r'.state ∈ RunState.terminal := by
  rintro ⟨r', hr', ht'⟩
  rw [hruns, hr] at hr'
  obtain rfl := Option.some.inj hr'
  exact ht ht'

/-- A bulk update finishes the live runs that it selects and writes a terminal state to. -/
theorem finishes_update (hruns : s'.runs = s.runs.update p fun _ r => Run.triggered now r (f r))
    (id : RunId) (r : Run) (hr : s.runs.get? id = some r) (ht : r.state ∉ RunState.terminal) :
    (∃ r', s'.runs.get? id = some r' ∧ r'.state ∈ RunState.terminal) ↔
      p id r = true ∧ (f r).state ∈ RunState.terminal := by
  rw [hruns, Table.get?_update, hr, Option.map_some]
  constructor
  · rintro ⟨r', hr', ht'⟩
    obtain rfl := Option.some.inj hr'
    by_cases hp : p id r = true
    · rw [if_pos hp] at ht'
      exact ⟨hp, ht'⟩
    · rw [if_neg hp] at ht'
      exact absurd ht' ht
  · rintro ⟨hp, ht'⟩
    rw [if_pos hp]
    exact ⟨_, rfl, ht'⟩

/-- A call that leaves schedules and occurrences alone settles what was settled. -/
theorem schedulesSettled_congr (hq : s'.scheduledRuns = s.scheduledRuns)
    (ho : s'.occurrences = s.occurrences) (id : RunId) :
    s'.SchedulesSettled id ↔ s.SchedulesSettled id := by
  have hlink : ∀ q, s'.scheduleLinked id q = s.scheduleLinked id q := by
    intro q
    rw [scheduleLinked, hq, scheduleLinked]
  constructor
  · intro h
    refine ⟨fun sid q hget => h.schedules sid q (by rw [hq, hget]), fun oid o hget hl => ?_⟩
    exact h.occurrences oid o (by rw [ho, hget]) (by rw [hlink, hl])
  · intro h
    refine ⟨fun sid q hget => h.schedules sid q (by rw [← hq, hget]), fun oid o hget hl => ?_⟩
    exact h.occurrences oid o (by rw [← ho, hget]) (by rw [← hlink, hl])

theorem schedulesSettled_recordTerminalArtifactTraces (now : Time) (runIds : List RunId)
    (id : RunId) :
    (s.recordTerminalArtifactTraces now runIds).SchedulesSettled id ↔ s.SchedulesSettled id := by
  refine schedulesSettled_congr ?_ ?_ id <;> rfl

/-- A call that cancels scheduled runs in bulk, keeping their links, and leaves occurrences alone:
the schedules of a run are settled when the live ones are all selected. -/
theorem schedulesSettled_update {p : ScheduleId → ScheduledRun → Bool}
    {f : ScheduledRun → ScheduledRun}
    (hq : s'.scheduledRuns = s.scheduledRuns.update p fun _ => f)
    (hlinked : ∀ q, (f q).queuedRunId = q.queuedRunId)
    (hf : ∀ q, (f q).state ∉ [ScheduleState.queued, ScheduleState.running])
    (ho : s'.occurrences = s.occurrences) (id : RunId) :
    s'.SchedulesSettled id ↔
      (∀ sid q, s.scheduledRuns.get? sid = some q → q.queuedRunId = some id →
        q.state ∈ [ScheduleState.queued, ScheduleState.running] → p sid q = true) ∧
      s.OccurrencesSettled id := by
  have hlink : ∀ q, s'.scheduleLinked id q = s.scheduleLinked id q := by
    intro q
    rw [scheduleLinked, hq, Table.get?_update, scheduleLinked, Option.any_map]
    cases s.scheduledRuns.get? q with
    | none => rfl
    | some =>
      simp only [Option.any_some]
      split
      · rw [hlinked]
      · rfl
  constructor
  · intro h
    refine ⟨fun sid q hget hid hlive => ?_, fun oid o hget hl => ?_⟩
    · by_contra hp
      refine h.schedules sid q ?_ hid hlive
      rw [hq, Table.get?_update, hget, Option.map_some, if_neg hp]
    · exact h.occurrences oid o (by rw [ho, hget]) (by rw [hlink, hl])
  · rintro ⟨hp, hocc⟩
    refine ⟨fun sid q' hget hid hlive => ?_, fun oid o hget hl => ?_⟩
    · rw [hq, Table.get?_update_eq_some] at hget
      obtain ⟨q, hget, rfl⟩ := hget
      split at hlive
      · exact hf q hlive
      · rename_i hnot
        rw [if_neg hnot] at hid
        exact hnot (hp sid q hget hid hlive)
    · exact hocc oid o (by rw [← ho, hget]) (by rw [← hlink, hl])

theorem scheduledRuns_settleLinkedSchedules (runId : RunId) (state : ScheduleState)
    (lastError : String) (now : Time) :
    (s.settleLinkedSchedules runId state lastError now).scheduledRuns =
      s.scheduledRuns.update
        (fun _ q => q.queuedRunId == some runId && oneOf q.state [.queued, .running])
        fun _ q => { q with state := state, lastError := lastError, updatedAt := now } := rfl

theorem occurrences_settleLinkedSchedules (runId : RunId) (state : ScheduleState)
    (lastError : String) (now : Time) :
    (s.settleLinkedSchedules runId state lastError now).occurrences =
      s.occurrences.update
        (fun _ o => s.scheduleLinked runId o.scheduledRunId &&
          !oneOf o.state OccurrenceState.terminal)
        fun _ o => { o with
          state := state.occurrence, outcome := state.text, claimExpiresAt := none,
          terminalAt := some now } := rfl

/-- The schedule hook settles what a run dispatched. -/
theorem schedulesSettled_settleLinkedSchedules {runId : RunId} {state : ScheduleState}
    {lastError : String} (hstate : state ∈ ScheduleState.terminal) :
    (s.settleLinkedSchedules runId state lastError now).SchedulesSettled runId := by
  have hlive : state ∉ [ScheduleState.queued, ScheduleState.running] := by
    cases state <;> simp [ScheduleState.terminal] at hstate ⊢
  have hocc : state.occurrence ∈ OccurrenceState.terminal := by
    cases state <;> simp [ScheduleState.terminal, ScheduleState.occurrence,
      OccurrenceState.terminal] at hstate ⊢
  have hsched : ∀ sid q', (s.settleLinkedSchedules runId state lastError now).scheduledRuns.get? sid
      = some q' → ∃ q, s.scheduledRuns.get? sid = some q ∧ q'.queuedRunId = q.queuedRunId ∧
        (q'.state = state ∨ q' = q ∧ ¬(q.queuedRunId == some runId &&
          oneOf q.state [.queued, .running]) = true) := by
    intro sid q' hq'
    rw [scheduledRuns_settleLinkedSchedules, Table.get?_update_eq_some] at hq'
    obtain ⟨q, hq, rfl⟩ := hq'
    refine ⟨q, hq, ?_⟩
    split
    · exact ⟨rfl, Or.inl rfl⟩
    · rename_i hnot
      exact ⟨rfl, Or.inr ⟨rfl, hnot⟩⟩
  constructor
  · intro sid q' hq' hid hin
    obtain ⟨q, -, hlink, hs | ⟨rfl, hnot⟩⟩ := hsched sid q' hq'
    · exact hlive (hs ▸ hin)
    · exact hnot (by simp [hid, hin])
  · intro oid o' ho' hl
    have hl₀ : s.scheduleLinked runId o'.scheduledRunId = true := by
      rw [scheduleLinked, Option.any_eq_true] at hl ⊢
      obtain ⟨q', hq', hid⟩ := hl
      obtain ⟨q, hq, hlink, -⟩ := hsched _ q' hq'
      exact ⟨q, hq, hlink ▸ hid⟩
    rw [occurrences_settleLinkedSchedules, Table.get?_update_eq_some] at ho'
    obtain ⟨o, -, rfl⟩ := ho'
    split at hl₀
    · rename_i hsel
      rw [if_pos hsel]
      exact hocc
    · rename_i hsel
      rw [if_neg hsel]
      simpa [hl₀] using hsel

theorem settlesFinished_refl : s.SettlesFinished s := by
  intro id r r' hr ht hr' ht'
  exact absurd ⟨r', hr', ht'⟩ (finishes_none rfl id r hr ht)

/-- A bulk update of one run, whose schedule is settled with it. -/
theorem settlesFinished_of_update (runId : RunId)
    (hruns : s'.runs = s.runs.update p fun _ r => Run.triggered now r (f r))
    (hp : ∀ id r, p id r = true → id = runId)
    (hset : (∃ r, (f r).state ∈ RunState.terminal) → s'.SchedulesSettled runId) :
    s.SettlesFinished s' := by
  intro id r r' hr ht hr' ht'
  rw [hruns, Table.get?_update, hr, Option.map_some] at hr'
  obtain rfl := Option.some.inj hr'
  split at ht'
  · rename_i hsel
    obtain rfl := hp id r hsel
    exact hset ⟨r, ht'⟩
  · exact absurd ht' ht

end Finished

/-! ## `finalize_run_if_state` -/

section Finalize

variable {s : Store} {now : Time} {a : FinalizeRun}

theorem schedulesSettled_hook {runId : RunId} {state : RunState} {errorText : String}
    (hstate : state ∈ RunState.terminal) :
    (s.finalizeLinkedScheduleForTerminalRun runId state errorText now).SchedulesSettled runId := by
  rw [finalizeLinkedScheduleForTerminalRun, if_pos (by simpa using hstate)]
  refine schedulesSettled_settleLinkedSchedules ?_
  cases state <;> simp [scheduleStateOf, ScheduleState.terminal]

/-- With an active attempt, finalizing settles the schedule of the run. -/
theorem finalizeRunIfStateParallel_settles :
    s.SettlesFinished (s.finalizeRunIfStateParallel now a).store := by
  rcases finalizeRunIfStateParallel_cases s now a with
    hs | ⟨r, -, -, hs⟩ <;> rw [hs]
  · exact settlesFinished_refl
  · refine settlesFinished_of_update a.runId (runs_finalizeActive a r) ?_ ?_
    · intro id r h
      simpa using (Bool.and_eq_true_iff.mp h).1
    · rintro ⟨_, hstate⟩
      replace hstate : a.state ∈ RunState.terminal := hstate
      rw [finalizeActive, if_pos (by simpa using hstate)]
      rw [schedulesSettled_recordTerminalArtifactTraces]
      exact schedulesSettled_hook hstate

/-- Without one too. -/
theorem finalizeRunIfStateLegacy_settles :
    s.SettlesFinished (s.finalizeRunIfStateLegacy now a).store := by
  rcases finalizeRunIfStateLegacy_cases s now a with
    hs | ⟨r, -, -, hs⟩ <;> rw [hs]
  · exact settlesFinished_refl
  · refine settlesFinished_of_update a.runId (runs_finalizeInactive a) ?_ ?_
    · intro id r h
      simpa using (Bool.and_eq_true_iff.mp h).1
    · rintro ⟨_, hstate⟩
      exact schedulesSettled_hook hstate

end Finalize

/-! ## The transactions that finish runs -/

/-- The transactions that finish a run: its executor's outcome, the generic write, the bulk
cancellations, the timeouts and the finalizers of the claims that end work. -/
def finishingOp : Op → Bool
  | .run (.finalizeRunIfStateParallel _) | .run (.finalizeRunIfStateLegacy _)
  | .run (.updateRun ..) | .run (.cancelPendingRuns ..) | .run (.expireQueuedRunIfDue _)
  | .run (.replaceQueuedRunIdempotently ..)
  | .request (.claimProviderRequestCancel _) | .request (.arbitrateProviderRequestDeadline ..)
  | .lifecycle (.finalizeWorkerOperationClaim ..) | .lifecycle (.finalizeWorkerWorkStopClaim ..)
  | .lifecycle (.finalizeWorkerRunControlClaim _) | .lifecycle (.finalizeWorkerSteerClaim _)
  | .lifecycle (.finalizeWorkerTerminationClaim ..) => true
  | _ => false

/-- The live runs that a transaction other than `finalize_run_if_state` finishes. -/
def finishes (s : Store) (c : Call) (id : RunId) (r : Run) : Prop :=
  match c.op with
  | .run (.updateRun runId state patch) =>
    id = runId ∧ (∃ st ∈ RunState.terminal, state = some st) ∧ patch.restarts r = false
  | .run (.cancelPendingRuns workerId _ state) =>
    state ∈ RunState.terminal ∧ r.workerId = workerId ∧ r.state ∈ pendingRunStates
  | .run (.expireQueuedRunIfDue a) =>
    id = a.runId ∧ a.due c.now r = true ∧ a.callbackExact = true
  | .run (.replaceQueuedRunIdempotently source replacement workerId projectId _) =>
    id = source ∧ (s.projects.get? projectId).isSome = true ∧
      ∃ w, s.Replaces source replacement workerId projectId w r
  | .request (.claimProviderRequestCancel requestId) =>
    ∃ q, s.requests.get? requestId = some q ∧ oneOf q.state ["queued", "running"] = true ∧
      q.runId = some id ∧ s.cancellable id r = true
  | .request (.arbitrateProviderRequestDeadline requestId defaultTimeout _) =>
    s.overdueRun c.now requestId defaultTimeout = some (id, r)
  | .lifecycle (.finalizeWorkerOperationClaim workerId token epoch kind target expected state ..) =>
    kind = .maxDuration ∧ state ∈ RunState.terminal ∧ r.state ∈ expected ∧
      ∃ w, s.ownedWorkerFor workerId token epoch .maxDuration (some target) = some w ∧
        claimedGeneration workerId w target id r = true
  | .lifecycle (.finalizeWorkerWorkStopClaim workerId token epoch target ..) =>
    r.workerId = workerId ∧ ∃ w q, s.Stoppable workerId token epoch target w q
  | .lifecycle (.finalizeWorkerRunControlClaim a) =>
    id = a.target ∧ a.targetState ∈ RunState.terminal ∧
      ∃ w, s.Controls a w r ∧ s.controllable c.now a w r = true
  | .lifecycle (.finalizeWorkerSteerClaim a) =>
    ∃ w t q, s.Steers a w t q ∧
      ((t.state ∉ RunState.terminal ∧ id = a.target ∧ steerable a w t = true) ∨
      (t.state ≠ .interrupted ∧ t.state ∈ RunState.terminal ∧ id = a.replacement ∧
        r.state = .queued))
  | .lifecycle (.finalizeWorkerTerminationClaim workerId token epoch ..) =>
    r.workerId = workerId ∧ ∃ w, s.ownedWorker workerId token epoch .terminateWorker = some w
  | _ => False

/-- What must hold of the schedules of a run that the transaction finishes: nothing when it calls
the schedule hook, that the occurrences are over when it cancels scheduled runs, and that the
schedules are settled already when it does neither. -/
def scheduleCondition (s : Store) (c : Call) (id : RunId) : Prop :=
  match c.op with
  | .run (.finalizeRunIfStateParallel _) | .run (.finalizeRunIfStateLegacy _) => True
  | .run (.cancelPendingRuns ..) | .request (.claimProviderRequestCancel _)
  | .lifecycle (.finalizeWorkerOperationClaim ..) => s.OccurrencesSettled id
  | .lifecycle (.finalizeWorkerWorkStopClaim workerId ..)
  | .lifecycle (.finalizeWorkerTerminationClaim workerId ..) =>
    (∀ sid q, s.scheduledRuns.get? sid = some q → q.queuedRunId = some id →
      q.state ∈ [ScheduleState.queued, ScheduleState.running] → q.workerId = workerId) ∧
    s.OccurrencesSettled id
  | _ => s.SchedulesSettled id

/-- The schedules of every run that the transaction finishes are such that it settles them. -/
def SettlementCondition (s : Store) (c : Call) : Prop :=
  ∀ id r, s.runs.get? id = some r → r.state ∉ RunState.terminal → s.finishes c id r →
    s.scheduleCondition c id

/-! ## Each transaction -/

section Transactions

variable {s : Store} {now : Time} {runId replacement source target : RunId}
  {state : Option RunState} {patch : RunPatch} {projectId : ProjectId} {instruction : String}
  {requestId : RequestId} {computeReleasedAt : Option Time} {a : FinalizeControl}

/-- The generic write finishes a run when it writes a terminal state. -/
theorem updateRun_finishes (id : RunId) (r : Run) (hr : s.runs.get? id = some r)
    (ht : r.state ∉ RunState.terminal) :
    (∃ r', (s.updateRun now runId state patch).store.runs.get? id = some r' ∧
        r'.state ∈ RunState.terminal) ↔
      s.finishes ⟨now, .run (.updateRun runId state patch)⟩ id r := by
  constructor
  · intro h
    rcases updateRun_cases s now runId state patch with hs
        | ⟨r₀, hr₀, hrestart, -, -, ⟨-, -, hs⟩ | ⟨-, hs⟩⟩ <;> rw [hs] at h
    · exact absurd h (finishes_none rfl id r hr ht)
    · rw [finishes_update (runs_downgradeUnprovenRunning ..) id r hr ht] at h
      simp [downgradedRow, RunState.terminal] at h
    · rw [finishes_update (runs_writeRun ..) id r hr ht] at h
      obtain ⟨hid, hterminal⟩ := h
      obtain rfl : id = runId := by simpa using hid
      obtain rfl : r₀ = r := Option.some.inj (hr₀.symm.trans hr)
      rw [state_updatedRun] at hterminal
      cases state with
      | none => exact absurd hterminal ht
      | some st => exact ⟨rfl, ⟨st, hterminal, rfl⟩, hrestart⟩
  · rintro ⟨rfl, ⟨st, hst, rfl⟩, hrestart⟩
    rw [updateRun_terminal hr hst hrestart, finishes_update (runs_writeRun ..) id r hr ht]
    exact ⟨by simp, by rwa [state_updatedRun]⟩

theorem updateRun_settles_iff :
    s.SettlesFinished (s.updateRun now runId state patch).store ↔
      s.SettlementCondition ⟨now, .run (.updateRun runId state patch)⟩ := by
  refine settlesFinished_iff updateRun_finishes fun id r hr _ => ?_
  change _ ↔ s.SchedulesSettled id
  rcases updateRun_cases s now runId state patch with hs | ⟨r₀, -, -, -, -, ⟨-, -, hs⟩ | ⟨-, hs⟩⟩
      <;> rw [hs]
  · refine schedulesSettled_congr ?_ ?_ id <;> rfl
  · rw [writeRun]
    split <;> refine schedulesSettled_congr ?_ ?_ id <;> rfl

variable {workerId : WorkerId} {errorText : String} {fields : RuntimeFields} {token : Token}
  {epoch : ℕ}

theorem cancelPendingRuns_settles_iff {state : RunState} :
    s.SettlesFinished (s.cancelPendingRuns now workerId errorText state).store ↔
      s.SettlementCondition ⟨now, .run (.cancelPendingRuns workerId errorText state)⟩ := by
  by_cases hstate : state ∈ RunState.terminal
  · have hlive : ∀ id r, s.runs.get? id = some r →
        s.finishes ⟨now, .run (.cancelPendingRuns workerId errorText state)⟩ id r →
        s.workerRunIn workerId RunState.nonterminal id = true := by
      rintro id r hr ⟨-, hw, hin⟩
      rw [workerRunIn, hr, Option.any_some, hw, beq_self_eq_true, Bool.true_and, oneOf_eq_true]
      revert hin
      cases r.state <;> simp [pendingRunStates, RunState.nonterminal]
    refine settlesFinished_iff (fun id r hr ht => ?_) fun id r hr hfin => ?_
    · rw [cancelPendingRuns, if_neg (by simp [hstate])]
      rw [finishes_update (show _ = s.runs.update
        (fun _ r => r.workerId == workerId && oneOf r.state pendingRunStates) fun _ r =>
          Run.triggered now r { r with
            state := state, endedAt := some now, errorText := errorText, runtimeBundle := none }
        from rfl) id r hr ht]
      simp [finishes, hstate]
    · change _ ↔ s.OccurrencesSettled id
      rw [cancelPendingRuns, if_neg (by simp [hstate])]
      refine (schedulesSettled_update (s := s)
        (p := fun _ q => oneOf q.state [.queued, .running] &&
          q.queuedRunId.any (s.workerRunIn workerId RunState.nonterminal))
        (f := fun q => { q with
          state := if state == .cancelled then .cancelled else .failed
          lastError := errorText
          updatedAt := now }) ?_ (fun _ => rfl) ?_ ?_ id).trans (and_iff_right ?_)
      · rfl
      · intro q
        dsimp only
        split <;> simp
      · rfl
      · intro sid q _ hlink hin
        simp [hlink, hlive id r hr hfin, hin]
  · rw [cancelPendingRuns, if_pos (by simp [hstate])]
    exact iff_of_true settlesFinished_refl fun id r _ _ hfin => absurd hfin.1 hstate

theorem expireQueuedRunIfDue_settles_iff {a : ExpireQueued} :
    s.SettlesFinished (s.expireQueuedRunIfDue now a).store ↔
      s.SettlementCondition ⟨now, .run (.expireQueuedRunIfDue a)⟩ := by
  rcases expireQueuedRunIfDue_cases s now a with
    ⟨hs, hnot⟩ | ⟨r₀, hr₀, hdue, hexact, hs⟩ <;> rw [hs]
  · refine iff_of_true settlesFinished_refl fun id r hr _ hfin => ?_
    obtain ⟨rfl, hdue, hexact⟩ := hfin
    exact absurd ⟨r, hr, hdue, hexact⟩ hnot
  · refine settlesFinished_iff (fun id r hr ht => ?_) fun id r hr _ => ?_
    · rw [finishes_update (runs_expireRun a r₀) id r hr ht]
      simp [finishes, hexact, ExpireQueued.row, RunState.terminal]
    · change _ ↔ s.SchedulesSettled id
      unfold expireRun
      split <;> refine schedulesSettled_congr ?_ ?_ id <;> rfl

/-- A replacement finishes its source. -/
theorem replaceQueuedRunIdempotently_finishes (id : RunId) (r : Run) (hr : s.runs.get? id = some r)
    (ht : r.state ∉ RunState.terminal) :
    (∃ r', (s.replaceQueuedRunIdempotently now source replacement workerId projectId
        instruction).store.runs.get? id = some r' ∧ r'.state ∈ RunState.terminal) ↔
      s.finishes ⟨now, .run (.replaceQueuedRunIdempotently source replacement workerId projectId
        instruction)⟩ id r := by
  -- the rows that were there before the replacement is inserted are still there
  have hkept : ∀ {w : Worker} {s₁ : Store}, s.runs.get? replacement = none →
      s.insertRun? replacement
        (s.newRun now replacement workerId projectId w.tenantId instruction .queued) = some s₁ →
      s₁.runs.get? id = some r := by
    intro w s₁ hfree hins
    obtain ⟨runs, hrow, rfl⟩ := insertRun?_eq_some hins
    rw [Table.get?_insert hrow, if_neg, hr]
    rintro rfl
    rw [hr] at hfree
    cases hfree
  constructor
  · intro h
    rcases replaceQueuedRunIdempotently_cases s now source replacement workerId projectId
        instruction with hs | ⟨w, r₀, s₁, hrep, hins, hs⟩ <;> rw [hs] at h
    · exact absurd h (finishes_none rfl id r hr ht)
    · rw [finishes_update (runs_replaceRun ..) id r (hkept hrep.free hins) ht] at h
      obtain ⟨hsel, -⟩ := h
      obtain rfl : id = source := by
        simp only [Bool.and_eq_true, beq_iff_eq] at hsel
        exact hsel.1.1
      obtain rfl : r₀ = r := Option.some.inj (hrep.get.symm.trans hr)
      refine ⟨rfl, ?_, w, hrep⟩
      have hsome := insertRun?_isSome.mp (Option.isSome_of_eq_some hins)
      exact hsome.2.1
  · rintro ⟨rfl, hproject, w, hrep⟩
    obtain ⟨s₁, hins⟩ := Option.isSome_iff_exists.mp (insertRun?_isSome.mpr
      ⟨Option.isSome_of_eq_some hrep.worker, hproject, hrep.free⟩ : (s.insertRun? replacement
        (s.newRun now replacement workerId projectId w.tenantId instruction
          .queued)).isSome = true)
    rw [replaceQueuedRunIdempotently_of_replaces hrep, hins]
    refine (finishes_update (runs_replaceRun ..) id r (hkept hrep.free hins) ht).mpr ⟨?_, ?_⟩
    · have hqueued := hrep.replaceable
      simp only [replaceable, Bool.and_eq_true, beq_iff_eq] at hqueued
      simp [hrep.runWorker, hqueued.1.1]
    · simp [replacedRow, RunState.terminal]

theorem replaceQueuedRunIdempotently_settles_iff :
    s.SettlesFinished (s.replaceQueuedRunIdempotently now source replacement workerId projectId
        instruction).store ↔
      s.SettlementCondition ⟨now, .run (.replaceQueuedRunIdempotently source replacement workerId
        projectId instruction)⟩ := by
  refine settlesFinished_iff replaceQueuedRunIdempotently_finishes fun id r hr _ => ?_
  change _ ↔ s.SchedulesSettled id
  rcases replaceQueuedRunIdempotently_cases s now source replacement workerId projectId instruction
      with hs | ⟨w, r₀, s₁, -, hins, hs⟩ <;> rw [hs]
  obtain ⟨runs, -, rfl⟩ := insertRun?_eq_some hins
  refine schedulesSettled_congr ?_ ?_ id <;> rfl

theorem claimProviderRequestCancel_settles_iff :
    s.SettlesFinished (s.claimProviderRequestCancel now requestId).store ↔
      s.SettlementCondition ⟨now, .request (.claimProviderRequestCancel requestId)⟩ := by
  rcases claimProviderRequestCancel_cases s now requestId with
    ⟨hs, hnot⟩ | ⟨q, hq, hlive, hs⟩
  · rw [hs]
    refine iff_of_true settlesFinished_refl fun id r hr _ hfin => ?_
    obtain ⟨q, hq, hlive, -⟩ := hfin
    exact absurd ⟨q, hq, hlive⟩ hnot
  · have hfin_iff : ∀ id r, s.runs.get? id = some r →
        (s.finishes ⟨now, .request (.claimProviderRequestCancel requestId)⟩ id r ↔
          s.requestedRun q = some (id, r)) := by
      intro id r hr
      constructor
      · rintro ⟨q', hq', -, hid, hok⟩
        obtain rfl : q = q' := Option.some.inj (hq.symm.trans hq')
        rw [requestedRun, hid, Option.bind_some, hr, Option.filter_some_pos hok, Option.map_some]
      · intro h
        obtain ⟨hid, -, hok⟩ := requestedRun_eq_some h
        exact ⟨q, hq, hlive, hid, hok⟩
    rw [hs]
    cases hrun : s.requestedRun q with
    | none =>
      refine iff_of_true ?_ fun id r hr _ hfin => ?_
      · intro id r r' hr ht hr' ht'
        exact absurd ⟨r', hr', ht'⟩
          (finishes_none (show (s.cancelRequest now requestId).runs = s.runs from rfl) id r hr ht)
      · rw [hfin_iff id r hr, hrun] at hfin
        cases hfin
    | some e =>
      obtain ⟨runId, r₀⟩ := e
      obtain ⟨-, hr₀, hok⟩ := requestedRun_eq_some hrun
      refine settlesFinished_iff (fun id r hr ht => ?_) fun id r hr hfin => ?_
      · have hruns := runs_cancelRequestedRun (s.cancelRequest now requestId) now runId r₀.workerId
          fun id r => id == runId && s.cancellable id r
        rw [finishes_update hruns id r hr ht, hfin_iff id r hr, hrun]
        constructor
        · rintro ⟨hsel, -⟩
          obtain rfl : id = runId := by simpa using (Bool.and_eq_true_iff.mp hsel).1
          rw [Option.some.inj (hr₀.symm.trans hr)]
        · intro heq
          obtain ⟨rfl, rfl⟩ := Prod.mk.inj (Option.some.inj heq)
          exact ⟨by simp [hok], by simp [Run.conclude, RunState.terminal]⟩
      · change _ ↔ s.OccurrencesSettled id
        rw [hfin_iff id r hr, hrun] at hfin
        obtain ⟨rfl, rfl⟩ := Prod.mk.inj (Option.some.inj hfin)
        refine (schedulesSettled_update (s := s)
          (p := fun _ q => q.queuedRunId.any (fun id => oneOf id [runId]) &&
            oneOf q.state [.queued, .running])
          (f := fun q => { q with
            state := .cancelled
            lastError := "Cancelled by operator before execution or resumption"
            updatedAt := now }) ?_ (fun _ => rfl) (by simp) ?_ runId).trans (and_iff_right ?_)
        · rfl
        · rfl
        · intro sid q _ hlink hin
          simp [hlink, hin]

theorem arbitrateProviderRequestDeadline_settles_iff {defaultTimeout : ℕ} {f : DeadlineFailure} :
    s.SettlesFinished (s.arbitrateProviderRequestDeadline now requestId defaultTimeout f).store ↔
      s.SettlementCondition
        ⟨now, .request (.arbitrateProviderRequestDeadline requestId defaultTimeout f)⟩ := by
  obtain ⟨requests, hs⟩ := arbitrateProviderRequestDeadline_cases s now requestId defaultTimeout f
  rw [hs]
  cases hrun : s.overdueRun now requestId defaultTimeout with
  | none =>
    refine iff_of_true (fun id r r' hr ht hr' ht' => ?_) fun id r _ _ hfin => ?_
    · exact absurd ⟨r', hr', ht'⟩
        (finishes_none (show ({ s with requests := requests } : Store).runs = s.runs from rfl) id r
          hr ht)
    · change s.overdueRun now requestId defaultTimeout = some (id, r) at hfin
      rw [hrun] at hfin
      cases hfin
  | some e =>
    obtain ⟨runId, r₀⟩ := e
    obtain ⟨hr₀, hstate⟩ := overdueRun_eq_some hrun
    refine settlesFinished_iff (fun id r hr ht => ?_) fun id r _ _ => ?_
    · change _ ↔ s.overdueRun now requestId defaultTimeout = some (id, r)
      rw [hrun]
      refine (finishes_update (show _ = s.runs.update
        (fun id r => id == runId && oneOf r.state deadlineRunStates)
        fun _ r => Run.triggered now r (overdueRow now f r) from rfl) id r hr ht).trans ?_
      constructor
      · rintro ⟨hsel, -⟩
        obtain rfl : id = runId := by simpa using (Bool.and_eq_true_iff.mp hsel).1
        rw [Option.some.inj (hr₀.symm.trans hr)]
      · intro heq
        obtain ⟨rfl, rfl⟩ := Prod.mk.inj (Option.some.inj heq)
        exact ⟨by simp [hstate], by simp [overdueRow, RunState.terminal]⟩
    · change _ ↔ s.SchedulesSettled id
      refine schedulesSettled_congr ?_ ?_ id <;> rfl

/-- A settled maximum duration finishes its target and cancels the target's schedules. -/
theorem finalizeWorkerOperationClaim_settles_iff {kind : OperationKind}
    {expectedStates : List RunState} {targetState : RunState} {idleState : WorkerState} :
    s.SettlesFinished (s.finalizeWorkerOperationClaim now workerId token epoch kind target
        expectedStates targetState errorText fields idleState computeReleasedAt).store ↔
      s.SettlementCondition ⟨now, .lifecycle (.finalizeWorkerOperationClaim workerId token epoch
        kind target expectedStates targetState errorText fields idleState computeReleasedAt)⟩ := by
  by_cases hclaim : kind = .maxDuration ∧ targetState ∈ RunState.terminal ∧
      ∃ w, s.ownedWorkerFor workerId token epoch .maxDuration (some target) = some w
  · obtain ⟨rfl, hstate, w, hw⟩ := hclaim
    rw [finalizeWorkerOperationClaim_of_owned hstate hw]
    have hfin_iff : ∀ id r,
        (s.finishes ⟨now, .lifecycle (.finalizeWorkerOperationClaim workerId token epoch
          .maxDuration target expectedStates targetState errorText fields idleState
          computeReleasedAt)⟩ id r ↔
        (claimedGeneration workerId w target id r && oneOf r.state expectedStates) = true) := by
      intro id r
      rw [Bool.and_eq_true, oneOf_eq_true]
      constructor
      · rintro ⟨-, -, hin, w', hw', hgen⟩
        obtain rfl : w = w' := Option.some.inj (hw.symm.trans hw')
        exact ⟨hgen, hin⟩
      · rintro ⟨hgen, hin⟩
        exact ⟨rfl, hstate, hin, w, hw, hgen⟩
    have hruns := runs_finishOperation s now workerId token epoch errorText fields idleState w
      target expectedStates targetState computeReleasedAt
    cases hsel : s.concludable workerId w target expectedStates with
    | false =>
      rw [hsel, if_neg (by simp)] at hruns
      refine settlesFinished_iff (fun id r hr ht => ?_) fun id r hr hfin => ?_
      · rw [hfin_iff]
        exact iff_of_false (finishes_none hruns id r hr ht)
          (by rw [Table.any_eq_false.mp hsel id r hr]; simp)
      · rw [hfin_iff, Table.any_eq_false.mp hsel id r hr] at hfin
        cases hfin
    | true =>
      rw [hsel, if_pos rfl] at hruns
      refine settlesFinished_iff (fun id r hr ht => ?_) fun id r hr hfin => ?_
      · rw [hfin_iff, finishes_update hruns id r hr ht]
        exact and_iff_left (by simpa [Run.conclude] using hstate)
      · change _ ↔ s.OccurrencesSettled id
        rw [hfin_iff] at hfin
        obtain rfl : id = target := by
          simp only [claimedGeneration, Bool.and_eq_true, beq_iff_eq] at hfin
          exact hfin.1.1.1
        refine (schedulesSettled_update (s := s)
          (p := fun _ q => q.queuedRunId == some id && !oneOf q.state [.completed, .cancelled])
          (f := fun q => { q with state := .cancelled, lastError := errorText, updatedAt := now })
          ?_ (fun _ => rfl) (by simp) ?_ id).trans (and_iff_right ?_)
        · simp [finishOperation, hsel, concludeTarget, releaseRunLeases, settleClaim]
        · simp [finishOperation, hsel, concludeTarget, releaseRunLeases, settleClaim]
        · intro sid q _ hlink hin
          revert hin
          cases hq : q.state <;> simp [hlink]
  · rcases finalizeWorkerOperationClaim_cases s now workerId token epoch kind target expectedStates
      targetState errorText fields idleState computeReleasedAt with hs | ⟨w, hkind, hstate, hw, -⟩
    · rw [hs]
      refine iff_of_true settlesFinished_refl fun id r _ _ hfin => absurd ?_ hclaim
      obtain ⟨hkind, hstate, -, w, hw, -⟩ := hfin
      exact ⟨hkind, hstate, w, hw⟩
    · exact absurd ⟨hkind, hstate, w, hw⟩ hclaim

/-- A call that cancels the schedules of one worker settles a run whose live schedules are all of
that worker. -/
theorem schedulesSettled_cancelWorkerSchedules (now : Time) (errorText : String) {s' : Store}
    (hq : s'.scheduledRuns = (s.cancelWorkerSchedules now workerId errorText).scheduledRuns)
    (ho : s'.occurrences = s.occurrences) (id : RunId) :
    s'.SchedulesSettled id ↔
      (∀ sid q, s.scheduledRuns.get? sid = some q → q.queuedRunId = some id →
        q.state ∈ [ScheduleState.queued, ScheduleState.running] → q.workerId = workerId) ∧
      s.OccurrencesSettled id := by
  refine (schedulesSettled_update (s := s)
    (p := fun _ q => q.workerId == workerId && !oneOf q.state [.completed, .cancelled])
    (f := fun q => { q with state := .cancelled, lastError := errorText, updatedAt := now })
    hq (fun _ => rfl) (by simp) ho id).trans (and_congr_left fun _ => ?_)
  refine forall₂_congr fun sid q => forall₃_congr fun _ _ hin => ?_
  revert hin
  cases hstate : q.state <;> simp

theorem finalizeWorkerWorkStopClaim_settles_iff :
    s.SettlesFinished (s.finalizeWorkerWorkStopClaim now workerId token epoch target fields
        computeReleasedAt errorText).store ↔
      s.SettlementCondition ⟨now, .lifecycle (.finalizeWorkerWorkStopClaim workerId token epoch
        target fields computeReleasedAt errorText)⟩ := by
  rcases finalizeWorkerWorkStopClaim_cases s now workerId token epoch target fields
      computeReleasedAt errorText with
    ⟨hs, hnot⟩ | ⟨w, r₀, hstop, hs⟩ <;> rw [hs]
  · exact iff_of_true settlesFinished_refl fun id r _ _ hfin => absurd hfin.2 hnot
  · refine settlesFinished_iff (fun id r hr ht => ?_) fun id r _ _ => ?_
    · rw [finishes_update (runs_finishStop ..) id r hr ht]
      rw [RunState.mem_terminal_iff, not_not] at ht
      simp only [Bool.and_eq_true, beq_iff_eq, oneOf_eq_true, ht, and_true]
      constructor
      · rintro ⟨hw, -⟩
        exact ⟨hw, w, r₀, hstop⟩
      · rintro ⟨hw, -⟩
        exact ⟨hw, by simp [stoppedRow, Run.conclude, RunState.terminal]⟩
    · obtain ⟨_, _, h⟩ := publishStop_eq (s.stopWork now workerId errorText) now workerId token w
        target (stopCancels w r₀)
      rw [finishStop, h]
      refine schedulesSettled_cancelWorkerSchedules now errorText ?_ ?_ id
        <;> simp [stopWork, cancelWorkerSchedules, failPendingActions, releaseWorkerLeases,
          settleClaim]

theorem finalizeWorkerTerminationClaim_settles_iff {computeReleasedAt : Time} :
    s.SettlesFinished (s.finalizeWorkerTerminationClaim now workerId token epoch
        computeReleasedAt fields errorText).store ↔
      s.SettlementCondition ⟨now, .lifecycle (.finalizeWorkerTerminationClaim workerId token epoch
        computeReleasedAt fields errorText)⟩ := by
  cases hw : s.ownedWorker workerId token epoch .terminateWorker with
  | none =>
    rw [finalizeWorkerTerminationClaim, hw]
    refine iff_of_true settlesFinished_refl fun id r _ _ hfin => ?_
    obtain ⟨-, w, hw'⟩ := hfin
    rw [hw] at hw'
    cases hw'
  | some w =>
    rw [finalizeWorkerTerminationClaim_of_owned hw]
    refine settlesFinished_iff (fun id r hr ht => ?_) fun id r _ _ => ?_
    · rw [finishes_update (runs_finishTermination ..) id r hr ht]
      rw [RunState.mem_terminal_iff, not_not] at ht
      simp only [Bool.and_eq_true, beq_iff_eq, oneOf_eq_true, ht, and_true]
      constructor
      · rintro ⟨hworker, -⟩
        exact ⟨hworker, w, hw⟩
      · rintro ⟨hworker, -⟩
        exact ⟨hworker, by simp [Run.conclude, RunState.terminal]⟩
    · refine schedulesSettled_cancelWorkerSchedules now errorText ?_ ?_ id
        <;> simp [finishTermination, endWork, cancelWorkerSchedules, failPendingActions,
          releaseWorkerLeases, settleClaim]

/-- A run control finishes its target when it moves it into a terminal state. -/
theorem finalizeWorkerRunControlClaim_finishes (id : RunId) (r : Run) (hr : s.runs.get? id = some r)
    (ht : r.state ∉ RunState.terminal) :
    (∃ r', (s.finalizeWorkerRunControlClaim now a).store.runs.get? id = some r' ∧
        r'.state ∈ RunState.terminal) ↔
      s.finishes ⟨now, .lifecycle (.finalizeWorkerRunControlClaim a)⟩ id r := by
  constructor
  · intro h
    rcases finalizeWorkerRunControlClaim_cases s now a with
      hs | ⟨w, r₀, hctl, ⟨-, -, hs⟩ | ⟨hlive, hok, hs⟩⟩ <;> rw [hs] at h
    · exact absurd h (finishes_none rfl id r hr ht)
    · exact absurd h (finishes_none (runs_controlTerminalWon a) id r hr ht)
    · rw [finishes_update (runs_finishControl a r₀) id r hr ht] at h
      obtain ⟨hsel, hterminal⟩ := h
      obtain rfl : id = a.target := by
        simp only [Bool.and_eq_true, beq_iff_eq] at hsel
        exact hsel.1.1
      obtain rfl : r₀ = r := Option.some.inj (hctl.get.symm.trans hr)
      exact ⟨rfl, hterminal, w, hctl, hok⟩
  · rintro ⟨rfl, hterminal, w, hctl, hok⟩
    rw [finalizeWorkerRunControlClaim_of_controls hctl ht hok,
      finishes_update (runs_finishControl a r) a.target r hr ht]
    have hexpected := (Bool.and_eq_true_iff.mp hok).2
    exact ⟨by simp [hctl.worker, hexpected], hterminal⟩

theorem finalizeWorkerRunControlClaim_settles_iff :
    s.SettlesFinished (s.finalizeWorkerRunControlClaim now a).store ↔
      s.SettlementCondition ⟨now, .lifecycle (.finalizeWorkerRunControlClaim a)⟩ := by
  refine settlesFinished_iff finalizeWorkerRunControlClaim_finishes fun id r _ _ => ?_
  change _ ↔ s.SchedulesSettled id
  rcases finalizeWorkerRunControlClaim_cases s now a with
    hs | ⟨w, r₀, -, ⟨-, -, hs⟩ | ⟨-, -, hs⟩⟩ <;> rw [hs]
  · refine schedulesSettled_congr ?_ ?_ id <;>
      simp [controlTerminalWon, releaseRunLeases, settleClaim]
  · refine schedulesSettled_congr ?_ ?_ id <;>
      simp only [finishControl, settleClaim, publishControl, updateWorkers_scheduledRuns,
        updateWorkers_occurrences, enqueueLifecycleEffects_scheduledRuns,
        enqueueLifecycleEffects_occurrences, insertLifecycleEvents_scheduledRuns,
        insertLifecycleEvents_occurrences, moveTarget] <;> split <;> simp [releaseRunLeases]

/-- A steer finishes its live target, or the queued replacement of a target that had finished. -/
theorem finalizeWorkerSteerClaim_finishes {a : FinalizeSteer} (id : RunId) (r : Run)
    (hr : s.runs.get? id = some r) (ht : r.state ∉ RunState.terminal) :
    (∃ r', (s.finalizeWorkerSteerClaim now a).store.runs.get? id = some r' ∧
        r'.state ∈ RunState.terminal) ↔
      s.finishes ⟨now, .lifecycle (.finalizeWorkerSteerClaim a)⟩ id r := by
  by_cases hsteers : ∃ w t q, s.Steers a w t q
  · obtain ⟨w, t, q, hsteers⟩ := hsteers
    have hfin_iff : s.finishes ⟨now, .lifecycle (.finalizeWorkerSteerClaim a)⟩ id r ↔
        ((t.state ∉ RunState.terminal ∧ id = a.target ∧ steerable a w t = true) ∨
        (t.state ≠ .interrupted ∧ t.state ∈ RunState.terminal ∧ id = a.replacement ∧
          r.state = .queued)) := by
      constructor
      · rintro ⟨w', t', q', h', hcase⟩
        obtain rfl : w = w' := Option.some.inj (hsteers.owned.symm.trans h'.owned)
        obtain rfl : t = t' := Option.some.inj (hsteers.get.symm.trans h'.get)
        exact hcase
      · exact fun hcase => ⟨w, t, q, hsteers, hcase⟩
    rw [hfin_iff, finalizeWorkerSteerClaim_of_steers hsteers]
    split
    · rename_i hinterrupted
      refine iff_of_false (finishes_none (runs_finishInterruptedSteer ..) id r hr ht) ?_
      rintro (⟨hlive, -⟩ | ⟨hne, -⟩)
      · exact hlive (by simp [hinterrupted, RunState.terminal])
      · exact hne hinterrupted
    rename_i hinterrupted
    split
    · rename_i hterminal
      rw [finishes_update (runs_steerTerminalWon a) id r hr ht]
      constructor
      · rintro ⟨hsel, -⟩
        simp only [Bool.and_eq_true, beq_iff_eq] at hsel
        exact Or.inr ⟨hinterrupted, hterminal, hsel.1.1, hsel.2⟩
      · rintro (⟨hlive, -⟩ | ⟨-, -, rfl, hqueued⟩)
        · exact absurd hterminal hlive
        · have hworker : r.workerId = a.workerId := by
            obtain ⟨hq, hok⟩ := Option.filter_eq_some_iff.mp hsteers.replacement
            obtain rfl : q = r := Option.some.inj (hq.symm.trans hr)
            simp only [Bool.and_eq_true, beq_iff_eq] at hok
            exact hok.1.1
          exact ⟨by simp [hworker, hqueued], by simp [RunState.terminal]⟩
    rename_i hlive
    split
    · rename_i hok
      rw [finishes_update (runs_finishSteer ..) id r hr ht]
      have hstate : t.state = a.expectedState := by
        simp only [steerable, Bool.not_eq_true', Bool.or_eq_false_iff, bne_eq_false_iff_eq] at hok
        exact hok.1
      constructor
      · rintro ⟨hsel, -⟩
        simp only [Bool.and_eq_true, beq_iff_eq] at hsel
        exact Or.inl ⟨hlive, hsel.1.1, hok⟩
      · rintro (⟨-, rfl, -⟩ | ⟨-, hterminal, -⟩)
        · obtain rfl : t = r := Option.some.inj (hsteers.get.symm.trans hr)
          refine ⟨by simp [hsteers.worker, hstate], ?_⟩
          rw [Run.conclude, steeredState]
          split <;> simp [RunState.terminal]
        · exact absurd hterminal hlive
    · rename_i hnot
      refine iff_of_false (finishes_none rfl id r hr ht) ?_
      rintro (⟨-, -, hok⟩ | ⟨-, hterminal, -⟩)
      · exact hnot hok
      · exact hlive hterminal
  · rcases finalizeWorkerSteerClaim_cases s now a with hs | h
    · rw [hs]
      refine iff_of_false (finishes_none rfl id r hr ht) fun hfin => hsteers ?_
      obtain ⟨w, t, q, h, -⟩ := hfin
      exact ⟨w, t, q, h⟩
    · exact absurd h hsteers

theorem finalizeWorkerSteerClaim_settles_iff {a : FinalizeSteer} :
    s.SettlesFinished (s.finalizeWorkerSteerClaim now a).store ↔
      s.SettlementCondition ⟨now, .lifecycle (.finalizeWorkerSteerClaim a)⟩ := by
  refine settlesFinished_iff finalizeWorkerSteerClaim_finishes fun id r _ _ => ?_
  change _ ↔ s.SchedulesSettled id
  have hframe : ∀ s' : Store, ∀ w events queued,
      (s'.steerToReplacement now a w events queued).scheduledRuns = s'.scheduledRuns ∧
      (s'.steerToReplacement now a w events queued).occurrences = s'.occurrences := by
    intro s' w events queued
    cases queued <;>
      simp [steerToReplacement, advanceDelegations, releaseRunLeases, settleClaim]
  rcases finalizeWorkerSteerClaim_cases s now a with
    hs | ⟨w, t, q, hsteers⟩
  · rw [hs]
  rw [finalizeWorkerSteerClaim_of_steers hsteers]
  split
  · exact schedulesSettled_congr (hframe _ _ _ _).1 (hframe _ _ _ _).2 id
  split
  · refine schedulesSettled_congr ?_ ?_ id <;>
      simp [steerTerminalWon, advanceDelegations, releaseRunLeases, settleClaim]
  split
  · refine schedulesSettled_congr ((hframe _ _ _ _).1.trans ?_) ((hframe _ _ _ _).2.trans ?_) id <;>
      simp [steerTarget]
  · rfl

/-- A transaction that finishes runs settles the schedule of each if and only if these schedules
are as the transaction needs them: `finalize_run_if_state` needs nothing, the bulk cancellations and
the maximum duration need settled occurrences, a stop and a termination that the live schedules are
the worker's as well, and the others need the schedules settled before. -/
theorem settlesFinished_step_iff {c : Call} (hop : finishingOp c.op = true) :
    s.SettlesFinished (s.step c) ↔ s.SettlementCondition c := by
  obtain ⟨now, op⟩ := c
  cases op with
  | run op =>
    cases op with
    | finalizeRunIfStateParallel a =>
      exact iff_of_true finalizeRunIfStateParallel_settles fun _ _ _ _ _ => trivial
    | finalizeRunIfStateLegacy a =>
      exact iff_of_true finalizeRunIfStateLegacy_settles fun _ _ _ _ _ => trivial
    | updateRun => exact updateRun_settles_iff
    | cancelPendingRuns => exact cancelPendingRuns_settles_iff
    | expireQueuedRunIfDue => exact expireQueuedRunIfDue_settles_iff
    | replaceQueuedRunIdempotently => exact replaceQueuedRunIdempotently_settles_iff
    | _ => cases hop
  | request op =>
    cases op with
    | claimProviderRequestCancel => exact claimProviderRequestCancel_settles_iff
    | arbitrateProviderRequestDeadline => exact arbitrateProviderRequestDeadline_settles_iff
    | _ => cases hop
  | lifecycle op =>
    cases op with
    | finalizeWorkerOperationClaim => exact finalizeWorkerOperationClaim_settles_iff
    | finalizeWorkerWorkStopClaim => exact finalizeWorkerWorkStopClaim_settles_iff
    | finalizeWorkerRunControlClaim => exact finalizeWorkerRunControlClaim_settles_iff
    | finalizeWorkerSteerClaim => exact finalizeWorkerSteerClaim_settles_iff
    | finalizeWorkerTerminationClaim => exact finalizeWorkerTerminationClaim_settles_iff
    | _ => cases hop
  | _ => cases hop

/-- The wait of the scheduled run ended at its deadline. -/
def expireScheduledRun : ExpireQueued where
  runId := .schedule 3
  expectedDeadline := 1800000005
  expectedGeneration := 1
  expectedCallbackId :=
    { kind := "timeout", runId := .schedule 3, generation := 1, deadline := 1800000005 }
  callback := none

/-- The schedules decide a queue expiry. -/
theorem settlesFinished_step_iff_expired :
    (fromCalls withScheduledRun).SettlesFinished
        ((fromCalls withScheduledRun).step
          ⟨1800000005, .run (.expireQueuedRunIfDue expireScheduledRun)⟩) ↔
      (fromCalls withScheduledRun).SettlementCondition
        ⟨1800000005, .run (.expireQueuedRunIfDue expireScheduledRun)⟩ :=
  settlesFinished_step_iff rfl

/-- An expired scheduled run leaves its schedule queued. -/
theorem expireQueuedRunIfDue_strands_schedule :
    (fromCalls withScheduledRun).Reachable ∧
      ¬(fromCalls withScheduledRun).SettlesFinished
        ((fromCalls withScheduledRun).step
          ⟨1800000005, .run (.expireQueuedRunIfDue expireScheduledRun)⟩) := by
  refine ⟨reachable_fromCalls _, fun h => ?_⟩
  have hbefore : ((fromCalls withScheduledRun).runs.get? (.schedule 3)).map Run.state =
      some .queued := by
    decide
  have hafter : (((fromCalls withScheduledRun).step
      ⟨1800000005, .run (.expireQueuedRunIfDue expireScheduledRun)⟩).runs.get?
        (.schedule 3)).map Run.state = some .failed := by
    decide
  have hsched : (((fromCalls withScheduledRun).step
      ⟨1800000005, .run (.expireQueuedRunIfDue expireScheduledRun)⟩).scheduledRuns.get?
        3).map (fun q => (q.queuedRunId, q.state)) = some (some (.schedule 3), .queued) := by
    decide
  obtain ⟨r, hr, hs⟩ := Option.map_eq_some_iff.mp hbefore
  obtain ⟨r', hr', hs'⟩ := Option.map_eq_some_iff.mp hafter
  obtain ⟨q, hq, hcols⟩ := Option.map_eq_some_iff.mp hsched
  have hlink : q.queuedRunId = some (.schedule 3) := congrArg Prod.fst hcols
  have hstate : q.state = .queued := congrArg Prod.snd hcols
  have hsettled := h _ r r' hr (by rw [hs]; decide) hr' (by rw [hs']; decide)
  exact hsettled.schedules 3 q hq hlink (by rw [hstate]; decide)

end Transactions

end Store

end GlassHive
