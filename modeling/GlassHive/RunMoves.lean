import GlassHive.Steps
import GlassHive.Library.Evolution

/-!
# How transactions rewrite runs

For every transaction, the rows of `runs` that it leaves: what it needed of the row that it
changes, and the row that its statement writes before the triggers. A transaction writes a row at
most once, and every new row is queued.
-/

namespace GlassHive

open Relational

namespace Store

/-! ## The rewrites -/

/-- A downgrade of an unproven run writes `w` over the running row `r`. -/
def Downgrades (s : Store) (now : Time) (reason : String) (r w : Run) : Prop :=
  r.state = .running ∧ ∃ (s₀ : Store) (id : RunId) (r₀ : Run), s₀.settings = s.settings ∧
    w = s₀.downgradedRow id r₀ now reason r

/-- What the schedule transactions write over the run `id`. -/
def scheduleRewrites (s : Store) (now : Time) (id : RunId) (r w : Run) : ScheduleOp → Prop
  | .setSchedulePrincipalAuthority tenantId ownerId enabled =>
    enabled = false ∧ r.state = .queued ∧
      (s.scheduledRuns.any fun _ q =>
        q.queuedRunId == some id && s.retiredByAuthority tenantId ownerId q) = true ∧
      w = { r with
        state := .cancelled, endedAt := some now, errorText := "principal_disabled",
        failure := { r.failure with
          failureClass := "principal_disabled", retryable := false,
          userMessage := "Scheduled principal authority was disabled." } }
  | _ => False

/-- What the transactions on runs write over the run `id`. -/
def runRewrites (s : Store) (now : Time) (id : RunId) (r w : Run) : RunOp → Prop
  | .createRun .. | .createOrGetRunForSchedule .. => False
  | .reconcileInvalidRunningRuns => s.Downgrades now "running_invariant_reconciled" r w
  | .updateRun runId state patch =>
    id = runId ∧ patch.restarts r = false ∧
      (state.getD r.state ≠ r.state →
        state.getD r.state ∉ [RunState.claimed, .admitted, .running]) ∧
      (state.getD r.state ∈ RunState.nonterminal →
        workAdmissionError (s.workers.get? r.workerId) none = none) ∧
      (s.Downgrades now "running_invariant_reconciled" r w ∨
        (state.getD r.state = .running → s.runningGenerationIsExact id now = true) ∧
          w = updatedRun state patch r)
  | .transitionRunIfState runId expected state patch =>
    id = runId ∧ r.state = expected ∧ (transitionPatch now state patch).restarts r = false ∧
      state ∉ [RunState.claimed, .admitted] ∧
      (state = .running → s.runningGenerationIsExact id now = true) ∧
      (state ∈ RunState.nonterminal →
        workAdmissionError (s.workers.get? r.workerId) none = none ∧
        ∀ v, s.workers.get? r.workerId = some v → runIsOwnedByDestructiveClaim v id = false) ∧
      w = { (transitionPatch now state patch).apply r with state := state }
  | .settleRunIfCurrent runId outputText childSummary expected =>
    id = runId ∧ r.state = .running ∧ s.runGenerationIsExact id r expected = true ∧
      w = { r with
        state := .settling, outputText := outputText,
        native := { r.native with childSummary := childSummary } }
  | .finalizeRunIfStateParallel a =>
    id = a.runId ∧ s.Finalizes a r ∧ a.state ≠ .running ∧ w = activeRow now a r
  | .finalizeRunIfStateLegacy a =>
    id = a.runId ∧ s.Finalizes a r ∧
      (a.state = .running → s.runningGenerationIsExact id now = true) ∧ w = inactiveRow now a r
  | .cancelPendingRuns workerId errorText state =>
    r.workerId = workerId ∧ state ∈ RunState.terminal ∧ r.state ∈ pendingRunStates ∧
      w = { r with
        state := state, endedAt := some now, errorText := errorText, runtimeBundle := none }
  | .cancelQueuedRunsForWorker workerId errorText excludeRunId =>
    r.workerId = workerId ∧ r.state ∈ [RunState.queued, .needsInput] ∧ excludeRunId ≠ some id ∧
      w = { r with
        state := .cancelled, endedAt := some now, errorText := errorText, failure := .clear,
        retry := { r.retry with retryAfter := none, attempts := 0, lastClass := "" } }
  | .requeueRunForRetry a =>
    id = a.runId ∧ s.retryGenerationIsExact a.runId r a.expected = true ∧
      workAdmissionError (s.workers.get? r.workerId) none = none ∧ r.state ∈ retriableRunStates ∧
      w = a.row s.settings now r
  | .replaceQueuedRunIdempotently source replacement workerId projectId _ =>
    id = source ∧ (∃ v, s.Replaces source replacement workerId projectId v r) ∧
      r.state = .queued ∧ w = replacedRow now r
  | .expireQueuedRunIfDue a => id = a.runId ∧ a.due now r = true ∧ w = a.row now r

/-- What the transactions of a start write over the run `id`. -/
def startRewrites (s : Store) (now : Time) (id : RunId) (r w : Run) : StartOp → Prop
  | .claimNextQueuedRunParallel workerId executorId _ =>
    s.claimable now workerId executorId = some (id, r) ∧ s.attempts.get? s.nextId = none ∧
      w = claimedRun now s.nextId ((s.claimLease workerId id).map fun l => l.2.reserved) r
  | .claimNextQueuedRunLegacy workerId require =>
    due workerId now r = true ∧ (s.refusedSchedule require id).isSome = true ∧
        w = unauthorizedRow now r ∨
      s.legacyClaimable now workerId require = some (id, r) ∧ w = legacyRow now r
  | .reconcileDeadHostRunLease _ runId attemptId _ reason =>
    id = runId ∧ r.activeAttemptId = attemptId ∧
      s.Downgrades now (if reason == "" then "dead_host_run_lease" else reason) r w
  | .admitClaimedRun runId leaseId executorId =>
    id = runId ∧ r.state = .claimed ∧
      (s.admittable now runId leaseId executorId).isSome = true ∧
      w = { r with state := .admitted, admittedAt := some now }
  | .markRunRuntimeInvoked runId leaseId executorId =>
    id = runId ∧ (∃ l t, s.presentedLease now runId leaseId executorId = some l ∧
      s.admittedGeneration now runId r leaseId l = some t) ∧ w = invokedRow now r
  | .confirmHostRunStart a =>
    id = a.runId ∧ r.workerId = a.workerId ∧
      (s.Downgrades now "running_invariant_reconciled" r w ∨
        a.allowRuntimeInvocation = true ∧ (∃ v l t, s.Confirms now a v r l ∧
          s.admittedGeneration now a.runId r a.leaseId l = some t) ∧ w = Run.invoke now r)
  | .markHostRunStartTerminationUnconfirmed leaseId runId _ _ =>
    id = runId ∧ r.state = .running ∧
      (s.unconfirmedAttempt runId leaseId).isSome = true ∧ w = { r with state := .settling }
  | .requeueUnconfirmedHostRunStart workerId runId leaseId token retryAfter errorText =>
    id = runId ∧ s.requeuable workerId runId leaseId token = some r ∧
      w = fencedRow s.settings now runId retryAfter errorText r
  | _ => False

/-- What the transactions on claims write over the run `id`. -/
def lifecycleRewrites (s : Store) (now : Time) (id : RunId) (r w : Run) : LifecycleOp → Prop
  | .finalizeWorkerOperationClaim workerId token epoch _ target expected state errorText _ _ _ =>
    (∃ v, s.ownedWorkerFor workerId token epoch .maxDuration (some target) = some v ∧
      claimedGeneration workerId v target id r = true) ∧ r.state ∈ expected ∧
      state ∈ RunState.terminal ∧ w = Run.conclude now state errorText r
  | .finalizeWorkerWorkStopClaim workerId token epoch target _ _ errorText =>
    (∃ v t, s.Stoppable workerId token epoch target v t) ∧ r.workerId = workerId ∧
      r.state ∈ RunState.nonterminal ∧ w = stoppedRow now errorText r
  | .finalizeWorkerRunControlClaim a =>
    id = a.target ∧ r.state ∉ RunState.terminal ∧
      (∃ v, s.Controls a v r ∧ s.controllable now a v r = true) ∧ w = a.targetRow s.settings now r
  | .finalizeWorkerSteerClaim a =>
    ∃ v t q, s.Steers a v t q ∧
      (id = a.target ∧ r = t ∧ r.state ∉ RunState.terminal ∧ r.state = a.expectedState ∧
          w = Run.conclude now (steeredState a.expectedState) "Replaced by operator steer" r ∨
        id = a.replacement ∧ r.state = .queued ∧ t.state ∈ RunState.terminal ∧
          w = { r with
            state := .cancelled, endedAt := some now,
            errorText := "Steer replacement suppressed because target completed" })
  | .finalizeWorkerTerminationClaim workerId token epoch _ _ errorText =>
    (s.ownedWorker workerId token epoch .terminateWorker).isSome = true ∧ r.workerId = workerId ∧
      r.state ∈ RunState.nonterminal ∧ w = Run.conclude now .cancelled errorText r
  | _ => False

/-- What the transactions on requests write over the run `id`. -/
def requestRewrites (s : Store) (now : Time) (id : RunId) (r w : Run) : RequestOp → Prop
  | .claimProviderRequestCancel _ =>
    s.cancellable id r = true ∧
      w = Run.conclude now .cancelled "Cancelled by operator before execution or resumption" r
  | .reconcileCancelledProviderNeedsInputRuns workerId only =>
    s.cancelledAttention workerId only id r = true ∧
      w = Run.conclude now .cancelled "Cancelled provider turn reconciled after awaiting input" r
  | .arbitrateProviderRequestDeadline requestId timeout f =>
    s.overdueRun now requestId timeout = some (id, r) ∧ w = overdueRow now f r
  | .resumeNeedsInputActiveWorkAction _ workerId runId _ =>
    id = runId ∧ r.workerId = workerId ∧ r.state = .needsInput ∧
      w = resumedRow s.settings now runId r

/-- What a transaction writes over the run `id`, before the triggers. -/
def Rewrites (s : Store) (c : Call) (id : RunId) (r w : Run) : Prop :=
  match c.op with
  | .worker _ => False
  | .gc _ => False
  | .schedule op => s.scheduleRewrites c.now id r w op
  | .run op => s.runRewrites c.now id r w op
  | .start op => s.startRewrites c.now id r w op
  | .lifecycle op => s.lifecycleRewrites c.now id r w op
  | .request op => s.requestRewrites c.now id r w op

/-- The row of a run that a transaction creates. -/
def CreatesRun (s : Store) (now : Time) (id : RunId) (r : Run) : Prop :=
  ∃ workerId projectId tenantId instruction bundle, r =
    { s.newRun now id workerId projectId tenantId instruction .queued with runtimeBundle := bundle }

/-- The rows of `runs` that `s'` has come from `s`: unchanged, rewritten, or new. -/
def RewritesWithin (s s' : Store) (now : Time) (M : RunId → Run → Run → Prop) : Prop :=
  s.runs.Evolves (fun id r r' => r' = r ∨ ∃ w, M id r w ∧ r' = Run.triggered now r w)
    (fun id r => s.CreatesRun now id r) s'.runs

section Rules

variable {s s' : Store} {now : Time} {M : RunId → Run → Run → Prop}

theorem rewritesWithin_refl : s.RewritesWithin s now M :=
  Table.evolves_refl fun _ _ => Or.inl rfl

theorem rewritesWithin_of_eq (h : s'.runs = s.runs) : s.RewritesWithin s' now M :=
  Table.evolves_of_eq (fun _ _ => Or.inl rfl) h

theorem rewritesWithin_update {p : RunId → Run → Bool} {f : Run → Run}
    (h : s'.runs = s.runs.update p fun _ r => Run.triggered now r (f r))
    (hM : ∀ id r, s.runs.get? id = some r → p id r = true → M id r (f r)) :
    s.RewritesWithin s' now M := by
  rw [RewritesWithin, h]
  exact Table.evolves_update (fun _ _ => Or.inl rfl)
    fun id r hr hp => Or.inr ⟨f r, hM id r hr hp, rfl⟩

/-- An update of the one row `r`. -/
theorem rewritesWithin_updateRow {p : RunId → Run → Bool} {f : Run → Run} {runId : RunId} {r : Run}
    (h : s'.runs = s.runs.update p fun _ r => Run.triggered now r (f r))
    (hr : s.runs.get? runId = some r) (hp : ∀ id q, p id q = true → id = runId)
    (hM : p runId r = true → M runId r (f r)) : s.RewritesWithin s' now M := by
  refine rewritesWithin_update h fun id q hq hpq => ?_
  obtain rfl := hp id q hpq
  obtain rfl : r = q := Option.some.inj (hr.symm.trans hq)
  exact hM hpq

theorem rewritesWithin_insert {id : RunId} {row : Run} {runs : Table RunId Run}
    (hins : s.runs.insert? id row = some runs) (h : s'.runs = runs)
    (hnew : s.CreatesRun now id row) : s.RewritesWithin s' now M := by
  rw [RewritesWithin, h]
  exact Table.evolves_insert hins (fun _ _ => Or.inl rfl) hnew

end Rules

/-! ## Workers, collection, schedules and runs -/

section Runs

variable {s s' : Store} {now : Time}

theorem rewritesWithin_downgradeUnprovenRunning {runId : RunId} {r₀ : Run} {reason : String}
    {M : RunId → Run → Run → Prop}
    (hM : ∀ r w, s.runs.get? runId = some r → s.Downgrades now reason r w → M runId r w) :
    s.RewritesWithin (s.downgradeUnprovenRunning runId r₀ now reason) now M := by
  refine rewritesWithin_update (runs_downgradeUnprovenRunning ..) fun id r hr hp => ?_
  simp only [Bool.and_eq_true, beq_iff_eq] at hp
  obtain ⟨rfl, hstate⟩ := hp
  exact hM r _ hr ⟨hstate, s, id, r₀, rfl, rfl⟩

/-- The tables of what is executed. -/
def executions (s : Store) : Table RunId Run × Table AttemptId Attempt × Table LeaseId Lease :=
  (s.runs, s.attempts, s.leases)

theorem executions_applyWorker {op : WorkerOp} :
    (s.applyWorker now op).executions = s.executions := by
  cases op with
  | createProject =>
    rw [applyWorker, createProject]
    split <;> rfl
  | createWorker =>
    rw [applyWorker, createWorker]
    split
    · rfl
    split <;> rfl
  | updateWorker => rfl
  | updateWorkerUnlessGcClaimed =>
    rw [applyWorker, updateWorkerUnlessGcClaimed]
    split <;> rfl
  | beginWorkerTermination =>
    rw [applyWorker, beginWorkerTermination]
    split
    · rfl
    split <;> rfl
  | failWorkerTermination => rfl
  | recordWorkerTerminationCleanupFailure => rfl
  | completeWorkerTermination =>
    rw [applyWorker, completeWorkerTermination]
    split
    · rfl
    split <;> rfl
  | beginWorkerComputeStart =>
    rw [applyWorker, beginWorkerComputeStart]
    split
    · rfl
    split <;> rfl

/-- The garbage collector may delete runs, but neither their attempts nor their leases: a worker
with attempts is not deleted. -/
theorem executions_applyGc (s : Store) (now : Time) (op : GcOp) :
    ∃ runs, (s.applyGc now op).executions = (runs, s.attempts, s.leases) ∧
      (runs = s.runs ∨ ∃ p, runs = s.runs.delete p) := by
  rcases applyGc_store s now op with ⟨_, _, _, -, h⟩ | ⟨_, _, _, s₁, _, -, hdelete, h⟩ <;> rw [h]
  · exact ⟨s.runs, rfl, Or.inl rfl⟩
  · obtain ⟨-, hruns, hattempts, hleases, -⟩ := gcDelete_eq hdelete
    exact ⟨s₁.runs, by rw [executions, hattempts, hleases], Or.inr ⟨_, hruns⟩⟩

theorem applySchedule_rewritesWithin {op : ScheduleOp} :
    s.RewritesWithin (s.applySchedule now op) now fun id r w =>
      s.scheduleRewrites now id r w op := by
  rcases applySchedule_store s now op with
    ⟨tenantId, ownerId, enabled, rfl⟩ | ⟨_, _, _, _, _, -, h⟩
  · rw [applySchedule, setSchedulePrincipalAuthority]
    split
    · exact rewritesWithin_of_eq rfl
    · rename_i henabled
      simp only [RewritesWithin, Outcome.store_commit, updateOccurrences_runs,
        updateScheduledRuns_runs, updateRuns_runs, updateDefinitions_runs]
      refine Table.evolves_update (fun _ _ => Or.inl rfl) fun id r _ hp => Or.inr ⟨_, ?_, rfl⟩
      simp only [Bool.and_eq_true, beq_iff_eq] at hp
      exact ⟨by simpa using henabled, hp.1, hp.2, rfl⟩
  · rw [h]
    exact rewritesWithin_of_eq rfl

/-- A sweep over running runs rewrites a row at most once: a downgraded run is queued. -/
theorem reconcileInvalidRunningRuns_rewritesWithin :
    s.RewritesWithin (s.reconcileInvalidRunningRuns now).store now fun _ r w =>
      s.Downgrades now "running_invariant_reconciled" r w := by
  rw [reconcileInvalidRunningRuns, Outcome.store_commit]
  generalize (s.runs.select fun _ r => r.state == .running) = rows
  induction rows generalizing s with
  | nil => exact rewritesWithin_refl
  | cons e rows ih =>
    rw [List.foldl_cons]
    split
    · exact ih
    have hrest := ih (s := s.downgradeUnprovenRunning e.1 e.2 now "running_invariant_reconciled")
    refine Table.Evolves.trans (u := Store.runs _)
      (rewritesWithin_downgradeUnprovenRunning fun _ _ _ h => h :
        s.RewritesWithin (s.downgradeUnprovenRunning e.1 e.2 now "running_invariant_reconciled")
          now fun _ r w => s.Downgrades now "running_invariant_reconciled" r w)
      hrest ?_ ?_ ?_
    · rintro _ r r' r'' (rfl | ⟨w, ⟨hrun, s₀, id, r₀, hset, rfl⟩, rfl⟩) h
      · exact h
      · rcases h with rfl | ⟨w', ⟨hrun', -⟩, -⟩
        · exact Or.inr ⟨_, ⟨hrun, s₀, id, r₀, hset, rfl⟩, rfl⟩
        · exact absurd hrun' (by rw [Run.triggered_state]; simp [downgradedRow])
    · rintro id r r' ⟨_, _, _, _, _, rfl⟩ (rfl | ⟨w, ⟨hrun, -⟩, -⟩)
      · exact ⟨_, _, _, _, _, rfl⟩
      · exact absurd hrun (by simp [newRun])
    · intro k r r' hr hnone
      rw [runs_downgradeUnprovenRunning, Table.get?_update, hr] at hnone
      cases hnone

theorem RunStep.rewritesWithin {op : RunOp} (h : s.RunStep now op s') :
    s.RewritesWithin s' now fun id r w => s.runRewrites now id r w op := by
  cases h with
  | unchanged => exact rewritesWithin_refl
  | created hins | createdFenced hins =>
    obtain ⟨runs, hrows, rfl⟩ := insertRun?_eq_some hins
    exact rewritesWithin_insert hrows rfl ⟨_, _, _, _, _, rfl⟩
  | scheduled q _ _ hrun =>
    rcases hrun with rfl | ⟨s₀, hins, rfl⟩
    · exact rewritesWithin_of_eq rfl
    · obtain ⟨runs, hrows, rfl⟩ := insertRun?_eq_some hins
      exact rewritesWithin_insert hrows rfl ⟨_, _, _, _, _, rfl⟩
  | reconciled => exact reconcileInvalidRunningRuns_rewritesWithin
  | updated hr₀ hrestart hmoves hadmission hs =>
    rcases hs with ⟨-, -, rfl⟩ | ⟨hexact, rfl⟩
    · refine rewritesWithin_downgradeUnprovenRunning fun r w hr hdown => ?_
      obtain rfl := Option.some.inj (hr₀.symm.trans hr)
      exact ⟨rfl, hrestart, hmoves, hadmission, Or.inl hdown⟩
    · exact rewritesWithin_updateRow (runs_writeRun ..) hr₀ (fun _ _ hp => by simpa using hp)
        fun _ => ⟨rfl, hrestart, hmoves, hadmission, Or.inr ⟨hexact, rfl⟩⟩
  | transitioned hr₀ hexpected hrestart hstart hexact hadmission =>
    exact rewritesWithin_updateRow (runs_transitionRun ..) hr₀
      (fun _ _ hp => by simpa using (Bool.and_eq_true_iff.mp hp).1)
      fun _ => ⟨rfl, hexpected, hrestart, hstart, hexact, hadmission, rfl⟩
  | settled hr₀ hrunning hexact =>
    refine rewritesWithin_updateRow (updateRuns_runs ..) hr₀ (fun id r hp => ?_)
      fun _ => ⟨rfl, hrunning, hexact, rfl⟩
    simp only [Bool.and_eq_true, beq_iff_eq] at hp
    exact hp.1.1.1
  | finalizedActive hfin hrunning =>
    exact rewritesWithin_updateRow (runs_finalizeActive ..) hfin.get
      (fun _ _ hp => by simpa using (Bool.and_eq_true_iff.mp hp).1)
      fun _ => ⟨rfl, hfin, hrunning, rfl⟩
  | finalizedInactive hfin hexact =>
    exact rewritesWithin_updateRow (runs_finalizeInactive ..) hfin.get
      (fun _ _ hp => by simpa using (Bool.and_eq_true_iff.mp hp).1)
      fun _ => ⟨rfl, hfin, hexact, rfl⟩
  | cancelledPending =>
    rw [cancelPendingRuns]
    split
    · exact rewritesWithin_refl
    · rename_i hterminal
      simp only [RewritesWithin, Outcome.store_commit, recordTerminalArtifactTraces_runs,
        appendAttemptTraces_runs, updateAttempts_runs, updateRuns_runs, updateScheduledRuns_runs]
      refine Table.evolves_update (fun _ _ => Or.inl rfl) fun id r _ hp => Or.inr ⟨_, ?_, rfl⟩
      simp only [Bool.and_eq_true, beq_iff_eq, oneOf_eq_true] at hp
      exact ⟨hp.1, by simpa using hterminal, hp.2, rfl⟩
  | cancelledQueued =>
    simp only [RewritesWithin, cancelQueuedRunsForWorker, Outcome.store_commit,
      recordTerminalArtifactTraces_runs, updateRuns_runs]
    refine Table.evolves_update (fun _ _ => Or.inl rfl) fun id r _ hp => Or.inr ⟨_, ?_, rfl⟩
    simp only [Bool.and_eq_true, beq_iff_eq, oneOf_eq_true, bne_iff_ne] at hp
    exact ⟨hp.1.1, hp.1.2, hp.2, rfl⟩
  | retried hr₀ hexact hadmission hstate =>
    refine rewritesWithin_updateRow (runs_retryRun ..) hr₀ (fun id r hp => ?_)
      fun _ => ⟨rfl, hexact, hadmission, hstate, rfl⟩
    simp only [Bool.and_eq_true, beq_iff_eq] at hp
    exact hp.1.1
  | @replaced source replacement _ _ v r₀ _ s₁ hrep hins =>
    obtain ⟨runs, hrows, rfl⟩ := insertRun?_eq_some hins
    rw [RewritesWithin, runs_replaceRun]
    intro id r' hr'
    obtain ⟨r₁, hr₁, rfl⟩ := Table.get?_update_eq_some.mp hr'
    rw [Table.get?_insert hrows] at hr₁
    split at hr₁
    · -- the new row is not the source, which is there already
      rename_i hid
      obtain rfl := Option.some.inj hr₁
      subst hid
      have hne : id ≠ source := by
        rintro rfl
        exact absurd (hrep.get.symm.trans hrep.free) (Option.some_ne_none _)
      refine Or.inl ⟨hrep.free, ?_⟩
      rw [if_neg (by simp [hne])]
      exact ⟨_, _, _, _, _, rfl⟩
    · refine Or.inr ⟨r₁, hr₁, ?_⟩
      split
      · rename_i hp
        simp only [Bool.and_eq_true, beq_iff_eq] at hp
        obtain rfl : id = source := hp.1.1
        obtain rfl : r₀ = r₁ := Option.some.inj (hrep.get.symm.trans hr₁)
        exact Or.inr ⟨_, ⟨rfl, ⟨v, hrep⟩, hp.2, rfl⟩, rfl⟩
      · exact Or.inl rfl
  | expired =>
    refine rewritesWithin_update (runs_expireRun ..) fun id r _ hp => ?_
    simp only [Bool.and_eq_true, beq_iff_eq] at hp
    exact ⟨hp.1, hp.2, rfl⟩

end Runs

/-! ## Starts -/

section Starts

variable {s s' : Store} {now : Time}

theorem rewritesWithin_invokeGeneration {runId : RunId} {r₀ : Run} {leaseId : LeaseId}
    {attemptId : AttemptId} {f : Run → Run} {M : RunId → Run → Run → Prop}
    (h : s'.runs = (s.invokeGeneration now runId r₀ leaseId attemptId f).runs)
    (hr₀ : s.runs.get? runId = some r₀) (hM : M runId r₀ (f r₀)) : s.RewritesWithin s' now M := by
  refine rewritesWithin_updateRow (p := fun id r => id == runId && r.state == .admitted &&
    r.activeAttemptId == some attemptId && r.runtimeInvokedAt.isNone && r.queueWait.isOpen &&
    decide (now < r.queueWait.deadlineAt)) h hr₀ (fun id r hp => ?_) fun _ => hM
  simp only [Bool.and_eq_true, beq_iff_eq] at hp
  exact hp.1.1.1.1.1

theorem runs_publishStart (a : ConfirmStart) (r : Run) : (s.publishStart now a r).runs = s.runs := by
  rw [publishStart]
  split <;> rfl

/-- The rows that a sweep leaves, of the runs that it refuses and of the others. -/
theorem rewritesWithin_sweepUnauthorized {workerId : WorkerId} {require : Bool}
    {chosen : Option RunId}
    (hsweep : sweepUnauthorized now workerId require (s.runs.entries.length + 1) s = (s', chosen)) :
    s.RewritesWithin s' now fun id r w =>
      s.startRewrites now id r w (.claimNextQueuedRunLegacy workerId require) := by
  intro id r' hr'
  obtain ⟨r, hr, rfl | hs⟩ : ∃ r, s.runs.get? id = some r ∧
      (r' = r ∨ s.Swept now workerId require id r r') :=
    sweepUnauthorized_rows (s.runs.entries.length + 1) s (by rwa [hsweep])
  · exact Or.inr ⟨r', hr, Or.inl rfl⟩
  · exact Or.inr ⟨r, hr, Or.inr ⟨_, Or.inl ⟨hs.due, hs.refused, rfl⟩, hs.row⟩⟩

theorem StartStep.rewritesWithin {op : StartOp} (h : s.StartStep now op s') :
    s.RewritesWithin s' now fun id r w => s.startRewrites now id r w op := by
  cases h with
  | unchanged => exact rewritesWithin_refl
  | claimed _ hclaim hins =>
    simp only [RewritesWithin, claimRun, appendAttemptTraces_runs, updateWorkers_runs,
      updateRuns_runs, updateLeases_runs, drawId_runs]
    refine Table.evolves_update (fun _ _ => Or.inl rfl) fun id r hr hp => Or.inr ⟨_, ?_, rfl⟩
    obtain rfl := eq_of_beq hp
    obtain rfl := Option.some.inj ((claimable_eq_some hclaim).1.symm.trans hr)
    exact ⟨hclaim, (Table.insert?_eq_some hins).1, rfl⟩
  | swept _ hsweep => exact rewritesWithin_sweepUnauthorized hsweep
  | @claimedLegacy workerId require runId r₀ s₁ hclaim hsweep =>
    obtain ⟨hr₀, -, hrefused, -⟩ := legacyClaimable_eq_some hclaim
    have hkept := sweepUnauthorized_kept now workerId _ _ (s.runs.entries.length + 1) s hrefused
    rw [hsweep] at hkept
    intro id r' hr'
    simp only [startLegacy, updateRuns_runs] at hr'
    obtain ⟨r₁, hr₁, rfl⟩ := Table.get?_update_eq_some.mp hr'
    split
    · -- the sweep left the chosen run alone
      rename_i hid
      obtain rfl : id = runId := by simpa using hid
      obtain rfl : r₀ = r₁ := Option.some.inj (hr₀.symm.trans (hkept.symm.trans hr₁))
      exact Or.inr ⟨r₀, hr₀, Or.inr ⟨_, Or.inr ⟨hclaim, rfl⟩, rfl⟩⟩
    · exact rewritesWithin_sweepUnauthorized hsweep id r₁ hr₁
  | acquired | heartbeat | released | unconfirmed => exact rewritesWithin_of_eq rfl
  | lost hr₀ hattempt =>
    refine rewritesWithin_downgradeUnprovenRunning fun r w hr hdown => ?_
    obtain rfl := Option.some.inj (hr₀.symm.trans hr)
    exact ⟨rfl, hattempt, hdown⟩
  | admitted hadmission =>
    simp only [RewritesWithin, admitGeneration, appendAttemptTraces_runs, updateAttempts_runs,
      updateRuns_runs]
    refine Table.evolves_update (fun _ _ => Or.inl rfl) fun id r _ hp => Or.inr ⟨_, ?_, rfl⟩
    simp only [Bool.and_eq_true, beq_iff_eq] at hp
    exact ⟨hp.1.1, hp.1.2, by rw [hadmission]; rfl, rfl⟩
  | @invoked _ _ leaseId _ l t hr₀ hl hgen =>
    exact rewritesWithin_invokeGeneration rfl hr₀ ⟨rfl, ⟨_, _, hl, hgen⟩, rfl⟩
  | unproven hr₀ hworker =>
    refine rewritesWithin_downgradeUnprovenRunning fun r w hr hdown => ?_
    obtain rfl := Option.some.inj (hr₀.symm.trans hr)
    exact ⟨rfl, hworker, Or.inl hdown⟩
  | confirmed hconfirms hallow hgen =>
    exact rewritesWithin_invokeGeneration (runs_publishStart ..) hconfirms.get
      ⟨rfl, hconfirms.runWorker, Or.inr ⟨hallow, ⟨_, _, _, hconfirms, hgen⟩, rfl⟩⟩
  | confirmedRunning => exact rewritesWithin_of_eq (runs_publishStart ..)
  | unconfirmedSettling hattempt =>
    simp only [RewritesWithin, settleGeneration, appendAttemptTraces_runs,
      updateAttempts_runs, updateRuns_runs, updateLeases_runs]
    refine Table.evolves_update (fun _ _ => Or.inl rfl) fun id r _ hp => Or.inr ⟨_, ?_, rfl⟩
    simp only [Bool.and_eq_true, beq_iff_eq] at hp
    exact ⟨hp.1.1, hp.1.2, by rw [hattempt]; rfl, rfl⟩
  | requeued hr₀ =>
    simp only [RewritesWithin, requeueGeneration, insertEventOnce_runs, updateWorkers_runs,
      appendAttemptTraces_runs, updateAttempts_runs, updateRuns_runs, updateLeases_runs]
    refine Table.evolves_update (fun _ _ => Or.inl rfl) fun id r hr hp => Or.inr ⟨_, ?_, rfl⟩
    simp only [Bool.and_eq_true, beq_iff_eq] at hp
    obtain rfl := hp.1.1
    obtain rfl := Option.some.inj ((requeuable_eq_some hr₀).1.symm.trans hr)
    exact ⟨rfl, hr₀, rfl⟩

end Starts

/-! ## Claims and requests -/

section Claims

variable {s s' : Store} {now : Time}

theorem runs_reserveReplacement {w : Worker} {a : ClaimRelease} {s' : Store}
    (h : s.reserveReplacement now w a = some (some s')) :
    s'.runs = s.runs ∨
      ∃ id row, s.CreatesRun now id row ∧ s.runs.insert? id row = some s'.runs := by
  rw [reserveReplacement] at h
  split at h
  · obtain rfl := Option.some.inj (Option.some.inj h)
    exact Or.inl rfl
  split at h
  · cases h
  split at h
  · obtain ⟨s₁, hins, rfl⟩ := Option.map_eq_some_iff.mp (Option.some.inj h)
    obtain ⟨runs, hrows, rfl⟩ := insertRun?_eq_some hins
    exact Or.inr ⟨_, _, ⟨_, _, _, _, _, rfl⟩, hrows⟩
  · cases h

theorem LifecycleStep.rewritesWithin {op : LifecycleOp} (h : s.LifecycleStep now op s') :
    s.RewritesWithin s' now fun id r w => s.lifecycleRewrites now id r w op := by
  cases h with
  | unchanged => exact rewritesWithin_refl
  | changedRow | takenOver => exact rewritesWithin_of_eq rfl
  | claimed _ _ _ hreserve =>
    rcases runs_reserveReplacement hreserve with hsame | ⟨id, row, hnew, hins⟩
    · exact rewritesWithin_of_eq hsame
    · exact rewritesWithin_insert hins rfl hnew
  | released => exact rewritesWithin_of_eq (runs_releaseCompute ..)
  | finished hterminal hw =>
    rw [RewritesWithin, runs_finishOperation ..]
    split
    · refine Table.evolves_update (fun _ _ => Or.inl rfl) fun id r _ hp => Or.inr ⟨_, ?_, rfl⟩
      rw [Bool.and_eq_true, oneOf_eq_true] at hp
      exact ⟨⟨_, hw, hp.1⟩, hp.2, hterminal, rfl⟩
    · exact Table.evolves_refl fun _ _ => Or.inl rfl
  | stopped hstop =>
    refine rewritesWithin_update (runs_finishStop ..) fun id r _ hp => ?_
    simp only [Bool.and_eq_true, beq_iff_eq, oneOf_eq_true] at hp
    exact ⟨⟨_, _, hstop⟩, hp.1, hp.2, rfl⟩
  | controlSuppressed => exact rewritesWithin_of_eq (runs_controlTerminalWon ..)
  | controlled hctl hlive hcontrol =>
    refine rewritesWithin_updateRow (runs_finishControl ..) hctl.get (fun id r hp => ?_)
      fun _ => ⟨rfl, hlive, ⟨_, hctl, hcontrol⟩, rfl⟩
    simp only [Bool.and_eq_true, beq_iff_eq] at hp
    exact hp.1.1
  | steerInterrupted => exact rewritesWithin_of_eq (runs_finishInterruptedSteer ..)
  | steerSuppressed hsteers hterminal =>
    rw [RewritesWithin, runs_steerTerminalWon]
    refine Table.evolves_update (fun _ _ => Or.inl rfl) fun id r _ hp => Or.inr ⟨_, ?_, rfl⟩
    simp only [Bool.and_eq_true, beq_iff_eq] at hp
    exact ⟨_, _, _, hsteers, Or.inr ⟨hp.1.1, hp.2, hterminal, rfl⟩⟩
  | steered hsteers hlive =>
    refine rewritesWithin_updateRow (runs_finishSteer ..) hsteers.get (fun id r hp => ?_)
      fun hp => ?_ <;> simp only [Bool.and_eq_true, beq_iff_eq] at hp
    · exact hp.1.1
    · exact ⟨_, _, _, hsteers, Or.inl ⟨rfl, rfl, hlive, hp.2, rfl⟩⟩
  | terminated hw =>
    refine rewritesWithin_update (runs_finishTermination ..) fun id r _ hp => ?_
    simp only [Bool.and_eq_true, beq_iff_eq, oneOf_eq_true] at hp
    exact ⟨by rw [hw]; rfl, hp.1, hp.2, rfl⟩

theorem RequestStep.rewritesWithin {op : RequestOp} (h : s.RequestStep now op s') :
    s.RewritesWithin s' now fun id r w => s.requestRewrites now id r w op := by
  cases h with
  | unchanged => exact rewritesWithin_refl
  | cancelled | recorded | resumedQueued => exact rewritesWithin_of_eq rfl
  | cancelledRun =>
    exact rewritesWithin_update (runs_cancelRequestedRun ..) fun id r _ hp =>
      ⟨(Bool.and_eq_true_iff.mp hp).2, rfl⟩
  | cancelledAttention =>
    exact rewritesWithin_update (runs_cancelAttention _) fun id r _ hp => ⟨hp, rfl⟩
  | @overdue _ _ runId r₀ f _ hdue =>
    refine rewritesWithin_updateRow (runs_failOverdueRun r₀ f) (overdueRun_eq_some hdue).1
      (fun id r hp => ?_) fun _ => ⟨hdue, rfl⟩
    simp only [Bool.and_eq_true, beq_iff_eq] at hp
    exact hp.1
  | resumed =>
    refine rewritesWithin_update (runs_resumeRun ..) fun id r _ hp => ?_
    simp only [Bool.and_eq_true, beq_iff_eq] at hp
    exact ⟨hp.1.1, hp.1.2, hp.2, rfl⟩

end Claims

/-- Every row of `runs` after a transaction is a new queued run, the row it was, or what the
transaction wrote over it, as the triggers leave it. -/
theorem runs_step (s : Store) (c : Call) : s.RewritesWithin (s.step c) c.now (s.Rewrites c) := by
  obtain ⟨now, op⟩ := c
  cases op with
  | worker => exact rewritesWithin_of_eq (congrArg Prod.fst executions_applyWorker)
  | gc op =>
    obtain ⟨runs, hruns, rfl | ⟨p, rfl⟩⟩ := executions_applyGc s now op
    · exact rewritesWithin_of_eq (congrArg Prod.fst hruns)
    · have hdeleted : (s.step ⟨now, .gc op⟩).runs = s.runs.delete p := congrArg Prod.fst hruns
      rw [RewritesWithin, hdeleted]
      exact Table.evolves_delete fun _ _ => Or.inl rfl
  | schedule => exact applySchedule_rewritesWithin
  | run op => exact (applyRun_step s now op).rewritesWithin
  | start op => exact (applyStart_step s now op).rewritesWithin
  | lifecycle op => exact (applyLifecycle_step s now op).rewritesWithin
  | request op => exact (applyRequest_step s now op).rewritesWithin

end Store

end GlassHive
