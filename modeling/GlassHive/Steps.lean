import GlassHive.System

/-!
# What each transaction may leave

One predicate for each family: a transaction leaves the store that it found, or writes what its
guards let it write. What the transactions keep is proved by cases on these predicates.
-/

namespace GlassHive

open Relational

/-- A row in another state, with its claim, epoch and stop as they were. -/
structure Worker.Restated (w w' : Worker) (state : WorkerState) : Prop where
  state : w'.state = state
  release : w'.release = w.release
  releaseEpoch : w'.releaseEpoch = w.releaseEpoch
  workStop : w'.workStop = w.workStop

/-- A row whose claim is given up, in a state. -/
structure Worker.Settled (w w' : Worker) (state : WorkerState) : Prop where
  state : w'.state = state
  release : w'.release = .clear
  releaseEpoch : w'.releaseEpoch = w.releaseEpoch

/-- A row with a claim of the next epoch. -/
structure Worker.Advanced (w w' : Worker) (release : ComputeRelease) : Prop where
  release : w'.release = release
  releaseEpoch : w'.releaseEpoch = w.releaseEpoch + 1

namespace LifecycleOp

/-- The worker that a transaction is addressed to. -/
def workerId : LifecycleOp → WorkerId
  | .tryClaimWorkerComputeRelease a => a.workerId
  | .confirmWorkerControlRuntimeEffect workerId .. => workerId
  | .rebindWorkerTerminationClaimGeneration workerId .. => workerId
  | .rebindWorkerComputeReleaseClaimGeneration workerId .. => workerId
  | .abandonWorkerRunControlClaim workerId .. => workerId
  | .abandonStaleWorkerComputeReleaseClaim workerId .. => workerId
  | .finalizeWorkerComputeRelease workerId .. => workerId
  | .finalizeWorkerOperationClaim workerId .. => workerId
  | .finalizeWorkerWorkStopClaim workerId .. => workerId
  | .finalizeWorkerRunControlClaim a => a.workerId
  | .finalizeWorkerSteerClaim a => a.workerId
  | .finalizeWorkerTerminationClaim workerId .. => workerId

/-- The token and the epoch that the owner of a claim presents. -/
def presents : LifecycleOp → Option (Token × ℕ)
  | .tryClaimWorkerComputeRelease _ => none
  | .confirmWorkerControlRuntimeEffect _ token epoch .. => some (token, epoch)
  | .rebindWorkerTerminationClaimGeneration _ token epoch _ => some (token, epoch)
  | .rebindWorkerComputeReleaseClaimGeneration _ token epoch .. => some (token, epoch)
  | .abandonWorkerRunControlClaim _ token epoch .. => some (token, epoch)
  | .abandonStaleWorkerComputeReleaseClaim _ token epoch _ => some (token, epoch)
  | .finalizeWorkerComputeRelease _ token epoch .. => some (token, epoch)
  | .finalizeWorkerOperationClaim _ token epoch .. => some (token, epoch)
  | .finalizeWorkerWorkStopClaim _ token epoch .. => some (token, epoch)
  | .finalizeWorkerRunControlClaim a => some (a.token, a.epoch)
  | .finalizeWorkerSteerClaim a => some (a.token, a.epoch)
  | .finalizeWorkerTerminationClaim _ token epoch .. => some (token, epoch)

end LifecycleOp

namespace Store

/-! ## Runs -/

inductive RunStep (s : Store) (now : Time) : RunOp → Store → Prop
  | unchanged : RunStep s now op s
  | created (hins : s.drawId.insertRun? newId
        (s.newRun now newId workerId projectId tenantId instruction .queued) = some s₁) :
      RunStep s now (.createRun workerId projectId instruction runId structured resumePaused fence
        bundle) ((s₁.appendOriginTrace now newId workerId tenantId).touchLastRun now workerId newId)
  | createdFenced (hins : s.drawId.insertRun? newId
        (s.newRun now newId workerId projectId tenantId instruction .queued) = some s₁) :
      RunStep s now (.createRun workerId projectId instruction runId structured resumePaused fence
        bundle)
        ((s₁.insertAccountFence newId fence).updateWorkers (fun id _ => id == workerId) fun w => { w with
          state := if resumePaused && w.state == .paused then .starting else w.state
          lastError := if resumePaused && w.state == .paused then "" else w.lastError
          bootstrapBundle := bundle <|> w.bootstrapBundle
          lastRunId := some newId
          updatedAt := now })
  /-- A run of a schedule is inserted, or there already. -/
  | scheduled (q : ScheduledRun) (scheduledRuns : Table ScheduleId ScheduledRun)
      (occurrences : Table OccurrenceId Occurrence) (hrun : s₁ = s ∨ ∃ s₀, s.insertRun? (.schedule scheduleId)
          { s.newRun now (.schedule scheduleId) q.workerId q.projectId q.tenantId q.instruction
            .queued with runtimeBundle := bundle } = some s₀ ∧
        s₁ = (s₀.appendOriginTrace now (.schedule scheduleId) q.workerId
          q.tenantId).insertAccountFence (.schedule scheduleId) fence) :
      RunStep s now (.createOrGetRunForSchedule scheduleId bundle require fence)
        (Store.updateWorkers { s₁ with scheduledRuns, occurrences } (fun i _ => i == q.workerId)
          fun w => { w with
            state := if w.state == .paused then .starting else w.state
            lastError := if w.state == .paused then "" else w.lastError
            lastRunId := some (.schedule scheduleId)
            updatedAt := now })
  | reconciled : RunStep s now .reconcileInvalidRunningRuns (s.reconcileInvalidRunningRuns now).store
  | updated (hr : s.runs.get? runId = some r) (hrestart : patch.restarts r = false)
      (hmoves : state.getD r.state ≠ r.state →
        state.getD r.state ∉ [RunState.claimed, .admitted, .running])
      (hadmission : state.getD r.state ∈ RunState.nonterminal →
        workAdmissionError (s.workers.get? r.workerId) none = none)
      (hs : (state.getD r.state = .running ∧ s.runningGenerationIsExact runId now = false ∧
          s' = s.downgradeUnprovenRunning runId r now "running_invariant_reconciled") ∨
        (state.getD r.state = .running → s.runningGenerationIsExact runId now = true) ∧
          s' = s.writeRun now runId r state patch) :
      RunStep s now (.updateRun runId state patch) s'
  | transitioned (hr : s.runs.get? runId = some r) (hexpected : r.state = expected)
      (hrestart : (transitionPatch now state patch).restarts r = false)
      (hstart : state ∉ [RunState.claimed, .admitted])
      (hexact : state = .running → s.runningGenerationIsExact runId now = true)
      (hadmission : state ∈ RunState.nonterminal →
        workAdmissionError (s.workers.get? r.workerId) none = none ∧
          ∀ w, s.workers.get? r.workerId = some w → runIsOwnedByDestructiveClaim w runId = false) :
      RunStep s now (.transitionRunIfState runId expected state patch)
        (s.transitionRun now runId r expected state (transitionPatch now state patch))
  | settled (hr : s.runs.get? runId = some r) (hrunning : r.state = .running)
      (hexact : s.runGenerationIsExact runId r expected = true) :
      RunStep s now (.settleRunIfCurrent runId output summary expected)
        (s.settleRun now runId r output summary)
  | finalizedActive (hfin : s.Finalizes a r) (hrunning : a.state ≠ .running) :
      RunStep s now (.finalizeRunIfStateParallel a) (s.finalizeActive now a r)
  | finalizedInactive (hfin : s.Finalizes a r)
      (hexact : a.state = .running → s.runningGenerationIsExact a.runId now = true) :
      RunStep s now (.finalizeRunIfStateLegacy a) (s.finalizeInactive now a)
  | cancelledPending : RunStep s now (.cancelPendingRuns workerId errorText state)
      (s.cancelPendingRuns now workerId errorText state).store
  | cancelledQueued : RunStep s now (.cancelQueuedRunsForWorker workerId errorText exclude)
      (s.cancelQueuedRunsForWorker now workerId errorText exclude).store
  | retried (hr : s.runs.get? a.runId = some r)
      (hexact : s.retryGenerationIsExact a.runId r a.expected = true)
      (hadmission : workAdmissionError (s.workers.get? r.workerId) none = none)
      (hstate : r.state ∈ retriableRunStates) :
      RunStep s now (.requeueRunForRetry a) (s.retryRun now a r)
  | replaced (hrep : s.Replaces source replacement workerId projectId w r)
      (hins : s.insertRun? replacement
        (s.newRun now replacement workerId projectId w.tenantId instruction .queued) = some s₁) :
      RunStep s now (.replaceQueuedRunIdempotently source replacement workerId projectId instruction)
        (s₁.replaceRun now source replacement workerId w.tenantId (s.replacedLease source workerId))
  | expired (hr : s.runs.get? a.runId = some r) :
      RunStep s now (.expireQueuedRunIfDue a) (s.expireRun now a r)

variable {s : Store} {now : Time}

/-- `create_run` inserts a queued run and names it in the row of its worker. -/
theorem createRun_step {workerId : WorkerId} {projectId : ProjectId} {instruction : String}
    {runId : Option RunId} {structured resumePaused : Bool} {fence : Option AccountFence}
    {bundle : Option JsonValue} :
    s.RunStep now (.createRun workerId projectId instruction runId structured resumePaused fence
      bundle) (s.createRun now workerId projectId instruction runId structured resumePaused fence
      bundle).store := by
  rw [createRun]
  split
  · rw [createRunParallel]
    split
    · exact .unchanged
    · exact .unchanged
    split
    · exact .unchanged
    · rename_i s₁ hins
      exact .created hins
  · rw [createRunLegacy]
    split
    · exact .unchanged
    split
    · exact .unchanged
    split
    · exact .unchanged
    split
    · exact .unchanged
    split
    · exact .unchanged
    dsimp only
    split
    · exact .unchanged
    · rename_i hfenced
      obtain ⟨s₁, hins, rfl, -⟩ := insertFencedRun?_eq_some hfenced
      exact .createdFenced hins

/-- `create_or_get_run_for_schedule` names the run of the schedule in the row of its worker, with
the queued run that it may insert. -/
theorem createOrGetRunForSchedule_step {scheduleId : ScheduleId} {bundle : Option JsonValue}
    {require : Bool} {fence : Option AccountFence} :
    s.RunStep now (.createOrGetRunForSchedule scheduleId bundle require fence)
      (s.createOrGetRunForSchedule now scheduleId bundle require fence).store := by
  rw [createOrGetRunForSchedule]
  split
  · exact .unchanged
  split
  · exact .unchanged
  split
  · split <;> exact .unchanged
  split
  · exact .unchanged
  split
  · exact .unchanged
  split
  · exact .unchanged
  dsimp only
  split
  · split
    · exact (RunStep.scheduled _ _ _ (Or.inl rfl) :)
    · exact .unchanged
  split
  · exact .unchanged
  split
  · exact .unchanged
  split
  · exact .unchanged
  · rename_i s₀ hins
    exact (RunStep.scheduled _ _ _ (Or.inr ⟨s₀, hins, rfl⟩) :)

theorem transitionRunIfState_step {runId : RunId} {expected state : RunState} {patch : RunPatch} :
    s.RunStep now (.transitionRunIfState runId expected state patch)
      (s.transitionRunIfState now runId expected state patch).store := by
  rw [transitionRunIfState]
  split
  · exact .unchanged
  rename_i r hr
  dsimp only
  split
  · exact .unchanged
  rename_i hrestart
  split
  · exact .unchanged
  rename_i hadmission
  split
  · exact .unchanged
  rename_i hstart
  split
  · exact .unchanged
  rename_i hexact
  split
  · exact .unchanged
  rename_i howned
  split
  · exact .unchanged
  rename_i hexpected
  split
  · exact .unchanged
  refine .transitioned hr (by simpa using hexpected) (by simpa using hrestart)
    (by simpa using hstart) (fun h => by simpa [h] using hexact) fun hin => ⟨?_, fun w hw => ?_⟩
  · rwa [if_pos (by simpa using hin)] at hadmission
  · have hnt : oneOf state RunState.terminal = false := by
      rw [oneOf_eq_false, RunState.mem_terminal_iff, not_not]
      exact hin
    rw [hw, Option.any_some, hnt] at howned
    simpa using howned

theorem applyRun_step (s : Store) (now : Time) (op : RunOp) :
    s.RunStep now op (s.applyRun now op) := by
  cases op with
  | createRun => exact createRun_step
  | createOrGetRunForSchedule => exact createOrGetRunForSchedule_step
  | reconcileInvalidRunningRuns => exact .reconciled
  | updateRun runId state patch =>
    rw [applyRun]
    rcases updateRun_cases s now runId state patch with
      hs | ⟨r, hr, hrestart, hmoves, hadmission, hs⟩
    · rw [hs]
      exact .unchanged
    · exact .updated hr hrestart hmoves hadmission hs
  | transitionRunIfState => exact transitionRunIfState_step
  | settleRunIfCurrent =>
    rw [applyRun, settleRunIfCurrent]
    split
    · exact .unchanged
    rename_i r hr
    dsimp only
    split
    · exact .unchanged
    rename_i hok
    split
    · exact .unchanged
    split
    · exact .unchanged
    · simp only [Bool.or_eq_true, bne_iff_ne, Bool.not_eq_true', not_or, not_not,
        Bool.not_eq_false] at hok
      exact .settled hr hok.1 hok.2
  | finalizeRunIfStateParallel a =>
    rw [applyRun]
    rcases finalizeRunIfStateParallel_cases s now a with hs | ⟨r, hfin, hrunning, hs⟩ <;> rw [hs]
    · exact .unchanged
    · exact .finalizedActive hfin hrunning
  | finalizeRunIfStateLegacy a =>
    rw [applyRun]
    rcases finalizeRunIfStateLegacy_cases s now a with hs | ⟨r, hfin, hexact, hs⟩ <;> rw [hs]
    · exact .unchanged
    · exact .finalizedInactive hfin hexact
  | cancelPendingRuns => exact .cancelledPending
  | cancelQueuedRunsForWorker => exact .cancelledQueued
  | requeueRunForRetry =>
    rw [applyRun, requeueRunForRetry]
    split
    · exact .unchanged
    rename_i r hr
    split
    · exact .unchanged
    rename_i hexact
    split
    · exact .unchanged
    rename_i hadmission
    split
    · exact .unchanged
    rename_i hstate
    exact .retried hr (by simpa using hexact) hadmission (by simpa using hstate)
  | replaceQueuedRunIdempotently source replacement workerId projectId instruction =>
    rw [applyRun]
    rcases replaceQueuedRunIdempotently_cases s now source replacement workerId projectId
        instruction with hs | ⟨w, r, s₁, hrep, hins, hs⟩ <;> rw [hs]
    · exact .unchanged
    · exact .replaced hrep hins
  | expireQueuedRunIfDue a =>
    rw [applyRun]
    rcases expireQueuedRunIfDue_cases s now a with ⟨hs, -⟩ | ⟨r, hr, -, -, hs⟩ <;> rw [hs]
    · exact .unchanged
    · exact .expired hr

/-! ## Starts -/

inductive StartStep (s : Store) (now : Time) : StartOp → Store → Prop
  | unchanged : StartStep s now op s
  | claimed (attempts : Table AttemptId Attempt)
      (hclaim : s.claimable now workerId executorId = some (runId, r))
      (hins : s.attempts.insert? s.nextId (s.claimAttempt now runId (s.claimLease workerId runId)) =
        some attempts) :
      StartStep s now (.claimNextQueuedRunParallel workerId executorId ttl)
        (s.claimRun now workerId executorId ttl runId (s.claimLease workerId runId) attempts)
  | swept (hclaim : s.legacyClaimable now workerId require = none)
      (hsweep : sweepUnauthorized now workerId require (s.runs.entries.length + 1) s = (s', none)) :
      StartStep s now (.claimNextQueuedRunLegacy workerId require) s'
  | claimedLegacy (hclaim : s.legacyClaimable now workerId require = some (runId, r))
      (hsweep : sweepUnauthorized now workerId require (s.runs.entries.length + 1) s =
        (s', some runId)) :
      StartStep s now (.claimNextQueuedRunLegacy workerId require) (s'.startLegacy now runId)
  | acquired (leases : Table LeaseId Lease) (capacityAttempts workTrace) (n : ℕ)
      (hnext : s.nextId ≤ n) : StartStep s now (.acquireHostRunLease a)
        { s with leases, capacityAttempts, workTrace, nextId := n }
  | heartbeat : StartStep s now
      (.heartbeatHostRunLease leaseId executorId identity ttl reconciled allowExpired)
      (s.heartbeatHostRunLease now leaseId executorId identity ttl reconciled allowExpired).store
  | released (p : LeaseId → Lease → Bool) (reason : String) :
      StartStep s now op (s.updateLeases p (Lease.release now reason))
  /-- The lease of a dead executor goes with its run. -/
  | lost (hr : s.runs.get? runId = some r) (hattempt : r.activeAttemptId = attemptId) :
      StartStep s now (.reconcileDeadHostRunLease leaseId runId attemptId executorId reason)
        (s.downgradeUnprovenRunning runId r now
          (if reason == "" then "dead_host_run_lease" else reason))
  | admitted (hadmission : s.admittable now runId leaseId executorId = some (attemptId, l)) :
      StartStep s now (.admitClaimedRun runId leaseId executorId)
        (s.admitGeneration now runId leaseId l attemptId)
  | invoked (hr : s.runs.get? runId = some r)
      (hl : s.presentedLease now runId leaseId executorId = some l)
      (hgen : s.admittedGeneration now runId r leaseId l = some attemptId) :
      StartStep s now (.markRunRuntimeInvoked runId leaseId executorId)
        (s.invokeGeneration now runId r leaseId attemptId (invokedRow now))
  | unproven (hr : s.runs.get? a.runId = some r) (hworker : r.workerId = a.workerId) :
      StartStep s now (.confirmHostRunStart a)
        (s.downgradeUnprovenRunning a.runId r now "running_invariant_reconciled")
  | confirmed (hconfirms : s.Confirms now a w r l) (hallow : a.allowRuntimeInvocation = true)
      (hgen : s.admittedGeneration now a.runId r a.leaseId l = some attemptId) :
      StartStep s now (.confirmHostRunStart a)
        ((s.invokeGeneration now a.runId r a.leaseId attemptId (Run.invoke now)).publishStart now a
          r)
  | confirmedRunning (hconfirms : s.Confirms now a w r l) :
      StartStep s now (.confirmHostRunStart a) (s.publishStart now a r)
  | unconfirmed (hattempt : s.unconfirmedAttempt runId leaseId = none) :
      StartStep s now (.markHostRunStartTerminationUnconfirmed leaseId runId executorId token)
        (s.updateLeases (unconfirmable leaseId runId executorId token) fun l =>
          { l with startupState := .terminationUnconfirmed, heartbeatAt := now })
  | unconfirmedSettling (hattempt : s.unconfirmedAttempt runId leaseId = some attemptId) :
      StartStep s now (.markHostRunStartTerminationUnconfirmed leaseId runId executorId token)
        ((s.updateLeases (unconfirmable leaseId runId executorId token) fun l =>
          { l with startupState := .terminationUnconfirmed, heartbeatAt := now }).settleGeneration
            now runId leaseId attemptId)
  | requeued (hr : s.requeuable workerId runId leaseId token = some r) :
      StartStep s now
        (.requeueUnconfirmedHostRunStart workerId runId leaseId token retryAfter errorText)
        (s.requeueGeneration now workerId runId leaseId token retryAfter errorText r)

theorem confirmHostRunStart_step {a : ConfirmStart} :
    s.StartStep now (.confirmHostRunStart a) (s.confirmHostRunStart now a).store := by
  unfold confirmHostRunStart
  split
  · exact .unchanged
  split
  · rename_i w r l hw hr hl
    obtain ⟨hr, hworker⟩ := Option.filter_eq_some_iff.mp hr
    obtain ⟨hl, -⟩ := Option.filter_eq_some_iff.mp hl
    dsimp only
    generalize hadmitted : (if a.allowRuntimeInvocation then
      s.admittedGeneration now a.runId r a.leaseId l else none) = admitted
    generalize (s.runningGeneration a.runId r a.leaseId l a.runStartedAt &&
      r.endedAt.isNone) = running
    by_cases hok : (a.exactLease now l && (admitted.isSome || running) && workerAllowsStart w) = true
    · rw [hok]
      simp only [Bool.not_true, Bool.false_eq_true, if_false]
      rw [Bool.and_eq_true, Bool.and_eq_true] at hok
      obtain ⟨⟨hexact, -⟩, hallow⟩ := hok
      have hconfirms : s.Confirms now a w r l :=
        ⟨hw, hallow, hr, by simpa using hworker, hl, hexact⟩
      split
      · exact .unchanged
      split
      · exact .unchanged
      cases admitted with
      | some =>
        split at hadmitted
        · rename_i hallowed
          exact .confirmed hconfirms hallowed hadmitted
        · cases hadmitted
      | none => exact .confirmedRunning hconfirms
    · rw [Bool.not_eq_true] at hok
      rw [hok]
      simp only [Bool.not_false, if_true, Outcome.store_commit]
      split
      · exact .unproven hr (by simpa using hworker)
      · exact .unchanged
  · exact .unchanged

theorem acquireHostRunLease_step {a : AcquireLease} :
    s.StartStep now (.acquireHostRunLease a) (s.acquireHostRunLease now a).store := by
  obtain ⟨_, _, _, _, hnext, h⟩ := acquireHostRunLease_store s now a
  rw [h]
  exact .acquired _ _ _ _ hnext

theorem applyStart_step (s : Store) (now : Time) (op : StartOp) :
    s.StartStep now op (s.applyStart now op) := by
  cases op with
  | claimNextQueuedRunParallel workerId executorId ttl =>
    rw [applyStart]
    rcases claimNextQueuedRunParallel_cases s now workerId executorId ttl with
      ⟨hs, -⟩ | ⟨runId, r, attempts, hclaim, hins, -, hs⟩ <;> rw [hs]
    · exact .unchanged
    · exact .claimed attempts hclaim hins
  | claimNextQueuedRunLegacy workerId require =>
    rw [applyStart]
    rcases claimNextQueuedRunLegacy_cases s now workerId require with
      ⟨hs, -⟩ | ⟨s', hsweep, -, hs⟩ <;> rw [hs]
    · exact .unchanged
    · cases hclaim : s.legacyClaimable now workerId require with
      | none => exact .swept hclaim (by rw [hsweep, hclaim]; rfl)
      | some => exact .claimedLegacy hclaim (by rw [hsweep, hclaim]; rfl)
  | acquireHostRunLease => exact acquireHostRunLease_step
  | heartbeatHostRunLease => exact .heartbeat
  | releaseHostRunLease => exact .released _ _
  | reconcileDeadHostRunLease =>
    rw [applyStart, reconcileDeadHostRunLease]
    dsimp only
    split
    · exact .unchanged
    simp only [Outcome.store_commit]
    split
    · rename_i hr
      obtain ⟨hr, hok⟩ := Option.filter_eq_some_iff.mp hr
      exact .lost hr (by simpa using (Bool.and_eq_true_iff.mp hok).2)
    · exact .released _ _
  | releaseExpiredPreacceptHostRunLease => exact .released _ _
  | admitClaimedRun =>
    rw [applyStart, admitClaimedRun]
    split
    · exact .unchanged
    · rename_i hadmission
      exact .admitted hadmission
  | markRunRuntimeInvoked runId leaseId executorId =>
    rw [applyStart]
    rcases markRunRuntimeInvoked_cases s now runId leaseId executorId with hs
        | ⟨r, l, attemptId, hr, hl, hgen, hs⟩ <;> rw [hs]
    · exact .unchanged
    · exact .invoked hr hl hgen
  | confirmHostRunStart => exact confirmHostRunStart_step
  | markHostRunStartTerminationUnconfirmed leaseId runId executorId token =>
    rw [applyStart]
    rcases markHostRunStartTerminationUnconfirmed_cases s now runId leaseId executorId token with hs
        | hs <;> rw [hs]
    · exact .unchanged
    dsimp only
    split
    · rename_i hattempt
      exact .unconfirmed hattempt
    · rename_i hattempt
      exact .unconfirmedSettling hattempt
  | requeueUnconfirmedHostRunStart workerId runId leaseId token retryAfter errorText =>
    rw [applyStart]
    rcases requeueUnconfirmedHostRunStart_cases s now workerId runId leaseId token retryAfter
        errorText with hs | ⟨r, hr, hs⟩ <;> rw [hs]
    · exact .unchanged
    · exact .requeued hr

/-! ## Claims on compute -/

/-- How the transactions on claims move the worker `id`. -/
def lifecycleMoves (s : Store) (now : Time) (id : WorkerId) (w w' : Worker) : LifecycleOp → Prop
  | .tryClaimWorkerComputeRelease a =>
    id = a.workerId ∧ s.claimAllowed now w a = true ∧ a.invalid = none ∧
      w'.state = claimedState a.kind w.state ∧
      ((w.release.token.isSome = true ∧
          w.Advanced w' (a.takeOver now s.nextId w.release) ∧ w'.workStop = w.workStop) ∨
        w.release.token = none ∧ s.observed w a = true ∧
          w.Advanced w' (a.release now s.nextId (s.nextId + 1) w.release) ∧
          w'.workStop = requestedStop a.kind now (s.nextId + 1) w.workStop ∧
          (s.tryClaimWorkerComputeRelease now a).store.nextId = s.nextId + 2)
  | .confirmWorkerControlRuntimeEffect workerId token epoch kind target =>
    id = workerId ∧ w.ownedBy token epoch = true ∧ w.release.kind = some kind ∧
      w.release.targetRunId = target ∧
      ∃ proof t, w' = { w with
        release := { w.release with runtimeConfirmedAt := some t, runtimeProofDigest := proof }
        updatedAt := t }
  | .rebindWorkerTerminationClaimGeneration workerId token epoch containerId =>
    id = workerId ∧ w.ownedBy token epoch = true ∧ w.release.kind = some .terminateWorker ∧
      w'.state = w.state ∧ w'.workStop = w.workStop ∧
      w.Advanced w' { w.release with containerId := containerId }
  | .rebindWorkerComputeReleaseClaimGeneration workerId token epoch kind containerId =>
    id = workerId ∧ w.ownedBy token epoch = true ∧ w.release.kind = some kind ∧
      w.release.scope = .computeOnly ∧ w'.state = w.state ∧ w'.workStop = w.workStop ∧
      w.Advanced w' { w.release with containerId := containerId }
  | .abandonWorkerRunControlClaim workerId token epoch kind target workerState _ =>
    id = workerId ∧ w.ownedBy token epoch = true ∧ kind ∈ [OperationKind.resumeRun, .resumeWorker] ∧
      w.release.kind = some kind ∧ w.release.targetRunId = target ∧ w'.workStop = w.workStop ∧
      w.Settled w' workerState
  | .abandonStaleWorkerComputeReleaseClaim workerId token epoch kind =>
    id = workerId ∧ w.ownedBy token epoch = true ∧ kind ∈ staleKinds ∧
      w.release.kind = some kind ∧ w.release.scope = .computeOnly ∧ w'.workStop = w.workStop ∧
      w.Settled w' (s.demandState workerId w.state)
  | .finalizeWorkerComputeRelease workerId token epoch kind target _ _ idleState =>
    id = workerId ∧ kind ∈ computeOnlyKinds ∧
      s.ownedWorkerFor workerId token epoch kind target = some w ∧ w'.workStop = w.workStop ∧
      w.Settled w' (s.releasedState workerId w kind target idleState)
  | .finalizeWorkerOperationClaim workerId token epoch _ target _ _ _ _ _ _ =>
    id = workerId ∧ s.ownedWorkerFor workerId token epoch .maxDuration (some target) = some w ∧
      w'.workStop = w.workStop ∧ w.Settled w' w'.state
  | .finalizeWorkerWorkStopClaim workerId token epoch target _ _ _ =>
    id = workerId ∧ (∃ r, s.Stoppable workerId token epoch target w r) ∧ w.Settled w' .ready
  | .finalizeWorkerRunControlClaim a =>
    id = a.workerId ∧ w'.workStop = w.workStop ∧ ∃ r, s.Controls a w r ∧
      (w.state ∉ WorkerState.closed ∧ r.state ∈ RunState.terminal ∧ w.Settled w' .ready ∨
        r.state ∉ RunState.terminal ∧ w.Settled w' a.workerState)
  | .finalizeWorkerSteerClaim a =>
    id = a.workerId ∧ w'.workStop = w.workStop ∧ (∃ r q, s.Steers a w r q) ∧
      (w.Settled w' .starting ∨ w.Settled w' .ready)
  | .finalizeWorkerTerminationClaim workerId token epoch .. =>
    id = workerId ∧ s.ownedWorker workerId token epoch .terminateWorker = some w ∧
      w'.workStop = w.workStop ∧ w.Settled w' .terminated

inductive LifecycleStep (s : Store) (now : Time) : LifecycleOp → Store → Prop
  | unchanged : LifecycleStep s now op s
  /-- The row of a claim is confirmed, rebound or cleared. -/
  | changedRow (p : WorkerId → Worker → Bool) (f : Worker → Worker)
      (hop : op.presents = some (token, releaseEpoch)) (hany : s.workers.any p = true)
      (hp : ∀ id w, p id w = true → (id = op.workerId ∧ w.ownedBy token releaseEpoch = true) ∧
        s.lifecycleMoves now id w (f w) op)
      (howner : ∀ w, (f w).ownerId = w.ownerId) : LifecycleStep s now op (s.updateWorkers p f)
  | takenOver (actions : Table RowId ActiveWorkAction) (hw : s.workers.get? a.workerId = some w)
      (hallowed : s.claimAllowed now w a = true) (hvalid : a.invalid = none)
      (htoken : w.release.token.isSome = true) :
      LifecycleStep s now (.tryClaimWorkerComputeRelease a)
        { s.drawId.updateWorkers (fun id v => id == a.workerId &&
            v.release.token == w.release.token && v.releaseEpoch == w.releaseEpoch)
            (takenOverRow now a s.nextId) with activeWorkActions := actions }
  | claimed (actions : Table RowId ActiveWorkAction) (hw : s.workers.get? a.workerId = some w)
      (hallowed : s.claimAllowed now w a = true)
      (hreserve : s.drawId.drawId.reserveReplacement now w a = some (some s'))
      (hvalid : a.invalid = none) (htoken : w.release.token = none)
      (hobserved : s.observed w a = true) : LifecycleStep s now (.tryClaimWorkerComputeRelease a)
        { s'.updateWorkers (fun id v => id == a.workerId && v.release.token.isNone)
            (claimedRow now a s.nextId (s.nextId + 1)) with activeWorkActions := actions }
  | released (hw : s.ownedWorkerFor workerId token releaseEpoch kind target = some w)
      (hkind : kind ∈ computeOnlyKinds) :
      LifecycleStep s now (.finalizeWorkerComputeRelease workerId token releaseEpoch kind target
        releasedAt fields idleState)
        (s.releaseCompute now workerId token releaseEpoch kind target releasedAt fields idleState w)
  | finished (hterminal : state ∈ RunState.terminal)
      (hw : s.ownedWorkerFor workerId token releaseEpoch .maxDuration (some target) = some w) :
      LifecycleStep s now (.finalizeWorkerOperationClaim workerId token releaseEpoch kind target
        expected state errorText fields idleState releasedAt)
        (s.finishOperation now workerId token releaseEpoch target expected state errorText fields
          idleState releasedAt w)
  | stopped (hstop : s.Stoppable workerId token releaseEpoch target w r) :
      LifecycleStep s now (.finalizeWorkerWorkStopClaim workerId token releaseEpoch target fields
        releasedAt errorText)
        (s.finishStop now workerId token releaseEpoch target fields releasedAt errorText w
          (stopCancels w r))
  | controlSuppressed (hctl : s.Controls a w r) (hterminal : r.state ∈ RunState.terminal)
      (hopen : w.state ∉ WorkerState.closed) :
      LifecycleStep s now (.finalizeWorkerRunControlClaim a) (s.controlTerminalWon now a w)
  | controlled (hctl : s.Controls a w r) (hlive : r.state ∉ RunState.terminal)
      (hcontrol : s.controllable now a w r = true) :
      LifecycleStep s now (.finalizeWorkerRunControlClaim a) (s.finishControl now a w r)
  | steerInterrupted (hsteers : s.Steers a w r q) (queued : Bool) :
      LifecycleStep s now (.finalizeWorkerSteerClaim a) (s.finishInterruptedSteer now a w queued)
  | steerSuppressed (hsteers : s.Steers a w r q) (hterminal : r.state ∈ RunState.terminal) :
      LifecycleStep s now (.finalizeWorkerSteerClaim a) (s.steerTerminalWon now a w)
  | steered (hsteers : s.Steers a w r q) (hlive : r.state ∉ RunState.terminal) (queued : Bool) :
      LifecycleStep s now (.finalizeWorkerSteerClaim a) (s.finishSteer now a w queued)
  | terminated (hw : s.ownedWorker workerId token releaseEpoch .terminateWorker = some w) :
      LifecycleStep s now (.finalizeWorkerTerminationClaim workerId token releaseEpoch releasedAt fields
        errorText)
        (s.finishTermination now workerId token releaseEpoch releasedAt fields errorText w)

theorem finalizeWorkerSteerClaim_step {a : FinalizeSteer} :
    s.LifecycleStep now (.finalizeWorkerSteerClaim a) (s.finalizeWorkerSteerClaim now a).store := by
  rcases finalizeWorkerSteerClaim_cases s now a with hs | ⟨w, r, q, hsteers⟩
  · rw [hs]
    exact .unchanged
  rw [finalizeWorkerSteerClaim_of_steers hsteers]
  split
  · exact .steerInterrupted hsteers _
  split
  · rename_i hterminal
    exact .steerSuppressed hsteers hterminal
  rename_i hlive
  split
  · exact .steered hsteers hlive _
  · exact .unchanged

theorem applyLifecycle_step (s : Store) (now : Time) (op : LifecycleOp) :
    s.LifecycleStep now op (s.applyLifecycle now op) := by
  cases op with
  | tryClaimWorkerComputeRelease a =>
    rw [applyLifecycle]
    rcases tryClaimWorkerComputeRelease_cases s now a with
      ⟨hs, -⟩ | ⟨w, hvalid, hw, hallowed,
        ⟨htoken, actions, hs⟩ | ⟨htoken, hobserved, s', actions, hreserve, hs⟩⟩ <;> rw [hs]
    · exact .unchanged
    · exact .takenOver actions hw hallowed hvalid htoken
    · exact .claimed actions hw hallowed hreserve hvalid htoken hobserved
  | confirmWorkerControlRuntimeEffect =>
    rw [applyLifecycle, confirmWorkerControlRuntimeEffect]
    dsimp only
    split
    · rename_i hany
      refine .changedRow _ _ rfl hany (fun id w hp => ?_) fun _ => rfl
      simp only [Bool.and_eq_true, beq_iff_eq] at hp
      obtain ⟨⟨⟨⟨hid, howned⟩, hkind⟩, htarget⟩, -⟩ := hp
      exact ⟨⟨hid, howned⟩, hid, howned, hkind, htarget, _, now, rfl⟩
    · exact .unchanged
  | rebindWorkerTerminationClaimGeneration =>
    rw [applyLifecycle, rebindWorkerTerminationClaimGeneration]
    dsimp only
    split
    · rename_i hany
      refine .changedRow _ _ rfl hany (fun id w hp => ?_) fun _ => rfl
      simp only [Bool.and_eq_true, beq_iff_eq] at hp
      obtain ⟨⟨⟨⟨hid, howned⟩, hkind⟩, -⟩, -⟩ := hp
      exact ⟨⟨hid, howned⟩, hid, howned, hkind, rfl, rfl, rfl, rfl⟩
    · exact .unchanged
  | rebindWorkerComputeReleaseClaimGeneration =>
    rw [applyLifecycle, rebindWorkerComputeReleaseClaimGeneration]
    dsimp only
    split
    · exact .unchanged
    split
    · rename_i hany
      refine .changedRow _ _ rfl hany (fun id w hp => ?_) fun _ => rfl
      simp only [Bool.and_eq_true, beq_iff_eq] at hp
      obtain ⟨⟨⟨hid, howned⟩, hkind⟩, hscope⟩ := hp
      exact ⟨⟨hid, howned⟩, hid, howned, hkind, hscope, rfl, rfl, rfl, rfl⟩
    · exact .unchanged
  | abandonWorkerRunControlClaim =>
    rw [applyLifecycle, abandonWorkerRunControlClaim]
    dsimp only
    split
    · exact .unchanged
    rename_i hkinds
    split
    · rename_i hany
      refine .changedRow _ _ rfl hany (fun id w hp => ?_) fun _ => rfl
      simp only [Bool.and_eq_true, beq_iff_eq] at hp
      obtain ⟨⟨⟨hid, howned⟩, hkind⟩, htarget⟩ := hp
      exact ⟨⟨hid, howned⟩, hid, howned, by simpa [-List.mem_cons] using hkinds, hkind, htarget, rfl,
        rfl, rfl, rfl⟩
    · exact .unchanged
  | abandonStaleWorkerComputeReleaseClaim =>
    rw [applyLifecycle, abandonStaleWorkerComputeReleaseClaim]
    dsimp only
    split
    · exact .unchanged
    rename_i hkinds
    split
    · rename_i hany
      refine .changedRow _ _ rfl hany (fun id w hp => ?_) fun _ => rfl
      simp only [Bool.and_eq_true, beq_iff_eq] at hp
      obtain ⟨⟨⟨rfl, howned⟩, hkind⟩, hscope⟩ := hp
      exact ⟨⟨rfl, howned⟩, rfl, howned, by simpa using hkinds, hkind, hscope, rfl, rfl, rfl, rfl⟩
    · exact .unchanged
  | finalizeWorkerComputeRelease =>
    rw [applyLifecycle, finalizeWorkerComputeRelease]
    split
    · exact .unchanged
    rename_i hkind
    split
    · exact .unchanged
    · rename_i hw
      exact .released hw (by simpa using hkind)
  | finalizeWorkerOperationClaim workerId token epoch kind target expected state errorText fields
      idleState releasedAt =>
    rw [applyLifecycle]
    rcases finalizeWorkerOperationClaim_cases s now workerId token epoch kind target expected state
        errorText fields idleState releasedAt with hs | ⟨w, -, hterminal, hw, hs⟩ <;> rw [hs]
    · exact .unchanged
    · exact .finished hterminal hw
  | finalizeWorkerWorkStopClaim workerId token epoch target fields releasedAt errorText =>
    rw [applyLifecycle]
    rcases finalizeWorkerWorkStopClaim_cases s now workerId token epoch target fields releasedAt
        errorText with ⟨hs, -⟩ | ⟨w, r, hstop, hs⟩ <;> rw [hs]
    · exact .unchanged
    · exact .stopped hstop
  | finalizeWorkerRunControlClaim a =>
    rw [applyLifecycle]
    rcases finalizeWorkerRunControlClaim_cases s now a with
      hs | ⟨w, r, hctl, ⟨hterminal, hopen, hs⟩ | ⟨hlive, hcontrol, hs⟩⟩ <;> rw [hs]
    · exact .unchanged
    · exact .controlSuppressed hctl hterminal hopen
    · exact .controlled hctl hlive hcontrol
  | finalizeWorkerSteerClaim => exact finalizeWorkerSteerClaim_step
  | finalizeWorkerTerminationClaim =>
    rw [applyLifecycle, finalizeWorkerTerminationClaim]
    split
    · exact .unchanged
    · rename_i hw
      exact .terminated hw

/-! ## Requests -/

inductive RequestStep (s : Store) (now : Time) : RequestOp → Store → Prop
  | unchanged : RequestStep s now op s
  | cancelled : RequestStep s now (.claimProviderRequestCancel requestId)
      (s.cancelRequest now requestId)
  | cancelledRun : RequestStep s now (.claimProviderRequestCancel requestId)
      ((s.cancelRequest now requestId).cancelRequestedRun now runId workerId
        fun id r => id == runId && s.cancellable id r)
  | cancelledAttention : RequestStep s now (.reconcileCancelledProviderNeedsInputRuns workerId only)
      (s.cancelAttention now workerId only)
  | recorded (requests : Table RequestId ProviderRequest) :
      RequestStep s now (.arbitrateProviderRequestDeadline requestId timeout f) { s with requests }
  | overdue (requests : Table RequestId ProviderRequest)
      (hdue : s.overdueRun now requestId timeout = some (runId, r)) :
      RequestStep s now (.arbitrateProviderRequestDeadline requestId timeout f)
        (Store.failOverdueRun { s with requests } now runId r f)
  | resumed (operationId : OperationId) :
      RequestStep s now (.resumeNeedsInputActiveWorkAction actionUseId workerId runId executorId)
        (s.resumeRun now actionUseId executorId operationId workerId w runId r)
  | resumedQueued (operationId : OperationId) :
      RequestStep s now (.resumeNeedsInputActiveWorkAction actionUseId workerId runId executorId)
        (s.drawId.recordResume now actionUseId executorId operationId workerId w runId r)

theorem applyRequest_step (s : Store) (now : Time) (op : RequestOp) :
    s.RequestStep now op (s.applyRequest now op) := by
  cases op with
  | claimProviderRequestCancel requestId =>
    rw [applyRequest]
    rcases claimProviderRequestCancel_cases s now requestId with
      ⟨hs, -⟩ | ⟨q, -, -, hs⟩ <;> rw [hs]
    · exact .unchanged
    split
    · exact .cancelled
    · exact .cancelledRun
  | reconcileCancelledProviderNeedsInputRuns =>
    rw [applyRequest, reconcileCancelledProviderNeedsInputRuns]
    split
    · exact .unchanged
    · exact .cancelledAttention
  | arbitrateProviderRequestDeadline requestId timeout f =>
    rw [applyRequest]
    obtain ⟨requests, hs⟩ := arbitrateProviderRequestDeadline_cases s now requestId timeout f
    rw [hs]
    split
    · exact .recorded requests
    · rename_i hdue
      exact .overdue requests hdue
  | resumeNeedsInputActiveWorkAction actionUseId workerId runId executorId =>
    rw [applyRequest]
    rcases resumeNeedsInputActiveWorkAction_cases s now actionUseId workerId runId executorId with
      hs | ⟨u, w, r, -, ⟨-, -, hs⟩ | ⟨-, hs⟩⟩ <;> rw [hs]
    · exact .unchanged
    · exact .resumed _
    · exact .resumedQueued _

end Store

end GlassHive
