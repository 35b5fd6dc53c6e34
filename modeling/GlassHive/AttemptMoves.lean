import GlassHive.RunMoves

/-!
# How transactions move attempts

Only a parallel claim opens an attempt, for a queued run. No transaction deletes an attempt, opens
it again, or gives it to another run, and only the two invocations of a runtime set the time of its
invocation.
-/

namespace GlassHive

open Relational

/-- While an attempt runs, its runtime has been invoked. -/
def Attempt.RunsInvoked (t : Attempt) : Prop :=
  t.endedAt = none → t.state = .of .running → t.runtimeInvokedAt.isSome = true

/-- How an attempt goes on. Its runtime is invoked only where `I` says so. -/
structure Attempt.Follows (I : Prop) (t t' : Attempt) : Prop where
  runId : t'.runId = t.runId
  attemptNumber : t'.attemptNumber = t.attemptNumber
  claimedAt : t'.claimedAt = t.claimedAt
  ended : t.endedAt.isSome = true → t'.endedAt.isSome = true
  runtimeInvokedAt : t'.runtimeInvokedAt = t.runtimeInvokedAt ∨ I
  invoked : t.runtimeInvokedAt.isSome = true → t'.runtimeInvokedAt.isSome = true
  running : t.RunsInvoked → t'.RunsInvoked

namespace Attempt

variable {I : Prop} {t t' t'' : Attempt} {now : Time} {state : AttemptState} {reason : String}

/-- An attempt without an end runs no more when it has one. -/
theorem runsInvoked_of_ended (h : t.endedAt.isSome = true) : t.RunsInvoked := by
  intro hnone
  rw [hnone] at h
  cases h

theorem follows_refl : t.Follows I t :=
  ⟨rfl, rfl, rfl, fun h => h, Or.inl rfl, fun h => h, fun h => h⟩

theorem Follows.trans (h : t.Follows I t') (h' : t'.Follows I t'') : t.Follows I t'' where
  runId := h'.runId.trans h.runId
  attemptNumber := h'.attemptNumber.trans h.attemptNumber
  claimedAt := h'.claimedAt.trans h.claimedAt
  ended hended := h'.ended (h.ended hended)
  runtimeInvokedAt := by
    rcases h'.runtimeInvokedAt with heq | hI
    · exact heq ▸ h.runtimeInvokedAt
    · exact Or.inr hI
  invoked hinvoked := h'.invoked (h.invoked hinvoked)
  running hruns := h'.running (h.running hruns)

/-- An attempt that ends keeps its run, its claim and its invocation. -/
theorem follows_of_ended (hrun : t'.runId = t.runId) (hnumber : t'.attemptNumber = t.attemptNumber)
    (hclaimed : t'.claimedAt = t.claimedAt) (hinvoked : t'.runtimeInvokedAt = t.runtimeInvokedAt)
    (hended : t'.endedAt.isSome = true) : t.Follows I t' where
  runId := hrun
  attemptNumber := hnumber
  claimedAt := hclaimed
  ended _ := hended
  runtimeInvokedAt := Or.inl hinvoked
  invoked h := by rw [hinvoked, h]
  running _ := runsInvoked_of_ended hended

theorem follows_finish : t.Follows I (t.finish now state reason) :=
  follows_of_ended rfl rfl rfl rfl rfl

theorem follows_retire : t.Follows I (t.retire now state reason) := by
  refine follows_of_ended rfl rfl rfl rfl ?_
  rw [retire]
  cases h : t.endedAt with
  | none => rfl
  | some => rfl

/-- An attempt that moves to a state in which it does not run. -/
theorem follows_of_not_running (hrun : t'.runId = t.runId)
    (hnumber : t'.attemptNumber = t.attemptNumber) (hclaimed : t'.claimedAt = t.claimedAt)
    (hended : t'.endedAt = t.endedAt) (hinvoked : t'.runtimeInvokedAt = t.runtimeInvokedAt)
    (hstate : t'.state ≠ .of .running) : t.Follows I t' where
  runId := hrun
  attemptNumber := hnumber
  claimedAt := hclaimed
  ended h := by rw [hended, h]
  runtimeInvokedAt := Or.inl hinvoked
  invoked h := by rw [hinvoked, h]
  running _ := fun _ h => absurd h hstate

end Attempt

namespace Store

/-- The attempt whose runtime a transaction invokes. -/
def Invokes (s : Store) (c : Call) (id : AttemptId) : Prop :=
  match c.op with
  | .start (.markRunRuntimeInvoked runId leaseId executorId) =>
    ∃ r l, s.runs.get? runId = some r ∧ s.presentedLease c.now runId leaseId executorId = some l ∧
      s.admittedGeneration c.now runId r leaseId l = some id
  | .start (.confirmHostRunStart a) =>
    a.allowRuntimeInvocation = true ∧ ∃ v r l, s.Confirms c.now a v r l ∧
      s.admittedGeneration c.now a.runId r a.leaseId l = some id
  | _ => False

/-- The attempt that a transaction opens. -/
def Opens (s : Store) (c : Call) (id : AttemptId) (t : Attempt) : Prop :=
  match c.op with
  | .start (.claimNextQueuedRunParallel workerId executorId _) =>
    ∃ runId r, s.claimable c.now workerId executorId = some (runId, r) ∧ id = s.nextId ∧
      t = s.claimAttempt c.now runId (s.claimLease workerId runId)
  | _ => False

/-- The attempts of `s'` go on from those of `s`. `I` says which may be invoked, and `N` which may
be new. -/
structure AttemptsFollow (s s' : Store) (I : AttemptId → Prop) (N : AttemptId → Attempt → Prop) :
    Prop where
  kept : ∀ id t, s.attempts.get? id = some t →
    ∃ t', s'.attempts.get? id = some t' ∧ t.Follows (I id) t'
  fresh : ∀ id t', s.attempts.get? id = none → s'.attempts.get? id = some t' → N id t'

/-! ## Rules -/

section Rules

variable {s s' s'' : Store} {I : AttemptId → Prop} {N : AttemptId → Attempt → Prop}

theorem attemptsFollow_of_eq (h : s'.attempts = s.attempts) : s.AttemptsFollow s' I N where
  kept id t ht := ⟨t, by rw [h, ht], Attempt.follows_refl⟩
  fresh id t' hnone ht' := by
    rw [h, hnone] at ht'
    cases ht'

theorem attemptsFollow_refl : s.AttemptsFollow s I N :=
  attemptsFollow_of_eq rfl

theorem attemptsFollow_update {p : AttemptId → Attempt → Bool} {f : Attempt → Attempt}
    (h : s'.attempts = s.attempts.update p fun _ => f)
    (hf : ∀ id t, s.attempts.get? id = some t → p id t = true → t.Follows (I id) (f t)) :
    s.AttemptsFollow s' I N where
  kept id t ht := by
    refine ⟨if p id t then f t else t, by rw [h, Table.get?_update, ht, Option.map_some], ?_⟩
    split
    · rename_i hp
      exact hf id t ht hp
    · exact Attempt.follows_refl
  fresh id t' hnone ht' := by
    rw [h, Table.get?_update, hnone] at ht'
    cases ht'

theorem AttemptsFollow.trans (h : s.AttemptsFollow s' I N)
    (h' : s'.AttemptsFollow s'' I fun _ _ => False)
    (hN : ∀ id t t', N id t → t.Follows (I id) t' → N id t') : s.AttemptsFollow s'' I N where
  kept id t ht := by
    obtain ⟨t', ht', hfollows⟩ := h.kept id t ht
    obtain ⟨t'', ht'', hfollows'⟩ := h'.kept id t' ht'
    exact ⟨t'', ht'', hfollows.trans hfollows'⟩
  fresh id t'' hnone ht'' := by
    cases ht' : s'.attempts.get? id with
    | none => exact (h'.fresh id t'' ht' ht'').elim
    | some t' =>
      obtain ⟨t₂, ht₂, hfollows⟩ := h'.kept id t' ht'
      obtain rfl := Option.some.inj (ht''.symm.trans ht₂)
      exact hN id t' t'' (h.fresh id t' hnone ht') hfollows

end Rules

/-! ## What some transactions write over attempts -/

section Rows

variable {s : Store} {now : Time} {runId : RunId}

theorem attempts_finalizeLinkedScheduleForTerminalRun (state : RunState) (errorText : String) :
    (s.finalizeLinkedScheduleForTerminalRun runId state errorText now).attempts = s.attempts := by
  rw [finalizeLinkedScheduleForTerminalRun]
  split <;> rfl

theorem attempts_finalizeActive (a : FinalizeRun) (r : Run) :
    (s.finalizeActive now a r).attempts = s.attempts.update
      (fun id t => some id == r.activeAttemptId && t.endedAt.isNone)
      fun _ => Attempt.finish now (.of a.state)
        (finalizedReason a.state (terminalFailureFields a.state a.failure)) := by
  rw [finalizeActive]
  split
  · rw [recordTerminalArtifactTraces_attempts, attempts_finalizeLinkedScheduleForTerminalRun]
    rfl
  · rfl

theorem attempts_retryRun (a : RequeueRetry) (r : Run) :
    (s.retryRun now a r).attempts = s.attempts.update
      (fun id t => some id == r.activeAttemptId && t.endedAt.isNone)
      fun _ t => { Attempt.finish now .retryQueued a.retryClass t with capacity := a.capacity } := by
  rw [retryRun]
  obtain ⟨_, _, h⟩ := recordRetryCapacity_eq
      (Store.appendAttemptTraces _ now r.activeAttemptId.toList) now a r
  rw [h]
  rfl

variable {leaseId : LeaseId} {attemptId : AttemptId} {r : Run}

theorem attempts_admitGeneration {l : Lease} :
    (s.admitGeneration now runId leaseId l attemptId).attempts = s.attempts.update
      (fun id t => id == attemptId && t.runId == runId && t.state == .of .claimed &&
        (t.leaseId.isNone || t.leaseId == some leaseId) && t.endedAt.isNone)
      fun _ t => { t with
        state := .of .admitted, admittedAt := some now, leaseId := some leaseId,
        capacity := { t.capacity with reservation := some l.reserved } } := rfl

theorem attempts_settleGeneration :
    (s.settleGeneration now runId leaseId attemptId).attempts = s.attempts.update
      (fun id t => id == attemptId && t.runId == runId && t.state == .of .running &&
        t.leaseId == some leaseId && t.endedAt.isNone)
      fun _ t => { t with state := .of .settling } := rfl

theorem attempts_invokeGeneration {f : Run → Run} :
    (s.invokeGeneration now runId r leaseId attemptId f).attempts = s.attempts.update
      (fun id t => id == attemptId && t.runId == runId && t.state == .of .admitted &&
        t.leaseId == some leaseId && t.runtimeInvokedAt.isNone && t.endedAt.isNone)
      fun _ t => { t with state := .of .running, runtimeInvokedAt := some now } := rfl

theorem attempts_requeueGeneration {workerId : WorkerId} {token : Token} {retryAfter : Time}
    {errorText : String} :
    (s.requeueGeneration now workerId runId leaseId token retryAfter errorText r).attempts =
      s.attempts.update (fun id t => some id == r.activeAttemptId && t.endedAt.isNone)
        fun _ => Attempt.finish now .retryQueued "service_startup_fenced" := rfl

theorem attempts_moveTarget (a : FinalizeControl) (r : Run) :
    (s.moveTarget now a r).attempts = s.attempts.update
      (fun id t => some id == a.restartAttempt r && restartable a.target t)
      fun _ => Attempt.finish now .retryQueued "host_pause_resume_restart" := by
  rw [moveTarget]
  split <;> rfl

theorem attempts_finishControl {w : Worker} (a : FinalizeControl) (r : Run) :
    (s.finishControl now a w r).attempts = (s.moveTarget now a r).attempts := rfl

theorem attempts_failOverdueRun (r : Run) (f : DeadlineFailure) :
    (s.failOverdueRun now runId r f).attempts = s.attempts.update (overdueAttempt runId r)
      fun _ => Attempt.finish now (.of .failed) f.failureClass := rfl

section Finalizers

variable {workerId : WorkerId} {token : Token} {epoch : ℕ} {errorText : String}
  {fields : RuntimeFields} {w : Worker}

theorem attempts_finishStop (target : RunId) (computeReleasedAt : Option Time) (cancelled : Bool) :
    (s.finishStop now workerId token epoch target fields computeReleasedAt errorText w
      cancelled).attempts = s.attempts.update
      (fun _ t => (s.runs.get? t.runId).any (fun r => r.workerId == workerId) &&
        s.stoppedAttempt t)
      fun _ => Attempt.finish now (.of .cancelled) "work_stopped" := by
  obtain ⟨_, _, h⟩ := publishStop_eq (s.stopWork now workerId errorText) now workerId token w target
      cancelled
  rw [finishStop, h]
  rfl

theorem attempts_finishTermination (computeReleasedAt : Time) :
    (s.finishTermination now workerId token epoch computeReleasedAt fields errorText w).attempts =
      s.attempts.update
        (fun _ t => (s.runs.get? t.runId).any (fun r => r.workerId == workerId) && t.endedAt.isNone)
        fun _ => Attempt.finish now (.of .cancelled) "worker_terminated" := rfl

end Finalizers

theorem attempts_insertRun? {s' : Store} (h : s.insertRun? runId r = some s') :
    s'.attempts = s.attempts := by
  obtain ⟨_, -, rfl⟩ := insertRun?_eq_some h
  rfl

theorem attempts_publishStart (a : ConfirmStart) (r : Run) :
    (s.publishStart now a r).attempts = s.attempts := by
  rw [publishStart]
  split <;> rfl

end Rows

/-! ## Each family of transactions -/

section Families

variable {s s' : Store} {now endedAt : Time} {I : AttemptId → Prop} {N : AttemptId → Attempt → Prop}
  {p : AttemptId → Attempt → Bool} {state : AttemptState} {reason : String} {runId : RunId}
  {r : Run} {w : Worker}

theorem attempts_applySchedule {op : ScheduleOp} :
    (s.applySchedule now op).attempts = s.attempts := by
  rcases applySchedule_store s now op with ⟨_, _, _, rfl⟩ | ⟨_, _, _, _, _, -, h⟩
  · rw [applySchedule, setSchedulePrincipalAuthority]
    split <;> rfl
  · rw [h]

/-- The attempts that a transaction ends with `finish`. -/
theorem attemptsFollow_finish
    (h : s'.attempts = s.attempts.update p fun _ => Attempt.finish endedAt state reason) :
    s.AttemptsFollow s' I N :=
  attemptsFollow_update h fun _ _ _ _ => Attempt.follows_finish

theorem attemptsFollow_retire
    (h : s'.attempts = s.attempts.update p fun _ => Attempt.retire endedAt state reason) :
    s.AttemptsFollow s' I N :=
  attemptsFollow_update h fun _ _ _ _ => Attempt.follows_retire

theorem attemptsFollow_downgradeUnprovenRunning :
    s.AttemptsFollow (s.downgradeUnprovenRunning runId r now reason) I N :=
  attemptsFollow_retire (by simp [downgradeUnprovenRunning]; rfl)

theorem reconcileInvalidRunningRuns_attemptsFollow :
    s.AttemptsFollow (s.reconcileInvalidRunningRuns now).store I fun _ _ => False := by
  exact reconcileInvalidRunningRuns_keeps (P := fun s' => s.AttemptsFollow s' I _)
    attemptsFollow_refl fun _ _ _ h => h.trans attemptsFollow_downgradeUnprovenRunning
      fun _ _ _ h _ => h

theorem AttemptsFollow.weaken (h : s.AttemptsFollow s' I fun _ _ => False) :
    s.AttemptsFollow s' I N :=
  ⟨h.kept, fun id t hnone ht => (h.fresh id t hnone ht).elim⟩

theorem RunStep.attemptsFollow {op : RunOp} (h : s.RunStep now op s') :
    s.AttemptsFollow s' I N := by
  cases h with
  | unchanged => exact attemptsFollow_refl
  | created hins | createdFenced hins =>
    have hattempts := attempts_insertRun? hins
    exact attemptsFollow_of_eq hattempts
  | scheduled q _ _ hrun =>
    rcases hrun with rfl | ⟨s₀, hins, rfl⟩
    · exact attemptsFollow_of_eq rfl
    · have hattempts := attempts_insertRun? hins
      exact attemptsFollow_of_eq hattempts
  | reconciled => exact reconcileInvalidRunningRuns_attemptsFollow.weaken
  | updated _ _ _ _ hs =>
    rcases hs with ⟨-, -, rfl⟩ | ⟨-, rfl⟩
    · exact attemptsFollow_downgradeUnprovenRunning
    · rw [writeRun]
      split
      · exact attemptsFollow_retire (by simp; rfl)
      · exact attemptsFollow_of_eq rfl
  | transitioned =>
    rw [transitionRun]
    dsimp only
    split <;> split
    · exact attemptsFollow_finish (by simp; rfl)
    · exact attemptsFollow_of_eq (recordTerminalArtifactTraces_attempts ..)
    · exact attemptsFollow_finish (by simp; rfl)
    · exact attemptsFollow_of_eq rfl
  | settled => exact attemptsFollow_of_eq rfl
  | finalizedActive => exact attemptsFollow_finish (attempts_finalizeActive ..)
  | finalizedInactive =>
    refine attemptsFollow_of_eq ?_
    rw [finalizeInactive, attempts_finalizeLinkedScheduleForTerminalRun]
    rfl
  | cancelledPending =>
    rw [cancelPendingRuns]
    split
    · exact attemptsFollow_refl
    · exact attemptsFollow_finish (by
        simp only [Outcome.store_commit, recordTerminalArtifactTraces_attempts,
          appendAttemptTraces_attempts, updateAttempts_attempts, updateRuns_attempts,
          updateScheduledRuns_attempts]
        rfl)
  | cancelledQueued =>
    refine attemptsFollow_of_eq ?_
    simp only [cancelQueuedRunsForWorker, Outcome.store_commit,
      recordTerminalArtifactTraces_attempts, updateRuns_attempts]
  | retried =>
    exact attemptsFollow_update (attempts_retryRun ..) fun _ _ _ _ =>
      Attempt.follows_of_ended rfl rfl rfl rfl rfl
  | replaced _ hins =>
    refine attemptsFollow_of_eq ?_
    simp only [replaceRun, touchLastRun, updateWorkers_attempts,
      recordTerminalArtifactTraces_attempts, updateDelegations_attempts, updateRuns_attempts,
      updateLeases_attempts, appendOriginTrace_attempts, attempts_insertRun? hins]
  | expired =>
    unfold expireRun
    dsimp only
    split <;> exact attemptsFollow_finish (by simp; rfl)

theorem attemptsFollow_invokeGeneration {leaseId : LeaseId} {attemptId : AttemptId} {f : Run → Run}
    (h : s'.attempts = (s.invokeGeneration now runId r leaseId attemptId f).attempts)
    (hI : I attemptId) : s.AttemptsFollow s' I N := by
  refine attemptsFollow_update (h.trans attempts_invokeGeneration) fun id t _ hp => ?_
  simp only [Bool.and_eq_true, beq_iff_eq] at hp
  exact ⟨rfl, rfl, rfl, fun h => h, Or.inr (hp.1.1.1.1.1 ▸ hI), fun _ => rfl, fun _ _ _ => rfl⟩

theorem StartStep.attemptsFollow {op : StartOp} (h : s.StartStep now op s') :
    s.AttemptsFollow s' (s.Invokes ⟨now, .start op⟩) (s.Opens ⟨now, .start op⟩) := by
  cases h with
  | unchanged => exact attemptsFollow_refl
  | @claimed workerId executorId runId r ttl attempts hclaim hins =>
    have hrow : ∀ id, attempts.get? id = if id = s.nextId
        then some (s.claimAttempt now runId (s.claimLease workerId runId))
        else s.attempts.get? id := Table.get?_insert hins
    refine ⟨fun id t ht => ⟨t, Table.get?_insert_of_some hins ht, Attempt.follows_refl⟩,
      fun id t' hid ht' => ?_⟩
    · replace ht' := (hrow id).symm.trans ht'
      split at ht'
      · rename_i heq
        exact ⟨runId, r, hclaim, heq, (Option.some.inj ht').symm⟩
      · rw [hid] at ht'
        cases ht'
  | @swept workerId require s' _ hsweep | @claimedLegacy workerId require _ _ s' _ hsweep =>
    have hattempts := @sweepUnauthorized_attempts now workerId require
      (s.runs.entries.length + 1) s
    rw [hsweep] at hattempts
    exact attemptsFollow_of_eq hattempts
  | acquired | heartbeat | released | unconfirmed => exact attemptsFollow_of_eq rfl
  | lost | unproven => exact attemptsFollow_downgradeUnprovenRunning
  | admitted =>
    exact attemptsFollow_update attempts_admitGeneration fun _ _ _ _ =>
      Attempt.follows_of_not_running rfl rfl rfl rfl rfl (by simp)
  | unconfirmedSettling =>
    exact attemptsFollow_update attempts_settleGeneration fun _ _ _ _ =>
      Attempt.follows_of_not_running rfl rfl rfl rfl rfl (by simp)
  | invoked hr hl hgen => exact attemptsFollow_invokeGeneration rfl ⟨_, _, hr, hl, hgen⟩
  | confirmed hconfirms hallow hgen =>
    exact attemptsFollow_invokeGeneration (attempts_publishStart ..)
      ⟨hallow, _, _, _, hconfirms, hgen⟩
  | confirmedRunning => exact attemptsFollow_of_eq (attempts_publishStart ..)
  | requeued => exact attemptsFollow_finish attempts_requeueGeneration

theorem attempts_reserveReplacement {a : ClaimRelease}
    (h : s.reserveReplacement now w a = some (some s')) : s'.attempts = s.attempts := by
  rcases reserveReplacement_eq_some h with rfl | ⟨_, _, _, _, -, -, -, -, -, rfl⟩ <;> rfl

theorem attempts_steerToReplacement (a : FinalizeSteer) (events : List (RunId × String × String))
    (queued : Bool) : (s.steerToReplacement now a w events queued).attempts = s.attempts := by
  cases queued <;> rfl

/-- A steer leaves the attempt of its target as it is. -/
theorem LifecycleStep.attemptsFollow {op : LifecycleOp} (h : s.LifecycleStep now op s') :
    s.AttemptsFollow s' I N := by
  cases h with
  | unchanged => exact attemptsFollow_refl
  | changedRow | takenOver | controlSuppressed | steerSuppressed => exact attemptsFollow_of_eq rfl
  | claimed _ _ _ hreserve =>
    have hattempts := attempts_reserveReplacement hreserve
    exact attemptsFollow_of_eq hattempts
  | @released workerId token _ kind target w =>
    obtain ⟨_, _, h⟩ := publishWorkerControl_eq (s.releasePausedTarget now workerId kind target)
      now workerId token w kind
    rw [releaseCompute, h]
    refine attemptsFollow_of_eq (show (s.releasePausedTarget now workerId kind target).attempts =
      s.attempts from ?_)
    unfold releasePausedTarget
    split <;> rfl
  | finished =>
    refine attemptsFollow_of_eq ?_
    simp only [finishOperation, settleClaim, releaseRunLeases, updateWorkers_attempts,
      updateLeases_attempts]
    split <;> rfl
  | stopped => exact attemptsFollow_finish (attempts_finishStop ..)
  | controlled =>
    exact attemptsFollow_finish ((attempts_finishControl ..).trans (attempts_moveTarget ..))
  | steerInterrupted => exact attemptsFollow_of_eq (attempts_steerToReplacement ..)
  | steered => exact attemptsFollow_of_eq (attempts_steerToReplacement ..)
  | terminated => exact attemptsFollow_finish (attempts_finishTermination ..)

theorem RequestStep.attemptsFollow {op : RequestOp} (h : s.RequestStep now op s') :
    s.AttemptsFollow s' I N := by
  cases h with
  | unchanged => exact attemptsFollow_refl
  | overdue => exact attemptsFollow_finish (attempts_failOverdueRun ..)
  | cancelled | cancelledRun | cancelledAttention | recorded | resumed | resumedQueued =>
    exact attemptsFollow_of_eq rfl

end Families

/-- The attempts after a transaction: those there were, and the one that a claim opens. -/
theorem attempts_step (s : Store) (c : Call) :
    s.AttemptsFollow (s.step c) (s.Invokes c) (s.Opens c) := by
  obtain ⟨now, op⟩ := c
  cases op with
  | worker => exact attemptsFollow_of_eq (congrArg (fun t => t.2.1) executions_applyWorker)
  | gc op =>
    obtain ⟨_, h, -⟩ := executions_applyGc s now op
    exact attemptsFollow_of_eq (congrArg (fun t => t.2.1) h)
  | schedule => exact attemptsFollow_of_eq attempts_applySchedule
  | run op => exact (applyRun_step s now op).attemptsFollow
  | start op => exact (applyStart_step s now op).attemptsFollow
  | lifecycle op => exact (applyLifecycle_step s now op).attemptsFollow
  | request op => exact (applyRequest_step s now op).attemptsFollow

end Store

end GlassHive
