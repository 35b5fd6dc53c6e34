import Mathlib.Data.Nat.Basic
import GlassHive.RunOutcomes

/-!
# Claiming the next queued run

`claim_next_queued_run` has two implementations. The parallel one checks the worker and its other
runs and opens an attempt. The legacy one checks the principal of a scheduled run and marks the run
running without an attempt; an executor, a reserved lease or a delegation sends a legacy call to
the parallel one.
-/

namespace GlassHive

open Relational

/-- A reservation that no process has touched. -/
def Lease.identityFree (l : Lease) : Bool :=
  l.attemptId.isNone && l.pid.isNone && l.processGroup.isNone && l.processStartIdentity.isNone &&
    l.startupIdentityKind.isNone && l.startupContainerId.isNone && l.startupSessionId.isNone

/-- The lease may be adopted by a claim of this executor. -/
def Lease.preacceptOnly (l : Lease) (executorId : Option ExecutorId) : Bool :=
  l.startupState == .reserved && (executorId.isNone || executorId == some l.executorId) &&
    l.identityFree

/-- The worker states in which the parallel claim refuses. -/
def WorkerState.claimRefused : List WorkerState :=
  [.paused, .needsInput, .stopping, .terminated]

namespace Store

/-! ## Selection -/

/-- A queued run of the worker whose retry time has come. -/
def due (workerId : WorkerId) (now : Time) (r : Run) : Bool :=
  r.workerId == workerId && r.state == .queued && r.retry.retryAfter.all fun t => decide (t ≤ now)

/-- `peek_next_queued_run`. -/
def peekNextQueuedRun (s : Store) (workerId : WorkerId) (now : Time) : Option (RunId × Run) :=
  s.runs.first (fun _ r => due workerId now r) fun a b => decide (a.queuedAt < b.queuedAt)

/-- An active lease of the run. -/
def activeLease (s : Store) (runId : RunId) : Option (LeaseId × Lease) :=
  s.leases.first (fun _ l => l.runId == runId && l.status == .active) fun _ _ => false

/-- The number of a run's next attempt. -/
def nextAttemptNumber (s : Store) (runId : RunId) : ℕ :=
  (s.attempts.select fun _ a => a.runId == runId).foldl (fun n e => max n e.2.attemptNumber) 0 + 1

/-! ## The parallel claim -/

/-- The stateless request that waits for a capability grant, which blocks no other run. -/
def statelessGrantWait (s : Store) (runId : RunId) (r : Run) : Bool :=
  r.state == .needsInput && r.failure.failureClass == "conversation_capability_grant_required" &&
    !(s.leases.any fun _ l => l.runId == runId && l.status == .active) &&
    s.requests.any fun _ q => q.runId == some runId && q.state == "failed" && q.stateless

/-- Another run of the worker blocks the claim. -/
def claimBlocked (s : Store) (workerId : WorkerId) : Bool :=
  s.runs.any fun id r => r.workerId == workerId && oneOf r.state RunState.executing &&
    !s.statelessGrantWait id r

/-- The worker accepts a parallel claim. -/
def claimAccepted (w : Worker) : Bool :=
  w.release.token.isNone && w.workStop.id.isNone && !oneOf w.state WorkerState.claimRefused

/-- The lease that a parallel claim adopts. -/
def claimLease (s : Store) (workerId : WorkerId) (runId : RunId) : Option (LeaseId × Lease) :=
  (s.activeLease runId).filter fun l => l.2.workerId == workerId

/-- The seconds of a lease, at least one. -/
def leaseExpiry (now : Time) (ttl : ℕ) : Time :=
  now + max 1 ttl * 1000000

/-- The columns of a run that a parallel claim takes. -/
def claimedRun (now : Time) (attemptId : AttemptId) (reservation : Option Resources) (r : Run) :
    Run :=
  { r with
    state := .claimed, claimedAt := some now, admittedAt := none, runtimeInvokedAt := none,
    activeAttemptId := some attemptId, retry := { r.retry with retryAfter := none },
    capacity := { Capacity.default with reservation := reservation } }

/-- What a parallel claim of a run writes, for the lease it adopts. -/
def claimRun (s : Store) (now : Time) (workerId : WorkerId) (executorId : Option ExecutorId)
    (ttl : ℕ) (runId : RunId) (lease : Option (LeaseId × Lease))
    (attempts : Table AttemptId Attempt) : Store :=
  let attemptId := s.nextId
  let reservation := lease.map fun l => l.2.reserved
  Store.updateLeases { s.drawId with attempts := attempts }
      (fun id l => lease.any (fun e => e.1 == id) && l.status == .active)
      (fun l => { l with
        executorId := executorId.getD l.executorId, attemptId := some attemptId,
        heartbeatAt := now, expiresAt := leaseExpiry now ttl })
    |>.updateRuns now (fun id _ => id == runId) (claimedRun now attemptId reservation)
    |>.updateWorkers (fun id _ => id == workerId)
        (fun w => { w with state := .starting, computeReleasedAt := none, updatedAt := now })
    |>.appendAttemptTraces now [attemptId]

/-- The attempt a parallel claim opens. -/
def claimAttempt (s : Store) (now : Time) (runId : RunId)
    (lease : Option (LeaseId × Lease)) : Attempt where
  runId := runId
  attemptNumber := s.nextAttemptNumber runId
  state := .of .claimed
  claimedAt := now
  admittedAt := none
  runtimeInvokedAt := none
  healthLastFailedAt := none
  healthGeneration := none
  endedAt := none
  leaseId := lease.map Prod.fst
  capacity := { Capacity.default with reservation := lease.map fun l => l.2.reserved }
  terminalReason := ""

/-- The run that a parallel claim takes: the next queued run, when the worker accepts, no other run
blocks, and an active lease may be adopted. -/
def claimable (s : Store) (now : Time) (workerId : WorkerId) (executorId : Option ExecutorId) :
    Option (RunId × Run) :=
  if (s.workers.get? workerId).any claimAccepted && !s.claimBlocked workerId then
    (s.peekNextQueuedRun workerId now).filter fun e =>
      (s.claimLease workerId e.1).all fun l => l.2.preacceptOnly executorId
  else none

/-- `_claim_next_queued_run_parallel`. -/
def claimNextQueuedRunParallel (s : Store) (now : Time) (workerId : WorkerId)
    (executorId : Option ExecutorId) (ttl : ℕ) : Outcome (Option RunId) :=
  match s.claimable now workerId executorId with
  | none => .commit s none
  | some (runId, _) =>
    let lease := s.claimLease workerId runId
    match s.attempts.insert? s.nextId (s.claimAttempt now runId lease) with
    | none => .raise s (.integrity "run_attempts.attempt_id")
    | some attempts =>
      .commit (s.claimRun now workerId executorId ttl runId lease attempts) (some runId)

/-! ## The legacy claim -/

/-- The scheduled run that the legacy claim finds for a run. -/
def scheduledRunFor (s : Store) (runId : RunId) : Option (ScheduleId × ScheduledRun) :=
  s.scheduledRuns.first (fun _ q => q.queuedRunId == some runId) fun _ _ => false

/-- The schedule whose principal makes the legacy claim refuse the run. -/
def refusedSchedule (s : Store) (require : Bool) (runId : RunId) : Option ScheduleId :=
  if require then
    ((s.scheduledRunFor runId).filter fun e =>
      !s.scheduleAuthorityEnabled e.2.tenantId e.2.ownerId).map Prod.fst
  else none

/-- The columns of a queued run whose principal is disabled. -/
def unauthorizedRow (now : Time) (r : Run) : Run :=
  { r with
    state := .cancelled, endedAt := some now, errorText := "principal_disabled",
    failure := { r.failure with failureClass := "principal_disabled", retryable := false } }

/-- Cancel a queued run whose principal is disabled, with its schedule. -/
def cancelUnauthorized (s : Store) (now : Time) (runId : RunId) (scheduleId : ScheduleId) :
    Store :=
  s
    |>.updateRuns now (fun id r => id == runId && r.state == .queued) (unauthorizedRow now)
    |>.updateScheduledRuns
        (fun id q => id == scheduleId && !oneOf q.state ScheduleState.terminal)
        (fun q => { q with
          state := .cancelled, lastError := "principal_disabled", updatedAt := now })
    |>.updateOccurrences
        (fun _ o => o.scheduledRunId == scheduleId && !oneOf o.state OccurrenceState.terminal)
        (fun o => { o with
          state := .actionRequired, outcome := "principal_disabled", terminalAt := some now })

/-- The loop of the legacy claim: cancel refused runs until one may be taken. Each round takes a
run out of the queue, so one round for each run is enough. -/
def sweepUnauthorized (now : Time) (workerId : WorkerId) (require : Bool) :
    ℕ → Store → Store × Option RunId
  | 0, s => (s, none)
  | n + 1, s =>
    match s.peekNextQueuedRun workerId now with
    | none => (s, none)
    | some (runId, _) =>
      match s.refusedSchedule require runId with
      | some scheduleId =>
        sweepUnauthorized now workerId require n (s.cancelUnauthorized now runId scheduleId)
      | none => (s, some runId)

section Sweep

variable {s : Store} {now : Time} {workerId : WorkerId} {require : Bool} {id : RunId} {r' : Run}

theorem scheduleAuthorityEnabled_cancelUnauthorized (runId : RunId) (scheduleId : ScheduleId) :
    (s.cancelUnauthorized now runId scheduleId).scheduleAuthorityEnabled =
      s.scheduleAuthorityEnabled := rfl

/-- Cancelling a refused run changes no refusal. -/
theorem refusedSchedule_cancelUnauthorized (runId : RunId) (scheduleId : ScheduleId) (id : RunId) :
    (s.cancelUnauthorized now runId scheduleId).refusedSchedule require id =
      s.refusedSchedule require id := by
  simp only [refusedSchedule, scheduleAuthorityEnabled_cancelUnauthorized]
  split
  · have hfirst : (s.cancelUnauthorized now runId scheduleId).scheduledRunFor id =
        (s.scheduledRunFor id).map fun e => (e.1,
          if e.1 == scheduleId && !oneOf e.2.state ScheduleState.terminal then
            { e.2 with state := .cancelled, lastError := "principal_disabled", updatedAt := now }
          else e.2) := by
      simp only [scheduledRunFor, Table.first, cancelUnauthorized, updateOccurrences_scheduledRuns,
        updateScheduledRuns_scheduledRuns, updateRuns_scheduledRuns]
      rw [Table.select_update_of_stay, Table.earliest_map]
      · exact fun _ _ => rfl
      · exact fun _ _ _ => rfl
    rw [hfirst]
    cases s.scheduledRunFor id with
    | none => rfl
    | some e =>
      simp only [Option.map_some, Option.filter_some]
      have htenant : ∀ (b : Bool) (q : ScheduledRun), q.tenantId = e.2.tenantId →
          (if b then q else e.2).tenantId = e.2.tenantId := by
        intro b q h
        cases b <;> simp [h]
      have howner : ∀ (b : Bool) (q : ScheduledRun), q.ownerId = e.2.ownerId →
          (if b then q else e.2).ownerId = e.2.ownerId := by
        intro b q h
        cases b <;> simp [h]
      rw [htenant, howner]
      · split <;> rfl
      · rfl
      · rfl
  · rfl

/-- A row that the sweep may leave: the row it found, or that of a refused due run, cancelled. -/
structure Swept (s : Store) (now : Time) (workerId : WorkerId) (require : Bool) (id : RunId)
    (r r' : Run) : Prop where
  refused : (s.refusedSchedule require id).isSome = true
  due : due workerId now r = true
  state : r'.state = .cancelled
  workerId : r'.workerId = r.workerId
  startedAt : r'.startedAt = r.startedAt
  activeAttemptId : r'.activeAttemptId = r.activeAttemptId
  row : r' = Run.triggered now r (unauthorizedRow now r)

theorem cancelUnauthorized_rows {runId : RunId} {r₀ : Run} {scheduleId : ScheduleId}
    (hpeek : s.peekNextQueuedRun workerId now = some (runId, r₀))
    (href : s.refusedSchedule require runId = some scheduleId)
    (h : (s.cancelUnauthorized now runId scheduleId).runs.get? id = some r') :
    ∃ r, s.runs.get? id = some r ∧ (r' = r ∨ s.Swept now workerId require id r r') := by
  simp only [cancelUnauthorized, updateOccurrences_runs, updateScheduledRuns_runs, updateRuns_runs,
    Table.get?_update_eq_some] at h
  obtain ⟨r, hr, rfl⟩ := h
  refine ⟨r, hr, ?_⟩
  split
  · rename_i hid
    obtain rfl : id = runId := by simpa using (Bool.and_eq_true_iff.mp hid).1
    obtain ⟨hget, hdue⟩ := Table.first_eq_some hpeek
    obtain rfl : r₀ = r := Option.some.inj (hget.symm.trans hr)
    exact Or.inr ⟨by simp [href], hdue, rfl, rfl, rfl, rfl, rfl⟩
  · exact Or.inl rfl

theorem sweepUnauthorized_rows (n : ℕ) (s : Store)
    (h : (sweepUnauthorized now workerId require n s).1.runs.get? id = some r') :
    ∃ r, s.runs.get? id = some r ∧ (r' = r ∨ s.Swept now workerId require id r r') := by
  induction n generalizing s with
  | zero => exact ⟨r', h, Or.inl rfl⟩
  | succ n ih =>
    rw [sweepUnauthorized] at h
    split at h
    · exact ⟨r', h, Or.inl rfl⟩
    · rename_i runId r₀ hpeek
      split at h
      · rename_i scheduleId href
        obtain ⟨r₁, hr₁, hstep⟩ := ih _ h
        obtain ⟨r, hr, hfirst⟩ := cancelUnauthorized_rows hpeek href hr₁
        refine ⟨r, hr, ?_⟩
        rcases hstep with rfl | hs
        · exact hfirst
        · -- a run that was cancelled by this round is not due in the rest
          rcases hfirst with rfl | hc
          · refine Or.inr ⟨?_, hs.due, hs.state, hs.workerId, hs.startedAt, hs.activeAttemptId,
              hs.row⟩
            simpa [refusedSchedule_cancelUnauthorized] using hs.refused
          · have hdue := hs.due
            simp [Store.due, hc.state] at hdue
      · exact ⟨r', h, Or.inl rfl⟩

/-- A run that is not refused keeps its row. -/
theorem sweepUnauthorized_kept (now : Time) (workerId : WorkerId) (require : Bool) (id : RunId)
    (n : ℕ) (s : Store) (hid : s.refusedSchedule require id = none) :
    (sweepUnauthorized now workerId require n s).1.runs.get? id = s.runs.get? id := by
  induction n generalizing s with
  | zero => rfl
  | succ n ih =>
    rw [sweepUnauthorized]
    split
    · rfl
    · rename_i runId r hpeek
      split
      · rename_i scheduleId href
        have hne : id ≠ runId := by
          rintro rfl
          rw [href] at hid
          cases hid
        rw [ih _ (by rw [refusedSchedule_cancelUnauthorized, hid])]
        simp [cancelUnauthorized, Table.get?_update, hne]
      · rfl

theorem sweepUnauthorized_workers (now : Time) (workerId : WorkerId) (require : Bool) (n : ℕ)
    (s : Store) :
    (sweepUnauthorized now workerId require n s).1.workers = s.workers := by
  induction n generalizing s with
  | zero => rfl
  | succ n ih =>
    rw [sweepUnauthorized]
    split
    · rfl
    · split
      · rw [ih]
        rfl
      · rfl

theorem sweepUnauthorized_attempts (n : ℕ) (s : Store) :
    (sweepUnauthorized now workerId require n s).1.attempts = s.attempts := by
  induction n generalizing s with
  | zero => rfl
  | succ n ih =>
    rw [sweepUnauthorized]
    split
    · rfl
    · split
      · rw [ih]
        rfl
      · rfl

/-- A cancelled run leaves the due runs. -/
theorem select_due_cancelUnauthorized (runId : RunId) (scheduleId : ScheduleId) :
    ((s.cancelUnauthorized now runId scheduleId).runs.select fun _ r => due workerId now r) =
      (s.runs.select fun _ r => due workerId now r).filter
        fun e => !(e.1 == runId && e.2.state == .queued) := by
  simp only [cancelUnauthorized, updateOccurrences_runs, updateScheduledRuns_runs, updateRuns_runs]
  rw [Table.select_update_of_leave]
  intro id r _
  simp [due, unauthorizedRow]

/-- With a round for each due run, the sweep ends at the first due run that is not refused. -/
theorem sweepUnauthorized_chosen (now : Time) (workerId : WorkerId) (require : Bool) (n : ℕ)
    (s : Store) (hn : (s.runs.select fun _ r => due workerId now r).length < n) :
    (sweepUnauthorized now workerId require n s).2 =
      (s.runs.first (fun id r => due workerId now r && (s.refusedSchedule require id).isNone)
        fun a b => decide (a.queuedAt < b.queuedAt)).map Prod.fst := by
  induction n generalizing s with
  | zero => omega
  | succ n ih =>
    rw [sweepUnauthorized, Table.first, Table.select_and]
    split
    · rename_i hnone
      rw [peekNextQueuedRun, Table.first, Table.earliest_eq_none] at hnone
      rw [hnone]
      rfl
    · rename_i runId r hpeek
      obtain ⟨hget, hdue⟩ := Table.first_eq_some hpeek
      split
      · rename_i scheduleId href
        have hqueued : r.state = .queued := by
          simp only [due, Bool.and_eq_true, beq_iff_eq] at hdue
          exact hdue.1.2
        have hshorter : ((s.cancelUnauthorized now runId scheduleId).runs.select
            fun _ r => due workerId now r).length < n := by
          rw [select_due_cancelUnauthorized]
          have hdrop := List.length_filter_lt_length_iff_exists
            (p := fun e : RunId × Run => !(e.1 == runId && e.2.state == .queued))
            (l := s.runs.select fun _ r => due workerId now r) |>.mpr
              ⟨(runId, r), Table.mem_select.mpr ⟨hget, hdue⟩, by simp [hqueued]⟩
          omega
        rw [ih _ hshorter, Table.first, Table.select_and, select_due_cancelUnauthorized,
          List.filter_filter]
        congr 2
        refine List.filter_congr fun e he => ?_
        simp only [refusedSchedule_cancelUnauthorized]
        cases hrefused : s.refusedSchedule require e.1 with
        | some => rfl
        | none =>
          have hne : e.1 ≠ runId := by
            intro h
            rw [h, href] at hrefused
            cases hrefused
          simp [hne]
      · rename_i href
        rw [peekNextQueuedRun, Table.first] at hpeek
        rw [Table.earliest_filter (f := Run.queuedAt) hpeek (by simp [href])]
        rfl

theorem sweepUnauthorized_enough :
    (s.runs.select fun _ r => due workerId now r).length < s.runs.entries.length + 1 :=
  Nat.lt_succ_of_le (List.length_filter_le _ _)

end Sweep

/-- The columns of a run that a legacy claim starts. -/
def legacyRow (now : Time) (r : Run) : Run :=
  { r with
    state := .running, startedAt := some now, retry := { r.retry with retryAfter := none },
    errorText := "",
    failure := { r.failure with
      failureClass := "", retryable := false, userMessage := "", recommendedRecovery := "",
      diagnosticSummary := "" } }

/-- What the legacy claim writes for the run it takes. -/
def startLegacy (s : Store) (now : Time) (runId : RunId) : Store :=
  s.updateRuns now (fun id _ => id == runId) (legacyRow now)

/-- `_claim_next_queued_run_legacy`, in the branch that does not delegate to the parallel one. -/
def claimNextQueuedRunLegacy (s : Store) (now : Time) (workerId : WorkerId) (require : Bool) :
    Outcome (Option RunId) :=
  if (s.workers.get? workerId).all fun w => oneOf w.state WorkerState.closed then .commit s none
  else
    match sweepUnauthorized now workerId require (s.runs.entries.length + 1) s with
    | (s', none) => .commit s' none
    | (s', some runId) => .commit (s'.startLegacy now runId) (some runId)

/-- The run that a legacy claim takes: the next due run whose principal it does not refuse, when the
worker is open. -/
def legacyClaimable (s : Store) (now : Time) (workerId : WorkerId) (require : Bool) :
    Option (RunId × Run) :=
  if (s.workers.get? workerId).all fun w => oneOf w.state WorkerState.closed then none
  else s.runs.first (fun id r => due workerId now r && (s.refusedSchedule require id).isNone)
    fun a b => decide (a.queuedAt < b.queuedAt)

section Chosen

variable {s : Store} {now : Time} {workerId : WorkerId} {executorId : Option ExecutorId} {ttl : ℕ}
  {runId id : RunId} {r' r : Run}

/-- A parallel claim moves the run it takes, and no other. -/
theorem claimRun_rows {lease : Option (LeaseId × Lease)} {attempts : Table AttemptId Attempt}
    (h : (s.claimRun now workerId executorId ttl runId lease attempts).runs.get? id = some r') :
    ∃ r, s.runs.get? id = some r ∧ r'.workerId = r.workerId ∧
      ((id = runId ∧ r'.state = .claimed ∧ r'.activeAttemptId = some s.nextId) ∨
        (id ≠ runId ∧ r' = r)) := by
  simp only [claimRun, appendAttemptTraces_runs, updateWorkers_runs, updateRuns_runs,
    updateLeases_runs, drawId_runs, Table.get?_update_eq_some] at h
  obtain ⟨r, hr, rfl⟩ := h
  refine ⟨r, hr, ?_⟩
  by_cases hid : id = runId <;> simp [hid, claimedRun]

theorem startLegacy_rows (h : (s.startLegacy now runId).runs.get? id = some r') :
    ∃ r, s.runs.get? id = some r ∧ r'.workerId = r.workerId ∧
      r'.activeAttemptId = r.activeAttemptId ∧
      ((id = runId ∧ r'.state = .running) ∨ (id ≠ runId ∧ r' = r)) := by
  simp only [startLegacy, updateRuns_runs, Table.get?_update_eq_some] at h
  obtain ⟨r, hr, rfl⟩ := h
  refine ⟨r, hr, ?_⟩
  by_cases hid : id = runId <;> simp [hid, legacyRow]

theorem state_of_due (h : due workerId now r = true) : r.state = .queued := by
  simp only [due, Bool.and_eq_true, beq_iff_eq] at h
  exact h.1.2

theorem claimable_eq_some (h : s.claimable now workerId executorId = some (id, r)) :
    s.runs.get? id = some r ∧ due workerId now r = true := by
  rw [claimable] at h
  split at h
  · obtain ⟨hpeek, -⟩ := Option.filter_eq_some_iff.mp h
    exact Table.first_eq_some hpeek
  · cases h

/-- A parallel claim finds its worker open to it and unblocked. -/
theorem accepted_of_claimable {e : RunId × Run}
    (h : s.claimable now workerId executorId = some e) :
    (∃ w, s.workers.get? workerId = some w ∧ claimAccepted w = true) ∧
      s.claimBlocked workerId = false := by
  rw [claimable] at h
  split at h
  · rename_i hok
    simp only [Bool.and_eq_true, Option.any_eq_true, Bool.not_eq_true'] at hok
    exact hok
  · cases h

theorem legacyClaimable_eq_some {require : Bool}
    (h : s.legacyClaimable now workerId require = some (id, r)) :
    s.runs.get? id = some r ∧ due workerId now r = true ∧ s.refusedSchedule require id = none ∧
      ∃ w, s.workers.get? workerId = some w ∧ w.state ∉ WorkerState.closed := by
  rw [legacyClaimable] at h
  split at h
  · cases h
  · rename_i hopen
    obtain ⟨hget, hdue⟩ := Table.first_eq_some h
    rw [Bool.and_eq_true, Option.isNone_iff_eq_none] at hdue
    refine ⟨hget, hdue.1, hdue.2, ?_⟩
    cases hw : s.workers.get? workerId with
    | none => simp [hw] at hopen
    | some w => exact ⟨w, rfl, by simpa [hw] using hopen⟩

/-- What a parallel claim leaves. -/
theorem claimNextQueuedRunParallel_cases (s : Store) (now : Time) (workerId : WorkerId)
    (executorId : Option ExecutorId) (ttl : ℕ) :
    ((s.claimNextQueuedRunParallel now workerId executorId ttl).store = s ∧
      (s.claimNextQueuedRunParallel now workerId executorId ttl).value? = none ∧
      (s.attempts.get? s.nextId = none → s.claimable now workerId executorId = none)) ∨
    ∃ runId r attempts, s.claimable now workerId executorId = some (runId, r) ∧
      s.attempts.insert? s.nextId (s.claimAttempt now runId (s.claimLease workerId runId)) =
        some attempts ∧
      (s.claimNextQueuedRunParallel now workerId executorId ttl).value? = some runId ∧
      (s.claimNextQueuedRunParallel now workerId executorId ttl).store =
        s.claimRun now workerId executorId ttl runId (s.claimLease workerId runId) attempts := by
  rw [claimNextQueuedRunParallel]
  split
  · rename_i hnone
    exact Or.inl ⟨rfl, rfl, fun _ => hnone⟩
  · rename_i runId r hsome
    dsimp only
    split
    · rename_i hfull
      refine Or.inl ⟨rfl, rfl, fun hfree => ?_⟩
      rw [← Table.insert?_isSome, hfull] at hfree
      cases hfree
    · rename_i attempts hins
      exact Or.inr ⟨runId, r, attempts, hsome, hins, rfl, rfl⟩

/-- What a legacy claim leaves. -/
theorem claimNextQueuedRunLegacy_cases (s : Store) (now : Time) (workerId : WorkerId)
    (require : Bool) :
    ((s.claimNextQueuedRunLegacy now workerId require).store = s ∧
      s.legacyClaimable now workerId require = none ∧
      (s.claimNextQueuedRunLegacy now workerId require).value? = none) ∨
    ∃ s', sweepUnauthorized now workerId require (s.runs.entries.length + 1) s =
        (s', (s.legacyClaimable now workerId require).map Prod.fst) ∧
      (s.claimNextQueuedRunLegacy now workerId require).value? =
        (s.legacyClaimable now workerId require).map Prod.fst ∧
      (s.claimNextQueuedRunLegacy now workerId require).store =
        match s.legacyClaimable now workerId require with
        | none => s'
        | some (runId, _) => s'.startLegacy now runId := by
  have hchosen := sweepUnauthorized_chosen now workerId require
    (s.runs.entries.length + 1) s sweepUnauthorized_enough
  rw [claimNextQueuedRunLegacy, legacyClaimable]
  split
  · exact Or.inl ⟨rfl, rfl, rfl⟩
  · refine Or.inr ?_
    generalize hfirst : s.runs.first _ _ = e at hchosen ⊢
    split
    · rename_i s' hs'
      rw [hs'] at hchosen
      cases e with
      | some => cases hchosen
      | none => exact ⟨s', hs', rfl, rfl⟩
    · rename_i s' runId hs'
      rw [hs'] at hchosen
      cases e with
      | none => cases hchosen
      | some e =>
        obtain rfl : runId = e.1 := Option.some.inj hchosen
        exact ⟨s', hs', rfl, rfl⟩

end Chosen

/-- The legacy call dispatches to the parallel claim. -/
def dispatchesParallel (s : Store) (now : Time) (workerId : WorkerId)
    (executorId : Option ExecutorId) : Bool :=
  executorId.isSome || (s.peekNextQueuedRun workerId now).any fun e =>
    (s.activeLease e.1).any (fun l => l.2.startupState == .reserved) ||
      s.delegations.any fun _ d => d.workerId == workerId && d.currentRunId == e.1

/-- `claim_next_queued_run`. -/
def claimNextQueuedRun (s : Store) (now : Time) (workerId : WorkerId)
    (executorId : Option ExecutorId) (ttl : ℕ) (requireSchedulePrincipalAuthority : Bool) :
    Outcome (Option RunId) :=
  if requireSchedulePrincipalAuthority && !s.dispatchesParallel now workerId executorId then
    s.claimNextQueuedRunLegacy now workerId true
  else s.claimNextQueuedRunParallel now workerId executorId ttl

end Store

end GlassHive
