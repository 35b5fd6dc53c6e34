import GlassHive.DelegationReplay
import GlassHive.Invocations
import GlassHive.QueueReturns

/-!
# Queue waits

The wait of a run goes through episodes. An episode is open until the run is invoked, ends or times
out, and a run that comes back with a closed wait opens the next one, with a deadline of its own.
The operations that bring runs back write the columns of the wait separately, and what each does to
an open wait differs.
-/

namespace GlassHive

open Relational

/-- The columns that identify an episode of a queue wait. -/
structure Episode where
  isOpen : Bool
  generation : ℕ
  deadlineAt : Time
  terminalCallbackId : Option QueueCallbackId

/-- The identity of the callback of a queue timeout. -/
def timeoutCallbackId (runId : RunId) (generation : ℕ) (deadline : Time) : QueueCallbackId :=
  { kind := "timeout", runId := runId, generation := generation, deadline := deadline }

namespace Episode

def close (e : Episode) : Episode :=
  { e with isOpen := false }

/-- The episode announces the timeout of its own generation and deadline. -/
def Announced (runId : RunId) (e : Episode) : Prop :=
  e.terminalCallbackId = some (timeoutCallbackId runId e.generation e.deadlineAt)

/-- A closed wait opens the next generation; an open one goes on. -/
def reopened (settings : Settings) (now : Time) (e : Episode) : Episode :=
  { e with
    isOpen := true
    generation := max 1 e.generation + if e.isOpen then 0 else 1
    deadlineAt := if e.isOpen then e.deadlineAt else now + settings.queueWaitTimeout * 1000000 }

/-- The same under the callback of the new columns. -/
def renewed (settings : Settings) (now : Time) (runId : RunId) (e : Episode) : Episode :=
  let e' := e.reopened settings now
  { e' with terminalCallbackId := some (timeoutCallbackId runId e'.generation e'.deadlineAt) }

/-- The episode goes on as it was. -/
structure Continues (e e' : Episode) : Prop where
  isOpen : e.isOpen = true
  stays : e'.isOpen = true
  generation : e'.generation = e.generation
  deadlineAt : e'.deadlineAt = e.deadlineAt

/-- The next episode begins at a time, with all its time ahead. -/
structure Begins (settings : Settings) (now : Time) (e e' : Episode) : Prop where
  isOpen : e'.isOpen = true
  generation : e'.generation = e.generation + 1
  deadlineAt : e'.deadlineAt = now + settings.queueWaitTimeout * 1000000

end Episode

/-- The episode that a wait is in. -/
def QueueWait.current (w : QueueWait) : Episode where
  isOpen := w.isOpen
  generation := w.generation
  deadlineAt := w.deadlineAt
  terminalCallbackId := w.terminalCallbackId

/-- The episode that a run is in. -/
def Run.episode (r : Run) : Episode :=
  r.queueWait.current

/-! ## The columns of the operations -/

section Columns

variable {settings : Settings} {now : Time} {runId : RunId} {e e' : Episode}

theorem current_resume (w : QueueWait) : (w.resume settings now runId).current =
    if w.isOpen then w.current else w.current.renewed settings now runId := by
  rw [QueueWait.resume]
  split
  · rfl
  · rename_i hclosed
    simp [QueueWait.current, Episode.renewed, Episode.reopened, timeoutCallbackId, hclosed]

theorem episode_triggered (r w : Run) : (Run.triggered now r w).episode =
    if terminalFence r w && w.queueWait.isOpen then w.episode.close else w.episode := by
  simp only [Run.episode, Run.triggered, QueueWait.close]
  cases terminalFence r w <;> cases h : w.queueWait.isOpen <;>
    simp [QueueWait.current, Episode.close, h]

theorem episode_triggered_of_queued {r w : Run} (h : w.state = .queued) :
    (Run.triggered now r w).episode = w.episode := by
  rw [episode_triggered, terminalFence, h]
  rfl

theorem Episode.announced_renewed : (e.renewed settings now runId).Announced runId := rfl

theorem Episode.generation_le_reopened (settings : Settings) (now : Time) (e : Episode) :
    e.generation ≤ (e.reopened settings now).generation := by
  simp only [reopened]
  omega

/-- A reopened episode goes on or begins. -/
theorem Episode.reopened_cases (h : 1 ≤ e.generation)
    (hgeneration : e'.generation = (e.reopened settings now).generation)
    (hdeadline : e'.deadlineAt = (e.reopened settings now).deadlineAt) (hopen : e'.isOpen = true) :
    e.Continues e' ∨ e.Begins settings now e' := by
  simp only [reopened, max_eq_right h] at hgeneration hdeadline
  cases hwas : e.isOpen with
  | true =>
    simp only [hwas, if_true, Nat.add_zero] at hgeneration hdeadline
    exact Or.inl ⟨hwas, hopen, hgeneration, hdeadline⟩
  | false =>
    simp only [hwas, Bool.false_eq_true, if_false] at hgeneration hdeadline
    exact Or.inr ⟨hopen, hgeneration, hdeadline⟩

end Columns

/-! ## The transactions -/

/-- A transaction of the store, on its delegations, or on a run that goes back to the queue. -/
inductive QueueOp
  | work (op : WorkOp)
  | switchProfile (a : SwitchProfile)
  | reopenProvider (a : ReopenRequest)
  | forceDeadline (a : ForceDeadline)

/-- Such a transaction with the clock it reads. -/
structure QueueCall where
  now : Time
  op : QueueOp

namespace QueueOp

/-- The operations that downgrade an unproven running run. -/
def downgrades : QueueOp → Bool
  | .work (.store (.run .reconcileInvalidRunningRuns)) => true
  | .work (.store (.run (.updateRun ..))) => true
  | .work (.store (.start (.reconcileDeadHostRunLease ..))) => true
  | .work (.store (.start (.confirmHostRunStart _))) => true
  | _ => false

/-- The operations that write the run state their caller passes. -/
def writesState : QueueOp → Bool
  | .work (.store (.run (.updateRun ..))) => true
  | .work (.store (.run (.transitionRunIfState ..))) => true
  | .work (.store (.run (.finalizeRunIfStateParallel _))) => true
  | .work (.store (.run (.finalizeRunIfStateLegacy _))) => true
  | .work (.store (.lifecycle (.finalizeWorkerRunControlClaim a))) => !a.requeues
  | _ => false

/-- The deadline of the run is forced. -/
def forces (op : QueueOp) (id : RunId) : Bool :=
  match op with
  | .forceDeadline a => a.runId == id
  | _ => false

end QueueOp

namespace Store

/-- One such transaction. -/
def stepQueue (s : Store) (c : QueueCall) : Store :=
  match c.op with
  | .work op => s.stepWork ⟨c.now, op⟩
  | .switchProfile a => (s.switchWorkerProfileAndRequeueRun c.now a).store
  | .reopenProvider a => (s.reopenDirectProviderNeedsInput c.now a).store
  | .forceDeadline a => (s.forceQueueDeadlineForLocalQa c.now a).store

/-- The states that a run comes back to the queue from. -/
def returnedStates : List RunState :=
  [.admitted, .running, .paused, .needsInput]

/-- The run comes back to the queue. -/
def Returns (r r' : Run) : Prop :=
  r.state ∈ returnedStates ∧ r'.state = .queued

end Store

/-- What a transaction does to the episode of a run. -/
inductive EpisodeMove (settings : Settings) (c : QueueCall) (id : RunId) (r r' : Run) : Prop
  | kept (h : r'.episode = r.episode ∨ r'.episode = r.episode.close)
      (hreturn : Store.Returns r r' → c.op.writesState = true)
  | resumed (hopen : r.episode.isOpen = true) (h : r'.episode = r.episode)
  | renewed (h : r'.episode = r.episode.renewed settings c.now id)
  | restarted (h : r'.episode = r.episode.close.renewed settings c.now id)
  | reopened (h : r'.episode = r.episode.reopened settings c.now)
      (hdown : c.op.downgrades = true) (hfrom : r.state = .running) (hto : r'.state = .queued)
  | forced (h : r'.episode = { r.episode with deadlineAt := c.now })
      (hforce : c.op.forces id = true) (hstate : r'.state = r.state)

namespace EpisodeMove

variable {settings : Settings} {c : QueueCall} {id : RunId} {r w : Run}

theorem of_kept (h : w.episode = r.episode ∨ w.episode = r.episode.close)
    (hreturn : Store.Returns r w → c.op.writesState = true) :
    EpisodeMove settings c id r (Run.triggered c.now r w) := by
  refine .kept ?_ fun hr => hreturn hr
  rw [episode_triggered]
  split
  · rcases h with h | h
    · exact Or.inr (by rw [h])
    · exact Or.inr (by rw [h]; rfl)
  · exact h

/-- A row that stays out of the queue keeps its episode or closes it. -/
theorem of_left (h : w.episode = r.episode ∨ w.episode = r.episode.close)
    (hstate : w.state ≠ .queued) : EpisodeMove settings c id r (Run.triggered c.now r w) :=
  of_kept h fun hr => absurd hr.2 hstate

theorem of_renewed (h : w.episode = r.episode.renewed settings c.now id)
    (hstate : w.state = .queued) : EpisodeMove settings c id r (Run.triggered c.now r w) :=
  .renewed ((episode_triggered_of_queued hstate).trans h)

theorem of_resume (h : w.queueWait = r.queueWait.resume settings c.now id)
    (hstate : w.state = .queued) : EpisodeMove settings c id r (Run.triggered c.now r w) := by
  have hrow : (Run.triggered c.now r w).episode = (r.queueWait.resume settings c.now id).current :=
    (episode_triggered_of_queued hstate).trans (congrArg QueueWait.current h)
  rw [current_resume] at hrow
  split at hrow
  · rename_i hopen
    exact .resumed hopen hrow
  · exact .renewed hrow

theorem of_downgrade {s : Store} {reason : String} (h : s.Downgrades c.now reason r w)
    (hdown : c.op.downgrades = true) :
    EpisodeMove s.settings c id r (Run.triggered c.now r w) := by
  obtain ⟨hrunning, s₀, id₀, r₀, hsettings, rfl⟩ := h
  refine .reopened ?_ hdown hrunning rfl
  rw [← hsettings]
  exact episode_triggered_of_queued rfl

/-- Generations never decrease. -/
theorem grows {r' : Run} (h : EpisodeMove settings c id r r') :
    r.episode.generation ≤ r'.episode.generation := by
  cases h with
  | kept h =>
    rcases h with h | h
    · exact (congrArg Episode.generation h).ge
    · exact (congrArg Episode.generation h).ge
  | resumed _ h => rw [h]
  | renewed h => exact h ▸ Episode.generation_le_reopened settings c.now r.episode
  | restarted h => exact h ▸ Episode.generation_le_reopened settings c.now r.episode.close
  | reopened h => exact h ▸ Episode.generation_le_reopened settings c.now r.episode
  | forced h => rw [h]

/-- A run that is brought back goes on with an open wait or begins the next one. -/
theorem returned {r' : Run} (h : EpisodeMove settings c id r r') (hreturn : Store.Returns r r')
    (hwrites : c.op.writesState = false) (hnum : 1 ≤ r.episode.generation) :
    r.episode.Continues r'.episode ∨ r.episode.Begins settings c.now r'.episode := by
  cases h with
  | kept _ h =>
    rw [h hreturn] at hwrites
    cases hwrites
  | resumed hopen h =>
    rw [h]
    exact Or.inl ⟨hopen, hopen, rfl, rfl⟩
  | renewed h =>
    rw [h]
    exact Episode.reopened_cases hnum rfl rfl rfl
  | restarted h =>
    rw [h]
    exact Or.inr ⟨rfl, by simp [Episode.renewed, Episode.reopened, Episode.close, hnum], rfl⟩
  | reopened h =>
    rw [h]
    exact Episode.reopened_cases hnum rfl rfl rfl
  | forced _ _ hstate =>
    have hfrom := hreturn.1
    rw [← hstate, hreturn.2] at hfrom
    simp [Store.returnedStates] at hfrom

end EpisodeMove

namespace Store

section Moves

variable {s : Store} {now : Time} {id : RunId} {r w : Run}

theorem episode_updatedRun (state : Option RunState) (patch : RunPatch) (r : Run) :
    (updatedRun state patch r).episode = r.episode := by
  simp only [updatedRun]
  split <;> rfl

theorem scheduleRewrites_move {op : ScheduleOp} (h : s.scheduleRewrites now id r w op) :
    EpisodeMove s.settings ⟨now, .work (.store (.schedule op))⟩ id r (Run.triggered now r w) := by
  cases op with
  | setSchedulePrincipalAuthority =>
    obtain ⟨-, -, -, rfl⟩ := h
    exact .of_left (Or.inl rfl) (by simp)
  | _ => exact h.elim

theorem runRewrites_move {op : RunOp} (h : s.runRewrites now id r w op) :
    EpisodeMove s.settings ⟨now, .work (.store (.run op))⟩ id r (Run.triggered now r w) := by
  cases op with
  | createRun | createOrGetRunForSchedule => exact h.elim
  | reconcileInvalidRunningRuns => exact .of_downgrade h rfl
  | updateRun =>
    obtain ⟨-, -, -, -, hdown | ⟨-, rfl⟩⟩ := h
    · exact .of_downgrade hdown rfl
    · exact .of_kept (Or.inl (episode_updatedRun ..)) fun _ => rfl
  | transitionRunIfState =>
    obtain ⟨-, -, -, -, -, -, rfl⟩ := h
    exact .of_kept (Or.inl rfl) fun _ => rfl
  | settleRunIfCurrent =>
    obtain ⟨-, -, -, rfl⟩ := h
    exact .of_left (Or.inl rfl) (by simp)
  | finalizeRunIfStateParallel =>
    obtain ⟨-, -, -, rfl⟩ := h
    exact .of_kept (Or.inl rfl) fun _ => rfl
  | finalizeRunIfStateLegacy =>
    obtain ⟨-, -, -, rfl⟩ := h
    exact .of_kept (Or.inl rfl) fun _ => rfl
  | cancelPendingRuns =>
    obtain ⟨-, hstate, -, rfl⟩ := h
    refine .of_left (Or.inl rfl) ?_
    rintro rfl
    simp [RunState.terminal] at hstate
  | cancelQueuedRunsForWorker =>
    obtain ⟨-, -, -, rfl⟩ := h
    exact .of_left (Or.inl rfl) (by simp)
  | requeueRunForRetry =>
    obtain ⟨rfl, -, -, -, rfl⟩ := h
    exact .of_renewed rfl rfl
  | replaceQueuedRunIdempotently =>
    obtain ⟨-, -, -, rfl⟩ := h
    exact .of_left (Or.inl rfl) (by simp [replacedRow])
  | expireQueuedRunIfDue =>
    obtain ⟨-, -, rfl⟩ := h
    exact .of_left (Or.inr rfl) (by simp [ExpireQueued.row])

theorem startRewrites_move {op : StartOp} (h : s.startRewrites now id r w op) :
    EpisodeMove s.settings ⟨now, .work (.store (.start op))⟩ id r (Run.triggered now r w) := by
  cases op with
  | claimNextQueuedRunParallel =>
    obtain ⟨-, -, rfl⟩ := h
    exact .of_left (Or.inl rfl) (by simp [claimedRun])
  | claimNextQueuedRunLegacy =>
    rcases h with ⟨-, -, rfl⟩ | ⟨-, rfl⟩
    · exact .of_left (Or.inl rfl) (by simp [unauthorizedRow])
    · exact .of_left (Or.inl rfl) (by simp [legacyRow])
  | reconcileDeadHostRunLease =>
    exact .of_downgrade h.2.2 rfl
  | admitClaimedRun =>
    obtain ⟨-, -, -, rfl⟩ := h
    exact .of_left (Or.inl rfl) (by simp)
  | markRunRuntimeInvoked =>
    obtain ⟨-, -, rfl⟩ := h
    exact .of_left (Or.inr rfl) (by simp [invokedRow, Run.invoke])
  | confirmHostRunStart =>
    obtain ⟨-, -, hdown | ⟨-, -, rfl⟩⟩ := h
    · exact .of_downgrade hdown rfl
    · exact .of_left (Or.inr rfl) (by simp [Run.invoke])
  | markHostRunStartTerminationUnconfirmed =>
    obtain ⟨-, -, -, rfl⟩ := h
    exact .of_left (Or.inl rfl) (by simp)
  | requeueUnconfirmedHostRunStart =>
    obtain ⟨rfl, -, rfl⟩ := h
    exact .of_renewed rfl rfl
  | _ => exact h.elim

theorem lifecycleRewrites_move {op : LifecycleOp} (h : s.lifecycleRewrites now id r w op) :
    EpisodeMove s.settings ⟨now, .work (.store (.lifecycle op))⟩ id r (Run.triggered now r w) := by
  cases op with
  | finalizeWorkerOperationClaim =>
    obtain ⟨-, -, hstate, rfl⟩ := h
    refine .of_left (Or.inl rfl) ?_
    rintro hqueued
    simp only [Run.conclude] at hqueued
    subst hqueued
    simp [RunState.terminal] at hstate
  | finalizeWorkerWorkStopClaim =>
    obtain ⟨-, -, -, rfl⟩ := h
    exact .of_left (Or.inl rfl) (by simp [stoppedRow, Run.conclude])
  | finalizeWorkerRunControlClaim a =>
    obtain ⟨rfl, -, -, rfl⟩ := h
    cases hrequeues : a.requeues with
    | true =>
      have hqueued : a.targetState = .queued := by
        simp only [FinalizeControl.requeues, Bool.and_eq_true, beq_iff_eq] at hrequeues
        exact hrequeues.2
      exact .of_resume (by simp [FinalizeControl.targetRow, hrequeues]) hqueued
    | false =>
      refine .of_kept (Or.inl ?_) fun _ => by simp [QueueOp.writesState, hrequeues]
      simp [Run.episode, FinalizeControl.targetRow, hrequeues]
  | finalizeWorkerSteerClaim =>
    obtain ⟨v, t, q, -, ⟨-, -, -, -, rfl⟩ | ⟨-, -, -, rfl⟩⟩ := h
    · refine .of_left (Or.inl rfl) ?_
      simp only [Run.conclude, steeredState]
      split <;> simp
    · exact .of_left (Or.inl rfl) (by simp)
  | finalizeWorkerTerminationClaim =>
    obtain ⟨-, -, -, rfl⟩ := h
    exact .of_left (Or.inl rfl) (by simp [Run.conclude])
  | _ => exact h.elim

theorem requestRewrites_move {op : RequestOp} (h : s.requestRewrites now id r w op) :
    EpisodeMove s.settings ⟨now, .work (.store (.request op))⟩ id r (Run.triggered now r w) := by
  cases op with
  | claimProviderRequestCancel =>
    obtain ⟨-, rfl⟩ := h
    exact .of_left (Or.inl rfl) (by simp [Run.conclude])
  | reconcileCancelledProviderNeedsInputRuns =>
    obtain ⟨-, rfl⟩ := h
    exact .of_left (Or.inl rfl) (by simp [Run.conclude])
  | arbitrateProviderRequestDeadline =>
    obtain ⟨-, rfl⟩ := h
    exact .of_left (Or.inl rfl) (by simp [overdueRow])
  | resumeNeedsInputActiveWorkAction =>
    obtain ⟨rfl, -, -, rfl⟩ := h
    exact .of_resume rfl rfl

/-- A transaction of the store moves the episode of every run in one of these ways. -/
theorem rewrites_move {op : Op} (h : s.Rewrites ⟨now, op⟩ id r w) :
    EpisodeMove s.settings ⟨now, .work (.store op)⟩ id r (Run.triggered now r w) := by
  cases op with
  | worker | gc => exact h.elim
  | schedule => exact scheduleRewrites_move h
  | run => exact runRewrites_move h
  | start => exact startRewrites_move h
  | lifecycle => exact lifecycleRewrites_move h
  | request => exact requestRewrites_move h

end Moves

/-! ## What a transaction does to the episodes -/

/-- The runs that a transaction leaves: their episodes moved, and new runs are in their first. -/
def EpisodesMove (s : Store) (c : QueueCall) (s' : Store) : Prop :=
  s.runs.Evolves (EpisodeMove s.settings c)
    (fun id r => r.episode = (s.queueDefaults c.now id).current) s'.runs

section Steps

variable {s s' : Store} {c : QueueCall}

theorem not_returns_self (r : Run) : ¬Returns r r := by
  rintro ⟨hfrom, hto⟩
  rw [hto] at hfrom
  simp [returnedStates] at hfrom

theorem move_refl (id : RunId) (r : Run) : EpisodeMove s.settings c id r r :=
  .kept (Or.inl rfl) fun hr => absurd hr (not_returns_self r)

theorem episodesMove_of_runs_eq (h : s'.runs = s.runs) : s.EpisodesMove c s' :=
  Table.evolves_of_eq move_refl h

theorem episodesMove_of_update {p : RunId → Run → Bool} {f : Run → Run}
    (h : s'.runs = s.runs.update p fun _ r => Run.triggered c.now r (f r))
    (hrow : ∀ id r, p id r = true →
      EpisodeMove s.settings c id r (Run.triggered c.now r (f r))) : s.EpisodesMove c s' := by
  rw [EpisodesMove, h]
  exact Table.evolves_update move_refl fun id r _ hp => hrow id r hp

theorem step_episodesMove (s : Store) (now : Time) (op : Op) :
    s.EpisodesMove ⟨now, .work (.store op)⟩ (s.step ⟨now, op⟩) := by
  have hruns := runs_step s ⟨now, op⟩
  refine Table.Evolves.mono hruns ?_ ?_
  · rintro id r r' - - (rfl | ⟨w, hw, rfl⟩)
    · exact move_refl id r'
    · exact rewrites_move hw
  · rintro id r' - ⟨_, _, _, _, _, rfl⟩
    rfl

theorem stepWork_episodesMove (s : Store) (now : Time) (op : WorkOp) :
    s.EpisodesMove ⟨now, .work op⟩ (s.stepWork ⟨now, op⟩) := by
  cases op with
  | store op => exact step_episodesMove s now op
  | reserveDelegation a =>
    rcases reserveDelegation_store s now a with hs | ⟨lease, haccept⟩
    · exact episodesMove_of_runs_eq (congrArg Store.runs hs)
    · exact Table.evolves_insert (acceptedRun_of_acceptDelegation haccept).run move_refl rfl
  | updateDelegationCurrentRun =>
    refine episodesMove_of_runs_eq ?_
    simp only [stepWork, updateDelegationCurrentRun]
    split <;> rfl
  | dismissDelegation => exact episodesMove_of_runs_eq rfl

/-- Every transaction moves the episodes. -/
theorem stepQueue_episodesMove (s : Store) (c : QueueCall) : s.EpisodesMove c (s.stepQueue c) := by
  obtain ⟨now, op⟩ := c
  cases op with
  | work op => exact stepWork_episodesMove s now op
  | switchProfile a =>
    rcases switchWorkerProfileAndRequeueRun_cases s now a with hs | ⟨w, r, fields, -, -, hs⟩
    · exact episodesMove_of_runs_eq (congrArg Store.runs hs)
    · refine episodesMove_of_update
        (by rw [stepQueue]; exact (congrArg Store.runs hs).trans (runs_switchRun fields w r)) ?_
      intro id q hp
      simp only [Bool.and_eq_true, beq_iff_eq] at hp
      obtain rfl : id = a.runId := hp.1.1
      exact .of_renewed rfl rfl
  | reopenProvider a =>
    rcases reopenDirectProviderNeedsInput_cases s now a with hs | hs
    · exact episodesMove_of_runs_eq (congrArg Store.runs hs)
    · refine episodesMove_of_update ((congrArg Store.runs hs).trans (runs_reopenRun a)) ?_
      intro id q hp
      simp only [Bool.and_eq_true, beq_iff_eq] at hp
      obtain rfl : id = a.runId := hp.1.1.1.1
      exact .restarted (episode_triggered_of_queued rfl)
  | forceDeadline a =>
    rcases forceQueueDeadlineForLocalQa_cases s now a with hs | hs
    · exact episodesMove_of_runs_eq (congrArg Store.runs hs)
    · refine episodesMove_of_update hs ?_
      intro id q hp
      rw [Bool.and_eq_true, beq_iff_eq] at hp
      exact .forced (by rw [episode_triggered]; simp [terminalFence, ForceDeadline.row]; rfl)
        (by simp [QueueOp.forces, hp.1]) rfl

end Steps

/-! ## Coherence -/

/-- Generations are numbered from one. -/
def Numbered (s : Store) : Prop :=
  ∀ id r, s.runs.get? id = some r → 1 ≤ r.queueWait.generation

section Runs

variable {s : Store} {c : QueueCall} {id : RunId} {r r' : Run}

theorem stepQueue_cases (hr' : (s.stepQueue c).runs.get? id = some r') :
    r'.episode = (s.queueDefaults c.now id).current ∨
      ∃ r, s.runs.get? id = some r ∧ EpisodeMove s.settings c id r r' := by
  rcases stepQueue_episodesMove s c id r' hr' with ⟨-, hnew⟩ | hmove
  · exact Or.inl hnew
  · exact Or.inr hmove

theorem numbered_stepQueue (hs : s.Numbered) : (s.stepQueue c).Numbered := by
  intro id r' hr'
  rcases stepQueue_cases hr' with hnew | ⟨r, hr, hmove⟩
  · exact (congrArg Episode.generation hnew).ge
  · exact (hs id r hr).trans hmove.grows

end Runs

/-- A call of the store, as a transaction of the queue. -/
def asQueueCall (c : Call) : QueueCall :=
  ⟨c.now, .work (.store c.op)⟩

/-- A retry of the first run under its first generation. -/
def retryFirstRun : RequeueRetry where
  runId := .uuid 3
  retryAfter := 1800000003
  expected := ⟨some 4, some 6, some 9, some 5⟩
  errorText := ""
  lastRetryClass := "host_worker_busy"
  consumeRetryBudget := false
  capacity := .default
  statusRefresh := none
  failure := .none

end Store

end GlassHive
