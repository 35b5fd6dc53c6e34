import GlassHive.RunMoves

/-!
# Runs of cancelled schedules

`cancel_schedule` finishes a scheduled run and clears its link. The run that was linked stays where
it is: one that is still open is claimed as any other. Along every run in which only schedules whose
run is finished are cancelled, and no finished run of theirs is reopened, no claim takes such a run.
-/

namespace GlassHive

open Relational Transition

namespace Store

/-- `cancel_schedule`. -/
def cancelSchedule (s : Store) (now : Time) (scheduleId : ScheduleId) :
    Outcome (Option ScheduledRun) :=
  s.finalizeSchedule now scheduleId .cancelled none ""

/-- The run that a claim takes. -/
def runTaken (s : Store) (c : Call) : Option RunId :=
  match c.op with
  | .start (.claimNextQueuedRunParallel workerId executorId ttl) =>
    (s.claimNextQueuedRunParallel c.now workerId executorId ttl).value?
  | .start (.claimNextQueuedRunLegacy workerId require) =>
    (s.claimNextQueuedRunLegacy c.now workerId require).value?
  | _ => none

/-- The scheduled run that a call links to its stable run. -/
def linkedSchedule (s : Store) (c : Call) : Option ScheduleId :=
  match c.op with
  | .run (.createOrGetRunForSchedule scheduleId bundle require fence) =>
    if (s.scheduledRuns.get? scheduleId).any (fun q => q.queuedRunId.isNone) &&
        (s.createOrGetRunForSchedule c.now scheduleId bundle require fence).value?.isSome then
      some scheduleId
    else none
  | _ => none

/-- The scheduled run is there, and not finished. -/
def scheduleOpen (s : Store) (scheduleId : ScheduleId) : Bool :=
  (s.scheduledRuns.get? scheduleId).any fun q => !oneOf q.state ScheduleState.terminal

/-- A transaction writes an open state over the finished run `id`. -/
def Reopens (s : Store) (c : Call) (id : RunId) : Prop :=
  ∃ r w, s.runs.get? id = some r ∧ r.state ∈ RunState.terminal ∧ s.Rewrites c id r w ∧
    w.state ∉ RunState.terminal

end Store

/-- A store, the scheduled runs that were linked, and the runs whose schedule was cancelled under
them, as long as they are there. -/
structure CancelledWork where
  store : Store
  linked : List ScheduleId
  orphans : List RunId

/-- A transaction, or the cancellation of a schedule. -/
inductive CancelStep
  | call (c : Call)
  | cancelSchedule (now : Time) (scheduleId : ScheduleId)

namespace CancelledWork

/-- A new database. -/
def init (settings : Settings) : CancelledWork :=
  ⟨.init settings, [], []⟩

/-- One step. -/
def step (h : CancelledWork) : CancelStep → CancelledWork
  | .call c =>
    { store := h.store.step c
      linked := h.linked ++ (h.store.linkedSchedule c).toList
      orphans := h.orphans.filter fun id => ((h.store.step c).runs.get? id).isSome }
  | .cancelSchedule now scheduleId =>
    { store := (h.store.cancelSchedule now scheduleId).store
      linked := h.linked
      orphans := h.orphans ++
        if h.store.scheduleOpen scheduleId && h.linked.contains scheduleId &&
            (h.store.runs.get? (.schedule scheduleId)).isSome then [.schedule scheduleId]
        else [] }

/-- No claim takes a run whose schedule was cancelled. -/
def RunsNothing (h : CancelledWork) : CancelStep → Prop
  | .call c => ∀ id ∈ h.orphans, h.store.runTaken c ≠ some id
  | .cancelSchedule _ _ => True

/-- A schedule is cancelled when its run is finished, and a finished run whose schedule was
cancelled is not reopened. -/
def Spares (h : CancelledWork) : CancelStep → Prop
  | .call c => ∀ id ∈ h.orphans, ¬h.store.Reopens c id
  | .cancelSchedule _ scheduleId =>
    h.store.scheduleOpen scheduleId = true → scheduleId ∈ h.linked →
      ∀ r, h.store.runs.get? (.schedule scheduleId) = some r → r.state ∈ RunState.terminal

/-- The runs whose schedule was cancelled are finished. -/
def Finished (h : CancelledWork) : Prop :=
  ∀ id ∈ h.orphans, ∃ r, h.store.runs.get? id = some r ∧ r.state ∈ RunState.terminal

variable {h : CancelledWork}

theorem finished_init (settings : Settings) : (init settings).Finished := by
  intro id hid
  simp [init] at hid

theorem finished_step (hfin : h.Finished) (i : CancelStep) (hspares : h.Spares i) :
    (h.step i).Finished := by
  cases i with
  | call c =>
    intro id hid
    obtain ⟨hmem, hthere⟩ := List.mem_filter.mp hid
    obtain ⟨r, hr, hterm⟩ := hfin id hmem
    obtain ⟨r', hr'⟩ := Option.isSome_iff_exists.mp hthere
    refine ⟨r', hr', ?_⟩
    rcases Store.runs_step h.store c id r' hr' with ⟨hnone, -⟩ | ⟨r₀, hr₀, hrow⟩
    · rw [hnone] at hr
      cases hr
    · obtain rfl := Option.some.inj (hr.symm.trans hr₀)
      rcases hrow with rfl | ⟨w, hw, rfl⟩
      · exact hterm
      · rw [Run.triggered_state]
        by_contra hopen
        exact hspares id hmem ⟨r, w, hr, hterm, hw, hopen⟩
  | cancelSchedule now scheduleId =>
    intro id hid
    have hruns : (h.step (.cancelSchedule now scheduleId)).store.runs = h.store.runs := rfl
    rw [hruns]
    rcases List.mem_append.mp hid with hid | hid
    · exact hfin id hid
    · split at hid
      · rename_i hcancels
        simp only [Bool.and_eq_true, List.contains_iff_mem] at hcancels
        obtain ⟨⟨hopen, hlinked⟩, hthere⟩ := hcancels
        obtain rfl := List.mem_singleton.mp hid
        obtain ⟨r, hr⟩ := Option.isSome_iff_exists.mp hthere
        exact ⟨r, hr, hspares hopen hlinked r hr⟩
      · simp at hid

/-- A claim takes a queued run. -/
theorem state_of_runTaken {s : Store} {c : Call} {id : RunId}
    (hclaim : s.runTaken c = some id) :
    ∃ r, s.runs.get? id = some r ∧ r.state = .queued := by
  unfold Store.runTaken at hclaim
  split at hclaim
  · rename_i workerId executorId ttl hop
    rcases s.claimNextQueuedRunParallel_cases c.now workerId executorId ttl with
      ⟨-, hnone, -⟩ | ⟨runId, r, attempts, hclaimable, -, hvalue, -⟩
    · rw [hnone] at hclaim
      cases hclaim
    · obtain rfl := Option.some.inj (hvalue.symm.trans hclaim)
      obtain ⟨hget, hdue⟩ := Store.claimable_eq_some hclaimable
      exact ⟨r, hget, Store.state_of_due hdue⟩
  · rename_i workerId require hop
    rcases s.claimNextQueuedRunLegacy_cases c.now workerId require with
      ⟨-, -, hnone⟩ | ⟨s', -, hvalue, -⟩
    · rw [hnone] at hclaim
      cases hclaim
    · rw [hvalue] at hclaim
      obtain ⟨⟨runId, r⟩, hclaimable, rfl⟩ := Option.map_eq_some_iff.mp hclaim
      obtain ⟨hget, hdue, -⟩ := Store.legacyClaimable_eq_some hclaimable
      exact ⟨r, hget, Store.state_of_due hdue⟩
  · cases hclaim

theorem runsNothing_of_finished (hfin : h.Finished) (i : CancelStep) : h.RunsNothing i := by
  cases i with
  | call =>
    intro id hid hclaim
    obtain ⟨r, hr, hterm⟩ := hfin id hid
    obtain ⟨r', hr', hqueued⟩ := state_of_runTaken hclaim
    obtain rfl := Option.some.inj (hr.symm.trans hr')
    rw [hqueued] at hterm
    exact absurd hterm (by decide)
  | cancelSchedule => trivial

/-- In every run whose steps spare the work of the schedules that they cancel, no claim takes a run
whose schedule was cancelled. -/
theorem cancelled_runs_nothing (settings : Settings) (steps : List CancelStep)
    (hspares : Along step Spares (init settings) steps) :
    Along step RunsNothing (init settings) steps :=
  along_of_invariant (fun _ i hfin hi => finished_step hfin i hi)
    (fun _ i hfin _ => runsNothing_of_finished hfin i) (finished_init settings) hspares

/-! ## A queued run that outlives its schedule -/

private def scheduledSteps : List CancelStep :=
  withScheduledRun.map .call

private def claimOfWorker : Call :=
  ⟨7, .start (.claimNextQueuedRunParallel 1 (some 9) 30)⟩

/-- A claim takes the queued run of a cancelled schedule. -/
theorem cancelled_runs_queued :
    ¬Along step RunsNothing (init Settings.default)
      (scheduledSteps ++ [.cancelSchedule 6 3, .call claimOfWorker]) := by
  intro halong
  have hlast := ((along_append step).mp halong).2.2.1
  exact hlast (.schedule 3) (by decide +kernel) (by decide +kernel)

private theorem along_spares_calls {h : CancelledWork} (hnone : h.orphans = [])
    (calls : List Call) : Along step Spares h (calls.map .call) := by
  induction calls generalizing h with
  | nil => trivial
  | cons c calls ih =>
    refine ⟨fun id hid => ?_, ih ?_⟩
    · simp [hnone] at hid
    · simp [step, hnone]

private def settledCalls : List Call :=
  withScheduledRun ++ [⟨6, .run (.cancelQueuedRunsForWorker 1 "stop" none)⟩]

private theorem along_spares_settled :
    Along step Spares (init Settings.default)
      (settledCalls.map .call ++ [.cancelSchedule 7 3, .call claimOfWorker]) := by
  refine (along_append step).mpr ⟨along_spares_calls rfl settledCalls, ?_, ?_, trivial⟩
  · intro _ _ r hr
    have hstate : ((run step (init Settings.default)
        (settledCalls.map .call)).store.runs.get? (.schedule 3)).map Run.state =
          some .cancelled := by
      decide +kernel
    rw [hr] at hstate
    rw [Option.some.inj hstate]
    decide
  · rintro id - ⟨r, w, -, hterm, ⟨hclaimable, -⟩, -⟩
    rw [Store.state_of_due (Store.claimable_eq_some hclaimable).2] at hterm
    exact absurd hterm (by decide)

/-- A schedule whose run was cancelled before it. -/
theorem cancelled_runs_nothing_settled :
    (run step (init Settings.default) (settledCalls.map .call ++ [.cancelSchedule 7 3])).orphans =
        [.schedule 3] ∧
      Along step RunsNothing (init Settings.default)
        (settledCalls.map .call ++ [.cancelSchedule 7 3, .call claimOfWorker]) :=
  ⟨by decide +kernel, cancelled_runs_nothing Settings.default _ along_spares_settled⟩

end CancelledWork

end GlassHive
