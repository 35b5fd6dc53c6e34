import GlassHive.Liveness

/-!
# The two invocations of a runtime

The executor of a lease marks its runtime invoked, or the confirmation of its start invokes it. The
mark begins the liveness columns anew and clears the capacity retries; the confirmation leaves both
to the run.
-/

namespace GlassHive

open Relational

/-- An invoked run, with the columns that only the mark writes. -/
theorem Run.invoke_eq_invokedRow_iff {now : Time} {r : Run} :
    Run.invoke now r = Store.invokedRow now r ↔
      r.liveness = (Store.invokedRow now r).liveness ∧ r.retry.capacityCount = 0 := by
  constructor
  · intro h
    have hliveness : (Run.invoke now r).liveness = (Store.invokedRow now r).liveness :=
      congrArg Run.liveness h
    have hretry : (Run.invoke now r).retry.capacityCount =
        (Store.invokedRow now r).retry.capacityCount := congrArg (·.retry.capacityCount) h
    exact ⟨hliveness, hretry⟩
  · rintro ⟨hliveness, hcapacity⟩
    have hretry : (Run.invoke now r).retry = (Store.invokedRow now r).retry := by
      simp only [Run.invoke, Store.invokedRow, hcapacity]
    calc Run.invoke now r
        = { Run.invoke now r with
              liveness := (Run.invoke now r).liveness, retry := (Run.invoke now r).retry } := rfl
      _ = { Run.invoke now r with
              liveness := (Store.invokedRow now r).liveness
              retry := (Store.invokedRow now r).retry } := by
          rw [hretry, show (Run.invoke now r).liveness = _ from hliveness]
      _ = Store.invokedRow now r := rfl

theorem livenessBegins_invokedRow {now : Time} {r : Run} :
    (Store.invokedRow now r).LivenessBegins now :=
  ⟨rfl, rfl, rfl⟩

namespace Store

/-- An admitted run under its lease, and a confirmation by its executor that may invoke it. -/
structure AdmittedStart (s : Store) (now : Time) (a : ConfirmStart) (r : Run) (l : Lease)
    (attemptId : AttemptId) : Prop where
  get : s.runs.get? a.runId = some r
  runWorker : r.workerId = a.workerId
  lease : s.presentedLease now a.runId a.leaseId a.executorId = some l
  exact : a.exactLease now l = true
  generation : s.admittedGeneration now a.runId r a.leaseId l = some attemptId
  valid : a.identity.valid a.runId = true
  allowed : a.allowRuntimeInvocation = true

/-- Both invocations leave one row, its liveness columns begin at the invocation, and from there on
the attempt is judged by its own evidence. -/
structure InvocationsAgree (s : Store) (now : Time) (a : ConfirmStart) (attemptId : AttemptId) :
    Prop where
  rows : (s.markRunRuntimeInvoked now a.runId a.leaseId a.executorId).store.runs.get? a.runId =
    (s.confirmHostRunStart now a).store.runs.get? a.runId
  begins : ∀ s' ∈ [(s.markRunRuntimeInvoked now a.runId a.leaseId a.executorId).store,
    (s.confirmHostRunStart now a).store], ∃ r, s'.runs.get? a.runId = some r ∧ r.state = .running ∧
      r.activeAttemptId = some attemptId ∧ r.LivenessBegins now
  judged : ∀ s' ∈ [(s.markRunRuntimeInvoked now a.runId a.leaseId a.executorId).store,
    (s.confirmHostRunStart now a).store], ∀ H idOrder events,
      LivenessStore.JudgedSince H idOrder ⟨s', events⟩ a.runId attemptId now

/-- The confirmation is accepted, and the columns that it does not write are as the mark leaves
them. -/
structure ConfirmsAlike (s : Store) (now : Time) (a : ConfirmStart) (r : Run) (l : Lease) : Prop
    where
  worker : ∃ w, s.workers.get? a.workerId = some w ∧ workerAllowsStart w = true
  reserved : l.startupState = .reserved
  liveness : r.liveness = (invokedRow now r).liveness
  capacity : r.retry.capacityCount = 0

section Rows

variable {s : Store} {now : Time} {a : ConfirmStart} {r : Run} {l : Lease} {attemptId : AttemptId}

/-- What an admitted generation is. -/
theorem admittedGeneration_eq_some {runId : RunId} {leaseId : LeaseId}
    (h : s.admittedGeneration now runId r leaseId l = some attemptId) :
    r.state = .admitted ∧ r.activeAttemptId = some attemptId ∧ r.runtimeInvokedAt = none ∧
      r.queueWait.isOpen = true ∧ now < r.queueWait.deadlineAt := by
  rw [admittedGeneration] at h
  split at h
  · rename_i id t hgen
    split at h
    · rename_i hok
      obtain rfl := Option.some.inj h
      simp only [Bool.and_eq_true, beq_iff_eq, decide_eq_true_eq, Option.isNone_iff_eq_none] at hok
      exact ⟨hok.1.1.1.1.1.1.1.1, (activeAttempt_eq_some hgen).1, hok.1.1.1.1.1.1.1.2, hok.1.2,
        hok.2⟩
    · cases h
  · cases h

/-- The row of an invoked run. -/
theorem get?_invokeGeneration {runId : RunId} {leaseId : LeaseId} {f : Run → Run}
    (hr : s.runs.get? runId = some r)
    (hgen : s.admittedGeneration now runId r leaseId l = some attemptId)
    (hf : (f r).state = .running) :
    (s.invokeGeneration now runId r leaseId attemptId f).runs.get? runId = some (f r) := by
  obtain ⟨hstate, hactive, hinvoked, hopen, htime⟩ := admittedGeneration_eq_some hgen
  have hrows : (s.invokeGeneration now runId r leaseId attemptId f).runs =
      (s.updateRuns now (fun id r => id == runId && r.state == .admitted &&
        r.activeAttemptId == some attemptId && r.runtimeInvokedAt.isNone && r.queueWait.isOpen &&
        decide (now < r.queueWait.deadlineAt)) f).runs := rfl
  rw [hrows, get?_updateRuns_of_not_terminal, hr, Option.map_some]
  · simp [hstate, hactive, hinvoked, hopen, htime]
  · intro id v hv hp
    simp only [Bool.and_eq_true, beq_iff_eq] at hp
    obtain rfl := hp.1.1.1.1.1
    obtain rfl := Option.some.inj (hr.symm.trans hv)
    rw [hf]
    rfl

theorem AdmittedStart.mark (h : s.AdmittedStart now a r l attemptId) :
    (s.markRunRuntimeInvoked now a.runId a.leaseId a.executorId).store.runs.get? a.runId =
      some (invokedRow now r) := by
  obtain ⟨hstate, -⟩ := admittedGeneration_eq_some h.generation
  have hstore : (s.markRunRuntimeInvoked now a.runId a.leaseId a.executorId).store =
      s.invokeGeneration now a.runId r a.leaseId attemptId (invokedRow now) := by
    simp only [markRunRuntimeInvoked, h.get, h.lease, hstate, h.generation]
    rfl
  rw [hstore]
  exact get?_invokeGeneration h.get h.generation rfl

/-- The lease under which the run was admitted. -/
theorem AdmittedStart.lease_get (h : s.AdmittedStart now a r l attemptId) :
    s.leases.get? a.leaseId = some l ∧ l.runId = a.runId := by
  obtain ⟨hl, hok⟩ := Option.filter_eq_some_iff.mp h.lease
  simp only [Bool.and_eq_true, beq_iff_eq] at hok
  exact ⟨hl, hok.1.1.1⟩

/-- A confirmation for an admitted run invokes it or leaves the store. -/
theorem AdmittedStart.confirm (h : s.AdmittedStart now a r l attemptId) :
    (s.confirmHostRunStart now a).store =
      if (s.workers.get? a.workerId).any workerAllowsStart && l.startupState == .reserved then
        (s.invokeGeneration now a.runId r a.leaseId attemptId (Run.invoke now)).publishStart now a r
      else s := by
  obtain ⟨hstate, -⟩ := admittedGeneration_eq_some h.generation
  obtain ⟨hl, hlrun⟩ := h.lease_get
  have hr : (s.runs.get? a.runId).filter (fun r => r.workerId == a.workerId) = some r := by
    rw [h.get, Option.filter_some, h.runWorker, beq_self_eq_true, if_pos rfl]
  have hl' : (s.leases.get? a.leaseId).filter (fun l => l.runId == a.runId) = some l := by
    rw [hl, Option.filter_some, hlrun, beq_self_eq_true, if_pos rfl]
  have hadmitted : (if a.allowRuntimeInvocation then
      s.admittedGeneration now a.runId r a.leaseId l else none) = some attemptId := by
    rw [h.allowed, if_pos rfl, h.generation]
  have hnot : (r.state == .running) = false := by rw [hstate]; rfl
  rw [confirmHostRunStart, h.valid, hr, hl']
  cases hw : s.workers.get? a.workerId with
  | none => rfl
  | some w =>
    simp only [Bool.not_true, Bool.false_eq_true, if_false, hadmitted, h.exact, Option.isSome_some,
      Bool.true_or, Bool.true_and, Option.any_some, hnot, Bool.false_and]
    by_cases hallows : workerAllowsStart w = true
    · by_cases hreserved : l.startupState = .reserved
      · simp only [hallows, hreserved, beq_self_eq_true, Bool.and_self, if_true, Bool.not_true,
          Bool.false_eq_true, if_false]
        rfl
      · have hother : (l.startupState == .reserved) = false := beq_false_of_ne hreserved
        simp only [hallows, bne, hother, Bool.and_false, Bool.not_true, Bool.not_false,
          Bool.false_eq_true, if_false, if_true]
        split <;> rfl
    · simp only [Bool.not_eq_true] at hallows
      simp only [hallows, Bool.not_false, if_true, Bool.false_and, Bool.false_eq_true, if_false,
        Outcome.store_commit]

end Rows

/-- The two invocations agree on an admitted run exactly when the confirmation is accepted and the
run carries the liveness columns of a beginning attempt and no capacity retries. -/
theorem invocations_agree_iff {s : Store} {now : Time} {a : ConfirmStart} {r : Run} {l : Lease}
    {attemptId : AttemptId} (h : s.AdmittedStart now a r l attemptId) :
    s.InvocationsAgree now a attemptId ↔ s.ConfirmsAlike now a r l := by
  obtain ⟨hstate, hactive, -⟩ := admittedGeneration_eq_some h.generation
  have hmark := h.mark
  have hconfirm := h.confirm
  constructor
  · intro hagree
    have hrows := hagree.rows
    rw [hmark, hconfirm] at hrows
    split at hrows
    · rename_i haccepted
      rw [Bool.and_eq_true, Option.any_eq_true, beq_iff_eq] at haccepted
      rw [runs_publishStart, get?_invokeGeneration h.get h.generation rfl] at hrows
      obtain ⟨hliveness, hcapacity⟩ :=
        Run.invoke_eq_invokedRow_iff.mp (Option.some.inj hrows).symm
      exact ⟨haccepted.1, haccepted.2, hliveness, hcapacity⟩
    · -- a refused confirmation leaves the run admitted
      rw [h.get] at hrows
      have hstates := congrArg Run.state (Option.some.inj hrows)
      rw [hstate] at hstates
      cases hstates
  · intro halike
    have haccepted : ((s.workers.get? a.workerId).any workerAllowsStart &&
        l.startupState == .reserved) = true := by
      rw [Bool.and_eq_true, Option.any_eq_true, beq_iff_eq]
      exact ⟨halike.worker, halike.reserved⟩
    have hrow : (s.confirmHostRunStart now a).store.runs.get? a.runId =
        some (invokedRow now r) := by
      rw [hconfirm, if_pos haccepted, runs_publishStart,
        get?_invokeGeneration h.get h.generation rfl,
        Run.invoke_eq_invokedRow_iff.mpr ⟨halike.liveness, halike.capacity⟩]
    have hboth : ∀ s' ∈ [(s.markRunRuntimeInvoked now a.runId a.leaseId a.executorId).store,
        (s.confirmHostRunStart now a).store], s'.runs.get? a.runId = some (invokedRow now r) := by
      simp only [List.forall_mem_cons, List.not_mem_nil, false_imp_iff, implies_true, and_true]
      exact ⟨hmark, hrow⟩
    exact
      { rows := hmark.trans hrow.symm
        begins := fun s' hs' =>
          ⟨_, hboth s' hs', rfl, hactive, livenessBegins_invokedRow⟩
        judged := fun s' hs' H idOrder events =>
          LivenessStore.judgedSince_of_begins (d := ⟨s', events⟩) (hboth s' hs') hactive
            livenessBegins_invokedRow }

/-! ## A second attempt -/

def leaseForFirstRun : AcquireLease where
  runtimeFamily := "codex"
  lane := .mission
  tenantId := 0
  ownerId := 0
  workerId := 1
  runId := .uuid 3
  executorId := 9
  conversationLimit := 1
  missionLimit := 1
  accountMissionLimit := 1
  tenantMissionLimit := 1
  mutationScope := none
  ttl := 30
  available := none
  required := .zero
  reservation := .zero
  observedLeaseIds := []

/-- The first run is admitted under lease `6`, with startup token `5`. -/
def withAdmittedRun : List Call :=
  withClaimedRun ++
    [⟨5, .start (.acquireHostRunLease leaseForFirstRun)⟩,
     ⟨6, .start (.admitClaimedRun (.uuid 3) 6 9)⟩]

/-- Its first attempt was invoked and fenced, and a second is admitted a thousand seconds later, with
startup token `8`. -/
def withSecondAdmission : List Call :=
  withAdmittedRun ++
    [⟨10, .start (.markRunRuntimeInvoked (.uuid 3) 6 9)⟩,
     ⟨20, .start (.requeueUnconfirmedHostRunStart 1 (.uuid 3) 6 5 20 "")⟩,
     ⟨1000000000, .start (.claimNextQueuedRunParallel 1 (some 9) 30)⟩,
     ⟨1000000001, .start (.acquireHostRunLease leaseForFirstRun)⟩,
     ⟨1000000002, .start (.admitClaimedRun (.uuid 3) 6 9)⟩]

/-- A confirmation of the first run under lease `6`. -/
def confirmFirstRun (startupToken : Token) : ConfirmStart where
  workerId := 1
  runId := .uuid 3
  runStartedAt := none
  leaseId := 6
  startupToken := startupToken
  executorId := 9
  identity := ⟨.hostProcess, 12, 12, some (.text "12"), none, some (.id 1)⟩
  allowRuntimeInvocation := true
  callback := none

/-- The admission of a reachable store is read off its rows. -/
theorem admittedStart_of_admitted {s : Store} {now : Time} {a : ConfirmStart}
    {attemptId : AttemptId}
    (hrow : (s.runs.get? a.runId).any (fun r => r.workerId == a.workerId &&
      (s.presentedLease now a.runId a.leaseId a.executorId).any fun l => a.exactLease now l &&
        s.admittedGeneration now a.runId r a.leaseId l == some attemptId) = true)
    (hvalid : a.identity.valid a.runId = true) (hallowed : a.allowRuntimeInvocation = true) :
    ∃ r l, s.AdmittedStart now a r l attemptId := by
  obtain ⟨r, hr, hok⟩ := (Option.any_eq_true ..).mp hrow
  rw [Bool.and_eq_true, beq_iff_eq] at hok
  obtain ⟨l, hl, hlok⟩ := (Option.any_eq_true ..).mp hok.2
  rw [Bool.and_eq_true, beq_iff_eq] at hlok
  exact ⟨r, l, hr, hok.1, hl, hlok.1, hlok.2, hvalid, hallowed⟩

theorem invocations_agree_iff_first :
    ∃ r l, (fromCalls withAdmittedRun).AdmittedStart 7 (confirmFirstRun 5) r l 4 ∧
      ((fromCalls withAdmittedRun).InvocationsAgree 7 (confirmFirstRun 5) 4 ↔
        (fromCalls withAdmittedRun).ConfirmsAlike 7 (confirmFirstRun 5) r l) := by
  obtain ⟨r, l, h⟩ := @admittedStart_of_admitted (fromCalls withAdmittedRun) 7 (confirmFirstRun 5) 4
    (by decide) (by decide) rfl
  exact ⟨r, l, h, invocations_agree_iff h⟩

/-- A single run is swept in any order. -/
theorem sweptRuns_of_length_le_one {d : LivenessStore} {idOrder : RunId → RunId → Bool} {limit : ℕ}
    (h : (d.store.runs.select fun _ r => r.state == .running && r.livenessAnchor.isSome).length ≤ 1) :
    d.sweptRuns idOrder limit = (d.store.runs.select fun _ r =>
      r.state == .running && r.livenessAnchor.isSome).take (max 1 (min limit 1000)) := by
  rw [LivenessStore.sweptRuns]
  match hs : d.store.runs.select fun _ r => r.state == .running && r.livenessAnchor.isSome with
  | [] => rw [List.mergeSort_nil]
  | [e] => rw [List.mergeSort_singleton]
  | _ :: _ :: _ =>
    rw [hs] at h
    exact absurd h (by simp)

/-- The second attempt keeps the anchor of the first when its confirmation invokes it, and a sweep
of the next microsecond finds it stalled. -/
theorem confirmHostRunStart_keeps_anchor :
    (fromCalls withSecondAdmission).Reachable ∧
      (∃ r l, (fromCalls withSecondAdmission).AdmittedStart 1000000003 (confirmFirstRun 8) r l 7) ∧
      ¬(fromCalls withSecondAdmission).InvocationsAgree 1000000003 (confirmFirstRun 8) 7 ∧
      ¬LivenessStore.JudgedSince (fun _ => 0) (fun _ _ => true)
        ⟨((fromCalls withSecondAdmission).confirmHostRunStart 1000000003
          (confirmFirstRun 8)).store, .empty⟩ (.uuid 3) 7 1000000003 := by
  refine ⟨reachable_fromCalls _, admittedStart_of_admitted (by decide) (by decide) rfl,
    fun hagree => ?_, fun hjudged => ?_⟩
  · have hanchor : ((((fromCalls withSecondAdmission).confirmHostRunStart 1000000003
        (confirmFirstRun 8)).store.runs.get? (.uuid 3)).bind fun r => r.liveness.startedAt) =
          some 10 := by decide
    obtain ⟨r, hr, -, -, hbegins⟩ := hagree.begins _ (List.mem_cons_of_mem _ List.mem_cons_self)
    rw [show (confirmFirstRun 8).runId = .uuid 3 from rfl] at hr
    rw [hr, Option.bind_some, hbegins.startedAt] at hanchor
    exact absurd hanchor (by decide)
  · generalize hd : (⟨((fromCalls withSecondAdmission).confirmHostRunStart 1000000003
        (confirmFirstRun 8)).store, .empty⟩ : LivenessStore) = d at hjudged
    have hbefore : (d.store.runs.get? (.uuid 3)).any (fun r => r.state == .running &&
        r.activeAttemptId == some 7) = true := by
      rw [← hd]
      decide
    obtain ⟨r, hr, hok⟩ := (Option.any_eq_true ..).mp hbefore
    rw [Bool.and_eq_true, beq_iff_eq, beq_iff_eq] at hok
    have hafter : (((d.sweptRuns (fun _ _ => true) 100).foldl (LivenessStore.sweepRun (fun _ => 0)
        1000000004 1000000004 (LivenessStore.inactivityTime 900000000)) d).store.runs.get?
          (.uuid 3)).map Run.state = some .needsInput := by
      rw [sweptRuns_of_length_le_one] <;> rw [← hd] <;> decide
    obtain ⟨r', hr', hstate⟩ := Option.map_eq_some_iff.mp hafter
    obtain ⟨anchor, hfrom, hinactive⟩ := hjudged []
      ⟨1000000004, .sweep 1000000004 900000000 100⟩ r r' hr hok.1 hok.2 hr' hstate
    rcases hfrom with rfl | ⟨c, hc, -⟩
    · exact absurd hinactive (by decide)
    · cases hc

end Store

end GlassHive
