import GlassHive.DelegationReplay

/-!
# What the isolated admission sees

Work that asks for an isolated lane is admitted only while no mission runs on the host. The gate
enumerates the states of a busy run and counts active leases. A run that is claimed or admitted is
in neither, as long as it holds no active lease.
-/

namespace GlassHive

open Relational

namespace Store

/-- No host mission worker has a nonterminal run or an active lease. -/
def HostIdle (s : Store) : Prop :=
  ∀ id w, s.workers.get? id = some w → hostMission w = true →
    (∀ runId r, s.runs.get? runId = some r → r.workerId = id → r.state ∉ RunState.nonterminal) ∧
      ∀ leaseId l, s.leases.get? leaseId = some l → l.workerId = id → l.status ≠ .active

/-- No host mission worker has a run that is claimed or admitted. -/
def NoneStarting (s : Store) : Prop :=
  ∀ id w, s.workers.get? id = some w → hostMission w = true →
    ∀ runId r, s.runs.get? runId = some r → r.workerId = id →
      r.state ≠ .claimed ∧ r.state ≠ .admitted

/-- The identifiers that an acceptance draws are free. -/
structure IdsFree (s : Store) (lease : Option PreacceptLease) : Prop where
  workRef : s.delegations.get? s.nextId = none
  project : s.projects.get? (s.nextId + 1) = none
  worker : s.workers.get? (s.nextId + 2) = none
  run : s.runs.get? (.uuid (s.nextId + 3)) = none
  lease : lease.isSome = true → s.leases.get? (s.nextId + 4) = none ∧
    s.capacityAttempts.get? (.uuid (s.nextId + 3), 1) = none

/-- The checks that a new request passes in the store. -/
structure Admissible (s : Store) (now : Time) (a : NewDelegation) : Prop where
  arguments : a.argumentError = none
  gate : a.requireIsolatedParallelReady = true → s.isolatedConflict = false
  origin : s.originBound a.tenantId a.ownerId a.originRef = false
  capacity : ∃ lease, s.preacceptedLease now a = .ok lease ∧ s.IdsFree lease

section Admission

variable {s : Store} {now : Time} {a : NewDelegation}

/-- The states that the gate does not look for. -/
theorem mem_nonterminal_iff_blocking (st : RunState) :
    st ∈ RunState.nonterminal ↔ st ∈ isolatedBlockingStates ∨ st = .claimed ∨ st = .admitted := by
  cases st <;> decide

theorem isolatedConflict_eq_false : s.isolatedConflict = false ↔
    ∀ id w, s.workers.get? id = some w → hostMission w = true →
      (∀ runId r, s.runs.get? runId = some r → r.workerId = id →
        r.state ∉ isolatedBlockingStates) ∧
      ∀ leaseId l, s.leases.get? leaseId = some l → l.workerId = id → l.status ≠ .active := by
  unfold isolatedConflict
  rw [Table.any_eq_false]
  constructor
  · intro h id w hw hhost
    have hfree := h id w hw
    simp only [hhost, Bool.true_and, Bool.or_eq_false_iff, Table.any_eq_false] at hfree
    refine ⟨fun runId r hr hworker => ?_, fun leaseId l hl hworker => ?_⟩
    · have hstate := hfree.1 runId r hr
      simpa [hworker] using hstate
    · have hstatus := hfree.2 leaseId l hl
      simpa [hworker] using hstatus
  · intro h id w hw
    cases hhost : hostMission w with
    | false => rfl
    | true =>
      obtain ⟨hruns, hleases⟩ := h id w hw hhost
      simp only [Bool.true_and, Bool.or_eq_false_iff, Table.any_eq_false]
      refine ⟨fun runId r hr => ?_, fun leaseId l hl => ?_⟩
      · by_cases hworker : r.workerId = id
        · simpa [hworker] using hruns runId r hr hworker
        · simp [hworker]
      · by_cases hworker : l.workerId = id
        · simpa [hworker] using hleases leaseId l hl hworker
        · simp [hworker]

/-- Behind the gate, the host is idle when no run is starting there. -/
theorem hostIdle_iff (hgate : s.isolatedConflict = false) : s.HostIdle ↔ s.NoneStarting := by
  have hfree := isolatedConflict_eq_false.mp hgate
  constructor
  · intro hidle id w hw hhost runId r hr hworker
    have hstate := (hidle id w hw hhost).1 runId r hr hworker
    rw [mem_nonterminal_iff_blocking] at hstate
    exact ⟨fun h => hstate (Or.inr (Or.inl h)), fun h => hstate (Or.inr (Or.inr h))⟩
  · intro hnone id w hw hhost
    obtain ⟨hruns, hleases⟩ := hfree id w hw hhost
    refine ⟨fun runId r hr hworker hstate => ?_, hleases⟩
    obtain ⟨hclaimed, hadmitted⟩ := hnone id w hw hhost runId r hr hworker
    rcases (mem_nonterminal_iff_blocking r.state).mp hstate with h | h | h
    · exact hruns runId r hr hworker h
    · exact hclaimed h
    · exact hadmitted h

/-! ## When new work is accepted -/

theorem insertAcceptedLease_isSome {lease : Option PreacceptLease} {workerId : WorkerId}
    {runId : RunId} : (s.insertAcceptedLease now a lease workerId runId).isSome = true ↔
      (lease.isSome = true →
        s.leases.get? s.nextId = none ∧ s.capacityAttempts.get? (runId, 1) = none) := by
  cases lease with
  | none => simp [insertAcceptedLease]
  | some p =>
    simp only [insertAcceptedLease, insertPreacceptedLease, Option.isSome_some, true_imp_iff,
      Option.bind_eq_bind]
    rw [← Table.insert?_isSome (r := acquiredLease (a.acquire p workerId runId) now (s.nextId + 1)
      none)]
    cases s.leases.insert? s.nextId (acquiredLease (a.acquire p workerId runId) now (s.nextId + 1)
      none) with
    | none => simp
    | some leases =>
      simp only [Option.bind_some, Option.isSome_some, true_and]
      rw [← Table.insert?_isSome]
      cases h : s.capacityAttempts.insert? (runId, 1) _ with
      | none => simp
      | some => simp

/-- New work is inserted when its key, its origin reference and the drawn identifiers are free. -/
theorem acceptDelegation_isSome {lease : Option PreacceptLease}
    (hkey : s.delegationByKey a.tenantId a.ownerId a.idempotencyKey = none)
    (horigin : s.originBound a.tenantId a.ownerId a.originRef = false) :
    (s.acceptDelegation now a lease).isSome = true ↔ s.IdsFree lease := by
  constructor
  · intro h
    obtain ⟨s', h⟩ := Option.isSome_iff_exists.mp h
    simp only [acceptDelegation, Option.bind_eq_bind, Option.bind_eq_some_iff,
      Option.some.injEq] at h
    obtain ⟨projects, hprojects, workers, hworkers, s₁, hrun, s₂, hinsert, s₄, hlease, -⟩ := h
    obtain ⟨runs, hruns, rfl⟩ := insertRun?_eq_some hrun
    obtain ⟨-, -, -, -, delegations, hdelegations, rfl⟩ := insertDelegation?_eq_some hinsert
    have hfree := insertAcceptedLease_isSome.mp (Option.isSome_iff_exists.mpr ⟨s₄, hlease⟩)
    exact ⟨(Table.insert?_eq_some hdelegations).1, (Table.insert?_eq_some hprojects).1,
      (Table.insert?_eq_some hworkers).1, (Table.insert?_eq_some hruns).1, hfree⟩
  · intro h
    obtain ⟨projects, hprojects⟩ := Option.isSome_iff_exists.mp
      (Table.insert?_isSome (r := { tenantId := a.tenantId, createdAt := now }) |>.mpr h.project)
    obtain ⟨workers, hworkers⟩ := Option.isSome_iff_exists.mp
      (Table.insert?_isSome
        (r := a.worker now (s.nextId + 1) (.uuid (s.nextId + 3))) |>.mpr h.worker)
    have hproject : (projects.get? (s.nextId + 1)).isSome = true := by
      simp [Table.get?_insert hprojects]
    have hworker : (workers.get? (s.nextId + 2)).isSome = true := by
      simp [Table.get?_insert hworkers]
    obtain ⟨s₁, hrun⟩ := Option.isSome_iff_exists.mp
      ((@insertRun?_isSome
        { s.drawId.drawId.drawId.drawId with projects := projects, workers := workers }
        (.uuid (s.nextId + 3)) (s.newRun now (.uuid (s.nextId + 3)) (s.nextId + 2) (s.nextId + 1)
          a.tenantId a.instruction .queued)).mpr ⟨hworker, hproject, h.run⟩)
    obtain ⟨runs, hruns, rfl⟩ := insertRun?_eq_some hrun
    have hrow : (runs.get? (.uuid (s.nextId + 3))).isSome = true := by
      simp [Table.get?_insert hruns]
    obtain ⟨s₂, hinsert⟩ := Option.isSome_iff_exists.mp
      ((@insertDelegation?_isSome
        { s.drawId.drawId.drawId.drawId with
          projects := projects, workers := workers, runs := runs }
        s.nextId (a.row now (s.nextId + 1) (s.nextId + 2) (.uuid (s.nextId + 3)))).mpr
          ⟨⟨hproject, hworker, hrow, hrow⟩, hkey, horigin, h.workRef⟩)
    have hbound := hinsert
    obtain ⟨-, -, -, -, delegations, hdelegations, rfl⟩ := insertDelegation?_eq_some hinsert
    simp only [acceptDelegation, Option.bind_eq_bind, hprojects, hworkers, Option.bind_some, hrun,
      hbound]
    simp only [Option.isSome_bind, Option.isSome_some, Option.any_eq_true, and_true]
    exact Option.isSome_iff_exists.mp (insertAcceptedLease_isSome.mpr h.lease)

/-- New work is admitted exactly when its request passes the checks. -/
theorem reserveDelegation_admits_iff
    (hkey : s.delegationByKey a.tenantId a.ownerId a.idempotencyKey = none) :
    (∃ reply, (s.reserveDelegation now a).result = .ok reply) ↔ s.Admissible now a := by
  have hread : ∀ {s' : Store}, s.Accepted s' now a →
      ∃ record, s'.getDelegation s.nextId a.tenantId a.ownerId = some record := by
    intro s' haccepted
    have hd : s'.delegations.get? s.nextId =
        some (a.row now (s.nextId + 1) (s.nextId + 2) (.uuid (s.nextId + 3))) := by
      simp [Table.get?_insert haccepted.delegations]
    refine getDelegation_isSome hd ?_ ?_
    · simp [NewDelegation.row, Table.get?_insert haccepted.projects]
    · simp [NewDelegation.row, Table.get?_insert haccepted.workers]
  constructor
  · rintro ⟨reply, h⟩
    generalize ho : s.reserveDelegation now a = o at h
    unfold reserveDelegation at ho
    split at ho
    · subst ho
      cases h
    rename_i harguments
    split at ho
    · subst ho
      cases h
    rename_i hgate
    rw [hkey] at ho
    dsimp only at ho
    split at ho
    · subst ho
      cases h
    rename_i horigin
    rw [Bool.not_eq_true] at horigin
    split at ho
    · subst ho
      cases h
    rename_i lease hlease
    split at ho
    · subst ho
      cases h
    rename_i s' haccept
    refine ⟨harguments, fun hflag => ?_, horigin, lease, hlease, ?_⟩
    · simpa [hflag] using hgate
    · exact (acceptDelegation_isSome hkey horigin).mp (by rw [haccept]; rfl)
  · rintro ⟨harguments, hgate, horigin, lease, hlease, hfree⟩
    have hopen : (a.requireIsolatedParallelReady && s.isolatedConflict) = false := by
      cases hflag : a.requireIsolatedParallelReady with
      | false => rfl
      | true => exact hgate hflag
    obtain ⟨s', haccept⟩ := Option.isSome_iff_exists.mp
      ((@acceptDelegation_isSome s now a lease hkey horigin).mpr hfree)
    obtain ⟨record, hrecord⟩ := hread (accepted_of_acceptDelegation haccept)
    refine ⟨⟨record, false⟩, ?_⟩
    simp [reserveDelegation, harguments, hopen, hkey, horigin, hlease, haccept, answerDelegation,
      hrecord]

end Admission

/-- An isolated request under a new key is admitted on an idle host only, exactly when it fails
another check or no host mission worker has a claimed or admitted run. -/
theorem isolatedAdmission_iff (s : Store) (now : Time) (a : NewDelegation)
    (hflag : a.requireIsolatedParallelReady = true)
    (hkey : s.delegationByKey a.tenantId a.ownerId a.idempotencyKey = none) :
    ((∃ reply, (s.reserveDelegation now a).result = .ok reply) → s.HostIdle) ↔
      (s.Admissible now a → s.NoneStarting) := by
  rw [reserveDelegation_admits_iff hkey]
  refine forall_congr' fun hadmissible => ?_
  exact hostIdle_iff (hadmissible.gate hflag)

/-- On a host whose only run is queued, the request is stopped. -/
theorem isolatedAdmission_iff_queued :
    (fromCalls withQueuedRun).Reachable ∧
      (((∃ reply, ((fromCalls withQueuedRun).reserveDelegation 5 isolatedRequest).result =
          .ok reply) → (fromCalls withQueuedRun).HostIdle) ↔
        ((fromCalls withQueuedRun).Admissible 5 isolatedRequest →
          (fromCalls withQueuedRun).NoneStarting)) := by
  refine ⟨reachable_fromCalls _, isolatedAdmission_iff _ 5 isolatedRequest rfl ?_⟩
  exact delegationByKey_eq_none.mpr fun workRef d hd => by cases hd

/-- An isolated request is admitted while a host mission is claimed and about to start. -/
theorem isolatedAdmission_admits_beside_claimed :
    (fromCalls withClaimedRun).Reachable ∧
      (fromCalls withClaimedRun).delegationByKey 0 0 isolatedRequest.idempotencyKey = none ∧
      ((fromCalls withClaimedRun).reserveDelegation 5 isolatedRequest).result.isOk = true ∧
      ¬(fromCalls withClaimedRun).HostIdle := by
  refine ⟨reachable_fromCalls _, ?_, by decide, fun hidle => ?_⟩
  · exact delegationByKey_eq_none.mpr fun workRef d hd => by cases hd
  have hworker : ((fromCalls withClaimedRun).workers.get? 1).map hostMission = some true := by
    decide
  have hrun : ((fromCalls withClaimedRun).runs.get? (.uuid 3)).map
      (fun r => (r.workerId, r.state)) = some (1, .claimed) := by
    decide
  obtain ⟨w, hw, hhost⟩ := Option.map_eq_some_iff.mp hworker
  obtain ⟨r, hr, hcolumns⟩ := Option.map_eq_some_iff.mp hrun
  obtain ⟨howner, hstate⟩ := Prod.mk.inj hcolumns
  have hbusy := (hidle 1 w hw hhost).1 (.uuid 3) r hr howner
  rw [hstate] at hbusy
  exact hbusy (by decide)

end Store

end GlassHive
