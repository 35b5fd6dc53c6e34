import GlassHive.LivenessRecord

/-!
# Observations and their moves

A judgement writes the liveness columns of a running run, and may move it to `needs_input` with its
attempt and its lease. The move looks for a worker that has the run as its last one, which is
another one as soon as another run is queued for it.
-/

namespace GlassHive

open Relational Transition

namespace Store

/-! ## What a judgement leaves of the attempts -/

/-- One move to `needs_input`: of a running run with its attempt, which ends. -/
structure Attends (s s' : Store) (runId : RunId) (attemptId : AttemptId) : Prop where
  row : ∃ v, s.runs.get? runId = some v ∧ v.state = .running ∧ v.activeAttemptId = some attemptId
  runs : ∀ id, s'.runs.get? id = (s.runs.get? id).map fun v => if id = runId then v.attention else v
  follow : s.AttemptsFollow s' (fun _ => False) fun _ _ => False
  live : ∃ t, s.attempts.get? attemptId = some t ∧ t.runId = runId ∧ t.endedAt = none
  ended : ∃ t, s'.attempts.get? attemptId = some t ∧ t.endedAt.isSome = true

/-- The attempt of a run that was moved: it was live in `s` and has ended in `s'`. -/
def Ended (s s' : Store) (runId : RunId) (attemptId : AttemptId) : Prop :=
  (∃ t, s.attempts.get? attemptId = some t ∧ t.runId = runId ∧ t.endedAt = none) ∧
    ∃ t, s'.attempts.get? attemptId = some t ∧ t.endedAt.isSome = true

/-- Every run keeps its attempt, and one that is moved on ends it. -/
structure JudgedTo (s s' : Store) : Prop where
  follow : s.AttemptsFollow s' (fun _ => False) fun _ _ => False
  rows : ∀ id v', s'.runs.get? id = some v' → ∃ v, s.runs.get? id = some v ∧
    v'.activeAttemptId = v.activeAttemptId ∧ (v'.state = v.state ∨ v.state = .running ∧
      ∃ attemptId, v.activeAttemptId = some attemptId ∧ s.Ended s' id attemptId)

section Judgements

variable {s s' s'' : Store} {now observed : Time} {token : OperationId} {runId : RunId}
  {r : Run} {attemptId : AttemptId}

theorem attempts_attend {leaseId : LeaseId} {w : Worker} :
    (s.attend now observed token runId r attemptId leaseId w).attempts = s.attempts.update
      (fun id t => id == attemptId && t.runId == runId && t.state == .of .running &&
        t.endedAt.isNone)
      (fun _ t => { t with
        state := .of .needsInput, endedAt := some observed
        terminalReason := "provider_progress_stalled" }) := rfl

theorem effects_attend {leaseId : LeaseId} {w : Worker} :
    (s.attend now observed token runId r attemptId leaseId w).effects =
      (s.effects.insert?
        { operation := .operation token, epoch := 0, operationKind := .needsInput,
          name := "callback.run_needs_input", workerId := r.workerId, runId := some runId }
        { binding := ⟨r.workerId, some runId⟩, status := .pending, createdAt := now,
          updatedAt := now }).getD s.effects := rfl

/-- A transition moves the run that it was given to `needs_input`. -/
theorem attends_of_transition
    (h : s.transitionProviderLivenessAttention now observed token runId r = some s') :
    ∃ attemptId, r.activeAttemptId = some attemptId ∧ s.Attends s' runId attemptId := by
  obtain ⟨-, attemptId, hactive, hrows⟩ := transitionProviderLivenessAttention_eq_some h
  unfold transitionProviderLivenessAttention at h
  split at h
  swap
  · cases h
  rename_i id t w leaseId l hgen hw hl
  obtain ⟨hid, ht, htrun⟩ := activeAttempt_eq_some hgen
  obtain rfl := Option.some.inj (hactive.symm.trans hid)
  split at h
  swap
  · cases h
  rename_i hok
  obtain rfl := Option.some.inj h
  rw [Bool.and_eq_true, attendable] at hok
  simp only [Bool.and_eq_true, beq_iff_eq, Option.isNone_iff_eq_none, Table.any_eq_true] at hok
  obtain ⟨⟨⟨⟨⟨⟨-, htstate⟩, htended⟩, -⟩, -⟩, -⟩, k, v, hv, ⟨hk, hvstate⟩, hvactive⟩ := hok
  subst hk
  refine ⟨attemptId, hactive, ⟨v, hv, hvstate, hvactive⟩, fun id => ?_, ?_,
    ⟨t, ht, htrun, htended⟩, ?_⟩
  · rw [hrows]
    refine Option.map_congr fun u hu => ?_
    by_cases hsame : id = k
    · subst hsame
      obtain rfl := Option.some.inj (hv.symm.trans hu)
      simp [hvstate, hvactive]
    · simp [hsame]
  · exact attemptsFollow_update attempts_attend fun _ _ _ _ =>
      Attempt.follows_of_ended rfl rfl rfl rfl rfl
  · rw [attempts_attend]
    simp [Table.get?_update, ht, htrun, htstate, htended]

theorem judgedTo_refl : s.JudgedTo s where
  follow := attemptsFollow_refl
  rows _ v hv := ⟨v, hv, rfl, Or.inl rfl⟩

/-- One more move. -/
theorem JudgedTo.attends (h : s.JudgedTo s') (h' : s'.Attends s'' runId attemptId) :
    s.JudgedTo s'' where
  follow := h.follow.trans h'.follow fun _ _ _ hfalse _ => hfalse
  rows id v'' hv'' := by
    rw [h'.runs] at hv''
    obtain ⟨v', hv', rfl⟩ := Option.map_eq_some_iff.mp hv''
    obtain ⟨v, hv, hactive, hstate⟩ := h.rows id v' hv'
    by_cases hsame : id = runId
    · subst hsame
      obtain ⟨u, hu, hu_state, hu_active⟩ := h'.row
      obtain rfl := Option.some.inj (hv'.symm.trans hu)
      obtain ⟨t', ht', ht'_run, ht'_live⟩ := h'.live
      refine ⟨v, hv, by rw [if_pos rfl]; exact hactive, Or.inr ?_⟩
      rcases hstate with hstate | ⟨-, id', hid', -, t₁, ht₁, hended⟩
      · refine ⟨hstate ▸ hu_state, attemptId, hactive.symm.trans hu_active, ?_, h'.ended⟩
        -- the attempt was live before, since no attempt lives again
        cases ht : s.attempts.get? attemptId with
        | none => exact (h.follow.fresh attemptId t' ht ht').elim
        | some t =>
          obtain ⟨t₂, ht₂, hfollows⟩ := h.follow.kept attemptId t ht
          obtain rfl := Option.some.inj (ht'.symm.trans ht₂)
          refine ⟨t, rfl, hfollows.runId.symm.trans ht'_run, ?_⟩
          by_contra hne
          have hended := hfollows.ended (Option.isSome_iff_ne_none.mpr hne)
          rw [ht'_live] at hended
          cases hended
      · -- an attempt that ended cannot be moved again
        rw [← hactive, hu_active] at hid'
        obtain rfl := Option.some.inj hid'
        rw [ht'] at ht₁
        obtain rfl := Option.some.inj ht₁
        rw [ht'_live] at hended
        cases hended
    · refine ⟨v, hv, by rw [if_neg hsame]; exact hactive, ?_⟩
      rw [if_neg hsame]
      refine hstate.imp_right fun ⟨hrunning, id', hid', hlive, t', ht', hended⟩ => ?_
      obtain ⟨t'', ht'', hfollows⟩ := h'.follow.kept id' t' ht'
      exact ⟨hrunning, id', hid', hlive, t'', ht'', hfollows.ended hended⟩

theorem mem_attendedIn {e : RunId × Option AttemptId} : e ∈ s.attendedIn s' ↔
    ∃ r r', s.runs.get? e.1 = some r ∧ r.state = .running ∧ s'.runs.get? e.1 = some r' ∧
      r'.state = .needsInput ∧ e.2 = r.activeAttemptId := by
  unfold attendedIn
  simp only [List.mem_map, Prod.exists, Table.mem_select, Bool.and_eq_true, beq_iff_eq,
    Option.any_eq_true]
  constructor
  · rintro ⟨id, r, ⟨hr, hstate, r', hr', hstate'⟩, rfl⟩
    exact ⟨r, r', hr, hstate, hr', hstate', rfl⟩
  · rintro ⟨r, r', hr, hstate, hr', hstate', hactive⟩
    exact ⟨e.1, r, ⟨hr, hstate, r', hr', hstate'⟩, Prod.ext rfl hactive.symm⟩

theorem nodup_attendedIn : (s.attendedIn s').Nodup := by
  have hkeys : ((s.attendedIn s').map Prod.fst).Nodup := by
    unfold attendedIn Table.select
    rw [List.map_map]
    exact s.runs.nodup.sublist (List.filter_sublist.map Prod.fst)
  exact hkeys.of_map

/-- The attempts of the runs that are moved were live and have ended. -/
theorem JudgedTo.ended (h : s.JudgedTo s') {e : RunId × Option AttemptId}
    (he : e ∈ s.attendedIn s') : ∃ id, e.2 = some id ∧ s.Ended s' e.1 id := by
  obtain ⟨r, r', hr, hstate, hr', hstate', hactive⟩ := mem_attendedIn.mp he
  obtain ⟨v, hv, -, hsame | ⟨-, id, hid, hended⟩⟩ := h.rows _ _ hr'
  · obtain rfl := Option.some.inj (hr.symm.trans hv)
    rw [hstate, hstate'] at hsame
    cases hsame
  · obtain rfl := Option.some.inj (hr.symm.trans hv)
    exact ⟨id, hactive.trans hid, hended⟩

theorem attendedIn_eq_nil (h : ∀ id v v', s.runs.get? id = some v → s'.runs.get? id = some v' →
    v'.state = v.state) : s.attendedIn s' = [] := by
  refine List.eq_nil_iff_forall_not_mem.mpr fun e he => ?_
  obtain ⟨r, r', hr, hstate, hr', hstate', -⟩ := mem_attendedIn.mp he
  have hsame := h _ _ _ hr hr'
  rw [hstate, hstate'] at hsame
  cases hsame

/-- A sweep is a sequence of moves. -/
theorem judgedTo_sweep {H : LivenessSource → OperationId} {inactivity : Time}
    (es : List (RunId × Run)) {d : LivenessStore} (h : s.JudgedTo d.store) :
    s.JudgedTo (es.foldl (LivenessStore.sweepRun H now observed inactivity) d).store := by
  induction es generalizing d with
  | nil => exact h
  | cons e es ih =>
    refine ih ?_
    unfold LivenessStore.sweepRun
    split
    · split
      · exact h
      dsimp only
      split
      · exact h
      · rename_i s₁ htrans
        obtain ⟨attemptId, -, hattends⟩ := attends_of_transition htrans
        exact h.attends hattends
    · exact h

end Judgements

end Store

/-! ## What an observation does -/

namespace LivenessStore

variable {H : LivenessSource → OperationId} (idOrder : RunId → RunId → Bool) {d : LivenessStore}
  {now : Time} {o : LivenessObservation} {r : Run} {w : Worker}

/-- The store in which an applied observation has written its columns. -/
def observed (d : LivenessStore) (now : Time) (o : LivenessObservation) : Store :=
  d.store.updateRuns now
    (fun id r => id == o.runId && r.state == .running &&
      r.activeAttemptId == some o.expectedAttemptId)
    (o.apply now)

/-- What the exact observation finds. -/
structure Live (d : LivenessStore) (now : Time) (o : LivenessObservation) (r : Run) (w : Worker) :
    Prop where
  running : r.state = .running
  active : r.activeAttemptId = some o.expectedAttemptId
  worker : oneOf w.state [.stopping, .terminated] = false
  release : (w.release.kind.any fun k => oneOf k OperationKind.stopping) = false
  attempt : ∃ t, d.store.activeAttempt o.runId r = some (o.expectedAttemptId, t) ∧
    t.state = .of .running ∧ t.endedAt = none
  lease : ∃ id l, d.store.leases.get? id = some l ∧ l.runId = o.runId ∧
    l.attemptId = some o.expectedAttemptId ∧ l.status = .active

theorem Applies.live (h : d.Applies now o r w) : d.Live now o r w := by
  have hexact := h.exact
  simp only [LivenessObservation.exact, Bool.and_eq_true, beq_iff_eq, Bool.not_eq_true',
    Table.any_eq_true, Option.isNone_iff_eq_none] at hexact
  obtain ⟨⟨⟨⟨⟨⟨⟨hstate, hactive⟩, -⟩, -⟩, hworker⟩, hrelease⟩, id, t, ht,
    ⟨⟨hid, htrun⟩, htstate⟩, htended⟩, leaseId, l, hl, ⟨⟨hlrun, hlattempt⟩, hlactive⟩, -⟩ := hexact
  subst hid
  exact ⟨hstate, hactive, hworker, hrelease,
    ⟨t, Store.activeAttempt_of_get hactive ht htrun, htstate, htended⟩,
    ⟨leaseId, l, hl, hlrun, hlattempt, hlactive⟩⟩

theorem apply_state : (o.apply now r).state = r.state := by
  unfold LivenessObservation.apply
  split <;> rfl

theorem apply_activeAttemptId : (o.apply now r).activeAttemptId = r.activeAttemptId := by
  unfold LivenessObservation.apply
  split <;> rfl

theorem apply_workerId : (o.apply now r).workerId = r.workerId := by
  unfold LivenessObservation.apply
  split <;> rfl

/-- An applied observation writes to its own run. -/
theorem Applies.get?_observed (h : d.Applies now o r w) (id : RunId) :
    (d.observed now o).runs.get? id =
      if id = o.runId then some (o.apply now r) else d.store.runs.get? id := by
  have hlive := h.live
  rw [observed, Store.get?_updateRuns_of_not_terminal]
  · split
    · rename_i hid
      rw [hid, h.run]
      simp [hlive.running, hlive.active]
    · rename_i hid
      cases d.store.runs.get? id <;> simp [hid]
  · intro id v _ hp
    simp only [Bool.and_eq_true, beq_iff_eq] at hp
    rw [apply_state, hp.1.2]
    rfl

theorem get?_leases_observed (id : LeaseId) :
    (d.observed now o).leases.get? id = d.store.leases.get? id := by
  unfold observed
  rw [Store.updateRuns_leases, Table.get?_update]
  cases d.store.leases.get? id with
  | none => rfl
  | some l =>
    have hkeep : l.fencedBy now d.store.runs (d.store.runs.update (fun id r => id == o.runId &&
        r.state == .running && r.activeAttemptId == some o.expectedAttemptId)
        fun _ => o.apply now) = l := by
      rw [Lease.fencedBy, Table.get?_update]
      cases d.store.runs.get? l.runId with
      | none => rfl
      | some v =>
        have hfence : ∀ q : Run, q.state = v.state → terminalFence v q = false := by
          intro q hq
          rw [terminalFence, hq, Bool.and_not_self]
        simp only [Option.map_some]
        split
        · simp only [Lease.fenced, hfence _ apply_state, Bool.false_and, Bool.false_eq_true,
            if_false]
        · simp only [Lease.fenced, hfence _ rfl, Bool.false_and, Bool.false_eq_true, if_false]
    simp [hkeep]

/-- The move after an applied observation is made exactly for the last run of the worker. -/
theorem Applies.transition (h : d.Applies now o r w) (token : OperationId) :
    (w.lastRunId = some o.runId → ∃ leaseId,
      (d.observed now o).transitionProviderLivenessAttention now (o.observedAt.getD now) token
        o.runId (o.apply now r) = some ((d.observed now o).attend now (o.observedAt.getD now) token
          o.runId (o.apply now r) o.expectedAttemptId leaseId w)) ∧
    (w.lastRunId ≠ some o.runId →
      (d.observed now o).transitionProviderLivenessAttention now (o.observedAt.getD now) token
        o.runId (o.apply now r) = none) := by
  have hlive := h.live
  obtain ⟨t, hattempt, htstate, htended⟩ := hlive.attempt
  obtain ⟨-, ht, htrun⟩ := Store.activeAttempt_eq_some hattempt
  have hattempt' : (d.observed now o).activeAttempt o.runId (o.apply now r) =
      some (o.expectedAttemptId, t) :=
    Store.activeAttempt_of_get (apply_activeAttemptId.trans hlive.active) ht htrun
  have hworker' : (d.observed now o).workers.get? (o.apply now r).workerId = some w := by
    rw [apply_workerId]
    exact h.worker
  have hrow : ((d.observed now o).runs.any fun id v => id == o.runId && v.state == .running &&
      v.activeAttemptId == some o.expectedAttemptId) = true := by
    simp only [Table.any_eq_true, h.get?_observed]
    exact ⟨o.runId, o.apply now r, if_pos rfl, by
      simp [apply_state, apply_activeAttemptId, hlive.running, hlive.active]⟩
  have hlease : ∃ e, ((d.observed now o).leases.select fun _ l => l.runId == o.runId &&
      l.attemptId == (o.apply now r).activeAttemptId && l.status == .active).head? = some e := by
    obtain ⟨leaseId, l, hl, hlrun, hlattempt, hlactive⟩ := hlive.lease
    have hmem : (leaseId, l) ∈ (d.observed now o).leases.select fun _ l => l.runId == o.runId &&
        l.attemptId == (o.apply now r).activeAttemptId && l.status == .active := by
      rw [Table.mem_select, get?_leases_observed]
      exact ⟨hl, by simp [apply_activeAttemptId, hlive.active, hlrun, hlattempt, hlactive]⟩
    exact Option.isSome_iff_exists.mp
      (List.isSome_head?.mpr (List.ne_nil_of_mem hmem))
  obtain ⟨⟨leaseId, l⟩, hlease⟩ := hlease
  unfold Store.transitionProviderLivenessAttention
  simp only [hattempt', hworker', hlease, hrow, Bool.and_true]
  have hattendable : Store.attendable o.runId (o.apply now r) t w =
      (w.lastRunId == some o.runId) := by
    simp [Store.attendable, apply_state, hlive.running, htstate, htended, hlive.worker,
      hlive.release]
  rw [hattendable]
  constructor
  · intro hlast
    exact ⟨leaseId, by simp [hlast]⟩
  · intro hlast
    simp [hlast]

/-- An applied observation is answered by what it records. -/
theorem Applies.observeProviderLiveness (h : d.Applies now o r w) :
    d.observeProviderLiveness H now o =
      .ok ((d.recordObservation H now o r).1, some (d.recordObservation H now o r).2) := by
  have hcollision : (d.events.any fun _ e => e.runId == o.runId &&
      e.attemptId == o.expectedAttemptId &&
      e.sourceSequence == o.sourceSequence.toNat) = false := by
    have hnext := h.next
    unfold isNext at hnext
    rw [Bool.not_eq_true', Table.any_eq_false] at hnext
    rw [Table.any_eq_false]
    intro source e he
    have hbelow := hnext source e he
    by_contra hsame
    rw [Bool.not_eq_false, Bool.and_eq_true, beq_iff_eq] at hsame
    simp [hsame.1, hsame.2] at hbelow
  unfold LivenessStore.observeProviderLiveness
  rw [h.check]
  simp only [bind, Except.bind, h.run, h.worker, h.exact, h.unrecorded, hcollision, Bool.not_true,
    Bool.false_eq_true, if_false]

/-- The retry with which the count of its run reaches the limit. -/
def AtLimit (o : LivenessObservation) (r : Run) : Prop :=
  o.kind = .internalRetry ∧ o.limit ≤ r.liveness.internalRetryCount + 1

/-- What an applied observation records. -/
theorem Applies.recordObservation (h : d.Applies now o r w) :
    (d.recordObservation H now o r).2.applied = true ∧
      (d.recordObservation H now o r).1.events =
        (d.events.insert? o.source (o.event now)).getD d.events ∧
      (AtLimit o r ∧ w.lastRunId = some o.runId → ∃ leaseId,
        (d.observed now o).transitionProviderLivenessAttention now (o.observedAt.getD now)
            (H o.source) o.runId (o.apply now r) = some (d.recordObservation H now o r).1.store ∧
          (d.recordObservation H now o r).1.store = (d.observed now o).attend now
            (o.observedAt.getD now) (H o.source) o.runId (o.apply now r) o.expectedAttemptId leaseId
            w) ∧
      (¬(AtLimit o r ∧ w.lastRunId = some o.runId) →
        (d.recordObservation H now o r).1.store = d.observed now o) := by
  obtain ⟨hmoved, hkept⟩ := h.transition (H o.source)
  have hrow : (d.observed now o).runs.get? o.runId = some (o.apply now r) := by
    rw [h.get?_observed, if_pos rfl]
  have hcount : o.kind = .internalRetry →
      (o.apply now r).liveness.internalRetryCount = r.liveness.internalRetryCount + 1 := by
    intro hkind
    simp [LivenessObservation.apply, hkind, Run.retried]
  unfold LivenessStore.recordObservation
  simp only [h.next, if_true, insertEvent, Bool.true_and, Bool.and_eq_true, beq_iff_eq,
    decide_eq_true_eq]
  change _ ∧ _ ∧ _ ∧ _
  unfold observed at hrow hmoved hkept ⊢
  simp only [hrow, Option.getD_some]
  refine ⟨trivial, trivial, ?_, ?_⟩
  · rintro ⟨⟨hkind, hlimit⟩, hlast⟩
    obtain ⟨leaseId, htrans⟩ := hmoved hlast
    refine ⟨leaseId, ?_⟩
    rw [if_pos ⟨hkind, by rw [hcount hkind]; exact hlimit⟩, htrans, Option.getD_some]
    exact ⟨rfl, rfl⟩
  · intro hnot
    split
    · rename_i hreaches
      have hlast : w.lastRunId ≠ some o.runId := by
        intro hlast
        exact hnot ⟨⟨hreaches.1, hcount hreaches.1 ▸ hreaches.2⟩, hlast⟩
      rw [hkept hlast, Option.getD_none]
    · rfl

/-- A judgement by an applied observation. -/
theorem Applies.step (h : d.Applies now o r w) :
    d.step H idOrder ⟨now, .observe o⟩ = (d.recordObservation H now o r).1 ∧
      d.appliedBy H ⟨now, .observe o⟩ = some o.applied := by
  unfold LivenessStore.step appliedBy
  simp only [h.observeProviderLiveness, h.recordObservation.1, if_true, and_self]

/-- Without a row of its attempt, an observation is answered with nothing. -/
theorem observeProviderLiveness_of_stale (h : ∀ r, d.store.runs.get? o.runId = some r →
    r.activeAttemptId ≠ some o.expectedAttemptId) :
    (∃ e, d.observeProviderLiveness H now o = .error e) ∨
      d.observeProviderLiveness H now o = .ok (d, none) := by
  generalize hout : d.observeProviderLiveness H now o = out
  unfold LivenessStore.observeProviderLiveness at hout
  cases hcheck : o.check with
  | error e =>
    rw [hcheck] at hout
    exact Or.inl ⟨e, hout.symm⟩
  | ok =>
    rw [hcheck] at hout
    dsimp only [bind, Except.bind] at hout
    split at hout
    · exact Or.inr hout.symm
    rename_i r hr
    split at hout
    · exact Or.inr hout.symm
    rename_i w hw
    have hexact : o.exact d.store now r w = false := by
      simp [LivenessObservation.exact, h r hr]
    rw [hexact] at hout
    exact Or.inr hout.symm

/-- An observation that is not applied may still leave its event. -/
theorem observeProviderLiveness_of_not_applies (h : ¬∃ r w, d.Applies now o r w) :
    (∃ e, d.observeProviderLiveness H now o = .error e) ∨
      d.observeProviderLiveness H now o = .ok (d, none) ∨
      ∃ v : ObservedRun, v.applied = false ∧
        (d.observeProviderLiveness H now o = .ok (d, some v) ∨
          d.observeProviderLiveness H now o =
            .ok (d.insertEvent o.source (o.event now), some v)) := by
  generalize hout : d.observeProviderLiveness H now o = out
  unfold LivenessStore.observeProviderLiveness at hout
  cases hcheck : o.check with
  | error e =>
    rw [hcheck] at hout
    exact Or.inl ⟨e, hout.symm⟩
  | ok =>
    rw [hcheck] at hout
    dsimp only [bind, Except.bind] at hout
    split at hout
    · exact Or.inr (Or.inl hout.symm)
    rename_i r hr
    split at hout
    · exact Or.inr (Or.inl hout.symm)
    rename_i w hw
    split at hout
    · exact Or.inr (Or.inl hout.symm)
    rename_i hexact
    rw [Bool.not_eq_true', Bool.not_eq_false] at hexact
    split at hout
    · split at hout
      · exact Or.inr (Or.inr ⟨_, rfl, Or.inl hout.symm⟩)
      · exact Or.inl ⟨_, hout.symm⟩
    rename_i hnone
    split at hout
    · exact Or.inl ⟨_, hout.symm⟩
    have hnext : d.isNext o = false := by
      by_contra hnext
      rw [Bool.not_eq_false] at hnext
      exact h ⟨r, w, hcheck, hr, hw, hexact, hnone, hnext⟩
    refine Or.inr (Or.inr ⟨(d.recordObservation H now o r).2, hnext, Or.inr ?_⟩)
    have hevent : (d.recordObservation H now o r).1 = d.insertEvent o.source (o.event now) := by
      unfold LivenessStore.recordObservation
      simp only [hnext, Bool.false_and, Bool.false_eq_true, if_false, Option.getD_none]
    rw [← hevent]
    exact hout.symm

/-- A judgement by an observation that is not applied leaves the store. -/
theorem step_of_not_applies (h : ¬∃ r w, d.Applies now o r w) :
    d.appliedBy H ⟨now, .observe o⟩ = none ∧
      (d.step H idOrder ⟨now, .observe o⟩).store = d.store ∧
      ((d.step H idOrder ⟨now, .observe o⟩).events = d.events ∨
        (d.step H idOrder ⟨now, .observe o⟩).events =
          (d.events.insert? o.source (o.event now)).getD d.events) := by
  unfold LivenessStore.step appliedBy
  rcases @observeProviderLiveness_of_not_applies H _ _ _ h with
    ⟨e, hout⟩ | hout | ⟨v, hv, hout | hout⟩
  · simp [hout]
  · simp [hout]
  · simp [hout, hv]
  · simp [hout, hv, insertEvent]

/-- An observation of another attempt changes nothing. -/
theorem step_of_stale (h : ∀ r, d.store.runs.get? o.runId = some r →
    r.activeAttemptId ≠ some o.expectedAttemptId) :
    d.step H idOrder ⟨now, .observe o⟩ = d ∧ d.appliedBy H ⟨now, .observe o⟩ = none := by
  unfold LivenessStore.step appliedBy
  rcases @observeProviderLiveness_of_stale H _ now _ h with ⟨e, hout⟩ | hout
  · simp [hout]
  · simp [hout]

end LivenessStore

end GlassHive
