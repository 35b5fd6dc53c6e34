import GlassHive.LeaseGenerations

/-!
# The record of liveness observations

The observations of an attempt are applied in the order of their sequence numbers. The retries among
them are counted in the run since the last progress, and the observation with which they reach its
limit moves the attempt to `needs_input`. The count belongs to the run and not to the attempt: the
mark of an invocation begins it anew, a confirmation that invokes the runtime does not, and every
other transaction leaves it with the attempt.
-/

namespace GlassHive

open Relational Transition

/-- An observation that was applied. -/
structure AppliedObservation where
  source : LivenessSource
  runId : RunId
  attemptId : AttemptId
  kind : LivenessKind
  deriving DecidableEq, Repr

/-- The retries of an attempt since its last progress, in a record with the last observation
first. -/
def retriesSince (applied : List AppliedObservation) (runId : RunId) (attemptId : AttemptId) : ℕ :=
  ((applied.filter fun p => p.runId == runId && p.attemptId == attemptId).takeWhile
    fun p => p.kind == .internalRetry).length

/-- The runs that move from running to `needs_input` between two stores, with their attempts. -/
def Store.attendedIn (s s' : Store) : List (RunId × Option AttemptId) :=
  (s.runs.select fun id r =>
    r.state == .running && (s'.runs.get? id).any (·.state == .needsInput)).map
    fun e => (e.1, e.2.activeAttemptId)

/-- What is left of an observation in the record. -/
def LivenessObservation.applied (o : LivenessObservation) : AppliedObservation :=
  ⟨o.source, o.runId, o.expectedAttemptId, o.kind⟩

/-- The observation that a judgement applies. -/
def LivenessStore.appliedBy (H : LivenessSource → OperationId) (d : LivenessStore)
    (c : LivenessCall) : Option AppliedObservation :=
  match c.op with
  | .observe o =>
    match d.observeProviderLiveness H c.now o with
    | .ok (_, some v) => if v.applied then some o.applied else none
    | _ => none
  | .sweep .. => none

/-- The database with the observations that were applied and the generations that judgements moved
to `needs_input`, the last ones first. -/
@[ext]
structure LivenessRecord where
  base : LivenessStore
  applied : List AppliedObservation
  attended : List (RunId × Option AttemptId)

/-- A step: a transaction of the store, or a judgement. -/
inductive LivenessStep
  | call (c : Call)
  | judge (c : LivenessCall)

/-- The confirmation invokes the runtime of an admitted run. -/
def Store.ConfirmInvokes (s : Store) (now : Time) (a : ConfirmStart) (r : Run) : Prop :=
  ∃ l attemptId, s.AdmittedStart now a r l attemptId ∧
    ((s.workers.get? a.workerId).any workerAllowsStart && l.startupState == .reserved) = true

/-- The observation is of the live generation of its run, and the next one of its attempt. -/
structure LivenessStore.Applies (d : LivenessStore) (now : Time) (o : LivenessObservation) (r : Run)
    (w : Worker) : Prop where
  check : o.check = .ok ()
  run : d.store.runs.get? o.runId = some r
  worker : d.store.workers.get? r.workerId = some w
  exact : o.exact d.store now r w = true
  unrecorded : d.events.get? o.source = none
  next : d.isNext o = true

/-- The count of every run is that of the attempt that was invoked for it. -/
def Store.CountsExactly (s : Store) (applied : List AppliedObservation) : Prop :=
  ∀ id r attemptId t, s.runs.get? id = some r → s.activeAttempt id r = some (attemptId, t) →
    t.runtimeInvokedAt.isSome = true →
    r.liveness.internalRetryCount = retriesSince applied id attemptId

namespace LivenessRecord

variable (H : LivenessSource → OperationId) (idOrder : RunId → RunId → Bool)

/-- A new database. -/
def init (settings : Settings) : LivenessRecord :=
  ⟨⟨Store.init settings, .empty⟩, [], []⟩

/-- One step. -/
def step (h : LivenessRecord) : LivenessStep → LivenessRecord
  | .call c => { h with base := { h.base with store := h.base.store.step c } }
  | .judge c =>
    let base := h.base.step H idOrder c
    { base
      applied := (h.base.appliedBy H c).toList ++ h.applied
      attended := h.base.store.attendedIn base.store ++ h.attended }

/-- The observation is applied and is the retry with which its attempt reaches the limit. -/
def Reaches (h : LivenessRecord) (now : Time) (o : LivenessObservation) : Prop :=
  let h' := h.step H idOrder (.judge ⟨now, .observe o⟩)
  h'.applied = o.applied :: h.applied ∧ o.kind = .internalRetry ∧
    o.limit ≤ retriesSince h'.applied o.runId o.expectedAttemptId

/-- What an observation must do: nothing when it is of another attempt, nothing to the store when
it is not applied, and one move with one callback when it reaches the limit. -/
structure Observes (h : LivenessRecord) (now : Time) (o : LivenessObservation) : Prop where
  stale : (∀ r, h.base.store.runs.get? o.runId = some r →
      r.activeAttemptId ≠ some o.expectedAttemptId) →
    h.step H idOrder (.judge ⟨now, .observe o⟩) = h
  refused : (h.step H idOrder (.judge ⟨now, .observe o⟩)).applied = h.applied →
    (h.step H idOrder (.judge ⟨now, .observe o⟩)).base.store = h.base.store
  attention : h.Reaches H idOrder now o →
    (h.step H idOrder (.judge ⟨now, .observe o⟩)).attended =
      (o.runId, some o.expectedAttemptId) :: h.attended ∧
    ∃ key row, key.operation = .operation (H o.source) ∧ key.runId = some o.runId ∧
      key.name = "callback.run_needs_input" ∧ row.status = .pending ∧
      (h.step H idOrder (.judge ⟨now, .observe o⟩)).base.store.effects =
        (h.base.store.effects.insert? key row).getD h.base.store.effects
  quiet : ¬h.Reaches H idOrder now o →
    (h.step H idOrder (.judge ⟨now, .observe o⟩)).attended = h.attended ∧
    (h.step H idOrder (.judge ⟨now, .observe o⟩)).base.store.effects = h.base.store.effects

/-- Observations count exactly in a step: every count is that of the record, no observation is
applied twice, no attempt is moved twice, and an observation does what it must. -/
structure Counted (h : LivenessRecord) (i : LivenessStep) : Prop where
  counts : (h.step H idOrder i).base.store.CountsExactly (h.step H idOrder i).applied
  once : ((h.step H idOrder i).applied.map AppliedObservation.source).Nodup
  attendedOnce : (h.step H idOrder i).attended.Nodup
  observes : ∀ now o, i = .judge ⟨now, .observe o⟩ → h.Observes H idOrder now o

/-- A confirmation that invokes a runtime finds no retries counted, and an observation with which
the count reaches the limit finds the run to be the last one of its worker. -/
def Undisturbed (h : LivenessRecord) : LivenessStep → Prop
  | .call c => ∀ a r, c.op = .start (.confirmHostRunStart a) →
      h.base.store.ConfirmInvokes c.now a r → r.liveness.internalRetryCount = 0
  | .judge c => ∀ o r w, c.op = .observe o → h.base.Applies c.now o r w →
      o.kind = .internalRetry → o.limit ≤ r.liveness.internalRetryCount + 1 →
      w.lastRunId = some o.runId

end LivenessRecord

/-! ## What other transactions leave of the count -/

/-- The run keeps its count with its attempt, has no attempt, or has one that is not in `s`. -/
def Run.Carries (s : Store) (r w : Run) : Prop :=
  w.activeAttemptId = none ∨ (∃ id, w.activeAttemptId = some id ∧ s.attempts.get? id = none) ∨
    w.activeAttemptId = r.activeAttemptId ∧
      w.liveness.internalRetryCount = r.liveness.internalRetryCount

/-- The row keeps its attempt and the liveness of that, or has no attempt. -/
def Run.KeepsAttempt (r w : Run) : Prop :=
  w.activeAttemptId = none ∨ w.activeAttemptId = r.activeAttemptId ∧ w.liveness = r.liveness

/-- A call that invokes no runtime. -/
def Call.Quiet (c : Call) : Prop :=
  (∀ runId leaseId executorId, c.op ≠ .start (.markRunRuntimeInvoked runId leaseId executorId)) ∧
    ∀ a, c.op ≠ .start (.confirmHostRunStart a)

namespace Store

section Carries

variable {s : Store} {now : Time} {id : RunId} {r w : Run}

theorem carries_of_eq (hactive : w.activeAttemptId = r.activeAttemptId)
    (hliveness : w.liveness = r.liveness) : Run.Carries s r w :=
  Or.inr (Or.inr ⟨hactive, by rw [hliveness]⟩)

theorem keepsAttempt_of_eq {v : Run} (h : w = v) (hactive : v.activeAttemptId = r.activeAttemptId)
    (hliveness : v.liveness = r.liveness) : r.KeepsAttempt w :=
  h ▸ Or.inr ⟨hactive, hliveness⟩

theorem Downgrades.keepsAttempt {reason : String} (h : s.Downgrades now reason r w) :
    r.KeepsAttempt w := by
  obtain ⟨-, s₀, id, r₀, -, rfl⟩ := h
  exact Or.inl rfl

theorem runRewrites_keepsAttempt {op : RunOp} (h : s.runRewrites now id r w op) :
    r.KeepsAttempt w := by
  cases op with
  | createRun | createOrGetRunForSchedule => exact h.elim
  | reconcileInvalidRunningRuns => exact Downgrades.keepsAttempt h
  | updateRun =>
    obtain ⟨-, -, -, -, hdowngrades | ⟨-, rfl⟩⟩ := h
    · exact hdowngrades.keepsAttempt
    · unfold updatedRun
      dsimp only
      split <;> exact Or.inr ⟨rfl, rfl⟩
  | requeueRunForRetry => exact Or.inl (congrArg Run.activeAttemptId h.2.2.2.2)
  | transitionRunIfState => exact keepsAttempt_of_eq h.2.2.2.2.2.2 rfl rfl
  | expireQueuedRunIfDue => exact keepsAttempt_of_eq h.2.2 rfl rfl
  | _ => exact keepsAttempt_of_eq h.2.2.2 rfl rfl

theorem lifecycleRewrites_keepsAttempt {op : LifecycleOp} (h : s.lifecycleRewrites now id r w op) :
    r.KeepsAttempt w := by
  cases op with
  | finalizeWorkerRunControlClaim a =>
    obtain ⟨-, -, -, rfl⟩ := h
    by_cases hrestart : (a.restartAttempt r).isSome = true
    · exact Or.inl (by simp [FinalizeControl.targetRow, hrestart])
    · exact Or.inr ⟨by simp [FinalizeControl.targetRow, hrestart], rfl⟩
  | finalizeWorkerSteerClaim =>
    obtain ⟨_, _, _, -, h | h⟩ := h
    · exact keepsAttempt_of_eq h.2.2.2.2 rfl rfl
    · exact keepsAttempt_of_eq h.2.2.2 rfl rfl
  | finalizeWorkerOperationClaim | finalizeWorkerWorkStopClaim | finalizeWorkerTerminationClaim =>
    exact keepsAttempt_of_eq h.2.2.2 rfl rfl
  | _ => exact h.elim

theorem requestRewrites_keepsAttempt {op : RequestOp} (h : s.requestRewrites now id r w op) :
    r.KeepsAttempt w := by
  cases op with
  | resumeNeedsInputActiveWorkAction => exact keepsAttempt_of_eq h.2.2.2 rfl rfl
  | _ => exact keepsAttempt_of_eq h.2 rfl rfl

/-- A transaction leaves the attempt of a row unless it claims the run, and its liveness unless it
invokes the runtime. -/
theorem Rewrites.keepsAttempt {c : Call} (h : s.Rewrites c id r w) :
    r.KeepsAttempt w ∨
      (∃ workerId executorId ttl,
        c.op = .start (.claimNextQueuedRunParallel workerId executorId ttl) ∧
        s.attempts.get? s.nextId = none ∧ w.activeAttemptId = some s.nextId) ∨
      ¬c.Quiet ∧ w.activeAttemptId = r.activeAttemptId := by
  obtain ⟨now, op⟩ := c
  cases op with
  | worker | gc => exact h.elim
  | schedule op =>
    cases op with
    | setSchedulePrincipalAuthority => exact Or.inl (keepsAttempt_of_eq h.2.2.2 rfl rfl)
    | _ => exact h.elim
  | run => exact Or.inl (runRewrites_keepsAttempt h)
  | lifecycle => exact Or.inl (lifecycleRewrites_keepsAttempt h)
  | request => exact Or.inl (requestRewrites_keepsAttempt h)
  | start op =>
    cases op with
    | claimNextQueuedRunParallel workerId executorId ttl =>
      obtain ⟨-, hfree, rfl⟩ := h
      exact Or.inr (Or.inl ⟨workerId, executorId, ttl, rfl, hfree, rfl⟩)
    | claimNextQueuedRunLegacy =>
      obtain ⟨-, -, rfl⟩ | ⟨-, rfl⟩ := h
      · exact Or.inl (Or.inr ⟨rfl, rfl⟩)
      · exact Or.inl (Or.inr ⟨rfl, rfl⟩)
    | reconcileDeadHostRunLease => exact Or.inl h.2.2.keepsAttempt
    | admitClaimedRun | markHostRunStartTerminationUnconfirmed =>
      exact Or.inl (keepsAttempt_of_eq h.2.2.2 rfl rfl)
    | markRunRuntimeInvoked =>
      obtain ⟨-, -, rfl⟩ := h
      exact Or.inr (Or.inr ⟨fun hquiet => hquiet.1 _ _ _ rfl, rfl⟩)
    | confirmHostRunStart a =>
      rcases h.2.2 with hdowngrades | ⟨-, -, rfl⟩
      · exact Or.inl hdowngrades.keepsAttempt
      · exact Or.inr (Or.inr ⟨fun hquiet => hquiet.2 a rfl, rfl⟩)
    | requeueUnconfirmedHostRunStart => exact Or.inl (Or.inl (congrArg Run.activeAttemptId h.2.2))
    | _ => exact h.elim

/-- A call that invokes no runtime leaves the count with the attempt. -/
theorem Rewrites.carries {c : Call} (h : s.Rewrites c id r w) (hquiet : c.Quiet) :
    Run.Carries s r w := by
  rcases h.keepsAttempt with (hnone | ⟨hactive, hliveness⟩) | ⟨_, _, _, -, hfree, hnew⟩ | ⟨hloud, -⟩
  · exact Or.inl hnone
  · exact carries_of_eq hactive hliveness
  · exact Or.inr (Or.inl ⟨_, hnew, hfree⟩)
  · exact absurd hquiet hloud

end Carries

section Counts

variable {s s' : Store} {applied : List AppliedObservation} {runId : RunId} {attemptId : AttemptId}
  {t : Attempt} {N : AttemptId → Attempt → Prop} {c : Call}

theorem activeAttempt_of_get {r : Run} (hactive : r.activeAttemptId = some attemptId)
    (ht : s.attempts.get? attemptId = some t) (hrun : t.runId = runId) :
    s.activeAttempt runId r = some (attemptId, t) := by
  simp [activeAttempt, hactive, ht, hrun]

/-- When the invoked attempts were invoked before and every run carries its count, the counts stay
exact. -/
theorem CountsExactly.carried (hcounts : s.CountsExactly applied)
    (hinvoked : ∀ id t', s'.attempts.get? id = some t' → t'.runtimeInvokedAt.isSome = true →
      ∃ t, s.attempts.get? id = some t ∧ t.runId = t'.runId ∧ t.runtimeInvokedAt.isSome = true)
    (hrows : ∀ id r', s'.runs.get? id = some r' → r'.activeAttemptId = none ∨
      ∃ r, s.runs.get? id = some r ∧ Run.Carries s r r') : s'.CountsExactly applied := by
  intro id r' attemptId t' hr' hactive hinv
  obtain ⟨hid, ht', hrun⟩ := activeAttempt_eq_some hactive
  obtain ⟨t, ht, hrun', hinv'⟩ := hinvoked attemptId t' ht' hinv
  rcases hrows id r' hr' with hnone | ⟨r, hr, hnone | ⟨new, hnew, habsent⟩ | ⟨hsame, hcount⟩⟩
  · rw [hnone] at hid
    cases hid
  · rw [hnone] at hid
    cases hid
  · obtain rfl := Option.some.inj (hid.symm.trans hnew)
    rw [habsent] at ht
    cases ht
  · rw [hcount]
    exact hcounts id r attemptId t hr
      (activeAttempt_of_get (hsame.symm.trans hid) ht (hrun'.trans hrun)) hinv'

/-- Attempts that only go on, without an invocation. -/
theorem AttemptsFollow.invoked (h : s.AttemptsFollow s' (fun _ => False) N)
    (hnew : ∀ id t, N id t → t.runtimeInvokedAt = none) {id : AttemptId} {t' : Attempt}
    (ht' : s'.attempts.get? id = some t') (hinvoked : t'.runtimeInvokedAt.isSome = true) :
    ∃ t, s.attempts.get? id = some t ∧ t.runId = t'.runId ∧ t.runtimeInvokedAt.isSome = true := by
  cases ht : s.attempts.get? id with
  | none =>
    have hnone := hnew id t' (h.fresh id t' ht ht')
    rw [hnone] at hinvoked
    cases hinvoked
  | some t =>
    obtain ⟨t₁, ht₁, hfollows⟩ := h.kept id t ht
    obtain rfl := Option.some.inj (ht'.symm.trans ht₁)
    refine ⟨t, rfl, hfollows.runId.symm, ?_⟩
    rcases hfollows.runtimeInvokedAt with heq | hfalse
    · rw [← heq, hinvoked]
    · exact hfalse.elim

theorem not_invokes_of_quiet (hquiet : c.Quiet) (id : AttemptId) : ¬s.Invokes c id := by
  unfold Invokes
  split
  · rename_i hop
    exact absurd hop (hquiet.1 _ _ _)
  · rename_i hop
    exact absurd hop (hquiet.2 _)
  · exact fun h => h

/-- An opened attempt is not invoked. -/
theorem Opens.runtimeInvokedAt (h : s.Opens c attemptId t) : t.runtimeInvokedAt = none := by
  unfold Opens at h
  split at h
  · obtain ⟨_, _, -, -, rfl⟩ := h
    rfl
  · exact h.elim

theorem AttemptsFollow.weakenInvoked {I : AttemptId → Prop} (h : s.AttemptsFollow s' I N)
    (hI : ∀ id, ¬I id) : s.AttemptsFollow s' (fun _ => False) N where
  kept id t ht := by
    obtain ⟨t', ht', hfollows⟩ := h.kept id t ht
    have hkept := hfollows.runtimeInvokedAt.imp_right (hI id)
    exact ⟨t', ht', { hfollows with runtimeInvokedAt := hkept }⟩
  fresh := h.fresh

/-- A call that invokes no runtime keeps the counts. -/
theorem CountsExactly.step_of_quiet (hcounts : s.CountsExactly applied) (hquiet : c.Quiet) :
    (s.step c).CountsExactly applied := by
  have hfollows := (s.attempts_step c).weakenInvoked (not_invokes_of_quiet hquiet)
  refine hcounts.carried (fun id t' ht' => hfollows.invoked (fun _ _ => Opens.runtimeInvokedAt) ht')
    fun id r' hr' => ?_
  rcases s.runs_step c id r' hr' with ⟨-, _, _, _, _, _, rfl⟩ | ⟨r, hr, rfl | ⟨w, hw, rfl⟩⟩
  · exact Or.inl rfl
  · exact Or.inr ⟨r', hr, carries_of_eq rfl rfl⟩
  · exact Or.inr ⟨r, hr, hw.carries hquiet⟩

end Counts

/-! ## What an invocation leaves of the count -/

section Invocations

variable {s s' : Store} {now : Time} {applied : List AppliedObservation} {runId : RunId} {r : Run}
  {leaseId : LeaseId} {l : Lease} {attemptId : AttemptId} {f : Run → Run}

/-- Applied observations are of attempts that were invoked. -/
def AppliedInvoked (s : Store) (applied : List AppliedObservation) : Prop :=
  ∀ p ∈ applied, ∃ t, s.attempts.get? p.attemptId = some t ∧ t.runtimeInvokedAt.isSome = true

theorem admittedGeneration_attempt
    (h : s.admittedGeneration now runId r leaseId l = some attemptId) :
    ∃ t, s.activeAttempt runId r = some (attemptId, t) ∧ t.state = .of .admitted ∧
      t.leaseId = some leaseId ∧ t.runtimeInvokedAt = none ∧ t.endedAt = none := by
  unfold admittedGeneration at h
  split at h
  · rename_i id t hgen
    split at h
    · rename_i hok
      obtain rfl := Option.some.inj h
      simp only [Bool.and_eq_true, beq_iff_eq, Option.isNone_iff_eq_none] at hok
      exact ⟨t, hgen, hok.1.1.1.1.1.2, hok.1.1.1.1.2, hok.1.1.1.2, hok.1.1.2⟩
    · cases h
  · cases h

/-- Nothing was applied of an attempt that was not invoked. -/
theorem AppliedInvoked.retriesSince_eq_zero (h : s.AppliedInvoked applied) {t : Attempt}
    (ht : s.attempts.get? attemptId = some t) (hnone : t.runtimeInvokedAt = none) (runId : RunId) :
    retriesSince applied runId attemptId = 0 := by
  have hfilter : (applied.filter fun p => p.runId == runId && p.attemptId == attemptId) = [] := by
    refine List.filter_eq_nil_iff.mpr fun p hp hmatch => ?_
    rw [Bool.and_eq_true, beq_iff_eq, beq_iff_eq] at hmatch
    obtain ⟨t', ht', hinvoked⟩ := h p hp
    rw [hmatch.2, ht] at ht'
    obtain rfl := Option.some.inj ht'
    rw [hnone] at hinvoked
    cases hinvoked
  simp [retriesSince, hfilter]

/-- An invocation leaves the counts exact when it leaves no retries counted. -/
theorem countsExactly_invoke (hcounts : s.CountsExactly applied)
    (happlied : s.AppliedInvoked applied) (hr : s.runs.get? runId = some r)
    (hgen : s.admittedGeneration now runId r leaseId l = some attemptId)
    (hstate : (f r).state = .running) (hactive : (f r).activeAttemptId = r.activeAttemptId)
    (hruns : s'.runs = (s.invokeGeneration now runId r leaseId attemptId f).runs)
    (hattempts : s'.attempts = (s.invokeGeneration now runId r leaseId attemptId f).attempts) :
    s'.CountsExactly applied ↔ (f r).liveness.internalRetryCount = 0 := by
  obtain ⟨t, hattempt, htstate, htlease, htinvoked, htended⟩ := admittedGeneration_attempt hgen
  obtain ⟨hid, ht, htrun⟩ := activeAttempt_eq_some hattempt
  obtain ⟨hadmitted, -⟩ := admittedGeneration_eq_some hgen
  have hnone : retriesSince applied runId attemptId = 0 :=
    happlied.retriesSince_eq_zero ht htinvoked runId
  have hrow : s'.runs.get? runId = some (f r) := by
    rw [hruns, get?_invokeGeneration hr hgen hstate]
  have hinvoked : s'.attempts.get? attemptId =
      some { t with state := .of .running, runtimeInvokedAt := some now } := by
    rw [hattempts, attempts_invokeGeneration, Table.get?_update, ht, Option.map_some]
    simp [htrun, htstate, htlease, htinvoked, htended]
  constructor
  · intro h
    rw [h runId (f r) attemptId _ hrow
      (activeAttempt_of_get (hactive.trans hid) hinvoked htrun) rfl, hnone]
  intro hzero id v v_attempt v_t hv hv_active hv_invoked
  obtain ⟨hv_id, hv_t, hv_run⟩ := activeAttempt_eq_some hv_active
  by_cases hsame : id = runId
  · subst hsame
    obtain rfl := Option.some.inj (hrow.symm.trans hv)
    obtain rfl := Option.some.inj ((hactive.trans hid).symm.trans hv_id)
    rw [hzero, hnone]
  -- the attempt of another run is not touched
  have hother : s.attempts.get? v_attempt = some v_t := by
    rw [hattempts, attempts_invokeGeneration] at hv_t
    obtain ⟨u, hu, hu_eq⟩ := Table.get?_update_eq_some.mp hv_t
    split at hu_eq
    · rename_i hp
      simp only [Bool.and_eq_true, beq_iff_eq] at hp
      rw [← hu_eq] at hv_run
      exact absurd (hv_run.symm.trans hp.1.1.1.1.2) hsame
    · rw [hu, hu_eq]
  have hv_row : s.runs.get? id = some v := by
    rw [hruns, show (s.invokeGeneration now runId r leaseId attemptId f).runs =
      (s.updateRuns now (fun id r => id == runId && r.state == .admitted &&
        r.activeAttemptId == some attemptId && r.runtimeInvokedAt.isNone && r.queueWait.isOpen &&
        decide (now < r.queueWait.deadlineAt)) f).runs from rfl, updateRuns_runs] at hv
    obtain ⟨u, hu, rfl⟩ := Table.get?_update_eq_some.mp hv
    rw [hu]
    simp [hsame]
  exact hcounts id v v_attempt v_t hv_row (activeAttempt_of_get hv_id hother hv_run) hv_invoked

end Invocations

/-- A confirmation of a run that is not admitted for it downgrades the run or publishes it. -/
theorem confirmHostRunStart_of_not_admitted {s : Store} {now : Time} {a : ConfirmStart}
    (h : ¬∃ r l id, s.AdmittedStart now a r l id) :
    (s.confirmHostRunStart now a).store = s ∨
      (∃ r, (s.confirmHostRunStart now a).store =
        s.downgradeUnprovenRunning a.runId r now "running_invariant_reconciled") ∨
      ∃ r, (s.confirmHostRunStart now a).store = s.publishStart now a r := by
  unfold confirmHostRunStart
  split
  · exact Or.inl rfl
  rename_i hvalid
  split
  swap
  · exact Or.inl rfl
  rename_i w r l hw hr hl
  obtain ⟨hr, hworker⟩ := Option.filter_eq_some_iff.mp hr
  obtain ⟨hl, hlrun⟩ := Option.filter_eq_some_iff.mp hl
  rw [beq_iff_eq] at hworker hlrun
  dsimp only
  generalize hadmitted : (if a.allowRuntimeInvocation then
    s.admittedGeneration now a.runId r a.leaseId l else none) = admitted
  generalize (s.runningGeneration a.runId r a.leaseId l a.runStartedAt && r.endedAt.isNone) =
    running
  by_cases hok : (a.exactLease now l && (admitted.isSome || running) && workerAllowsStart w) = true
  · simp only [hok, Bool.not_true, Bool.false_eq_true, if_false]
    simp only [Bool.and_eq_true] at hok
    split
    · exact Or.inl rfl
    split
    · exact Or.inl rfl
    cases admitted with
    | none => exact Or.inr (Or.inr ⟨r, rfl⟩)
    | some attemptId =>
      -- the run is admitted under the lease that the confirmation presents
      split at hadmitted
      · rename_i hallowed
        have hexact := hok.1.1
        simp only [ConfirmStart.exactLease, Bool.and_eq_true, beq_iff_eq, decide_eq_true_eq]
          at hexact
        have hlease : s.presentedLease now a.runId a.leaseId a.executorId = some l := by
          simp [presentedLease, hl, hlrun, hexact.1.1.1.1, hexact.1.1.1.2, hexact.1.2]
        exact absurd ⟨r, l, attemptId, hr, hworker, hlease, hok.1.1, hadmitted,
          by simpa using hvalid, hallowed⟩ h
      · cases hadmitted
  · rw [Bool.not_eq_true] at hok
    simp only [hok, Bool.not_false, if_true, Outcome.store_commit]
    split
    · exact Or.inr (Or.inl ⟨r, rfl⟩)
    · exact Or.inl rfl

section Calls

variable {s s' : Store} {applied : List AppliedObservation} {c : Call}

theorem CountsExactly.congr (hruns : s'.runs = s.runs) (hattempts : s'.attempts = s.attempts)
    (hcounts : s.CountsExactly applied) : s'.CountsExactly applied := by
  refine hcounts.carried (fun id t ht hinvoked => ⟨t, hattempts ▸ ht, rfl, hinvoked⟩)
    fun id r hr => ?_
  exact Or.inr ⟨r, hruns ▸ hr, carries_of_eq rfl rfl⟩

theorem CountsExactly.downgrade {now : Time} {runId : RunId} {r : Run} {reason : String}
    (hcounts : s.CountsExactly applied) :
    (s.downgradeUnprovenRunning runId r now reason).CountsExactly applied := by
  have hfollows : s.AttemptsFollow (s.downgradeUnprovenRunning runId r now reason)
      (fun _ => False) fun _ _ => False := attemptsFollow_downgradeUnprovenRunning
  refine hcounts.carried (fun id t' ht' => hfollows.invoked (fun _ _ h => h.elim) ht')
    fun id v' hv' => ?_
  rw [runs_downgradeUnprovenRunning] at hv'
  obtain ⟨v, hv, rfl⟩ := Table.get?_update_eq_some.mp hv'
  split
  · exact Or.inl rfl
  · exact Or.inr ⟨v, hv, carries_of_eq rfl rfl⟩

theorem countsExactly_confirm_iff (hcounts : s.CountsExactly applied)
    (happlied : s.AppliedInvoked applied) {now : Time} {a : ConfirmStart} :
    (s.confirmHostRunStart now a).store.CountsExactly applied ↔
      ∀ r, s.ConfirmInvokes now a r → r.liveness.internalRetryCount = 0 := by
  by_cases hadmitted : ∃ r l id, s.AdmittedStart now a r l id
  · obtain ⟨r, l, id, h⟩ := hadmitted
    rw [h.confirm]
    split
    · rename_i haccepted
      rw [countsExactly_invoke hcounts happlied h.get h.generation (f := Run.invoke now) rfl rfl
        (runs_publishStart a r) (attempts_publishStart a r)]
      constructor
      · rintro hzero r' ⟨l', id', h', -⟩
        obtain rfl := Option.some.inj (h.get.symm.trans h'.get)
        exact hzero
      · intro hzero
        exact hzero r ⟨l, id, h, haccepted⟩
    · rename_i hrefused
      refine ⟨?_, fun _ => hcounts⟩
      rintro - r' ⟨l', id', h', haccepted⟩
      obtain rfl := Option.some.inj (h.lease.symm.trans h'.lease)
      exact absurd haccepted hrefused
  · refine ⟨?_, fun _ => ?_⟩
    · rintro - r ⟨l, id, h, -⟩
      exact absurd ⟨r, l, id, h⟩ hadmitted
    rcases confirmHostRunStart_of_not_admitted hadmitted with hs | ⟨r, hs⟩ | ⟨r, hs⟩ <;> rw [hs]
    · exact hcounts
    · exact hcounts.downgrade
    · exact hcounts.congr (runs_publishStart a r) (attempts_publishStart a r)

/-- A call keeps the counts exactly when it does not invoke a runtime with retries counted. -/
theorem countsExactly_step_iff (hcounts : s.CountsExactly applied)
    (happlied : s.AppliedInvoked applied) :
    (s.step c).CountsExactly applied ↔ ∀ a r, c.op = .start (.confirmHostRunStart a) →
      s.ConfirmInvokes c.now a r → r.liveness.internalRetryCount = 0 := by
  by_cases hquiet : c.Quiet
  · refine iff_of_true (hcounts.step_of_quiet hquiet) fun a r hop => ?_
    exact absurd hop (hquiet.2 a)
  obtain ⟨now, op⟩ := c
  unfold Call.Quiet at hquiet
  rw [not_and_or] at hquiet
  push Not at hquiet
  rcases hquiet with ⟨runId, leaseId, executorId, rfl⟩ | ⟨a, rfl⟩
  · refine iff_of_true ?_ fun a r hop => by cases hop
    rw [show s.step ⟨now, .start (.markRunRuntimeInvoked runId leaseId executorId)⟩ =
      (s.markRunRuntimeInvoked now runId leaseId executorId).store from rfl]
    rcases markRunRuntimeInvoked_cases s now runId leaseId executorId with hs
      | ⟨r, l, id, hr, -, hgen, hs⟩ <;> rw [hs]
    · exact hcounts
    · exact (countsExactly_invoke hcounts happlied hr hgen rfl rfl rfl rfl).mpr rfl
  · rw [show s.step ⟨now, .start (.confirmHostRunStart a)⟩ =
      (s.confirmHostRunStart now a).store from rfl, countsExactly_confirm_iff hcounts happlied]
    constructor
    · intro h a' r hop
      obtain rfl : a = a' := by simpa using hop
      exact h r
    · intro h r
      exact h a r rfl

theorem AppliedInvoked.step (h : s.AppliedInvoked applied) : (s.step c).AppliedInvoked applied := by
  intro p hp
  obtain ⟨t, ht, hinvoked⟩ := h p hp
  obtain ⟨t', ht', hfollows⟩ := (s.attempts_step c).kept _ t ht
  exact ⟨t', ht', hfollows.invoked hinvoked⟩

end Calls

end Store

end GlassHive
