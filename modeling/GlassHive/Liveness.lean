import GlassHive.AttemptMoves
import Mathlib.Data.List.Sort

/-!
# Provider liveness

A runtime reports meaningful progress and internal retries of its provider, and a sweep looks for
runs without progress. Either moves a stalled generation to `needs_input`. Both judge the liveness
columns of the run, which the two invocations of a runtime leave differently.
-/

namespace GlassHive

open Relational

/-- `provider_liveness_events.kind`. -/
inductive LivenessKind
  | meaningfulProgress | internalRetry | inactivityTimeout
  deriving DecidableEq, Repr

/-- What `event_ref` digests. -/
inductive LivenessSource
  | observation (runId : RunId) (attemptId : AttemptId) (runtime model : String)
      (sourceSequence : ℕ) (sourceDigest : String)
  | timeout (runId : RunId) (attemptId : AttemptId) (anchor inactivity : Time)
  deriving DecidableEq, Repr

/-- A row of `provider_liveness_events`. -/
structure LivenessEvent where
  runId : RunId
  attemptId : AttemptId
  kind : LivenessKind
  failureClass : String
  runtime : String
  model : String
  sourceSequence : ℕ
  sourceDigest : String
  observedAt : Time
  createdAt : Time
  deriving Repr

/-- The store with the rows of `provider_liveness_events`. -/
structure LivenessStore where
  store : Store
  events : Table LivenessSource LivenessEvent

/-- The arguments of `observe_provider_liveness`. -/
structure LivenessObservation where
  runId : RunId
  expectedAttemptId : AttemptId
  kind : LivenessKind
  failureClass : String
  runtime : String
  model : String
  sourceSequence : ℤ
  sourceDigest : String
  observedAt : Option Time
  retryLimit : ℤ
  deriving Repr

/-- The row that an observation returns, with its three flags. -/
structure ObservedRun where
  run : Run
  inserted : Bool
  applied : Bool
  attentionTransitioned : Bool

/-! ## Moving a stalled run to `needs_input` -/

/-- `_provider_liveness_failure_fields`. -/
def providerProgressStalled : Failure where
  failureClass := "provider_progress_stalled"
  retryable := false
  structured := true
  userMessage := "This work needs attention because the configured provider stopped making " ++
    "meaningful progress."
  recommendedRecovery := "Resume the same work when the configured provider can make progress."
  diagnosticSummary := "Provider liveness reached its typed retry or inactivity limit."

/-- The error text of `_provider_liveness_failure_fields`. -/
def providerProgressStalledText : String :=
  "The configured provider made no meaningful progress within the liveness limit. The same " ++
    "workspace and route were preserved."

namespace Run

/-- The columns of a stalled run. -/
def attention (r : Run) : Run :=
  { r with
    state := .needsInput, endedAt := none
    retry := { r.retry with retryAfter := none }
    errorText := providerProgressStalledText, failure := providerProgressStalled
    liveness := { r.liveness with routeLocked := true } }

/-- The time from which the sweep counts inactivity. -/
def livenessAnchor (r : Run) : Option Time :=
  r.liveness.meaningfulProgressAt <|> r.liveness.startedAt <|> r.runtimeInvokedAt

/-- The columns after meaningful progress. -/
def progressed (observed : Time) (r : Run) : Run :=
  { r with
    liveness := { r.liveness with
      meaningfulProgressAt := some observed
      meaningfulProgressSequence := r.liveness.meaningfulProgressSequence + 1
      internalRetryCount := 0, lastInternalRetryClass := "" } }

/-- The columns after an internal retry. -/
def retried (failureClass : String) (r : Run) : Run :=
  { r with
    liveness := { r.liveness with
      internalRetryCount := r.liveness.internalRetryCount + 1
      lastInternalRetryClass := failureClass } }

end Run

namespace Store

/-- A live generation of a worker that is not being stopped. -/
def attendable (runId : RunId) (r : Run) (t : Attempt) (w : Worker) : Bool :=
  r.state == .running && t.state == .of .running && t.endedAt.isNone &&
    w.lastRunId == some runId && !oneOf w.state [.stopping, .terminated] &&
    !w.release.kind.any fun k => oneOf k OperationKind.stopping

/-- The writes of an attention transition. -/
def attend (s : Store) (now observed : Time) (token : OperationId) (runId : RunId) (r : Run)
    (attemptId : AttemptId) (leaseId : LeaseId) (w : Worker) : Store :=
  let key : LifecycleKey :=
    { operation := .operation token, epoch := 0, operationKind := .needsInput,
      name := "run.needs_input", workerId := r.workerId, runId := some runId }
  s
    |>.updateRuns now
        (fun id r => id == runId && r.state == .running && r.activeAttemptId == some attemptId)
        Run.attention
    |>.updateAttempts
        (fun id t => id == attemptId && t.runId == runId && t.state == .of .running &&
          t.endedAt.isNone)
        (fun t => { t with
          state := .of .needsInput, endedAt := some observed
          terminalReason := "provider_progress_stalled" })
    |>.updateLeases
        (fun id l => id == leaseId && l.runId == runId && l.attemptId == some attemptId &&
          l.status == .active)
        (Lease.release observed "provider_progress_stalled")
    |>.updateWorkers
        (fun id v => id == r.workerId && v.state == w.state && v.lastRunId == some runId)
        (fun v => { v with
          state := .needsInput, lastError := providerProgressStalledText
          lastRunId := some runId, updatedAt := observed })
    |>.appendAttemptTraces observed [attemptId]
    |>.insertLifecycleEvent now key w.projectId providerProgressStalled.userMessage
    |>.enqueueLifecycleEffects now key ["callback.run_needs_input"]

/-- `_transition_provider_liveness_attention_conn`, for a run as the caller read it. The attempt,
lease and worker are read in the same transaction, so the later updates find them unchanged. -/
def transitionProviderLivenessAttention (s : Store) (now observed : Time) (token : OperationId)
    (runId : RunId) (r : Run) : Option Store :=
  match s.activeAttempt runId r, s.workers.get? r.workerId,
      (s.leases.select fun _ l => l.runId == runId && l.attemptId == r.activeAttemptId &&
        l.status == .active).head? with
  | some (attemptId, t), some w, some (leaseId, _) =>
    if attendable runId r t w && s.runs.any (fun id r =>
        id == runId && r.state == .running && r.activeAttemptId == some attemptId) then
      some (s.attend now observed token runId r attemptId leaseId w)
    else none
  | _, _, _ => none

end Store

/-! ## Observations -/

namespace LivenessObservation

/-- The failure classes of an internal retry. -/
def retryClasses : List String :=
  ["provider_internal_retry", "provider_rate_limited", "provider_response_failed",
   "provider_unavailable", "provider_upstream_unavailable"]

/-- Sixty-four lower-case hexadecimal digits. -/
def isDigest (digest : String) : Bool :=
  digest.toList.length == 64 && digest.toList.all fun c => oneOf c "0123456789abcdef".toList

/-- The checks on the arguments. -/
def check (o : LivenessObservation) : Except StoreError Unit :=
  if o.kind == .inactivityTimeout then
    .error (.valueError "Provider liveness kind is invalid")
  else if o.kind == .internalRetry && !oneOf o.failureClass retryClasses then
    .error (.valueError "Provider liveness retry class is invalid")
  else if o.kind == .meaningfulProgress && o.failureClass != "" then
    .error (.valueError "Provider progress cannot carry a failure class")
  else if o.sourceSequence < 1 then
    .error (.valueError "Provider liveness source sequence is invalid")
  else if !isDigest o.sourceDigest then
    .error (.valueError "Provider liveness source digest is invalid")
  else if o.runtime == "" || o.model == "" then
    .error (.valueError "Provider liveness route is incomplete")
  else .ok ()

/-- The retry limit within its bounds. -/
def limit (o : LivenessObservation) : ℕ :=
  (max 1 (min o.retryLimit 100)).toNat

/-- The reference of the event. -/
def source (o : LivenessObservation) : LivenessSource :=
  .observation o.runId o.expectedAttemptId o.runtime o.model o.sourceSequence.toNat o.sourceDigest

/-- The event that the observation records. -/
def event (o : LivenessObservation) (now : Time) : LivenessEvent where
  runId := o.runId
  attemptId := o.expectedAttemptId
  kind := o.kind
  failureClass := o.failureClass
  runtime := o.runtime
  model := o.model
  sourceSequence := o.sourceSequence.toNat
  sourceDigest := o.sourceDigest
  observedAt := o.observedAt.getD now
  createdAt := now

/-- A recorded event that is the one of the observation. -/
def replays (o : LivenessObservation) (e : LivenessEvent) : Bool :=
  e.runId == o.runId && e.attemptId == o.expectedAttemptId && e.kind == o.kind &&
    e.failureClass == o.failureClass && e.runtime == o.runtime && e.model == o.model &&
    e.sourceSequence == o.sourceSequence.toNat && e.sourceDigest == o.sourceDigest

/-- `first or second`, on texts. -/
def routed (first second : String) : String :=
  if first == "" then second else first

/-- The observation is about the live generation of the run. -/
def exact (s : Store) (now : Time) (o : LivenessObservation) (r : Run) (w : Worker) : Bool :=
  r.state == .running && r.activeAttemptId == some o.expectedAttemptId &&
    o.runtime == routed r.route.runtime w.runtime && o.model == routed r.route.model w.model &&
    !oneOf w.state [.stopping, .terminated] &&
    !(w.release.kind.any fun k => oneOf k OperationKind.stopping) &&
    s.attempts.any (fun id t => id == o.expectedAttemptId && t.runId == o.runId &&
      t.state == .of .running && t.endedAt.isNone) &&
    s.leases.any fun _ l => l.runId == o.runId && l.attemptId == some o.expectedAttemptId &&
      l.status == .active && decide (now < l.expiresAt)

/-- The columns that an applied observation leaves. -/
def apply (o : LivenessObservation) (now : Time) (r : Run) : Run :=
  if o.kind == .meaningfulProgress then r.progressed (o.observedAt.getD now)
  else r.retried o.failureClass

end LivenessObservation

namespace LivenessStore

/-- An event, ignored when it is recorded already. -/
def insertEvent (d : LivenessStore) (source : LivenessSource) (e : LivenessEvent) :
    LivenessStore :=
  { d with events := (d.events.insert? source e).getD d.events }

/-- No recorded event of the attempt reaches the sequence of the observation. -/
def isNext (d : LivenessStore) (o : LivenessObservation) : Bool :=
  !d.events.any fun _ e => e.runId == o.runId && e.attemptId == o.expectedAttemptId &&
    decide (o.sourceSequence.toNat ≤ e.sourceSequence)

/-- The writes of a new observation. The transition looks at the run after them. -/
def recordObservation (H : LivenessSource → OperationId) (d : LivenessStore) (now : Time)
    (o : LivenessObservation) (r : Run) : LivenessStore × ObservedRun :=
  let applies := d.isNext o
  let d₁ := d.insertEvent o.source (o.event now)
  let s₁ := if applies then
      d₁.store.updateRuns now
        (fun id r => id == o.runId && r.state == .running &&
          r.activeAttemptId == some o.expectedAttemptId)
        (o.apply now)
    else d₁.store
  let current := (s₁.runs.get? o.runId).getD r
  let attended := if applies && o.kind == .internalRetry &&
      decide (o.limit ≤ current.liveness.internalRetryCount) then
      s₁.transitionProviderLivenessAttention now (o.observedAt.getD now) (H o.source) o.runId
        current
    else none
  let s₂ := attended.getD s₁
  ({ d₁ with store := s₂ },
   { run := (s₂.runs.get? o.runId).getD current, inserted := true, applied := applies,
     attentionTransitioned := attended.isSome })

/-- `observe_provider_liveness`. -/
def observeProviderLiveness (H : LivenessSource → OperationId) (d : LivenessStore) (now : Time)
    (o : LivenessObservation) : Except StoreError (LivenessStore × Option ObservedRun) := do
  o.check
  match d.store.runs.get? o.runId with
  | none => .ok (d, none)
  | some r =>
    match d.store.workers.get? r.workerId with
    | none => .ok (d, none)
    | some w =>
      if !o.exact d.store now r w then .ok (d, none)
      else match d.events.get? o.source with
      | some e =>
        if o.replays e then
          .ok (d, some { run := r, inserted := false, applied := false,
                         attentionTransitioned := false })
        else .error (.valueError "Provider liveness event reference conflicts")
      | none =>
        if d.events.any (fun _ e => e.runId == o.runId && e.attemptId == o.expectedAttemptId &&
            e.sourceSequence == o.sourceSequence.toNat) then
          .error (.valueError "Provider liveness source sequence conflicts")
        else
          let (d', observed) := d.recordObservation H now o r
          .ok (d', some observed)

/-! ## The sweep -/

/-- The inactivity of the sweep within its bounds, in microseconds. -/
def inactivityTime (inactivity : Time) : Time :=
  max 100000 (min inactivity (30 * 24 * 3600 * 1000000))

/-- The event of an inactivity timeout. The digest of its reference stands for itself. -/
def timeoutEvent (now observed : Time) (runId : RunId) (attemptId : AttemptId) (r : Run)
    (w : Worker) : LivenessEvent where
  runId := runId
  attemptId := attemptId
  kind := .inactivityTimeout
  failureClass := "provider_progress_stalled"
  runtime := LivenessObservation.routed r.route.runtime w.runtime
  model := LivenessObservation.routed r.route.model w.model
  sourceSequence := 0
  sourceDigest := ""
  observedAt := observed
  createdAt := now

/-- One run of the sweep. -/
def sweepRun (H : LivenessSource → OperationId) (now observed inactivity : Time)
    (d : LivenessStore) (e : RunId × Run) : LivenessStore :=
  match e.2.livenessAnchor, e.2.activeAttemptId, d.store.workers.get? e.2.workerId with
  | some anchor, some attemptId, some w =>
    if observed < anchor + inactivity then d
    else
      let source := .timeout e.1 attemptId anchor inactivity
      match d.store.transitionProviderLivenessAttention now observed (H source) e.1 e.2 with
      | none => d
      | some s =>
        { d with store := s }.insertEvent source (timeoutEvent now observed e.1 attemptId e.2 w)
  | _, _, _ => d

/-- The runs that the sweep looks at: the earliest anchors first, and then by identifier. -/
def sweptRuns (d : LivenessStore) (idOrder : RunId → RunId → Bool) (limit : ℕ) :
    List (RunId × Run) :=
  ((d.store.runs.select fun _ r => r.state == .running && r.livenessAnchor.isSome).mergeSort
    fun a b => match a.2.livenessAnchor, b.2.livenessAnchor with
      | some x, some y => decide (x < y) || x == y && idOrder a.1 b.1
      | _, _ => true).take (max 1 (min limit 1000))

/-- `transition_stalled_provider_liveness_runs`. -/
def transitionStalledProviderLivenessRuns (H : LivenessSource → OperationId)
    (idOrder : RunId → RunId → Bool) (d : LivenessStore) (now observed inactivity : Time)
    (limit : ℕ) : LivenessStore :=
  (d.sweptRuns idOrder limit).foldl (sweepRun H now observed (inactivityTime inactivity)) d

end LivenessStore

/-- A call of one of the two judgements. -/
inductive LivenessOp
  | observe (o : LivenessObservation)
  | sweep (observed inactivity : Time) (limit : ℕ)

/-- A call at a time. -/
structure LivenessCall where
  now : Time
  op : LivenessOp

namespace LivenessCall

/-- The progress of an attempt that a call reports. -/
def progressOf (c : LivenessCall) (runId : RunId) (attemptId : AttemptId) : Option Time :=
  match c.op with
  | .observe o =>
    if o.runId == runId && o.expectedAttemptId == attemptId && o.kind == .meaningfulProgress then
      some (o.observedAt.getD c.now)
    else none
  | .sweep .. => none

/-- The call reports an internal retry of an attempt. -/
def retries (runId : RunId) (attemptId : AttemptId) (c : LivenessCall) : Bool :=
  match c.op with
  | .observe o =>
    o.runId == runId && o.expectedAttemptId == attemptId && o.kind == .internalRetry
  | .sweep .. => false

end LivenessCall

namespace LivenessStore

variable (H : LivenessSource → OperationId) (idOrder : RunId → RunId → Bool)

/-- One judgement; an error leaves the store. -/
def step (d : LivenessStore) (c : LivenessCall) : LivenessStore :=
  match c.op with
  | .observe o =>
    match d.observeProviderLiveness H c.now o with
    | .ok (d', _) => d'
    | .error _ => d
  | .sweep observed inactivity limit =>
    d.transitionStalledProviderLivenessRuns H idOrder c.now observed inactivity limit

end LivenessStore

/-! ## What a judgement does to a run -/

/-- The columns that a judgement leaves in a run. -/
inductive Run.JudgedBy (c : LivenessCall) (runId : RunId) (r : Run) : Run → Prop
  | kept : JudgedBy c runId r r
  | progressed (o : LivenessObservation) (hop : c.op = .observe o) (hrun : o.runId = runId)
      (hattempt : r.activeAttemptId = some o.expectedAttemptId)
      (hkind : o.kind = .meaningfulProgress) :
      JudgedBy c runId r (r.progressed (o.observedAt.getD c.now))
  | retried (o : LivenessObservation) (hop : c.op = .observe o) (hrun : o.runId = runId)
      (hattempt : r.activeAttemptId = some o.expectedAttemptId) (hkind : o.kind = .internalRetry) :
      JudgedBy c runId r (r.retried o.failureClass)
  | attended (o : LivenessObservation) (hop : c.op = .observe o) (hrun : o.runId = runId)
      (hattempt : r.activeAttemptId = some o.expectedAttemptId) (hkind : o.kind = .internalRetry)
      (hlimit : o.limit ≤ r.liveness.internalRetryCount + 1) :
      JudgedBy c runId r (r.retried o.failureClass).attention
  | swept (observed inactivity : Time) (limit : ℕ) (hop : c.op = .sweep observed inactivity limit)
      (anchor : Time) (hanchor : r.livenessAnchor = some anchor)
      (hinactive : anchor + LivenessStore.inactivityTime inactivity ≤ observed) :
      JudgedBy c runId r r.attention

/-- The triggers look only at runs that become terminal. -/
theorem Run.triggered_of_not_terminal {now : Time} {old new : Run}
    (h : oneOf new.state RunState.terminal = false) : Run.triggered now old new = new := by
  have hrevised : resultRevised old new = false := by rw [resultRevised, h, Bool.false_and]
  have hfence : terminalFence old new = false := by rw [terminalFence, h, Bool.false_and]
  rw [Run.triggered, hrevised, hfence]
  rfl

namespace Store

/-- The update of a run that stays nonterminal writes what it says. -/
theorem get?_updateRuns_of_not_terminal {s : Store} {now : Time} {p : RunId → Run → Bool}
    {f : Run → Run} (h : ∀ id r, s.runs.get? id = some r → p id r = true →
      oneOf (f r).state RunState.terminal = false) (id : RunId) :
    (s.updateRuns now p f).runs.get? id =
      (s.runs.get? id).map fun r => if p id r then f r else r := by
  rw [updateRuns_runs, Table.get?_update]
  refine Option.map_congr fun r hr => ?_
  split
  · rename_i hp
    exact Run.triggered_of_not_terminal (h id r hr hp)
  · rfl

variable {s s' : Store} {now observed : Time} {token : OperationId} {runId : RunId} {r : Run}

theorem transitionProviderLivenessAttention_eq_some
    (h : s.transitionProviderLivenessAttention now observed token runId r = some s') :
    r.state = .running ∧ ∃ attemptId, r.activeAttemptId = some attemptId ∧ ∀ id,
      s'.runs.get? id = (s.runs.get? id).map fun v =>
        if id == runId && v.state == .running && v.activeAttemptId == some attemptId then v.attention
        else v := by
  rw [transitionProviderLivenessAttention] at h
  split at h
  · rename_i attemptId t w leaseId l hgen hw hl
    split at h
    · rename_i hok
      obtain rfl := Option.some.inj h
      rw [Bool.and_eq_true, attendable] at hok
      simp only [Bool.and_eq_true, beq_iff_eq] at hok
      refine ⟨hok.1.1.1.1.1.1, attemptId, (activeAttempt_eq_some hgen).1, fun id => ?_⟩
      exact get?_updateRuns_of_not_terminal (fun _ _ _ _ => rfl) id
    · cases h
  · cases h

end Store

namespace LivenessStore

variable {H : LivenessSource → OperationId} {idOrder : RunId → RunId → Bool}
  {d d' : LivenessStore} {c : LivenessCall} {now : Time} {o : LivenessObservation} {runId : RunId}

theorem observeProviderLiveness_cases {observed : Option ObservedRun}
    (h : d.observeProviderLiveness H now o = .ok (d', observed)) :
    d' = d ∨ ∃ r, d.store.runs.get? o.runId = some r ∧ r.state = .running ∧
      r.activeAttemptId = some o.expectedAttemptId ∧ o.kind ≠ .inactivityTimeout ∧
      d' = (d.recordObservation H now o r).1 := by
  rw [observeProviderLiveness] at h
  cases hcheck : o.check with
  | error =>
    rw [hcheck] at h
    cases h
  | ok =>
    have hkind : o.kind ≠ .inactivityTimeout := by
      intro hkind
      rw [LivenessObservation.check, hkind] at hcheck
      cases hcheck
    rw [hcheck] at h
    dsimp only [bind, Except.bind] at h
    split at h
    · exact Or.inl (Prod.mk.inj (Except.ok.inj h)).1.symm
    rename_i r hr
    split at h
    · exact Or.inl (Prod.mk.inj (Except.ok.inj h)).1.symm
    rename_i w hw
    split at h
    · exact Or.inl (Prod.mk.inj (Except.ok.inj h)).1.symm
    rename_i hexact
    split at h
    · split at h
      · exact Or.inl (Prod.mk.inj (Except.ok.inj h)).1.symm
      · cases h
    split at h
    · cases h
    rw [Bool.not_eq_true', Bool.not_eq_false] at hexact
    simp only [LivenessObservation.exact, Bool.and_eq_true, beq_iff_eq] at hexact
    exact Or.inr ⟨r, hr, hexact.1.1.1.1.1.1.1, hexact.1.1.1.1.1.1.2, hkind,
      (Prod.mk.inj (Except.ok.inj h)).1.symm⟩

theorem get?_recordObservation_of_none {r : Run} (h : d.store.runs.get? runId = none) :
    (d.recordObservation H now o r).1.store.runs.get? runId = none := by
  unfold recordObservation
  dsimp only [insertEvent]
  have hupdate : (if d.isNext o then d.store.updateRuns now (fun id r => id == o.runId &&
      r.state == .running && r.activeAttemptId == some o.expectedAttemptId) (o.apply now)
      else d.store).runs.get? runId = none := by
    split
    · rw [Store.updateRuns_runs, Table.get?_update, h, Option.map_none]
    · exact h
  generalize (if d.isNext o then d.store.updateRuns now _ _ else d.store) = s₁ at hupdate ⊢
  split
  · cases htrans : s₁.transitionProviderLivenessAttention now (o.observedAt.getD now)
        (H o.source) o.runId ((s₁.runs.get? o.runId).getD r) with
    | none => exact hupdate
    | some s₂ =>
      obtain ⟨-, attemptId, -, hrows⟩ := Store.transitionProviderLivenessAttention_eq_some htrans
      rw [Option.getD_some, hrows, hupdate, Option.map_none]
  · exact hupdate

/-- A new observation writes the columns of its kind, and may then move the run on. -/
theorem recordObservation_judges {r v v' : Run} (hop : c.op = .observe o)
    (hr : d.store.runs.get? o.runId = some r) (hrunning : r.state = .running)
    (hattempt : r.activeAttemptId = some o.expectedAttemptId) (hkind : o.kind ≠ .inactivityTimeout)
    (hv : d.store.runs.get? runId = some v)
    (hv' : (d.recordObservation H c.now o r).1.store.runs.get? runId = some v') :
    v.JudgedBy c runId v' := by
  unfold recordObservation at hv'
  dsimp only [insertEvent] at hv'
  by_cases happlies : d.isNext o = true
  swap
  · rw [Bool.not_eq_true] at happlies
    simp only [happlies, Bool.false_and, Bool.false_eq_true, if_false, Option.getD_none] at hv'
    obtain rfl := Option.some.inj (hv.symm.trans hv')
    exact .kept
  -- the row after the observation, for every run
  have hrow : ∀ id, (d.store.updateRuns c.now
      (fun id r => id == o.runId && r.state == .running &&
        r.activeAttemptId == some o.expectedAttemptId) (o.apply c.now)).runs.get? id =
      (d.store.runs.get? id).map fun r =>
        if id == o.runId && r.state == .running && r.activeAttemptId == some o.expectedAttemptId
        then o.apply c.now r else r := by
    refine Store.get?_updateRuns_of_not_terminal fun id r _ hp => ?_
    simp only [Bool.and_eq_true, beq_iff_eq] at hp
    have hstate : (o.apply c.now r).state = r.state := by
      rw [LivenessObservation.apply]
      split <;> rfl
    rw [hstate, hp.1.2]
    rfl
  generalize hs₁ : d.store.updateRuns c.now (fun id r => id == o.runId && r.state == .running &&
    r.activeAttemptId == some o.expectedAttemptId) (o.apply c.now) = s₁ at hrow hv'
  have hcurrent : s₁.runs.get? o.runId = some (o.apply c.now r) := by
    rw [hrow, hr, Option.map_some, hrunning, hattempt]
    simp
  simp only [happlies, Bool.true_and, if_true, hcurrent, Option.getD_some] at hv'
  by_cases hid : runId = o.runId
  swap
  · -- another run is left alone
    have hother : v' = v := by
      have hkept : s₁.runs.get? runId = some v := by
        rw [hrow, hv, Option.map_some, beq_false_of_ne hid]
        rfl
      split at hv'
      · rename_i hlimit
        cases htrans : s₁.transitionProviderLivenessAttention c.now (o.observedAt.getD c.now)
            (H o.source) o.runId (o.apply c.now r) with
        | none =>
          rw [htrans, Option.getD_none, hkept] at hv'
          exact (Option.some.inj hv').symm
        | some s₂ =>
          obtain ⟨-, attemptId, -, hrows⟩ :=
            Store.transitionProviderLivenessAttention_eq_some htrans
          rw [htrans, Option.getD_some, hrows, hkept, Option.map_some, beq_false_of_ne hid] at hv'
          exact (Option.some.inj hv').symm
      · rw [Option.getD_none, hkept] at hv'
        exact (Option.some.inj hv').symm
    rw [hother]
    exact .kept
  subst hid
  obtain rfl := Option.some.inj (hr.symm.trans hv)
  have happly : r.JudgedBy c o.runId (o.apply c.now r) := by
    rw [LivenessObservation.apply]
    split
    · rename_i hprogress
      exact .progressed o hop rfl hattempt (by simpa using hprogress)
    · rename_i hretry
      refine .retried o hop rfl hattempt ?_
      cases hk : o.kind with
      | meaningfulProgress => simp [hk] at hretry
      | internalRetry => rfl
      | inactivityTimeout => exact absurd hk hkind
  split at hv'
  · rename_i hlimit
    rw [Bool.and_eq_true, beq_iff_eq, decide_eq_true_eq] at hlimit
    obtain ⟨hretry, hlimit⟩ := hlimit
    have hretried : o.apply c.now r = r.retried o.failureClass := by
      rw [LivenessObservation.apply, hretry]
      rfl
    cases htrans : s₁.transitionProviderLivenessAttention c.now (o.observedAt.getD c.now)
        (H o.source) o.runId (o.apply c.now r) with
    | none =>
      rw [htrans, Option.getD_none, hcurrent] at hv'
      exact Option.some.inj hv' ▸ happly
    | some s₂ =>
      obtain ⟨-, attemptId, -, hrows⟩ := Store.transitionProviderLivenessAttention_eq_some htrans
      rw [htrans, Option.getD_some, hrows, hcurrent, Option.map_some] at hv'
      obtain rfl := Option.some.inj hv'
      split
      · rw [hretried] at hlimit ⊢
        exact .attended o hop rfl hattempt hretry hlimit
      · exact happly
  · rw [Option.getD_none, hcurrent] at hv'
    exact Option.some.inj hv' ▸ happly

/-- A row after part of the sweep: as it was, or moved on for its inactivity. -/
theorem foldl_sweepRun_judges {observed inactivity : Time} {limit : ℕ}
    (hop : c.op = .sweep observed inactivity limit) {d₀ : LivenessStore}
    (es : List (RunId × Run)) (hes : ∀ e ∈ es, d₀.store.runs.get? e.1 = some e.2)
    (hd : ∀ id v', d.store.runs.get? id = some v' → ∃ v, d₀.store.runs.get? id = some v ∧
      v.JudgedBy c id v' ∧ (v' = v ∨ v'.state ≠ .running)) :
    ∀ id v', (es.foldl (sweepRun H c.now observed (inactivityTime inactivity)) d).store.runs.get? id
        = some v' →
      ∃ v, d₀.store.runs.get? id = some v ∧ v.JudgedBy c id v' ∧ (v' = v ∨ v'.state ≠ .running) := by
  induction es generalizing d with
  | nil => exact hd
  | cons e es ih =>
    refine ih (fun e' he' => hes e' (List.mem_cons_of_mem _ he')) fun id v' hv' => ?_
    have he := hes e List.mem_cons_self
    rw [sweepRun] at hv'
    split at hv'
    · rename_i anchor attemptId w hanchor hattempt hw
      split at hv'
      · exact hd id v' hv'
      rename_i hinactive
      dsimp only at hv'
      split at hv'
      · exact hd id v' hv'
      rename_i s htrans
      obtain ⟨-, attemptId', -, hrows⟩ := Store.transitionProviderLivenessAttention_eq_some htrans
      dsimp only [insertEvent] at hv'
      rw [hrows] at hv'
      obtain ⟨u, hu, rfl⟩ := Option.map_eq_some_iff.mp hv'
      obtain ⟨v, hv, hjudged, hsame⟩ := hd id u hu
      split
      · rename_i hp
        simp only [Bool.and_eq_true, beq_iff_eq] at hp
        obtain rfl := hp.1.1
        obtain rfl := hsame.resolve_right fun hne => hne hp.1.2
        obtain rfl := Option.some.inj (he.symm.trans hv)
        exact ⟨_, hv, .swept observed inactivity limit hop anchor hanchor (not_lt.mp hinactive),
          Or.inr (by simp [Run.attention])⟩
      · exact ⟨v, hv, hjudged, hsame⟩
    · exact hd id v' hv'

/-- Every row after a judgement comes from a row before it. -/
theorem step_judges (d : LivenessStore) (c : LivenessCall) {v' : Run}
    (hv' : (d.step H idOrder c).store.runs.get? runId = some v') :
    ∃ v, d.store.runs.get? runId = some v ∧ v.JudgedBy c runId v' := by
  rw [step] at hv'
  split at hv'
  · rename_i o hop
    split at hv'
    · rename_i d' observed hok
      rcases observeProviderLiveness_cases hok with rfl | ⟨r, hr, hrunning, hattempt, hkind, rfl⟩
      · exact ⟨v', hv', .kept⟩
      · cases hv : d.store.runs.get? runId with
        | none =>
          rw [get?_recordObservation_of_none hv] at hv'
          cases hv'
        | some v =>
          exact ⟨v, rfl, recordObservation_judges hop hr hrunning hattempt hkind hv hv'⟩
    · exact ⟨v', hv', .kept⟩
  · rename_i observed inactivity limit hop
    have hes : ∀ e ∈ d.sweptRuns idOrder limit, d.store.runs.get? e.1 = some e.2 := by
      intro e he
      have hselect := (List.mergeSort_perm _ _).subset (List.mem_of_mem_take he)
      exact (Table.mem_select.mp hselect).1
    obtain ⟨v, hv, hjudged, -⟩ := foldl_sweepRun_judges hop (d.sweptRuns idOrder limit) hes
      (fun id v' hv' => ⟨v', hv', .kept, Or.inl rfl⟩) runId v' hv'
    exact ⟨v, hv, hjudged⟩

end LivenessStore

/-! ## Judgement by an attempt's own evidence -/

/-- The liveness columns tell of an invocation and of nothing else. -/
structure Run.LivenessBegins (began : Time) (r : Run) : Prop where
  startedAt : r.liveness.startedAt = some began
  progress : r.liveness.meaningfulProgressAt = none
  retries : r.liveness.internalRetryCount = 0

/-- The anchor is the invocation or a progress that the attempt reported, and no more retries are
counted than the attempt reported. -/
structure Run.OwnEvidence (runId : RunId) (attemptId : AttemptId) (began : Time)
    (calls : List LivenessCall) (r : Run) : Prop where
  anchor : ∃ anchor, r.livenessAnchor = some anchor ∧
    (anchor = began ∨ ∃ c ∈ calls, c.progressOf runId attemptId = some anchor)
  retries : r.liveness.internalRetryCount ≤ calls.countP (LivenessCall.retries runId attemptId)

namespace Run

variable {runId : RunId} {attemptId : AttemptId} {began : Time} {calls : List LivenessCall}
  {c : LivenessCall} {r r' : Run}

theorem LivenessBegins.ownEvidence (h : r.LivenessBegins began) :
    r.OwnEvidence runId attemptId began [] where
  anchor := ⟨began, by rw [livenessAnchor, h.progress, h.startedAt]; rfl, Or.inl rfl⟩
  retries := h.retries.le

theorem OwnEvidence.append (h : r.OwnEvidence runId attemptId began calls) :
    r.OwnEvidence runId attemptId began (calls ++ [c]) where
  anchor := by
    obtain ⟨anchor, hanchor, rfl | ⟨c', hc', hprogress⟩⟩ := h.anchor
    · exact ⟨anchor, hanchor, Or.inl rfl⟩
    · exact ⟨anchor, hanchor, Or.inr ⟨c', List.mem_append_left _ hc', hprogress⟩⟩
  retries := by
    rw [List.countP_append]
    exact h.retries.trans (Nat.le_add_right _ _)

theorem OwnEvidence.retried {failureClass : String}
    (h : r.OwnEvidence runId attemptId began calls)
    (hc : c.retries runId attemptId = true) :
    (r.retried failureClass).OwnEvidence runId attemptId began (calls ++ [c]) where
  anchor := h.append.anchor
  retries := by
    rw [List.countP_append, List.countP_singleton, if_pos hc]
    exact Nat.add_le_add_right h.retries 1

theorem OwnEvidence.attention (h : r.OwnEvidence runId attemptId began calls) :
    r.attention.OwnEvidence runId attemptId began calls :=
  ⟨h.anchor, h.retries⟩

theorem retries_of_observe {o : LivenessObservation} (hop : c.op = .observe o)
    (hrun : o.runId = runId) (hattempt : r.activeAttemptId = some o.expectedAttemptId)
    (hactive : r.activeAttemptId = some attemptId) (hkind : o.kind = .internalRetry) :
    c.retries runId attemptId = true := by
  have hid : o.expectedAttemptId = attemptId := Option.some.inj (hattempt.symm.trans hactive)
  simp only [LivenessCall.retries, hop, hrun, hid, hkind, beq_self_eq_true, Bool.and_self]

theorem OwnEvidence.judgedBy (h : r.OwnEvidence runId attemptId began calls)
    (hactive : r.activeAttemptId = some attemptId) (hj : r.JudgedBy c runId r') :
    r'.activeAttemptId = some attemptId ∧ r'.OwnEvidence runId attemptId began (calls ++ [c]) := by
  cases hj with
  | kept => exact ⟨hactive, h.append⟩
  | progressed o hop hrun hattempt hkind =>
    have hid : o.expectedAttemptId = attemptId := Option.some.inj (hattempt.symm.trans hactive)
    refine ⟨hactive, ⟨o.observedAt.getD c.now, rfl, Or.inr ⟨c, by simp, ?_⟩⟩, Nat.zero_le _⟩
    simp only [LivenessCall.progressOf, hop, hrun, hid, hkind, beq_self_eq_true, Bool.and_self,
      if_true]
  | retried o hop hrun hattempt hkind =>
    exact ⟨hactive, h.retried (retries_of_observe hop hrun hattempt hactive hkind)⟩
  | attended o hop hrun hattempt hkind =>
    exact ⟨hactive,
      (h.retried (retries_of_observe hop hrun hattempt hactive hkind)).attention⟩
  | swept =>
    exact ⟨hactive, h.append.attention⟩

end Run

namespace LivenessStore

variable {H : LivenessSource → OperationId} {idOrder : RunId → RunId → Bool} {d : LivenessStore}
  {runId : RunId} {attemptId : AttemptId} {began : Time}

/-- From `d` on, whatever moves the attempt to `needs_input` is evidence of its own: so many
retries, or no progress for so long since its invocation or its last progress. -/
def JudgedSince (H : LivenessSource → OperationId) (idOrder : RunId → RunId → Bool)
    (d : LivenessStore) (runId : RunId) (attemptId : AttemptId) (began : Time) : Prop :=
  ∀ (calls : List LivenessCall) (c : LivenessCall) (r r' : Run),
    (Transition.run (step H idOrder) d calls).store.runs.get? runId = some r →
    r.state = .running → r.activeAttemptId = some attemptId →
    (step H idOrder (Transition.run (step H idOrder) d calls) c).store.runs.get? runId = some r' →
    r'.state = .needsInput →
    match c.op with
    | .observe o => o.limit ≤ (calls ++ [c]).countP (LivenessCall.retries runId attemptId)
    | .sweep observed inactivity _ => ∃ anchor,
        (anchor = began ∨ ∃ c' ∈ calls, c'.progressOf runId attemptId = some anchor) ∧
          anchor + inactivityTime inactivity ≤ observed

/-- Judgements keep the evidence of an attempt its own. -/
theorem ownEvidence_run {r₀ : Run} (hr₀ : d.store.runs.get? runId = some r₀)
    (hactive : r₀.activeAttemptId = some attemptId) (hbegins : r₀.LivenessBegins began)
    (calls : List LivenessCall) {r : Run}
    (hr : (Transition.run (step H idOrder) d calls).store.runs.get? runId = some r) :
    r.activeAttemptId = some attemptId ∧ r.OwnEvidence runId attemptId began calls := by
  induction calls using List.reverseRecOn generalizing r with
  | nil =>
    obtain rfl := Option.some.inj (hr₀.symm.trans hr)
    exact ⟨hactive, hbegins.ownEvidence⟩
  | append_singleton calls c ih =>
    rw [Transition.run_append] at hr
    obtain ⟨v, hv, hjudged⟩ := step_judges _ c hr
    obtain ⟨hv_active, hown⟩ := ih hv
    exact hown.judgedBy hv_active hjudged

/-- An attempt whose liveness columns begin with its invocation is judged by its own evidence. -/
theorem judgedSince_of_begins {r₀ : Run} (hr₀ : d.store.runs.get? runId = some r₀)
    (hactive : r₀.activeAttemptId = some attemptId) (hbegins : r₀.LivenessBegins began) :
    JudgedSince H idOrder d runId attemptId began := by
  intro calls c r r' hr hrunning hr_active hr' hstate
  obtain ⟨-, hown⟩ := ownEvidence_run hr₀ hactive hbegins calls hr
  obtain ⟨v, hv, hjudged⟩ := step_judges _ c hr'
  obtain rfl := Option.some.inj (hr.symm.trans hv)
  cases hjudged with
  | kept => exact absurd (hrunning.symm.trans hstate) (by decide)
  | progressed =>
    exact absurd (hrunning.symm.trans hstate) (by decide)
  | retried => exact absurd (hrunning.symm.trans hstate) (by decide)
  | attended o hop hrun hattempt hkind hlimit =>
    rw [hop]
    have hretries := Run.retries_of_observe hop hrun hattempt hr_active hkind
    have hcounted : (r.retried o.failureClass).OwnEvidence runId attemptId began (calls ++ [c]) :=
      hown.retried hretries
    exact hlimit.trans hcounted.retries
  | swept observed inactivity limit hop anchor hanchor hinactive =>
    rw [hop]
    obtain ⟨anchor', hanchor', hfrom⟩ := hown.anchor
    obtain rfl := Option.some.inj (hanchor.symm.trans hanchor')
    exact ⟨anchor, hfrom, hinactive⟩

end LivenessStore

end GlassHive
