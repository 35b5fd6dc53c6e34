import GlassHive.Frames
import GlassHive.Recurrence

/-!
# Retries of failed runs

A caller who holds a capability retries a failed run of a worker. The use of the capability is
recorded with the run that it queued; a call that presents the capability again reads the record.

The columns of `run_action_uses` that the rest of the store reads are those of `RunActionUse`;
`RunActionKey` holds the others, under the same key.
-/

namespace GlassHive

open Relational Transition

/-- `RunActionError`. -/
structure RunActionError where
  code : String
  message : String
  statusCode : ℕ
  deriving DecidableEq, Repr

namespace RunActionError

def replayed : RunActionError :=
  ⟨"capability_replayed", "The action capability has already been consumed.", 409⟩

def unavailable : RunActionError :=
  ⟨"action_result_unavailable", "The prior action result is unavailable.", 409⟩

def scopeMismatch : RunActionError :=
  ⟨"capability_scope_mismatch", "The action capability does not match this workspace run.", 403⟩

def alreadyRetried : RunActionError :=
  ⟨"run_already_retried", "This failed run has already been retried.", 409⟩

def workerEnded : RunActionError :=
  ⟨"worker_ended", "The workspace has ended.", 409⟩

def notRetryable : RunActionError :=
  ⟨"run_not_retryable", "This run is not in a retryable failed state.", 409⟩

def activeRun : RunActionError :=
  ⟨"worker_has_active_run", "This workspace already has active work.", 409⟩

/-- What the call raises for an error of `_require_worker_work_admission`. -/
def ofAdmission : StoreError → RunActionError
  | .workAdmission code message =>
    ⟨if code == "worker_terminated" then "worker_ended" else code, message, 409⟩
  | _ => workerEnded

end RunActionError

/-- What a use of a capability is for: the columns that a later call has to present again. -/
structure RetryScope where
  idempotencyKey : String
  projectId : ProjectId
  workerId : WorkerId
  sourceRunId : RunId
  tenantId : TenantId
  ownerId : OwnerId
  deriving DecidableEq, Repr

/-- The arguments of `create_retry_run_action`. The context is the text of the dictionary. -/
structure RetryRun where
  capabilityId : RowId
  scope : RetryScope
  instruction : String
  continuationContext : Option String

/-- The other columns of a row of `run_action_uses`. -/
structure RunActionKey where
  idempotencyKey : String
  tenantId : TenantId
  ownerId : OwnerId
  createdAt : Time
  deriving Repr

namespace RetryScope

/-- `_validate_existing_run_action`, of a retry. -/
def isOf (scope : RetryScope) (u : RunActionUse) (k : RunActionKey) : Bool :=
  u.action == "retry" && k.idempotencyKey == scope.idempotencyKey &&
    u.projectId == scope.projectId && u.workerId == scope.workerId &&
    u.sourceRunId == scope.sourceRunId && k.tenantId == scope.tenantId &&
    k.ownerId == scope.ownerId

/-- The row of `run_action_uses` that a call inserts. -/
def use (scope : RetryScope) (now : Time) (newRunId : RunId) : RunActionUse where
  action := "retry"
  projectId := scope.projectId
  workerId := scope.workerId
  sourceRunId := scope.sourceRunId
  newRunId := some newRunId
  status := "completed"
  resultCode := "run_queued"
  updatedAt := now

/-- Its other columns. -/
def key (scope : RetryScope) (now : Time) : RunActionKey where
  idempotencyKey := scope.idempotencyKey
  tenantId := scope.tenantId
  ownerId := scope.ownerId
  createdAt := now

/-- Where the source run belongs. -/
def place (scope : RetryScope) : RunPlace where
  projectId := scope.projectId
  workerId := scope.workerId
  tenantId := scope.tenantId

end RetryScope

/-- What a call returns or raises. -/
inductive RetryReply
  | returned (action : RunActionUse) (runId : RunId) (run : Run) (replay : Bool)
  | raised (e : RunActionError)
  | failed (e : StoreError)

/-- The run that a call created. -/
def RetryReply.created : RetryReply → Option RunId
  | .returned _ runId _ false => some runId
  | _ => none

/-- The tables that hold the uses of run actions. -/
structure RetryTables where
  base : Store
  keys : Table RowId RunActionKey

namespace Store

/-- `_require_run_action_scope`. -/
def requireRunActionScope (s : Store) (scope : RetryScope) :
    Except RunActionError (Worker × Run) :=
  match s.workers.get? scope.workerId, s.runs.get? scope.sourceRunId with
  | some w, some r =>
    if w.projectId != scope.projectId || r.projectId != scope.projectId ||
        r.workerId != scope.workerId || w.tenantId != scope.tenantId ||
        r.tenantId != scope.tenantId || w.ownerId != scope.ownerId then
      .error .scopeMismatch
    else .ok (w, r)
  | _, _ => .error .scopeMismatch

/-- The worker has a run that the call takes for active work. -/
def hasActiveRun (s : Store) (workerId : WorkerId) : Bool :=
  s.runs.any fun _ r => r.workerId == workerId && oneOf r.state [.queued, .running]

theorem workerHas_iff_any {s : Store} {workerId : WorkerId} {states : List RunState} :
    s.WorkerHas workerId states ↔
      (s.runs.any fun _ r => r.workerId == workerId && oneOf r.state states) = true := by
  simp [WorkerHas, Table.any_eq_true]

theorem hasActiveRun_iff {s : Store} {workerId : WorkerId} :
    s.hasActiveRun workerId = true ↔ s.WorkerHas workerId [.queued, .running] :=
  workerHas_iff_any.symm

end Store

namespace RetryTables

/-- The row of the use of a capability. -/
def use (t : RetryTables) (capabilityId : RowId) : Option (RunActionUse × RunActionKey) :=
  (t.base.runActionUses.get? capabilityId).bind fun u =>
    (t.keys.get? capabilityId).map fun k => (u, k)

/-- A retry of the source run in the scope is recorded. -/
def priorRetry (t : RetryTables) (scope : RetryScope) : Bool :=
  t.base.runActionUses.any fun capabilityId u =>
    u.action == "retry" && u.sourceRunId == scope.sourceRunId &&
      u.projectId == scope.projectId && u.workerId == scope.workerId &&
      (t.keys.get? capabilityId).any fun k =>
        k.tenantId == scope.tenantId && k.ownerId == scope.ownerId

/-- The checks of a first use, up to that of active work. -/
def admission (t : RetryTables) (scope : RetryScope) : Except RunActionError Unit :=
  match t.base.requireRunActionScope scope with
  | .error e => .error e
  | .ok (w, r) =>
    if t.priorRetry scope then .error .alreadyRetried
    else match workAdmissionError (some w) (some scope.projectId) with
    | some e => .error (.ofAdmission e)
    | none =>
      if t.base.workspaceGcClaimActive scope.workerId then .error .workerEnded
      else if r.state != .failed || !r.failure.retryable then .error .notRetryable
      else .ok ()

/-- The insertions of a first use. -/
def insertRetry (t : RetryTables) (now : Time) (a : RetryRun) : RetryTables × RetryReply :=
  let id := RunId.uuid t.base.nextId
  let row := { t.base.newRun now id a.scope.workerId a.scope.projectId a.scope.tenantId
    a.instruction .queued with
      continuationContext := a.continuationContext.getD "\x7b\x7d" }
  match t.base.drawId.insertRun? id row with
  | none => (t, .failed (.integrity "runs.run_id"))
  | some s =>
    match s.runActionUses.insert? a.capabilityId (a.scope.use now id) with
    | none => (t, .failed (.integrity "run_action_uses.capability_id"))
    | some uses =>
      (⟨{ s with runActionUses := uses }.touchLastRun now a.scope.workerId id,
        t.keys.put a.capabilityId (a.scope.key now)⟩,
        .returned (a.scope.use now id) id row false)

/-- `create_retry_run_action`. -/
def createRetryRunAction (t : RetryTables) (now : Time) (a : RetryRun) :
    RetryTables × RetryReply :=
  match t.use a.capabilityId with
  | some (u, k) =>
    if !a.scope.isOf u k then (t, .raised .replayed)
    else match u.newRunId.bind fun id => (t.base.runs.get? id).map fun r => (id, r) with
    | none => (t, .raised .unavailable)
    | some (id, r) => (t, .returned u id r true)
  | none =>
    match t.admission a.scope with
    | .error e => (t, .raised e)
    | .ok () =>
      if t.base.hasActiveRun a.scope.workerId then (t, .raised .activeRun)
      else t.insertRetry now a

end RetryTables

/-! ## Runs of calls -/

/-- A retry that was created. -/
structure RetriedRun where
  capabilityId : RowId
  scope : RetryScope
  newRunId : RunId

/-- The tables and the retries that calls created. -/
structure Retries where
  tables : RetryTables
  created : List RetriedRun

/-- A transaction of the garbage collector. -/
def Call.collects (c : Call) : Bool :=
  match c.op with
  | .gc _ => true
  | _ => false

theorem Call.ne_gc_of_collects {c : Call} (h : c.collects = false) (op : GcOp) :
    c.op ≠ .gc op := by
  intro hop
  simp [collects, hop] at h

/-- A call, or a transaction of the store other than a collection. -/
inductive RetryStep
  | retry (now : Time) (a : RetryRun)
  | call (c : Call) (h : c.collects = false)

namespace Retries

/-- A new database. -/
def init (settings : Settings) : Retries :=
  ⟨⟨.init settings, .empty⟩, []⟩

/-- What a call answers. -/
def reply (h : Retries) (now : Time) (a : RetryRun) : RetryReply :=
  (h.tables.createRetryRunAction now a).2

/-- One step. -/
def step (h : Retries) : RetryStep → Retries
  | .retry now a =>
    { tables := (h.tables.createRetryRunAction now a).1
      created := h.created ++
        ((h.reply now a).created.map fun id => ⟨a.capabilityId, a.scope, id⟩).toList }
  | .call c _ => { h with tables := { h.tables with base := h.tables.base.step c } }

/-- A call uses a capability once: a failed run has at most one retry, a capability that is presented
again gets the run it has queued in its own scope and an error in any other, and no run is queued
beside an unfinished one. -/
structure CallsOnce (h : Retries) (now : Time) (a : RetryRun) : Prop where
  once : ((h.step (.retry now a)).created.map fun e => e.scope.sourceRunId).Nodup
  replays : ∀ e ∈ h.created, e.capabilityId = a.capabilityId → e.scope = a.scope →
    (∃ action run, h.reply now a = .returned action e.newRunId run true) ∧
      (h.step (.retry now a)).tables = h.tables
  rejects : ∀ e ∈ h.created, e.capabilityId = a.capabilityId → e.scope ≠ a.scope →
    h.reply now a = .raised .replayed ∧ (h.step (.retry now a)).tables = h.tables
  alone : ∀ id, (h.reply now a).created = some id →
    ¬h.tables.base.WorkerHas a.scope.workerId RunState.nonterminal

/-- Retries are single use at a step. -/
def SingleUse (h : Retries) : RetryStep → Prop
  | .retry now a => h.CallsOnce now a
  | .call _ _ => True

/-- A first use that passes the other checks finds no run of the worker in a state that the check of
active work overlooks. -/
def Unobscured (h : Retries) : RetryStep → Prop
  | .retry _ a =>
    h.tables.use a.capabilityId = none → h.tables.admission a.scope = .ok () →
      h.tables.base.WorkerHas a.scope.workerId RunState.overlooked →
        h.tables.base.WorkerHas a.scope.workerId [.queued, .running]
  | .call _ _ => True

end Retries

/-! ## What a call does -/

namespace RetryTables

variable {t : RetryTables} {now : Time} {a : RetryRun}

/-- What a first use that is granted finds and writes. -/
structure Creates (t : RetryTables) (now : Time) (a : RetryRun) (t' : RetryTables)
    (id : RunId) : Prop where
  unused : t.use a.capabilityId = none
  admitted : t.admission a.scope = .ok ()
  idle : t.base.hasActiveRun a.scope.workerId = false
  runs : ∀ runId r, t.base.runs.get? runId = some r → t'.base.runs.get? runId = some r
  newRun : (t'.base.runs.get? id).isSome = true
  owners : t'.base.owners = t.base.owners
  uses : t.base.runActionUses.insert? a.capabilityId (a.scope.use now id) =
    some t'.base.runActionUses
  keys : t'.keys = t.keys.put a.capabilityId (a.scope.key now)

theorem insertRetry_cases (hunused : t.use a.capabilityId = none)
    (hadmitted : t.admission a.scope = .ok ())
    (hidle : t.base.hasActiveRun a.scope.workerId = false) :
    (t.insertRetry now a).1 = t ∧ (t.insertRetry now a).2.created = none ∨
      ∃ id, (t.insertRetry now a).2.created = some id ∧
        t.Creates now a (t.insertRetry now a).1 id := by
  unfold insertRetry
  dsimp only
  split
  · exact Or.inl ⟨rfl, rfl⟩
  · rename_i s hrun
    obtain ⟨runs, hins, rfl⟩ := Store.insertRun?_eq_some hrun
    split
    · exact Or.inl ⟨rfl, rfl⟩
    · rename_i uses huses
      have hruns := Table.get?_insert hins
      refine Or.inr ⟨_, rfl, hunused, hadmitted, hidle, fun runId r hr => ?_, ?_, ?_, huses, rfl⟩
      · change runs.get? runId = some r
        rw [hruns, if_neg]
        · exact hr
        · rintro rfl
          exact absurd ((Table.insert?_eq_some hins).1.symm.trans hr) (by simp)
      · change (runs.get? _).isSome = true
        rw [hruns, if_pos rfl]
        rfl
      · unfold Store.touchLastRun
        exact Store.owners_update (by simp; rfl) (by intros; rfl)

/-- A call changes nothing and creates nothing, or creates a run. -/
theorem createRetryRunAction_cases (t : RetryTables) (now : Time) (a : RetryRun) :
    (t.createRetryRunAction now a).1 = t ∧ (t.createRetryRunAction now a).2.created = none ∨
      ∃ id, (t.createRetryRunAction now a).2.created = some id ∧
        t.Creates now a (t.createRetryRunAction now a).1 id := by
  unfold createRetryRunAction
  split
  · split
    · exact Or.inl ⟨rfl, rfl⟩
    split
    · exact Or.inl ⟨rfl, rfl⟩
    · exact Or.inl ⟨rfl, rfl⟩
  · rename_i hunused
    split
    · exact Or.inl ⟨rfl, rfl⟩
    · rename_i hadmitted
      split
      · exact Or.inl ⟨rfl, rfl⟩
      · rename_i hidle
        exact insertRetry_cases hunused hadmitted (by simpa using hidle)

/-- What an admitted call has checked. -/
structure Admitted (t : RetryTables) (scope : RetryScope) : Prop where
  source : ∃ r, t.base.runs.get? scope.sourceRunId = some r ∧ r.place = scope.place
  owner : t.base.owners scope.workerId = some scope.ownerId
  first : t.priorRetry scope = false

theorem admitted_of_admission {scope : RetryScope} (h : t.admission scope = .ok ()) :
    t.Admitted scope := by
  unfold admission at h
  split at h
  · cases h
  · rename_i w r hscope
    unfold Store.requireRunActionScope at hscope
    split at hscope
    · rename_i w' r' hw hr
      split at hscope
      · cases hscope
      · rename_i hmatch
        obtain ⟨rfl, rfl⟩ := Prod.mk.inj (Except.ok.inj hscope)
        simp only [Bool.or_eq_true, bne_iff_ne, not_or, not_not] at hmatch
        obtain ⟨⟨⟨⟨⟨-, hproject⟩, hworker⟩, -⟩, htenant⟩, howner⟩ := hmatch
        refine ⟨⟨r', hr, ?_⟩, ?_, ?_⟩
        · simp only [Run.place, RetryScope.place, hproject, hworker, htenant]
        · rw [Store.owners, hw, Option.map_some, howner]
        · split at h
          · cases h
          · rename_i hfirst
            simpa using hfirst
    · cases hscope

end RetryTables

/-! ## What is recorded of the retries -/

/-- The use of a retry is on record, and its runs are there. -/
structure RetryTables.Records (t : RetryTables) (e : RetriedRun) : Prop where
  use : ∃ u k, t.use e.capabilityId = some (u, k) ∧ e.scope.isOf u k = true ∧
    u.newRunId = some e.newRunId
  newRun : (t.base.runs.get? e.newRunId).isSome = true
  source : ∃ r, t.base.runs.get? e.scope.sourceRunId = some r ∧ r.place = e.scope.place
  owner : t.base.owners e.scope.workerId = some e.scope.ownerId

namespace RetryTables

variable {t t' : RetryTables} {now : Time} {a : RetryRun} {e : RetriedRun} {id : RunId}
  {u : RunActionUse} {k : RunActionKey}

theorem isOf_iff {scope : RetryScope} :
    scope.isOf u k = true ↔ u.action = "retry" ∧ u.projectId = scope.projectId ∧
      u.workerId = scope.workerId ∧ u.sourceRunId = scope.sourceRunId ∧
      k.idempotencyKey = scope.idempotencyKey ∧ k.tenantId = scope.tenantId ∧
      k.ownerId = scope.ownerId := by
  simp only [RetryScope.isOf, Bool.and_eq_true, beq_iff_eq]
  tauto

/-- A row is the use of one scope. -/
theorem scope_eq_of_isOf {scope scope' : RetryScope} (h : scope.isOf u k = true)
    (h' : scope'.isOf u k = true) : scope' = scope := by
  obtain ⟨-, hproject, hworker, hsource, hkey, htenant, howner⟩ := isOf_iff.mp h
  obtain ⟨-, hproject', hworker', hsource', hkey', htenant', howner'⟩ := isOf_iff.mp h'
  cases scope
  cases scope'
  simp_all

theorem use_eq_some {capabilityId : RowId} :
    t.use capabilityId = some (u, k) ↔
      t.base.runActionUses.get? capabilityId = some u ∧ t.keys.get? capabilityId = some k := by
  simp [use, Option.bind_eq_some_iff, Option.map_eq_some_iff]

/-- A transaction that is not a collection keeps the record of a retry. -/
theorem Records.call {c : Call} (h : t.Records e) (hcollects : c.collects = false) :
    RetryTables.Records { t with base := t.base.step c } e := by
  have hgc : ∀ op, c.op ≠ .gc op := Call.ne_gc_of_collects hcollects
  have hretains : t.base.Retains (t.base.step c) := Store.retains_step hgc
  obtain ⟨u, k, huse, hof, hnew⟩ := h.use
  obtain ⟨r, hr, hplace⟩ := h.source
  obtain ⟨hu, hk⟩ := use_eq_some.mp huse
  refine ⟨?_, hretains.runs _ h.newRun, ?_, Store.owners_step hgc h.owner⟩
  · have hbinding := congrFun hretains.uses e.capabilityId
    rw [Store.useBindings, Store.useBindings, hu, Option.map_some] at hbinding
    obtain ⟨u', hu', hbinding⟩ := Option.map_eq_some_iff.mp hbinding
    simp only [RunActionUse.binding, RunActionBinding.mk.injEq] at hbinding
    obtain ⟨haction, hproject, hworker, hsource, hrun⟩ := hbinding
    refine ⟨u', k, use_eq_some.mpr ⟨hu', hk⟩, ?_, hrun.trans hnew⟩
    rw [isOf_iff] at hof ⊢
    rw [haction, hproject, hworker, hsource]
    exact hof
  · obtain ⟨r', hr', hplace'⟩ := Store.place_step hgc hr
    exact ⟨r', hr', hplace'.trans hplace⟩

/-- The retry that a call creates is recorded. -/
theorem Creates.records (h : t.Creates now a t' id) :
    t'.Records ⟨a.capabilityId, a.scope, id⟩ := by
  have hadmitted := admitted_of_admission h.admitted
  obtain ⟨r, hr, hplace⟩ := hadmitted.source
  refine ⟨⟨a.scope.use now id, a.scope.key now, use_eq_some.mpr ⟨?_, ?_⟩, ?_, rfl⟩, h.newRun,
    ⟨r, h.runs _ r hr, hplace⟩, ?_⟩
  · rw [Table.get?_insert h.uses, if_pos rfl]
  · rw [h.keys, Table.get?_put, if_pos rfl]
  · simp [isOf_iff, RetryScope.use, RetryScope.key]
  · rw [h.owners]
    exact hadmitted.owner

/-- The earlier retries stay recorded. -/
theorem Creates.keeps (h : t.Creates now a t' id) (he : t.Records e) : t'.Records e := by
  obtain ⟨u, k, huse, hof, hnew⟩ := he.use
  obtain ⟨hu, hk⟩ := use_eq_some.mp huse
  obtain ⟨r, hr, hplace⟩ := he.source
  have hne : e.capabilityId ≠ a.capabilityId := by
    intro heq
    have hunused := h.unused
    rw [← heq, huse] at hunused
    cases hunused
  refine ⟨⟨u, k, use_eq_some.mpr ⟨?_, ?_⟩, hof, hnew⟩, ?_, ⟨r, h.runs _ r hr, hplace⟩, ?_⟩
  · rw [Table.get?_insert h.uses, if_neg hne]
    exact hu
  · rw [h.keys, Table.get?_put, if_neg hne]
    exact hk
  · obtain ⟨run, hrun⟩ := Option.isSome_iff_exists.mp he.newRun
    rw [h.runs _ run hrun]
    rfl
  · rw [h.owners]
    exact he.owner

/-- A created retry is the first of its source run: a recorded one of the same run has the same
scope but for its key, and the call would have found it. -/
theorem Creates.fresh (h : t.Creates now a t' id) (he : t.Records e) :
    e.scope.sourceRunId ≠ a.scope.sourceRunId := by
  intro hsource
  have hadmitted := admitted_of_admission h.admitted
  obtain ⟨r, hr, hplace⟩ := hadmitted.source
  obtain ⟨r', hr', hplace'⟩ := he.source
  rw [hsource, hr] at hr'
  obtain rfl := Option.some.inj hr'
  have hsame : e.scope.place = a.scope.place := hplace'.symm.trans hplace
  simp only [RetryScope.place, RunPlace.mk.injEq] at hsame
  obtain ⟨hproject, hworker, htenant⟩ := hsame
  have howner : e.scope.ownerId = a.scope.ownerId := by
    have hown := he.owner
    rw [hworker, hadmitted.owner] at hown
    exact (Option.some.inj hown).symm
  obtain ⟨u, k, huse, hof, -⟩ := he.use
  obtain ⟨hu, hk⟩ := use_eq_some.mp huse
  obtain ⟨haction, hp, hw, hs, -, ht, ho⟩ := isOf_iff.mp hof
  have hfirst := hadmitted.first
  rw [priorRetry, Table.any_eq_false] at hfirst
  have hnot := hfirst e.capabilityId u hu
  simp [haction, hp, hw, hs, hk, ht, ho, hsource, hproject, hworker, htenant, howner] at hnot

end RetryTables

/-! ## Retries are single use -/

namespace Retries

variable {h : Retries} {now : Time} {a : RetryRun}

/-- Every retry is recorded, and no two are of one run. -/
structure Sound (h : Retries) : Prop where
  records : ∀ e ∈ h.created, h.tables.Records e
  once : (h.created.map fun e => e.scope.sourceRunId).Nodup

theorem sound_init (settings : Settings) : (init settings).Sound :=
  ⟨fun e he => by simp [init] at he, by simp [init]⟩

theorem sound_step (hs : h.Sound) (i : RetryStep) : (h.step i).Sound := by
  cases i with
  | call c hcollects => exact ⟨fun e he => (hs.records e he).call hcollects, hs.once⟩
  | retry now a =>
    rcases h.tables.createRetryRunAction_cases now a with ⟨htables, hnone⟩ | ⟨id, hid, hcreates⟩
    · have hstep : h.step (.retry now a) = h := by
        simp [step, reply, htables, hnone]
      rw [hstep]
      exact hs
    · have hcreated : (h.step (.retry now a)).created =
          h.created ++ [⟨a.capabilityId, a.scope, id⟩] := by
        simp [step, reply, hid]
      refine ⟨fun e he => ?_, ?_⟩
      · rw [hcreated] at he
        rcases List.mem_append.mp he with he | he
        · exact hcreates.keeps (hs.records e he)
        · obtain rfl := List.mem_singleton.mp he
          exact hcreates.records
      · rw [hcreated, List.map_append, List.nodup_append]
        refine ⟨hs.once, by simp, fun source hsource source' hsource' => ?_⟩
        obtain ⟨e, he, rfl⟩ := List.mem_map.mp hsource
        obtain rfl : source' = a.scope.sourceRunId := by simpa using hsource'
        exact hcreates.fresh (hs.records e he)

/-- What a call with a used capability answers. -/
theorem createRetryRunAction_of_records {t : RetryTables} {e : RetriedRun} (now : Time)
    (he : t.Records e) (hcapability : e.capabilityId = a.capabilityId) :
    (e.scope = a.scope → ∃ action run, t.createRetryRunAction now a =
      (t, .returned action e.newRunId run true)) ∧
    (e.scope ≠ a.scope → t.createRetryRunAction now a = (t, .raised .replayed)) := by
  obtain ⟨u, k, huse, hof, hnew⟩ := he.use
  obtain ⟨run, hrun⟩ := Option.isSome_iff_exists.mp he.newRun
  rw [hcapability] at huse
  unfold RetryTables.createRetryRunAction
  rw [huse]
  constructor
  · intro hscope
    rw [hscope] at hof
    refine ⟨u, run, ?_⟩
    simp [hof, hnew, hrun]
  · intro hscope
    have hother : a.scope.isOf u k = false := by
      rw [Bool.eq_false_iff]
      intro hof'
      exact hscope (RetryTables.scope_eq_of_isOf hof' hof)
    simp [hother]

theorem singleUse_of_sound (hs : h.Sound) (i : RetryStep) (hclear : h.Unobscured i) :
    h.SingleUse i := by
  cases i with
  | call => trivial
  | retry now a =>
    refine ⟨(sound_step hs (.retry now a)).once, fun e he hcapability hscope => ?_,
      fun e he hcapability hscope => ?_, fun id hid hbusy => ?_⟩
    · obtain ⟨action, run, hreply⟩ :=
        (createRetryRunAction_of_records now (hs.records e he) hcapability).1 hscope
      exact ⟨⟨action, run, congrArg Prod.snd hreply⟩, congrArg Prod.fst hreply⟩
    · have hreply :=
        (createRetryRunAction_of_records now (hs.records e he) hcapability).2 hscope
      exact ⟨congrArg Prod.snd hreply, congrArg Prod.fst hreply⟩
    · rcases h.tables.createRetryRunAction_cases now a with ⟨-, hnone⟩ | ⟨id', -, hcreates⟩
      · rw [reply, hnone] at hid
        cases hid
      · have hidle : ¬h.tables.base.WorkerHas a.scope.workerId [.queued, .running] := by
          rw [← Store.hasActiveRun_iff, hcreates.idle]
          simp
        rcases Store.workerHas_nonterminal_iff.mp hbusy with hover | hactive
        · exact hidle (hclear hcreates.unused hcreates.admitted hover)
        · exact hidle hactive

/-- In every run in which the check of active work overlooks nothing, retries are single use. -/
theorem retries_singleUse (settings : Settings) (steps : List RetryStep)
    (hclear : Along step Unobscured (init settings) steps) :
    Along step SingleUse (init settings) steps :=
  along_of_invariant (fun _ i hs _ => sound_step hs i)
    (fun _ i hs hi => singleUse_of_sound hs i hi) (sound_init settings) hclear

/-! ## A retry beside a claimed run -/

/-- The steps of transactions that collect nothing. -/
private def stepsOf (calls : List Call) : List RetryStep :=
  calls.filterMap fun c => if h : c.collects = false then some (.call c h) else none

/-- The run `.uuid 3` of worker `1` failed, and may be retried. -/
private def withFailedRun : List Call :=
  withClaimedRun ++ [⟨5, .run (.finalizeRunIfStateParallel
    { runId := .uuid 3, expectedState := .claimed, state := .failed, outputText := "",
      errorText := "lost", usage := ⟨0, 0, 0, 0⟩, expected := ⟨some 4, none, none, none, none⟩,
      failure := ⟨some "transient", some true, none, none, none, none⟩ })⟩]

/-- Another run of the worker is claimed after it. -/
private def withSibling : List Call :=
  withFailedRun ++ [⟨6, .run (.createRun 1 0 "second" none true false none none)⟩,
    ⟨7, .start (.claimNextQueuedRunParallel 1 (some 9) 30)⟩]

private def retryOfFailed (key : String) : RetryRun where
  capabilityId := 11
  scope := ⟨key, 0, 1, .uuid 3, 0, 0⟩
  instruction := "again"
  continuationContext := none

/-- A failed run is retried while another run of its worker is claimed. -/
theorem retries_claimed :
    ¬Along step SingleUse (init Settings.default)
      (stepsOf withSibling ++ [.retry 8 (retryOfFailed "key")]) := by
  intro halong
  have hlast := ((along_append step).mp halong).2.1
  refine hlast.alone (.uuid 7) (by decide +kernel) (Store.workerHas_iff_any.mpr ?_)
  decide +kernel

private theorem along_unobscured_calls (calls : List Call) :
    Along step Unobscured h (stepsOf calls) := by
  induction calls generalizing h with
  | nil => trivial
  | cons c calls ih =>
    by_cases hcollects : c.collects = false
    · have hcons : stepsOf (c :: calls) = .call c hcollects :: stepsOf calls := by
        simp [stepsOf, hcollects]
      rw [hcons]
      exact ⟨trivial, ih⟩
    · have hcons : stepsOf (c :: calls) = stepsOf calls := by
        simp [stepsOf, hcollects]
      rw [hcons]
      exact ih

private theorem along_unobscured_retried :
    Along step Unobscured (init Settings.default)
      (stepsOf withFailedRun ++ [.retry 8 (retryOfFailed "key"), .retry 9 (retryOfFailed "key"),
        .retry 10 (retryOfFailed "other")]) := by
  refine (along_append step).mpr ⟨along_unobscured_calls withFailedRun, ?_, ?_, ?_, trivial⟩
  · intro _ _ hover
    have hbusy := Store.workerHas_iff_any.mp hover
    exact absurd hbusy (by decide +kernel)
  · intro hunused
    have hnone := congrArg Option.isNone hunused
    exact absurd hnone (by decide +kernel)
  · intro hunused
    have hnone := congrArg Option.isNone hunused
    exact absurd hnone (by decide +kernel)

/-- A capability that is presented three times, the last time with another key. -/
theorem retries_singleUse_replayed :
    (run step (init Settings.default) (stepsOf withFailedRun ++
        [.retry 8 (retryOfFailed "key"), .retry 9 (retryOfFailed "key"),
          .retry 10 (retryOfFailed "other")])).created.map RetriedRun.newRunId = [.uuid 5] ∧
      Along step SingleUse (init Settings.default) (stepsOf withFailedRun ++
        [.retry 8 (retryOfFailed "key"), .retry 9 (retryOfFailed "key"),
          .retry 10 (retryOfFailed "other")]) :=
  ⟨by decide +kernel, retries_singleUse Settings.default _ along_unobscured_retried⟩

end Retries

end GlassHive
