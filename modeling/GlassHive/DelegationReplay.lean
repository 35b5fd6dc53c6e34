import GlassHive.Delegations

/-!
# A reservation is answered once

Every key and every nonempty origin reference of an owner is bound to at most one delegation, and a
binding is never changed or deleted. What a retry of an accepted request depends on beyond that is
the gate of the isolated admission, which stands before the lookup of the key.
-/

namespace GlassHive

open Relational

/-- A transaction of the store or on its delegations. -/
inductive WorkOp
  | store (op : Op)
  | reserveDelegation (a : NewDelegation)
  | updateDelegationCurrentRun (workRef : WorkRef) (tenantId : TenantId) (ownerId : OwnerId)
      (runId : RunId)
  | dismissDelegation (workRef : WorkRef) (tenantId : TenantId) (ownerId : OwnerId)

/-- Such a transaction with the clock it reads. -/
structure WorkCall where
  now : Time
  op : WorkOp

/-- The work that a reply names. -/
def DelegationReply.work (r : DelegationReply) : WorkRef × ProjectId × WorkerId × RunId :=
  (r.record.workRef, r.record.delegation.projectId, r.record.delegation.workerId,
    r.record.delegation.initialRunId)

/-- Two requests under one key of one owner. -/
structure NewDelegation.SameKey (a b : NewDelegation) : Prop where
  tenantId : b.tenantId = a.tenantId
  ownerId : b.ownerId = a.ownerId
  idempotencyKey : b.idempotencyKey = a.idempotencyKey

namespace Store

/-- One such transaction. -/
def stepWork (s : Store) (c : WorkCall) : Store :=
  match c.op with
  | .store op => s.step ⟨c.now, op⟩
  | .reserveDelegation a => (s.reserveDelegation c.now a).store
  | .updateDelegationCurrentRun workRef tenantId ownerId runId =>
    (s.updateDelegationCurrentRun c.now workRef tenantId ownerId runId).store
  | .dismissDelegation workRef tenantId ownerId =>
    (s.dismissDelegation c.now workRef tenantId ownerId).store

/-- The store that transactions leave of a new database. -/
def afterWork (settings : Settings) (calls : List WorkCall) : Store :=
  Transition.run stepWork (init settings) calls

/-! ## Bindings stay -/

/-- Each key and each nonempty origin reference of an owner is bound at most once. -/
def UniqueBindings (s : Store) : Prop :=
  ∀ workRef workRef' b b', s.bindings workRef = some b → s.bindings workRef' = some b' →
    b.tenantId = b'.tenantId → b.ownerId = b'.ownerId →
    (b.idempotencyKey = b'.idempotencyKey ∨ b.originRef ≠ "" ∧ b.originRef = b'.originRef) →
    workRef = workRef'

/-- Bound keys are unique, and what a delegation refers to is there. -/
structure Bound (s : Store) : Prop where
  unique : s.UniqueBindings
  projects : ∀ workRef b, s.bindings workRef = some b → (s.projects.get? b.projectId).isSome = true
  workers : ∀ workRef b, s.bindings workRef = some b → (s.workers.get? b.workerId).isSome = true

section Steps

variable {s s' : Store} {now : Time} {a : NewDelegation} {c : WorkCall} {workRef : WorkRef}
  {b : DelegationBinding}

theorem bindings_eq_some : s.bindings workRef = some b ↔
    ∃ d, s.delegations.get? workRef = some d ∧ d.binding = b := by
  rw [bindings, Option.map_eq_some_iff]

theorem framed_stepWork (hstore : ∀ op, c.op ≠ .store op)
    (hreserve : ∀ a, c.op ≠ .reserveDelegation a) :
    s.Framed (s.stepWork c) ∧ (s.stepWork c).workers = s.workers := by
  obtain ⟨now, op⟩ := c
  cases op with
  | store op => exact absurd rfl (hstore op)
  | reserveDelegation a => exact absurd rfl (hreserve a)
  | updateDelegationCurrentRun =>
    simp only [stepWork, updateDelegationCurrentRun]
    split
    · exact ⟨framed_refl, rfl⟩
    · simp only [Outcome.store_commit]
      refine ⟨Anchored.framed ?_, rfl⟩
      constructor <;> simp
  | dismissDelegation =>
    simp only [stepWork, dismissDelegation, Outcome.store_commit]
    refine ⟨Anchored.framed ?_, rfl⟩
    constructor <;> simp

/-- The bindings after new work are those before it and its own. -/
theorem Accepted.bindings (h : s.Accepted s' now a) (workRef : WorkRef) :
    s'.bindings workRef = if workRef = s.nextId then
      some (a.row now (s.nextId + 1) (s.nextId + 2) (.uuid (s.nextId + 3))).binding
    else s.bindings workRef := by
  unfold Store.bindings
  rw [Table.get?_insert h.delegations]
  split <;> rfl

theorem Accepted.binding_kept (h : s.Accepted s' now a) (hb : s.bindings workRef = some b) :
    s'.bindings workRef = some b := by
  rw [h.bindings, if_neg]
  · exact hb
  · rintro rfl
    obtain ⟨d, hd, -⟩ := bindings_eq_some.mp hb
    rw [(Table.insert?_eq_some h.delegations).1] at hd
    cases hd

/-- A binding is never changed or deleted. -/
theorem binding_stepWork (hb : s.bindings workRef = some b) :
    (s.stepWork c).bindings workRef = some b := by
  by_cases hstore : ∃ op, c.op = .store op
  · obtain ⟨op, hop⟩ := hstore
    have hstep : s.stepWork c = s.step ⟨c.now, op⟩ := by rw [stepWork, hop]
    rw [hstep, bindings_step]
    exact hb
  by_cases hreserve : ∃ a, c.op = .reserveDelegation a
  · obtain ⟨a, hop⟩ := hreserve
    have hstep : s.stepWork c = (s.reserveDelegation c.now a).store := by rw [stepWork, hop]
    rw [hstep]
    rcases reserveDelegation_cases s c.now a with hs | hs
    · rw [hs]
      exact hb
    · exact hs.binding_kept hb
  · have hframed := (framed_stepWork (s := s) (c := c) (fun op h => hstore ⟨op, h⟩)
      fun a h => hreserve ⟨a, h⟩).1
    have hbindings : (s.stepWork c).bindings = s.bindings :=
      congrArg Records.bindings hframed.records
    rw [hbindings]
    exact hb

theorem binding_run {calls : List WorkCall} (hb : s.bindings workRef = some b) :
    (Transition.run stepWork s calls).bindings workRef = some b := by
  have halong := Transition.along_of_forall stepWork (C := fun _ _ => True) (fun _ _ => trivial) s calls
  have hstep : ∀ (s : Store) (c : WorkCall), s.bindings workRef = some b → True →
      (s.stepWork c).bindings workRef = some b := fun _ _ h _ => binding_stepWork h
  exact Transition.invariant_run hstep hb halong

/-- New work binds a key and an origin reference that no delegation of the owner has. -/
theorem Accepted.free (h : s.Accepted s' now a) (hb : s.bindings workRef = some b)
    (htenant : b.tenantId = a.tenantId) (howner : b.ownerId = a.ownerId) :
    b.idempotencyKey ≠ a.idempotencyKey ∧ (a.originRef ≠ "" → b.originRef ≠ a.originRef) := by
  obtain ⟨d, hd, rfl⟩ := bindings_eq_some.mp hb
  exact ⟨delegationByKey_eq_none.mp h.key workRef d hd htenant howner,
    fun hne => originBound_eq_false.mp h.origin hne workRef d hd htenant howner⟩

theorem Accepted.bound (h : s.Accepted s' now a) (hs : s.Bound) : s'.Bound := by
  have hproject : ∀ id, (s.projects.get? id).isSome = true →
      (s'.projects.get? id).isSome = true := by
    intro id hid
    rw [Table.get?_insert h.projects]
    split
    · rfl
    · exact hid
  have hworker : ∀ id, (s.workers.get? id).isSome = true →
      (s'.workers.get? id).isSome = true := by
    intro id hid
    rw [Table.get?_insert h.workers]
    split
    · rfl
    · exact hid
  refine ⟨?_, ?_, ?_⟩
  · intro r r' b b' hb hb' htenant howner hsame
    rw [h.bindings] at hb hb'
    split at hb <;> split at hb'
    · rename_i hr hr'
      exact hr.trans hr'.symm
    · obtain rfl := Option.some.inj hb
      obtain ⟨hkey, horigin⟩ := h.free hb' htenant.symm howner.symm
      rcases hsame with hsame | ⟨hne, hsame⟩
      · exact absurd hsame.symm hkey
      · exact absurd hsame.symm (horigin hne)
    · obtain rfl := Option.some.inj hb'
      obtain ⟨hkey, horigin⟩ := h.free hb htenant howner
      rcases hsame with hsame | ⟨hne, hsame⟩
      · exact absurd hsame hkey
      · exact absurd hsame (horigin fun hempty => hne (hsame.trans hempty))
    · exact hs.unique r r' b b' hb hb' htenant howner hsame
  · intro r b hb
    rw [h.bindings] at hb
    split at hb
    · obtain rfl := Option.some.inj hb
      change (s'.projects.get? (s.nextId + 1)).isSome = true
      simp [Table.get?_insert h.projects]
    · exact hproject _ (hs.projects r b hb)
  · intro r b hb
    rw [h.bindings] at hb
    split at hb
    · obtain rfl := Option.some.inj hb
      change (s'.workers.get? (s.nextId + 2)).isSome = true
      simp [Table.get?_insert h.workers]
    · exact hworker _ (hs.workers r b hb)

/-- The store keeps the worker of a delegation. -/
theorem delegated_kept (c : Call) (hb : s.bindings workRef = some b)
    (hworker : (s.workers.get? b.workerId).isSome = true) :
    ((s.step c).workers.get? b.workerId).isSome = true := by
  obtain ⟨d, hd, rfl⟩ := bindings_eq_some.mp hb
  rcases step_framed_cases s c with ⟨op, -, h⟩ | ⟨tenantId, h⟩ | h
  · exact (h.workers workRef d hd).trans hworker
  · have hworkers : (s.createProject c.now tenantId).store.workers = s.workers := by
      unfold createProject
      split <;> rfl
    rw [h, hworkers]
    exact hworker
  · by_cases hgc : ∃ op, c.op = .gc op
    · obtain ⟨op, hop⟩ := hgc
      have hkept : s.GcFramed (s.step c) := by
        rw [step, hop]
        exact gcFramed_applyGc
      exact (hkept.workers workRef d hd).trans hworker
    · exact worker_kept (fun op h => hgc ⟨op, h⟩) hworker

theorem bound_stepWork (hs : s.Bound) : (s.stepWork c).Bound := by
  by_cases hstore : ∃ op, c.op = .store op
  · obtain ⟨op, hop⟩ := hstore
    have hstep : s.stepWork c = s.step ⟨c.now, op⟩ := by rw [stepWork, hop]
    have hbindings := bindings_step s ⟨c.now, op⟩
    rw [hstep]
    refine ⟨?_, fun r b hb => ?_, fun r b hb => ?_⟩
    · unfold UniqueBindings
      rw [hbindings]
      exact hs.unique
    · rw [hbindings] at hb
      obtain ⟨d, hd, rfl⟩ := bindings_eq_some.mp hb
      obtain ⟨p, hp⟩ := Option.isSome_iff_exists.mp (hs.projects r _ hb)
      exact Option.isSome_iff_exists.mpr ⟨p, projects_step hd hp⟩
    · rw [hbindings] at hb
      exact delegated_kept _ hb (hs.workers r b hb)
  by_cases hreserve : ∃ a, c.op = .reserveDelegation a
  · obtain ⟨a, hop⟩ := hreserve
    have hstep : s.stepWork c = (s.reserveDelegation c.now a).store := by rw [stepWork, hop]
    rw [hstep]
    rcases reserveDelegation_cases s c.now a with h | h
    · rw [h]
      exact hs
    · exact h.bound hs
  · obtain ⟨hframed, hworkers⟩ := framed_stepWork (s := s) (c := c) (fun op h => hstore ⟨op, h⟩)
      fun a h => hreserve ⟨a, h⟩
    have hbindings : (s.stepWork c).bindings = s.bindings :=
      congrArg Records.bindings hframed.records
    have hprojects : (s.stepWork c).projects = s.projects :=
      congrArg Records.projects hframed.records
    refine ⟨?_, ?_, ?_⟩
    · unfold UniqueBindings
      rw [hbindings]
      exact hs.unique
    · rw [hbindings, hprojects]
      exact hs.projects
    · rw [hbindings, hworkers]
      exact hs.workers

/-- In every store that is reached. -/
theorem bound_afterWork (settings : Settings) (calls : List WorkCall) :
    (afterWork settings calls).Bound := by
  have halong := Transition.along_of_forall stepWork (C := fun _ _ => True) (fun _ _ => trivial)
    (init settings) calls
  have hstep : ∀ (s : Store) (c : WorkCall), s.Bound → True → (s.stepWork c).Bound :=
    fun _ _ h _ => bound_stepWork h
  have hinit : (init settings).Bound := by
    refine ⟨?_, ?_, ?_⟩ <;> intro r b <;> simp [Store.bindings, init]
  exact Transition.invariant_run hstep hinit halong

end Steps

/-! ## Replays -/

section Replays

variable {s : Store} {now : Time} {a : NewDelegation} {workRef : WorkRef} {b : DelegationBinding}

/-- The delegation under a bound key is the one it is bound to. -/
theorem delegationByKey_of_bound (hs : s.Bound) (hb : s.bindings workRef = some b) :
    ∃ d, d.binding = b ∧ s.delegations.get? workRef = some d ∧
      s.delegationByKey b.tenantId b.ownerId b.idempotencyKey = some (workRef, d) := by
  obtain ⟨d, hd, rfl⟩ := bindings_eq_some.mp hb
  cases hfound : s.delegationByKey d.binding.tenantId d.binding.ownerId d.binding.idempotencyKey with
  | none =>
    exact absurd rfl (delegationByKey_eq_none.mp hfound workRef d hd rfl rfl)
  | some e =>
    obtain ⟨r, d'⟩ := e
    obtain ⟨hd', htenant, howner, hkey⟩ := delegationByKey_eq_some hfound
    have hr : r = workRef := hs.unique r workRef d'.binding d.binding
      (bindings_eq_some.mpr ⟨d', hd', rfl⟩) hb htenant howner (Or.inl hkey)
    subst hr
    rw [hd] at hd'
    obtain rfl := Option.some.inj hd'
    exact ⟨d, rfl, hd, rfl⟩

/-- What a committed reservation returns is bound under the key of the request. -/
theorem bound_of_reserveDelegation {reply : DelegationReply}
    (h : (s.reserveDelegation now a).result = .ok reply) :
    ∃ b, (s.reserveDelegation now a).store.bindings reply.record.workRef = some b ∧
      b.tenantId = a.tenantId ∧ b.ownerId = a.ownerId ∧ b.idempotencyKey = a.idempotencyKey ∧
      b.requestDigest = a.requestDigest ∧
      reply.work = (reply.record.workRef, b.projectId, b.workerId, b.initialRunId) := by
  have hanswer : ∀ {q : Store} {r : WorkRef} {replay : Bool} {complaint : String},
      (q.answerDelegation a r replay complaint).result = .ok reply →
        (q.answerDelegation a r replay complaint).store = q ∧ reply.record.workRef = r ∧
          q.delegations.get? r = some reply.record.delegation := by
    intro q r replay complaint hreply
    unfold answerDelegation at hreply ⊢
    split at hreply
    · cases hreply
    · rename_i record hrecord
      obtain rfl := Except.ok.inj hreply
      obtain ⟨href, hget⟩ := getDelegation_eq_some hrecord
      exact ⟨rfl, href, hget⟩
  generalize ho : s.reserveDelegation now a = o at h ⊢
  unfold reserveDelegation at ho
  split at ho
  · subst ho
    cases h
  split at ho
  · subst ho
    cases h
  split at ho
  · rename_i r d hfound
    split at ho
    · subst ho
      cases h
    · rename_i hdigest
      subst ho
      obtain ⟨hstore, href, hget⟩ := hanswer h
      obtain ⟨hd, htenant, howner, hkey⟩ := delegationByKey_eq_some hfound
      rw [hget] at hd
      obtain rfl := Option.some.inj hd
      have hsame : reply.record.delegation.requestDigest = a.requestDigest := by simpa using hdigest
      refine ⟨reply.record.delegation.binding, ?_, htenant, howner, hkey, hsame, rfl⟩
      rw [hstore, href]
      exact bindings_eq_some.mpr ⟨_, hget, rfl⟩
  split at ho
  · subst ho
    cases h
  split at ho
  · subst ho
    cases h
  split at ho
  · subst ho
    cases h
  · rename_i s' haccept
    subst ho
    obtain ⟨hstore, href, hget⟩ := hanswer h
    have haccepted := accepted_of_acceptDelegation haccept
    have hrow : reply.record.delegation =
        a.row now (s.nextId + 1) (s.nextId + 2) (.uuid (s.nextId + 3)) := by
      rw [Table.get?_insert haccepted.delegations, if_pos rfl] at hget
      exact (Option.some.inj hget).symm
    refine ⟨reply.record.delegation.binding, ?_, ?_⟩
    · rw [hstore, href]
      exact bindings_eq_some.mpr ⟨_, hget, rfl⟩
    · rw [hrow]
      exact ⟨rfl, rfl, rfl, rfl, by rw [DelegationReply.work, hrow]; rfl⟩

/-- The gate before the lookup lets the request through. -/
def ReplayAdmitted (s : Store) (a : NewDelegation) : Prop :=
  a.argumentError = none ∧ ¬(a.requireIsolatedParallelReady = true ∧ s.isolatedConflict = true)

/-- A request under a bound key that the gate lets through is answered from the binding. -/
theorem reserveDelegation_of_bound (hs : s.Bound) (hb : s.bindings workRef = some b)
    (htenant : b.tenantId = a.tenantId) (howner : b.ownerId = a.ownerId)
    (hkey : b.idempotencyKey = a.idempotencyKey) (hadmitted : s.ReplayAdmitted a) :
    if b.requestDigest = a.requestDigest then
      ∃ reply, (s.reserveDelegation now a) = .commit s reply ∧
        reply.work = (workRef, b.projectId, b.workerId, b.initialRunId)
    else ∃ e, s.reserveDelegation now a = .raise s e := by
  obtain ⟨d, rfl, hd, hfound⟩ := delegationByKey_of_bound hs hb
  rw [htenant, howner, hkey] at hfound
  obtain ⟨harguments, hgate⟩ := hadmitted
  have hopen : (a.requireIsolatedParallelReady && s.isolatedConflict) = false := by
    rw [← Bool.not_eq_true, Bool.and_eq_true]
    exact hgate
  have hreserve : s.reserveDelegation now a =
      if d.requestDigest != a.requestDigest then
        .raise s (.delegationIdempotencyConflict
          "The delegation idempotency key was reused with a different request.")
      else s.answerDelegation a workRef true
        "The prior delegation reservation is unavailable" := by
    rw [reserveDelegation, harguments]
    simp only [hopen, hfound, Bool.false_eq_true, if_false]
  rw [hreserve]
  split
  · rename_i hdigest
    have hsame : d.requestDigest = a.requestDigest := hdigest
    obtain ⟨record, hrecord⟩ := getDelegation_isSome hd (hs.projects workRef _ hb)
      (hs.workers workRef _ hb)
    have hread : s.getDelegation workRef a.tenantId a.ownerId = some record := by
      rw [← htenant, ← howner]
      exact hrecord
    obtain ⟨href, hget⟩ := getDelegation_eq_some hread
    rw [hd] at hget
    refine ⟨⟨record, true⟩, ?_, ?_⟩
    · simp [answerDelegation, hread, hsame]
    · rw [DelegationReply.work, href, ← Option.some.inj hget]
      rfl
  · rename_i hdigest
    have hdiffers : (d.requestDigest != a.requestDigest) = true := by
      simpa [Delegation.binding] using hdigest
    rw [if_pos hdiffers]
    exact ⟨_, rfl⟩

/-- A request that the gate stops is refused, whatever its key. -/
theorem reserveDelegation_of_not_admitted (h : ¬s.ReplayAdmitted a) :
    ∃ e, s.reserveDelegation now a = .raise s e := by
  unfold reserveDelegation
  split
  · exact ⟨_, rfl⟩
  · rename_i harguments
    have hgate : (a.requireIsolatedParallelReady && s.isolatedConflict) = true := by
      by_contra hopen
      refine h ⟨harguments, fun hboth => hopen ?_⟩
      rw [hboth.1, hboth.2]
      rfl
    rw [if_pos hgate]
    exact ⟨_, rfl⟩

end Replays

/-- What is promised of a request `a'` that comes after `a` was answered with `reply`, in a store
that is reached. -/
structure ReplayStable (s : Store) (now : Time) (a a' : NewDelegation) (reply : DelegationReply) :
    Prop where
  unique : s.UniqueBindings
  same : a'.requestDigest = a.requestDigest → ∃ reply',
    (s.reserveDelegation now a').result = .ok reply' ∧ reply'.work = reply.work ∧
      (s.reserveDelegation now a').store = s
  different : a'.requestDigest ≠ a.requestDigest →
    (∃ e, (s.reserveDelegation now a').result = .error e) ∧
      (s.reserveDelegation now a').store = s

/-- After a reservation was answered, whatever happens, a request under its key is answered with the
same work or rejected by its digest, exactly when the arguments are valid and the isolated admission
does not stop a repetition. -/
theorem delegationReplay_stable_iff (settings : Settings) (pre mid : List WorkCall)
    (now now' : Time) (a a' : NewDelegation) (reply : DelegationReply)
    (hfirst : ((afterWork settings pre).reserveDelegation now a).result = .ok reply)
    (hkey : a.SameKey a') :
    ReplayStable (afterWork settings (pre ++ ⟨now, .reserveDelegation a⟩ :: mid)) now' a a' reply ↔
      (a'.requestDigest = a.requestDigest →
        (afterWork settings (pre ++ ⟨now, .reserveDelegation a⟩ :: mid)).ReplayAdmitted a') := by
  generalize hs : afterWork settings (pre ++ ⟨now, .reserveDelegation a⟩ :: mid) = s
  have hbound : s.Bound := hs ▸ bound_afterWork settings _
  obtain ⟨b, hb, htenant, howner, hbkey, hdigest, hwork⟩ := bound_of_reserveDelegation hfirst
  have hlater : s.bindings reply.record.workRef = some b := by
    rw [← hs, afterWork, Transition.run_append, Transition.run_cons]
    exact binding_run hb
  have hreplay : s.ReplayAdmitted a' → _ := fun hadmitted =>
    @reserveDelegation_of_bound s now' a' _ b hbound hlater (htenant.trans hkey.tenantId.symm)
      (howner.trans hkey.ownerId.symm) (hbkey.trans hkey.idempotencyKey.symm) hadmitted
  constructor
  · intro hstable hsame
    by_contra hadmitted
    obtain ⟨reply', hreply, -⟩ := hstable.same hsame
    obtain ⟨e, he⟩ := @reserveDelegation_of_not_admitted s now' a' hadmitted
    rw [he] at hreply
    cases hreply
  · intro hcondition
    refine ⟨hbound.unique, fun hsame => ?_, fun hdiffers => ?_⟩
    · have hanswer := hreplay (hcondition hsame)
      rw [if_pos (hdigest.trans hsame.symm)] at hanswer
      obtain ⟨reply', hreply, hsameWork⟩ := hanswer
      rw [hreply]
      exact ⟨reply', rfl, hsameWork.trans hwork.symm, rfl⟩
    · by_cases hadmitted : s.ReplayAdmitted a'
      · have hanswer := hreplay hadmitted
        rw [if_neg fun h => hdiffers (h.symm.trans hdigest)] at hanswer
        obtain ⟨e, he⟩ := hanswer
        rw [he]
        exact ⟨⟨e, rfl⟩, rfl⟩
      · obtain ⟨e, he⟩ := @reserveDelegation_of_not_admitted s now' a' hadmitted
        rw [he]
        exact ⟨⟨e, rfl⟩, rfl⟩

/-! ## A retry that is refused -/

/-- A request for isolated work in a container. -/
def isolatedRequest : NewDelegation where
  tenantId := 0
  ownerId := 0
  idempotencyKey := 1
  requestDigest := 10
  originRef := "origin"
  title := "isolated"
  instruction := "first"
  originSurface := "web"
  workerName := "isolated"
  profile := "codex-cli"
  runtime := "docker"
  model := ""
  executionMode := "docker"
  resourceClass := "standard"
  resourceMemoryBytes := none
  workspaceRoot := ""
  parallelCleanRoom := true
  bootstrapBundle := .ok none
  requireIsolatedParallelReady := true
  preacceptHostLease := none
  queueOnCapacity := false
  preflight := []

/-- A request for work on the host. -/
def hostRequest : NewDelegation :=
  { isolatedRequest with
    idempotencyKey := 2, requestDigest := 20, originRef := "", title := "host",
    runtime := "host-process", executionMode := "host", parallelCleanRoom := false,
    requireIsolatedParallelReady := false }

/-- A retry before any other work is answered. -/
theorem delegationReplay_stable_iff_retry :
    ∃ reply, ((afterWork .default []).reserveDelegation 1 isolatedRequest).result = .ok reply ∧
      (ReplayStable (afterWork .default ([] ++ ⟨1, .reserveDelegation isolatedRequest⟩ :: [])) 2
          isolatedRequest isolatedRequest reply ↔
        (isolatedRequest.requestDigest = isolatedRequest.requestDigest →
          (afterWork .default ([] ++ ⟨1, .reserveDelegation isolatedRequest⟩ :: [])).ReplayAdmitted
            isolatedRequest)) := by
  have hsome : ((afterWork .default []).reserveDelegation 1 isolatedRequest).result.isOk = true := by
    decide
  cases hreply : ((afterWork .default []).reserveDelegation 1 isolatedRequest).result with
  | error e =>
    rw [hreply] at hsome
    cases hsome
  | ok reply =>
    exact ⟨reply, rfl, delegationReplay_stable_iff .default [] [] 1 2 isolatedRequest isolatedRequest
      reply hreply ⟨rfl, rfl, rfl⟩⟩

/-- An accepted isolated request is refused when it is repeated after host work was queued. -/
theorem delegationReplay_refused_after_host_work :
    ∃ reply, ((afterWork .default []).reserveDelegation 1 isolatedRequest).result = .ok reply ∧
      ¬ReplayStable (afterWork .default ([] ++ ⟨1, .reserveDelegation isolatedRequest⟩ ::
        [⟨2, .reserveDelegation hostRequest⟩])) 3 isolatedRequest isolatedRequest reply := by
  have hsome : ((afterWork .default []).reserveDelegation 1 isolatedRequest).result.isOk = true := by
    decide
  have hrefused : ((afterWork .default ([] ++ ⟨1, .reserveDelegation isolatedRequest⟩ ::
      [⟨2, .reserveDelegation hostRequest⟩])).reserveDelegation 3 isolatedRequest).result.isOk =
        false := by
    decide
  cases hreply : ((afterWork .default []).reserveDelegation 1 isolatedRequest).result with
  | error e =>
    rw [hreply] at hsome
    cases hsome
  | ok reply =>
    refine ⟨reply, rfl, fun hstable => ?_⟩
    obtain ⟨reply', hreply', -⟩ := hstable.same rfl
    rw [hreply'] at hrefused
    cases hrefused

end Store

end GlassHive
