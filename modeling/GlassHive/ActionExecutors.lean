import GlassHive.ActiveWork
import GlassHive.DelegationReplay

/-!
# A receipt has one executor

What an observer of the calls knows of a receipt is who was last told to execute it, until when, and
whether that executor failed the action. The receipt agrees with this: only the grantee changes it,
and it goes to another executor only after the grant ran out or was failed.
-/

namespace GlassHive

open Relational

/-- A call on a receipt. -/
inductive ActionOp
  | reserve (a : ActionRequest)
  | bind (actionUseId : RowId) (operationId : OperationId) (kind : OperationKind) (target : RunId)
  | checkpoint (actionUseId : RowId) (effectPhase : String)
  | resumeNeedsInput (actionUseId : RowId) (workerId : WorkerId) (runId : RunId)
  | finish (actionUseId : RowId) (response : Option Time → String) (currentRunId : Option RunId)
  | fail (actionUseId : RowId) (error : String) (failureResponse : Option String)
  | failUnbound (actionUseId : RowId)
  | release

/-- Such a call with its executor and the clock it reads. -/
structure ActionCall where
  now : Time
  executor : ExecutorId
  op : ActionOp

/-- Whatever else happens to the store: receipts are not touched, and delegations stay. -/
structure Elsewhere where
  apply : Store → Store
  actions : ∀ s, (apply s).activeWorkActions = s.activeWorkActions
  bindings : ∀ s workRef b, s.bindings workRef = some b → (apply s).bindings workRef = some b

/-- Work is delegated. -/
def Elsewhere.delegate (now : Time) (a : NewDelegation) : Elsewhere where
  apply s := (s.reserveDelegation now a).store
  actions s := by
    rcases Store.reserveDelegation_cases s now a with h | h
    · rw [h]
    · exact h.actions
  bindings s workRef b hb := @Store.binding_stepWork s ⟨now, .reserveDelegation a⟩ workRef b hb

/-- A step of the system. -/
inductive ActionStep
  | call (c : ActionCall)
  | elsewhere (e : Elsewhere)

/-- The call fails a receipt. -/
def ActionOp.fails : ActionOp → Bool
  | .fail .. | .failUnbound _ => true
  | _ => false

namespace Store

/-- One call. -/
def stepAction (s : Store) (c : ActionCall) : Store :=
  match c.op with
  | .reserve a => (s.reserveActiveWorkAction c.now a (some c.executor)).store
  | .bind id operationId kind target =>
    (s.bindActiveWorkAction c.now id operationId kind target c.executor).store
  | .checkpoint id effectPhase =>
    (s.checkpointActiveWorkAction c.now id effectPhase (some c.executor)).store
  | .resumeNeedsInput id workerId runId =>
    (s.resumeNeedsInputActiveWorkAction c.now id workerId runId c.executor).store
  | .finish id response currentRunId =>
    (s.finishActiveWorkAction c.now id response currentRunId (some c.executor)).store
  | .fail id error failureResponse =>
    (s.failActiveWorkAction c.now id error (some c.executor) failureResponse).store
  | .failUnbound id => (s.failUnboundActiveWorkControl c.now id c.executor).store
  | .release => (s.releaseActiveWorkActionLeases c.now c.executor).store

/-- The call answers its executor that it was done to a receipt. -/
def accepts (s : Store) (c : ActionCall) (actionUseId : RowId) : Prop :=
  match c.op with
  | .bind id operationId kind target => id = actionUseId ∧ ∃ u,
    (s.bindActiveWorkAction c.now id operationId kind target c.executor).result = .ok (some u)
  | .checkpoint id effectPhase => id = actionUseId ∧ ∃ u,
    (s.checkpointActiveWorkAction c.now id effectPhase (some c.executor)).result = .ok (some u)
  | .resumeNeedsInput id workerId runId => id = actionUseId ∧ ∃ r,
    (s.resumeNeedsInputActiveWorkAction c.now id workerId runId c.executor).result = .ok (some r)
  | .finish id response currentRunId => id = actionUseId ∧ ∃ u,
    (s.finishActiveWorkAction c.now id response currentRunId (some c.executor)).result =
      .ok (some u)
  | .fail id error failureResponse => id = actionUseId ∧
    (s.failActiveWorkAction c.now id error (some c.executor) failureResponse).result = .ok true
  | .failUnbound id => id = actionUseId ∧
    (s.failUnboundActiveWorkControl c.now id c.executor).result = .ok true
  | .reserve _ | .release => False

end Store

/-! ## What an observer knows -/

/-- Who was last told to execute, until when, and whether that executor failed the action. -/
structure Grant where
  executor : ExecutorId
  expiresAt : Time
  failed : Bool

/-- What an observer of the calls under a key knows after one more call. -/
def Grant.observe (k : ActionKey) (s : Store) (c : ActionCall) (g : Option Grant) : Option Grant :=
  match c.op with
  | .reserve a =>
    match (s.reserveActiveWorkAction c.now a (some c.executor)).result with
    | .ok reply =>
      if a.key = k ∧ reply.shouldExecute = true then
        some ⟨c.executor, a.leaseExpiresAt c.now, false⟩
      else g
    | .error _ => g
  | .release => g.map fun g => if g.executor = c.executor then { g with expiresAt := c.now } else g
  | .fail .. | .failUnbound _ =>
    if ((s.stepAction c).actionByKey k).any fun e => e.2.status == "failed" then
      g.map fun g => if g.executor = c.executor then { g with failed := true } else g
    else g
  | _ => g

/-- A store and what the observer of a key knows. -/
structure Observed where
  store : Store
  grant : Option Grant

/-- One step under observation. -/
def Observed.step (k : ActionKey) (o : Observed) : ActionStep → Observed
  | .call c => ⟨o.store.stepAction c, Grant.observe k o.store c o.grant⟩
  | .elsewhere e => ⟨e.apply o.store, o.grant⟩

/-- What is observed from a new database on. -/
def observed (settings : Settings) (k : ActionKey) (steps : List ActionStep) : Observed :=
  Transition.run (Observed.step k) ⟨.init settings, none⟩ steps

/-! ## Changes under the executor -/

/-- A pending receipt changes under its executor. -/
structure ActionCall.Held (c : ActionCall) (u u' : ActiveWorkAction) : Prop where
  owner : u.executorId = some c.executor
  pending : u.status = "pending"
  key : u'.key = u.key
  executor : u'.executorId = u.executorId
  status : oneOf u'.status ["pending", "completed", "failed"] = true
  failed : u'.status = "failed" → c.op.fails = true
  lease : u'.status = "pending" → u'.leaseExpiresAt = u.leaseExpiresAt ∨
    c.op = .release ∧ u'.leaseExpiresAt = some c.now

namespace Store

section Held

variable {s s' : Store} {c : ActionCall} {p : RowId → ActiveWorkAction → Bool}
  {f : ActiveWorkAction → ActiveWorkAction} {u : ActiveWorkAction} {id : RowId}

/-- Receipts change under the executor of a call. -/
def HeldBy (c : ActionCall) (s s' : Store) : Prop :=
  s.activeWorkActions.Rewrites (fun _ u u' => u' = u ∨ c.Held u u') s'.activeWorkActions

theorem heldBy_of_eq (h : s'.activeWorkActions = s.activeWorkActions) : HeldBy c s s' :=
  Table.rewrites_of_eq (fun _ _ => Or.inl rfl) h

theorem heldBy_update (h : s'.activeWorkActions = s.activeWorkActions.update p fun _ => f)
    (hf : ∀ id u, s.activeWorkActions.get? id = some u → p id u = true → c.Held u (f u)) :
    HeldBy c s s' := by
  unfold HeldBy
  rw [h]
  exact Table.rewrites_update (fun _ _ => Or.inl rfl) fun id u hu hp => Or.inr (hf id u hu hp)

theorem owner_of_ownedBy {executorId : ExecutorId} (h : u.ownedBy (some executorId) = true) :
    u.executorId = some executorId ∧ u.status = "pending" := by
  simp [ActiveWorkAction.ownedBy] at h
  exact ⟨h.2, h.1⟩

/-- A pending receipt stays pending under its executor. -/
theorem held_of_pending {u' : ActiveWorkAction} (howner : u.executorId = some c.executor)
    (hpending : u.status = "pending") (hkey : u'.key = u.key)
    (hexecutor : u'.executorId = u.executorId) (hstatus : u'.status = u.status)
    (hlease : u'.leaseExpiresAt = u.leaseExpiresAt ∨
      c.op = .release ∧ u'.leaseExpiresAt = some c.now) : c.Held u u' where
  owner := howner
  pending := hpending
  key := hkey
  executor := hexecutor
  status := by rw [hstatus, hpending]; rfl
  failed := by
    intro hfailed
    rw [hstatus, hpending] at hfailed
    simp at hfailed
  lease := fun _ => hlease

theorem held_failed {error response : String} (howner : u.executorId = some c.executor)
    (hpending : u.status = "pending") (hop : c.op.fails = true) :
    c.Held u (u.failed c.now error response) := by
  unfold ActiveWorkAction.failed
  split
  · exact held_of_pending howner hpending rfl rfl rfl (Or.inl rfl)
  · exact ⟨howner, hpending, rfl, rfl, rfl, fun _ => hop, fun _ => Or.inl rfl⟩

theorem heldBy_bind {operationId : OperationId} {kind : OperationKind} {target : RunId} :
    HeldBy c s (s.bindActiveWorkAction c.now id operationId kind target c.executor).store := by
  unfold bindActiveWorkAction bindActiveWorkActionLifecycle
  split
  · exact heldBy_of_eq rfl
  dsimp only
  split
  · exact heldBy_of_eq rfl
  rename_i s' hbind
  split at hbind
  · obtain rfl := Option.some.inj hbind
    refine heldBy_update (updateActiveWorkActions_activeWorkActions ..) fun j u hu hp => ?_
    simp only [Bool.and_eq_true, beq_iff_eq] at hp
    obtain ⟨⟨⟨⟨⟨-, hpending⟩, howner⟩, -⟩, -⟩, -⟩ := hp
    exact held_of_pending howner hpending rfl rfl rfl (Or.inl rfl)
  · cases hbind

theorem heldBy_resume {workerId : WorkerId} {runId : RunId} :
    HeldBy c s (s.resumeNeedsInputActiveWorkAction c.now id workerId runId c.executor).store := by
  have hrecord : ∀ (operationId : OperationId) (w : Worker) (r : Run) (q : Store),
      q.activeWorkActions = s.activeWorkActions →
      HeldBy c s (q.recordResume c.now id c.executor operationId workerId w runId r) := by
    intro operationId w r q hq
    have hactions := @activeWorkActions_recordResume q c.now runId workerId id c.executor
      operationId w r
    rw [hq] at hactions
    refine heldBy_update hactions fun j u hu hp => ?_
    simp only [Bool.and_eq_true, beq_iff_eq] at hp
    exact held_of_pending hp.2 hp.1.2 rfl rfl rfl (Or.inl rfl)
  rcases resumeNeedsInputActiveWorkAction_cases s c.now id workerId runId c.executor with
    h | ⟨u, w, r, -, ⟨-, -, h⟩ | ⟨-, h⟩⟩
  · rw [h]
    exact heldBy_of_eq rfl
  · rw [h]
    exact hrecord _ _ _ _ rfl
  · rw [h]
    exact hrecord _ _ _ _ rfl

theorem heldBy_finish {response : Option Time → String} {currentRunId : Option RunId} :
    HeldBy c s
      (s.finishActiveWorkAction c.now id response currentRunId (some c.executor)).store := by
  unfold finishActiveWorkAction
  split
  · exact heldBy_of_eq rfl
  rename_i u hu
  split
  · exact heldBy_of_eq rfl
  rename_i howner
  split
  · exact heldBy_of_eq rfl
  split
  · exact heldBy_of_eq rfl
  rename_i hpending
  have howner' : u.executorId = some c.executor := by simpa using howner
  have hpending' : u.status = "pending" := by simpa using hpending
  have hwrite : ∀ (q : Store) (updatedAt : Option Time),
      q.activeWorkActions = s.activeWorkActions →
      HeldBy c s (q.writeAction id { u with
        status := "completed", response := response updatedAt, lastError := "",
        updatedAt := c.now }) := by
    intro q updatedAt hq
    refine heldBy_update (by rw [writeAction_activeWorkActions, hq]) fun j v hv hp => ?_
    simp only [beq_iff_eq] at hp
    rw [hp, hu] at hv
    obtain rfl := Option.some.inj hv
    refine ⟨howner', hpending', rfl, rfl, rfl, fun hfailed => ?_, fun hlease => ?_⟩
    · simp at hfailed
    · simp at hlease
  dsimp only
  split
  · exact hwrite s none rfl
  · exact hwrite s _ rfl
  · split
    · exact hwrite s _ rfl
    split
    · exact heldBy_of_eq rfl
    · exact hwrite _ _ rfl

/-- Every call but a reservation changes pending receipts of its executor only. -/
theorem heldBy_stepAction (hreserve : ∀ a, c.op ≠ .reserve a) : HeldBy c s (s.stepAction c) := by
  unfold stepAction
  split
  · rename_i a hop
    exact absurd hop (hreserve a)
  · exact heldBy_bind
  · refine heldBy_update (changeAction_actions ..) fun j u hu hp => ?_
    obtain ⟨howner, hpending⟩ := owner_of_ownedBy (Bool.and_eq_true_iff.mp hp).2
    exact held_of_pending howner hpending rfl rfl rfl (Or.inl rfl)
  · exact heldBy_resume
  · exact heldBy_finish
  · rename_i hop
    refine heldBy_update (changeAction_actions ..) fun j u hu hp => ?_
    obtain ⟨howner, hpending⟩ := owner_of_ownedBy (Bool.and_eq_true_iff.mp hp).2
    exact held_failed howner hpending (by rw [hop]; rfl)
  · rename_i hop
    refine heldBy_update (changeAction_actions ..) fun j u hu hp => ?_
    simp only [Bool.and_eq_true] at hp
    obtain ⟨howner, hpending⟩ := owner_of_ownedBy hp.2.1.1
    exact ⟨howner, hpending, rfl, rfl, rfl, fun _ => by rw [hop]; rfl,
      fun h => by simp [ActiveWorkAction.failedUnbound] at h⟩
  · rename_i hop
    refine heldBy_update (updateActiveWorkActions_activeWorkActions ..) fun j u hu hp => ?_
    simp only [Bool.and_eq_true, beq_iff_eq] at hp
    exact held_of_pending hp.1 hp.2 rfl rfl rfl (Or.inr ⟨hop, rfl⟩)

/-- A call that is accepted is one by the executor of the receipt. -/
theorem owner_of_accepts (h : s.accepts c id) :
    ∃ u, s.activeWorkActions.get? id = some u ∧ u.executorId = some c.executor := by
  unfold accepts at h
  split at h
  · obtain ⟨rfl, u, hu⟩ := h
    unfold bindActiveWorkAction bindActiveWorkActionLifecycle at hu
    split at hu
    · cases hu
    dsimp only at hu
    split at hu
    · cases hu
    rename_i hbind
    split at hbind
    · rename_i hany
      obtain ⟨j, v, hv, hp⟩ := Table.any_eq_true.mp hany
      simp only [Bool.and_eq_true, beq_iff_eq] at hp
      obtain ⟨⟨⟨⟨⟨rfl, -⟩, howner⟩, -⟩, -⟩, -⟩ := hp
      exact ⟨v, hv, howner⟩
    · cases hbind
  · obtain ⟨rfl, u, hu⟩ := h
    obtain ⟨v, hv, hp⟩ := changeAction_answers hu
    exact ⟨v, hv, (owner_of_ownedBy hp).1⟩
  · obtain ⟨rfl, r, hr⟩ := h
    unfold resumeNeedsInputActiveWorkAction at hr
    split at hr
    · rename_i u w r' hu hw hr'
      obtain ⟨hget, hp⟩ := Option.filter_eq_some_iff.mp hu
      simp only [Bool.and_eq_true, beq_iff_eq] at hp
      exact ⟨u, hget, hp.1.1.1.2⟩
    · cases hr
  · obtain ⟨rfl, u, hu⟩ := h
    unfold finishActiveWorkAction at hu
    split at hu
    · cases hu
    rename_i v hv
    split at hu
    · cases hu
    rename_i howner
    exact ⟨v, hv, by simpa using howner⟩
  · obtain ⟨rfl, hany⟩ := h
    obtain ⟨u, hu, hp⟩ := (Option.any_eq_true _ _).mp (Except.ok.inj hany)
    exact ⟨u, hu, (owner_of_ownedBy hp).1⟩
  · obtain ⟨rfl, hany⟩ := h
    obtain ⟨u, hu, hp⟩ := (Option.any_eq_true _ _).mp (Except.ok.inj hany)
    simp only [Bool.and_eq_true] at hp
    exact ⟨u, hu, (owner_of_ownedBy hp.1.1).1⟩
  · exact h.elim
  · exact h.elim

/-- A release ends the lease of every pending receipt of its executor. -/
theorem get?_release {u' : ActiveWorkAction} (hop : c.op = .release)
    (hu' : (s.stepAction c).activeWorkActions.get? id = some u') :
    ∃ u, s.activeWorkActions.get? id = some u ∧
      u' = if u.executorId == some c.executor && u.status == "pending" then
        { u with leaseExpiresAt := some c.now, updatedAt := c.now } else u := by
  unfold stepAction at hu'
  rw [hop] at hu'
  exact (Table.get?_update_eq_some.mp hu').imp fun u hu => ⟨hu.1, hu.2.symm⟩

theorem binding_stepAction {workRef : WorkRef} {b : DelegationBinding}
    (hb : s.bindings workRef = some b) : (s.stepAction c).bindings workRef = some b := by
  have hkept : ∀ s' : Store, s'.delegations = s.delegations → s'.bindings workRef = some b := by
    intro s' h
    unfold bindings
    rw [h]
    exact hb
  unfold stepAction
  split
  · rename_i a hop
    rcases reserveActiveWorkAction_cases s c.now a (some c.executor) with
      ⟨h, -⟩ | ⟨-, -, source, actions, -, h⟩ | ⟨id, u, source, -, -, h⟩
    · rw [h]
      exact hb
    · rw [h]
      exact hkept _ rfl
    · rw [h]
      unfold reserveUnsettled
      dsimp only
      split
      · exact hkept _ rfl
      split
      · exact hkept _ rfl
      · exact hkept _ rfl
  · unfold bindActiveWorkAction bindActiveWorkActionLifecycle
    split
    · exact hb
    dsimp only
    split
    · exact hb
    rename_i hbind
    split at hbind
    · obtain rfl := Option.some.inj hbind
      exact hkept _ rfl
    · cases hbind
  · exact hkept _ rfl
  · rename_i id workerId runId hop
    have hstep := bindings_step s ⟨c.now,
      .request (.resumeNeedsInputActiveWorkAction id workerId runId c.executor)⟩
    rw [← hstep] at hb
    exact hb
  · unfold finishActiveWorkAction
    split
    · exact hb
    split
    · exact hb
    split
    · exact hb
    split
    · exact hb
    dsimp only
    split
    · exact hkept _ rfl
    · exact hkept _ rfl
    · split
      · exact hkept _ rfl
      split
      · exact hb
      · obtain ⟨d, hd, rfl⟩ := Option.map_eq_some_iff.mp hb
        simp only [bindings, Outcome.store_commit, writeAction_delegations,
          updateDelegations_delegations, Table.get?_update, hd, Option.map_some]
        split
        · rfl
        · rfl
  · exact hkept _ rfl
  · exact hkept _ rfl
  · exact hkept _ rfl

end Held

end Store

/-! ## The receipt agrees with the observer -/

/-- A receipt agrees with what the observer of its key knows. -/
structure Grant.Agrees (g : Grant) (u : ActiveWorkAction) : Prop where
  executor : u.executorId = some g.executor
  lease : u.status = "pending" → u.leaseExpiresAt = some g.expiresAt
  failed : u.status = "failed" → g.failed = true

/-- No two receipts have one key. -/
def Store.UniqueActions (s : Store) : Prop :=
  ∀ id id' u u', s.activeWorkActions.get? id = some u →
    s.activeWorkActions.get? id' = some u' → u.key = u'.key → id = id'

/-- Keys are unique, receipts belong to delegations, and the receipt under the key agrees with the
observer. -/
structure Observed.Tracked (k : ActionKey) (o : Observed) : Prop where
  unique : o.store.UniqueActions
  status : ∀ id u, o.store.activeWorkActions.get? id = some u →
    oneOf u.status ["pending", "completed", "failed"] = true
  delegated : ∀ id u, o.store.activeWorkActions.get? id = some u →
    ∃ b, o.store.bindings u.workRef = some b ∧ b.tenantId = u.tenantId ∧ b.ownerId = u.ownerId
  present : ∀ g, o.grant = some g → ∃ id u, o.store.activeWorkActions.get? id = some u ∧ u.key = k
  agrees : ∀ id u, o.store.activeWorkActions.get? id = some u → u.key = k →
    ∃ g, o.grant = some g ∧ g.Agrees u

namespace Store

variable {s s' : Store} {id : RowId} {u : ActiveWorkAction}
  {R : ActiveWorkAction → ActiveWorkAction → Prop}

theorem UniqueActions.actionByKey (h : s.UniqueActions)
    (hu : s.activeWorkActions.get? id = some u) : s.actionByKey u.key = some (id, u) := by
  cases hfound : s.actionByKey u.key with
  | none => exact absurd rfl (actionByKey_eq_none.mp hfound id u hu)
  | some =>
    obtain ⟨hget, hkey⟩ := actionByKey_eq_some hfound
    obtain rfl := h _ _ _ _ hget hu hkey
    rw [hget] at hu
    rw [← Option.some.inj hu]

theorem UniqueActions.of_rewrites (h : s.UniqueActions)
    (hrows : s.activeWorkActions.Rewrites (fun _ u u' => R u u') s'.activeWorkActions)
    (hkey : ∀ u u', R u u' → u'.key = u.key) : s'.UniqueActions := by
  have hback : ∀ id u', s'.activeWorkActions.get? id = some u' →
      ∃ u, s.activeWorkActions.get? id = some u ∧ u'.key = u.key := by
    intro id u' hu'
    rcases hrows.evolves id u' hu' with ⟨-, hnew⟩ | ⟨u, hu, huu'⟩
    · exact hnew.elim
    · exact ⟨u, hu, hkey u u' huu'⟩
  intro id id' u u' hu hu' hsame
  obtain ⟨v, hv, hvu⟩ := hback id u hu
  obtain ⟨v', hv', hvu'⟩ := hback id' u' hu'
  exact h id id' v v' hv hv' (by rw [← hvu, ← hvu', hsame])

end Store

namespace Observed

variable {k : ActionKey} {o o' : Observed} {id : RowId} {u u' : ActiveWorkAction} {g : Grant}
  {c : ActionCall} {a : ActionRequest}

/-- Tracking survives a rewriting of receipts under which the one of the key still agrees. -/
theorem Tracked.of_rewrites (h : o.Tracked k) {R : ActiveWorkAction → ActiveWorkAction → Prop}
    (hrows : o.store.activeWorkActions.Rewrites (fun _ u u' => R u u') o'.store.activeWorkActions)
    (hkey : ∀ u u', R u u' → u'.key = u.key)
    (hstatus : ∀ u u', R u u' → oneOf u.status ["pending", "completed", "failed"] = true →
      oneOf u'.status ["pending", "completed", "failed"] = true)
    (hbindings : ∀ workRef b, o.store.bindings workRef = some b →
      o'.store.bindings workRef = some b)
    (hpresent : o'.grant.isSome = true → ∃ id u, o.store.activeWorkActions.get? id = some u ∧
      u.key = k)
    (hagrees : ∀ id u u' g, o.store.activeWorkActions.get? id = some u →
      o'.store.activeWorkActions.get? id = some u' → R u u' → u.key = k → o.grant = some g →
      g.Agrees u → ∃ g', o'.grant = some g' ∧ g'.Agrees u') : o'.Tracked k := by
  have hback : ∀ id u', o'.store.activeWorkActions.get? id = some u' →
      ∃ u, o.store.activeWorkActions.get? id = some u ∧ R u u' := fun id u' hu' =>
    (hrows.evolves id u' hu').elim (fun hnew => hnew.2.elim) fun hold => hold
  refine ⟨h.unique.of_rewrites hrows hkey, ?_, ?_, ?_, ?_⟩
  · intro id u' hu'
    obtain ⟨u, hu, huu'⟩ := hback id u' hu'
    exact hstatus u u' huu' (h.status id u hu)
  · intro id u' hu'
    obtain ⟨u, hu, huu'⟩ := hback id u' hu'
    obtain ⟨b, hb, htenant, howner⟩ := h.delegated id u hu
    have hsame := hkey _ _ huu'
    simp only [ActiveWorkAction.key, ActionKey.mk.injEq] at hsame
    rw [hsame.1, hsame.2.1, hsame.2.2.1]
    exact ⟨b, hbindings _ b hb, htenant, howner⟩
  · intro g hg
    obtain ⟨id, u, hu, hk⟩ := hpresent (by rw [hg]; rfl)
    obtain ⟨u', hu'⟩ := Option.isSome_iff_exists.mp ((hrows.keys id).trans (by rw [hu]; rfl))
    obtain ⟨v, hv, hvu'⟩ := hback id u' hu'
    rw [hu] at hv
    obtain rfl := Option.some.inj hv
    exact ⟨id, u', hu', (hkey _ _ hvu').trans hk⟩
  · intro id u' hu' hk
    obtain ⟨u, hu, huu'⟩ := hback id u' hu'
    have hku : u.key = k := (hkey _ _ huu').symm.trans hk
    obtain ⟨g, hg, hagree⟩ := h.agrees id u hu hku
    exact hagrees id u u' g hu hu' huu' hku hg hagree

/-- A receipt that its executor changed, or that nothing changed, still agrees when the call neither
released nor failed it. -/
theorem agrees_of_held (hagree : g.Agrees u) (hheld : u' = u ∨ c.Held u u')
    (hrelease : c.op ≠ .release) (hfails : c.op.fails = false) : g.Agrees u' := by
  rcases hheld with rfl | hheld
  · exact hagree
  refine ⟨hheld.executor.trans hagree.executor, fun hpending => ?_, fun hfailed => ?_⟩
  · rcases hheld.lease hpending with hlease | ⟨hop, -⟩
    · exact hlease.trans (hagree.lease hheld.pending)
    · exact absurd hop hrelease
  · rw [hheld.failed hfailed] at hfails
    cases hfails

/-- After a call that releases, the receipt agrees with the end of the lease. -/
theorem agrees_of_release (hagree : g.Agrees u)
    (hu' : u' = if u.executorId == some c.executor && u.status == "pending" then
      { u with leaseExpiresAt := some c.now, updatedAt := c.now } else u) :
    (if g.executor = c.executor then { g with expiresAt := c.now } else g).Agrees u' := by
  by_cases howner : g.executor = c.executor
  · rw [if_pos howner]
    have hexecutor : u.executorId = some c.executor := by rw [← howner]; exact hagree.executor
    by_cases hpending : u.status = "pending"
    · rw [if_pos (by rw [hexecutor, hpending]; simp)] at hu'
      rw [hu']
      exact ⟨hagree.executor, fun _ => rfl, hagree.failed⟩
    · rw [if_neg (by simp [hpending])] at hu'
      rw [hu']
      exact ⟨hagree.executor, fun h => absurd h hpending, hagree.failed⟩
  · rw [if_neg howner]
    have hexecutor : u.executorId ≠ some c.executor := by
      rw [hagree.executor]
      exact fun h => howner (Option.some.inj h)
    rw [if_neg (by simp [hexecutor])] at hu'
    rw [hu']
    exact hagree

/-- After a call that may fail it, a failed receipt agrees with an executor that failed. -/
theorem agrees_of_fails (hagree : g.Agrees u) (hheld : u' = u ∨ c.Held u u')
    (hrelease : c.op ≠ .release) :
    (u'.status = "failed" →
      (if g.executor = c.executor then { g with failed := true } else g).Agrees u') ∧
      (u'.status ≠ "failed" → g.Agrees u') := by
  have hlease : u'.status = "pending" → u'.leaseExpiresAt = some g.expiresAt := by
    rcases hheld with rfl | hheld
    · exact hagree.lease
    · intro hpending
      rcases hheld.lease hpending with hlease | ⟨hop, -⟩
      · exact hlease.trans (hagree.lease hheld.pending)
      · exact absurd hop hrelease
  have hexecutor : u'.executorId = some g.executor := by
    rcases hheld with rfl | hheld
    · exact hagree.executor
    · exact hheld.executor.trans hagree.executor
  refine ⟨fun hfailed => ?_, fun hfailed => ⟨hexecutor, hlease, fun h => absurd h hfailed⟩⟩
  split
  · exact ⟨hexecutor, hlease, fun _ => rfl⟩
  · rename_i hother
    refine ⟨hexecutor, hlease, fun _ => ?_⟩
    rcases hheld with rfl | hheld
    · exact hagree.failed hfailed
    · have howner := hheld.owner
      rw [hagree.executor] at howner
      exact absurd (Option.some.inj howner) hother

/-- A call that does not reserve keeps the receipt in agreement. -/
theorem tracked_held (h : o.Tracked k) (hreserve : ∀ a, c.op ≠ .reserve a) :
    (o.step k (.call c)).Tracked k := by
  have hheld := Store.heldBy_stepAction (s := o.store) hreserve
  have hkey : ∀ u u', (u' = u ∨ c.Held u u') → u'.key = u.key := by
    rintro u u' (rfl | hheld)
    · rfl
    · exact hheld.key
  have hunique := h.unique.of_rewrites hheld hkey
  have hpresent : ∀ g : Option Grant, (g.isSome = true → o.grant.isSome = true) →
      g.isSome = true → ∃ id u, o.store.activeWorkActions.get? id = some u ∧ u.key = k := by
    intro g hg hsome
    obtain ⟨g₀, hg₀⟩ := Option.isSome_iff_exists.mp (hg hsome)
    exact h.present g₀ hg₀
  have hstatus : ∀ u u', (u' = u ∨ c.Held u u') →
      oneOf u.status ["pending", "completed", "failed"] = true →
      oneOf u'.status ["pending", "completed", "failed"] = true := by
    rintro u u' (rfl | hheld) hu
    · exact hu
    · exact hheld.status
  refine h.of_rewrites hheld hkey hstatus (fun _ _ => Store.binding_stepAction) (hpresent _ ?_) ?_
  · simp only [step, Grant.observe]
    split
    · rename_i a hop
      exact absurd hop (hreserve a)
    · simp
    · split <;> simp
    · split <;> simp
    · exact id
  · intro id u u' g hu hu' huu' hk hg hagree
    have hfails : ∀ hrelease : c.op ≠ .release, ∃ g',
        (if ((o.store.stepAction c).actionByKey k).any fun e => e.2.status == "failed" then
          o.grant.map fun g => if g.executor = c.executor then { g with failed := true } else g
        else o.grant) = some g' ∧ g'.Agrees u' := by
      intro hrelease
      obtain ⟨hfailed, hother⟩ := agrees_of_fails hagree huu' hrelease
      have hfound : (o.store.stepAction c).actionByKey k = some (id, u') := by
        rw [← hk, ← hkey u u' huu']
        exact hunique.actionByKey hu'
      rw [hfound, hg]
      by_cases hstatus : u'.status = "failed"
      · exact ⟨_, by simp [hstatus], hfailed hstatus⟩
      · exact ⟨g, by simp [hstatus], hother hstatus⟩
    simp only [step, Grant.observe]
    split
    · rename_i a hop
      exact absurd hop (hreserve a)
    · rename_i hop
      obtain ⟨v, hv, hv'⟩ := Store.get?_release hop hu'
      rw [hu] at hv
      obtain rfl := Option.some.inj hv
      exact ⟨_, by rw [hg]; rfl, agrees_of_release hagree hv'⟩
    · rename_i hop
      exact hfails (by rw [hop]; simp)
    · rename_i hop
      exact hfails (by rw [hop]; simp)
    · rename_i hrelease hfail hfailUnbound
      refine ⟨g, hg, agrees_of_held hagree huu' hrelease ?_⟩
      unfold ActionOp.fails
      split
      · rename_i hop
        exact absurd hop (hfail _ _ _)
      · rename_i hop
        exact absurd hop (hfailUnbound _)
      · rfl

theorem observe_reserve (hop : c.op = .reserve a) :
    Grant.observe k o.store c o.grant =
      match (o.store.reserveActiveWorkAction c.now a (some c.executor)).result with
      | .ok reply =>
        if a.key = k ∧ reply.shouldExecute = true then
          some ⟨c.executor, a.leaseExpiresAt c.now, false⟩
        else o.grant
      | .error _ => o.grant := by
  unfold Grant.observe
  rw [hop]

/-- The receipt under the key agrees with a fresh grant. -/
theorem agrees_of_taken (h : Store.Taken c.now a (some c.executor) u u') :
    (Grant.mk c.executor (a.leaseExpiresAt c.now) false).Agrees u' := by
  refine ⟨h.executor, fun _ => h.lease, fun hfailed => ?_⟩
  rw [h.status] at hfailed
  simp at hfailed

/-- A receipt that is not settled is pending or failed. -/
theorem pending_of_unsettled (hagree : oneOf u.status ["pending", "completed", "failed"] = true)
    (hsettled : u.settled = false) : u.status = "failed" ∨ u.status = "pending" := by
  simp only [oneOf_eq_true, List.mem_cons, List.not_mem_nil, or_false] at hagree
  rcases hagree with h | h | h
  · exact Or.inr h
  · simp [ActiveWorkAction.settled, h] at hsettled
  · exact Or.inl h

/-- The first receipt of its key. -/
theorem tracked_insert {source : RunId} {s' : Store} {g' : Option Grant} (h : o.Tracked k)
    (hnone : o.store.actionByKey a.key = none)
    (hdelegation : (o.store.actionDelegation a.key).isSome = true)
    (hinsert : o.store.activeWorkActions.insert? o.store.nextId
      (a.row c.now source (some c.executor)) = some s'.activeWorkActions)
    (hdelegations : s'.delegations = o.store.delegations)
    (hg' : g' = if a.key = k then some ⟨c.executor, a.leaseExpiresAt c.now, false⟩ else o.grant) :
    Tracked k ⟨s', g'⟩ := by
  have hrow : ∀ id u, s'.activeWorkActions.get? id = some u →
      (id = o.store.nextId ∧ u = a.row c.now source (some c.executor)) ∨
        (o.store.activeWorkActions.get? id = some u ∧ u.key ≠ a.key) := by
    intro id u hu
    rw [Table.get?_insert hinsert] at hu
    split at hu
    · rename_i hid
      exact Or.inl ⟨hid, (Option.some.inj hu).symm⟩
    · exact Or.inr ⟨hu, Store.actionByKey_eq_none.mp hnone id u hu⟩
  have hbindings : s'.bindings = o.store.bindings := by
    funext workRef
    unfold Store.bindings
    rw [hdelegations]
  have hkey : (a.row c.now source (some c.executor)).key = a.key := rfl
  refine ⟨?_, ?_, ?_, ?_, ?_⟩
  · intro id id' u u' hu hu' hsame
    rcases hrow id u hu with ⟨hid, rfl⟩ | ⟨hold, hne⟩
    · rcases hrow id' u' hu' with ⟨hid', -⟩ | ⟨-, hne'⟩
      · rw [hid, hid']
      · exact absurd (hsame.symm.trans hkey) hne'
    · rcases hrow id' u' hu' with ⟨-, rfl⟩ | ⟨hold', -⟩
      · exact absurd (hsame.trans hkey) hne
      · exact h.unique id id' u u' hold hold' hsame
  · intro id u hu
    rcases hrow id u hu with ⟨-, rfl⟩ | ⟨hold, -⟩
    · rfl
    · exact h.status id u hold
  · intro id u hu
    rw [hbindings]
    rcases hrow id u hu with ⟨-, rfl⟩ | ⟨hold, -⟩
    · obtain ⟨d, hd⟩ := Option.isSome_iff_exists.mp hdelegation
      obtain ⟨hget, howned⟩ := Option.filter_eq_some_iff.mp hd
      simp only [Bool.and_eq_true, beq_iff_eq] at howned
      exact ⟨d.binding, by rw [Store.bindings]; exact congrArg _ hget, howned⟩
    · exact h.delegated id u hold
  · intro g hg
    rw [hg'] at hg
    split at hg
    · rename_i hk
      refine ⟨o.store.nextId, a.row c.now source (some c.executor), ?_, hkey.trans hk⟩
      rw [Table.get?_insert hinsert, if_pos rfl]
    · obtain ⟨id, u, hu, hk⟩ := h.present g hg
      exact ⟨id, u, Table.get?_insert_of_some hinsert hu, hk⟩
  · intro id u hu hk
    rcases hrow id u hu with ⟨-, rfl⟩ | ⟨hold, hne⟩
    · rw [hg', if_pos (hkey.symm.trans hk)]
      refine ⟨_, rfl, rfl, fun _ => rfl, fun hfailed => ?_⟩
      simp [ActionRequest.row] at hfailed
    · rw [hg', if_neg fun hak => hne (hk.trans hak.symm)]
      exact h.agrees id u hold hk

/-- A reservation that finds an unsettled receipt. -/
theorem tracked_unsettled {execute : Bool} {g' : Option Grant} (h : o.Tracked k)
    (hget : o.store.activeWorkActions.get? id = some u) (hkey : u.key = a.key)
    (hchange : if execute then Store.Taken c.now a (some c.executor) u u'
      else u'.key = u.key ∧ u'.status = u.status ∧ u'.executorId = u.executorId ∧
        u'.leaseExpiresAt = u.leaseExpiresAt)
    (hg' : g' = if a.key = k ∧ execute = true then
      some ⟨c.executor, a.leaseExpiresAt c.now, false⟩ else o.grant) :
    Tracked k ⟨o.store.writeAction id u', g'⟩ := by
  have hrows : o.store.activeWorkActions.Rewrites (fun _ v v' => v' = v ∨ v = u ∧ v' = u')
      (o.store.writeAction id u').activeWorkActions := by
    rw [Store.writeAction_activeWorkActions]
    refine Table.rewrites_update (fun _ _ => Or.inl rfl) fun j v hv hj => ?_
    rw [beq_iff_eq.mp hj, hget] at hv
    exact Or.inr ⟨(Option.some.inj hv).symm, rfl⟩
  have hsame : u'.key = u.key := by
    split at hchange
    · exact hchange.key
    · exact hchange.1
  refine h.of_rewrites hrows ?_ ?_ (fun _ _ hb => hb) ?_ ?_
  · rintro v v' (rfl | ⟨rfl, rfl⟩)
    · rfl
    · exact hsame
  · rintro v v' (rfl | ⟨rfl, rfl⟩) hv
    · exact hv
    · split at hchange
      · rw [hchange.status]
        rfl
      · rw [hchange.2.1]
        exact hv
  · intro hsome
    dsimp only at hsome
    rw [hg'] at hsome
    split at hsome
    · rename_i hk
      exact ⟨id, u, hget, hkey.trans hk.1⟩
    · obtain ⟨g, hg⟩ := Option.isSome_iff_exists.mp hsome
      exact h.present g hg
  · intro j v v' g hv hv' _ hk hg hagree
    dsimp only
    rw [Store.writeAction_activeWorkActions, Table.get?_update, hv, Option.map_some] at hv'
    have hwritten := Option.some.inj hv'
    by_cases hj : j = id
    · subst hj
      rw [hget] at hv
      obtain rfl := Option.some.inj hv
      rw [if_pos (beq_self_eq_true j)] at hwritten
      obtain rfl := hwritten
      have hak : a.key = k := hkey.symm.trans hk
      cases hexecute : execute with
      | true =>
        rw [hexecute, if_pos rfl] at hchange
        exact ⟨_, by rw [hg', if_pos ⟨hak, hexecute⟩], agrees_of_taken hchange⟩
      | false =>
        rw [hexecute, if_neg Bool.false_ne_true] at hchange
        obtain ⟨-, hstatus, hexecutor, hlease⟩ := hchange
        refine ⟨g, by rw [hg', if_neg (by simp [hexecute]), hg], hexecutor.trans hagree.executor,
          fun hpending => ?_, fun hfailed => ?_⟩
        · exact hlease.trans (hagree.lease (hstatus.symm.trans hpending))
        · exact hagree.failed (hstatus.symm.trans hfailed)
    · rw [if_neg (by simpa using hj)] at hwritten
      obtain rfl := hwritten
      have hak : a.key ≠ k := fun hak => hj (h.unique j id _ _ hv hget
        (hk.trans (hak.symm.trans hkey.symm)))
      exact ⟨g, by rw [hg', if_neg fun hboth => hak hboth.1, hg], hagree⟩

/-- A reservation keeps the receipt in agreement. -/
theorem tracked_reserve (h : o.Tracked k) (hop : c.op = .reserve a) :
    (o.step k (.call c)).Tracked k := by
  have hgrant := @observe_reserve k o c a hop
  have hstep : o.store.stepAction c =
      (o.store.reserveActiveWorkAction c.now a (some c.executor)).store := by
    unfold Store.stepAction
    rw [hop]
  simp only [step, hstep, hgrant]
  rcases Store.reserveActiveWorkAction_cases o.store c.now a (some c.executor) with
    ⟨hsame, hidle⟩ | ⟨hnone, hdelegation, source, actions, hinsert, heq⟩ |
      ⟨id, u, source, hfound, hsettled, heq⟩
  · rw [hsame]
    split
    · rename_i reply hreply
      rw [if_neg (by simp [hidle reply hreply])]
      exact h
    · exact h
  · rw [heq]
    refine tracked_insert h hnone hdelegation hinsert rfl ?_
    simp only [Outcome.result_commit, and_true]
  · obtain ⟨hget, hkey⟩ := Store.actionByKey_eq_some hfound
    obtain ⟨u', execute, takeover, hcases, htaken⟩ :=
      @Store.reserveUnsettled_cases o.store c.now a id u (some c.executor) source
        (pending_of_unsettled (h.status id u hget) hsettled)
    rw [heq, hcases]
    exact tracked_unsettled h hget hkey htaken rfl

theorem tracked_step (h : o.Tracked k) (step : ActionStep) : (o.step k step).Tracked k := by
  cases step with
  | call c =>
    by_cases hreserve : ∃ a, c.op = .reserve a
    · obtain ⟨a, hop⟩ := hreserve
      exact tracked_reserve h hop
    · exact tracked_held h fun a hop => hreserve ⟨a, hop⟩
  | elsewhere e =>
    refine h.of_rewrites (R := fun u u' => u' = u) (Table.rewrites_of_eq (fun _ _ => rfl)
      (e.actions o.store)) ?_ ?_ (fun workRef b => e.bindings o.store workRef b) ?_ ?_
    · rintro u u' rfl
      rfl
    · rintro u u' rfl hu
      exact hu
    · intro hsome
      obtain ⟨g, hg⟩ := Option.isSome_iff_exists.mp hsome
      exact h.present g hg
    · rintro id u u' g - - rfl - hg hagree
      exact ⟨g, hg, hagree⟩

theorem tracked_run (h : o.Tracked k) (steps : List ActionStep) :
    (Transition.run (Observed.step k) o steps).Tracked k := by
  have hstep : ∀ (o : Observed) (i : ActionStep), o.Tracked k → True → (o.step k i).Tracked k :=
    fun o i ho _ => tracked_step ho i
  have halong := Transition.along_of_forall (Observed.step k) (C := fun _ _ => True)
    (fun _ _ => trivial) o steps
  exact Transition.invariant_run hstep h halong

theorem tracked_observed (settings : Settings) (k : ActionKey) (steps : List ActionStep) :
    (observed settings k steps).Tracked k := by
  have hinit : Tracked k ⟨.init settings, none⟩ := by
    refine ⟨?_, ?_, ?_, ?_, ?_⟩
    · intro id id' u u' hu
      simp [Store.init] at hu
    · intro id u hu
      simp [Store.init] at hu
    · intro id u hu
      simp [Store.init] at hu
    · intro g hg
      cases hg
    · intro id u hu
      simp [Store.init] at hu
  exact tracked_run hinit steps

/-! ## Settled receipts -/

theorem not_pending_of_settled (h : u.settled = true) : u.status ≠ "pending" := by
  intro hpending
  simp [ActiveWorkAction.settled, hpending] at h

/-- A settled receipt is never changed. -/
theorem settled_step (h : o.Tracked k) (hu : o.store.activeWorkActions.get? id = some u)
    (hsettled : u.settled = true) (i : ActionStep) :
    (o.step k i).store.activeWorkActions.get? id = some u := by
  cases i with
  | elsewhere e =>
    have hsame := e.actions o.store
    simp only [step, hsame]
    exact hu
  | call c =>
    by_cases hreserve : ∃ a, c.op = .reserve a
    · obtain ⟨a, hop⟩ := hreserve
      have hstep : (o.step k (.call c)).store =
          (o.store.reserveActiveWorkAction c.now a (some c.executor)).store := by
        simp only [step, Store.stepAction, hop]
      rw [hstep]
      rcases Store.reserveActiveWorkAction_cases o.store c.now a (some c.executor) with
        ⟨hsame, -⟩ | ⟨-, -, source, actions, hinsert, heq⟩ | ⟨j, v, source, hfound, hopen, heq⟩
      · rw [hsame]
        exact hu
      · rw [heq, Outcome.store_commit]
        exact Table.get?_insert_of_some hinsert hu
      · obtain ⟨hget, -⟩ := Store.actionByKey_eq_some hfound
        have hne : id ≠ j := by
          rintro rfl
          rw [hu] at hget
          obtain rfl := Option.some.inj hget
          rw [hsettled] at hopen
          cases hopen
        obtain ⟨u', execute, takeover, hcases, -⟩ :=
          @Store.reserveUnsettled_cases o.store c.now a j v (some c.executor) source
            (pending_of_unsettled (h.status j v hget) hopen)
        rw [heq, hcases, Outcome.store_commit, Store.writeAction_activeWorkActions,
          Table.get?_update, hu, Option.map_some, if_neg (by simpa using hne)]
    · have hheld := Store.heldBy_stepAction (s := o.store) fun a hop => hreserve ⟨a, hop⟩
      obtain ⟨u', hu'⟩ := Option.isSome_iff_exists.mp ((hheld.keys id).trans (by rw [hu]; rfl))
      rcases hheld.evolves id u' hu' with ⟨-, hnew⟩ | ⟨v, hv, hvu'⟩
      · exact hnew.elim
      rw [hu] at hv
      obtain rfl := Option.some.inj hv
      rcases hvu' with rfl | hchange
      · exact hu'
      · exact absurd hchange.pending (not_pending_of_settled hsettled)

theorem settled_run (h : o.Tracked k) (hu : o.store.activeWorkActions.get? id = some u)
    (hsettled : u.settled = true) (steps : List ActionStep) :
    (Transition.run (Observed.step k) o steps).store.activeWorkActions.get? id = some u := by
  have hstep : ∀ (o : Observed) (i : ActionStep),
      o.Tracked k ∧ o.store.activeWorkActions.get? id = some u → True →
      (o.step k i).Tracked k ∧ (o.step k i).store.activeWorkActions.get? id = some u :=
    fun o i ho _ => ⟨tracked_step ho.1 i, settled_step ho.1 ho.2 hsettled i⟩
  have halong := Transition.along_of_forall (Observed.step k) (C := fun _ _ => True)
    (fun _ _ => trivial) o steps
  exact (Transition.invariant_run hstep ⟨h, hu⟩ halong).2

end Observed

/-! ## One executor -/

/-- The receipts of one key have one executor in this state, whatever is called next. -/
structure OneExecutor (k : ActionKey) (o : Observed) : Prop where
  /-- Another executor is told to execute only after the grant failed or ran out. -/
  takeover : ∀ (c : ActionCall) a reply g, c.op = .reserve a → a.key = k → o.grant = some g →
    g.executor ≠ c.executor →
    (o.store.reserveActiveWorkAction c.now a (some c.executor)).result = .ok reply →
    reply.shouldExecute = true → g.failed = true ∨ g.expiresAt ≤ c.now
  /-- An executor that is not the grantee gets nothing done and changes nothing. -/
  lost : ∀ (c : ActionCall) g id u, (∀ a, c.op ≠ .reserve a) → o.grant = some g → g.executor ≠ c.executor →
    o.store.actionByKey k = some (id, u) →
    ¬o.store.accepts c id ∧ (o.store.stepAction c).actionByKey k = some (id, u)
  /-- A settled receipt is never changed and answers its request for good. -/
  settled : ∀ id u steps, o.store.actionByKey k = some (id, u) → u.settled = true →
    let o' := Transition.run (Observed.step k) o steps
    o'.store.actionByKey k = some (id, u) ∧
      ∀ now a executorId, a.key = k → u.differs a = false →
        o'.store.reserveActiveWorkAction now a executorId =
          .commit o'.store ⟨id, u, true, false, false⟩
  /-- A key that is reused for another request changes nothing. -/
  reused : ∀ id u now (a : ActionRequest) executorId, o.store.actionByKey k = some (id, u) → a.key = k →
    u.differs a = true → ∃ e, o.store.reserveActiveWorkAction now a executorId = .raise o.store e

/-- Whatever is called, each receipt has one executor at a time, and settles once. -/
theorem activeWorkAction_oneExecutor (settings : Settings) (k : ActionKey)
    (steps : List ActionStep) : OneExecutor k (observed settings k steps) := by
  have h := Observed.tracked_observed settings k steps
  generalize observed settings k steps = o at h
  refine ⟨?_, ?_, ?_, ?_⟩
  · intro c a reply g hop hkey hgrant hother hreply hexecute
    rcases Store.reserveActiveWorkAction_cases o.store c.now a (some c.executor) with
      ⟨-, hidle⟩ | ⟨hnone, -⟩ | ⟨id, u, source, hfound, hopen, heq⟩
    · rw [hidle reply hreply] at hexecute
      cases hexecute
    · obtain ⟨id, u, hu, hk⟩ := h.present g hgrant
      exact absurd (hk.trans hkey.symm) (Store.actionByKey_eq_none.mp hnone id u hu)
    · obtain ⟨hget, hk⟩ := Store.actionByKey_eq_some hfound
      obtain ⟨g', hg', hagree⟩ := h.agrees id u hget (hk.trans hkey)
      rw [hgrant] at hg'
      obtain rfl := Option.some.inj hg'
      obtain ⟨u', execute, takeover, hcases, htaken⟩ :=
        @Store.reserveUnsettled_cases o.store c.now a id u (some c.executor) source
          (Observed.pending_of_unsettled (h.status id u hget) hopen)
      rw [heq, hcases] at hreply
      obtain rfl := Except.ok.inj hreply
      have htrue : execute = true := hexecute
      rw [if_pos htrue] at htaken
      rcases htaken.reason with hfailed | ⟨hpending, htakes⟩
      · exact Or.inl (hagree.failed hfailed)
      · right
        have hlease := hagree.lease hpending
        simp only [ActiveWorkAction.canTakeOver, hagree.executor, Option.isSome_some, Bool.true_and,
          Option.isNone_some, Bool.false_or, Bool.and_eq_true, Bool.not_eq_true'] at htakes
        have hnot := htakes.2
        simp only [ActiveWorkAction.leaseLive, hlease, Option.any_some, decide_eq_false_iff_not,
          not_lt] at hnot
        exact hnot
  · intro c g id u hreserve hgrant hother hfound
    obtain ⟨hget, hk⟩ := Store.actionByKey_eq_some hfound
    obtain ⟨g', hg', hagree⟩ := h.agrees id u hget hk
    rw [hgrant] at hg'
    obtain rfl := Option.some.inj hg'
    have hne : u.executorId ≠ some c.executor := by
      rw [hagree.executor]
      exact fun heq => hother (Option.some.inj heq)
    have hheld := Store.heldBy_stepAction (s := o.store) hreserve
    have hunique := h.unique.of_rewrites hheld (by
      rintro v v' (rfl | hv)
      · rfl
      · exact hv.key)
    constructor
    · intro haccepts
      obtain ⟨v, hv, howner⟩ := Store.owner_of_accepts haccepts
      rw [hget] at hv
      obtain rfl := Option.some.inj hv
      exact hne howner
    · obtain ⟨u', hu'⟩ := Option.isSome_iff_exists.mp ((hheld.keys id).trans (by rw [hget]; rfl))
      rcases hheld.evolves id u' hu' with ⟨-, hnew⟩ | ⟨v, hv, hvu'⟩
      · exact hnew.elim
      rw [hget] at hv
      obtain rfl := Option.some.inj hv
      rcases hvu' with rfl | hchange
      · rw [← hk]
        exact hunique.actionByKey hu'
      · exact absurd hchange.owner hne
  · intro id u later hfound hsettled
    dsimp only
    obtain ⟨hget, hk⟩ := Store.actionByKey_eq_some hfound
    have hlater := Observed.tracked_run h later
    have hkept := Observed.settled_run h hget hsettled later
    generalize Transition.run (Observed.step k) o later = o' at hlater hkept
    have hfound' := hlater.unique.actionByKey hkept
    rw [hk] at hfound'
    refine ⟨hfound', fun now a executorId hkey hsame => ?_⟩
    obtain ⟨b, hb, htenant, howner⟩ := hlater.delegated id u hkept
    obtain ⟨d, hd, rfl⟩ := Option.map_eq_some_iff.mp hb
    have hdelegation : o'.store.actionDelegation a.key = some d := by
      rw [hkey, ← hk]
      refine Option.filter_eq_some_iff.mpr ⟨hd, ?_⟩
      simp only [Bool.and_eq_true, beq_iff_eq]
      exact ⟨htenant, howner⟩
    rw [← hkey] at hfound'
    exact Store.reserveActiveWorkAction_of_settled hdelegation hfound' hsame hsettled
  · intro id u now a executorId hfound hkey hdiffers
    rw [← hkey] at hfound
    exact Store.reserveActiveWorkAction_of_differs hfound hdiffers

/-- A request to pause the first work. -/
def pauseRequest : ActionRequest where
  key := ⟨0, 0, 0, 7⟩
  action := "pause"
  payloadDigest := 1
  sourceContext := ""
  expectedCurrentRunId := none
  expectedSourceRunId := none
  expectedSourceState := none
  expectedSourceStartedAt := none
  leaseMicroseconds := 5000000

-- The second executor is told to execute only once the lease of the first has run out.
example : [3, 5000002].map (fun now => (observed .default pauseRequest.key
      [.elsewhere (.delegate 1 Store.isolatedRequest), .call ⟨2, 1, .reserve pauseRequest⟩,
        .call ⟨now, 2, .reserve pauseRequest⟩]).grant.map Grant.executor) = [some 1, some 2] := by
  decide

end GlassHive
