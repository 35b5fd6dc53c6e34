import GlassHive.Delegations

/-!
# Receipts of active-work actions

An action on delegated work is executed under a receipt: `reserve_active_work_action` hands it to
one executor, which binds it to a lifecycle operation, records its partial effects and settles it
with a response. A receipt that was settled answers every repetition of its request.
-/

namespace GlassHive

open Relational

/-- What identifies a receipt. -/
structure ActionKey where
  tenantId : TenantId
  ownerId : OwnerId
  workRef : WorkRef
  idempotencyKey : IdempotencyKey
  deriving DecidableEq, Repr

/-- The key of a receipt. -/
def ActiveWorkAction.key (u : ActiveWorkAction) : ActionKey :=
  ⟨u.tenantId, u.ownerId, u.workRef, u.idempotencyKey⟩

/-- The arguments of `reserve_active_work_action` apart from its executor. An expectation that is
not given is the empty string there. -/
structure ActionRequest where
  key : ActionKey
  action : String
  payloadDigest : RequestDigest
  sourceContext : String
  expectedCurrentRunId : Option RunId
  expectedSourceRunId : Option RunId
  expectedSourceState : Option RunState
  expectedSourceStartedAt : Option Time
  leaseMicroseconds : ℕ

/-- What `reserve_active_work_action` returns. -/
structure ActionReply where
  actionUseId : RowId
  row : ActiveWorkAction
  idempotentReplay : Bool
  shouldExecute : Bool
  recoveryTakeover : Bool

/-! ## The columns that a reservation writes -/

/-- The end of a receipt's lease, at least a second away. -/
def ActionRequest.leaseExpiresAt (a : ActionRequest) (now : Time) : Time :=
  now + max 1000000 a.leaseMicroseconds

/-- A new receipt. -/
def ActionRequest.row (a : ActionRequest) (now : Time) (source : RunId)
    (executorId : Option ExecutorId) : ActiveWorkAction where
  tenantId := a.key.tenantId
  ownerId := a.key.ownerId
  workRef := a.key.workRef
  idempotencyKey := a.key.idempotencyKey
  sourceRunId := some source
  effectPhase := ""
  lifecycleOperationId := none
  lifecycleOperationKind := none
  lifecycleTargetRunId := none
  executorId := executorId
  leaseExpiresAt := some (a.leaseExpiresAt now)
  action := a.action
  payloadDigest := a.payloadDigest
  sourceContext := a.sourceContext
  status := "pending"
  response := ""
  lastError := ""
  createdAt := now
  updatedAt := now

namespace ActiveWorkAction

/-- The lease of a receipt has not run out. -/
def leaseLive (now : Time) (u : ActiveWorkAction) : Bool :=
  u.leaseExpiresAt.any fun t => decide (now < t)

/-- The receipt is for another request. -/
def differs (a : ActionRequest) (u : ActiveWorkAction) : Bool :=
  u.action != a.action || u.payloadDigest != a.payloadDigest

/-- The receipt is settled: it is completed, or it failed with a response. -/
def settled (u : ActiveWorkAction) : Bool :=
  u.status == "completed" || (u.status == "failed" && u.response != "")

/-- A receipt without a source run is given one. -/
def sourced (now : Time) (source : RunId) (u : ActiveWorkAction) : ActiveWorkAction :=
  if u.sourceRunId.isNone then { u with sourceRunId := some source, updatedAt := now } else u

/-- A failed receipt is pending again. -/
def retaken (now : Time) (executorId : Option ExecutorId) (expiresAt : Time)
    (u : ActiveWorkAction) : ActiveWorkAction :=
  { u with
    status := "pending", lastError := "", executorId := executorId,
    leaseExpiresAt := some expiresAt, updatedAt := now }

/-- A pending receipt goes to another executor. -/
def takenOver (now : Time) (executorId : Option ExecutorId) (expiresAt : Time)
    (u : ActiveWorkAction) : ActiveWorkAction :=
  if u.status == "pending" then
    { u with executorId := executorId, leaseExpiresAt := some expiresAt, updatedAt := now }
  else u

/-- A receipt is taken over when it has no executor, or another one whose lease ran out. -/
def canTakeOver (now : Time) (executorId : Option ExecutorId) (u : ActiveWorkAction) : Bool :=
  executorId.isSome &&
    (u.executorId.isNone || (u.executorId != executorId && !u.leaseLive now))

/-- A failed receipt, which stays pending when it had an effect already. -/
def failed (now : Time) (error response : String) (u : ActiveWorkAction) : ActiveWorkAction :=
  if u.effectPhase != "" || u.lifecycleOperationId.isSome then
    { u with lastError := error, updatedAt := now }
  else
    { u with status := "failed", lastError := error, response := response, updatedAt := now }

/-- The response of a control that was never bound. -/
def unboundResponse : String :=
  "\x7b\"detail\":\x7b\"code\":\"active_work_action_binding_unavailable\",\"message\":" ++
  "\"This unfinished control predates durable lifecycle binding. " ++
  "Refresh and reissue it with a new idempotency key.\"\x7d,\"statusCode\":409\x7d"

/-- A control that fails because it was never bound. -/
def failedUnbound (now : Time) (u : ActiveWorkAction) : ActiveWorkAction :=
  { u with
    status := "failed", lastError := "active_work_action_binding_unavailable",
    response := unboundResponse, leaseExpiresAt := none, updatedAt := now }

/-- The receipt is pending and, when an executor is named, its own. -/
def ownedBy (executorId : Option ExecutorId) (u : ActiveWorkAction) : Bool :=
  u.status == "pending" && (executorId.isNone || u.executorId == executorId)

end ActiveWorkAction

namespace Store

/-! ## Reservation -/

/-- The receipt under a key. -/
def actionByKey (s : Store) (k : ActionKey) : Option (RowId × ActiveWorkAction) :=
  s.activeWorkActions.first (fun _ u => u.key == k) fun _ _ => false

/-- The row of a receipt is replaced. -/
@[simps! activeWorkActions delegations]
def writeAction (s : Store) (actionUseId : RowId) (u : ActiveWorkAction) : Store :=
  s.updateActiveWorkActions (fun id _ => id == actionUseId) fun _ => u

/-- The delegation of an action. -/
def actionDelegation (s : Store) (k : ActionKey) : Option Delegation :=
  (s.delegations.get? k.workRef).filter fun d => d.tenantId == k.tenantId && d.ownerId == k.ownerId

/-- The run that an action is about: the controlled one, or else the current run of the work. -/
def selectedRun (s : Store) (d : Delegation) : Option (RunId × Run) :=
  s.controlledRun d.workerId <|>
    ((s.runs.get? d.currentRunId).filter fun r => r.workerId == d.workerId).map fun r =>
      (d.currentRunId, r)

/-- The source run that a receipt records. -/
def selectedSourceRunId (s : Store) (d : Delegation) : RunId :=
  ((s.selectedRun d).map Prod.fst).getD d.currentRunId

/-- The run is not the one that the caller has seen. -/
def sourceGenerationChanged (s : Store) (d : Delegation) (a : ActionRequest) : Bool :=
  a.expectedCurrentRunId.any (· != d.currentRunId) ||
  a.expectedSourceRunId.any (· != s.selectedSourceRunId d) ||
  a.expectedSourceState.any (fun state => (s.selectedRun d).all fun e => state != e.2.state) ||
  (a.expectedSourceRunId.isSome &&
    a.expectedSourceStartedAt != (s.selectedRun d).bind fun e => e.2.startedAt)

/-- What refuses an action while its worker admits no work. Stop and dismiss are always open. -/
def actionAdmissionError (s : Store) (d : Delegation) (action : String) : Option StoreError :=
  if oneOf action ["stop", "dismiss"] then none
  else match workAdmissionError (s.workers.get? d.workerId) none with
  | some (.workAdmission code message) => some (.activeWorkActionConflict message code)
  | e => e

/-- A reservation that finds an unsettled receipt of its request. -/
def reserveUnsettled (s : Store) (now : Time) (a : ActionRequest) (executorId : Option ExecutorId)
    (source : RunId) (actionUseId : RowId) (u : ActiveWorkAction) : Outcome ActionReply :=
  let u₁ := u.sourced now source
  let expiresAt := a.leaseExpiresAt now
  if u₁.status == "failed" then
    let u₂ := u₁.retaken now executorId expiresAt
    .commit (s.writeAction actionUseId u₂) ⟨actionUseId, u₂, true, true, false⟩
  else if u₁.canTakeOver now executorId then
    let u₂ := u₁.takenOver now executorId expiresAt
    .commit (s.writeAction actionUseId u₂) ⟨actionUseId, u₂, true, true, true⟩
  else .commit (s.writeAction actionUseId u₁) ⟨actionUseId, u₁, true, false, false⟩

/-- `reserve_active_work_action`. -/
def reserveActiveWorkAction (s : Store) (now : Time) (a : ActionRequest)
    (executorId : Option ExecutorId) : Outcome ActionReply :=
  match s.actionDelegation a.key with
  | none => .raise s (.keyError "Active work not found")
  | some d =>
    match s.actionByKey a.key with
    | some (actionUseId, u) =>
      if u.differs a then
        .raise s (.activeWorkActionConflict
          "The active-work action idempotency key was reused with a different request."
          "active_work_idempotency_conflict")
      else if u.settled then .commit s ⟨actionUseId, u, true, false, false⟩
      else match s.actionAdmissionError d a.action with
      | some e => .raise s e
      | none => s.reserveUnsettled now a executorId (s.selectedSourceRunId d) actionUseId u
    | none =>
      if s.sourceGenerationChanged d a then
        .raise s (.activeWorkActionConflict
          "The active-work run generation changed; refresh before retrying."
          "active_work_generation_changed")
      else match s.actionAdmissionError d a.action with
      | some e => .raise s e
      | none =>
        let row := a.row now (s.selectedSourceRunId d) executorId
        match s.activeWorkActions.insert? s.nextId row with
        | none => .raise s (.integrity "active_work_action_uses")
        | some activeWorkActions =>
          .commit { s.drawId with activeWorkActions := activeWorkActions }
            ⟨s.nextId, row, false, true, false⟩

/-! ## Execution -/

/-- Rewrite the receipts that meet a condition, and return the one that was named if it was among
them. -/
def changeAction (s : Store) (actionUseId : RowId) (p : ActiveWorkAction → Bool)
    (f : ActiveWorkAction → ActiveWorkAction) : Outcome (Option ActiveWorkAction) :=
  let s' := s.updateActiveWorkActions (fun id u => id == actionUseId && p u) f
  .commit s' (((s.activeWorkActions.get? actionUseId).filter p).bind fun _ =>
    s'.activeWorkActions.get? actionUseId)

/-- `bind_active_work_action_lifecycle`. -/
def bindActiveWorkAction (s : Store) (now : Time) (actionUseId : RowId)
    (operationId : OperationId) (kind : OperationKind) (target : RunId)
    (executorId : ExecutorId) : Outcome (Option ActiveWorkAction) :=
  if kind.action.isNone then
    .raise s (.valueError "Action lifecycle binding requires an exact owned operation")
  else match s.bindActiveWorkActionLifecycle now actionUseId operationId kind target
      executorId with
  | none => .commit s none
  | some s' => .commit s' (s'.activeWorkActions.get? actionUseId)

/-- `checkpoint_active_work_action`. -/
def checkpointActiveWorkAction (s : Store) (now : Time) (actionUseId : RowId)
    (effectPhase : String) (executorId : Option ExecutorId) : Outcome (Option ActiveWorkAction) :=
  s.changeAction actionUseId (·.ownedBy executorId) fun u =>
    { u with effectPhase := .ofList (effectPhase.toList.take 100), updatedAt := now }

/-- `release_active_work_action_leases`. -/
def releaseActiveWorkActionLeases (s : Store) (now : Time) (executorId : ExecutorId) :
    Outcome ℕ :=
  let p : RowId → ActiveWorkAction → Bool := fun _ u =>
    u.executorId == some executorId && u.status == "pending"
  .commit (s.updateActiveWorkActions p fun u =>
    { u with leaseExpiresAt := some now, updatedAt := now }) (s.activeWorkActions.select p).length

/-- `finish_active_work_action`. The response is serialised with the `updatedAt` that is put into
it. -/
def finishActiveWorkAction (s : Store) (now : Time) (actionUseId : RowId)
    (response : Option Time → String) (currentRunId : Option RunId)
    (executorId : Option ExecutorId) : Outcome (Option ActiveWorkAction) :=
  match s.activeWorkActions.get? actionUseId with
  | none => .commit s none
  | some u =>
    if executorId.isSome && u.executorId != executorId then .commit s none
    else if executorId.isSome && u.status == "completed" then .commit s (some u)
    else if u.status != "pending" then .commit s none
    else
      let finished := fun updatedAt => { u with
        status := "completed", response := response updatedAt, lastError := "", updatedAt := now }
      match s.actionDelegation u.key, currentRunId with
      | none, _ =>
        .commit (s.writeAction actionUseId (finished none)) (some (finished none))
      | some d, none =>
        .commit (s.writeAction actionUseId (finished (some d.updatedAt)))
          (some (finished (some d.updatedAt)))
      | some d, some runId =>
        if d.currentRunId == runId then
          .commit (s.writeAction actionUseId (finished (some d.updatedAt)))
            (some (finished (some d.updatedAt)))
        else if (s.runs.get? runId).isNone then
          .raise s (.integrity "delegations.current_run_id")
        else
          .commit ((s.updateDelegations
              (fun id d => id == u.workRef && d.tenantId == u.tenantId && d.ownerId == u.ownerId)
              fun d => { d with currentRunId := runId, updatedAt := now }).writeAction actionUseId
                (finished (some now)))
            (some (finished (some now)))

/-- `fail_active_work_action`. -/
def failActiveWorkAction (s : Store) (now : Time) (actionUseId : RowId) (error : String)
    (executorId : Option ExecutorId) (failureResponse : Option String) : Outcome Bool :=
  let o := s.changeAction actionUseId (·.ownedBy executorId)
    (.failed now (.ofList (error.toList.take 1000)) (failureResponse.getD ""))
  .commit o.store ((s.activeWorkActions.get? actionUseId).any (·.ownedBy executorId))

/-- `fail_unbound_active_work_control`. -/
def failUnboundActiveWorkControl (s : Store) (now : Time) (actionUseId : RowId)
    (executorId : ExecutorId) : Outcome Bool :=
  let p : ActiveWorkAction → Bool := fun u =>
    u.ownedBy (some executorId) && u.lifecycleOperationId.isNone &&
      oneOf u.action ["pause", "resume", "steer", "stop"]
  .commit (s.changeAction actionUseId p (.failedUnbound now)).store
    ((s.activeWorkActions.get? actionUseId).any p)

/-! ## What the transactions do -/

section Rules

variable {s : Store} {now : Time} {a : ActionRequest} {k : ActionKey} {id : RowId}
  {u : ActiveWorkAction} {executorId : Option ExecutorId}

theorem actionByKey_eq_some (h : s.actionByKey k = some (id, u)) :
    s.activeWorkActions.get? id = some u ∧ u.key = k := by
  have hfound := Table.first_eq_some h
  simpa using hfound

theorem actionByKey_eq_none :
    s.actionByKey k = none ↔ ∀ id u, s.activeWorkActions.get? id = some u → u.key ≠ k := by
  rw [actionByKey, Table.first_eq_none]
  simp

/-- A reservation refuses or only reads, inserts the first receipt of its key, or goes on with an
unsettled receipt of its request. -/
theorem reserveActiveWorkAction_cases (s : Store) (now : Time) (a : ActionRequest)
    (executorId : Option ExecutorId) :
    ((s.reserveActiveWorkAction now a executorId).store = s ∧
      ∀ reply, (s.reserveActiveWorkAction now a executorId).result = .ok reply →
        reply.shouldExecute = false) ∨
    (s.actionByKey a.key = none ∧ (s.actionDelegation a.key).isSome = true ∧ ∃ source actions,
      s.activeWorkActions.insert? s.nextId (a.row now source executorId) = some actions ∧
      s.reserveActiveWorkAction now a executorId =
        .commit { s.drawId with activeWorkActions := actions }
          ⟨s.nextId, a.row now source executorId, false, true, false⟩) ∨
    ∃ id u source, s.actionByKey a.key = some (id, u) ∧ u.settled = false ∧
      s.reserveActiveWorkAction now a executorId =
        s.reserveUnsettled now a executorId source id u := by
  have hrefused : ∀ (o : Outcome ActionReply) e, o = .raise s e → o.store = s ∧
      ∀ reply, o.result = .ok reply → reply.shouldExecute = false := by
    rintro o e rfl
    refine ⟨rfl, fun reply hreply => ?_⟩
    cases hreply
  unfold reserveActiveWorkAction
  split
  · exact Or.inl (hrefused _ _ rfl)
  rename_i d hd
  split
  · rename_i id u hfound
    split
    · exact Or.inl (hrefused _ _ rfl)
    split
    · refine Or.inl ⟨rfl, fun reply hreply => ?_⟩
      obtain rfl := Except.ok.inj hreply
      rfl
    rename_i hsettled
    split
    · exact Or.inl (hrefused _ _ rfl)
    · refine Or.inr (Or.inr ⟨id, u, _, hfound, ?_, rfl⟩)
      simpa using hsettled
  · rename_i hfound
    split
    · exact Or.inl (hrefused _ _ rfl)
    split
    · exact Or.inl (hrefused _ _ rfl)
    dsimp only
    split
    · exact Or.inl (hrefused _ _ rfl)
    · rename_i actions hinsert
      exact Or.inr (Or.inl ⟨hfound, by rw [hd]; rfl, _, actions, hinsert, rfl⟩)

/-- A receipt is given to an executor: it failed, or it could be taken over. -/
structure Taken (now : Time) (a : ActionRequest) (executorId : Option ExecutorId)
    (u u' : ActiveWorkAction) : Prop where
  key : u'.key = u.key
  reason : u.status = "failed" ∨ u.status = "pending" ∧ u.canTakeOver now executorId = true
  executor : u'.executorId = executorId
  status : u'.status = "pending"
  lease : u'.leaseExpiresAt = some (a.leaseExpiresAt now)

theorem sourced_kept (source : RunId) (u : ActiveWorkAction) :
    (u.sourced now source).key = u.key ∧ (u.sourced now source).status = u.status ∧
      (u.sourced now source).executorId = u.executorId ∧
      (u.sourced now source).leaseExpiresAt = u.leaseExpiresAt := by
  unfold ActiveWorkAction.sourced
  split
  · exact ⟨rfl, rfl, rfl, rfl⟩
  · exact ⟨rfl, rfl, rfl, rfl⟩

/-- Whoever is told to execute an unsettled receipt has been given it. -/
theorem reserveUnsettled_cases (source : RunId)
    (hstatus : u.status = "failed" ∨ u.status = "pending") :
    ∃ u' execute takeover, s.reserveUnsettled now a executorId source id u =
        .commit (s.writeAction id u') ⟨id, u', true, execute, takeover⟩ ∧
      if execute then Taken now a executorId u u'
      else u'.key = u.key ∧ u'.status = u.status ∧ u'.executorId = u.executorId ∧
        u'.leaseExpiresAt = u.leaseExpiresAt := by
  obtain ⟨hkey, hsame, hexecutor, hlease⟩ := @sourced_kept now source u
  unfold reserveUnsettled
  dsimp only
  split
  · rename_i hfailed
    rw [hsame, beq_iff_eq] at hfailed
    exact ⟨_, true, false, rfl, hkey, Or.inl hfailed, rfl, rfl, rfl⟩
  rename_i hfailed
  have hpending : u.status = "pending" := by
    rw [hsame, beq_iff_eq] at hfailed
    exact hstatus.resolve_left hfailed
  split
  · rename_i htake
    refine ⟨_, true, true, rfl, ?_⟩
    have htakes : u.canTakeOver now executorId = true := by
      unfold ActiveWorkAction.canTakeOver ActiveWorkAction.leaseLive at htake ⊢
      rw [hexecutor, hlease] at htake
      exact htake
    have hkept := hsame.trans hpending
    unfold ActiveWorkAction.takenOver
    rw [if_pos (beq_iff_eq.mpr hkept)]
    exact ⟨hkey, Or.inr ⟨hpending, htakes⟩, rfl, hkept, rfl⟩
  · exact ⟨_, false, false, rfl, hkey, hsame, hexecutor, hlease⟩

/-- A settled receipt answers its request, whoever repeats it. -/
theorem reserveActiveWorkAction_of_settled {d : Delegation} (hd : s.actionDelegation a.key = some d)
    (hfound : s.actionByKey a.key = some (id, u)) (hsame : u.differs a = false)
    (hsettled : u.settled = true) :
    s.reserveActiveWorkAction now a executorId = .commit s ⟨id, u, true, false, false⟩ := by
  simp [reserveActiveWorkAction, hd, hfound, hsame, hsettled]

/-- A key is not reused for another request. -/
theorem reserveActiveWorkAction_of_differs (hfound : s.actionByKey a.key = some (id, u))
    (hdiffers : u.differs a = true) :
    ∃ e, s.reserveActiveWorkAction now a executorId = .raise s e := by
  cases hd : s.actionDelegation a.key with
  | none => exact ⟨_, by rw [reserveActiveWorkAction, hd]⟩
  | some => exact ⟨_, by simp only [reserveActiveWorkAction, hd, hfound, hdiffers, if_true]; rfl⟩

theorem changeAction_actions (p : ActiveWorkAction → Bool)
    (f : ActiveWorkAction → ActiveWorkAction) :
    (s.changeAction id p f).store.activeWorkActions =
      s.activeWorkActions.update (fun j u => j == id && p u) fun _ => f := rfl

theorem changeAction_answers {p : ActiveWorkAction → Bool}
    {f : ActiveWorkAction → ActiveWorkAction} {u' : ActiveWorkAction}
    (h : (s.changeAction id p f).result = .ok (some u')) :
    ∃ u, s.activeWorkActions.get? id = some u ∧ p u = true := by
  have hsome := Except.ok.inj h
  obtain ⟨u, hu, -⟩ := Option.bind_eq_some_iff.mp hsome
  exact ⟨u, Option.filter_eq_some_iff.mp hu⟩

end Rules

end Store

end GlassHive
