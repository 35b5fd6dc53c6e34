import GlassHive.Intents
import Mathlib.Data.List.Sort

/-!
# Delivery of callbacks

A sender claims a pending callback under a lease token and a delivery generation, posts it, and
settles it with an outcome. Every operation is one transaction: an error rolls it back. A callback
that a run transaction inserts appears here as an insertion of its own after that transaction.
-/

namespace GlassHive

open Relational

/-- A lease token as a sender presents it: the empty text, a token, or another text. -/
inductive TokenText
  | empty
  | token (t : Token)
  | other
  deriving DecidableEq, Repr

/-- The text is the value of `delivery_lease_token`. -/
def TokenText.isToken : TokenText → Option Token → Bool
  | .empty, none => true
  | .token t, some u => t == u
  | .empty, some _ | .token _, none | .other, _ => false

/-- The arguments of `claim_terminal_callback_recovery` besides the callback. The reference digests
a callback identity. -/
structure Recovery (η : Type) where
  tenantId : TenantId
  ownerId : OwnerId
  originRef : String
  workRef : WorkRef
  workerId : WorkerId
  runId : RunId
  resultRevision : ℤ
  resultDigest : DigestText η
  callbackRef : DigestText η
  payloadSha : DigestText η
  authoritySha : DigestText η

/-- `value[-n:]`. -/
def lastChars (n : ℕ) (value : String) : String :=
  String.ofList (value.toList.drop (value.toList.length - n))

/-- The lease duration of a delivery in microseconds. -/
def DeliverySettings.leaseTime (settings : DeliverySettings) : Time :=
  settings.leaseSeconds * 1000000

namespace Store

variable {η : Type} [DecidableEq η]

/-- `_terminal_callback_is_current_conn`. -/
def terminalCallbackIsCurrent (s : Store) (H : Digests η) (name : CallbackName η)
    (c : Callback η) : Bool :=
  if !name.isTerminal then c.resultRevision == 0 && c.resultDigest == .empty
  else if c.resultRevision < 1 || !c.resultDigest.isSha256 then false
  else
    match c.runId with
    | none => false
    | some runId =>
      match s.runs.get? runId with
      | none => false
      | some r =>
        match terminalCallbackWireState r.state c.eventType, r.endedAt with
        | some state, some endedAt =>
          oneOf r.state RunState.terminal && c.eventType == "run." ++ r.state.text &&
            c.attemptNumber == s.callbackAttemptNumber runId &&
            c.resultRevision == r.terminalResultRevision &&
            c.resultDigest == .sha256 (r.terminalResultDigest H.result) &&
            name == .terminal (H.terminalId (s.terminalIdentity H runId r state endedAt))
        | _, _ => false

/-- The effect of the work stop that settled the run of a lifecycle callback. -/
def workStopEffect (s : Store) (key : LifecycleKey) (c : Callback η) : Bool :=
  match s.effects.get? key, s.workers.get? c.workerId, c.runId.bind s.runs.get? with
  | some e, some w, some r =>
    e.binding.workerId == c.workerId && e.binding.runId == c.runId && e.status == .applied &&
      key.name == "callback.work_stopped" && key.operationKind == .stopRun &&
      w.workStop.id.any (fun id => key.operation == .operation id) &&
      w.workStop.settledAt.isSome && w.workStop.outcome == "cancelled" &&
      r.workerId == c.workerId && r.state == .cancelled && r.endedAt.isSome
  | _, _, _ => false

/-- The delegation that a recovery names is the one of the run and worker of the callback. -/
def recoveryAssociation (s : Store) (v : Recovery η) (c : Callback η) : Bool :=
  match c.runId.bind s.runs.get? with
  | none => false
  | some r =>
    s.delegations.any fun workRef d =>
      r.workerId == d.workerId && r.projectId == d.projectId && r.tenantId == d.tenantId &&
        d.tenantId == v.tenantId && d.ownerId == v.ownerId && d.originRef == v.originRef &&
        workRef == v.workRef && d.workerId == c.workerId

end Store

namespace DeliveryStore

variable {η : Type} [DecidableEq η]

/-- The callback is in delivery under the lease that a sender presents. -/
def heldBy (token : TokenText) (generation : ℤ) (c : Callback η) : Bool :=
  c.status == .delivering && token.isToken c.deliveryLeaseToken && c.deliveryGeneration == generation

/-- The callback that a sender holds. -/
def held (d : DeliveryStore η) (name : CallbackName η) (token : TokenText) (generation : ℤ) :
    Option (Callback η) :=
  (d.outbox.get? name).filter (heldBy token generation)

/-- An update of one callback and its trace, and the row it leaves. -/
def settleCallback (H : Digests η) (d : DeliveryStore η) (name : CallbackName η)
    (f : Callback η → Callback η) : Except StoreError (DeliveryStore η × Option (Callback η)) := do
  let d ← d.updateCallback H name f
  let d ← d.appendCallbackTrace name
  .ok (d, d.outbox.get? name)

/-- The row that `_supersede_terminal_callback_conn` leaves. -/
def supersededRow (now : Time) (reason : String) (attempts : ℤ) (c : Callback η) : Callback η :=
  { c with
    status := .superseded
    attempts := c.attempts + max 0 attempts
    lastError := reason
    updatedAt := now
    deliveredAt := none
    httpAcceptedAt := none
    deliveryLeaseToken := none
    deliveryLeaseExpiresAt := none }

/-- `_supersede_terminal_callback_conn`. -/
def supersedeTerminalCallback (H : Digests η) (d : DeliveryStore η) (now : Time)
    (name : CallbackName η) (reason : String) (attempts : ℤ) :
    Except StoreError (DeliveryStore η × Option (Callback η)) :=
  match d.outbox.get? name with
  | none => .error (.runtimeError "Superseded callback disappeared")
  | some c =>
    if oneOf c.status [.pending, .delivering] then
      d.settleCallback H name (supersededRow now reason attempts)
    else do
      let d ← d.appendCallbackTrace name
      .ok (d, some c)

/-- `callback_delivery_is_current`. -/
def callbackDeliveryIsCurrent (H : Digests η) (d : DeliveryStore η) (now : Time)
    (name : CallbackName η) (token : TokenText) (generation : ℤ) :
    Except StoreError (DeliveryStore η × Bool) :=
  match d.held name token generation with
  | none => .ok (d, false)
  | some c =>
    if d.store.terminalCallbackIsCurrent H name c then .ok (d, true)
    else do
      let (d, _) ← d.supersedeTerminalCallback H now name "terminal_result_superseded" 0
      .ok (d, false)

/-- The row whose lease expired at a time. -/
def expiredRow (expiredAt : Time) (c : Callback η) : Callback η :=
  { c with deliveryLeaseExpiresAt := some expiredAt, updatedAt := expiredAt }

/-- `expire_callback_delivery_lease_for_local_qa`. -/
def expireCallbackDeliveryLease (H : Digests η) (d : DeliveryStore η) (now : Time)
    (name : CallbackName η) (token : TokenText) (generation : ℤ) :
    Except StoreError (DeliveryStore η × Bool) :=
  match d.held name token generation with
  | none => .ok (d, false)
  | some _ => do
    let (d, _) ← d.settleCallback H name (expiredRow (now - 1000000))
    .ok (d, true)

/-- The row that a claim leaves. -/
def leasedRow (now : Time) (token : Token) (expiresAt : Time) (c : Callback η) : Callback η :=
  { c with
    status := .delivering
    updatedAt := now
    deliveryLeaseToken := some token
    deliveryGeneration := c.deliveryGeneration + 1
    deliveryLeaseExpiresAt := some expiresAt }

/-- The UPDATE of `_claim_pending_callback_parallel`, under a token of its own. -/
def leaseCallback (H : Digests η) (d : DeliveryStore η) (now : Time) (name : CallbackName η) :
    Except StoreError (DeliveryStore η × Option (Callback η)) :=
  ({ d with store := d.store.drawId }).settleCallback H name
    (leasedRow now d.store.nextId (now + d.settings.leaseTime))

/-- `claim_pending_callback`. -/
def claimPendingCallback (H : Digests η) (d : DeliveryStore η) (now : Time)
    (name : CallbackName η) : Except StoreError (DeliveryStore η × Option (Callback η)) :=
  match d.outbox.get? name with
  | none => .ok (d, none)
  | some c =>
    if c.status != .pending then .ok (d, none)
    else if d.store.terminalCallbackIsCurrent H name c then d.leaseCallback H now name
    else do
      let (d, _) ← d.supersedeTerminalCallback H now name "terminal_result_superseded" 0
      .ok (d, none)

/-- The dead letter of a work stop that a lifecycle recovery names. -/
def lifecycleCandidate (H : Digests η) (d : DeliveryStore η) (v : Recovery η) :
    Option (CallbackName η) :=
  ((d.outbox.select fun name c =>
    (match name with
      | .effect key => d.store.workStopEffect key c
      | _ => false) &&
    (match lastOfCallback d.ledger name with
      | some (_, e) => v.payloadSha == .sha256 e.payloadSha && v.authoritySha == .sha256 e.authoritySha
      | none => false) &&
    c.workerId == v.workerId && c.runId == some v.runId && c.status == .deadLettered &&
      v.callbackRef == .sha256 (H.name name) && v.payloadSha == .sha256 (H.payload c.payload) &&
      c.eventType == "run.cancelled" && c.resultRevision == 0 &&
      c.resultDigest == .empty).map Prod.fst).head?

/-- The checks of a recovery on its dead letter. -/
def recoverable (d : DeliveryStore η) (now : Time) (v : Recovery η) (c : Callback η) : Bool :=
  d.store.recoveryAssociation v c && c.workerId == v.workerId && c.runId == some v.runId &&
    (v.callbackRef != .empty ||
      c.resultRevision == v.resultRevision && c.resultDigest == v.resultDigest &&
        decide (1 ≤ c.resultRevision)) &&
    decide (c.updatedAt + 60 * 1000000 ≤ now)

/-- `claim_terminal_callback_recovery`. -/
def claimTerminalCallbackRecovery (H : Digests η) (d : DeliveryStore η) (now : Time)
    (name : CallbackName η) (v : Recovery η) :
    Except StoreError (DeliveryStore η × Option (Callback η)) :=
  match if v.callbackRef != .empty then d.lifecycleCandidate H v else some name with
  | none => .ok (d, none)
  | some name =>
    match d.outbox.get? name with
    | none => .ok (d, none)
    | some c =>
      if c.status == .deadLettered && d.recoverable now v c &&
          d.store.terminalCallbackIsCurrent H name c then d.leaseCallback H now name
      else .ok (d, none)

/-- The row that a settled delivery leaves. -/
def settledRow (status : CallbackStatus) (now : Time) (attempts : ℤ) (payload : CallbackPayload η)
    (lastError : String) (c : Callback η) : Callback η :=
  { c with
    status := status
    attempts := c.attempts + attempts
    payload := payload
    lastError := lastError
    updatedAt := now
    deliveryLeaseToken := none
    deliveryLeaseExpiresAt := none }

/-- The row that an accepted delivery leaves. -/
def acceptedRow (now : Time) (attempts : ℤ) (payload : CallbackPayload η) (c : Callback η) :
    Callback η :=
  { settledRow .httpAccepted (strictlyAfter now c.createdAt) attempts payload "" c with
    deliveredAt := none
    httpAcceptedAt := some (strictlyAfter now c.createdAt) }

/-- `mark_callback_http_accepted`. -/
def markCallbackHttpAccepted (H : Digests η) (d : DeliveryStore η) (now : Time)
    (name : CallbackName η) (token : TokenText) (generation attempts : ℤ)
    (payload : CallbackPayload η) : Except StoreError (DeliveryStore η × Option (Callback η)) :=
  match d.held name token generation with
  | none => .ok (d, none)
  | some c =>
    if d.store.terminalCallbackIsCurrent H name c then
      d.settleCallback H name (acceptedRow now attempts payload)
    else d.supersedeTerminalCallback H now name "terminal_result_superseded" attempts

/-- What `_mark_callback_pending_parallel` and `_mark_callback_dead_lettered_parallel` do, for their
status. -/
def settleHeldCallback (H : Digests η) (d : DeliveryStore η) (now : Time) (status : CallbackStatus)
    (name : CallbackName η) (token : TokenText) (generation attempts : ℤ)
    (payload : CallbackPayload η) (lastError : String) :
    Except StoreError (DeliveryStore η × Option (Callback η)) :=
  match d.held name token generation with
  | none => .ok (d, none)
  | some _ =>
    d.settleCallback H name (settledRow status now attempts payload (lastChars 2000 lastError))

/-- The error of `int(None)`. -/
def intOfNone : StoreError :=
  .typeError ("int() argument must be a string, a bytes-like object or a real number, not " ++
    "'NoneType'")

/-- `mark_callback_pending`. Without a token the code presents the text `None`. -/
def markCallbackPending (H : Digests η) (d : DeliveryStore η) (now : Time) (name : CallbackName η)
    (token : Option TokenText) (generation : Option ℤ) (attempts : ℤ)
    (payload : CallbackPayload η) (lastError : String) :
    Except StoreError (DeliveryStore η × Option (Callback η)) :=
  match generation with
  | none => .error intOfNone
  | some generation =>
    d.settleHeldCallback H now .pending name (token.getD .other) generation attempts payload
      lastError

/-- The row that a dead letter without a lease leaves: the lease stays. -/
def deadLetteredRow (now : Time) (attempts : ℤ) (payload : CallbackPayload η) (lastError : String)
    (c : Callback η) : Callback η :=
  { c with
    status := .deadLettered
    attempts := c.attempts + attempts
    payload := payload
    lastError := lastError
    updatedAt := now }

/-- `mark_callback_dead_lettered`. Without a token or a generation the code updates the row whatever
its status and lease, and appends no trace. -/
def markCallbackDeadLettered (H : Digests η) (d : DeliveryStore η) (now : Time)
    (name : CallbackName η) (token : Option TokenText) (generation : Option ℤ) (attempts : ℤ)
    (payload : CallbackPayload η) (lastError : String) :
    Except StoreError (DeliveryStore η × Option (Callback η)) :=
  match token, generation with
  | some token, some generation =>
    d.settleHeldCallback H now .deadLettered name token generation attempts payload lastError
  | _, _ => do
    let d ← d.updateCallback H name
      (deadLetteredRow now attempts payload (lastChars 2000 lastError))
    .ok (d, d.outbox.get? name)

/-- `mark_callback_receiver_superseded`. -/
def markCallbackReceiverSuperseded (H : Digests η) (d : DeliveryStore η) (now : Time)
    (name : CallbackName η) (token : TokenText) (generation attempts currentResultRevision : ℤ) :
    Except StoreError (DeliveryStore η × Option (Callback η)) :=
  match d.held name token generation with
  | none => .ok (d, none)
  | some c =>
    if name.isTerminal && decide ((c.resultRevision : ℤ) < currentResultRevision) then
      d.supersedeTerminalCallback H now name "receiver_result_superseded" attempts
    else .ok (d, none)

/-! ## Reclaim -/

/-- The delivery of a callback is stale. -/
def stale (now staleBefore : Time) (c : Callback η) : Bool :=
  c.status == .delivering &&
    match c.deliveryLeaseExpiresAt with
    | some expiresAt => decide (expiresAt ≤ now)
    | none => decide (c.updatedAt < staleBefore)

/-- The stale callbacks that one reclaim takes, the longest unchanged first. -/
def staleCallbacks (d : DeliveryStore η) (now staleBefore : Time) (limit : ℕ) :
    List (CallbackName η) :=
  (((d.outbox.select fun _ => stale now staleBefore).mergeSort fun a b =>
    decide (a.2.updatedAt ≤ b.2.updatedAt)).take limit).map Prod.fst

/-- The row that a reclaim leaves. -/
def reclaimedRow (now : Time) (c : Callback η) : Callback η :=
  { c with
    status := .pending
    lastError :=
      if c.lastError == "" then "callback delivery was interrupted and reclaimed" else c.lastError
    updatedAt := now
    deliveryLeaseToken := none
    deliveryLeaseExpiresAt := none }

/-- `reclaim_stale_delivering_callbacks`. The update takes its rows in the order of the selection,
and the traces follow it. -/
def reclaimStaleDeliveringCallbacks (H : Digests η) (d : DeliveryStore η) (now staleBefore : Time)
    (limit : ℕ) : Except StoreError (DeliveryStore η × ℕ) := do
  let names := d.staleCallbacks now staleBefore limit
  let d ← names.foldlM (fun d name => d.updateCallback H name (reclaimedRow now)) d
  let d ← names.foldlM appendCallbackTrace d
  .ok (d, names.length)

/-! ## The system -/

/-- A transaction of the store aborts when it would delete a row that a callback or the ledger
refers to. -/
def call (d : DeliveryStore η) (c : Call) : Except StoreError (DeliveryStore η) :=
  let store := d.store.step c
  if (d.outbox.any fun _ c => (store.workers.get? c.workerId).isNone ||
        (store.projects.get? c.projectId).isNone) ||
      d.ledger.any fun k _ => (store.runs.get? k.1).isNone then
    .error (.integrity "FOREIGN KEY constraint failed")
  else .ok { d with store := store }

end DeliveryStore

/-- Transactions of the delivery layer. -/
inductive DeliveryOp (η : Type)
  | store (op : Op)
  | insertCallbackIntent (i : CallbackIntent η)
  | callbackDeliveryIsCurrent (name : CallbackName η) (token : TokenText) (generation : ℤ)
  | expireCallbackDeliveryLease (name : CallbackName η) (token : TokenText) (generation : ℤ)
  | markCallbackHttpAccepted (name : CallbackName η) (token : TokenText) (generation attempts : ℤ)
      (payload : CallbackPayload η)
  | claimPendingCallback (name : CallbackName η)
  | claimTerminalCallbackRecovery (name : CallbackName η) (v : Recovery η)
  | markCallbackPending (name : CallbackName η) (token : Option TokenText)
      (generation : Option ℤ) (attempts : ℤ) (payload : CallbackPayload η) (lastError : String)
  | markCallbackDeadLettered (name : CallbackName η) (token : Option TokenText)
      (generation : Option ℤ) (attempts : ℤ) (payload : CallbackPayload η) (lastError : String)
  | markCallbackReceiverSuperseded (name : CallbackName η) (token : TokenText)
      (generation attempts currentResultRevision : ℤ)
  | reclaimStaleDeliveringCallbacks (staleBefore : Time) (limit : ℕ)

/-- A transaction with the clock it reads. -/
structure DeliveryCall (η : Type) where
  now : Time
  op : DeliveryOp η

namespace DeliveryStore

variable {η : Type} [DecidableEq η]

/-- A new database. -/
def init (settings : Settings) (delivery : DeliverySettings) : DeliveryStore η where
  store := Store.init settings
  settings := delivery
  outbox := .empty
  ledger := .empty

/-- The database that a transaction commits, or what it raises. -/
def perform (H : Digests η) (d : DeliveryStore η) (c : DeliveryCall η) :
    Except StoreError (DeliveryStore η) :=
  match c.op with
  | .store op => d.call ⟨c.now, op⟩
  | .insertCallbackIntent i => (d.insertCallbackIntent H c.now i).map Prod.fst
  | .callbackDeliveryIsCurrent name token generation =>
    (d.callbackDeliveryIsCurrent H c.now name token generation).map Prod.fst
  | .expireCallbackDeliveryLease name token generation =>
    (d.expireCallbackDeliveryLease H c.now name token generation).map Prod.fst
  | .markCallbackHttpAccepted name token generation attempts payload =>
    (d.markCallbackHttpAccepted H c.now name token generation attempts payload).map Prod.fst
  | .claimPendingCallback name => (d.claimPendingCallback H c.now name).map Prod.fst
  | .claimTerminalCallbackRecovery name v =>
    (d.claimTerminalCallbackRecovery H c.now name v).map Prod.fst
  | .markCallbackPending name token generation attempts payload lastError =>
    (d.markCallbackPending H c.now name token generation attempts payload lastError).map Prod.fst
  | .markCallbackDeadLettered name token generation attempts payload lastError =>
    (d.markCallbackDeadLettered H c.now name token generation attempts payload
      lastError).map Prod.fst
  | .markCallbackReceiverSuperseded name token generation attempts revision =>
    (d.markCallbackReceiverSuperseded H c.now name token generation attempts revision).map Prod.fst
  | .reclaimStaleDeliveringCallbacks staleBefore limit =>
    (d.reclaimStaleDeliveringCallbacks H c.now staleBefore limit).map Prod.fst

/-- One transaction: what it commits, or the state it began in. -/
def step (H : Digests η) (d : DeliveryStore η) (c : DeliveryCall η) : DeliveryStore η :=
  match d.perform H c with
  | .ok d' => d'
  | .error _ => d

end DeliveryStore

end GlassHive
