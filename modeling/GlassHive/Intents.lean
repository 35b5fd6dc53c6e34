import GlassHive.Callbacks

/-!
# Callback intents

`_insert_callback_intent_conn` is the only writer of new callbacks. It binds an intent to the run as
it stands, or to the worker when there is no run, and refuses an intent that names another attempt
or result.
-/

namespace GlassHive

open Relational

/-- The `payload_json` of an intent: no JSON, JSON that is not an object, or an object. -/
inductive PayloadText (η : Type)
  | invalid
  | other
  | object (payload : CallbackPayload η)

/-- What a caller of `_insert_callback_intent_conn` supplies. A blank identity is `none`. -/
structure CallbackIntent (η : Type) where
  callbackId : Option (CallbackName η)
  projectId : ProjectId
  workerId : Option WorkerId
  tenantId : TenantId
  runId : Option RunId
  attemptNumber : JsonInt
  eventType : String
  url : String
  payload : PayloadText η
  resultRevision : JsonInt
  resultDigest : DigestText η

/-- What `_prepare_callback_intent_conn` returns. -/
structure PreparedIntent (η : Type) where
  callbackId : CallbackName η
  projectId : ProjectId
  workerId : WorkerId
  tenantId : TenantId
  runId : Option RunId
  attemptNumber : ℕ
  eventType : String
  url : String
  payload : CallbackPayload η
  resultRevision : ℕ
  resultDigest : DigestText η

/-- A check that raises when it fails. -/
def require (ok : Bool) (e : StoreError) : Except StoreError Unit :=
  if ok then .ok () else .error e

/-- `_terminal_callback_wire_state`. -/
def terminalCallbackWireState (durableState : RunState) (eventType : String) : Option RunState :=
  if durableState == .interrupted && eventType == "run.interrupted" then some .cancelled
  else if oneOf durableState [.completed, .failed, .cancelled] &&
      eventType == "run." ++ durableState.text then some durableState
  else none

/-- The payload of an intent as an object. -/
def PayloadText.toObject {η : Type} : PayloadText η → Except StoreError (CallbackPayload η)
  | .invalid => .error (.valueError "Callback intent payload must be valid JSON")
  | .other => .error (.valueError "Callback intent payload must be an object")
  | .object payload => .ok payload

/-- The attempt numbers of an intent and its payload are those of the run. -/
def attemptIsExact (exact : ℕ) (supplied payload : JsonInt) : Bool :=
  if 0 < exact then
    match supplied with
    | .int n => decide (1 ≤ n) && n == exact && payload.eqInt n
    | _ => false
  else supplied.absent && !supplied.isBool && payload.absent && !payload.isBool

namespace Store

variable {η : Type} [DecidableEq η]

/-- `_callback_attempt_number_conn`. -/
def callbackAttemptNumber (s : Store) (runId : RunId) : ℕ :=
  (s.attempts.select fun _ a => a.runId == runId).foldl (fun n e => max n e.2.attemptNumber) 0

/-- What `_terminal_callback_id` digests for a run that ended at `endedAt`. -/
def terminalIdentity (s : Store) (H : Digests η) (runId : RunId) (r : Run) (state : RunState)
    (endedAt : Time) : TerminalIdentity η where
  runId := runId
  state := state
  endedAt := endedAt
  attemptNumber := s.callbackAttemptNumber runId
  resultRevision := r.terminalResultRevision
  resultDigest := .sha256 (r.terminalResultDigest H.result)

/-- `_prepare_callback_intent_conn` for a callback of a worker. -/
def prepareWorkerCallback (s : Store) (i : CallbackIntent η) (name : CallbackName η)
    (workerId : WorkerId) : Except StoreError (PreparedIntent η) := do
  require (startsWith i.eventType "worker.")
    (.valueError "Run callbacks require exact run identity")
  require ((s.workers.get? workerId).any fun w =>
      w.projectId == i.projectId && w.tenantId == i.tenantId)
    (.valueError "Callback intent worker association is not exact")
  let payload ← i.payload.toObject
  require (i.attemptNumber.absent && i.resultRevision.absent && i.resultDigest == .empty)
    (.valueError "Runless callback cannot carry run result identity")
  .ok
    { callbackId := name
      projectId := i.projectId
      workerId := workerId
      tenantId := i.tenantId
      runId := none
      attemptNumber := 0
      eventType := i.eventType
      url := i.url
      payload := payload
      resultRevision := 0
      resultDigest := .empty }

/-- The result identity of a terminal callback is that of the run as it stands. The payload leaves
with it. -/
def exactResult (s : Store) (H : Digests η) (i : CallbackIntent η) (name : CallbackName η)
    (runId : RunId) (r : Run) (payload : CallbackPayload η) :
    Except StoreError (CallbackPayload η) :=
  match terminalCallbackWireState r.state i.eventType, r.endedAt with
  | some state, some endedAt =>
    if oneOf r.state RunState.terminal && decide (1 ≤ r.terminalResultRevision) &&
        name == .terminal (H.terminalId (s.terminalIdentity H runId r state endedAt)) &&
        i.resultRevision == .int r.terminalResultRevision &&
        payload.resultRevision == .int r.terminalResultRevision &&
        i.resultDigest == .sha256 (r.terminalResultDigest H.result) &&
        payload.resultDigest == .sha256 (r.terminalResultDigest H.result) &&
        payload.resultState == some state && payload.resultEndedAt == some endedAt then
      .ok payload
    else
      .error (.callbackIntentGenerationConflict "Terminal callback result identity is not exact")
  | _, _ =>
    .error (.callbackIntentGenerationConflict "Terminal callback result identity is not exact")

/-- The accepted run input of a payload is that of the run as it ended. -/
def exactRunInput (H : Digests η) (i : CallbackIntent η) (runId : RunId) (r : Run)
    (payload : CallbackPayload η) : Except StoreError Unit :=
  match payload.runInput with
  | none => .ok ()
  | some input => do
    let conflict := StoreError.callbackIntentGenerationConflict
      "Callback accepted run input is not exact"
    require (oneOf r.state RunState.terminal && r.endedAt.isSome &&
      (terminalCallbackWireState r.state i.eventType).isSome) conflict
    match H.acceptedRunInput runId r with
    | none => .error (.valueError "Invalid workspace continuation context")
    | some accepted => require (input == accepted) conflict

/-- The origin and the work reference of the delegation of the worker. -/
def exactDelegation (s : Store) (i : CallbackIntent η) (workerId : WorkerId)
    (payload : CallbackPayload η) : Except StoreError (CallbackPayload η) :=
  match (s.delegations.select fun _ d => d.workerId == workerId).head? with
  | none => .ok payload
  | some (workRef, d) => do
    require (i.projectId == d.projectId)
      (.valueError "Callback intent project identity is not exact")
    require (payload.originRef.all (· == d.originRef))
      (.valueError "Callback intent origin_ref is not exact")
    require (payload.workRef.all (· == workRef))
      (.valueError "Callback intent work_ref is not exact")
    .ok { payload with originRef := some d.originRef, workRef := some workRef }

/-- The attempt number of the payload of an intent: that of the run, or none. -/
def exactAttempt (s : Store) (i : CallbackIntent η) (runId : RunId)
    (payload : CallbackPayload η) : Except StoreError (CallbackPayload η) := do
  let attemptNumber := s.callbackAttemptNumber runId
  require (attemptIsExact attemptNumber i.attemptNumber payload.attemptNumber)
    (.callbackIntentGenerationConflict "Callback intent attempt identity is not exact")
  .ok (if 0 < attemptNumber then payload else { payload with attemptNumber := .null })

/-- Only a terminal callback carries a result. -/
def resultPayload (s : Store) (H : Digests η) (i : CallbackIntent η) (name : CallbackName η)
    (runId : RunId) (r : Run) (payload : CallbackPayload η) :
    Except StoreError (CallbackPayload η) :=
  if name.isTerminal then s.exactResult H i name runId r payload
  else do
    require (i.resultRevision.absent && !i.resultRevision.isBool &&
        payload.resultRevision.absent && !payload.resultRevision.isBool &&
        i.resultDigest == .empty && payload.resultDigest == .empty)
      (.valueError "Only canonical terminal callbacks may carry a result revision")
    .ok payload

/-- The `exact_fields` of a payload and its timestamp. -/
def exactFields (i : CallbackIntent η) (name : CallbackName η) (workerId : WorkerId)
    (runId : RunId) (payload : CallbackPayload η) : Except StoreError (CallbackPayload η) := do
  require (payload.callbackId.all (· == name))
    (.valueError "Callback intent callback_id is not exact")
  require (payload.event == "" || payload.event == i.eventType)
    (.valueError "Callback intent event is not exact")
  require (payload.workerId.all (· == workerId))
    (.valueError "Callback intent worker_id is not exact")
  require (payload.runId.all (· == runId)) (.valueError "Callback intent run_id is not exact")
  require (payload.callbackTs.any (0 < ·))
    (.valueError "Callback intent requires a stable callback timestamp")
  .ok { payload with
    callbackId := some name, event := i.eventType, workerId := some workerId,
    runId := some runId }

/-- `_prepare_callback_intent_conn` for a callback of a run. -/
def prepareRunCallback (s : Store) (H : Digests η) (i : CallbackIntent η) (name : CallbackName η)
    (workerId : WorkerId) (runId : RunId) : Except StoreError (PreparedIntent η) :=
  match s.runs.get? runId with
  | none => .error (.valueError "Callback intent run association is not exact")
  | some r => do
    require (r.workerId == workerId && r.projectId == i.projectId && r.tenantId == i.tenantId)
      (.valueError "Callback intent run association is not exact")
    let payload ← i.payload.toObject
    let payload ← s.exactAttempt i runId payload
    let payload ← s.resultPayload H i name runId r payload
    exactRunInput H i runId r payload
    let payload ← exactFields i name workerId runId payload
    let payload ← s.exactDelegation i workerId payload
    .ok
      { callbackId := name
        projectId := i.projectId
        workerId := workerId
        tenantId := i.tenantId
        runId := some runId
        attemptNumber := s.callbackAttemptNumber runId
        eventType := i.eventType
        url := i.url
        payload := payload
        resultRevision := if name.isTerminal then r.terminalResultRevision else 0
        resultDigest := i.resultDigest }

/-- `_prepare_callback_intent_conn`. -/
def prepareCallbackIntent (s : Store) (H : Digests η) (i : CallbackIntent η) :
    Except StoreError (PreparedIntent η) :=
  match i.callbackId, i.workerId with
  | none, _ => .error (.valueError "Callback intent requires a deterministic identity")
  | some _, none =>
    .error (.valueError "Callback intent requires exact worker and event identity")
  | some name, some workerId =>
    if i.eventType == "" then
      .error (.valueError "Callback intent requires exact worker and event identity")
    else
      match i.runId with
      | none => s.prepareWorkerCallback i name workerId
      | some runId => s.prepareRunCallback H i name workerId runId

end Store

/-- `_strictly_after`. -/
def strictlyAfter (value floor : Time) : Time :=
  if value ≤ floor then floor + 1 else value

/-- `created_at` of a new callback: after the end of its run. -/
def Store.callbackCreatedAt (s : Store) (now : Time) (runId : Option RunId) : Time :=
  ((runId.bind s.runs.get?).bind Run.endedAt).elim now (strictlyAfter now)

/-- The row of a new callback. -/
def PreparedIntent.row {η : Type} (p : PreparedIntent η) (createdAt : Time) : Callback η where
  projectId := p.projectId
  workerId := p.workerId
  tenantId := p.tenantId
  runId := p.runId
  attemptNumber := p.attemptNumber
  eventType := p.eventType
  url := p.url
  payload := p.payload
  resultRevision := p.resultRevision
  resultDigest := p.resultDigest
  status := .pending
  attempts := 0
  lastError := ""
  createdAt := createdAt
  updatedAt := createdAt
  deliveredAt := none
  httpAcceptedAt := none
  deliveryLeaseToken := none
  deliveryGeneration := 0
  deliveryLeaseExpiresAt := none

/-- The columns of `immutable_identity` agree. -/
def Callback.sameIdentity {η : Type} [DecidableEq η] (c c' : Callback η) : Bool :=
  c.projectId == c'.projectId && c.workerId == c'.workerId && c.tenantId == c'.tenantId &&
    c.runId == c'.runId && c.attemptNumber == c'.attemptNumber && c.eventType == c'.eventType &&
    c.url == c'.url && c.payload == c'.payload && c.resultRevision == c'.resultRevision &&
    c.resultDigest == c'.resultDigest

namespace DeliveryStore

variable {η : Type} [DecidableEq η]

/-- `INSERT OR IGNORE INTO callback_outbox`, with its trigger. A row that would refer to no worker
or no project aborts the statement. -/
def insertOutbox (H : Digests η) (d : DeliveryStore η) (name : CallbackName η) (c : Callback η) :
    Except StoreError (DeliveryStore η) :=
  match d.outbox.insert? name c with
  | none => .ok d
  | some outbox =>
    if (d.store.workers.get? c.workerId).isNone || (d.store.projects.get? c.projectId).isNone then
      .error (.integrity "FOREIGN KEY constraint failed")
    else ({ d with outbox := outbox }).traceOutbox H true name c

/-- `_insert_callback_intent_conn`. -/
def insertCallbackIntent (H : Digests η) (d : DeliveryStore η) (now : Time)
    (i : CallbackIntent η) : Except StoreError (DeliveryStore η × Option (Callback η)) := do
  let p ← d.store.prepareCallbackIntent H i
  let data := p.row (d.store.callbackCreatedAt now p.runId)
  let d ← d.insertOutbox H p.callbackId data
  match d.outbox.get? p.callbackId with
  | none => .error (.runtimeError "Callback intent did not persist")
  | some c => do
    require (c.sameIdentity data) (.runtimeError "Callback identity collision")
    let d ← d.appendCallbackTrace p.callbackId
    .ok (d, some c)

end DeliveryStore

end GlassHive
