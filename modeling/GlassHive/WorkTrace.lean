import GlassHive.Library.HashChain
import GlassHive.Library.Hex
import GlassHive.Library.Joined
import GlassHive.Library.Windows
import Mathlib.Data.List.Sort

/-!
# The trace of a delegated run

Everything that is observed of a run is appended to its trace, and every change of a callback to the
ledger of its callbacks; both are hash chains. The detail of the work reads them back: it verifies
the chains, and shows the histories page by page, from their ends. The cursor of the next page pins
how much of the chains the first page has seen.
-/

namespace GlassHive.WorkTrace

/-! ## Rows -/

/-- The payload of `lifecycle.attempt`. -/
structure AttemptPayload where
  attemptRef : Text
  attemptNumber : ℕ
  state : Text
  claimedAt : Option Text
  admittedAt : Option Text
  runtimeInvokedAt : Option Text
  endedAt : Option Text
  terminalReason : Option Text
  providerHealthObservedLastFailedAt : Option Text
  providerHealthObservedGeneration : Option ℕ
  leaseRef : Option Text
  deriving DecidableEq

structure Origin where
  originRef : Text
  sourceEventRef : Text
  sourceRevision : ℕ
  surface : Text
  deriving DecidableEq

/-- The values of a row of `callback_outbox` that its ledger keeps. -/
structure CallbackSnapshot where
  callbackId : Text
  projectId : Text
  workerId : Text
  tenantId : Text
  runId : Text
  attemptNumber : ℕ
  event : Text
  url : Text
  payloadJson : Text
  resultRevision : ℕ
  resultDigest : Text
  status : Text
  attempts : ℕ
  lastError : Text
  createdAt : Text
  updatedAt : Text
  deliveredAt : Option Text
  httpAcceptedAt : Text
  deliveryLeaseToken : Text
  deliveryGeneration : ℕ
  deliveryLeaseExpiresAt : Option Text
  deriving DecidableEq

/-- A delivery of a callback as the trace and the pages show it. -/
structure CallbackEntry where
  callbackRef : Text
  callbackRevision : ℕ
  ledgerSequence : ℕ
  previousEventSha256 : Option Text
  eventSha256 : Text
  attemptNumber : Option ℕ
  event : Text
  status : Text
  attempts : ℕ
  createdAt : Text
  updatedAt : Text
  acceptedAt : Option Text
  payloadSha256 : Text
  resultRevision : ℕ
  resultDigest : Option Text
  deliveryGeneration : ℕ
  authoritySha256 : Text
  deriving DecidableEq

/-- An event of the trace. The payloads that the pages pass on as they are stay what they are. -/
inductive TraceEvent (π : Type)
  | origin (traceContractVersion : ℕ) (origin : Option Origin) (promptLayers : Option π)
  | continuityProjected (payload : π)
  | providerInvoked (payload : π)
  | runtimeInvoked (payload : π)
  | authorizationPreflight (payload : π)
  | attempt (payload : AttemptPayload)
  | capacity (payload : π)
  | callback (payload : CallbackEntry)
  | artifact (artifactRefs : π) (observedAt : Text) (terminal : Bool)
  | other (eventType : Text) (payload : π)

/-- The names of trace events, by their beginnings. -/
inductive TraceEventId
  | attempt (digest : Text)
  | capacity (digest : Text)
  | callback (eventSha256 : Text)
  | other (name : Text)
  deriving DecidableEq

/-- A row of `work_trace_events`. -/
structure TraceRow (π : Type) where
  traceEventId : TraceEventId
  runId : Text
  workRef : Text
  tenantId : Text
  ownerId : Text
  sequence : ℕ
  event : TraceEvent π
  previousEventSha256 : Text
  eventSha256 : Text
  createdAt : Text

/-- A row of `callback_trace_events`. -/
structure LedgerRow where
  callbackId : Text
  runId : Text
  callbackSequence : ℕ
  runSequence : ℕ
  status : Text
  snapshot : CallbackSnapshot
  payloadSha256 : Text
  authoritySha256 : Text
  previousEventSha256 : Text
  eventSha256 : Text
  deriving DecidableEq

/-- The digests that the store computes, as hexadecimal texts. -/
structure Digests (π : Type) where
  text : Text → Text
  attemptIdentity : AttemptPayload → Text
  traceEvent : TraceEventId → Text → Text → ℕ → TraceEvent π → Text → Text → Text
  callbackEvent : Text → ℕ → ℕ → CallbackSnapshot → Text → Text
  authority : CallbackSnapshot → Text

/-- What the store has of one delegated run: the scope of its worker, its trace and its ledger in
the order of their sequences, and the rows of its attempts, observations of capacity and
callbacks. -/
structure WorkStore (π : Type) where
  runId : Text
  workRef : Text
  tenantId : Text
  ownerId : Text
  trace : List (TraceRow π) := []
  ledger : List LedgerRow := []
  attemptIds : List Text := []
  capacityIds : List Text := []
  callbackIds : List Text := []

variable {π : Type} (d : Digests π)

def Digests.traceSha (r : TraceRow π) : Text :=
  d.traceEvent r.traceEventId r.runId r.workRef r.sequence r.event r.previousEventSha256 r.createdAt

def Digests.ledgerSha (r : LedgerRow) : Text :=
  d.callbackEvent r.callbackId r.callbackSequence r.runSequence r.snapshot r.previousEventSha256

def Digests.attemptRef (attemptId : Text) : Text :=
  "attempt_sha256:".toList ++ d.text attemptId

def Digests.callbackRef (callbackId : Text) : Text :=
  "callback_sha256:".toList ++ d.text callbackId

def sha256 (digest : Text) : Text :=
  "sha256:".toList ++ digest

/-- `MAX(sequence) + 1`, from one on. -/
def nextSequence (sequences : List ℕ) : ℕ :=
  sequences.foldl max 0 + 1

def noneIfEmpty (text : Text) : Option Text :=
  if text = [] then none else some text

/-! ## Writes -/

/-- Nothing is appended under a name that is there already. -/
def appendWorkTraceEvent (s : WorkStore π) (traceEventId : TraceEventId) (event : TraceEvent π)
    (createdAt : Text) : WorkStore π :=
  if s.trace.any (·.traceEventId = traceEventId) then s
  else
    let row : TraceRow π :=
      { traceEventId
        runId := s.runId
        workRef := s.workRef
        tenantId := s.tenantId
        ownerId := s.ownerId
        sequence := nextSequence (s.trace.map (·.sequence))
        event
        previousEventSha256 := (s.trace.getLast?.map (·.eventSha256)).getD []
        eventSha256 := []
        createdAt }
    { s with trace := s.trace ++ [{ row with eventSha256 := d.traceSha row }] }

/-- A row of `run_attempts`. -/
structure AttemptRow where
  attemptNumber : ℕ
  state : Text
  claimedAt : Text
  admittedAt : Text
  runtimeInvokedAt : Text
  endedAt : Text
  terminalReason : Text
  providerHealthObservedLastFailedAt : Text
  providerHealthObservedGeneration : Option ℕ
  leaseId : Text

def attemptPayload (attemptId : Text) (a : AttemptRow) : AttemptPayload where
  attemptRef := d.attemptRef attemptId
  attemptNumber := a.attemptNumber
  state := a.state
  claimedAt := noneIfEmpty a.claimedAt
  admittedAt := noneIfEmpty a.admittedAt
  runtimeInvokedAt := noneIfEmpty a.runtimeInvokedAt
  endedAt := noneIfEmpty a.endedAt
  terminalReason := noneIfEmpty a.terminalReason
  providerHealthObservedLastFailedAt := noneIfEmpty a.providerHealthObservedLastFailedAt
  providerHealthObservedGeneration := a.providerHealthObservedGeneration
  leaseRef :=
    if a.leaseId = [] then none else some ("lease_sha256:".toList ++ d.text a.leaseId)

/-- An attempt is created or changed, and the change is traced. -/
def writeAttempt (s : WorkStore π) (attemptId : Text) (a : AttemptRow) (createdAt : Text) :
    WorkStore π :=
  let payload := attemptPayload d attemptId a
  appendWorkTraceEvent d
    { s with attemptIds := s.attemptIds ++ if attemptId ∈ s.attemptIds then [] else [attemptId] }
    (.attempt (d.attemptIdentity payload)) (.attempt payload) createdAt

/-- An observation of capacity is put down under a new name, and traced. -/
def writeCapacity (s : WorkStore π) (capacityAttemptId : Text) (payload : π) (observedAt : Text) :
    WorkStore π :=
  if capacityAttemptId ∈ s.capacityIds then s
  else
    appendWorkTraceEvent d { s with capacityIds := s.capacityIds ++ [capacityAttemptId] }
      (.capacity (d.text capacityAttemptId)) (.capacity payload) observedAt

/-- The row that the triggers of `callback_outbox` append to the ledger. -/
def ledgerRow (s : WorkStore π) (snapshot : CallbackSnapshot) : LedgerRow :=
  let row : LedgerRow :=
    { callbackId := snapshot.callbackId
      runId := snapshot.runId
      callbackSequence := nextSequence
        ((s.ledger.filter (·.callbackId = snapshot.callbackId)).map (·.callbackSequence))
      runSequence := nextSequence (s.ledger.map (·.runSequence))
      status := snapshot.status
      snapshot
      payloadSha256 := sha256 (d.text snapshot.payloadJson)
      authoritySha256 := sha256 (d.authority snapshot)
      previousEventSha256 := (s.ledger.getLast?.map (·.eventSha256)).getD []
      eventSha256 := [] }
  { row with eventSha256 := d.ledgerSha row }

def callbackEntry (r : LedgerRow) : CallbackEntry where
  callbackRef := d.callbackRef r.snapshot.callbackId
  callbackRevision := r.callbackSequence
  ledgerSequence := r.runSequence
  previousEventSha256 := (noneIfEmpty r.previousEventSha256).map sha256
  eventSha256 := sha256 r.eventSha256
  attemptNumber := if 0 < r.snapshot.attemptNumber then some r.snapshot.attemptNumber else none
  event := r.snapshot.event
  status := r.snapshot.status
  attempts := r.snapshot.attempts
  createdAt := r.snapshot.createdAt
  updatedAt := r.snapshot.updatedAt
  acceptedAt := noneIfEmpty r.snapshot.httpAcceptedAt
  payloadSha256 := r.payloadSha256
  resultRevision := r.snapshot.resultRevision
  resultDigest := noneIfEmpty r.snapshot.resultDigest
  deliveryGeneration := r.snapshot.deliveryGeneration
  authoritySha256 := r.authoritySha256

/-- A callback of the run is created or changed: the ledger has a new row, which is traced. -/
def writeCallback (s : WorkStore π) (snapshot : CallbackSnapshot) : WorkStore π :=
  if snapshot.runId ≠ s.runId then s
  else
    let row := ledgerRow d s snapshot
    appendWorkTraceEvent d
      { s with
        ledger := s.ledger ++ [row]
        callbackIds := s.callbackIds ++
          if snapshot.callbackId ∈ s.callbackIds then [] else [snapshot.callbackId] }
      (.callback row.eventSha256) (.callback (callbackEntry d row)) snapshot.updatedAt

inductive TraceWrite (π : Type)
  | attempt (attemptId : Text) (a : AttemptRow) (createdAt : Text)
  | capacity (capacityAttemptId : Text) (payload : π) (observedAt : Text)
  | callback (snapshot : CallbackSnapshot)
  | artifact (name : Text) (artifactRefs : π) (observedAt : Text) (terminal : Bool)
  | continuityProjected (name : Text) (payload : π) (createdAt : Text)
  | providerInvoked (name : Text) (payload : π) (createdAt : Text)
  | runtimeInvoked (name : Text) (payload : π) (createdAt : Text)
  | authorizationPreflight (name : Text) (payload : π) (createdAt : Text)

def write (s : WorkStore π) : TraceWrite π → WorkStore π
  | .attempt attemptId a createdAt => writeAttempt d s attemptId a createdAt
  | .capacity capacityAttemptId payload observedAt =>
    writeCapacity d s capacityAttemptId payload observedAt
  | .callback snapshot => writeCallback d s snapshot
  | .artifact name artifactRefs observedAt terminal =>
    appendWorkTraceEvent d s (.other name) (.artifact artifactRefs observedAt terminal) observedAt
  | .continuityProjected name payload createdAt =>
    appendWorkTraceEvent d s (.other name) (.continuityProjected payload) createdAt
  | .providerInvoked name payload createdAt =>
    appendWorkTraceEvent d s (.other name) (.providerInvoked payload) createdAt
  | .runtimeInvoked name payload createdAt =>
    appendWorkTraceEvent d s (.other name) (.runtimeInvoked payload) createdAt
  | .authorizationPreflight name payload createdAt =>
    appendWorkTraceEvent d s (.other name) (.authorizationPreflight payload) createdAt

/-- A run that is delegated begins with its origin. -/
def delegated (runId workRef tenantId ownerId name : Text) (traceContractVersion : ℕ)
    (origin : Option Origin) (promptLayers : Option π) (createdAt : Text) : WorkStore π :=
  appendWorkTraceEvent d { runId, workRef, tenantId, ownerId } (.other name)
    (.origin traceContractVersion origin promptLayers) createdAt

/-! ## Cursors -/

inductive DetailError
  | cursorInvalid
  | traceIntegrity
  | callbackIntegrity
  | coverage
  deriving DecidableEq

def DetailError.message : DetailError → String
  | .cursorInvalid => "Work history cursor is invalid"
  | .traceIntegrity => "Work trace integrity check failed"
  | .callbackIntegrity => "Callback trace integrity check failed"
  | .coverage => "Work trace lifecycle coverage check failed"

structure HistoryCursor where
  traceHead : Text
  traceCount : ℕ
  callbackHead : Text
  callbackCount : ℕ
  attemptCount : ℕ
  capacityCount : ℕ
  artifactCount : ℕ
  offset : ℕ
  deriving DecidableEq

def HistoryCursor.render (c : HistoryCursor) : Text :=
  ['_'].intercalate
    ["history".toList, c.traceHead, Hex.render c.traceCount, c.callbackHead,
      Hex.render c.callbackCount, Hex.render c.attemptCount, Hex.render c.capacityCount,
      Hex.render c.artifactCount, Hex.render c.offset]

/-- `[0-9a-f]{64}` -/
def isSha (t : Text) : Bool :=
  t.length = 64 && t.all Hex.isDigit

/-- `[0-9a-f]{1,8}` -/
def isCount (t : Text) : Bool :=
  1 ≤ t.length && t.length ≤ 8 && t.all Hex.isDigit

/-- The groups of the expression for cursors have no underscores. -/
def HistoryCursor.parse (t : Text) : Option HistoryCursor :=
  match List.splitOn '_' t with
  | [tag, traceHead, traceCount, callbackHead, callbackCount, attemptCount, capacityCount,
      artifactCount, offset] =>
    if tag = "history".toList ∧ isSha traceHead ∧ isCount traceCount ∧ isSha callbackHead ∧
        isCount callbackCount ∧ isCount attemptCount ∧ isCount capacityCount ∧
        isCount artifactCount ∧ isCount offset then
      some
        { traceHead
          traceCount := Hex.parse traceCount
          callbackHead
          callbackCount := Hex.parse callbackCount
          attemptCount := Hex.parse attemptCount
          capacityCount := Hex.parse capacityCount
          artifactCount := Hex.parse artifactCount
          offset := Hex.parse offset }
    else none
  | _ => none

/-- The cursor of a request; an empty text is none. -/
def readCursor : Option Text → Except DetailError (Option HistoryCursor)
  | none => .ok none
  | some [] => .ok none
  | some t =>
    match HistoryCursor.parse t with
    | some c => .ok (some c)
    | none => .error .cursorInvalid

/-! ## Reading the chains -/

/-- An attempt as the pages show it. -/
structure AttemptProjection where
  attemptNumber : ℕ
  state : Text
  claimedAt : Option Text
  admittedAt : Option Text
  runtimeInvokedAt : Option Text
  endedAt : Option Text
  terminalReason : Option Text
  providerHealthObservedLastFailedAt : Option Text
  providerHealthObservedGeneration : Option ℕ
  deriving DecidableEq

def attemptProjection (p : AttemptPayload) : AttemptProjection where
  attemptNumber := p.attemptNumber
  state := if p.state = "interrupted".toList then "cancelled".toList else p.state
  claimedAt := p.claimedAt
  admittedAt := p.admittedAt
  runtimeInvokedAt := p.runtimeInvokedAt
  endedAt := p.endedAt
  terminalReason := p.terminalReason
  providerHealthObservedLastFailedAt := p.providerHealthObservedLastFailedAt
  providerHealthObservedGeneration := p.providerHealthObservedGeneration

structure ArtifactEntry (π : Type) where
  artifactRefs : π
  observedAt : Text
  deriving DecidableEq

/-- What is read of the trace: that of its snapshot, and what there is of attempts, observations of
capacity and callbacks in all. -/
structure Collected (π : Type) where
  origin : Option Origin := none
  promptLayers : Option π := none
  traceContractVersion : ℕ := 1
  continuityProjections : List π := []
  providerAttempts : List π := []
  runtimeInvocations : List π := []
  authorizationPreflights : List π := []
  attemptsByRef : List (Text × AttemptProjection) := []
  allAttemptRefs : List Text := []
  capacityAttempts : List π := []
  allCapacityCount : ℕ := 0
  callbackRefs : List Text := []
  artifactHistory : List (ArtifactEntry π) := []

/-- Assignment under a key of a dictionary. -/
def assign {α : Type} (entries : List (Text × α)) (key : Text) (a : α) : List (Text × α) :=
  if entries.any (·.1 = key) then entries.map fun e => if e.1 = key then (key, a) else e
  else entries ++ [(key, a)]

def insertRef (refs : List Text) (ref : Text) : List Text :=
  if ref ∈ refs then refs else refs ++ [ref]

/-- What one event adds. -/
def collect (inSnapshot : Bool) (c : Collected π) : TraceEvent π → Collected π
  | .origin version origin promptLayers =>
    if inSnapshot then
      { c with
        traceContractVersion := if version = 2 then 2 else c.traceContractVersion
        origin := origin <|> c.origin
        promptLayers := promptLayers <|> c.promptLayers }
    else c
  | .continuityProjected payload =>
    if inSnapshot then { c with continuityProjections := c.continuityProjections ++ [payload] }
    else c
  | .providerInvoked payload =>
    if inSnapshot then { c with providerAttempts := c.providerAttempts ++ [payload] } else c
  | .runtimeInvoked payload =>
    if inSnapshot then { c with runtimeInvocations := c.runtimeInvocations ++ [payload] } else c
  | .authorizationPreflight payload =>
    if inSnapshot then
      { c with authorizationPreflights := c.authorizationPreflights ++ [payload] }
    else c
  | .attempt p =>
    { c with
      allAttemptRefs := insertRef c.allAttemptRefs p.attemptRef
      attemptsByRef :=
        if inSnapshot then assign c.attemptsByRef p.attemptRef (attemptProjection p)
        else c.attemptsByRef }
  | .capacity payload =>
    { c with
      allCapacityCount := c.allCapacityCount + 1
      capacityAttempts :=
        if inSnapshot then c.capacityAttempts ++ [payload] else c.capacityAttempts }
  | .callback p => { c with callbackRefs := insertRef c.callbackRefs p.callbackRef }
  | .artifact artifactRefs observedAt _ =>
    if inSnapshot then
      { c with artifactHistory := c.artifactHistory ++ [{ artifactRefs, observedAt }] }
    else c
  | .other _ _ => c

/-- References are digests under their tags. -/
def refsTagged : TraceEvent π → Bool
  | .attempt p => "attempt_sha256:".toList.isPrefixOf p.attemptRef
  | .callback p => "callback_sha256:".toList.isPrefixOf p.callbackRef
  | _ => true

/-- The events are read in order, each one once its row is verified. -/
def collectTrace (snapshotCount : ℕ) :
    ℕ → Text → Collected π → List (TraceRow π) → Except DetailError (Collected π)
  | _, _, c, [] => .ok c
  | index, previousSha, c, row :: rows =>
    if row.previousEventSha256 = previousSha ∧ row.eventSha256 = d.traceSha row ∧
        refsTagged row.event = true then
      collectTrace snapshotCount (index + 1) (d.traceSha row)
        (collect (index ≤ snapshotCount) c row.event) rows
    else .error .traceIntegrity

/-- `verified_callback_trace_snapshots`: the row under an index, after one with a digest, and the
sequences of the callbacks so far. -/
def verifyLedger (runId : Text) : ℕ → Text → (Text → ℕ) → List LedgerRow → Bool
  | _, _, _, [] => true
  | index, previousSha, sequences, row :: rows =>
    let sequence := sequences row.snapshot.callbackId + 1
    (row.runId = runId && row.snapshot.callbackId = row.callbackId && row.snapshot.runId = runId &&
      row.snapshot.status = row.status && row.callbackSequence = sequence &&
      row.runSequence = index && row.previousEventSha256 = previousSha &&
      row.eventSha256 = d.ledgerSha row &&
      row.payloadSha256 = sha256 (d.text row.snapshot.payloadJson) &&
      row.authoritySha256 = sha256 (d.authority row.snapshot)) &&
    verifyLedger runId (index + 1) (d.ledgerSha row)
      (Function.update sequences row.snapshot.callbackId sequence) rows

/-! ## Pages -/

structure Limits where
  attempt : ℤ
  capacity : ℤ
  callback : ℤ
  artifact : ℤ

def clamp (limit : ℤ) : ℕ :=
  (max 1 (min limit 50)).toNat

/-- How far to look back at most on a page. -/
def Limits.widest (l : Limits) : ℕ :=
  max (max (clamp l.attempt) (clamp l.capacity)) (max (clamp l.callback) (clamp l.artifact))

/-- The four histories of a snapshot. -/
structure History (π : Type) where
  attempts : List AttemptProjection
  capacityAttempts : List π
  callbacks : List CallbackEntry
  artifacts : List (ArtifactEntry π)

structure PublicOrigin where
  originRef : Option Text
  sourceEventRef : Option Text
  sourceRevision : ℕ
  surface : Text

structure Traceability (π : Type) where
  contractVersion : ℕ
  origin : PublicOrigin
  promptLayers : Option π
  providerAttempts : List π
  runtimeInvocations : List π
  authorizationPreflights : List π
  continuityProjections : List π
  eventCount : ℕ
  headSha256 : Text

structure Page (π : Type) where
  traceability : Traceability π
  attemptHistory : List AttemptProjection
  attemptHistoryOverflowCount : ℕ
  capacityAttempts : List π
  capacityAttemptOverflowCount : ℕ
  callbackDeliveries : List CallbackEntry
  callbackDeliveryOverflowCount : ℕ
  artifactHistory : List (ArtifactEntry π)
  artifactHistoryOverflowCount : ℕ
  artifactRefs : Option π
  cursor : Option Text
  nextCursor : Option Text
  limit : ℕ
  total : ℕ
  showing : ℕ
  overflowCount : ℕ

/-- How much of the chains a page sees, and the digests where it ends. -/
structure Snapshot where
  traceCount : ℕ
  traceHead : Text
  callbackCount : ℕ
  callbackHead : Text

def zeroHead : Text :=
  List.replicate 64 '0'

/-- The digest of the row with a number, counted from one. -/
def headAt (shas : List Text) (count : ℕ) : Text :=
  if count = 0 then zeroHead else (shas[count - 1]?).getD []

def snapshotOf (cursor : Option HistoryCursor) (traceShas ledgerShas : List Text) :
    Except DetailError Snapshot :=
  let traceCount := (cursor.map (·.traceCount)).getD traceShas.length
  let callbackCount := (cursor.map (·.callbackCount)).getD ledgerShas.length
  let traceHead := headAt traceShas traceCount
  let callbackHead := headAt ledgerShas callbackCount
  if traceCount < 1 ∨ traceShas.length < traceCount ∨ ledgerShas.length < callbackCount then
    .error .cursorInvalid
  else if cursor.any fun c => c.traceHead ≠ traceHead ∨ c.callbackHead ≠ callbackHead then
    .error .cursorInvalid
  else .ok { traceCount, traceHead, callbackCount, callbackHead }

def checkLedger (runId : Text) (ledger : List LedgerRow) : Except DetailError Unit :=
  if verifyLedger d runId 1 [] (fun _ => 0) ledger then .ok () else .error .callbackIntegrity

/-- The counts of a cursor are those of its snapshot. -/
def checkCounts (cursor : Option HistoryCursor) (c : Collected π) : Except DetailError Unit :=
  if cursor.any fun k => k.attemptCount ≠ c.attemptsByRef.length ∨
      k.capacityCount ≠ c.capacityAttempts.length ∨
        k.artifactCount ≠ c.artifactHistory.length then
    .error .cursorInvalid
  else .ok ()

/-- Everything that there are rows of is in the trace. -/
def checkCoverage (s : WorkStore π) (c : Collected π) : Except DetailError Unit :=
  if c.allAttemptRefs.length ≠ s.attemptIds.length ∨ c.allCapacityCount ≠ s.capacityIds.length ∨
      c.callbackRefs.length ≠ s.callbackIds.length then
    .error .coverage
  else .ok ()

def historyOf (c : Collected π) (callbacks : List CallbackEntry) : History π where
  attempts :=
    (c.attemptsByRef.map Prod.snd).insertionSort fun a b => a.attemptNumber ≤ b.attemptNumber
  capacityAttempts := c.capacityAttempts
  callbacks
  artifacts := c.artifactHistory

def publicOrigin (origin : Option Origin) : PublicOrigin where
  originRef := origin.bind fun o => noneIfEmpty o.originRef
  sourceEventRef := origin.bind fun o => noneIfEmpty o.sourceEventRef
  sourceRevision := (origin.map (·.sourceRevision)).getD 0
  surface := ((origin.map (·.surface)).bind noneIfEmpty).getD "web".toList

def traceability (snapshot : Snapshot) (c : Collected π) : Traceability π where
  contractVersion := c.traceContractVersion
  origin := publicOrigin c.origin
  promptLayers := c.promptLayers
  providerAttempts := if c.traceContractVersion = 2 then [] else c.providerAttempts
  runtimeInvocations := if c.traceContractVersion = 2 then c.runtimeInvocations else []
  authorizationPreflights := if c.traceContractVersion = 2 then c.authorizationPreflights else []
  continuityProjections := c.continuityProjections
  eventCount := snapshot.traceCount
  headSha256 := sha256 snapshot.traceHead

/-- Some list has entries before those that the page shows. -/
def hasOlder (h : History π) (l : Limits) (offset : ℕ) : Bool :=
  offset + clamp l.attempt < h.attempts.length ||
    offset + clamp l.capacity < h.capacityAttempts.length ||
      offset + clamp l.callback < h.callbacks.length ||
        offset + clamp l.artifact < h.artifacts.length

def nextCursor (snapshot : Snapshot) (h : History π) (l : Limits) (offset : ℕ) : HistoryCursor where
  traceHead := snapshot.traceHead
  traceCount := snapshot.traceCount
  callbackHead := snapshot.callbackHead
  callbackCount := snapshot.callbackCount
  attemptCount := h.attempts.length
  capacityCount := h.capacityAttempts.length
  artifactCount := h.artifacts.length
  offset := offset + l.widest

def pageOf (snapshot : Snapshot) (c : Collected π) (h : History π) (l : Limits)
    (cursor : Option Text) (offset : ℕ) : Page π :=
  let attempts := Windows.window h.attempts offset (clamp l.attempt)
  let capacity := Windows.window h.capacityAttempts offset (clamp l.capacity)
  let callbacks := Windows.window h.callbacks offset (clamp l.callback)
  let artifacts := Windows.window h.artifacts offset (clamp l.artifact)
  let total := h.attempts.length + h.capacityAttempts.length + h.callbacks.length +
    h.artifacts.length
  let showing := attempts.length + capacity.length + callbacks.length + artifacts.length
  { traceability := traceability snapshot c
    attemptHistory := attempts
    attemptHistoryOverflowCount := h.attempts.length - attempts.length
    capacityAttempts := capacity
    capacityAttemptOverflowCount := h.capacityAttempts.length - capacity.length
    callbackDeliveries := callbacks
    callbackDeliveryOverflowCount := h.callbacks.length - callbacks.length
    artifactHistory := artifacts
    artifactHistoryOverflowCount := h.artifacts.length - artifacts.length
    artifactRefs := h.artifacts.getLast?.map (·.artifactRefs)
    cursor
    nextCursor :=
      if hasOlder h l offset then some (nextCursor snapshot h l offset).render else none
    limit := l.widest
    total
    showing
    overflowCount := total - showing }

def workTraceDetail (s : WorkStore π) (tenantId ownerId : Text) (l : Limits)
    (historyCursor : Option Text) : Except DetailError (Option (Page π)) := do
  let cursor ← readCursor historyCursor
  if s.tenantId ≠ tenantId ∨ s.ownerId ≠ ownerId then return none
  let trace := s.trace.filter fun r => r.tenantId = tenantId ∧ r.ownerId = ownerId
  let snapshot ← snapshotOf cursor (trace.map (·.eventSha256)) (s.ledger.map (·.eventSha256))
  let c ← collectTrace d snapshot.traceCount 1 [] {} trace
  checkLedger d s.runId s.ledger
  checkCounts cursor c
  checkCoverage s c
  let h := historyOf c ((s.ledger.take snapshot.callbackCount).map (callbackEntry d))
  return some (pageOf snapshot c h l (historyCursor.filter (· ≠ []))
    ((cursor.map (·.offset)).getD 0))

end GlassHive.WorkTrace
