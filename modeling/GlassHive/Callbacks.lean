import GlassHive.Results
import GlassHive.Traces
import Mathlib.Data.Rat.Init

/-!
# The callback outbox and its ledger

A callback is one row of `callback_outbox`. Triggers copy every change of a run's callback into
`callback_trace_events`, an append-only ledger that chains the callbacks of one run. The trigger
bodies are those that `reconcile_stale_triggers` leaves when the store is opened: a callback without
a run has no ledger.

The digests of the code are parameters. An identity behind a digest is a constructor that carries
the digest.
-/

namespace GlassHive

open Relational

/-! ## Identities and digests -/

/-- `callback_outbox.callback_id`: a digest behind `cb_terminal_`, another text behind that prefix,
the effect of a lifecycle operation behind `cb_effect_`, or another text. -/
inductive CallbackName (η : Type)
  | terminal (sha : η)
  | terminalText (rest : String)
  | effect (key : LifecycleKey)
  | text (s : String)
  deriving DecidableEq

/-- The callback identity starts with `cb_terminal_`. -/
def CallbackName.isTerminal {η : Type} : CallbackName η → Bool
  | .terminal _ | .terminalText _ => true
  | .effect _ | .text _ => false

/-- The text of a digest: empty, a digest behind the prefix of its column, or another text. -/
inductive DigestText (η : Type)
  | empty
  | sha256 (sha : η)
  | text (s : String)
  deriving DecidableEq

/-- `text.startswith(start)`. -/
def startsWith (text start : String) : Bool :=
  start.toList.isPrefixOf text.toList

/-- A result digest starts with `sha256:`. -/
def DigestText.isSha256 {η : Type} : DigestText η → Bool
  | .empty => false
  | .sha256 _ => true
  | .text s => startsWith s "sha256:"

/-- `callback_outbox.status`. -/
inductive CallbackStatus
  | pending | delivering | httpAccepted | superseded | deadLettered
  deriving DecidableEq, Repr

/-- What `_terminal_callback_id` digests. -/
structure TerminalIdentity (η : Type) where
  runId : RunId
  state : RunState
  endedAt : Time
  attemptNumber : ℕ
  resultRevision : ℕ
  resultDigest : DigestText η
  deriving DecidableEq

/-- A value where the code expects an integer; a float is one that equals an integer. -/
inductive JsonInt
  | null
  | int (n : ℤ)
  | bool (b : Bool)
  | float (n : ℤ)
  | other
  deriving DecidableEq, Repr

namespace JsonInt

/-- The value equals `n`, as Python compares them. -/
def eqInt : JsonInt → ℤ → Bool
  | .int m, n | .float m, n => m == n
  | .bool b, n => (if b then 1 else 0) == n
  | .null, _ | .other, _ => false

/-- The value is in `(None, 0)`. -/
def absent (v : JsonInt) : Bool :=
  v == .null || v.eqInt 0

/-- The value is a boolean. -/
def isBool : JsonInt → Bool
  | .bool _ => true
  | .null | .int _ | .float _ | .other => false

end JsonInt

/-- The fields of a callback payload that the store reads or sets; `rest` is what it passes on.
An absent or empty text is `none`, and so is a timestamp that is not a finite number. -/
structure CallbackPayload (η : Type) where
  callbackId : Option (CallbackName η)
  event : String
  workerId : Option WorkerId
  runId : Option RunId
  attemptNumber : JsonInt
  resultState : Option RunState
  resultEndedAt : Option Time
  resultRevision : JsonInt
  resultDigest : DigestText η
  callbackTs : Option ℚ
  runInput : Option String
  originRef : Option String
  workRef : Option WorkRef
  rest : String
  deriving DecidableEq

/-- A row of `callback_outbox`. -/
structure Callback (η : Type) where
  projectId : ProjectId
  workerId : WorkerId
  tenantId : TenantId
  runId : Option RunId
  attemptNumber : ℕ
  eventType : String
  url : String
  payload : CallbackPayload η
  resultRevision : ℕ
  resultDigest : DigestText η
  status : CallbackStatus
  attempts : ℤ
  lastError : String
  createdAt : Time
  updatedAt : Time
  deliveredAt : Option Time
  httpAcceptedAt : Option Time
  deliveryLeaseToken : Option Token
  deliveryGeneration : ℕ
  deliveryLeaseExpiresAt : Option Time
  deriving DecidableEq

/-- `CALLBACK_TRACE_AUTHORITY_FIELDS`. -/
structure CallbackAuthority (η : Type) where
  callbackId : CallbackName η
  projectId : ProjectId
  workerId : WorkerId
  tenantId : TenantId
  runId : Option RunId
  attemptNumber : ℕ
  event : String
  url : String
  resultRevision : ℕ
  resultDigest : DigestText η
  deliveryLeaseToken : Option Token
  deliveryGeneration : ℕ
  deliveryLeaseExpiresAt : Option Time
  deriving DecidableEq

/-- The authority fields of a row. -/
def Callback.authority {η : Type} (name : CallbackName η) (c : Callback η) :
    CallbackAuthority η where
  callbackId := name
  projectId := c.projectId
  workerId := c.workerId
  tenantId := c.tenantId
  runId := c.runId
  attemptNumber := c.attemptNumber
  event := c.eventType
  url := c.url
  resultRevision := c.resultRevision
  resultDigest := c.resultDigest
  deliveryLeaseToken := c.deliveryLeaseToken
  deliveryGeneration := c.deliveryGeneration
  deliveryLeaseExpiresAt := c.deliveryLeaseExpiresAt

/-- The columns that `callback_outbox_authority_immutable` protects. -/
def Callback.sameAuthority {η : Type} [DecidableEq η] (c c' : Callback η) : Bool :=
  c.projectId == c'.projectId && c.workerId == c'.workerId && c.tenantId == c'.tenantId &&
    c.runId == c'.runId && c.attemptNumber == c'.attemptNumber && c.eventType == c'.eventType &&
    c.url == c'.url && c.resultRevision == c'.resultRevision &&
    c.resultDigest == c'.resultDigest && c.createdAt == c'.createdAt

/-- The callback `_callback_trace_event_sha256_values` digests. -/
structure LedgerMaterial (η : Type) where
  callbackId : CallbackName η
  callbackSequence : ℕ
  runSequence : ℕ
  snapshot : Callback η
  previousEventSha : Option η
  deriving DecidableEq

/-- The digests of the code, and the accepted input of a run in its canonical JSON, absent where
`accepted_run_input` refuses it. -/
structure Digests (η : Type) where
  result : TerminalResult → η
  terminalId : TerminalIdentity η → η
  name : CallbackName η → η
  payload : CallbackPayload η → η
  authority : CallbackAuthority η → η
  event : LedgerMaterial η → η
  acceptedRunInput : RunId → Run → Option String

/-- A row of `callback_trace_events`, keyed by its run and run sequence. The snapshot is the row of
the callback. -/
structure LedgerEvent (η : Type) where
  callbackId : CallbackName η
  callbackSequence : ℕ
  status : CallbackStatus
  snapshot : Callback η
  payloadSha : η
  authoritySha : η
  previousEventSha : Option η
  eventSha : η
  createdAt : Time
  deriving DecidableEq

/-- The bound of `GLASSHIVE_CALLBACK_DELIVERY_LEASE_S`. -/
structure DeliverySettings where
  leaseSeconds : ℕ
  lease_mem : 1 ≤ leaseSeconds ∧ leaseSeconds ≤ 24 * 60 * 60

/-- The default of the setting. -/
def DeliverySettings.default : DeliverySettings where
  leaseSeconds := 300
  lease_mem := by decide

/-- The database with its outbox. -/
structure DeliveryStore (η : Type) where
  store : Store
  settings : DeliverySettings
  outbox : Table (CallbackName η) (Callback η)
  ledger : Table (RunId × ℕ) (LedgerEvent η)

namespace DeliveryStore

variable {η : Type} [DecidableEq η]

/-! ## The ledger -/

/-- The last ledger event of a run. -/
def lastOfRun (ledger : Table (RunId × ℕ) (LedgerEvent η)) (runId : RunId) :
    Option ((RunId × ℕ) × LedgerEvent η) :=
  (ledger.select fun k _ => k.1 == runId).foldl (fun best e =>
    match best with
    | none => some e
    | some b => if b.1.2 < e.1.2 then some e else some b) none

/-- The last ledger event of a callback. -/
def lastOfCallback (ledger : Table (RunId × ℕ) (LedgerEvent η)) (name : CallbackName η) :
    Option ((RunId × ℕ) × LedgerEvent η) :=
  ledger.first (fun _ e => e.callbackId == name) fun e b =>
    decide (b.callbackSequence < e.callbackSequence)

/-- The next sequence number of a run. -/
def nextRunSequence (ledger : Table (RunId × ℕ) (LedgerEvent η)) (runId : RunId) : ℕ :=
  (ledger.select fun k _ => k.1 == runId).foldl (fun n e => max n e.1.2) 0 + 1

/-- The next sequence number of a callback. -/
def nextCallbackSequence (ledger : Table (RunId × ℕ) (LedgerEvent η)) (name : CallbackName η) : ℕ :=
  (ledger.select fun _ e => e.callbackId == name).foldl
    (fun n e => max n e.2.callbackSequence) 0 + 1

/-- The row that the trace triggers select for a callback of a run. -/
def ledgerRow (H : Digests η) (ledger : Table (RunId × ℕ) (LedgerEvent η)) (name : CallbackName η)
    (runId : RunId) (c : Callback η) : LedgerEvent η :=
  let material : LedgerMaterial η :=
    { callbackId := name
      callbackSequence := nextCallbackSequence ledger name
      runSequence := nextRunSequence ledger runId
      snapshot := c
      previousEventSha := (lastOfRun ledger runId).map fun e => e.2.eventSha }
  { callbackId := name
    callbackSequence := material.callbackSequence
    status := c.status
    snapshot := c
    payloadSha := H.payload c.payload
    authoritySha := H.authority (c.authority name)
    previousEventSha := material.previousEventSha
    eventSha := H.event material
    createdAt := c.updatedAt }

/-- `INSERT INTO callback_trace_events`: the run is there, and neither sequence number is taken.
Under an outer `OR IGNORE` a row that violates a `NOT NULL` or a `UNIQUE` is left out. -/
def insertLedger (H : Digests η) (d : DeliveryStore η) (orIgnore : Bool) (name : CallbackName η)
    (c : Callback η) : Except StoreError (DeliveryStore η) :=
  match c.runId with
  | none =>
    if orIgnore then .ok d
    else .error (.integrity "NOT NULL constraint failed: callback_trace_events.run_id")
  | some runId =>
    let row := ledgerRow H d.ledger name runId c
    if d.ledger.any fun _ e =>
        e.callbackId == name && e.callbackSequence == row.callbackSequence then
      if orIgnore then .ok d
      else .error (.integrity ("UNIQUE constraint failed: callback_trace_events.callback_id, " ++
        "callback_trace_events.callback_sequence"))
    else match d.ledger.insert? (runId, nextRunSequence d.ledger runId) row with
    | none =>
      if orIgnore then .ok d
      else .error (.integrity ("UNIQUE constraint failed: callback_trace_events.run_id, " ++
        "callback_trace_events.run_sequence"))
    | some ledger =>
      if (d.store.runs.get? runId).isNone || (d.outbox.get? name).isNone then
        .error (.integrity "FOREIGN KEY constraint failed")
      else .ok { d with ledger := ledger }

/-- `callback_outbox_trace_insert` and `callback_outbox_trace_update`, guarded by
`NEW.run_id IS NOT NULL AND NEW.run_id <> ''`. -/
def traceOutbox (H : Digests η) (d : DeliveryStore η) (orIgnore : Bool) (name : CallbackName η)
    (c : Callback η) : Except StoreError (DeliveryStore η) :=
  if c.runId.isNone then .ok d else d.insertLedger H orIgnore name c

/-- `UPDATE callback_outbox` of one row, with its triggers. -/
def updateCallback (H : Digests η) (d : DeliveryStore η) (name : CallbackName η)
    (f : Callback η → Callback η) : Except StoreError (DeliveryStore η) :=
  match d.outbox.get? name with
  | none => .ok d
  | some c =>
    if !c.sameAuthority (f c) then .error (.integrity "callback authority is immutable")
    else ({ d with outbox := d.outbox.update (fun k _ => k == name) fun _ => f }).traceOutbox H
      false name (f c)

/-- `_append_callback_trace_conn`. -/
def appendCallbackTrace (d : DeliveryStore η) (name : CallbackName η) :
    Except StoreError (DeliveryStore η) :=
  match (d.outbox.get? name).bind fun c => c.runId.map fun runId => (c, runId) with
  | none => .ok d
  | some (c, runId) =>
    match d.store.workTraceScope runId with
    | none => .ok d
    | some workRef =>
      match lastOfCallback d.ledger name with
      | none => .error (.runtimeError "Callback mutation has no immutable trace event")
      | some (k, _) =>
        .ok { d with store := { d.store with
          workTrace := Store.appendWorkTraceEvent d.store.workTrace runId workRef (.callback k.2)
            c.updatedAt } }

/-! ## What the statements do -/

section Rules

variable {H : Digests η} {d : DeliveryStore η} {name : CallbackName η} {c : Callback η}
  {f : Callback η → Callback η}

omit [DecidableEq η] in
theorem get?_nextRunSequence (ledger : Table (RunId × ℕ) (LedgerEvent η)) (runId : RunId) :
    ledger.get? (runId, nextRunSequence ledger runId) = none := by
  by_contra hsome
  obtain ⟨e, he⟩ := Option.ne_none_iff_exists'.mp hsome
  have hmem : ((runId, nextRunSequence ledger runId), e) ∈ ledger.select fun k _ => k.1 == runId :=
    Table.mem_select.mpr ⟨he, by simp⟩
  have hle := le_foldl_max (fun e : (RunId × ℕ) × LedgerEvent η => e.1.2) 0 hmem
  rw [nextRunSequence] at hle
  dsimp only at hle
  omega

theorem callbackSequence_lt_next {ledger : Table (RunId × ℕ) (LedgerEvent η)} {k : RunId × ℕ}
    {e : LedgerEvent η} (he : ledger.get? k = some e) (hname : e.callbackId = name) :
    e.callbackSequence < nextCallbackSequence ledger name := by
  have hmem : (k, e) ∈ ledger.select fun _ e => e.callbackId == name :=
    Table.mem_select.mpr ⟨he, by simpa using hname⟩
  have hle := le_foldl_max (fun e : (RunId × ℕ) × LedgerEvent η => e.2.callbackSequence) 0 hmem
  rw [nextCallbackSequence]
  dsimp only at hle
  omega

/-- The ledger once a callback was recorded. -/
def record (H : Digests η) (ledger : Table (RunId × ℕ) (LedgerEvent η)) (name : CallbackName η)
    (c : Callback η) : Table (RunId × ℕ) (LedgerEvent η) :=
  match c.runId with
  | none => ledger
  | some runId =>
    (ledger.insert? (runId, nextRunSequence ledger runId)
      (ledgerRow H ledger name runId c)).getD ledger

/-- Some row that a recorded callback would refer to is missing. -/
def dangling (d : DeliveryStore η) (name : CallbackName η) (c : Callback η) : Bool :=
  c.runId.any fun runId => (d.store.runs.get? runId).isNone || (d.outbox.get? name).isNone

/-- The sequence numbers are new, so a trigger fails on a missing row only. -/
theorem traceOutbox_eq {orIgnore : Bool} : d.traceOutbox H orIgnore name c =
    if d.dangling name c then .error (.integrity "FOREIGN KEY constraint failed")
    else .ok { d with ledger := record H d.ledger name c } := by
  rw [traceOutbox, dangling, record]
  cases hrun : c.runId with
  | none => rfl
  | some runId =>
    simp only [Option.isNone_some, Bool.false_eq_true, if_false, insertLedger, hrun,
      Option.any_some]
    rw [if_neg]
    · obtain ⟨ledger, hins⟩ := Option.isSome_iff_exists.mp
        (Table.insert?_isSome.mpr (get?_nextRunSequence d.ledger runId) :
          (d.ledger.insert? _ (ledgerRow H d.ledger name runId c)).isSome = true)
      rw [hins]
      rfl
    · rw [Table.any_eq_true]
      rintro ⟨k, e, he, hp⟩
      simp only [Bool.and_eq_true, beq_iff_eq] at hp
      exact absurd hp.2 (callbackSequence_lt_next he hp.1).ne

/-- What an update of a stored callback that keeps its authority does. -/
theorem updateCallback_eq (hc : d.outbox.get? name = some c) (hsame : c.sameAuthority (f c) = true) :
    d.updateCallback H name f =
      if d.dangling name (f c) then .error (.integrity "FOREIGN KEY constraint failed")
      else .ok { d with
        outbox := d.outbox.update (fun k _ => k == name) fun _ => f
        ledger := record H d.ledger name (f c) } := by
  have hdangling : DeliveryStore.dangling
      { d with outbox := d.outbox.update (fun k _ => k == name) fun _ => f } name (f c) =
      d.dangling name (f c) := by
    simp [dangling, Table.get?_update, hc]
  rw [updateCallback, hc]
  simp only [hsame, Bool.not_true, Bool.false_eq_true, if_false]
  rw [traceOutbox_eq, hdangling]

/-- An update that commits changes the one row and records it. -/
theorem updateCallback_cases {d' : DeliveryStore η} (h : d.updateCallback H name f = .ok d') :
    d.outbox.get? name = none ∧ d' = d ∨
      ∃ c, d.outbox.get? name = some c ∧ c.sameAuthority (f c) = true ∧
        d.dangling name (f c) = false ∧
        d' = { d with
          outbox := d.outbox.update (fun k _ => k == name) fun _ => f
          ledger := record H d.ledger name (f c) } := by
  cases hc : d.outbox.get? name with
  | none =>
    rw [updateCallback, hc] at h
    exact Or.inl ⟨rfl, (Except.ok.inj h).symm⟩
  | some c =>
    cases hsame : c.sameAuthority (f c) with
    | false =>
      rw [updateCallback, hc] at h
      simp only [hsame, Bool.not_false, if_true] at h
      cases h
    | true =>
      rw [updateCallback_eq hc hsame] at h
      split at h
      · cases h
      · rename_i hdangling
        exact Or.inr ⟨c, rfl, hsame, Bool.eq_false_iff.mpr hdangling, (Except.ok.inj h).symm⟩

/-- A trace that commits changes the work trace of the store and nothing else. -/
theorem appendCallbackTrace_cases {d' : DeliveryStore η} (h : d.appendCallbackTrace name = .ok d') :
    d' = d ∨ ∃ c runId workRef k e, d.outbox.get? name = some c ∧ c.runId = some runId ∧
      d.store.workTraceScope runId = some workRef ∧ lastOfCallback d.ledger name = some (k, e) ∧
      d' = { d with store := { d.store with
        workTrace := Store.appendWorkTraceEvent d.store.workTrace runId workRef (.callback k.2)
          c.updatedAt } } := by
  rw [appendCallbackTrace] at h
  split at h
  · exact Or.inl (Except.ok.inj h).symm
  · rename_i c runId hrow
    obtain ⟨c', hc, hmap⟩ := Option.bind_eq_some_iff.mp hrow
    obtain ⟨runId', hrun, hpair⟩ := Option.map_eq_some_iff.mp hmap
    obtain ⟨rfl, rfl⟩ := Prod.mk.inj hpair
    split at h
    · exact Or.inl (Except.ok.inj h).symm
    · rename_i workRef hscope
      split at h
      · cases h
      · rename_i k e hlast
        exact Or.inr ⟨c', runId', workRef, k, e, hc, hrun, hscope, hlast, (Except.ok.inj h).symm⟩

/-- A recorded callback has its row under the next number of its run. -/
theorem get?_record {k : RunId × ℕ} : (record H d.ledger name c).get? k =
    match c.runId with
    | none => d.ledger.get? k
    | some runId =>
      if k = (runId, nextRunSequence d.ledger runId) then
        some (ledgerRow H d.ledger name runId c)
      else d.ledger.get? k := by
  rw [record]
  cases c.runId with
  | none => rfl
  | some runId =>
    obtain ⟨ledger, hins⟩ := Option.isSome_iff_exists.mp
      (Table.insert?_isSome.mpr (get?_nextRunSequence d.ledger runId) :
        (d.ledger.insert? _ (ledgerRow H d.ledger name runId c)).isSome = true)
    dsimp only
    rw [hins, Option.getD_some]
    exact Table.get?_insert hins k

end Rules

end DeliveryStore

end GlassHive
