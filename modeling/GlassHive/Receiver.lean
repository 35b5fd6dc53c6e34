import GlassHive.Intents
import GlassHive.Library.Register

/-!
# The receiver of terminal results

`accept_terminal_callback_result` runs over the database of a receiver. It keeps one result for a
scope and a run, and accepts a delivered one when its revision is higher. The texts of a payload are
those that `strip` leaves.
-/

namespace GlassHive

open Relational

/-- A row of `terminal_callback_results`, under its scope and its run. -/
structure TerminalCallbackResult (η : Type) where
  callbackId : CallbackName η
  resultRevision : ℕ
  resultDigest : DigestText η
  payload : CallbackPayload η
  updatedAt : Time
  deriving DecidableEq

/-- `terminal_callback_result_attempts.status`. -/
inductive ReceiverStatus
  | accepted | superseded | idempotent | conflict
  deriving DecidableEq, Repr

/-- A row of `terminal_callback_result_attempts`. -/
structure TerminalResultAttempt (η : Type) where
  receiverScope : String
  runId : RunId
  callbackId : CallbackName η
  resultRevision : ℕ
  resultDigest : DigestText η
  status : ReceiverStatus
  currentResultRevision : ℕ
  currentResultDigest : DigestText η
  createdAt : Time
  deriving DecidableEq

/-- What `accept_terminal_callback_result` answers. -/
structure Receipt (η : Type) where
  httpStatus : ℕ
  callbackStatus : ReceiverStatus
  callbackId : CallbackName η
  runId : RunId
  resultRevision : ℕ
  resultDigest : DigestText η
  currentCallbackId : CallbackName η
  currentResultRevision : ℕ
  currentResultDigest : DigestText η
  deriving DecidableEq

/-- The database of a receiver. -/
structure ReceiverStore (η : Type) where
  results : Table (String × RunId) (TerminalCallbackResult η)
  attempts : List (TerminalResultAttempt η)

/-- A delivery of a payload, absent when it is no object. -/
structure ResultDelivery (η : Type) where
  now : Time
  receiverScope : String
  payload : Option (CallbackPayload η)

/-! ## The identity of a delivered result -/

/-- `re.fullmatch(r"sha256:[0-9a-f]{64}", text)`. -/
def DigestText.isExact {η : Type} : DigestText η → Bool
  | .sha256 _ => true
  | .empty | .text _ => false

/-- The result state that the receiver expects with an event. -/
def callbackTerminalState (eventType : String) : Option RunState :=
  [("run.completed", RunState.completed), ("run.failed", .failed), ("run.cancelled", .cancelled),
    ("run.interrupted", .cancelled)].lookup eventType

/-- The attempt number of a payload. -/
def receivedAttemptNumber : JsonInt → Except StoreError ℕ
  | .null => .ok 0
  | .int n =>
    if 0 < n then .ok n.toNat
    else .error (.valueError "Terminal callback attempt identity is invalid")
  | .bool _ | .float _ | .other =>
    .error (.valueError "Terminal callback attempt identity is invalid")

/-- The error of an identity that the receiver refuses. -/
def invalidResultIdentity : StoreError :=
  .valueError "Terminal callback result identity is invalid"

variable {η : Type} [DecidableEq η]

/-- The result identity that a payload carries. Its callback identity digests it. -/
def receivedIdentity (H : Digests η) (p : CallbackPayload η) :
    Except StoreError (TerminalIdentity η) := do
  let attemptNumber ← receivedAttemptNumber p.attemptNumber
  match p.runId, p.resultState, p.resultEndedAt, p.resultRevision with
  | some runId, some state, some endedAt, .int revision =>
    let i : TerminalIdentity η :=
      { runId := runId, state := state, endedAt := endedAt, attemptNumber := attemptNumber,
        resultRevision := revision.toNat, resultDigest := p.resultDigest }
    if oneOf state [.completed, .failed, .cancelled] &&
        callbackTerminalState p.event == some state && decide (1 ≤ revision) &&
        p.resultDigest.isExact && p.callbackId == some (.terminal (H.terminalId i)) then .ok i
    else .error invalidResultIdentity
  | _, _, _, _ => .error invalidResultIdentity

namespace ReceiverStore

/-- A new receiver. -/
def init : ReceiverStore η where
  results := .empty
  attempts := []

/-! ## Compare and set -/

/-- The row that an accepted result leaves. -/
def resultRow (H : Digests η) (now : Time) (p : CallbackPayload η) (i : TerminalIdentity η) :
    TerminalCallbackResult η where
  callbackId := .terminal (H.terminalId i)
  resultRevision := i.resultRevision
  resultDigest := i.resultDigest
  payload := p
  updatedAt := now

/-- The decision on a result, for the row that is stored. -/
def receiverStatus (current : Option (TerminalCallbackResult η)) (row : TerminalCallbackResult η) :
    ReceiverStatus :=
  match current with
  | none => .accepted
  | some c =>
    if c.resultRevision < row.resultRevision then .accepted
    else if row.resultRevision < c.resultRevision then .superseded
    else if row.callbackId == c.callbackId && row.resultDigest == c.resultDigest then .idempotent
    else .conflict

/-- `INSERT INTO terminal_callback_results ... ON CONFLICT DO UPDATE ... WHERE`. -/
def upsertResult (q : ReceiverStore η) (key : String × RunId) (row : TerminalCallbackResult η) :
    Table (String × RunId) (TerminalCallbackResult η) :=
  match q.results.insert? key row with
  | some results => results
  | none => q.results.update
      (fun k c => k == key && decide (c.resultRevision < row.resultRevision)) fun _ _ => row

/-- The transaction of `accept_terminal_callback_result`. -/
def compareAndSet (H : Digests η) (q : ReceiverStore η) (now : Time) (receiverScope : String)
    (p : CallbackPayload η) (i : TerminalIdentity η) :
    Except StoreError (ReceiverStore η × Receipt η) :=
  let key := (receiverScope, i.runId)
  let row := resultRow H now p i
  let status := receiverStatus (q.results.get? key) row
  let results := if status == .accepted then q.upsertResult key row else q.results
  match results.get? key with
  | none => .error (.runtimeError "Terminal callback receiver CAS did not persist")
  | some current => .ok
      ({ results := results
         attempts := q.attempts ++
          [{ receiverScope := receiverScope, runId := i.runId, callbackId := row.callbackId,
             resultRevision := row.resultRevision, resultDigest := row.resultDigest,
             status := status, currentResultRevision := current.resultRevision,
             currentResultDigest := current.resultDigest, createdAt := now }] },
       { httpStatus := if oneOf status [.accepted, .idempotent] then 200 else 409
         callbackStatus := status
         callbackId := row.callbackId
         runId := i.runId
         resultRevision := row.resultRevision
         resultDigest := row.resultDigest
         currentCallbackId := current.callbackId
         currentResultRevision := current.resultRevision
         currentResultDigest := current.resultDigest })

/-- A receiver takes a scope that is neither blank nor too long. -/
def scopeIsValid (receiverScope : String) : Bool :=
  receiverScope != "" && decide (receiverScope.length ≤ 256)

/-- `accept_terminal_callback_result`. -/
def acceptTerminalCallbackResult (H : Digests η) (q : ReceiverStore η) (now : Time)
    (receiverScope : String) (payload : Option (CallbackPayload η)) :
    Except StoreError (ReceiverStore η × Receipt η) :=
  if !scopeIsValid receiverScope then
    .error (.valueError "Terminal callback receiver scope is invalid")
  else match payload with
  | none => .error (.valueError "Terminal callback receiver payload must be structured")
  | some p => do
    let i ← receivedIdentity H p
    q.compareAndSet H now receiverScope p i

/-- The receiver after a delivery: an error rolls it back. -/
def deliver (H : Digests η) (q : ReceiverStore η) (e : ResultDelivery η) : ReceiverStore η :=
  match q.acceptTerminalCallbackResult H e.now e.receiverScope e.payload with
  | .ok (q', _) => q'
  | .error _ => q

/-! ## One delivery -/

section Delivery

variable {H : Digests η} {q : ReceiverStore η} {now : Time} {receiverScope : String}
  {p : CallbackPayload η} {i : TerminalIdentity η} {row c : TerminalCallbackResult η}
  {key : String × RunId}

omit [DecidableEq η] in
theorem get?_upsertResult (k : String × RunId) :
    (q.upsertResult key row).get? k =
      if k = key then offer TerminalCallbackResult.resultRevision (q.results.get? key) row
      else q.results.get? k := by
  rw [upsertResult]
  split
  · rename_i hins
    rw [Table.get?_insert hins, (Table.insert?_eq_some hins).1]
    rfl
  · rename_i hins
    rw [Table.get?_update]
    by_cases hk : k = key
    · rw [if_pos hk, hk]
      cases hc : q.results.get? key with
      | none =>
        rw [← Table.insert?_isSome (r := row), hins] at hc
        cases hc
      | some =>
        simp only [Option.map_some, offer, beq_self_eq_true, Bool.true_and, decide_eq_true_eq]
        split <;> rfl
    · simp [hk]

/-- The decision is what the register does. -/
theorem receiverStatus_cases (current : Option (TerminalCallbackResult η))
    (row : TerminalCallbackResult η) :
    (receiverStatus current row = .accepted ∧
        offer TerminalCallbackResult.resultRevision current row = some row) ∨
      ∃ c, current = some c ∧ receiverStatus current row ≠ .accepted ∧
        offer TerminalCallbackResult.resultRevision current row = some c := by
  cases current with
  | none => exact Or.inl ⟨rfl, rfl⟩
  | some c =>
    rw [receiverStatus, offer]
    by_cases hlt : c.resultRevision < row.resultRevision
    · rw [if_pos hlt, if_pos hlt]
      exact Or.inl ⟨rfl, rfl⟩
    · rw [if_neg hlt, if_neg hlt]
      refine Or.inr ⟨c, rfl, ?_, rfl⟩
      split
      · simp
      · split <;> simp

/-- The transaction always commits, and offers its row to the register of its key. -/
theorem compareAndSet_eq (H : Digests η) (q : ReceiverStore η) (now : Time) (receiverScope : String)
    (p : CallbackPayload η) (i : TerminalIdentity η) :
    ∃ q' receipt, q.compareAndSet H now receiverScope p i = .ok (q', receipt) ∧
      receipt.callbackStatus =
        receiverStatus (q.results.get? (receiverScope, i.runId)) (resultRow H now p i) ∧
      (receipt.callbackStatus ≠ .accepted → q'.results = q.results) ∧
      ∀ k, q'.results.get? k = if k = (receiverScope, i.runId)
        then offer TerminalCallbackResult.resultRevision
          (q.results.get? (receiverScope, i.runId)) (resultRow H now p i)
        else q.results.get? k := by
  rw [compareAndSet]
  generalize hrow : resultRow H now p i = row
  generalize hkey : (receiverScope, i.runId) = key
  rcases receiverStatus_cases (q.results.get? key) row with ⟨hstatus, hoffer⟩ | ⟨c, hc, hstatus, hoffer⟩
  · rw [hstatus]
    simp only [beq_self_eq_true, if_true, get?_upsertResult, hoffer]
    exact ⟨_, _, rfl, rfl, fun h => (h rfl).elim, fun k => get?_upsertResult k |>.trans (by rw [hoffer])⟩
  · rw [hc] at hstatus hoffer
    have hno : (receiverStatus (some c) row == ReceiverStatus.accepted) = false := by
      simpa using hstatus
    simp only [hc, hno, Bool.false_eq_true, if_false]
    refine ⟨_, _, rfl, rfl, fun _ => rfl, fun k => ?_⟩
    split
    · rename_i hk
      rw [hk, hc, hoffer]
    · rfl

end Delivery

/-! ## Many deliveries -/

section Deliveries

variable {H : Digests η} {q : ReceiverStore η} {receiverScope : String} {runId : RunId}
  {e : ResultDelivery η} {p : CallbackPayload η} {i : TerminalIdentity η}
  {row c : TerminalCallbackResult η}

/-- The row that a delivery offers to the register of a scope and a run. -/
def offered (H : Digests η) (receiverScope : String) (runId : RunId) (e : ResultDelivery η) :
    Option (TerminalCallbackResult η) :=
  match e.payload with
  | none => none
  | some p =>
    match receivedIdentity H p with
    | .error _ => none
    | .ok i =>
      if scopeIsValid e.receiverScope && e.receiverScope == receiverScope && i.runId == runId then
        some (resultRow H e.now p i)
      else none

theorem offered_eq_some : offered H receiverScope runId e = some row ↔
    ∃ p i, e.payload = some p ∧ receivedIdentity H p = .ok i ∧
      scopeIsValid receiverScope = true ∧ e.receiverScope = receiverScope ∧ i.runId = runId ∧
        row = resultRow H e.now p i := by
  rw [offered]
  constructor
  · intro h
    split at h
    · cases h
    rename_i p hp
    split at h
    · cases h
    rename_i i hi
    split at h
    · rename_i hkey
      simp only [Bool.and_eq_true, beq_iff_eq] at hkey
      obtain ⟨⟨hvalid, hscope⟩, hrun⟩ := hkey
      exact ⟨p, i, hp, hi, hscope ▸ hvalid, hscope, hrun, (Option.some.inj h).symm⟩
    · cases h
  · rintro ⟨p, i, hp, hi, hvalid, rfl, rfl, rfl⟩
    simp [hp, hi, hvalid]

/-- A delivery offers its row to its register, and leaves every other one alone. -/
theorem results_deliver (e : ResultDelivery η) :
    (q.deliver H e).results.get? (receiverScope, runId) =
      match offered H receiverScope runId e with
      | none => q.results.get? (receiverScope, runId)
      | some row => offer TerminalCallbackResult.resultRevision
          (q.results.get? (receiverScope, runId)) row := by
  unfold deliver acceptTerminalCallbackResult offered
  cases e.payload with
  | none => cases scopeIsValid e.receiverScope <;> rfl
  | some p =>
    cases hi : receivedIdentity H p with
    | error =>
      cases scopeIsValid e.receiverScope <;> simp [hi, bind, Except.bind]
    | ok i =>
      obtain ⟨q', receipt, hok, -, -, hrow⟩ := compareAndSet_eq H q e.now e.receiverScope p i
      cases hvalid : scopeIsValid e.receiverScope with
      | false => simp [hi]
      | true =>
        simp only [Bool.not_true, Bool.false_eq_true, if_false, hi, bind, Except.bind, hok, hrow,
          Bool.true_and, Prod.mk.injEq]
        by_cases hkey : receiverScope = e.receiverScope ∧ runId = i.runId
        · obtain ⟨rfl, rfl⟩ := hkey
          simp
        · rw [if_neg hkey, if_neg]
          simp only [Bool.and_eq_true, beq_iff_eq]
          exact fun h => hkey ⟨h.1.symm, h.2.symm⟩

/-- What a receiver stores after deliveries is what its register keeps of their rows. -/
theorem results_deliveries (es : List (ResultDelivery η)) :
    (Transition.run (deliver H) q es).results.get? (receiverScope, runId) =
      (es.filterMap (offered H receiverScope runId)).foldl
        (offer TerminalCallbackResult.resultRevision) (q.results.get? (receiverScope, runId)) := by
  induction es generalizing q with
  | nil => rfl
  | cons e es ih =>
    rw [Transition.run_cons, ih, results_deliver]
    cases h : offered H receiverScope runId e with
    | none => rw [List.filterMap_cons_none h]
    | some => rw [List.filterMap_cons_some h, List.foldl_cons]

end Deliveries

end ReceiverStore

end GlassHive
