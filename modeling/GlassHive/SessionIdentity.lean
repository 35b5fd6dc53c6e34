import GlassHive.Workers
import GlassHive.Library.Threads
import GlassHive.Library.Transition

/-!
# The session of an identity

A provider session has one row for each tenant, owner, conversation, agent, kind of actor and
origin. A caller reads the row on one connection, chooses the identifier of the session from it, and
writes the row in a transaction on another one. Requests refer to the session by its identifier.

The columns that the rest of the store reads are those of `ProviderSession`, under the primary key;
`SessionScope` holds the others, under the unique key.
-/

namespace GlassHive

open Relational Transition

/-- The unique key of `provider_sessions`. -/
structure SessionIdentity where
  tenantId : TenantId
  ownerId : OwnerId
  conversationId : String
  agentId : String
  actorKind : String
  origin : String
  deriving DecidableEq, Repr

/-- The other columns of a row of `provider_sessions`, with its primary key. -/
structure SessionScope where
  sessionId : SessionId
  modelId : String
  workspaceDir : String
  accessMode : String
  deriving DecidableEq, Repr

/-- The arguments of `upsert_provider_session`, with the instant of the call and the identifier that
it draws for a new session. -/
structure UpsertSession where
  identity : SessionIdentity
  modelId : String
  projectId : ProjectId
  workerId : WorkerId
  workspaceDir : String
  accessMode : String
  historyCount : ℤ
  contextManifest : SessionManifest
  now : Time
  newId : SessionId

namespace UpsertSession

/-- The row that a call writes. -/
def row (a : UpsertSession) (createdAt : Time) : ProviderSession where
  tenantId := a.identity.tenantId
  ownerId := a.identity.ownerId
  projectId := a.projectId
  workerId := a.workerId
  historyCount := a.historyCount.toNat
  contextManifest := a.contextManifest
  createdAt := createdAt
  updatedAt := a.now

/-- The other columns of the row. -/
def scope (a : UpsertSession) (sessionId : SessionId) : SessionScope where
  sessionId := sessionId
  modelId := a.modelId
  workspaceDir := a.workspaceDir
  accessMode := a.accessMode

/-- The worker of a call, which the transaction links. -/
def links (a : UpsertSession) (id : WorkerId) (w : Worker) : Bool :=
  id == a.workerId && w.tenantId == a.identity.tenantId && w.ownerId == a.identity.ownerId

end UpsertSession

/-- The tables that hold provider sessions. -/
structure SessionTables where
  base : Store
  scopes : Table SessionIdentity SessionScope

/-- `ON UPDATE CASCADE` of the visible admissions of a session. -/
def rekeyAdmissions (t : Table (SessionId × MessageKey) VisibleAdmission)
    (sessionId sessionId' : SessionId) : Table (SessionId × MessageKey) VisibleAdmission :=
  (t.select fun k _ => k.1 == sessionId).foldl
    (fun t e => (t.delete fun k _ => k == e.1).put (sessionId', e.1.2) e.2) t

namespace SessionTables

/-- `get_provider_session`. -/
def getProviderSession (t : SessionTables) (identity : SessionIdentity) :
    Option (SessionId × ProviderSession) :=
  (t.scopes.get? identity).bind fun scope =>
    (t.base.sessions.get? scope.sessionId).map fun row => (scope.sessionId, row)

/-- The foreign key of the project is checked at the end of the statement. -/
def checkProject (t : SessionTables) (a : UpsertSession) (sessionId : SessionId)
    (row : ProviderSession) : Except StoreError (SessionTables × SessionId × ProviderSession) :=
  if (t.base.projects.get? a.projectId).isNone then
    .error (.integrity "provider_sessions.project_id")
  else .ok (t, sessionId, row)

/-- The statement that inserts the row of a session. A row of the same identity is overwritten, its
identifier included. -/
def putSession (t : SessionTables) (a : UpsertSession) (sessionId : SessionId) (createdAt : Time) :
    Except StoreError (SessionTables × SessionId × ProviderSession) :=
  match t.scopes.get? a.identity with
  | none =>
    match t.base.sessions.insert? sessionId (a.row createdAt) with
    | none => .error (.integrity "provider_sessions.session_id")
    | some sessions =>
      checkProject ⟨{ t.base with sessions }, t.scopes.put a.identity (a.scope sessionId)⟩ a
        sessionId (a.row createdAt)
  | some current =>
    if sessionId ≠ current.sessionId ∧ (t.base.sessions.get? sessionId).isSome then
      .error (.integrity "provider_sessions.session_id")
    else if sessionId ≠ current.sessionId ∧
        t.base.requests.any (fun _ q => q.sessionId == current.sessionId) then
      .error (.integrity "provider_requests.session_id")
    else
      let kept := ((t.base.sessions.get? current.sessionId).map ProviderSession.createdAt).getD
        createdAt
      checkProject
        ⟨{ t.base with
            sessions := (t.base.sessions.delete fun id _ => id == current.sessionId).put sessionId
              (a.row kept)
            visibleAdmissions :=
              rekeyAdmissions t.base.visibleAdmissions current.sessionId sessionId },
          t.scopes.put a.identity (a.scope sessionId)⟩ a sessionId (a.row kept)

/-- The transaction of `upsert_provider_session`, after what the call read. -/
def writeSession (t : SessionTables) (a : UpsertSession) (existing : Option (SessionId × Time)) :
    Except StoreError (SessionTables × SessionId × ProviderSession) :=
  if t.base.workspaceGcClaimActive a.workerId then
    .error (.runtimeError "Workspace is being garbage-collected")
  else if !t.base.workers.any a.links then
    .error (.valueError "Provider session worker binding is invalid")
  else
    putSession
      ⟨t.base.updateWorkers a.links fun w =>
        { w with trustedRunLane := "conversation", updatedAt := a.now }, t.scopes⟩
      a ((existing.map Prod.fst).getD a.newId) ((existing.map Prod.snd).getD a.now)

end SessionTables

/-! ## Calls -/

/-- Where a call is. -/
inductive UpsertState
  | started
  | read (existing : Option (SessionId × Time))
  | returned (sessionId : SessionId) (row : ProviderSession)
  | raised (e : StoreError)

/-- A call of `upsert_provider_session`. -/
structure UpsertCall where
  args : UpsertSession
  state : UpsertState

/-- What a call returned, with its identity. -/
def UpsertCall.returned (c : UpsertCall) : List (SessionIdentity × SessionId) :=
  match c.state with
  | .returned sessionId _ => [(c.args.identity, sessionId)]
  | _ => []

/-- The tables and the calls that have begun. -/
structure SessionUpserts where
  tables : SessionTables
  calls : List UpsertCall

/-- A call begins, reads or writes, or a request is created against a session. -/
inductive SessionStep
  | call (a : UpsertSession)
  | read (i : ℕ)
  | write (i : ℕ)
  | request (id : RequestId) (q : ProviderRequest)

namespace SessionUpserts

/-- No call has begun. -/
def init (t : SessionTables) : SessionUpserts :=
  ⟨t, []⟩

/-- What the calls returned. -/
def returned (u : SessionUpserts) : List (SessionIdentity × SessionId) :=
  Threads.held UpsertCall.returned u.calls

/-- A call moves on. -/
def move (u : SessionUpserts) (i : ℕ) (a : UpsertSession) (state : UpsertState) : SessionUpserts :=
  { u with calls := u.calls.set i ⟨a, state⟩ }

/-- The read of a call. -/
def readStep (u : SessionUpserts) (i : ℕ) : SessionUpserts :=
  match u.calls[i]? with
  | some ⟨a, .started⟩ =>
    u.move i a (.read ((u.tables.getProviderSession a.identity).map fun e => (e.1, e.2.createdAt)))
  | _ => u

/-- The transaction of a call. -/
def writeStep (u : SessionUpserts) (i : ℕ) : SessionUpserts :=
  match u.calls[i]? with
  | some ⟨a, .read existing⟩ =>
    match u.tables.writeSession a existing with
    | .ok reply => { u.move i a (.returned reply.2.1 reply.2.2) with tables := reply.1 }
    | .error e => u.move i a (.raised e)
  | _ => u

/-- The insertion of a request, under the foreign key of its session. -/
def requestStep (u : SessionUpserts) (id : RequestId) (q : ProviderRequest) : SessionUpserts :=
  match u.tables.base.requests.insert? id q with
  | some requests =>
    if (u.tables.base.sessions.get? q.sessionId).isSome then
      { u with tables := ⟨{ u.tables.base with requests }, u.tables.scopes⟩ }
    else u
  | none => u

/-- One step. -/
def step (u : SessionUpserts) : SessionStep → SessionUpserts
  | .call a => { u with calls := u.calls ++ [⟨a, .started⟩] }
  | .read i => u.readStep i
  | .write i => u.writeStep i
  | .request id q => u.requestStep id q

end SessionUpserts

end GlassHive
