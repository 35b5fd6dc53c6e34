import GlassHive.Library.Transition
import GlassHive.Schema
import Mathlib.Logic.Function.Basic

/-!
# Native input

A native process asks its owner for input through files. The relay beside it publishes each request
in a file named by the request identifier, and the owner's answer is linked into a second file of
that name, which nobody replaces or removes. The relay sends an answer on when it carries the
fingerprint of the request that is open. A process may use an identifier again.

Every read or write of a file is one step. A digest stands for what it digests, and `valid` for the
schema package.
-/

namespace GlassHive

open Relational Transition

/-! ## Files -/

/-- `native-input-context.json`. -/
structure NativeContext where
  workerId : WorkerId
  runId : RunId
  contextToken : ℕ
  nativeTurnId : Option ℕ := none
  nativeSessionId : Option Text := none
  nativeSessionActive : Option Bool := none
  deriving DecidableEq, Repr

/-- What the fingerprint of a request digests. -/
structure NativeFingerprint where
  context : NativeContext
  requestId : Text
  request : JsonFields
  deriving DecidableEq, Repr

inductive NativeState
  | pending
  | cancelled
  | answered
  deriving DecidableEq, Repr

/-- What the owner sees of a request. -/
structure NativeView where
  requestId : Text
  requestFingerprint : NativeFingerprint
  mcpServerName : JsonValue
  message : JsonValue
  mode : JsonValue
  requestedSchema : Option JsonValue
  url : Option JsonValue
  elicitationId : Option JsonValue
  title : Option JsonValue
  state : NativeState
  deriving DecidableEq, Repr

/-- A request file. -/
structure NativeItem extends NativeView where
  contextToken : ℕ
  createdAt : ℕ
  nativeRequest : JsonFields
  deriving DecidableEq, Repr

/-- An answer of the owner. -/
structure NativeResponse where
  action : String
  content : Option JsonFields
  deriving DecidableEq, Repr

/-- A response file. -/
structure NativeReply where
  requestId : Text
  requestFingerprint : NativeFingerprint
  contextToken : ℕ
  response : NativeResponse
  deriving DecidableEq, Repr

/-- The directory of a run. Files of requests and responses are named by the request identifier. -/
structure NativeFiles where
  context : Option NativeContext := none
  requests : Table Text NativeItem := .empty
  responses : Table Text NativeReply := .empty

/-- The reply answers the request as it is in its file. -/
def NativeReply.Matches (reply : NativeReply) (item : NativeItem) : Prop :=
  reply.requestFingerprint = item.requestFingerprint ∧ reply.contextToken = item.contextToken

instance (reply : NativeReply) (item : NativeItem) : Decidable (reply.Matches item) :=
  inferInstanceAs (Decidable (_ ∧ _))

/-! ## The owner -/

/-- The codes of `NativeInputError`, and a file that is not there. -/
inductive NativeInputError
  | invalid
  | stale
  | conflict
  | fileNotFound
  deriving DecidableEq, Repr

inductive NativeStatus
  | accepted
  | alreadyAccepted
  deriving DecidableEq, Repr

/-- `pending`. -/
def pending (files : NativeFiles) (workerId : WorkerId) (runId : RunId) :
    Except NativeInputError (Option NativeView) :=
  match files.context with
  | none => .error .fileNotFound
  | some context =>
    if context.workerId ≠ workerId ∨ context.runId ≠ runId then .error .stale
    else
      let requests := files.requests.select fun _ item =>
        item.contextToken == context.contextToken && item.state == .pending
      .ok ((Table.earliest (fun a b => a.createdAt < b.createdAt) requests).map
        fun e => e.2.toNativeView)

/-- A call of `respond`. -/
structure NativeAnswer where
  workerId : WorkerId
  runId : RunId
  requestId : Text
  requestFingerprint : NativeFingerprint
  action : String
  content : Option JsonFields
  allowNew : Bool := true
  deriving DecidableEq, Repr

def nativeActions : List String :=
  ["accept", "decline", "cancel"]

/-- Where a call of `respond` stands, by the file it accesses next. -/
inductive RespondPhase
  | readContext
  | readRequest (context : NativeContext)
  | findResponse (item : NativeItem) (reply : NativeReply)
  | link (reply : NativeReply)
  | readResponse (reply : NativeReply)
  | done (result : Except NativeInputError NativeStatus)

/-- What the owner answers a request with. -/
def NativeAnswer.reply (a : NativeAnswer) (context : NativeContext) : NativeReply where
  requestId := a.requestId
  requestFingerprint := a.requestFingerprint
  contextToken := context.contextToken
  response := ⟨a.action, a.content⟩

/-- One file access of `respond`. -/
def respondStep (valid : Option JsonValue → Option JsonFields → Bool) (files : NativeFiles)
    (a : NativeAnswer) : RespondPhase → NativeFiles × RespondPhase
  | .readContext =>
    if a.action ∉ nativeActions then (files, .done (.error .invalid))
    else
      match files.context with
      | none => (files, .done (.error .fileNotFound))
      | some context =>
        if context.workerId ≠ a.workerId ∨ context.runId ≠ a.runId then
          (files, .done (.error .stale))
        else (files, .readRequest context)
  | .readRequest context =>
    match files.requests.get? a.requestId with
    | none => (files, .done (.error .stale))
    | some item =>
      if item.contextToken ≠ context.contextToken ∨
          item.requestFingerprint ≠ a.requestFingerprint then
        (files, .done (.error .stale))
      else (files, .findResponse item (a.reply context))
  | .findResponse item reply =>
    if (files.responses.get? a.requestId).isSome then (files, .readResponse reply)
    else if a.allowNew = false ∨ item.state ≠ .pending then (files, .done (.error .stale))
    else if a.action = "accept" ∧ item.mode = .str "form" ∧
        valid item.requestedSchema a.content = false then
      (files, .done (.error .invalid))
    else (files, .link reply)
  | .link reply =>
    match files.responses.insert? a.requestId reply with
    | none => (files, .readResponse reply)
    | some responses => ({ files with responses }, .done (.ok .accepted))
  | .readResponse reply =>
    match files.responses.get? a.requestId with
    | none => (files, .done (.error .fileNotFound))
    | some found =>
      if found = reply then (files, .done (.ok .alreadyAccepted))
      else (files, .done (.error .conflict))
  | .done result => (files, .done result)

/-- A call of `respond` while nothing else happens. It accesses at most five files. -/
def respond (valid : Option JsonValue → Option JsonFields → Bool) (files : NativeFiles)
    (a : NativeAnswer) : NativeFiles × RespondPhase :=
  (fun x => respondStep valid x.1 a x.2)^[5] (files, .readContext)

/-! ## The relay -/

/-- A request that the native process waits for. -/
structure LiveRequest where
  item : NativeItem
  issue : ℕ

/-- The next file that the relay publishes. -/
inductive NativeWrite
  | context (context : NativeContext)
  | request (item : NativeItem)

/-- The relay beside a native process. -/
structure NativeRelay where
  context : NativeContext
  live : Text → Option LiveRequest
  writing : Option NativeWrite

/-- An answer sent to the native process for one issue of a request. -/
structure RelayedAnswer where
  issue : ℕ
  item : NativeItem
  response : NativeResponse
  deriving DecidableEq, Repr

/-- The files with the relay and the calls in progress. The counters draw tokens and number the
requests, and the logs list the replies that `respond` accepted and the answers that the relay
sent. -/
structure NativeWorld where
  files : NativeFiles := {}
  relay : Option NativeRelay := none
  calls : ℕ → Option (NativeAnswer × RespondPhase) := fun _ => none
  fresh : ℕ := 0
  issued : ℕ := 0
  accepted : List NativeReply := []
  relayed : List RelayedAnswer := []

/-- A step of the relay, of its supervisor or of a call of `respond`. Requests close when the
process cancels them, reports its result or ends. -/
inductive NativeStep
  | launch (workerId : WorkerId) (runId : RunId)
  | sessionInit (sessionId : Text)
  | request (requestId : Text) (request : JsonFields) (createdAt : ℕ)
  | close (requestId : Text)
  | poll (requestId : Text)
  | deactivate
  | write
  | respond (call : ℕ) (answer : NativeAnswer)
  | advance (call : ℕ)

/-- A value of a request that is not null. -/
def presentField (request : JsonFields) (key : String) : Option JsonValue :=
  (request.get? key).filter fun value => value ≠ .null

/-- The item that the relay makes of a request. -/
def nativeItem (context : NativeContext) (requestId : Text) (request : JsonFields)
    (createdAt : ℕ) : NativeItem where
  requestId := requestId
  requestFingerprint := ⟨context, requestId, request⟩
  mcpServerName := (request.get? "mcp_server_name").getD (.str "")
  message := (request.get? "message").getD (.str "")
  mode := (request.get? "mode").getD (.str "form")
  requestedSchema := presentField request "requested_schema"
  url := presentField request "url"
  elicitationId := presentField request "elicitation_id"
  title := presentField request "title"
  state := .pending
  contextToken := context.contextToken
  createdAt := createdAt
  nativeRequest := request

namespace NativeWorld

/-- The supervisor writes a context with a token of its own, and the relay that it starts names its
turn in it. -/
def launch (w : NativeWorld) (workerId : WorkerId) (runId : RunId) : NativeWorld :=
  let context : NativeContext := { workerId, runId, contextToken := w.fresh }
  let turn :=
    { context with nativeTurnId := some (w.fresh + 1), nativeSessionActive := some false }
  { w with
    files := { w.files with context := some context }
    relay := some { context := turn, live := fun _ => none, writing := some (.context turn) }
    fresh := w.fresh + 2 }

/-- `close_request`: the relay forgets a request and publishes its last state. -/
def closeRequest (w : NativeWorld) (r : NativeRelay) (l : LiveRequest) (requestId : Text)
    (state : NativeState) : NativeWorld :=
  { w with
    relay := some
      { r with
        live := Function.update r.live requestId none
        writing := some (.request { l.item with state := state }) } }

/-- What the relay does between two publications. -/
def relayStep (w : NativeWorld) (r : NativeRelay) : NativeStep → NativeWorld
  | .sessionInit sessionId =>
    if sessionId.isEmpty then w
    else
      let context :=
        { r.context with nativeSessionId := some sessionId, nativeSessionActive := some true }
      { w with relay := some { r with context, writing := some (.context context) } }
  | .request requestId request createdAt =>
    -- any other control request is answered with an error, without a file
    if request.get? "subtype" ≠ some (.str "elicitation") then w
    else
      let item := nativeItem r.context requestId request createdAt
      { w with
        relay := some
          { r with
            live := Function.update r.live requestId (some ⟨item, w.issued⟩)
            writing := some (.request item) }
        issued := w.issued + 1 }
  | .close requestId =>
    match r.live requestId with
    | none => w
    | some l => w.closeRequest r l requestId .cancelled
  | .poll requestId =>
    match r.live requestId, w.files.responses.get? requestId with
    | some l, some reply =>
      if reply.requestFingerprint ≠ l.item.requestFingerprint ∨
          reply.contextToken ≠ r.context.contextToken then w
      else
        { w.closeRequest r l requestId .answered with
          relayed := w.relayed ++ [⟨l.issue, l.item, reply.response⟩] }
    | _, _ => w
  | .deactivate =>
    { w with
      relay := some
        { r with writing := some (.context { r.context with nativeSessionActive := some false }) } }
  | _ => w

/-- `publish`. -/
def publish (files : NativeFiles) : NativeWrite → NativeFiles
  | .context context => { files with context := some context }
  | .request item => { files with requests := files.requests.put item.requestId item }

/-- One file access of a call, with the reply that it makes the first of its request. -/
def advance (valid : Option JsonValue → Option JsonFields → Bool) (w : NativeWorld) (call : ℕ)
    (a : NativeAnswer) (phase : RespondPhase) : NativeWorld :=
  let next := respondStep valid w.files a phase
  { w with
    files := next.1
    calls := Function.update w.calls call (some (a, next.2))
    accepted :=
      match phase, next.2 with
      | .link reply, .done (.ok .accepted) => w.accepted ++ [reply]
      | _, _ => w.accepted }

/-- One step. The relay publishes what it is about to before it does anything else. -/
def step (valid : Option JsonValue → Option JsonFields → Bool) (w : NativeWorld) (i : NativeStep) :
    NativeWorld :=
  match i with
  | .launch workerId runId => w.launch workerId runId
  | .respond call a => { w with calls := Function.update w.calls call (some (a, .readContext)) }
  | .advance call =>
    match w.calls call with
    | none => w
    | some (a, phase) => w.advance valid call a phase
  | i =>
    match w.relay with
    | none => w
    | some r =>
      match i, r.writing with
      | .write, some publication =>
        { w with
          files := publish w.files publication
          relay := some { r with writing := none } }
      | .write, none => w
      | _, some _ => w
      | i, none => w.relayStep r i

end NativeWorld

/-! ## A call of `respond` alone -/

section Respond

variable {valid : Option JsonValue → Option JsonFields → Bool} {files : NativeFiles}
  {a : NativeAnswer} {requestId : Text} {item : NativeItem} {found : NativeReply}

/-- `pending` lists the request: it is open in the current context. -/
def NativeFiles.Listed (files : NativeFiles) (requestId : Text) (item : NativeItem) : Prop :=
  ∃ context, files.context = some context ∧ files.requests.get? requestId = some item ∧
    item.contextToken = context.contextToken ∧ item.state = .pending

/-- Some call of `respond` answers the request, or finds its own answer there. -/
def NativeFiles.Answerable (valid : Option JsonValue → Option JsonFields → Bool)
    (files : NativeFiles) (requestId : Text) : Prop :=
  ∃ a status, a.requestId = requestId ∧ (respond valid files a).2 = .done (.ok status)

@[simp]
theorem respondStep_done (result : Except NativeInputError NativeStatus) :
    respondStep valid files a (.done result) = (files, .done result) := rfl

/-- A response that is there when a call finds its request decides the call. -/
theorem respond_found (hfound : files.responses.get? a.requestId = some found) :
    (respond valid files a).1 = files ∧
      ∀ status, (respond valid files a).2 = .done (.ok status) →
        status = .alreadyAccepted ∧ ∃ context item, files.context = some context ∧
          files.requests.get? a.requestId = some item ∧
          item.contextToken = context.contextToken ∧
          item.requestFingerprint = a.requestFingerprint ∧ found = a.reply context := by
  have hfive : respond valid files a =
      (fun x => respondStep valid x.1 a x.2) ((fun x => respondStep valid x.1 a x.2)
        ((fun x => respondStep valid x.1 a x.2) ((fun x => respondStep valid x.1 a x.2)
          (respondStep valid files a .readContext)))) := rfl
  rw [hfive]
  by_cases haction : a.action ∈ nativeActions
  · cases hcontext : files.context with
    | none => simp [respondStep, haction, hcontext]
    | some context =>
      by_cases hrun : context.workerId ≠ a.workerId ∨ context.runId ≠ a.runId
      · simp [respondStep, haction, hcontext, hrun]
      · cases hitem : files.requests.get? a.requestId with
        | none => simp [respondStep, haction, hcontext, hrun, hitem]
        | some item =>
          by_cases hstale : item.contextToken ≠ context.contextToken ∨
              item.requestFingerprint ≠ a.requestFingerprint
          · simp [respondStep, haction, hcontext, hrun, hitem, hstale]
          · obtain ⟨htoken, hfingerprint⟩ := not_or.mp hstale
            have hopen : respondStep valid files a .readContext =
                (files, .readRequest context) := by
              simp [respondStep, haction, hcontext, hrun]
            have hread : respondStep valid files a (.readRequest context) =
                (files, .findResponse item (a.reply context)) := by
              simp [respondStep, hitem, hstale]
            have hfind : respondStep valid files a (.findResponse item (a.reply context)) =
                (files, .readResponse (a.reply context)) := by
              simp [respondStep, hfound]
            by_cases hsame : found = a.reply context
            · have hresult : respondStep valid files a (.readResponse (a.reply context)) =
                  (files, .done (.ok .alreadyAccepted)) := by
                simp [respondStep, hfound, hsame]
              simp only [hopen, hread, hfind, hresult, respondStep_done]
              refine ⟨trivial, fun status hstatus => ⟨?_, context, item, rfl, rfl, ?_, ?_, hsame⟩⟩
              · simpa [eq_comm] using hstatus
              · exact not_not.mp htoken
              · exact not_not.mp hfingerprint
            · have hresult : respondStep valid files a (.readResponse (a.reply context)) =
                  (files, .done (.error .conflict)) := by
                simp [respondStep, hfound, hsame]
              simp [hopen, hread, hfind, hresult]
  · simp [respondStep, haction]

/-- A listed request can be answered exactly when no response of another content is left under its
identifier. -/
theorem answerable_iff (hlisted : files.Listed requestId item)
    (hfiles : ∀ found, files.responses.get? requestId = some found →
      found.requestId = requestId ∧ found.response.action ∈ nativeActions) :
    files.Answerable valid requestId ↔
      ∀ found, files.responses.get? requestId = some found → found.Matches item := by
  obtain ⟨context, hcontext, hitem, htoken, hpending⟩ := hlisted
  constructor
  · rintro ⟨a, status, rfl, hok⟩ found hfound
    obtain ⟨-, context', item', hcontext', hitem', -, hfingerprint, rfl⟩ :=
      (respond_found hfound).2 status hok
    rw [hcontext, Option.some.injEq] at hcontext'
    rw [hitem, Option.some.injEq] at hitem'
    subst hcontext' hitem'
    exact ⟨hfingerprint.symm, htoken.symm⟩
  · intro hmatches
    cases hfound : files.responses.get? requestId with
    | none =>
      obtain ⟨responses, hinsert⟩ : ∃ responses, files.responses.insert? requestId
          ⟨requestId, item.requestFingerprint, context.contextToken, ⟨"decline", none⟩⟩ =
            some responses :=
        Option.isSome_iff_exists.mp (Table.insert?_isSome.mpr hfound)
      refine ⟨⟨context.workerId, context.runId, requestId, item.requestFingerprint, "decline", none,
        true⟩, .accepted, rfl, ?_⟩
      simp [respond, respondStep, nativeActions, hcontext, hitem, htoken, hfound, hpending,
        NativeAnswer.reply, hinsert]
    | some found =>
      obtain ⟨hid, haction⟩ := hfiles found hfound
      obtain ⟨hfingerprint, hsame⟩ := hmatches found hfound
      refine ⟨⟨context.workerId, context.runId, requestId, item.requestFingerprint,
        found.response.action, found.response.content, true⟩, .alreadyAccepted, rfl, ?_⟩
      have hreply : found = ⟨requestId, item.requestFingerprint, context.contextToken,
          ⟨found.response.action, found.response.content⟩⟩ := by
        rw [← hid, ← hfingerprint, ← htoken, ← hsame]
      simp [respond, respondStep, haction, hcontext, hitem, htoken, hfound, NativeAnswer.reply,
        ← hreply]

end Respond

end GlassHive
