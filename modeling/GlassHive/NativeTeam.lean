import GlassHive.InferenceBroker
import GlassHive.Library.Transition
import GlassHive.Schema

/-!
# Teams of native children

A provider reports the children that it runs itself in the lines of its stream. The lines of either
provider are projected into events of one lifecycle, and a projection of the team is reduced from
the events. Once the root has exited, a settlement answers whether a child is still live.

The instant at which a line was observed is `none` where the clock is read.
-/

namespace GlassHive

open Relational

/-! ## States of a child -/

/-- A state in `_LIVE_STATES` or `_TERMINAL_STATES`. -/
inductive ChildState
  | accepted
  | pending
  | queued
  | starting
  | running
  | paused
  | completed
  | failed
  | stopped
  | cancelled
  | unknown
  deriving DecidableEq, Repr

namespace ChildState

/-- The text of a state. -/
def text : ChildState → Text
  | accepted => "accepted".toList
  | pending => "pending".toList
  | queued => "queued".toList
  | starting => "starting".toList
  | running => "running".toList
  | paused => "paused".toList
  | completed => "completed".toList
  | failed => "failed".toList
  | stopped => "stopped".toList
  | cancelled => "cancelled".toList
  | unknown => "unknown".toList

/-- `_LIVE_STATES`. -/
def isLive : ChildState → Bool
  | accepted | pending | queued | starting | running | paused => true
  | completed | failed | stopped | cancelled | unknown => false

@[simp]
theorem isLive_completed : completed.isLive = false := rfl

@[simp]
theorem isLive_unknown : unknown.isLive = false := rfl

/-- The states, live ones first. -/
def all : List ChildState :=
  [accepted, pending, queued, starting, running, paused, completed, failed, stopped, cancelled,
    unknown]

/-- The state of a text. -/
def ofText? (t : Text) : Option ChildState :=
  all.find? fun s => s.text == t

@[simp]
theorem ofText?_text (s : ChildState) : ofText? s.text = some s := by
  cases s <;> decide

end ChildState

/-- How a child ended, in the event that reports it. -/
inductive ChildEnd
  | completed
  | failed
  | stopped
  deriving DecidableEq, Repr

/-- The state that goes with an end. -/
def ChildEnd.state : ChildEnd → ChildState
  | .completed => .completed
  | .failed => .failed
  | .stopped => .stopped

/-- `_CLAUDE_TERMINAL_STATE`. -/
def claudeTerminalState : List (Text × ChildEnd) :=
  [("completed".toList, .completed), ("failed".toList, .failed), ("stopped".toList, .stopped),
    ("killed".toList, .stopped), ("cancelled".toList, .stopped)]

/-- `_CODEX_TERMINAL_STATE`. -/
def codexTerminalState : List (Text × ChildEnd) :=
  [("completed".toList, .completed), ("failed".toList, .failed), ("cancelled".toList, .stopped),
    ("stopped".toList, .stopped), ("shutdown".toList, .stopped)]

/-! ## References -/

/-- `_clean_ref` on a text. -/
def cleanText (maxLength : ℕ) (value : Text) : Text :=
  let text := Text.strip value
  if text.isEmpty || maxLength < text.length || text.any fun c => c.toNat < 32 then [] else text

namespace BrokerValue

/-- `_clean_ref` within a length. -/
def cleanWithin (maxLength : ℕ) (value : BrokerValue) : Text :=
  cleanText maxLength value.textOrEmpty

/-- `_clean_ref`. -/
def cleanRef (value : BrokerValue) : Text :=
  value.cleanWithin 256

/-- `_clean_role`. -/
def cleanRole (value : BrokerValue) : Text :=
  value.cleanWithin 128

/-- `value or other`. -/
def orElse (value other : BrokerValue) : BrokerValue :=
  if value.truthy then value else other

/-- `_clean_ref_list`. -/
def cleanRefList : BrokerValue → List Text
  | .array items _ =>
    items.foldl
      (fun refs item =>
        let clean := item.cleanRef
        if !clean.isEmpty && !refs.contains clean then refs ++ [clean] else refs)
      []
  | _ => []

end BrokerValue

/-! ## Events -/

/-- The type of an event about one child. -/
inductive ChildEventType
  | started
  | updated
  | ended (how : ChildEnd)
  deriving DecidableEq, Repr

/-- `direction` of a message. -/
inductive MessageDirection
  | observed
  | sent
  deriving DecidableEq, Repr

/-- What an event says about a child. -/
structure ChildReport where
  childRef : Text
  role : Text
  state : Text
  deriving DecidableEq, Repr

/-- An event of the lifecycle, with its payload. -/
inductive NativeEvent
  | sessionStarted (sessionId : Text) (observedAt : Option Time)
  | child (type : ChildEventType) (report : ChildReport) (providerEventRef : Option Text)
      (observedAt : Option Time)
  | snapshot (children : List ChildReport) (replace : Bool) (observedAt : Option Time)
  | teamMessage (childRef : Text) (direction : MessageDirection) (observedAt : Option Time)
  deriving DecidableEq, Repr

/-- `_session_event`. -/
def sessionEvent (sessionId : BrokerValue) (observedAt : Option Time) : List NativeEvent :=
  let clean := sessionId.cleanRef
  if clean.isEmpty then [] else [.sessionStarted clean observedAt]

/-! ## Codex -/

/-- The events of a `sub_agent_activity` line. -/
def subAgentActivity (line : BrokerFields) (observedAt : Option Time) : List NativeEvent :=
  let childRef := (line.get "agent_thread_id").cleanRef
  let kind := Text.lower ((line.get "kind").cleanWithin 64)
  if childRef.isEmpty || kind.isEmpty then []
  else
    let role := (line.get "agent_path").cleanRole
    let terminal := codexTerminalState.lookup kind
    let state := (terminal.map ChildEnd.state).getD .running
    let eventRef := (line.get "event_id").cleanRef
    let type :=
      if kind ∈ ["started".toList, "spawned".toList, "created".toList] then .started
      else (terminal.map .ended).getD .updated
    let event := .child type ⟨childRef, role, state.text⟩
      (if eventRef.isEmpty then none else some eventRef) observedAt
    if kind ∈ ["interacted".toList, "message".toList, "steered".toList] then
      [event, .teamMessage childRef .observed observedAt]
    else [event]

/-- The reference and the role of a receiver. -/
def receiverRole (receiver : BrokerFields) : Option (Text × Text) :=
  let ref := ((receiver.get "thread_id").orElse
    ((receiver.get "threadId").orElse (receiver.get "agent_thread_id"))).cleanRef
  let role := ((receiver.get "role").orElse
    ((receiver.get "agent_role").orElse (receiver.get "name"))).cleanRole
  if ref.isEmpty then none else some (ref, role)

/-- `roles_by_ref`, the last entry of a child first. -/
def rolesByRef (receiverAgents : BrokerValue) : List (Text × Text) :=
  match receiverAgents with
  | .array receivers _ =>
    (receivers.filterMap fun receiver =>
      match receiver with
      | .object fields _ => receiverRole fields
      | _ => none).reverse
  | _ => []

/-- The status in an entry of `agents_states`. -/
def agentStatus (value : BrokerValue) : BrokerValue :=
  match value with
  | .object fields _ =>
    (BrokerFields.get fields "status").orElse (BrokerFields.get fields "state")
  | value => value

/-- The event of one entry of `agents_states`. -/
def agentStateEvent (roles : List (Text × Text)) (observedAt : Option Time)
    (entry : String × BrokerValue) : Option NativeEvent :=
  let childRef := (BrokerValue.str entry.1.toList).cleanRef
  let state := Text.lower ((agentStatus entry.2).cleanWithin 64)
  let role := (roles.lookup childRef).getD []
  if childRef.isEmpty then none
  else
    match codexTerminalState.lookup state with
    | some how => some (.child (.ended how) ⟨childRef, role, how.state.text⟩ none observedAt)
    | none =>
      if (ChildState.ofText? state).any ChildState.isLive then
        some (.child .updated ⟨childRef, role, state⟩ none observedAt)
      else none

/-- The events of the item of a collaboration tool call. -/
def collabToolCall (item : BrokerFields) (observedAt : Option Time) : List NativeEvent :=
  let tool := (item.get "tool").cleanWithin 128
  let receivers := (item.get "receiver_thread_ids").cleanRefList
  let roles := rolesByRef (item.get "receiver_agents")
  let spawned :=
    if tool ∈ ["spawn_agent".toList, "spawn_agents".toList] then
      receivers.map fun ref =>
        .child .started ⟨ref, (roles.lookup ref).getD [], ChildState.running.text⟩ none observedAt
    else []
  let messages :=
    if tool ∈ ["send_message".toList, "send_input".toList, "followup_task".toList] then
      receivers.map fun ref => .teamMessage ref .sent observedAt
    else []
  let states :=
    match item.get "agents_states" with
    | .object entries _ => entries.filterMap (agentStateEvent roles observedAt)
    | _ => []
  spawned ++ messages ++ states

/-- `_codex_event`. -/
def codexEvent (line : BrokerFields) (observedAt : Option Time) : List NativeEvent :=
  let type := (line.get "type").cleanRef
  if type = "thread.started".toList then sessionEvent (line.get "thread_id") observedAt
  else if type = "sub_agent_activity".toList then subAgentActivity line observedAt
  else
    match line.get "item" with
    | .object item _ =>
      if (BrokerFields.get item "type").cleanRef ∈
          ["collab_agent_tool_call".toList, "collab_tool_call".toList] then
        collabToolCall item observedAt
      else []
    | _ => []

/-! ## Claude -/

/-- The report of one task of a `background_tasks_changed` line. -/
def taskReport (task : BrokerFields) : Option ChildReport :=
  let ref := (task.get "task_id").cleanRef
  if ref.isEmpty then none
  else some ⟨ref, (task.get "task_type").cleanRole, ChildState.running.text⟩

/-- The reports of a `background_tasks_changed` line. -/
def backgroundTasks (tasks : List BrokerValue) : List ChildReport :=
  tasks.filterMap fun task =>
    match task with
    | .object fields _ => taskReport fields
    | _ => none

/-- `_claude_event`. -/
def claudeEvent (line : BrokerFields) (observedAt : Option Time) : List NativeEvent :=
  let type := (line.get "type").cleanRef
  let subtype := (line.get "subtype").cleanWithin 128
  let childRef := (line.get "task_id").cleanRef
  let role := ((line.get "subagent_type").orElse (line.get "task_type")).cleanRole
  if type ≠ "system".toList then []
  else if subtype = "init".toList then sessionEvent (line.get "session_id") observedAt
  else if subtype = "task_started".toList && !childRef.isEmpty then
    [.child .started ⟨childRef, role, ChildState.running.text⟩ none observedAt]
  else if (subtype = "task_progress".toList || subtype = "task_updated".toList) &&
      !childRef.isEmpty then
    let raw := Text.lower (((line.get "patch").fieldsOrEmpty.get "status").cleanWithin 64)
    match claudeTerminalState.lookup raw with
    | some how => [.child (.ended how) ⟨childRef, role, how.state.text⟩ none observedAt]
    | none =>
      [.child .updated ⟨childRef, role, if raw.isEmpty then ChildState.running.text else raw⟩ none
        observedAt]
  else if subtype = "task_notification".toList && !childRef.isEmpty then
    match claudeTerminalState.lookup (Text.lower ((line.get "status").cleanWithin 64)) with
    | some how => [.child (.ended how) ⟨childRef, role, how.state.text⟩ none observedAt]
    | none => []
  else if subtype = "background_tasks_changed".toList then
    match line.get "tasks" with
    | .array tasks _ => [.snapshot (backgroundTasks tasks) true observedAt]
    | _ => []
  else if subtype = "agent_progress".toList then
    let agent := (line.get "agent_id").cleanRef
    if agent.isEmpty then [] else [.teamMessage agent .observed observedAt]
  else []

/-! ## Either provider -/

/-- A line of a provider: the fields of an object, or a text to be decoded. -/
inductive ProviderLine
  | mapping (fields : BrokerFields)
  | text (t : Text)

/-- `project_native_events`. The decoder is that of JSON. -/
def projectNativeEvents (loads : Text → Option BrokerValue) (provider : Text) (line : ProviderLine)
    (observedAt : Option Time) : List NativeEvent :=
  let fields : Option BrokerFields :=
    match line with
    | .mapping fields => some fields
    | .text t =>
      match loads t with
      | some (.object fields _) => some fields
      | _ => none
  let normalized := Text.lower (Text.strip provider)
  match fields with
  | none => []
  | some fields =>
    if "codex".toList <+: normalized then codexEvent fields observedAt
    else if "claude".toList <+: normalized then claudeEvent fields observedAt
    else []

/-! ## The projection -/

/-- `_Child`, under its reference. -/
structure Child where
  role : Text
  state : ChildState
  updatedAt : Time
  deriving DecidableEq, Repr

/-- `NativeTeamProjection`. -/
structure NativeTeamProjection where
  provider : Text
  observable : Bool
  reconcileSeconds : ℕ
  sessionId : Text
  children : Table Text Child
  bounded : 1 ≤ reconcileSeconds ∧ reconcileSeconds ≤ 600

/-- `SettlementDecision.state`. -/
inductive SettlementState
  | ready
  | settling
  | degraded
  deriving DecidableEq, Repr

/-- `SettlementDecision`. -/
structure SettlementDecision where
  state : SettlementState
  activeChildRefs : List Text := []
  lostChildRefs : List Text := []
  deriving DecidableEq, Repr

/-- The state that a report stands for. -/
def ChildReport.childState (report : ChildReport) : ChildState :=
  (ChildState.ofText? (Text.lower (cleanText 64 report.state))).getD .running

namespace NativeTeamProjection

/-- `__init__`. -/
def init (provider : Text) (observable : Bool) (reconcileSeconds : ℤ) : NativeTeamProjection where
  provider := if provider.isEmpty then "unknown".toList else provider
  observable := observable
  reconcileSeconds := (max 1 (min reconcileSeconds 600)).toNat
  sessionId := []
  children := Table.empty
  bounded := by omega

variable (p : NativeTeamProjection)

/-- The projection with other children. -/
@[simps]
def updateChildren (children : Table Text Child) : NativeTeamProjection :=
  { p with children }

/-- `_upsert_child`. -/
def upsertChild (report : ChildReport) (now : Time) : NativeTeamProjection :=
  let childRef := cleanText 256 report.childRef
  if childRef.isEmpty then p
  else
    let role := cleanText 128 report.role
    let kept :=
      if role.isEmpty then ((p.children.get? childRef).map Child.role).getD role else role
    p.updateChildren (p.children.put childRef ⟨kept, report.childState, now⟩)

/-- The branch of `apply` for a snapshot. -/
def applySnapshot (children : List ChildReport) (replace : Bool) (now : Time) :
    NativeTeamProjection :=
  let refs := (children.map fun report => cleanText 256 report.childRef).filter (!·.isEmpty)
  let q := children.foldl (fun q report => q.upsertChild report now) p
  if replace then
    q.updateChildren (q.children.update
      (fun ref child => !refs.contains ref && child.state.isLive)
      fun _ child => { child with state := .completed, updatedAt := now })
  else q

/-- `apply`. -/
def apply (event : NativeEvent) (now : Time) : NativeTeamProjection :=
  if !p.observable then p
  else
    match event with
    | .sessionStarted sessionId _ => { p with sessionId := cleanText 256 sessionId }
    | .snapshot children replace _ => p.applySnapshot children replace now
    | .child _ report _ _ => p.upsertChild report now
    | .teamMessage .. => p

/-- The references of the live children, in order. -/
def active : List Text :=
  ((p.children.select fun _ child => child.state.isLive).map Prod.fst).mergeSort
    fun a b => decide (a ≤ b)

/-- `settlement`: the decision, and the projection that is left. -/
def settlement (rootExitedAt now : Time) : SettlementDecision × NativeTeamProjection :=
  if !p.observable then (⟨.ready, [], []⟩, p)
  else if p.active.isEmpty then (⟨.ready, [], []⟩, p)
  else if (now : ℤ) - rootExitedAt < p.reconcileSeconds * 1000000 then
    (⟨.settling, p.active, []⟩, p)
  else
    (⟨.degraded, [], p.active⟩,
      p.updateChildren (p.children.update (fun ref _ => p.active.contains ref)
        fun _ child => { child with state := .unknown, updatedAt := now }))

/-- The child is counted live. -/
def isLive (ref : Text) : Bool :=
  ((p.children.get? ref).map fun child => child.state.isLive).getD false

end NativeTeamProjection

end GlassHive
