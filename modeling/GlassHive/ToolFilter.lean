import GlassHive.Library.AsciiJson
import GlassHive.Library.Fallible
import GlassHive.RunActionCapabilities

/-!
# The tool filter of a relay

A relay stands between a client and its MCP child and lets through the calls of the tools that are
selected. It keeps the identifiers of the requests for lists of tools, whose results it cuts, and of
the requests of a batch, whose responses it holds until all of them are there. In a native context
it also adds what the native session is to the calls, and carries the choice of a scope through the
form of a permission.

A batch is one object that several entries of a table refer to; here it has a number. An exception
ends the session.
-/

namespace GlassHive.McpFilter

open Relational RunActions

abbrev Fields := List (Points × Json)

/-! ## The policy -/

inductive FilterError
  | names
  | settings
  | contextUnavailable
  | contextStale
  | identityUnavailable
  | requestMetadata
  | elicitationPending
  | scopeNotOffered
  | resultMetadata
  deriving DecidableEq, Repr

/-- The filter of a policy. -/
structure Rule where
  enabledTools : Option (List Points)
  disabledTools : List Points

/-- `_names`. -/
def names (value : Json) : Except FilterError (List Points) :=
  match value with
  | .arr items =>
    match items.mapM fun item => match item with
      | .str s => if s.isEmpty then none else some s
      | _ => none with
    | some names => .ok (names.dedup.insertionSort (· ≤ ·))
    | none => .error .names
  | _ => .error .names

/-- A key is there. -/
def has (fields : Fields) (name : String) : Bool :=
  fields.any fun f => f.1 == Points.ofString name

/-- `dict.get`, with a default. -/
def getOr (fields : Fields) (name : String) (default : Json) : Json :=
  (fields.lookup (Points.ofString name)).getD default

/-- `{**fields, name: value}`. -/
def set (fields : Fields) (name : String) (value : Json) : Fields :=
  Json.setField fields (Points.ofString name, value)

/-- The tools that are switched off one by one. -/
def switchedOff (tools : Fields) : List Points :=
  (tools.filter fun f => match f.2 with
    | .obj config => match get config "enabled" with
      | .bool b => !b
      | _ => false
    | _ => false).map Prod.fst

/-- `selected_filter`. -/
def selectedFilter (server : Fields) : Except FilterError (Option Rule) := do
  let enabled ← if has server "enabled_tools" then
      (names (get server "enabled_tools")).map some
    else pure none
  let disabled ← names (getOr server "disabled_tools" (.arr []))
  match getOr server "tools" (.obj []) with
  | .obj tools =>
    let disabled := (disabled ++ switchedOff tools).dedup.insertionSort (· ≤ ·)
    if enabled.isNone && disabled.isEmpty then return none else return some ⟨enabled, disabled⟩
  | _ => .error .settings

/-- `permitted`. -/
def permitted (name : Json) (rule : Rule) : Bool :=
  match name with
  | .str s =>
    !s.isEmpty && (match rule.enabledTools with
      | none => true
      | some enabled => enabled.contains s) && !rule.disabledTools.contains s
  | _ => false

section Fields

variable {fields : Fields} {name k : String} {value : Json}

theorem get_set : get (set fields name value) k =
    if Points.ofString k = Points.ofString name then value else get fields k := by
  unfold RunActions.get
  rw [set, Json.lookup_setField]
  split <;> rfl

theorem has_eq : has fields name = (fields.lookup (Points.ofString name)).isSome := by
  induction fields with
  | nil => rfl
  | cons f fields ih =>
    obtain ⟨n, v⟩ := f
    rw [has, List.any_cons, ← has, ih, List.lookup_cons]
    by_cases hname : n = Points.ofString name
    · simp [hname]
    · have hne : (Points.ofString name == n) = false := by simpa using Ne.symm hname
      have hne' : (n == Points.ofString name) = false := by simpa using hname
      simp [hne, hne']

theorem has_set : has (set fields name value) k =
    (decide (Points.ofString k = Points.ofString name) || has fields k) := by
  rw [has_eq, has_eq, set, Json.lookup_setField]
  split <;> simp [*]

theorem get_of_not_has (h : has fields name = false) : get fields name = .null := by
  rw [has_eq, Option.isSome_eq_false_iff, Option.isNone_iff_eq_none] at h
  unfold RunActions.get
  rw [h]
  rfl

end Fields

/-! ## The native context -/

/-- The environment of the relay, and the object in the file that it names. -/
structure NativeEnv where
  rawPath : Points
  token : Points
  absolute : Bool
  context : Except FilterError Fields

/-- A text that is not empty. -/
def isName : Json → Bool
  | .str s => !s.isEmpty
  | _ => false

/-- `native_turn_metadata`. -/
def nativeTurnMetadata (env : NativeEnv) : Except FilterError (Option Json) :=
  if env.rawPath.isEmpty && env.token.isEmpty then .ok none
  else if env.rawPath.isEmpty || env.token.isEmpty || !env.absolute then .error .contextUnavailable
  else do
    let context ← env.context
    let active := match get context "nativeSessionActive" with
      | .bool b => b
      | _ => false
    if !isText (get context "contextToken") env.token || !active then .error .contextStale
    else if !(isName (get context "nativeSessionId") && isName (get context "nativeTurnId")) then
      .error .identityUnavailable
    else
      return some (.obj
        [(Points.ofString "session_id", get context "nativeSessionId"),
         (Points.ofString "turn_id", get context "nativeTurnId")])

/-- `{**(value or {}), ...}`, of a value that is absent or an object. -/
def optionalFields (e : FilterError) : Json → Except FilterError Fields
  | .null => .ok []
  | .obj fields => .ok fields
  | _ => .error e

/-- A call with what its native session is. -/
def withTurnMetadata (env : NativeEnv) (fields : Fields) : Except FilterError Fields := do
  match ← nativeTurnMetadata env, get fields "params" with
  | some metadata, .obj params =>
    let originalMeta ← optionalFields .requestMetadata (get params "_meta")
    return set fields "params"
      (.obj (set params "_meta" (.obj (set originalMeta "x-codex-turn-metadata" metadata))))
  | _, _ => .error .contextUnavailable

/-- The fields that are shown of a permission, first to last. -/
def displayFields : List (String × String) :=
  [("tool_title", "title"), ("tool_name", "title"), ("connector_name", "displayName"),
   ("tool_description", "description")]

/-- What is shown of a permission. -/
def presentationOf (fields : Fields) : Fields :=
  displayFields.foldl (fun presentation f =>
    if isName (get fields f.1) && !has presentation f.2 then
      set presentation f.2 (get fields f.1)
    else presentation) []

/-- `native_permission_presentation`. -/
def nativePermissionPresentation (packet : Fields) : Fields :=
  if isText (get packet "method") (Points.ofString "elicitation/create") then
    match get packet "params" with
    | .obj params =>
      match get params "_meta" with
      | .obj metadata =>
        let presentation := presentationOf metadata
        if has metadata "anthropic/permissionDisplay" || presentation.isEmpty then packet
        else set packet "params" (.obj (set params "_meta"
          (.obj (set metadata "anthropic/permissionDisplay" (.obj presentation)))))
      | _ => packet
    | _ => packet
  else packet

/-! ## The filter -/

/-- A batch of the client: the requests without a response, and the responses. -/
structure Batch where
  pending : List Points
  responses : List Json

/-- What a relay is started with, and what depends on the interpreter. -/
structure Projection where
  rule : Rule
  nativeContext : Bool
  py : Interpreter
  floatText : Points → Points

/-- The state of a `ToolFilter`. `heap` holds the batches under their numbers. -/
structure ToolFilter where
  elicitations : Table Points (Points × List Points) := .empty
  lists : List Points := []
  batches : Table Points ℕ := .empty
  heap : Table ℕ Batch := .empty

/-- The items of a list or of an object, between commas. -/
def commas : List Points → Points
  | [] => []
  | [t] => t
  | t :: ts => t ++ Points.ofString ", " ++ commas ts

mutual

/-- `json.dumps` with sorted keys. -/
def dumpsSorted (p : Projection) : Json → Points
  | .null => Points.ofString "null"
  | .bool b => Points.ofString (if b then "true" else "false")
  | .int n => Json.renderInt n
  | .float t => p.floatText t
  | .str s => AsciiJson.quote s
  | .arr items => 91 :: (commas (dumpsSortedItems p items) ++ [93])
  | .obj fields =>
    123 :: (commas (((dumpsSortedFields p fields).insertionSort fun f g => f.1 ≤ g.1).map fun f =>
      AsciiJson.quote f.1 ++ Points.ofString ": " ++ f.2) ++ [125])
  termination_by structural v => v

def dumpsSortedItems (p : Projection) : List Json → List Points
  | [] => []
  | v :: vs => dumpsSorted p v :: dumpsSortedItems p vs
  termination_by structural vs => vs

def dumpsSortedFields (p : Projection) : Fields → List (Points × Points)
  | [] => []
  | (k, v) :: fs => (k, dumpsSorted p v) :: dumpsSortedFields p fs
  termination_by structural fs => fs

end

/-- `key`. -/
def key (p : Projection) (packet : Fields) : Points :=
  dumpsSorted p (get packet "id")

def scopeField : String :=
  "_viventium_permission_scope"

/-- How a scope is shown. -/
def scopeLabel (scope : Points) : Points :=
  Points.ofString (if scope = Points.ofString "session" then "For this task" else "Always")

/-- The scopes that are offered, of those that there are. -/
def offeredScopes (offered : List Json) : List Points :=
  [Points.ofString "session", Points.ofString "always"].filter fun scope =>
    offered.any fun v => isText v scope

/-- The field of a form that asks for the scope. -/
def scopeQuestion (scopes : List Points) : Json :=
  .obj
    [(Points.ofString "type", .str (Points.ofString "string")),
     (Points.ofString "title", .str (Points.ofString "Remember approval")),
     (Points.ofString "description",
       .str (Points.ofString "Optional. Leave empty for this request only.")),
     (Points.ofString "oneOf", .arr (scopes.map fun scope =>
       .obj
         [(Points.ofString "const", .str scope),
          (Points.ofString "title", .str (scopeLabel scope))]))]

/-- `permission_request`. -/
def permissionRequest (p : Projection) (s : ToolFilter) (packet : Fields) :
    Except FilterError (ToolFilter × Fields) :=
  if isText (get packet "method") (Points.ofString "elicitation/create") && has packet "id" then
    match get packet "params" with
    | .obj params =>
      match get params "_meta", get params "requestedSchema" with
      | .obj metadata, .obj schema =>
        match get metadata "persist", getOr schema "properties" (.obj []) with
        | .arr offered, .obj properties =>
          let scopes := offeredScopes offered
          let mode := getOr params "mode" (.str (Points.ofString "form"))
          if !isText mode (Points.ofString "form") ||
              !isText (get schema "type") (Points.ofString "object") || scopes.isEmpty ||
              has properties scopeField then
            .ok (s, packet)
          else
            match s.elicitations.insert? (key p packet) (Points.ofString scopeField, scopes) with
            | none => .error .elicitationPending
            | some elicitations =>
              .ok ({ s with elicitations }, set packet "params" (.obj (set params "requestedSchema"
                (.obj (set schema "properties"
                  (.obj (set properties scopeField (scopeQuestion scopes))))))))
        | _, _ => .ok (s, packet)
      | _, _ => .ok (s, packet)
    | _ => .ok (s, packet)
  else .ok (s, packet)

/-- The result of a form without the field of the scope, with the scope in its metadata. -/
def restoredResult (field : Points) (choice : Json) (result content : Fields) :
    Except FilterError Fields :=
  let restored := set result "content" (.obj (content.filter fun f => f.1 ≠ field))
  if isText (get result "action") (Points.ofString "accept") then
    match getOr result "_meta" (.obj []) with
    | .obj metadata =>
      .ok (set restored "_meta"
        (.obj (metadata.foldl Json.setField [(Points.ofString "persist", choice)])))
    | _ => .error .resultMetadata
  else .ok restored

/-- `permission_response`. -/
def permissionResponse (p : Projection) (s : ToolFilter) (packet : Fields) :
    Except FilterError (ToolFilter × Fields) :=
  if has packet "method" || !has packet "id" then .ok (s, packet)
  else
    match s.elicitations.get? (key p packet) with
    | none => .ok (s, packet)
    | some (field, scopes) =>
      let s := { s with elicitations := s.elicitations.delete fun k _ => k = key p packet }
      match get packet "result" with
      | .obj result =>
        match get result "content" with
        | .obj content =>
          match content.lookup field with
          | none => .ok (s, packet)
          | some choice =>
            if scopes.any (isText choice) then
              (restoredResult field choice result content).map fun result =>
                (s, set packet "result" (.obj result))
            else .error .scopeNotOffered
        | _ => .ok (s, packet)
      | _ => .ok (s, packet)

/-! ## What the client sends -/

/-- The tool that a call names. -/
def calledName (packet : Fields) : Json :=
  match get packet "params" with
  | .obj params => get params "name"
  | _ => .null

/-- A call that is not let through. -/
def excluded (p : Projection) (packet : Fields) : Bool :=
  isText (get packet "method") (Points.ofString "tools/call") &&
    !permitted (calledName packet) p.rule

/-- The response to a call that is not let through. -/
def denial (id : Json) : Json :=
  .obj
    [(Points.ofString "jsonrpc", .str (Points.ofString "2.0")),
     (Points.ofString "id", id),
     (Points.ofString "error", .obj
       [(Points.ofString "code", .int (-32602)),
        (Points.ofString "message",
          .str (Points.ofString "Tool excluded by the selected native MCP configuration."))])]

/-- What `client` has gathered. -/
structure Gathered where
  filter : ToolFilter
  forwarded : List Json := []
  errors : List Json := []
  ids : List Points := []

/-- In a native context the choice of a scope is taken out of a form. -/
def restored (p : Projection) (s : ToolFilter) (packet : Fields) :
    Except FilterError (ToolFilter × Fields) :=
  if p.nativeContext then permissionResponse p s packet else .ok (s, packet)

/-- In a native context a call carries the native session. -/
def inContext (p : Projection) (env : NativeEnv) (packet : Fields) : Except FilterError Fields :=
  if p.nativeContext && isText (get packet "method") (Points.ofString "tools/call") then
    withTurnMetadata env packet
  else .ok packet

/-- The body of the loop of `client`. -/
def clientItem (p : Projection) (env : NativeEnv) (acc : Gathered) (item : Json) :
    Except FilterError Gathered :=
  match item with
  | .obj fields => do
    let (filter, fields) ← restored p acc.filter fields
    let method := get fields "method"
    if excluded p fields then
      return { acc with
        filter
        errors := if has fields "id" then acc.errors ++ [denial (get fields "id")] else acc.errors }
    else
      let fields ← inContext p env fields
      let acc := { acc with filter, forwarded := acc.forwarded ++ [.obj fields] }
      if truthy p.py method && has fields "id" then
        let lists := if isText method (Points.ofString "tools/list") then
            filter.lists.insert (key p fields)
          else filter.lists
        return { acc with ids := acc.ids ++ [key p fields], filter := { filter with lists } }
      else return acc
  | item => .ok { acc with forwarded := acc.forwarded ++ [item] }

/-- `None` is nothing. -/
def nonNull : Json → Option Json
  | .null => none
  | v => some v

/-- A batch for the requests of a packet. -/
def openBatch (s : ToolFilter) (ref : ℕ) (ids : List Points) (errors : List Json) : ToolFilter :=
  { s with
    batches := ids.foldl (fun batches key => batches.put key ref) s.batches
    heap := s.heap.put ref ⟨ids, errors⟩ }

/-- `client`, with the number of a new batch: the packet for the child, and the one for the
client. -/
def client (p : Projection) (env : NativeEnv) (ref : ℕ) (s : ToolFilter) (packet : Json) :
    Except FilterError (ToolFilter × Option Json × Option Json) :=
  match packet with
  | .arr items => do
    let acc ← items.foldlM (clientItem p env) { filter := s }
    let forwarded := if acc.forwarded.isEmpty && !items.isEmpty then none
      else some (.arr acc.forwarded)
    if acc.ids.isEmpty then
      return (acc.filter, forwarded, if acc.errors.isEmpty then none else some (.arr acc.errors))
    else return (openBatch acc.filter ref acc.ids acc.errors, forwarded, none)
  | item => do
    let acc ← clientItem p env { filter := s } item
    return (acc.filter, acc.forwarded.head?.bind nonNull, acc.errors.head?)

/-! ## What the child sends -/

/-- A result with the tools that are permitted. -/
def listed (p : Projection) (packet : Fields) : Fields :=
  match get packet "result" with
  | .obj result =>
    match get result "tools" with
    | .arr tools =>
      set packet "result" (.obj (set result "tools" (.arr (tools.filter fun tool => match tool with
        | .obj fields => permitted (get fields "name") p.rule
        | _ => false))))
    | _ => packet
  | _ => packet

/-- What `child` puts out: an item, or the responses of a batch. -/
inductive Output
  | item (value : Json)
  | batch (responses : List Json)

/-- A response is taken to its batch. -/
def answerBatch (s : ToolFilter) (ref : ℕ) (key : Points) (response : Json) :
    ToolFilter × List Output :=
  let batch := (s.heap.get? ref).getD ⟨[], []⟩
  let batch : Batch := ⟨batch.pending.filter (· ≠ key), batch.responses ++ [response]⟩
  ({ s with
      batches := s.batches.delete fun k _ => k = key
      heap := s.heap.put ref batch },
    if batch.pending.isEmpty then [.batch batch.responses] else [])

/-- A response of the child. -/
def childResponse (p : Projection) (s : ToolFilter) (fields : Fields) : ToolFilter × List Output :=
  let key := key p fields
  let (s, fields) := if s.lists.contains key then
      ({ s with lists := s.lists.filter (· ≠ key) }, listed p fields)
    else (s, fields)
  match s.batches.get? key with
  | none => (s, [.item (.obj fields)])
  | some ref => answerBatch s ref key (.obj fields)

/-- In a native context a permission is shown with its fields, and asks for a scope. -/
def presented (p : Projection) (s : ToolFilter) (packet : Fields) :
    Except FilterError (ToolFilter × Fields) :=
  if p.nativeContext then permissionRequest p s (nativePermissionPresentation packet)
  else .ok (s, packet)

/-- The body of the loop of `child`. -/
def childItem (p : Projection) (acc : ToolFilter × List Output) (item : Json) :
    Except FilterError (ToolFilter × List Output) :=
  match item with
  | .obj fields => do
    let (s, fields) ← presented p acc.1 fields
    if has fields "method" || !has fields "id" then
      return (s, acc.2 ++ [.item (.obj fields)])
    else
      let (s, output) := childResponse p s fields
      return (s, acc.2 ++ output)
  | item => .ok (acc.1, acc.2 ++ [.item item])

/-- An output as a part of an array. -/
def Output.flat : Output → List Json
  | .item (.arr vs) => vs
  | .item v => [v]
  | .batch responses => responses

/-- An output as a packet. -/
def Output.packet : Output → Option Json
  | .item v => nonNull v
  | .batch responses => some (.arr responses)

/-- `child`. -/
def child (p : Projection) (s : ToolFilter) (packet : Json) :
    Except FilterError (ToolFilter × Option Json) :=
  match packet with
  | .arr items => do
    let (s, output) ← items.foldlM (childItem p) (s, [])
    let flattened := output.flatMap Output.flat
    return (s, if flattened.isEmpty then none else some (.arr flattened))
  | item => do
    let (s, output) ← childItem p (s, []) item
    return (s, output.head?.bind Output.packet)

end GlassHive.McpFilter
