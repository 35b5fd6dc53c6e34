import GlassHive.Library.Exchange
import GlassHive.ToolFilter

/-!
# Sessions through the tool filter

A client and a child exchange messages through the filter, one by one or in batches. No call of a
tool that is not permitted reaches the child, and every request is answered once: by a denial, or by
the response of the child, which waits until the other requests of its batch have their responses.
In a native context the filter adds to what it forwards.

The book of what is asked and answered is kept beside the filter, which knows of it only what its
own tables say.
-/

namespace GlassHive.McpFilter

open Relational RunActions Transition Exchange

/-! ## Packets -/

/-- One message, or a batch. -/
inductive Packet
  | single (message : Fields)
  | batch (messages : List Fields)

namespace Packet

def messages : Packet → List Fields
  | .single m => [m]
  | .batch ms => ms

def isBatch : Packet → Bool
  | .single _ => false
  | .batch _ => true

def toJson : Packet → Json
  | .single m => .obj m
  | .batch ms => .arr (ms.map .obj)

end Packet

inductive McpEvent
  | client (env : NativeEnv) (packet : Packet)
  | child (packet : Packet)

/-- The messages of a packet. -/
def itemsOf : Json → List Json
  | .arr items => items
  | item => [item]

/-! ## Requests -/

/-- A request of the client, in the packet with a number. -/
structure Request where
  packet : ℕ
  key : Points
  batch : Bool
  list : Bool
  denied : Bool
  deriving DecidableEq

/-- A message with a method and an identifier. -/
def isRequest (p : Projection) (m : Fields) : Bool :=
  truthy p.py (get m "method") && has m "id"

/-- A message with an identifier and without a method. -/
def isResponse (m : Fields) : Bool :=
  !has m "method" && has m "id"

def requestOf (p : Projection) (n : ℕ) (batch : Bool) (m : Fields) : Request where
  packet := n
  key := key p m
  batch := batch
  list := isText (get m "method") (Points.ofString "tools/list")
  denied := excluded p m

/-- The requests of a packet. -/
def requestsOf (p : Projection) (n : ℕ) (packet : Packet) : List Request :=
  (packet.messages.filter (isRequest p)).map (requestOf p n packet.isBatch)

/-- The requests of a packet that are denied, with their responses. -/
def denialsOf (p : Projection) (n : ℕ) (packet : Packet) : List (Request × Json) :=
  (packet.messages.filter fun m => isRequest p m && excluded p m).map fun m =>
    (requestOf p n packet.isBatch m, denial (get m "id"))

abbrev RequestBook := Book Request Json

/-- The request that a message of the child answers. -/
def answeredRequest (p : Projection) (b : RequestBook) (m : Fields) : Option Request :=
  if isResponse m then b.waiting.find? fun r => r.key = key p m else none

/-- What goes out of a packet of the client, as the responses to requests. -/
def settledResponses (b : RequestBook) (n : ℕ) : List (Option Request × Json) :=
  (b.settled Request.packet n).map fun e => (some e.1, e.2)

/-- A message of the child is taken to the book: what goes out, each with the request that it
answers. -/
def receive (p : Projection) (b : RequestBook) (m : Fields) :
    RequestBook × List (Option Request × Json) :=
  match answeredRequest p b m with
  | none => (b, [(none, .obj m)])
  | some r =>
    let b := b.record [] [(r, .obj m)]
    (b, settledResponses b r.packet)

/-- The messages of a packet of the child, each with the request that it answers, and what goes
out. -/
def receiveAll (p : Projection) : RequestBook → List Fields →
    RequestBook × List (Option Request × Json) × List (Option Request × Json)
  | b, [] => (b, [], [])
  | b, m :: ms =>
    let (b', out) := receive p b m
    let (b'', received, out') := receiveAll p b' ms
    (b'', (answeredRequest p b m, .obj m) :: received, out ++ out')

/-! ## Sessions -/

/-- The filter, and beside it the book, the messages of both sides, the packets that have gone to
them, and of what each packet to the client is made. -/
structure Session where
  filter : ToolFilter := {}
  stopped : Bool := false
  book : RequestBook := {}
  packets : ℕ := 0
  sent : List Fields := []
  toChild : List Json := []
  received : List (Option Request × Json) := []
  toClient : List Json := []
  delivered : List (List (Option Request × Json)) := []

/-- An entry of the log, when there is something in it. -/
def entry (out : List (Option Request × Json)) : List (List (Option Request × Json)) :=
  if out.isEmpty then [] else [out]

def step (p : Projection) (s : Session) (e : McpEvent) : Session :=
  if s.stopped then s
  else match e with
  | .client env packet =>
    match client p env s.packets s.filter packet.toJson with
    | .error _ => { s with stopped := true }
    | .ok (filter, forwarded, response) =>
      let book := s.book.record (requestsOf p s.packets packet) (denialsOf p s.packets packet)
      { s with
        filter
        book
        packets := s.packets + 1
        sent := s.sent ++ packet.messages
        toChild := s.toChild ++ forwarded.toList
        toClient := s.toClient ++ response.toList
        delivered := s.delivered ++ entry (settledResponses book s.packets) }
  | .child packet =>
    match child p s.filter packet.toJson with
    | .error _ => { s with stopped := true }
    | .ok (filter, response) =>
      let (book, received, out) := receiveAll p s.book packet.messages
      { s with
        filter
        book
        received := s.received ++ received
        toClient := s.toClient ++ response.toList
        delivered := s.delivered ++ entry out }

/-! ## What is to hold -/

/-- The identifiers of the requests of a packet differ from each other and from those of the
requests that wait. -/
def Fresh (p : Projection) (s : Session) : McpEvent → Prop
  | .client _ packet =>
    ((packet.messages.filter (isRequest p)).map (key p)).Nodup ∧
      ∀ m ∈ packet.messages.filter (isRequest p), ∀ r ∈ s.book.waiting, r.key ≠ key p m
  | .child _ => True

/-- What the child gets of a message: in a native context a call with the native session, or a
response with another result. -/
def Forwards (p : Projection) (m m' : Fields) : Prop :=
  if p.nativeContext then
    if isText (get m "method") (Points.ofString "tools/call") then
      ∃ env, withTurnMetadata env m = .ok m'
    else m' = m ∨ isResponse m = true ∧ ∃ result, m' = set m "result" result
  else m' = m

/-- What the client gets of a message that answers no request: in a native context a permission with
other parameters. -/
def Shows (p : Projection) (m m' : Fields) : Prop :=
  m' = m ∨ p.nativeContext = true ∧
    isText (get m "method") (Points.ofString "elicitation/create") = true ∧
      ∃ params, m' = set m "params" params

/-- The tools that a message lists. -/
def toolsOf (m : Fields) : List Json :=
  match get m "result" with
  | .obj result =>
    match get result "tools" with
    | .arr tools => tools
    | _ => []
  | _ => []

/-- A tool that is listed is permitted. -/
def permittedTool (p : Projection) : Json → Bool
  | .obj fields => permitted (get fields "name") p.rule
  | _ => false

/-- What the client gets of a response or of another message. -/
def Delivers (p : Projection) : Option Request × Json → Json → Prop
  | (some r, v), v' =>
    if r.list then ∃ m, v = .obj m ∧ v' = .obj (listed p m) ∧
      toolsOf (listed p m) = (toolsOf m).filter (permittedTool p)
    else v' = v
  | (none, v), v' => ∃ m m', v = .obj m ∧ v' = .obj m' ∧ Shows p m m'

/-- A response that is not held: to no request, or to one that is alone in its packet. -/
def passes : Option Request × Json → Bool
  | (none, _) => true
  | (some r, _) => !r.batch && !r.denied

/-- The requests whose responses are in an entry. -/
def requestsIn (out : List (Option Request × Json)) : List Request :=
  out.filterMap Prod.fst

/-- The packet to the client that an entry is about. The responses to a batch are in an array. -/
structure Delivered (p : Projection) (out : List (Option Request × Json)) (packet : Json) :
    Prop where
  messages : List.Forall₂ (Delivers p) out (itemsOf packet)
  array : (∃ r ∈ requestsIn out, r.batch = true) → ∃ items, packet = .arr items

/-- What the filter does in a session. -/
structure Filtered (p : Projection) (s : Session) : Prop where
  calls : ∀ packet ∈ s.toChild, ∀ m, .obj m ∈ itemsOf packet →
    isText (get m "method") (Points.ofString "tools/call") = true →
      permitted (calledName m) p.rule = true
  forwarded : List.Forall₂ (fun m v => ∃ m', v = .obj m' ∧ Forwards p m m')
    (s.sent.filter fun m => !excluded p m) (s.toChild.flatMap itemsOf)
  requests : s.book.asked.map Request.key = (s.sent.filter (isRequest p)).map (key p)
  responses : s.book.answers.filter (fun e => !e.1.denied) =
    s.received.filterMap fun e => e.1.map fun r => (r, e.2)
  denials : ∀ r v, (r, v) ∈ s.book.answers → r.denied = true → ∃ id, v = denial id
  identified : ∀ r v, (r, v) ∈ s.book.answers → ∃ m, v = .obj m ∧ key p m = r.key
  exchanged : Sound Request.packet s.book (s.delivered.flatMap requestsIn)
  together : ∀ out ∈ s.delivered, ∀ r ∈ requestsIn out, ∀ r' ∈ s.book.asked,
    r'.packet = r.packet → r' ∈ requestsIn out
  answered : ∀ out ∈ s.delivered, ∀ r v, (some r, v) ∈ out → (r, v) ∈ s.book.answers
  delivered : List.Forall₂ (Delivered p) s.delivered s.toClient
  passed : s.delivered.flatten.filter passes = s.received.filter passes

/-! ## The book -/

/-- What the book of a session is like after so many packets of the client. -/
structure Booked (p : Projection) (b : RequestBook) (n : ℕ) : Prop where
  keys : ∀ r ∈ b.waiting, ∀ r' ∈ b.waiting, r.key = r'.key → r = r'
  recent : ∀ r ∈ b.asked, r.packet < n
  single : ∀ r ∈ b.asked, ∀ r' ∈ b.asked, r.packet = r'.packet →
    r.batch = r'.batch ∧ (r.batch = false → r = r')
  allowed : ∀ r ∈ b.waiting, r.denied = false
  denials : ∀ r v, (r, v) ∈ b.answers → r.denied = true → ∃ id, v = denial id
  identified : ∀ r v, (r, v) ∈ b.answers → ∃ m, v = .obj m ∧ key p m = r.key

@[simp]
theorem requestsIn_append (out out' : List (Option Request × Json)) :
    requestsIn (out ++ out') = requestsIn out ++ requestsIn out' :=
  List.filterMap_append ..

@[simp]
theorem requestsIn_settledResponses (b : RequestBook) (n : ℕ) :
    requestsIn (settledResponses b n) = (b.settled Request.packet n).map Prod.fst := by
  simp [requestsIn, settledResponses, List.filterMap_map]

theorem mem_settledResponses {b : RequestBook} {n : ℕ} {o : Option Request} {v : Json}
    (h : (o, v) ∈ settledResponses b n) :
    ∃ r, o = some r ∧ (r, v) ∈ b.answers ∧ r.packet = n := by
  obtain ⟨e, he, heq⟩ := List.mem_map.mp h
  obtain ⟨rfl, rfl⟩ := Prod.mk.inj heq
  obtain ⟨hanswer, hpacket⟩ := mem_answers_of_mem_settled he
  exact ⟨e.1, rfl, hanswer, hpacket⟩

section Book

variable {p : Projection} {b : RequestBook} {n : ℕ} {m : Fields} {r : Request}
  {out : List Request}

theorem answeredRequest_eq_some (h : answeredRequest p b m = some r) :
    isResponse m = true ∧ r ∈ b.waiting ∧ r.key = key p m := by
  unfold answeredRequest at h
  split at h
  · rename_i hresponse
    have hkey := List.find?_some h
    exact ⟨hresponse, List.mem_of_find?_eq_some h, by simpa using hkey⟩
  · simp at h

theorem answeredRequest_eq_none (h : answeredRequest p b m = none) (hm : isResponse m = true) :
    ∀ r ∈ b.waiting, r.key ≠ key p m := by
  rw [answeredRequest, if_pos hm] at h
  simpa using h

theorem receive_of_none (h : answeredRequest p b m = none) :
    receive p b m = (b, [(none, .obj m)]) := by
  rw [receive, h]

theorem receive_of_some (h : answeredRequest p b m = some r) :
    receive p b m = (b.record [] [(r, .obj m)],
      settledResponses (b.record [] [(r, .obj m)]) r.packet) := by
  rw [receive, h]

/-- The book after a message of the child. -/
theorem booked_receive (hb : Booked p b n) : Booked p (receive p b m).1 n := by
  cases h : answeredRequest p b m with
  | none => rwa [receive_of_none h]
  | some r =>
    obtain ⟨-, hwaiting, hkey⟩ := answeredRequest_eq_some h
    rw [receive_of_some h]
    refine ⟨fun r₁ h₁ r₂ h₂ => ?_, ?_, ?_, fun r₁ h₁ => ?_, fun r₁ v h₁ => ?_, fun r₁ v h₁ => ?_⟩
    · exact hb.keys r₁ (mem_waiting_answer.mp h₁).1 r₂ (mem_waiting_answer.mp h₂).1
    · simpa using hb.recent
    · simpa using hb.single
    · exact hb.allowed r₁ (mem_waiting_answer.mp h₁).1
    · rcases List.mem_append.mp h₁ with hold | hnew
      · exact hb.denials r₁ v hold
      · obtain ⟨rfl, rfl⟩ : r₁ = r ∧ v = .obj m := by simpa using hnew
        simp [hb.allowed r₁ hwaiting]
    · rcases List.mem_append.mp h₁ with hold | hnew
      · exact hb.identified r₁ v hold
      · obtain ⟨rfl, rfl⟩ : r₁ = r ∧ v = .obj m := by simpa using hnew
        exact ⟨m, rfl, hkey.symm⟩

theorem sound_receive (hs : Sound Request.packet b out) :
    Sound Request.packet (receive p b m).1 (out ++ requestsIn (receive p b m).2) := by
  cases h : answeredRequest p b m with
  | none =>
    rw [receive_of_none h]
    simpa [requestsIn] using hs
  | some =>
    rw [receive_of_some h, requestsIn_settledResponses]
    exact hs.answer (answeredRequest_eq_some h).2.1 _

theorem asked_receive : (receive p b m).1.asked = b.asked := by
  unfold receive
  split
  · rfl
  · exact List.append_nil _

/-- The responses to the requests of a packet go out together. -/
theorem together_receive {r' : Request} (hr : r ∈ requestsIn (receive p b m).2)
    (hr' : r' ∈ b.asked) (hpacket : r'.packet = r.packet) :
    r' ∈ requestsIn (receive p b m).2 := by
  cases h : answeredRequest p b m with
  | none =>
    rw [receive_of_none h] at hr
    simp [requestsIn] at hr
  | some =>
    rw [receive_of_some h, requestsIn_settledResponses] at hr ⊢
    exact together_settled hr (List.mem_append_left _ hr') hpacket

theorem answers_receive : (receive p b m).1.answers =
    b.answers ++ (answeredRequest p b m).toList.map fun r => (r, .obj m) := by
  unfold receive
  split
  · rename_i h
    simp [h]
  · rename_i h
    simp [h]

/-- A request that is alone in its packet has its response at once. -/
theorem settled_of_single (hs : Sound Request.packet b out) (hb : Booked p b n)
    (hr : r ∈ b.waiting) (hbatch : r.batch = false) (v : Json) :
    (b.record [] [(r, v)]).settled Request.packet r.packet = [(r, v)] := by
  have hasked := waiting_subset hr
  have hopen : r ∉ b.answered := (mem_waiting.mp hr).2
  have halone : ∀ r' ∈ b.asked, r'.packet = r.packet → r' = r := fun r' hr' hpacket =>
    ((hb.single r hasked r' hr' hpacket.symm).2 hbatch).symm
  have hcomplete : (b.record [] [(r, v)]).complete Request.packet r.packet = true := by
    rw [complete_iff]
    intro r' hr' hpacket
    rw [halone r' (by simpa using hr') hpacket]
    simp
  have hnone : b.gathered Request.packet r.packet = [] := by
    rw [List.eq_nil_iff_forall_not_mem]
    intro e he
    have hmem : e.1 ∈ b.answered ∧ e.1.packet = r.packet :=
      mem_map_gathered.mp (List.mem_map_of_mem he)
    have heq := halone e.1 (hs.subset e.1 hmem.1) hmem.2
    exact hopen (heq ▸ hmem.1)
  rw [Book.settled, if_pos hcomplete, gathered_record, hnone]
  simp

/-- What is not held goes out as it comes. -/
theorem filter_passes_receive (hs : Sound Request.packet b out) (hb : Booked p b n) :
    (receive p b m).2.filter passes = [(answeredRequest p b m, .obj m)].filter passes := by
  cases h : answeredRequest p b m with
  | none => rw [receive_of_none h]
  | some r =>
    obtain ⟨-, hr, -⟩ := answeredRequest_eq_some h
    rw [receive_of_some h]
    cases hbatch : r.batch with
    | false => rw [settledResponses, settled_of_single hs hb hr hbatch, List.map_singleton]
    | true =>
      have hheld : passes (some r, .obj m) = false := by simp [passes, hbatch]
      rw [List.filter_singleton, hheld]
      refine List.filter_eq_nil_iff.mpr ?_
      rintro ⟨o, v⟩ he
      obtain ⟨r', rfl, hanswer, hpacket⟩ := mem_settledResponses he
      have hasked' : r' ∈ (b.record [] [(r, .obj m)]).asked :=
        (hs.answer hr (.obj m)).subset r' (mem_answered_of_mem hanswer)
      have hsame := (hb.single r' (by simpa using hasked') r (waiting_subset hr) hpacket).1
      simp [passes, hsame, hbatch]

end Book

/-! ## Fields that are not touched -/

theorem names_distinct :
    Points.ofString "method" ≠ Points.ofString "params" ∧
      Points.ofString "id" ≠ Points.ofString "params" ∧
      Points.ofString "method" ≠ Points.ofString "result" ∧
      Points.ofString "id" ≠ Points.ofString "result" ∧
      Points.ofString "params" ≠ Points.ofString "result" ∧
      Points.ofString "name" ≠ Points.ofString "_meta" ∧
      Points.ofString "tools/call" ≠ Points.ofString "tools/list" ∧
      Points.ofString "tools/call" ≠ [] ∧
      Points.ofString "elicitation/create" ≠ Points.ofString "tools/call" ∧
      Points.ofString "id" ≠ Points.ofString "jsonrpc" := by
  decide +kernel

/-- A message with other contents: what makes it a request or a response is the same. -/
structure SameEnvelope (m m' : Fields) : Prop where
  method : get m' "method" = get m "method"
  hasMethod : has m' "method" = has m "method"
  id : get m' "id" = get m "id"
  hasId : has m' "id" = has m "id"

section Envelope

variable {p : Projection} {m m' : Fields} {s s' : ToolFilter}

theorem SameEnvelope.refl (m : Fields) : SameEnvelope m m :=
  ⟨rfl, rfl, rfl, rfl⟩

theorem SameEnvelope.key (h : SameEnvelope m m') : key p m' = key p m := by
  rw [McpFilter.key, McpFilter.key, h.id]

theorem sameEnvelope_params (m : Fields) (v : Json) : SameEnvelope m (set m "params" v) := by
  obtain ⟨hmethod, hid, -⟩ := names_distinct
  constructor
  · rw [get_set, if_neg hmethod]
  · simp [has_set, hmethod]
  · rw [get_set, if_neg hid]
  · simp [has_set, hid]

theorem sameEnvelope_result (m : Fields) (v : Json) : SameEnvelope m (set m "result" v) := by
  obtain ⟨-, -, hmethod, hid, -⟩ := names_distinct
  constructor
  · rw [get_set, if_neg hmethod]
  · simp [has_set, hmethod]
  · rw [get_set, if_neg hid]
  · simp [has_set, hid]

theorem calledName_result (m : Fields) (v : Json) :
    calledName (set m "result" v) = calledName m := by
  obtain ⟨-, -, -, -, hparams, -⟩ := names_distinct
  rw [calledName, get_set, if_neg hparams, calledName]

/-- A call with the native session is a call of the same tool. -/
theorem withTurnMetadata_spec {env : NativeEnv} (h : withTurnMetadata env m = .ok m') :
    SameEnvelope m m' ∧ calledName m' = calledName m := by
  simp only [withTurnMetadata, Fallible.bind_eq_ok] at h
  obtain ⟨metadata, -, h⟩ := h
  split at h
  · rename_i params _ hparams
    simp only [Fallible.bind_eq_ok] at h
    obtain ⟨originalMeta, -, h⟩ := h
    obtain rfl := Except.ok.inj h
    obtain ⟨-, -, -, -, -, hname, -⟩ := names_distinct
    refine ⟨sameEnvelope_params m _, ?_⟩
    simp only [calledName, get_set, if_true, hparams, if_neg hname]
  · simp at h

/-- What is left of the filter by what handles permissions. -/
structure SameTables (s s' : ToolFilter) : Prop where
  lists : s'.lists = s.lists
  batches : s'.batches = s.batches
  heap : s'.heap = s.heap

/-- A response takes the elicitation that is pending under its identifier, and is left as it is when
it does not fill in the field. -/
inductive TakesScope (p : Projection) (s : ToolFilter) (m : Fields) : ToolFilter → Fields → Prop
  | kept {field : Points} {scopes : List Points} (hresponse : isResponse m = true)
      (hpending : s.elicitations.get? (key p m) = some (field, scopes))
      (hempty : ∀ result content, get m "result" = .obj result →
        get result "content" = .obj content → content.lookup field = none) :
      TakesScope p s m { s with elicitations := s.elicitations.delete fun k _ => k = key p m } m
  | restored {field : Points} {scopes : List Points} {result content restored : Fields}
      {choice : Json} (hresponse : isResponse m = true)
      (hpending : s.elicitations.get? (key p m) = some (field, scopes))
      (hresult : get m "result" = .obj result) (hcontent : get result "content" = .obj content)
      (hchoice : content.lookup field = some choice)
      (hoffered : scopes.any (isText choice) = true)
      (hrestored : restoredResult field choice result content = .ok restored) :
      TakesScope p s m { s with elicitations := s.elicitations.delete fun k _ => k = key p m }
        (set m "result" (.obj restored))

theorem permissionResponse_cases (h : permissionResponse p s m = .ok (s', m')) :
    (s' = s ∧ m' = m ∧ (isResponse m = true → s.elicitations.get? (key p m) = none)) ∨
      TakesScope p s m s' m' := by
  unfold permissionResponse at h
  split at h
  · rename_i hother
    obtain ⟨rfl, rfl⟩ := Prod.mk.inj (Except.ok.inj h)
    refine Or.inl ⟨rfl, rfl, fun hresponse => ?_⟩
    rw [isResponse, Bool.and_eq_true, Bool.not_eq_true'] at hresponse
    simp [hresponse] at hother
  rename_i hresponse
  have hm : isResponse m = true := by simpa [isResponse, Bool.or_eq_true, not_or] using hresponse
  split at h
  · rename_i hnone
    obtain ⟨rfl, rfl⟩ := Prod.mk.inj (Except.ok.inj h)
    exact Or.inl ⟨rfl, rfl, fun _ => hnone⟩
  rename_i field scopes hpending
  right
  dsimp only at h
  split at h
  · rename_i result hresult
    split at h
    · rename_i content hcontent
      split at h
      · rename_i hchoice
        obtain ⟨rfl, rfl⟩ := Prod.mk.inj (Except.ok.inj h)
        refine .kept hm hpending fun result' content' hresult' hcontent' => ?_
        obtain rfl := Json.obj.inj (hresult.symm.trans hresult')
        obtain rfl := Json.obj.inj (hcontent.symm.trans hcontent')
        exact hchoice
      · rename_i choice hchoice
        split at h
        · rename_i hoffered
          obtain ⟨restored, hrestored, hpair⟩ := Fallible.map_eq_ok.mp h
          obtain ⟨rfl, rfl⟩ := Prod.mk.inj hpair
          exact .restored hm hpending hresult hcontent hchoice hoffered hrestored
        · cases h
    · rename_i hcontent
      obtain ⟨rfl, rfl⟩ := Prod.mk.inj (Except.ok.inj h)
      refine .kept hm hpending fun result' content' hresult' hcontent' => ?_
      obtain rfl := Json.obj.inj (hresult.symm.trans hresult')
      exact absurd hcontent' (hcontent content')
  · rename_i hresult
    obtain ⟨rfl, rfl⟩ := Prod.mk.inj (Except.ok.inj h)
    exact .kept hm hpending fun result' _ hresult' _ => absurd hresult' (hresult result')

theorem permissionResponse_spec (h : permissionResponse p s m = .ok (s', m')) :
    SameTables s s' ∧ (m' = m ∨ isResponse m = true ∧ ∃ result, m' = set m "result" result) := by
  rcases permissionResponse_cases h with ⟨rfl, rfl, -⟩ | htakes
  · exact ⟨⟨rfl, rfl, rfl⟩, Or.inl rfl⟩
  · cases htakes with
    | kept => exact ⟨⟨rfl, rfl, rfl⟩, Or.inl rfl⟩
    | restored hresponse => exact ⟨⟨rfl, rfl, rfl⟩, Or.inr ⟨hresponse, _, rfl⟩⟩

/-- A permission is another message at most in its parameters. -/
def Presented (m m' : Fields) : Prop :=
  m' = m ∨ isText (get m "method") (Points.ofString "elicitation/create") = true ∧
    ∃ params, m' = set m "params" params

theorem nativePermissionPresentation_spec (m : Fields) :
    Presented m (nativePermissionPresentation m) := by
  unfold nativePermissionPresentation
  split
  · rename_i hmethod
    split
    · split
      · dsimp only
        split
        · exact Or.inl rfl
        · exact Or.inr ⟨hmethod, _, rfl⟩
      · exact Or.inl rfl
    · exact Or.inl rfl
  · exact Or.inl rfl

/-- The form of a permission asks for the scope, and the elicitation is pending. -/
inductive AsksScope (p : Projection) (s : ToolFilter) (m : Fields) : ToolFilter → Fields → Prop
  | asked {params metadata schema properties : Fields} {offered : List Json}
      {elicitations : Table Points (Points × List Points)}
      (hmethod : isText (get m "method") (Points.ofString "elicitation/create") = true)
      (hparams : get m "params" = .obj params) (hmeta : get params "_meta" = .obj metadata)
      (hschema : get params "requestedSchema" = .obj schema)
      (hoffered : get metadata "persist" = .arr offered)
      (hproperties : getOr schema "properties" (.obj []) = .obj properties)
      (hnew : has properties scopeField = false)
      (hinsert : s.elicitations.insert? (key p m)
        (Points.ofString scopeField, offeredScopes offered) = some elicitations) :
      AsksScope p s m { s with elicitations } (set m "params" (.obj (set params "requestedSchema"
        (.obj (set schema "properties"
          (.obj (set properties scopeField (scopeQuestion (offeredScopes offered)))))))))

theorem permissionRequest_cases (h : permissionRequest p s m = .ok (s', m')) :
    (s' = s ∧ m' = m) ∨ AsksScope p s m s' m' := by
  have hsame : ∀ {s' m'}, (Except.ok (s, m) : Except FilterError _) = .ok (s', m') →
      (s' = s ∧ m' = m) ∨ AsksScope p s m s' m' := by
    intro s' m' h
    obtain ⟨rfl, rfl⟩ := Prod.mk.inj (Except.ok.inj h)
    exact Or.inl ⟨rfl, rfl⟩
  unfold permissionRequest at h
  split at h
  · rename_i hmethod
    rw [Bool.and_eq_true] at hmethod
    split at h
    · rename_i params hparams
      split at h
      · rename_i metadata schema hmeta hschema
        split at h
        · rename_i offered properties hoffered hproperties
          dsimp only at h
          split at h
          · exact hsame h
          · rename_i hopen
            simp only [Bool.or_eq_true, not_or, Bool.not_eq_true] at hopen
            split at h
            · cases h
            · rename_i hinsert
              obtain ⟨rfl, rfl⟩ := Prod.mk.inj (Except.ok.inj h)
              exact Or.inr (.asked hmethod.1 hparams hmeta hschema hoffered hproperties hopen.2
                hinsert)
        · exact hsame h
      · exact hsame h
    · exact hsame h
  · exact hsame h

theorem permissionRequest_spec (h : permissionRequest p s m = .ok (s', m')) :
    SameTables s s' ∧ Presented m m' := by
  rcases permissionRequest_cases h with ⟨rfl, rfl⟩ | hasks
  · exact ⟨⟨rfl, rfl, rfl⟩, Or.inl rfl⟩
  · cases hasks with
    | asked hmethod => exact ⟨⟨rfl, rfl, rfl⟩, Or.inr ⟨hmethod, _, rfl⟩⟩

theorem Presented.trans {m'' : Fields} (h : Presented m m') (h' : Presented m' m'') :
    Presented m m'' := by
  rcases h with rfl | ⟨hmethod, params, rfl⟩
  · exact h'
  · rcases h' with rfl | ⟨-, params', rfl⟩
    · exact Or.inr ⟨hmethod, params, rfl⟩
    · exact Or.inr ⟨hmethod, params', by rw [set, set, Json.setField_setField, set]⟩

theorem Presented.sameEnvelope (h : Presented m m') : SameEnvelope m m' := by
  rcases h with rfl | ⟨-, params, rfl⟩
  · exact .refl m'
  · exact sameEnvelope_params m params

theorem has_of_isText {name : String} {t : Points} (h : isText (get m name) t = true) :
    has m name = true := by
  by_contra hnone
  rw [get_of_not_has (by simpa using hnone)] at h
  simp [isText] at h

/-- A response is never presented in another way. -/
theorem Presented.eq_of_isResponse (h : Presented m m') (hm : isResponse m = true) : m' = m := by
  rcases h with rfl | ⟨hmethod, -⟩
  · rfl
  · simp [isResponse, has_of_isText hmethod] at hm

end Envelope

/-! ## What is forwarded -/

/-- What is forwarded of a message that is let through. -/
def ForwardedAs (p : Projection) (m : Fields) (v : Json) : Prop :=
  ∃ m', v = .obj m' ∧ Forwards p m m' ∧
    (isText (get m' "method") (Points.ofString "tools/call") = true →
      permitted (calledName m') p.rule = true)

/-- What `client` has gathered from some messages. -/
structure Gathers (p : Projection) (acc : Gathered) (ms : List Fields) (acc' : Gathered) :
    Prop where
  forwarded : ∃ vs, acc'.forwarded = acc.forwarded ++ vs ∧
    List.Forall₂ (ForwardedAs p) (ms.filter fun m => !excluded p m) vs
  errors : acc'.errors = acc.errors ++
    (ms.filter fun m => isRequest p m && excluded p m).map fun m => denial (get m "id")
  ids : acc'.ids = acc.ids ++ (ms.filter fun m => isRequest p m && !excluded p m).map (key p)
  lists : ∀ k, k ∈ acc'.filter.lists ↔ k ∈ acc.filter.lists ∨
    ∃ m ∈ ms, isRequest p m = true ∧ excluded p m = false ∧
      isText (get m "method") (Points.ofString "tools/list") = true ∧ key p m = k
  batches : acc'.filter.batches = acc.filter.batches
  heap : acc'.filter.heap = acc.filter.heap

section Client

variable {p : Projection} {env : NativeEnv} {m m' : Fields} {acc' acc : Gathered}

theorem excluded_of_sameEnvelope (h : SameEnvelope m m') (hname : calledName m' = calledName m) :
    excluded p m' = excluded p m := by
  rw [excluded, excluded, h.method, hname]

theorem isRequest_of_sameEnvelope (h : SameEnvelope m m') : isRequest p m' = isRequest p m := by
  rw [isRequest, isRequest, h.method, h.hasId]

/-- An excluded call with an identifier is a request. -/
theorem isRequest_of_excluded (h : excluded p m = true) : isRequest p m = has m "id" := by
  rw [excluded, Bool.and_eq_true, isText_iff] at h
  obtain ⟨-, -, -, -, -, -, -, hcall, -⟩ := names_distinct
  have htruthy : truthy p.py (get m "method") = true := by
    rw [h.1]
    simpa [truthy] using hcall
  rw [isRequest, htruthy, Bool.true_and]

/-- What the filter makes of a response of the client, and of other messages. -/
theorem restored_spec {s s' : ToolFilter} (h : restored p s m = .ok (s', m')) :
    SameTables s s' ∧ SameEnvelope m m' ∧ calledName m' = calledName m ∧
      (m' = m ∨ p.nativeContext = true ∧ isResponse m = true ∧
        ∃ result, m' = set m "result" result) := by
  unfold restored at h
  split at h
  · rename_i hnative
    obtain ⟨htables, rfl | ⟨hresponse, result, rfl⟩⟩ := permissionResponse_spec h
    · exact ⟨htables, .refl m', rfl, Or.inl rfl⟩
    · exact ⟨htables, sameEnvelope_result m result, calledName_result m result,
        Or.inr ⟨hnative, hresponse, result, rfl⟩⟩
  · obtain ⟨rfl, rfl⟩ := Prod.mk.inj (Except.ok.inj h)
    exact ⟨⟨rfl, rfl, rfl⟩, .refl m, rfl, Or.inl rfl⟩

/-- What is forwarded of a message that is not excluded. -/
theorem forwardedAs_of_restored {m₁ m₂ : Fields}
    (hrestored : m₁ = m ∨ p.nativeContext = true ∧ isResponse m = true ∧
      ∃ result, m₁ = set m "result" result) (henvelope : SameEnvelope m m₁)
    (hallowed : excluded p m₁ = false)
    (h : inContext p env m₁ = .ok m₂) :
    SameEnvelope m₁ m₂ ∧ ForwardedAs p m (.obj m₂) := by
  have hpermitted : isText (get m₁ "method") (Points.ofString "tools/call") = true →
      permitted (calledName m₁) p.rule = true := by
    intro hcall
    simpa [excluded, hcall] using hallowed
  unfold inContext at h
  split at h
  · rename_i hnative
    rw [Bool.and_eq_true] at hnative
    obtain ⟨hsame, hname⟩ := withTurnMetadata_spec h
    refine ⟨hsame, m₂, rfl, ?_, fun _ => ?_⟩
    · have hcall := hnative.2
      rw [henvelope.method] at hcall
      rw [Forwards, if_pos hnative.1, if_pos hcall]
      rcases hrestored with rfl | ⟨-, hresponse, -⟩
      · exact ⟨env, h⟩
      · simp [isResponse, has_of_isText hcall] at hresponse
    · rw [hname]
      exact hpermitted hnative.2
  · rename_i hplain
    obtain rfl := Except.ok.inj h
    refine ⟨.refl m₁, m₁, rfl, ?_, hpermitted⟩
    unfold Forwards
    split
    · rename_i hnative
      have hother : ¬isText (get m "method") (Points.ofString "tools/call") = true := by
        intro hcall
        rw [← henvelope.method] at hcall
        exact hplain (by rw [hnative, hcall, Bool.true_and])
      rw [if_neg hother]
      exact hrestored.imp id fun h => h.2
    · rename_i hnative
      rcases hrestored with rfl | ⟨h, -⟩
      · rfl
      · exact absurd h hnative

theorem gathers_item (h : clientItem p env acc (.obj m) = .ok acc') : Gathers p acc [m] acc' := by
  simp only [clientItem, Fallible.bind_eq_ok] at h
  obtain ⟨⟨s, m₁⟩, hrestored, h⟩ := h
  obtain ⟨htables, henvelope, hname, hchange⟩ := restored_spec hrestored
  have hexcluded : excluded p m₁ = excluded p m := excluded_of_sameEnvelope henvelope hname
  have hrequest : isRequest p m₁ = isRequest p m := isRequest_of_sameEnvelope henvelope
  dsimp only at h
  split at h
  · rename_i hdenied
    obtain rfl := Except.ok.inj h
    have hm : excluded p m = true := hexcluded ▸ hdenied
    have hid := isRequest_of_excluded hm
    constructor
    · exact ⟨[], by simp, by simp [hm]⟩
    · rw [henvelope.hasId, henvelope.id]
      cases hhas : has m "id" <;> simp [hm, hid, hhas]
    · simp [hm]
    · simp [htables.lists, hm]
    · exact htables.batches
    · exact htables.heap
  · rename_i hdenied
    have hm : excluded p m = false := by simpa [hexcluded] using hdenied
    simp only [Fallible.bind_eq_ok] at h
    obtain ⟨m₂, hforwarded, h⟩ := h
    obtain ⟨hsame, hforwards⟩ := forwardedAs_of_restored hchange henvelope
      (by simpa using hdenied) hforwarded
    have hmethod : get m₂ "method" = get m "method" := hsame.method.trans henvelope.method
    have hkey : key p m₂ = key p m := hsame.key.trans henvelope.key
    have hask : (truthy p.py (get m₁ "method") && has m₂ "id") = isRequest p m := by
      rw [isRequest, hsame.hasId, henvelope.hasId, henvelope.method]
    have hvs : ∃ vs, acc.forwarded ++ [.obj m₂] = acc.forwarded ++ vs ∧
        List.Forall₂ (ForwardedAs p) ([m].filter fun m => !excluded p m) vs :=
      ⟨[.obj m₂], rfl, by simpa [hm] using hforwards⟩
    rw [hask] at h
    split at h
    · rename_i hr
      obtain rfl := Except.ok.inj h
      refine ⟨hvs, by simp [hm], by simp [hm, hr, hkey], fun k => ?_, htables.batches,
        htables.heap⟩
      rw [henvelope.method]
      by_cases hlist : isText (get m "method") (Points.ofString "tools/list") = true
      · rw [if_pos hlist, List.mem_insert_iff, htables.lists, hkey, or_comm, eq_comm (a := k)]
        simp [hr, hm, hlist]
      · simp [hlist, htables.lists]
    · rename_i hr
      obtain rfl := Except.ok.inj h
      exact ⟨hvs, by simp [hm], by simp [hr], by simp [htables.lists, hr], htables.batches,
        htables.heap⟩

theorem Gathers.trans {acc'' : Gathered} {ms ms' : List Fields} (h : Gathers p acc ms acc')
    (h' : Gathers p acc' ms' acc'') : Gathers p acc (ms ++ ms') acc'' := by
  obtain ⟨vs, hvs, hall⟩ := h.forwarded
  obtain ⟨vs', hvs', hall'⟩ := h'.forwarded
  constructor
  · refine ⟨vs ++ vs', by rw [hvs', hvs, List.append_assoc], ?_⟩
    rw [List.filter_append]
    exact List.rel_append hall hall'
  · rw [h'.errors, h.errors, List.filter_append, List.map_append, List.append_assoc]
  · rw [h'.ids, h.ids, List.filter_append, List.map_append, List.append_assoc]
  · intro k
    rw [h'.lists, h.lists]
    simp only [List.mem_append, or_and_right, exists_or, or_assoc]
  · rw [h'.batches, h.batches]
  · rw [h'.heap, h.heap]

theorem gathers_items {ms : List Fields}
    (h : (ms.map Json.obj).foldlM (clientItem p env) acc = .ok acc') : Gathers p acc ms acc' := by
  induction ms generalizing acc with
  | nil =>
    obtain rfl := Except.ok.inj h
    exact ⟨⟨[], by simp, .nil⟩, by simp, by simp, by simp, rfl, rfl⟩
  | cons m ms ih =>
    rw [List.map_cons, List.foldlM_cons, Fallible.bind_eq_ok] at h
    obtain ⟨acc₁, hitem, hitems⟩ := h
    exact (gathers_item hitem).trans (ih hitems)

end Client

/-! ## A packet of the client -/

/-- The requests of a packet that are let through. -/
def allowedOf (p : Projection) (packet : Packet) : List Fields :=
  packet.messages.filter fun m => isRequest p m && !excluded p m

section Asked

variable {p : Projection} {b : RequestBook} {n : ℕ} {packet : Packet} {out : List Request}
  {r : Request}

theorem mem_requestsOf : r ∈ requestsOf p n packet ↔
    ∃ m ∈ packet.messages, isRequest p m = true ∧ requestOf p n packet.isBatch m = r := by
  simp [requestsOf, and_assoc]

theorem mem_map_denialsOf : r ∈ (denialsOf p n packet).map Prod.fst ↔
    ∃ m ∈ packet.messages, isRequest p m = true ∧ excluded p m = true ∧
      requestOf p n packet.isBatch m = r := by
  simp [denialsOf, and_assoc]

theorem packet_of_mem_requestsOf (h : r ∈ requestsOf p n packet) : r.packet = n := by
  obtain ⟨m, -, -, rfl⟩ := mem_requestsOf.mp h
  rfl

theorem mem_requestsOf_of_denialsOf (h : r ∈ (denialsOf p n packet).map Prod.fst) :
    r ∈ requestsOf p n packet := by
  obtain ⟨m, hm, hrequest, -, rfl⟩ := mem_map_denialsOf.mp h
  exact mem_requestsOf.mpr ⟨m, hm, hrequest, rfl⟩

/-- Requests with different keys are different requests. -/
theorem nodup_requestsOf
    (h : ((packet.messages.filter (isRequest p)).map (key p)).Nodup) :
    (requestsOf p n packet).Nodup := by
  refine List.Nodup.of_map Request.key ?_
  rw [requestsOf, List.map_map]
  exact h

theorem nodup_denialsOf
    (h : ((packet.messages.filter (isRequest p)).map (key p)).Nodup) :
    ((denialsOf p n packet).map Prod.fst).Nodup := by
  refine (nodup_requestsOf (n := n) h).sublist ?_
  have hsub : (packet.messages.filter fun m => isRequest p m && excluded p m).Sublist
      (packet.messages.filter (isRequest p)) := by
    rw [← List.filter_filter]
    exact List.filter_sublist.filter _
  rw [denialsOf, List.map_map]
  exact hsub.map _

theorem new_of_booked (hb : Booked p b n) (hr : r ∈ requestsOf p n packet) : r ∉ b.asked := by
  intro hasked
  have hlt := hb.recent r hasked
  rw [packet_of_mem_requestsOf hr] at hlt
  omega

/-- The requests that wait once a packet has been asked. -/
theorem mem_waiting_client (hs : Sound Request.packet b out) (hb : Booked p b n) :
    r ∈ (b.record (requestsOf p n packet) (denialsOf p n packet)).waiting ↔
      r ∈ b.waiting ∨ ∃ m ∈ allowedOf p packet, requestOf p n packet.isBatch m = r := by
  rw [mem_waiting_ask hs.subset (fun r hr => new_of_booked hb hr)
    (fun r hr => mem_requestsOf_of_denialsOf hr)]
  refine or_congr_right ?_
  rw [mem_requestsOf, mem_map_denialsOf]
  simp only [allowedOf, List.mem_filter, Bool.and_eq_true, Bool.not_eq_true']
  constructor
  · rintro ⟨⟨m, hm, hrequest, rfl⟩, hnone⟩
    refine ⟨m, ⟨hm, hrequest, ?_⟩, rfl⟩
    by_contra hexcluded
    exact hnone ⟨m, hm, hrequest, by simpa using hexcluded, rfl⟩
  · rintro ⟨m, ⟨hm, hrequest, hallowed⟩, rfl⟩
    refine ⟨⟨m, hm, hrequest, rfl⟩, ?_⟩
    rintro ⟨m', -, -, hexcluded, heq⟩
    have hdenied := congrArg Request.denied heq
    simp [requestOf, hallowed, hexcluded] at hdenied

/-- The answers of a packet that has been asked: the denials. -/
theorem gathered_client (hs : Sound Request.packet b out) (hb : Booked p b n) :
    (b.record (requestsOf p n packet) (denialsOf p n packet)).gathered Request.packet n =
      denialsOf p n packet := by
  have hold : b.gathered Request.packet n = [] := by
    rw [List.eq_nil_iff_forall_not_mem]
    intro e he
    obtain ⟨hanswered, hpacket⟩ := mem_map_gathered.mp (List.mem_map_of_mem he)
    have hlt := hb.recent e.1 (hs.subset e.1 hanswered)
    omega
  rw [gathered_record, hold, List.nil_append, List.filter_eq_self]
  intro e he
  obtain ⟨m, -, rfl⟩ := List.mem_map.mp he
  simp [requestOf]

theorem gathered_client_of_ne {i : ℕ} (h : i ≠ n) :
    (b.record (requestsOf p n packet) (denialsOf p n packet)).gathered Request.packet i =
      b.gathered Request.packet i := by
  have hnone : (denialsOf p n packet).filter (fun e => e.1.packet = i) = [] := by
    rw [List.filter_eq_nil_iff]
    intro e he
    obtain ⟨m, -, rfl⟩ := List.mem_map.mp he
    have hne : ¬n = i := h.symm
    simp [requestOf, hne]
  rw [gathered_record, hnone, List.append_nil]

/-- What goes out at once of a packet of the client: the denials, when nothing is let through. -/
theorem settled_client (hs : Sound Request.packet b out) (hb : Booked p b n) :
    (b.record (requestsOf p n packet) (denialsOf p n packet)).settled Request.packet n =
      if (allowedOf p packet).isEmpty then denialsOf p n packet else [] := by
  have hwaiting : ∀ r, r ∈ (b.record (requestsOf p n packet) (denialsOf p n packet)).waiting ↔
      r ∈ b.waiting ∨ ∃ m ∈ allowedOf p packet, requestOf p n packet.isBatch m = r :=
    fun r => mem_waiting_client hs hb
  have hcomplete : (b.record (requestsOf p n packet) (denialsOf p n packet)).complete
      Request.packet n = (allowedOf p packet).isEmpty := by
    rw [Bool.eq_iff_iff, Book.complete, List.all_eq_true, List.isEmpty_iff]
    constructor
    · intro hall
      rw [List.eq_nil_iff_forall_not_mem]
      intro m hm
      have hne := hall _ ((hwaiting _).mpr (Or.inr ⟨m, hm, rfl⟩))
      simp [requestOf] at hne
    · intro hnone r hr
      rcases (hwaiting r).mp hr with hold | ⟨m, hm, -⟩
      · have hlt := hb.recent r (waiting_subset hold)
        simp only [decide_eq_true_eq]
        omega
      · simp [hnone] at hm
  rw [Book.settled, gathered_client hs hb, hcomplete]

/-- The message of a response to an excluded call has the identifier of the call. -/
theorem key_denial (m : Fields) :
    ∃ m', denial (get m "id") = .obj m' ∧ key p m' = key p m := by
  obtain ⟨-, -, -, -, -, -, -, -, -, hid⟩ := names_distinct
  refine ⟨_, rfl, ?_⟩
  have hne : (Points.ofString "id" == Points.ofString "jsonrpc") = false := by simpa using hid
  unfold key RunActions.get
  simp [List.lookup_cons, hne]

theorem booked_client (hs : Sound Request.packet b out) (hb : Booked p b n)
    (hkeys : ((packet.messages.filter (isRequest p)).map (key p)).Nodup)
    (hfresh : ∀ m ∈ packet.messages.filter (isRequest p), ∀ r ∈ b.waiting, r.key ≠ key p m) :
    Booked p (b.record (requestsOf p n packet) (denialsOf p n packet)) (n + 1) := by
  have hallowed : ∀ m ∈ allowedOf p packet,
      m ∈ packet.messages.filter (isRequest p) ∧ excluded p m = false := by
    intro m hm
    simpa [allowedOf, and_assoc] using hm
  constructor
  · intro r hr r' hr' heq
    rcases (mem_waiting_client hs hb).mp hr with hold | ⟨m, hm, rfl⟩
    · rcases (mem_waiting_client hs hb).mp hr' with hold' | ⟨m', hm', rfl⟩
      · exact hb.keys r hold r' hold' heq
      · exact absurd heq (hfresh m' (hallowed m' hm').1 r hold)
    · rcases (mem_waiting_client hs hb).mp hr' with hold' | ⟨m', hm', rfl⟩
      · exact absurd heq.symm (hfresh m (hallowed m hm).1 r' hold')
      · rw [List.inj_on_of_nodup_map hkeys (hallowed m hm).1 (hallowed m' hm').1 heq]
  · intro r hr
    rcases List.mem_append.mp hr with hold | hnew
    · exact (hb.recent r hold).trans n.lt_succ_self
    · rw [packet_of_mem_requestsOf hnew]
      exact n.lt_succ_self
  · intro r hr r' hr' heq
    rcases List.mem_append.mp hr with hold | hnew
    · rcases List.mem_append.mp hr' with hold' | hnew'
      · exact hb.single r hold r' hold' heq
      · have hlt := hb.recent r hold
        rw [packet_of_mem_requestsOf hnew'] at heq
        omega
    · rcases List.mem_append.mp hr' with hold' | hnew'
      · have hlt := hb.recent r' hold'
        rw [packet_of_mem_requestsOf hnew] at heq
        omega
      · obtain ⟨m, hm, -, rfl⟩ := mem_requestsOf.mp hnew
        obtain ⟨m', hm', -, rfl⟩ := mem_requestsOf.mp hnew'
        refine ⟨rfl, fun hbatch => ?_⟩
        cases packet with
        | single =>
          rw [List.mem_singleton.mp hm, List.mem_singleton.mp hm']
        | batch => simp [requestOf, Packet.isBatch] at hbatch
  · intro r hr
    rcases (mem_waiting_client hs hb).mp hr with hold | ⟨m, hm, rfl⟩
    · exact hb.allowed r hold
    · exact (hallowed m hm).2
  · intro r v hr hdenied
    rcases List.mem_append.mp hr with hold | hnew
    · exact hb.denials r v hold hdenied
    · obtain ⟨m, -, heq⟩ := List.mem_map.mp hnew
      obtain ⟨-, rfl⟩ := Prod.mk.inj heq
      exact ⟨_, rfl⟩
  · intro r v hr
    rcases List.mem_append.mp hr with hold | hnew
    · exact hb.identified r v hold
    · obtain ⟨m, -, heq⟩ := List.mem_map.mp hnew
      obtain ⟨rfl, rfl⟩ := Prod.mk.inj heq
      exact key_denial m

theorem sound_client (hs : Sound Request.packet b out) (hb : Booked p b n)
    (hkeys : ((packet.messages.filter (isRequest p)).map (key p)).Nodup) :
    Sound Request.packet (b.record (requestsOf p n packet) (denialsOf p n packet))
      (out ++ requestsIn (settledResponses
        (b.record (requestsOf p n packet) (denialsOf p n packet)) n)) := by
  rw [requestsIn_settledResponses]
  refine hs.ask (nodup_requestsOf hkeys) (fun r hr => packet_of_mem_requestsOf hr)
    (fun r hr heq => ?_) (nodup_denialsOf hkeys) fun r hr => mem_requestsOf_of_denialsOf hr
  have hlt := hb.recent r hr
  omega

end Asked

/-! ## The tables of the filter -/

/-- What the filter knows of the requests that wait, and of the responses that it holds. -/
structure Tracks (p : Projection) (s : ToolFilter) (b : RequestBook) : Prop where
  lists : ∀ k, k ∈ s.lists ↔ ∃ r ∈ b.waiting, r.list = true ∧ r.key = k
  batches : ∀ k i, s.batches.get? k = some i ↔
    ∃ r ∈ b.waiting, r.batch = true ∧ r.key = k ∧ r.packet = i
  heap : ∀ r ∈ b.waiting, r.batch = true → ∃ batch, s.heap.get? r.packet = some batch ∧
    (∀ k, k ∈ batch.pending ↔ ∃ r' ∈ b.waiting, r'.packet = r.packet ∧ r'.key = k) ∧
    List.Forall₂ (Delivers p) ((b.gathered Request.packet r.packet).map fun e => (some e.1, e.2))
      batch.responses

section Tables

variable {p : Projection} {env : NativeEnv} {s s' : ToolFilter} {b : RequestBook} {n : ℕ}
  {packet : Packet} {out : List Request} {m : Fields} {r : Request} {acc : Gathered}
  {vs : List Json}

theorem Tracks.congr (h : Tracks p s b) (hsame : SameTables s s') : Tracks p s' b := by
  refine ⟨fun k => ?_, fun k i => ?_, fun r hr hbatch => ?_⟩
  · rw [hsame.lists]
    exact h.lists k
  · rw [hsame.batches]
    exact h.batches k i
  · rw [hsame.heap]
    exact h.heap r hr hbatch

theorem delivers_denial (h : excluded p m = true) (batch : Bool) (v : Json) :
    Delivers p (some (requestOf p n batch m), v) v := by
  have hlist : isText (get m "method") (Points.ofString "tools/list") = false := by
    rw [excluded, Bool.and_eq_true, isText_iff] at h
    obtain ⟨-, -, -, -, -, -, hdiffer, -⟩ := names_distinct
    simpa [h.1, isText] using hdiffer
  simp [Delivers, requestOf, hlist]

/-- The denials of a packet are what is put down as its errors. -/
theorem forall₂_denials : List.Forall₂ (Delivers p)
    ((denialsOf p n packet).map fun e => (some e.1, e.2))
    ((packet.messages.filter fun m => isRequest p m && excluded p m).map fun m =>
      denial (get m "id")) := by
  rw [denialsOf, List.map_map, List.forall₂_map_left_iff, List.forall₂_map_right_iff,
    List.forall₂_same]
  intro m hm
  have hexcluded : excluded p m = true := by
    simp only [List.mem_filter, Bool.and_eq_true] at hm
    exact hm.2.2
  exact delivers_denial hexcluded _ _

theorem get?_foldl_put (keys : List Points) (batches : Table Points ℕ) (i : ℕ) (k : Points) :
    (keys.foldl (fun batches key => batches.put key i) batches).get? k =
      if k ∈ keys then some i else batches.get? k := by
  induction keys generalizing batches with
  | nil => simp
  | cons key keys ih =>
    rw [List.foldl_cons, ih, Table.get?_put]
    by_cases hmem : k ∈ keys
    · simp [hmem]
    · by_cases hk : k = key <;> simp [hmem, hk]

/-- The tables after `client`: the keys of the lists, and a batch for what is let through. -/
structure Asks (p : Projection) (n : ℕ) (s : ToolFilter) (packet : Packet) (s' : ToolFilter) :
    Prop where
  lists : ∀ k, k ∈ s'.lists ↔ k ∈ s.lists ∨ ∃ m ∈ allowedOf p packet,
    isText (get m "method") (Points.ofString "tools/list") = true ∧ key p m = k
  batches : ∀ k, s'.batches.get? k =
    if packet.isBatch = true ∧ ∃ m ∈ allowedOf p packet, key p m = k then some n
    else s.batches.get? k
  heap : ∀ i, s'.heap.get? i =
    if packet.isBatch = true ∧ allowedOf p packet ≠ [] ∧ i = n then
      some ⟨(allowedOf p packet).map (key p),
        (packet.messages.filter fun m => isRequest p m && excluded p m).map fun m =>
          denial (get m "id")⟩
    else s.heap.get? i

theorem lists_of_gathers (packet : Packet) (h : Gathers p { filter := s } packet.messages acc)
    (k : Points) :
    k ∈ acc.filter.lists ↔ k ∈ s.lists ∨ ∃ m ∈ allowedOf p packet,
      isText (get m "method") (Points.ofString "tools/list") = true ∧ key p m = k := by
  rw [h.lists]
  simp [allowedOf, and_assoc]

/-- What goes out in an array, unless it is empty. -/
theorem delivered_array {sent : List (Option Request × Json)}
    (h : List.Forall₂ (Delivers p) sent vs) :
    List.Forall₂ (Delivered p) (entry sent)
      (if vs.isEmpty then none else some (.arr vs)).toList := by
  cases h with
  | nil => exact .nil
  | cons hhead htail => exact .cons ⟨.cons hhead htail, fun _ => ⟨_, rfl⟩⟩ .nil

/-- A single message is forwarded as it is gathered. -/
theorem forwarded_single (h : List.Forall₂ (ForwardedAs p) ([m].filter fun m => !excluded p m) vs) :
    (vs.head?.bind nonNull).toList.flatMap itemsOf = vs := by
  by_cases hexcluded : excluded p m = true
  · have hnil : vs = [] := by simpa [hexcluded] using h
    simp [hnil]
  · have hone : ([m].filter fun m => !excluded p m) = [m] := by simp [hexcluded]
    rw [hone, List.forall₂_cons_left_iff] at h
    obtain ⟨v, us, ⟨m', rfl, -⟩, hnil, rfl⟩ := h
    obtain rfl := List.forall₂_nil_left_iff.mp hnil
    rfl

theorem asks_of_single (h : Gathers p { filter := s } [m] acc) :
    Asks p n s (.single m) acc.filter ∧
      List.Forall₂ (ForwardedAs p) ((Packet.single m).messages.filter fun m => !excluded p m)
        ((acc.forwarded.head?.bind nonNull).toList.flatMap itemsOf) ∧
      List.Forall₂ (Delivered p)
        (entry (if (allowedOf p (.single m)).isEmpty then
          (denialsOf p n (.single m)).map fun e => (some e.1, e.2) else []))
        acc.errors.head?.toList := by
  refine ⟨⟨lists_of_gathers (.single m) h, fun k => ?_, fun i => ?_⟩, ?_, ?_⟩
  · simp [Packet.isBatch, h.batches]
  · simp [Packet.isBatch, h.heap]
  · obtain ⟨vs, hvs, hall⟩ := h.forwarded
    rw [hvs, List.nil_append, forwarded_single hall]
    exact hall
  · have herrors := h.errors
    rw [List.nil_append] at herrors
    cases hdenied : isRequest p m && excluded p m with
    | true =>
      rw [Bool.and_eq_true] at hdenied
      have hallowed : allowedOf p (.single m) = [] := by
        simp [allowedOf, Packet.messages, hdenied]
      have hdenials : denialsOf p n (.single m) =
          [(requestOf p n false m, denial (get m "id"))] := by
        simp [denialsOf, Packet.messages, Packet.isBatch, hdenied]
      rw [herrors, hallowed, hdenials]
      simp only [List.filter_cons, hdenied, Bool.and_self, if_true, List.filter_nil, List.map_cons,
        List.map_nil, List.head?_cons, Option.toList_some, List.isEmpty_nil, entry,
        List.isEmpty_cons, Bool.false_eq_true, if_false]
      refine .cons ⟨.cons (delivers_denial hdenied.2 _ _) .nil, ?_⟩ .nil
      rintro ⟨r, hr, hbatch⟩
      obtain rfl : r = requestOf p n false m := by simpa [requestsIn] using hr
      simp [requestOf] at hbatch
    | false =>
      have hdenials : denialsOf p n (.single m) = [] := by
        simp [denialsOf, Packet.messages, hdenied]
      rw [herrors, hdenials]
      simp [hdenied, entry]

theorem asks_of_batch {ms : List Fields} (h : Gathers p { filter := s } ms acc) :
    Asks p n s (.batch ms)
      (if acc.ids.isEmpty then acc.filter else openBatch acc.filter n acc.ids acc.errors) := by
  have hids : acc.ids = (allowedOf p (.batch ms)).map (key p) := h.ids
  have herrors := h.errors
  rw [List.nil_append] at herrors
  cases hallowed : allowedOf p (.batch ms) with
  | nil =>
    rw [hids, hallowed, List.map_nil, List.isEmpty_nil, if_pos rfl]
    refine ⟨lists_of_gathers (.batch ms) h, fun k => ?_, fun i => ?_⟩
    · simp [hallowed, h.batches]
    · simp [hallowed, h.heap]
  | cons =>
    have hopen : acc.ids.isEmpty = false := by simp [hids, hallowed]
    rw [hopen]
    refine ⟨lists_of_gathers (.batch ms) h, fun k => ?_, fun i => ?_⟩
    · simp only [Bool.false_eq_true, if_false, openBatch]
      rw [get?_foldl_put, hids, h.batches]
      simp only [List.mem_map, Packet.isBatch, true_and]
    · simp only [Bool.false_eq_true, if_false, openBatch]
      rw [Table.get?_put, hids, herrors, h.heap]
      simp [Packet.isBatch, Packet.messages, hallowed]

theorem asks_of_client {forwarded response : Option Json}
    (h : client p env n s packet.toJson = .ok (s', forwarded, response)) :
    Asks p n s packet s' ∧
      List.Forall₂ (ForwardedAs p) (packet.messages.filter fun m => !excluded p m)
        (forwarded.toList.flatMap itemsOf) ∧
      List.Forall₂ (Delivered p)
        (entry (if (allowedOf p packet).isEmpty then
          (denialsOf p n packet).map fun e => (some e.1, e.2) else []))
        response.toList := by
  cases packet with
  | single =>
    simp only [Packet.toJson, client, Fallible.bind_eq_ok] at h
    obtain ⟨acc, hitem, h⟩ := h
    obtain ⟨rfl, hpair⟩ := Prod.mk.inj (Except.ok.inj h)
    obtain ⟨rfl, rfl⟩ := Prod.mk.inj hpair
    exact asks_of_single (gathers_item hitem)
  | batch ms =>
    simp only [Packet.toJson, client, Fallible.bind_eq_ok] at h
    obtain ⟨acc, hitems, h⟩ := h
    have hgathers := gathers_items hitems
    have hasks := asks_of_batch (n := n) hgathers
    obtain ⟨vs, hvs, hall⟩ := hgathers.forwarded
    have hids : acc.ids = (allowedOf p (.batch ms)).map (key p) := hgathers.ids
    have herrors := hgathers.errors
    rw [List.nil_append] at hvs herrors
    have hforwarded : List.Forall₂ (ForwardedAs p)
        ((Packet.batch ms).messages.filter fun m => !excluded p m)
        ((if acc.forwarded.isEmpty && !(ms.map Json.obj).isEmpty then none
          else some (Json.arr acc.forwarded)).toList.flatMap itemsOf) := by
      have hsame : ((if acc.forwarded.isEmpty && !(ms.map Json.obj).isEmpty then none
          else some (Json.arr acc.forwarded)).toList.flatMap itemsOf) = vs := by
        rw [hvs]
        cases vs with
        | nil => cases ms <;> rfl
        | cons => simp [itemsOf]
      rw [hsame]
      exact hall
    split at h
    · rename_i hnone
      obtain ⟨rfl, hpair⟩ := Prod.mk.inj (Except.ok.inj h)
      obtain ⟨rfl, rfl⟩ := Prod.mk.inj hpair
      rw [if_pos hnone] at hasks
      refine ⟨hasks, hforwarded, ?_⟩
      have hallowed : (allowedOf p (.batch ms)).isEmpty = true := by
        simpa [hids] using hnone
      rw [if_pos hallowed]
      rw [herrors]
      exact delivered_array forall₂_denials
    · rename_i hopen
      obtain ⟨rfl, hpair⟩ := Prod.mk.inj (Except.ok.inj h)
      obtain ⟨rfl, rfl⟩ := Prod.mk.inj hpair
      rw [if_neg hopen] at hasks
      refine ⟨hasks, hforwarded, ?_⟩
      have hallowed : ¬(allowedOf p (.batch ms)).isEmpty = true := by
        simpa [hids] using hopen
      rw [if_neg hallowed]
      exact .nil

theorem tracks_client (h : Tracks p s b) (hs : Sound Request.packet b out) (hb : Booked p b n)
    (hfresh : ∀ m ∈ packet.messages.filter (isRequest p), ∀ r ∈ b.waiting, r.key ≠ key p m)
    (ha : Asks p n s packet s') :
    Tracks p s' (b.record (requestsOf p n packet) (denialsOf p n packet)) := by
  have hwaiting : ∀ r, r ∈ (b.record (requestsOf p n packet) (denialsOf p n packet)).waiting ↔
      r ∈ b.waiting ∨ ∃ m ∈ allowedOf p packet, requestOf p n packet.isBatch m = r :=
    fun r => mem_waiting_client hs hb
  have hnew : ∀ m ∈ allowedOf p packet, ∀ r ∈ b.waiting, r.key ≠ key p m := by
    intro m hm
    simp only [allowedOf, List.mem_filter, Bool.and_eq_true] at hm
    exact hfresh m (List.mem_filter.mpr ⟨hm.1, hm.2.1⟩)
  constructor
  · intro k
    rw [ha.lists, h.lists]
    constructor
    · rintro (⟨r, hr, hlist, rfl⟩ | ⟨m, hm, hlist, rfl⟩)
      · exact ⟨r, (hwaiting r).mpr (Or.inl hr), hlist, rfl⟩
      · exact ⟨_, (hwaiting _).mpr (Or.inr ⟨m, hm, rfl⟩), hlist, rfl⟩
    · rintro ⟨r, hr, hlist, rfl⟩
      rcases (hwaiting r).mp hr with hold | ⟨m, hm, rfl⟩
      · exact Or.inl ⟨r, hold, hlist, rfl⟩
      · exact Or.inr ⟨m, hm, hlist, rfl⟩
  · intro k i
    rw [ha.batches]
    split
    · rename_i hasked
      obtain ⟨hbatch, m, hm, rfl⟩ := hasked
      constructor
      · intro hi
        obtain rfl := Option.some.inj hi
        exact ⟨_, (hwaiting _).mpr (Or.inr ⟨m, hm, rfl⟩), hbatch, rfl, rfl⟩
      · rintro ⟨r, hr, -, hkey, rfl⟩
        rcases (hwaiting r).mp hr with hold | ⟨m', -, rfl⟩
        · exact absurd hkey (hnew m hm r hold)
        · rfl
    · rename_i hother
      rw [h.batches]
      constructor
      · rintro ⟨r, hr, hrest⟩
        exact ⟨r, (hwaiting r).mpr (Or.inl hr), hrest⟩
      · rintro ⟨r, hr, hbatch, hkey, hpacket⟩
        rcases (hwaiting r).mp hr with hold | ⟨m, hm, rfl⟩
        · exact ⟨r, hold, hbatch, hkey, hpacket⟩
        · exact absurd ⟨hbatch, m, hm, hkey⟩ hother
  · intro r hr hbatch
    rw [ha.heap]
    rcases (hwaiting r).mp hr with hold | ⟨m, hm, rfl⟩
    · -- a batch from before
      have hne : r.packet ≠ n := (hb.recent r (waiting_subset hold)).ne
      obtain ⟨batch, hget, hpending, hresponses⟩ := h.heap r hold hbatch
      rw [if_neg fun hi => hne hi.2.2, gathered_client_of_ne hne]
      refine ⟨batch, hget, fun k => ?_, hresponses⟩
      rw [hpending]
      constructor
      · rintro ⟨r', hr', hrest⟩
        exact ⟨r', (hwaiting r').mpr (Or.inl hr'), hrest⟩
      · rintro ⟨r', hr', hpacket, hkey⟩
        rcases (hwaiting r').mp hr' with hold' | ⟨m', -, rfl⟩
        · exact ⟨r', hold', hpacket, hkey⟩
        · exact absurd hpacket.symm hne
    · -- the batch of this packet
      have hsome : allowedOf p packet ≠ [] := List.ne_nil_of_mem hm
      have hpacket : (requestOf p n packet.isBatch m).packet = n := rfl
      rw [hpacket, if_pos ⟨hbatch, hsome, rfl⟩, gathered_client hs hb]
      refine ⟨_, rfl, fun k => ?_, forall₂_denials⟩
      rw [List.mem_map]
      constructor
      · rintro ⟨m', hm', rfl⟩
        exact ⟨_, (hwaiting _).mpr (Or.inr ⟨m', hm', rfl⟩), rfl, rfl⟩
      · rintro ⟨r', hr', hpacket', rfl⟩
        rcases (hwaiting r').mp hr' with hold' | ⟨m', hm', rfl⟩
        · have hlt := hb.recent r' (waiting_subset hold')
          omega
        · exact ⟨m', hm', rfl⟩

end Tables

/-! ## A message of the child -/

/-- What goes out of a message, and what `child` puts out. -/
inductive Puts (p : Projection) : List (Option Request × Json) → List Output → Prop
  | nothing : Puts p [] []
  | item (e : Option Request × Json) (m : Fields) (hm : Delivers p e (.obj m))
      (hbatch : ∀ r, e.1 = some r → r.batch = false) : Puts p [e] [.item (.obj m)]
  | batch (sent : List (Option Request × Json)) (responses : List Json)
      (h : List.Forall₂ (Delivers p) sent responses) (hsome : sent ≠ []) :
      Puts p sent [.batch responses]

section Child

variable {p : Projection} {s s' : ToolFilter} {b : RequestBook} {n : ℕ} {out : List Request}
  {m m' : Fields} {r : Request} {v : Json} {sent : List (Option Request × Json)}
  {outs : List Output}

theorem toolsOf_listed (p : Projection) (m : Fields) :
    toolsOf (listed p m) = (toolsOf m).filter (permittedTool p) := by
  unfold listed
  split
  · rename_i result hresult
    split
    · rename_i tools htools
      simp only [toolsOf, get_set, if_true, hresult, htools]
      rfl
    · rename_i hother
      have hnone : toolsOf m = [] := by
        unfold toolsOf
        rw [hresult]
        dsimp only
        split
        · rename_i tools htools
          exact absurd htools (hother tools)
        · rfl
      simp [hnone]
  · rename_i hother
    have hnone : toolsOf m = [] := by
      unfold toolsOf
      split
      · rename_i result hresult
        exact absurd hresult (hother result)
      · rfl
    simp [hnone]

/-- A response to a request as the client gets it. -/
def listedFor (p : Projection) (r : Request) (m : Fields) : Fields :=
  if r.list then listed p m else m

theorem delivers_response (r : Request) (m : Fields) :
    Delivers p (some r, .obj m) (.obj (listedFor p r m)) := by
  simp only [Delivers, listedFor]
  cases r.list with
  | true => exact ⟨m, rfl, rfl, toolsOf_listed p m⟩
  | false => rfl

/-- The filter without a request for a list that is answered. -/
def unlisted (s : ToolFilter) (r : Request) : ToolFilter :=
  { s with lists := if r.list then s.lists.filter (· ≠ r.key) else s.lists }

theorem childResponse_of_none (h : Tracks p s b) (hnone : ∀ r ∈ b.waiting, r.key ≠ key p m) :
    childResponse p s m = (s, [.item (.obj m)]) := by
  have hlists : s.lists.contains (key p m) = false := by
    rw [Bool.eq_false_iff, Ne, List.contains_iff_mem, h.lists]
    rintro ⟨r, hr, -, hkey⟩
    exact hnone r hr hkey
  have hbatches : s.batches.get? (key p m) = none := by
    rw [Option.eq_none_iff_forall_ne_some]
    intro i hi
    obtain ⟨r, hr, -, hkey, -⟩ := (h.batches _ i).mp hi
    exact hnone r hr hkey
  simp only [childResponse, hlists, Bool.false_eq_true, if_false, hbatches]

theorem childResponse_of_some (h : Tracks p s b) (hb : Booked p b n) (hr : r ∈ b.waiting)
    (hkey : r.key = key p m) :
    childResponse p s m =
      if r.batch then answerBatch (unlisted s r) r.packet r.key (.obj (listedFor p r m))
      else (unlisted s r, [.item (.obj (listedFor p r m))]) := by
  have hlists : s.lists.contains (key p m) = r.list := by
    rw [Bool.eq_iff_iff, List.contains_iff_mem, h.lists]
    constructor
    · rintro ⟨r', hr', hlist, hkey'⟩
      rwa [hb.keys r hr r' hr' (hkey.trans hkey'.symm)]
    · exact fun hlist => ⟨r, hr, hlist, hkey⟩
  have hstep : (if s.lists.contains (key p m) then
      ({ s with lists := s.lists.filter (· ≠ key p m) }, listed p m) else (s, m)) =
        (unlisted s r, listedFor p r m) := by
    rw [hlists, unlisted, listedFor, hkey]
    split <;> rfl
  have hbatches : s.batches.get? (key p m) = if r.batch then some r.packet else none := by
    split
    · rename_i hbatch
      exact (h.batches _ _).mpr ⟨r, hr, hbatch, hkey, rfl⟩
    · rename_i hbatch
      rw [Option.eq_none_iff_forall_ne_some]
      intro i hi
      obtain ⟨r', hr', hbatch', hkey', -⟩ := (h.batches _ i).mp hi
      rw [hb.keys r hr r' hr' (hkey.trans hkey'.symm)] at hbatch
      exact hbatch hbatch'
  have hbatches' : (unlisted s r).batches.get? (key p m) =
      if r.batch then some r.packet else none := hbatches
  unfold childResponse
  dsimp only
  rw [hstep]
  dsimp only
  rw [hbatches']
  cases r.batch with
  | false => rfl
  | true => simp [hkey]

/-- The lists once a request is answered. -/
theorem mem_lists_unlisted (h : Tracks p s b) (hb : Booked p b n) (hr : r ∈ b.waiting)
    (k : Points) : k ∈ (unlisted s r).lists ↔
      ∃ r' ∈ (b.record [] [(r, v)]).waiting, r'.list = true ∧ r'.key = k := by
  have hremain : (∃ r' ∈ (b.record [] [(r, v)]).waiting, r'.list = true ∧ r'.key = k) ↔
      ∃ r' ∈ b.waiting, r' ≠ r ∧ r'.list = true ∧ r'.key = k := by
    simp only [mem_waiting_answer, and_assoc]
  rw [hremain, unlisted]
  dsimp only
  split
  · rw [List.mem_filter, h.lists, decide_eq_true_eq]
    constructor
    · rintro ⟨⟨r', hr', hlist, rfl⟩, hne⟩
      exact ⟨r', hr', fun heq => hne (heq ▸ rfl), hlist, rfl⟩
    · rintro ⟨r', hr', hne, hlist, rfl⟩
      exact ⟨⟨r', hr', hlist, rfl⟩, fun hkey => hne (hb.keys r' hr' r hr hkey)⟩
  · rename_i hplain
    rw [h.lists]
    constructor
    · rintro ⟨r', hr', hlist, rfl⟩
      exact ⟨r', hr', fun heq => hplain (heq ▸ hlist), hlist, rfl⟩
    · rintro ⟨r', hr', -, hlist, rfl⟩
      exact ⟨r', hr', hlist, rfl⟩

/-- The batches once a request is answered: those of another one. -/
theorem get?_batches_answer (h : Tracks p s b) (hb : Booked p b n) (hr : r ∈ b.waiting)
    {batches : Table Points ℕ}
    (hbatches : ∀ k, batches.get? k = if r.batch = true ∧ k = r.key then none
      else s.batches.get? k) (k : Points) (i : ℕ) :
    batches.get? k = some i ↔ ∃ r' ∈ (b.record [] [(r, v)]).waiting,
      r'.batch = true ∧ r'.key = k ∧ r'.packet = i := by
  rw [hbatches]
  split
  · rename_i hanswered
    constructor
    · simp
    · rintro ⟨r', hr', -, hkey, -⟩
      obtain ⟨hwaiting, hne⟩ := mem_waiting_answer.mp hr'
      exact absurd (hb.keys r' hwaiting r hr (hkey.trans hanswered.2)) hne
  · rename_i hother
    rw [h.batches]
    constructor
    · rintro ⟨r', hr', hbatch, hkey, hpacket⟩
      refine ⟨r', mem_waiting_answer.mpr ⟨hr', ?_⟩, hbatch, hkey, hpacket⟩
      rintro rfl
      exact hother ⟨hbatch, hkey.symm⟩
    · rintro ⟨r', hr', hrest⟩
      exact ⟨r', (mem_waiting_answer.mp hr').1, hrest⟩

/-- What is held of the other packets is the same. -/
theorem heap_answer_of_ne (h : Tracks p s b) {r' : Request} (hr' : r' ∈ b.waiting)
    (hbatch : r'.batch = true) (hne : r'.packet ≠ r.packet) :
    ∃ batch, s.heap.get? r'.packet = some batch ∧
      (∀ k, k ∈ batch.pending ↔ ∃ r₁ ∈ (b.record [] [(r, v)]).waiting,
        r₁.packet = r'.packet ∧ r₁.key = k) ∧
      List.Forall₂ (Delivers p)
        (((b.record [] [(r, v)]).gathered Request.packet r'.packet).map fun e => (some e.1, e.2))
        batch.responses := by
  obtain ⟨batch, hget, hpending, hresponses⟩ := h.heap r' hr' hbatch
  refine ⟨batch, hget, fun k => ?_, ?_⟩
  · rw [hpending]
    constructor
    · rintro ⟨r₁, hr₁, hpacket, hkey⟩
      refine ⟨r₁, mem_waiting_answer.mpr ⟨hr₁, ?_⟩, hpacket, hkey⟩
      rintro rfl
      exact hne hpacket.symm
    · rintro ⟨r₁, hr₁, hrest⟩
      exact ⟨r₁, (mem_waiting_answer.mp hr₁).1, hrest⟩
  · have hnone : [(r, v)].filter (fun e => e.1.packet = r'.packet) = [] := by
      simp [hne.symm]
    rw [gathered_record, hnone, List.append_nil]
    exact hresponses

/-- A response to a request that is alone in its packet. -/
theorem tracks_single (h : Tracks p s b) (hb : Booked p b n) (hr : r ∈ b.waiting)
    (hbatch : r.batch = false) : Tracks p (unlisted s r) (b.record [] [(r, v)]) := by
  refine ⟨fun k => mem_lists_unlisted h hb hr k, ?_, fun r' hr' hbatch' => ?_⟩
  · refine fun k i => get?_batches_answer h hb hr (fun k => ?_) k i
    simp [unlisted, hbatch]
  · obtain ⟨hwaiting, -⟩ := mem_waiting_answer.mp hr'
    refine heap_answer_of_ne h hwaiting hbatch' fun hpacket => ?_
    have hsame := (hb.single r' (waiting_subset hwaiting) r (waiting_subset hr) hpacket).1
    rw [hbatch, hbatch'] at hsame
    exact absurd hsame (by simp)

/-- A response to a request of a batch. -/
theorem tracks_answerBatch (h : Tracks p s b) (hb : Booked p b n) (hr : r ∈ b.waiting)
    (hbatch : r.batch = true) :
    Tracks p (answerBatch (unlisted s r) r.packet r.key (.obj (listedFor p r m))).1
        (b.record [] [(r, .obj m)]) ∧
      Puts p (settledResponses (b.record [] [(r, .obj m)]) r.packet)
        (answerBatch (unlisted s r) r.packet r.key (.obj (listedFor p r m))).2 := by
  obtain ⟨batch, hget, hpending, hresponses⟩ := h.heap r hr hbatch
  have hget' : (unlisted s r).heap.get? r.packet = some batch := hget
  have hremain : ∀ k, k ∈ batch.pending.filter (· ≠ r.key) ↔
      ∃ r' ∈ (b.record [] [(r, .obj m)]).waiting, r'.packet = r.packet ∧ r'.key = k := by
    intro k
    rw [List.mem_filter, hpending, decide_eq_true_eq]
    constructor
    · rintro ⟨⟨r', hr', hpacket, rfl⟩, hne⟩
      exact ⟨r', mem_waiting_answer.mpr ⟨hr', fun heq => hne (heq ▸ rfl)⟩, hpacket, rfl⟩
    · rintro ⟨r', hr', hpacket, rfl⟩
      obtain ⟨hwaiting, hne⟩ := mem_waiting_answer.mp hr'
      exact ⟨⟨r', hwaiting, hpacket, rfl⟩, fun hkey => hne (hb.keys r' hwaiting r hr hkey)⟩
  have hheld : List.Forall₂ (Delivers p)
      (((b.record [] [(r, .obj m)]).gathered Request.packet r.packet).map fun e => (some e.1, e.2))
      (batch.responses ++ [.obj (listedFor p r m)]) := by
    have hone : [(r, Json.obj m)].filter (fun e => e.1.packet = r.packet) = [(r, .obj m)] := by
      simp
    rw [gathered_record, hone, List.map_append]
    exact List.rel_append hresponses (.cons (delivers_response r m) .nil)
  simp only [answerBatch, hget', Option.getD_some]
  refine ⟨⟨fun k => mem_lists_unlisted h hb hr k, ?_, fun r' hr' hbatch' => ?_⟩, ?_⟩
  · refine fun k i => get?_batches_answer h hb hr (fun k => ?_) k i
    rw [Table.get?_delete]
    by_cases hk : k = r.key
    · subst hk
      cases hold : (unlisted s r).batches.get? r.key <;> simp [hbatch]
    · have hsame : (unlisted s r).batches.get? k = s.batches.get? k := rfl
      cases hold : s.batches.get? k <;> simp [hk, hsame, hold]
  · obtain ⟨hwaiting, -⟩ := mem_waiting_answer.mp hr'
    dsimp only
    rw [Table.get?_put]
    by_cases hpacket : r'.packet = r.packet
    · rw [if_pos hpacket, hpacket]
      exact ⟨_, rfl, hremain, hheld⟩
    · rw [if_neg hpacket]
      exact heap_answer_of_ne h hwaiting hbatch' hpacket
  · have hcomplete : (b.record [] [(r, Json.obj m)]).complete Request.packet r.packet =
        (batch.pending.filter (· ≠ r.key)).isEmpty := by
      rw [Bool.eq_iff_iff, Book.complete, List.all_eq_true, List.isEmpty_iff,
        List.eq_nil_iff_forall_not_mem]
      constructor
      · intro hall k hk
        obtain ⟨r', hr', hpacket, -⟩ := (hremain k).mp hk
        simpa [hpacket] using hall r' hr'
      · intro hnone r' hr'
        rw [decide_eq_true_eq]
        exact fun hpacket => hnone r'.key ((hremain _).mpr ⟨r', hr', hpacket, rfl⟩)
    rw [settledResponses, Book.settled, hcomplete]
    split
    · refine .batch _ _ hheld fun hnone => ?_
      rw [hnone, List.forall₂_nil_left_iff] at hheld
      simp at hheld
    · exact .nothing

/-- A response of the child: the tables follow the book, and what goes out is put out. -/
theorem childResponse_spec (h : Tracks p s b) (hs : Sound Request.packet b out)
    (hb : Booked p b n) (hm : isResponse m = true) :
    Tracks p (childResponse p s m).1 (receive p b m).1 ∧
      Puts p (receive p b m).2 (childResponse p s m).2 := by
  cases hanswers : answeredRequest p b m with
  | none =>
    rw [receive_of_none hanswers,
      childResponse_of_none h (answeredRequest_eq_none hanswers hm)]
    exact ⟨h, .item _ m ⟨m, m, rfl, rfl, Or.inl rfl⟩ (by simp)⟩
  | some r =>
    obtain ⟨-, hr, hkey⟩ := answeredRequest_eq_some hanswers
    rw [receive_of_some hanswers, childResponse_of_some h hb hr hkey]
    cases hbatch : r.batch with
    | true => exact tracks_answerBatch h hb hr hbatch
    | false =>
      refine ⟨tracks_single h hb hr hbatch, ?_⟩
      rw [settledResponses, settled_of_single hs hb hr hbatch]
      refine .item _ _ (delivers_response r m) fun r' heq => ?_
      obtain rfl := Option.some.inj heq
      exact hbatch

/-- What is made of a message of the child before it is looked at. -/
theorem presented_spec (h : presented p s m = .ok (s', m')) :
    SameTables s s' ∧ SameEnvelope m m' ∧ Shows p m m' ∧ (isResponse m = true → m' = m) := by
  unfold presented at h
  split at h
  · rename_i hnative
    obtain ⟨htables, hrequest⟩ := permissionRequest_spec h
    have hpresented := (nativePermissionPresentation_spec m).trans hrequest
    exact ⟨htables, hpresented.sameEnvelope, hpresented.imp id fun h => ⟨hnative, h⟩,
      hpresented.eq_of_isResponse⟩
  · obtain ⟨rfl, rfl⟩ := Prod.mk.inj (Except.ok.inj h)
    exact ⟨⟨rfl, rfl, rfl⟩, .refl m, Or.inl rfl, fun _ => rfl⟩

theorem isResponse_of_sameEnvelope (h : SameEnvelope m m') : isResponse m' = isResponse m := by
  rw [isResponse, isResponse, h.hasMethod, h.hasId]

theorem childItem_spec {acc acc' : List Output} (h : Tracks p s b)
    (hs : Sound Request.packet b out) (hb : Booked p b n)
    (hitem : childItem p (s, acc) (.obj m) = .ok (s', acc')) :
    ∃ outs, acc' = acc ++ outs ∧ Tracks p s' (receive p b m).1 ∧
      Puts p (receive p b m).2 outs := by
  simp only [childItem, Fallible.bind_eq_ok] at hitem
  obtain ⟨⟨s₁, m₁⟩, hpresented, hitem⟩ := hitem
  obtain ⟨htables, henvelope, hshows, hsame⟩ := presented_spec hpresented
  have hresponse := isResponse_of_sameEnvelope henvelope
  dsimp only at hitem
  split at hitem
  · rename_i hother
    have hm : isResponse m = false := by
      rw [← hresponse, isResponse]
      revert hother
      cases has m₁ "method" <;> cases has m₁ "id" <;> simp
    have hnone : answeredRequest p b m = none := by simp [answeredRequest, hm]
    obtain ⟨rfl, rfl⟩ := Prod.mk.inj (Except.ok.inj hitem)
    rw [receive_of_none hnone]
    exact ⟨_, rfl, h.congr htables, .item _ _ ⟨m, m₁, rfl, rfl, hshows⟩ (by simp)⟩
  · rename_i hother
    have hm : isResponse m = true := by
      rw [← hresponse, isResponse]
      revert hother
      cases has m₁ "method" <;> cases has m₁ "id" <;> simp
    obtain rfl := hsame hm
    obtain ⟨rfl, rfl⟩ := Prod.mk.inj (Except.ok.inj hitem)
    obtain ⟨htracks, hputs⟩ := childResponse_spec (h.congr htables) hs hb hm
    exact ⟨_, rfl, htracks, hputs⟩

theorem Puts.flat (h : Puts p sent outs) :
    List.Forall₂ (Delivers p) sent (outs.flatMap Output.flat) := by
  cases h with
  | nothing => exact .nil
  | item e m hm => exact .cons hm .nil
  | batch _ responses h => simpa [Output.flat] using h

/-- One output makes a packet. -/
theorem Puts.delivered (h : Puts p sent outs) :
    List.Forall₂ (Delivered p) (entry sent) (outs.head?.bind Output.packet).toList := by
  cases h with
  | nothing => exact .nil
  | item e m hm hbatch =>
    refine .cons ⟨.cons hm .nil, ?_⟩ .nil
    rintro ⟨r, hr, htrue⟩
    have heq : e.1 = some r := by
      obtain ⟨o, v⟩ := e
      cases o with
      | none => simp [requestsIn] at hr
      | some r' =>
        have hr' : r = r' := by simpa [requestsIn] using hr
        rw [hr']
    rw [hbatch r heq] at htrue
    exact absurd htrue (by simp)
  | batch _ responses h hsome =>
    have hentry : entry sent = [sent] := by simp [entry, hsome]
    rw [hentry]
    exact .cons ⟨h, fun _ => ⟨responses, rfl⟩⟩ .nil

end Child

/-! ## A packet of the child -/

section Received

variable {p : Projection} {s s' : ToolFilter} {b : RequestBook} {n : ℕ} {out : List Request}
  {ms : List Fields}

theorem receiveAll_cons (m : Fields) (ms : List Fields) :
    receiveAll p b (m :: ms) =
      ((receiveAll p (receive p b m).1 ms).1,
        (answeredRequest p b m, .obj m) :: (receiveAll p (receive p b m).1 ms).2.1,
        (receive p b m).2 ++ (receiveAll p (receive p b m).1 ms).2.2) := rfl

theorem childItems_spec {acc acc' : List Output} (h : Tracks p s b)
    (hs : Sound Request.packet b out) (hb : Booked p b n)
    (hitems : (ms.map Json.obj).foldlM (childItem p) (s, acc) = .ok (s', acc')) :
    ∃ outs, acc' = acc ++ outs ∧ Tracks p s' (receiveAll p b ms).1 ∧
      List.Forall₂ (Delivers p) (receiveAll p b ms).2.2 (outs.flatMap Output.flat) := by
  induction ms generalizing s b acc out with
  | nil =>
    obtain ⟨rfl, rfl⟩ := Prod.mk.inj (Except.ok.inj hitems)
    exact ⟨[], by simp, h, .nil⟩
  | cons m ms ih =>
    rw [List.map_cons, List.foldlM_cons, Fallible.bind_eq_ok] at hitems
    obtain ⟨⟨s₁, acc₁⟩, hitem, hitems⟩ := hitems
    obtain ⟨outs, rfl, htracks, hputs⟩ := childItem_spec h hs hb hitem
    obtain ⟨outs', rfl, htracks', hall⟩ := ih htracks (sound_receive hs) (booked_receive hb) hitems
    refine ⟨outs ++ outs', by rw [List.append_assoc], htracks', ?_⟩
    rw [receiveAll_cons, List.flatMap_append]
    exact List.rel_append hputs.flat hall

theorem delivered_of_child {packet : Packet} {response : Option Json} (h : Tracks p s b)
    (hs : Sound Request.packet b out) (hb : Booked p b n)
    (hchild : child p s packet.toJson = .ok (s', response)) :
    Tracks p s' (receiveAll p b packet.messages).1 ∧
      List.Forall₂ (Delivered p) (entry (receiveAll p b packet.messages).2.2)
        response.toList := by
  cases packet with
  | single m =>
    simp only [Packet.toJson, child, Fallible.bind_eq_ok] at hchild
    obtain ⟨⟨s₁, outs⟩, hitem, hchild⟩ := hchild
    obtain ⟨rfl, rfl⟩ := Prod.mk.inj (Except.ok.inj hchild)
    obtain ⟨outs', heq, htracks, hputs⟩ := childItem_spec h hs hb hitem
    obtain rfl : outs = outs' := by simpa using heq
    have hall : (receiveAll p b (Packet.single m).messages).2.2 = (receive p b m).2 :=
      List.append_nil _
    rw [hall]
    exact ⟨htracks, hputs.delivered⟩
  | batch =>
    simp only [Packet.toJson, child, Fallible.bind_eq_ok] at hchild
    obtain ⟨⟨s₁, outs⟩, hitems, hchild⟩ := hchild
    obtain ⟨rfl, rfl⟩ := Prod.mk.inj (Except.ok.inj hchild)
    obtain ⟨outs', heq, htracks, hall⟩ := childItems_spec h hs hb hitems
    obtain rfl : outs = outs' := by simpa using heq
    exact ⟨htracks, delivered_array hall⟩

theorem booked_receiveAll (ms : List Fields) (hb : Booked p b n) :
    Booked p (receiveAll p b ms).1 n := by
  induction ms generalizing b with
  | nil => exact hb
  | cons m ms ih => exact ih (booked_receive hb)

theorem asked_receiveAll : (receiveAll p b ms).1.asked = b.asked := by
  induction ms generalizing b with
  | nil => rfl
  | cons m ms ih =>
    have hrest := ih (b := (receive p b m).1)
    rw [asked_receive] at hrest
    exact hrest

theorem sound_receiveAll (hs : Sound Request.packet b out) :
    Sound Request.packet (receiveAll p b ms).1
      (out ++ requestsIn (receiveAll p b ms).2.2) := by
  induction ms generalizing b out with
  | nil => simpa [receiveAll, requestsIn] using hs
  | cons m ms ih =>
    have hrest := ih (sound_receive hs (p := p) (m := m))
    rw [receiveAll_cons, requestsIn_append, ← List.append_assoc]
    exact hrest

theorem together_receiveAll {r r' : Request} (hr : r ∈ requestsIn (receiveAll p b ms).2.2)
    (hr' : r' ∈ b.asked) (hpacket : r'.packet = r.packet) :
    r' ∈ requestsIn (receiveAll p b ms).2.2 := by
  induction ms generalizing b with
  | nil => simp [receiveAll, requestsIn] at hr
  | cons m ms ih =>
    rw [receiveAll_cons, requestsIn_append, List.mem_append] at hr ⊢
    rcases hr with hfirst | hrest
    · exact Or.inl (together_receive hfirst hr' hpacket)
    · exact Or.inr (ih hrest (by rwa [asked_receive]))

/-- The answers that a packet of the child brings. -/
theorem answers_receiveAll : (receiveAll p b ms).1.answers = b.answers ++
    (receiveAll p b ms).2.1.filterMap fun e => e.1.map fun r => (r, e.2) := by
  induction ms generalizing b with
  | nil => simp [receiveAll]
  | cons m ms ih =>
    rw [receiveAll_cons]
    dsimp only
    rw [ih, answers_receive, List.append_assoc]
    cases answeredRequest p b m <;> simp

/-- A request that is denied is not answered by the child. -/
theorem not_denied_receiveAll (ms : List Fields) (hb : Booked p b n) :
    ∀ e ∈ (receiveAll p b ms).2.1.filterMap (fun e => e.1.map fun r => (r, e.2)),
      e.1.denied = false := by
  induction ms generalizing b with
  | nil => simp [receiveAll]
  | cons m ms ih =>
    intro e he
    rw [receiveAll_cons] at he
    dsimp only at he
    rw [List.filterMap_cons] at he
    cases hanswers : answeredRequest p b m with
    | none =>
      rw [hanswers] at he
      exact ih (booked_receive hb) e he
    | some r =>
      rw [hanswers] at he
      rcases List.mem_cons.mp he with rfl | hrest
      · exact hb.allowed r (answeredRequest_eq_some hanswers).2.1
      · exact ih (booked_receive hb) e hrest

theorem filter_passes_receiveAll (hs : Sound Request.packet b out) (hb : Booked p b n) :
    (receiveAll p b ms).2.2.filter passes = (receiveAll p b ms).2.1.filter passes := by
  induction ms generalizing b out with
  | nil => rfl
  | cons m ms ih =>
    rw [receiveAll_cons]
    dsimp only
    rw [List.filter_append, filter_passes_receive hs hb, ih (sound_receive hs) (booked_receive hb),
      ← List.filter_append, List.singleton_append]

theorem answered_receiveAll {r : Request} {v : Json}
    (h : (some r, v) ∈ (receiveAll p b ms).2.2) : (r, v) ∈ (receiveAll p b ms).1.answers := by
  induction ms generalizing b with
  | nil => simp [receiveAll] at h
  | cons m ms ih =>
    rw [receiveAll_cons] at h ⊢
    dsimp only at h ⊢
    rcases List.mem_append.mp h with hfirst | hrest
    · have hanswered : (r, v) ∈ (receive p b m).1.answers := by
        cases hanswers : answeredRequest p b m with
        | none =>
          rw [receive_of_none hanswers] at hfirst
          simp at hfirst
        | some =>
          rw [receive_of_some hanswers] at hfirst ⊢
          obtain ⟨r₁, heq, hmem, -⟩ := mem_settledResponses hfirst
          obtain rfl := Option.some.inj heq
          exact hmem
      rw [answers_receiveAll]
      exact List.mem_append_left _ hanswered
    · exact ih hrest

end Received

/-! ## Whole sessions -/

/-- What holds in a session: what is to hold, and that the book and the tables agree. -/
structure Kept (p : Projection) (s : Session) : Prop where
  filtered : Filtered p s
  booked : Booked p s.book s.packets
  tracks : Tracks p s.filter s.book

theorem flatten_entry (out : List (Option Request × Json)) : (entry out).flatten = out := by
  unfold entry
  split
  · rename_i hnone
    rw [List.isEmpty_iff.mp hnone]
    rfl
  · simp

theorem flatMap_requestsIn_entry (out : List (Option Request × Json)) :
    (entry out).flatMap requestsIn = requestsIn out := by
  unfold entry
  split
  · rename_i hnone
    rw [List.isEmpty_iff.mp hnone]
    rfl
  · simp

theorem mem_entry {out out' : List (Option Request × Json)} (h : out' ∈ entry out) :
    out' = out := by
  unfold entry at h
  split at h
  · simp at h
  · simpa using h

section Session

variable {p : Projection} {s : Session} {env : NativeEnv} {packet : Packet} {filter : ToolFilter}
  {response : Option Json}

theorem kept_initial (p : Projection) : Kept p {} := by
  refine ⟨⟨by simp, .nil, rfl, rfl, by simp, by simp, sound_empty _, by simp, by simp, .nil, rfl⟩,
    ⟨?_, by simp, by simp, ?_, by simp, by simp⟩, ⟨?_, ?_, ?_⟩⟩ <;> simp [Book.waiting]

theorem mem_asked_of_delivered (h : Filtered p s) {out : List (Option Request × Json)}
    (hout : out ∈ s.delivered) {r : Request} (hr : r ∈ requestsIn out) : r ∈ s.book.asked :=
  ((h.exchanged.mem_out r).mp (List.mem_flatMap.mpr ⟨out, hout, hr⟩)).1

/-- A packet of the client. -/
theorem kept_client (h : Kept p s) (hfresh : Fresh p s (.client env packet))
    {forwarded : Option Json}
    (hclient : client p env s.packets s.filter packet.toJson = .ok (filter, forwarded, response)) :
    Kept p { s with
      filter
      book := s.book.record (requestsOf p s.packets packet) (denialsOf p s.packets packet)
      packets := s.packets + 1
      sent := s.sent ++ packet.messages
      toChild := s.toChild ++ forwarded.toList
      toClient := s.toClient ++ response.toList
      delivered := s.delivered ++ entry (settledResponses
        (s.book.record (requestsOf p s.packets packet) (denialsOf p s.packets packet))
        s.packets) } := by
  obtain ⟨hkeys, hnew⟩ := hfresh
  have hs := h.filtered.exchanged
  obtain ⟨hasks, hforwarded, hresponse⟩ := asks_of_client hclient
  have hbooked := booked_client hs h.booked hkeys hnew
  have hsettled : settledResponses
      (s.book.record (requestsOf p s.packets packet) (denialsOf p s.packets packet)) s.packets =
        if (allowedOf p packet).isEmpty then
          (denialsOf p s.packets packet).map fun e => (some e.1, e.2) else [] := by
    rw [settledResponses, settled_client hs h.booked]
    split <;> rfl
  refine ⟨?_, hbooked, tracks_client h.tracks hs h.booked hnew hasks⟩
  constructor
  · intro q hq m hm hcall
    rcases List.mem_append.mp hq with hold | hnew
    · exact h.filtered.calls q hold m hm hcall
    · have hmem : Json.obj m ∈ forwarded.toList.flatMap itemsOf :=
        List.mem_flatMap.mpr ⟨q, hnew, hm⟩
      obtain ⟨i, hi⟩ := List.mem_iff_getElem?.mp hmem
      have hlt : i < (packet.messages.filter fun m => !excluded p m).length := by
        rw [hforwarded.length_eq]
        exact (List.getElem?_eq_some_iff.mp hi).1
      obtain ⟨m', hm', -, hpermitted⟩ := hforwarded.get hlt (hforwarded.length_eq ▸ hlt)
      have heq : Json.obj m = Json.obj m' := by
        rw [← hm', List.get_eq_getElem]
        exact (List.getElem_eq_iff _).mpr hi |>.symm
      obtain rfl := Json.obj.inj heq
      exact hpermitted hcall
  · rw [List.filter_append, List.flatMap_append]
    refine List.rel_append h.filtered.forwarded (hforwarded.imp ?_)
    rintro m v ⟨m', rfl, hforwards, -⟩
    exact ⟨m', rfl, hforwards⟩
  · rw [asked_record, List.map_append, h.filtered.requests, List.filter_append, List.map_append,
      requestsOf, List.map_map]
    rfl
  · have hnone : (denialsOf p s.packets packet).filter (fun e => !e.1.denied) = [] := by
      rw [List.filter_eq_nil_iff]
      intro e he
      obtain ⟨m, hm, rfl⟩ := List.mem_map.mp he
      simp only [List.mem_filter, Bool.and_eq_true] at hm
      simp [requestOf, hm.2.2]
    rw [answers_record, List.filter_append, hnone, List.append_nil, h.filtered.responses]
  · exact hbooked.denials
  · exact hbooked.identified
  · rw [List.flatMap_append, flatMap_requestsIn_entry]
    exact sound_client hs h.booked hkeys
  · intro out hout r hr r' hr' hpacket
    rcases List.mem_append.mp hout with hold | hnew
    · have hasked := mem_asked_of_delivered h.filtered hold hr
      rcases List.mem_append.mp hr' with hold' | hnew'
      · exact h.filtered.together out hold r hr r' hold' hpacket
      · have hlt := h.booked.recent r hasked
        rw [packet_of_mem_requestsOf hnew'] at hpacket
        omega
    · obtain rfl := mem_entry hnew
      rw [requestsIn_settledResponses] at hr ⊢
      exact together_settled hr hr' hpacket
  · intro out hout r v hv
    rcases List.mem_append.mp hout with hold | hnew
    · exact List.mem_append_left _ (h.filtered.answered out hold r v hv)
    · obtain rfl := mem_entry hnew
      obtain ⟨r', heq, hmem, -⟩ := mem_settledResponses hv
      obtain rfl := Option.some.inj heq
      exact hmem
  · refine List.rel_append h.filtered.delivered ?_
    rw [hsettled]
    exact hresponse
  · rw [List.flatten_append, List.filter_append, h.filtered.passed, flatten_entry, hsettled]
    have hnone : (if (allowedOf p packet).isEmpty then (denialsOf p s.packets packet).map
        fun e => (some e.1, e.2) else []).filter passes = [] := by
      rw [List.filter_eq_nil_iff]
      split
      · intro e he
        obtain ⟨e', he', rfl⟩ := List.mem_map.mp he
        obtain ⟨m, hm, rfl⟩ := List.mem_map.mp he'
        simp only [List.mem_filter, Bool.and_eq_true] at hm
        simp [passes, requestOf, hm.2.2]
      · simp
    rw [hnone, List.append_nil]

/-- A packet of the child. -/
theorem kept_child (h : Kept p s) (hchild : child p s.filter packet.toJson = .ok (filter, response)) :
    Kept p { s with
      filter
      book := (receiveAll p s.book packet.messages).1
      received := s.received ++ (receiveAll p s.book packet.messages).2.1
      toClient := s.toClient ++ response.toList
      delivered := s.delivered ++ entry (receiveAll p s.book packet.messages).2.2 } := by
  have hs := h.filtered.exchanged
  obtain ⟨htracks, hdelivered⟩ := delivered_of_child h.tracks hs h.booked hchild
  have hbooked := booked_receiveAll packet.messages h.booked
  refine ⟨?_, hbooked, htracks⟩
  constructor
  · exact h.filtered.calls
  · exact h.filtered.forwarded
  · rw [asked_receiveAll]
    exact h.filtered.requests
  · have hkept := List.filter_eq_self.mpr fun e he =>
      Bool.not_eq_true' _ |>.mpr (not_denied_receiveAll packet.messages h.booked e he)
    rw [answers_receiveAll, List.filter_append, hkept, h.filtered.responses, List.filterMap_append]
  · exact hbooked.denials
  · exact hbooked.identified
  · rw [List.flatMap_append, flatMap_requestsIn_entry]
    exact sound_receiveAll hs
  · intro out hout r hr r' hr' hpacket
    rw [asked_receiveAll] at hr'
    rcases List.mem_append.mp hout with hold | hnew
    · exact h.filtered.together out hold r hr r' hr' hpacket
    · obtain rfl := mem_entry hnew
      exact together_receiveAll hr hr' hpacket
  · intro out hout r v hv
    rcases List.mem_append.mp hout with hold | hnew
    · rw [answers_receiveAll]
      exact List.mem_append_left _ (h.filtered.answered out hold r v hv)
    · obtain rfl := mem_entry hnew
      exact answered_receiveAll hv
  · exact List.rel_append h.filtered.delivered hdelivered
  · rw [List.flatten_append, List.filter_append, h.filtered.passed, flatten_entry,
      filter_passes_receiveAll hs h.booked, List.filter_append]

theorem kept_step (h : Kept p s) {e : McpEvent} (hfresh : Fresh p s e) : Kept p (step p s e) := by
  have hstopped : Kept p { s with stopped := true } := by
    obtain ⟨hfiltered, hbooked, htracks⟩ := h
    obtain ⟨h₁, h₂, h₃, h₄, h₅, h₆, h₇, h₈, h₉, h₁₀, h₁₁⟩ := hfiltered
    exact ⟨⟨h₁, h₂, h₃, h₄, h₅, h₆, h₇, h₈, h₉, h₁₀, h₁₁⟩, hbooked, htracks⟩
  unfold step
  split
  · exact h
  · cases e with
    | client =>
      dsimp only
      split
      · exact hstopped
      · rename_i filter forwarded response hclient
        exact kept_client h hfresh hclient
    | child =>
      dsimp only
      split
      · exact hstopped
      · rename_i filter response hchild
        exact kept_child h hchild

end Session

/-- In every session whose requests in flight have different identifiers, what is forwarded is what
is let through, as it is but for what a native context adds; and the responses are exchanged one by
one, those of a batch together. -/
theorem sessions_filtered (p : Projection) (events : List McpEvent)
    (hfresh : Along (step p) (Fresh p) {} events) : Filtered p (run (step p) {} events) := by
  have hstep : ∀ s e, Kept p s → Fresh p s e → Kept p (step p s e) :=
    fun s e hs he => kept_step hs he
  exact (invariant_run hstep (kept_initial p) hfresh).filtered

/-! ## A native context -/

def sampleProjection (nativeContext : Bool) : Projection where
  rule := ⟨none, [Points.ofString "rm"]⟩
  nativeContext := nativeContext
  py := cpython
  floatText t := t

/-- The environment of a relay, and the file of its native session. -/
def sampleNative : NativeEnv where
  rawPath := Points.ofString "/run/context.json"
  token := Points.ofString "t"
  absolute := true
  context := .ok
    [(Points.ofString "contextToken", .str (Points.ofString "t")),
     (Points.ofString "nativeSessionActive", .bool true),
     (Points.ofString "nativeSessionId", .str (Points.ofString "s")),
     (Points.ofString "nativeTurnId", .str (Points.ofString "u"))]

def sampleCall (id : ℤ) (tool : String) : Fields :=
  [(Points.ofString "id", .int id), (Points.ofString "method", .str (Points.ofString "tools/call")),
   (Points.ofString "params", .obj [(Points.ofString "name", .str (Points.ofString tool))])]

/-- A batch with a call that is let through and one that is not, and the response of the child. -/
def sampleSession : List McpEvent :=
  [.client sampleNative (.batch [sampleCall 1 "ls", sampleCall 2 "rm"]),
   .child (.single [(Points.ofString "id", .int 1), (Points.ofString "result", .obj [])])]

instance decidableFresh (p : Projection) (s : Session) (e : McpEvent) : Decidable (Fresh p s e) :=
  match e with
  | .client _ packet =>
    inferInstanceAs (Decidable (((packet.messages.filter (isRequest p)).map (key p)).Nodup ∧ _))
  | .child _ => isTrue trivial

theorem sessions_filtered_sample :
    Along (step (sampleProjection false)) (Fresh (sampleProjection false)) {} sampleSession ∧
      Filtered (sampleProjection false) (run (step (sampleProjection false)) {} sampleSession) := by
  have hfresh : Along (step (sampleProjection false)) (Fresh (sampleProjection false)) {}
      sampleSession := by
    decide +kernel
  exact ⟨hfresh, sessions_filtered (sampleProjection false) sampleSession hfresh⟩

/-- A call that is let through does not reach the child as it is. -/
theorem call_changed :
    excluded (sampleProjection true) (sampleCall 1 "ls") = false ∧
      (run (step (sampleProjection true)) {}
        [.client sampleNative (.single (sampleCall 1 "ls"))]).toChild ≠
          [.obj (sampleCall 1 "ls")] := by
  refine ⟨by decide +kernel, fun h => ?_⟩
  have htexts := congrArg (List.map Json.dumps) h
  revert htexts
  decide +kernel

end GlassHive.McpFilter
