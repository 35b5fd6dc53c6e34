import GlassHive.FilterSessions

/-!
# The scopes of permissions

In a native context the relay asks for the scope of a permission in the form that the child shows,
and takes the answer out of the response again. What the responses to the child say is told from the
packets that went through before: a response answers the last request with its identifier into whose
form the relay has put its field, unless another response has answered it.
-/

namespace GlassHive.McpFilter

open Relational RunActions Transition

/-! ## Packets through the relay -/

/-- A packet of the child, or one of the client. -/
inductive PermissionEvent
  | request (packet : Fields)
  | response (packet : Fields)

/-- A packet that went through, with whether it took an elicitation that was pending. -/
structure Passage where
  event : PermissionEvent
  forwarded : Fields
  took : Bool

structure PermissionRelay where
  filter : ToolFilter := {}
  stopped : Bool := false
  passed : List Passage := []

/-- A packet passes. An exception ends the session. -/
def pass (p : Projection) (s : PermissionRelay) (e : PermissionEvent) : PermissionRelay :=
  if s.stopped then s
  else match e with
  | .request m =>
    match permissionRequest p s.filter m with
    | .error _ => { s with stopped := true }
    | .ok (filter, forwarded) => { s with filter, passed := s.passed ++ [⟨e, forwarded, false⟩] }
  | .response m =>
    match permissionResponse p s.filter m with
    | .error _ => { s with stopped := true }
    | .ok (filter, forwarded) =>
      let took := isResponse m && (s.filter.elicitations.get? (key p m)).isSome
      { s with filter, passed := s.passed ++ [⟨e, forwarded, took⟩] }

/-! ## What the packets say -/

/-- The fields of an object in a field, if there is one. -/
def objectAt (fields : Fields) (name : String) : Fields :=
  match get fields name with
  | .obj fs => fs
  | _ => []

/-- The properties of the form of a request. -/
def formOf (m : Fields) : Fields :=
  objectAt (objectAt (objectAt m "params") "requestedSchema") "properties"

/-- The scopes that a request offers, of those that there are. -/
def scopesOf (m : Fields) : List Points :=
  match get (objectAt (objectAt m "params") "_meta") "persist" with
  | .arr offered => offeredScopes offered
  | _ => []

/-- What a response fills into the form. -/
def contentOf (m : Fields) : Fields :=
  objectAt (objectAt m "result") "content"

/-- The metadata of a response. -/
def metadataOf (m : Fields) : Fields :=
  objectAt (objectAt m "result") "_meta"

/-- The scope that a response carries. -/
def Carries (m : Fields) (v : Json) : Prop :=
  (Points.ofString "persist", v) ∈ metadataOf m

def Accepts (m : Fields) : Prop :=
  get (objectAt m "result") "action" = .str (Points.ofString "accept")

/-- The relay put its field into the form of a request. -/
def Injects (m forwarded : Fields) : Prop :=
  has (formOf m) scopeField = false ∧ has (formOf forwarded) scopeField = true

/-- A request with an identifier, with the field of the relay. -/
def Passage.Asks (p : Projection) (x : Passage) (k : Points) (m : Fields) : Prop :=
  x.event = .request m ∧ Injects m x.forwarded ∧ key p m = k

/-- A response with an identifier. -/
def Passage.Answers (p : Projection) (x : Passage) (k : Points) : Prop :=
  ∃ m, x.event = .response m ∧ isResponse m = true ∧ key p m = k

/-- A request with the field of the relay that no response has answered. -/
def Unanswered (p : Projection) (passed : List Passage) (k : Points) (m : Fields) : Prop :=
  ∃ before x after, passed = before ++ x :: after ∧ x.Asks p k m ∧ ∀ y ∈ after, ¬y.Answers p k

/-- A response to such a request. -/
def Matches (p : Projection) (passed : List Passage) (m asked : Fields) : Prop :=
  isResponse m = true ∧ Unanswered p passed (key p m) asked

/-- What a packet of the client becomes after the packets that have passed. It carries a scope that
is not its own only when it accepts a request that offered the scope, and chooses it. A response to
a request with the field of the relay takes the elicitation and is without this field, and any other
packet stays as it is. -/
structure Restores (p : Projection) (passed : List Passage) (m : Fields) (x : Passage) : Prop where
  scope : ∀ v, Carries x.forwarded v → ¬Carries m v → Accepts m ∧
    get (contentOf m) scopeField = v ∧
      ∃ asked t, Matches p passed m asked ∧ t ∈ scopesOf asked ∧ v = .str t
  hidden : ∀ asked, Matches p passed m asked → has (contentOf x.forwarded) scopeField = false
  other : (∀ asked, ¬Matches p passed m asked) → x.forwarded = m
  took : x.took = true ↔ ∃ asked, Matches p passed m asked

variable {p : Projection} {s : PermissionRelay} {filter filter' : ToolFilter}
  {m f asked fields fs : Fields} {k : Points} {passed : List Passage} {x : Passage} {name : String}

/-! ## Fields -/

@[simp]
theorem objectAt_set {n : String} :
    objectAt (set fields n (.obj fs)) name =
      if Points.ofString name = Points.ofString n then fs else objectAt fields name := by
  simp only [objectAt, get_set]
  by_cases hname : Points.ofString name = Points.ofString n <;> simp [hname]

theorem objectAt_of_get (h : get fields name = .obj fs) : objectAt fields name = fs := by
  rw [objectAt, h]

/-- A field that is absent or an object. -/
theorem objectAt_of_getOr (h : getOr fields name (.obj []) = .obj fs) :
    objectAt fields name = fs := by
  unfold getOr at h
  unfold objectAt RunActions.get
  cases hlookup : fields.lookup (Points.ofString name) with
  | none =>
    rw [hlookup] at h
    exact Json.obj.inj h
  | some v =>
    rw [hlookup] at h
    obtain rfl : v = .obj fs := h
    rfl

theorem objectAt_cases (fields : Fields) (name : String) :
    objectAt fields name = [] ∨ get fields name = .obj (objectAt fields name) := by
  unfold objectAt
  split
  · rename_i h
    exact .inr h
  · exact .inl rfl

theorem has_contentOf_eq_false (h : ∀ result content, get m "result" = .obj result →
    get result "content" = .obj content → content.lookup (Points.ofString scopeField) = none) :
    has (contentOf m) scopeField = false := by
  unfold contentOf
  rcases objectAt_cases (objectAt m "result") "content" with hnil | hcontent
  · rw [hnil]
    rfl
  rcases objectAt_cases m "result" with hnil | hresult
  · rw [hnil]
    rfl
  · rw [has_eq, h _ _ hresult hcontent]
    rfl

theorem mem_setField {g x : Points × Json} (h : x ∈ Json.setField fs g) : x ∈ fs ∨ x = g := by
  unfold Json.setField at h
  split at h
  · obtain ⟨y, hy, rfl⟩ := List.mem_map.mp h
    split
    · exact .inr rfl
    · exact .inl hy
  · simpa using h

theorem mem_foldl_setField {gs : Fields} {x : Points × Json} (h : x ∈ gs.foldl Json.setField fs) :
    x ∈ fs ∨ x ∈ gs := by
  induction gs generalizing fs with
  | nil => exact .inl h
  | cons g gs ih =>
    rcases ih h with hset | hrest
    · rcases mem_setField hset with hold | rfl
      · exact .inl hold
      · exact .inr List.mem_cons_self
    · exact .inr (List.mem_cons_of_mem _ hrest)

/-! ## One packet -/

/-- A request that becomes pending offers its scopes and gets the field of the relay. -/
theorem AsksScope.injects (h : AsksScope p filter m filter' f) :
    Injects m f ∧ ∃ elicitations, filter.elicitations.insert? (key p m)
        (Points.ofString scopeField, scopesOf m) = some elicitations ∧
      filter' = { filter with elicitations } := by
  cases h with
  | asked _ hparams hmeta hschema hoffered hproperties hnew hinsert =>
    refine ⟨⟨?_, ?_⟩, _, ?_, rfl⟩
    · rwa [formOf, objectAt_of_get hparams, objectAt_of_get hschema, objectAt_of_getOr hproperties]
    · simp [formOf, has_set]
    · rw [scopesOf, objectAt_of_get hparams, objectAt_of_get hmeta, hoffered]
      exact hinsert

/-- What a response that fills in the field of the relay becomes. -/
theorem restoredResult_spec {choice : Json} {result content restored : Fields}
    (hresult : get m "result" = .obj result)
    (h : restoredResult (Points.ofString scopeField) choice result content = .ok restored) :
    has (contentOf (set m "result" (.obj restored))) scopeField = false ∧
      ∀ v, Carries (set m "result" (.obj restored)) v → ¬Carries m v → Accepts m ∧ v = choice := by
  have hnames : Points.ofString "_meta" ≠ Points.ofString "content" := by decide
  have hhidden : has (content.filter fun f => f.1 ≠ Points.ofString scopeField) scopeField =
      false := by
    simp [has]
  simp only [Carries, metadataOf, contentOf, Accepts, objectAt_set, if_true,
    objectAt_of_get hresult]
  unfold restoredResult at h
  dsimp only at h
  split at h
  · rename_i haccepted
    split at h
    · rename_i metadata hmetadata
      obtain rfl := Except.ok.inj h
      simp only [objectAt_set, if_true, if_neg hnames.symm]
      refine ⟨hhidden, fun v hcarries hown => ⟨isText_iff.mp haccepted, ?_⟩⟩
      rw [objectAt_of_getOr hmetadata] at hown
      rcases mem_foldl_setField hcarries with hchoice | hold
      · simpa using hchoice
      · exact absurd hold hown
    · cases h
  · obtain rfl := Except.ok.inj h
    simp only [objectAt_set, if_true, if_neg hnames]
    exact ⟨hhidden, fun v hcarries hown => absurd hcarries hown⟩

/-! ## All packets -/

/-- Where a packet stands among those that have passed and one more. -/
theorem eq_or_exists_of_snoc {before after : List Passage} {y : Passage}
    (h : passed ++ [x] = before ++ y :: after) :
    (passed = before ∧ x = y ∧ after = []) ∨
      ∃ rest, passed = before ++ y :: rest ∧ after = rest ++ [x] := by
  rcases List.eq_nil_or_concat' after with rfl | ⟨rest, z, rfl⟩
  · obtain ⟨rfl, hlast⟩ := List.append_inj' h rfl
    exact .inl ⟨rfl, (List.cons.inj hlast).1, rfl⟩
  · rw [← List.cons_append, ← List.append_assoc] at h
    obtain ⟨rfl, hlast⟩ := List.append_inj' h rfl
    obtain rfl := (List.cons.inj hlast).1
    exact .inr ⟨rest, rfl, rfl⟩

theorem unanswered_snoc :
    Unanswered p (passed ++ [x]) k asked ↔
      x.Asks p k asked ∨ Unanswered p passed k asked ∧ ¬x.Answers p k := by
  constructor
  · rintro ⟨before, y, after, heq, hasks, hnone⟩
    rcases eq_or_exists_of_snoc heq with ⟨-, rfl, -⟩ | ⟨rest, hpassed, rfl⟩
    · exact .inl hasks
    · exact .inr ⟨⟨before, y, rest, hpassed, hasks, fun w hw => hnone w (by simp [hw])⟩,
        hnone x (by simp)⟩
  · rintro (hasks | ⟨⟨before, y, after, rfl, hasks, hnone⟩, hx⟩)
    · exact ⟨passed, x, [], rfl, hasks, by simp⟩
    · refine ⟨before, y, after ++ [x], by simp, hasks, fun w hw => ?_⟩
      rcases List.mem_append.mp hw with hw | hw
      · exact hnone w hw
      · rwa [List.mem_singleton.mp hw]

/-- The elicitations that are pending are the requests that no response has answered, and every
packet of the client has become what it should. -/
structure KeepsTrack (p : Projection) (s : PermissionRelay) : Prop where
  pending : ∀ k entry, s.filter.elicitations.get? k = some entry ↔
    ∃ asked, Unanswered p s.passed k asked ∧
      entry = (Points.ofString scopeField, scopesOf asked)
  restores : ∀ before x after m, s.passed = before ++ x :: after → x.event = .response m →
    Restores p before m x

theorem KeepsTrack.snoc (h : KeepsTrack p s)
    (hpending : ∀ k entry, filter'.elicitations.get? k = some entry ↔
      ∃ asked, Unanswered p (s.passed ++ [x]) k asked ∧
        entry = (Points.ofString scopeField, scopesOf asked))
    (hx : ∀ m, x.event = .response m → Restores p s.passed m x) :
    KeepsTrack p { s with filter := filter', passed := s.passed ++ [x] } where
  pending := hpending
  restores before y after m heq hevent := by
    rcases eq_or_exists_of_snoc heq with ⟨rfl, rfl, -⟩ | ⟨rest, hpassed, -⟩
    · exact hx m hevent
    · exact h.restores before y rest m hpassed hevent

theorem keepsTrack_request (h : KeepsTrack p s)
    (hrequest : permissionRequest p s.filter m = .ok (filter', f)) :
    KeepsTrack p { s with
      filter := filter', passed := s.passed ++ [⟨.request m, f, false⟩] } := by
  have hanswers : ∀ k, ¬(⟨.request m, f, false⟩ : Passage).Answers p k := by
    rintro k ⟨m', hevent, -⟩
    cases hevent
  refine h.snoc (fun k entry => ?_) fun m' hevent => by cases hevent
  simp only [unanswered_snoc, hanswers, not_false_eq_true, and_true]
  rcases permissionRequest_cases hrequest with ⟨rfl, rfl⟩ | hasks
  · have hasks : ∀ k asked, ¬(⟨.request f, f, false⟩ : Passage).Asks p k asked := by
      rintro k asked ⟨hevent, ⟨hwithout, hwith⟩, -⟩
      cases hevent
      rw [hwithout] at hwith
      cases hwith
    simp only [hasks, false_or]
    exact h.pending k entry
  · obtain ⟨hinjects, elicitations, hinsert, rfl⟩ := hasks.injects
    have hasks : ∀ k asked, (⟨.request m, f, false⟩ : Passage).Asks p k asked ↔
        asked = m ∧ k = key p m := by
      intro k asked
      constructor
      · rintro ⟨hevent, -, rfl⟩
        cases hevent
        exact ⟨rfl, rfl⟩
      · rintro ⟨rfl, rfl⟩
        exact ⟨rfl, hinjects, rfl⟩
    dsimp only
    simp only [Table.get?_insert hinsert, hasks]
    by_cases hk : k = key p m
    · subst hk
      rw [if_pos rfl]
      constructor
      · intro hentry
        exact ⟨m, .inl ⟨rfl, rfl⟩, (Option.some.inj hentry).symm⟩
      · rintro ⟨asked, ⟨rfl, -⟩ | hopen, rfl⟩
        · rfl
        · have hthere := (h.pending _ _).mpr ⟨asked, hopen, rfl⟩
          rw [(Table.insert?_eq_some hinsert).1] at hthere
          cases hthere
    · simp only [hk, if_false, and_false, false_or]
      exact h.pending k entry

/-- A response leaves the elicitations with other identifiers. -/
theorem permissionResponse_elicitations {entry : Points × List Points}
    (h : permissionResponse p filter m = .ok (filter', f)) :
    filter'.elicitations.get? k = some entry ↔
      filter.elicitations.get? k = some entry ∧ ¬(isResponse m = true ∧ key p m = k) := by
  rcases permissionResponse_cases h with ⟨rfl, -, hnone⟩ | htakes
  · rw [iff_self_and]
    rintro hentry ⟨hm, rfl⟩
    rw [hnone hm] at hentry
    cases hentry
  · have hdelete : (filter.elicitations.delete fun k _ => k = key p m).get? k = some entry ↔
        filter.elicitations.get? k = some entry ∧ ¬key p m = k := by
      rw [Table.get?_delete_eq_some, decide_eq_false_iff_not, eq_comm (a := k)]
    cases htakes with
    | kept hm => simpa only [hm, true_and] using hdelete
    | restored hm => simpa only [hm, true_and] using hdelete

theorem restores_response (h : KeepsTrack p s)
    (hresponse : permissionResponse p s.filter m = .ok (filter', f)) :
    Restores p s.passed m ⟨.response m, f,
      isResponse m && (s.filter.elicitations.get? (key p m)).isSome⟩ := by
  have hmatches : ∀ asked, Matches p s.passed m asked ↔ isResponse m = true ∧
      Unanswered p s.passed (key p m) asked := fun _ => Iff.rfl
  have htook : (isResponse m && (s.filter.elicitations.get? (key p m)).isSome) = true ↔
      ∃ asked, Matches p s.passed m asked := by
    simp only [Bool.and_eq_true, Option.isSome_iff_exists, h.pending, hmatches]
    constructor
    · rintro ⟨hm, _, asked, hopen, _⟩
      exact ⟨asked, hm, hopen⟩
    · rintro ⟨asked, hm, hopen⟩
      exact ⟨hm, _, asked, hopen, rfl⟩
  rcases permissionResponse_cases hresponse with ⟨-, rfl, hnone⟩ | htakes
  · have hother : ∀ asked, ¬Matches p s.passed f asked := by
      rintro asked ⟨hm, hopen⟩
      have hthere := (h.pending _ _).mpr ⟨asked, hopen, rfl⟩
      rw [hnone hm] at hthere
      cases hthere
    exact {
      scope := fun v hcarries hown => absurd hcarries hown
      hidden := fun asked hmatch => absurd hmatch (hother asked)
      other := fun _ => rfl
      took := htook }
  · cases htakes with
    | kept hm hpending hempty =>
      obtain ⟨asked, hopen, hentry⟩ := (h.pending _ _).mp hpending
      obtain ⟨rfl, -⟩ := Prod.mk.inj hentry
      exact {
        scope := fun v hcarries hown => absurd hcarries hown
        hidden := fun _ _ => has_contentOf_eq_false hempty
        other := fun _ => rfl
        took := htook }
    | restored hm hpending hresult hcontent hchoice hoffered hrestored =>
      obtain ⟨asked, hopen, hentry⟩ := (h.pending _ _).mp hpending
      obtain ⟨rfl, rfl⟩ := Prod.mk.inj hentry
      obtain ⟨t, ht, hsame⟩ := List.any_eq_true.mp hoffered
      obtain ⟨hhidden, hscope⟩ := restoredResult_spec hresult hrestored
      refine ⟨fun v hcarries hown => ?_, fun _ _ => hhidden, fun hother => ?_, htook⟩
      · obtain ⟨haccepts, rfl⟩ := hscope v hcarries hown
        refine ⟨haccepts, ?_, asked, t, ⟨hm, hopen⟩, ht, isText_iff.mp hsame⟩
        rw [contentOf, objectAt_of_get hresult, objectAt_of_get hcontent, RunActions.get, hchoice]
        rfl
      · exact absurd ⟨hm, hopen⟩ (hother asked)

theorem keepsTrack_response (h : KeepsTrack p s)
    (hresponse : permissionResponse p s.filter m = .ok (filter', f)) :
    KeepsTrack p { s with
      filter := filter'
      passed := s.passed ++ [⟨.response m, f,
        isResponse m && (s.filter.elicitations.get? (key p m)).isSome⟩] } := by
  refine h.snoc (fun k entry => ?_) fun m' hevent => ?_
  · have hanswers : ∀ took, (⟨.response m, f, took⟩ : Passage).Answers p k ↔
        isResponse m = true ∧ key p m = k := by
      intro took
      constructor
      · rintro ⟨m', hevent, hm⟩
        cases hevent
        exact hm
      · exact fun hm => ⟨m, rfl, hm⟩
    have hasks : ∀ took asked, ¬(⟨.response m, f, took⟩ : Passage).Asks p k asked := by
      rintro took asked ⟨hevent, -⟩
      cases hevent
    rw [permissionResponse_elicitations hresponse, h.pending]
    simp only [unanswered_snoc, hasks, hanswers, false_or]
    constructor
    · rintro ⟨⟨asked, hopen, hentry⟩, hother⟩
      exact ⟨asked, ⟨hopen, hother⟩, hentry⟩
    · rintro ⟨asked, ⟨hopen, hother⟩, hentry⟩
      exact ⟨⟨asked, hopen, hentry⟩, hother⟩
  · cases hevent
    exact restores_response h hresponse

theorem keepsTrack_pass (h : KeepsTrack p s) (e : PermissionEvent) :
    KeepsTrack p (pass p s e) := by
  have hstopped : KeepsTrack p { s with stopped := true } := ⟨h.pending, h.restores⟩
  unfold pass
  split
  · exact h
  · cases e with
    | request =>
      dsimp only
      split
      · exact hstopped
      · rename_i hrequest
        exact keepsTrack_request h hrequest
    | response =>
      dsimp only
      split
      · exact hstopped
      · rename_i hresponse
        exact keepsTrack_response h hresponse

theorem keepsTrack_run (p : Projection) (events : List PermissionEvent) :
    KeepsTrack p (run (pass p) {} events) := by
  refine invariant_run (fun s e hs _ => keepsTrack_pass hs e) ⟨fun k entry => ?_, ?_⟩
    (along_of_forall (pass p) (C := fun _ _ => True) (fun _ _ => trivial) {} events)
  · constructor
    · intro h
      cases h
    · rintro ⟨asked, ⟨before, x, after, heq, -⟩, -⟩
      cases before <;> cases heq
  · intro before x after m heq
    cases before <;> cases heq

/-- Every packet of the client becomes what it should, and between two responses with an identifier,
of which the second takes an elicitation, there is a request with the field of the relay. -/
theorem permission_scopes (p : Projection) (events : List PermissionEvent) :
    (∀ before x after m, (run (pass p) {} events).passed = before ++ x :: after →
      x.event = .response m → Restores p before m x) ∧
    ∀ before x between y after k,
      (run (pass p) {} events).passed = before ++ x :: (between ++ y :: after) →
      x.Answers p k → y.Answers p k → y.took = true → ∃ z ∈ between, ∃ asked, z.Asks p k asked := by
  have htrack := keepsTrack_run p events
  refine ⟨htrack.restores, ?_⟩
  rintro before x between y after k hpassed hx ⟨m, hevent, hm, rfl⟩ htook
  rw [← List.cons_append, ← List.append_assoc] at hpassed
  obtain ⟨asked, -, front, z, rest, hfront, hasks, hnone⟩ :=
    (htrack.restores _ y after m hpassed hevent).took.mp htook
  have hne : ∀ asked, x = z → ¬z.Asks p (key p m) asked := by
    rintro asked rfl ⟨hrequest, -⟩
    obtain ⟨m', hresponse, -⟩ := hx
    rw [hrequest] at hresponse
    cases hresponse
  rcases List.append_eq_append_iff.mp hfront with ⟨c, rfl, htail⟩ | ⟨c, rfl, htail⟩
  · cases c with
    | nil => exact absurd hasks (hne asked (List.cons.inj htail).1)
    | cons w c =>
      obtain ⟨-, rfl⟩ := List.cons.inj htail
      exact ⟨z, by simp, asked, hasks⟩
  · cases c with
    | nil => exact absurd hasks (hne asked (List.cons.inj htail).1.symm)
    | cons w c =>
      obtain ⟨-, rfl⟩ := List.cons.inj htail
      exact absurd hx (hnone x (by simp))

/-! ## A second response -/

/-- A permission that offers the scope of a session. -/
def sessionRequest : Fields :=
  [(Points.ofString "id", .int 1),
   (Points.ofString "method", .str (Points.ofString "elicitation/create")),
   (Points.ofString "params", .obj
     [(Points.ofString "_meta", .obj
        [(Points.ofString "persist", .arr [.str (Points.ofString "session")])]),
      (Points.ofString "requestedSchema", .obj
        [(Points.ofString "type", .str (Points.ofString "object"))])])]

/-- The user accepts for the session. -/
def sessionResponse : Fields :=
  [(Points.ofString "id", .int 1),
   (Points.ofString "result", .obj
     [(Points.ofString "action", .str (Points.ofString "accept")),
      (Points.ofString "content", .obj
        [(Points.ofString scopeField, .str (Points.ofString "session"))])])]

/-- The relay puts its field into a form and takes it out of the first response; the second reaches
the child with it. -/
theorem second_response_keeps_field :
    has (formOf sessionRequest) scopeField = false ∧
      (run (pass (sampleProjection true)) {}
        [.request sessionRequest, .response sessionResponse, .response sessionResponse]).passed.map
          (fun x => (has (formOf x.forwarded) scopeField, has (contentOf x.forwarded) scopeField)) =
        [(true, false), (false, false), (false, true)] := by
  decide +kernel

end GlassHive.McpFilter
