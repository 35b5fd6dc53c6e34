import GlassHive.NativeTeam
import GlassHive.RunActionCapabilities
import GlassHive.Library.JsonObjects
import GlassHive.Library.SortedTables

/-!
# Summaries of native teams

The projection of a team is stored as a summary, and the next event is applied to what is read back
from it. `from_summary` reads the values with the cleaning and the parsing that foreign events get,
so that the values themselves have to be clean. A time without an offset is read back as one in UTC.

`TeamCodec` stands for the `datetime` module and for `lower` on a text.
-/

namespace GlassHive.NativeSummaries

open Relational RunActions Transition
open Json (Fields)

/-- The text of a time, the time of a text, whether a time has an offset, the time in UTC in its
place, and the microseconds from a time to another one; the clock; a text in lower case. -/
structure TeamCodec (δ : Type) extends Interpreter where
  isoformat : δ → Points
  fromisoformat : Points → Option δ
  isAware : δ → Bool
  replaceUtc : δ → δ
  microseconds : δ → δ → ℤ
  utcNow : δ
  lower : Points → Points

/-- The text of a state. -/
def stateText (s : ChildState) : Points :=
  s.text.map Char.toNat

/-- What the `datetime` module does: a text of a time has neither blanks at its ends nor the letter
`Z`, it is read as a time with the same text and with an offset if the time has one, and the text of
a time without an offset is that of no time in UTC. The states are in lower case. -/
structure TeamCodec.Lawful {δ : Type} (codec : TeamCodec δ) : Prop where
  isoformat_ne_nil : ∀ d, codec.isoformat d ≠ []
  strip_isoformat : ∀ d, Points.strip (codec.isoformat d) = codec.isoformat d
  zulu : ∀ d, 90 ∉ codec.isoformat d
  reads : ∀ d, ∃ e, codec.fromisoformat (codec.isoformat d) = some e ∧
    codec.isoformat e = codec.isoformat d ∧ codec.isAware e = codec.isAware d
  replaced : ∀ d e, codec.isAware d = false → codec.isoformat (codec.replaceUtc e) ≠ codec.isoformat d
  lower_stateText : ∀ s, codec.lower (stateText s) = stateText s

/-! ## Clean texts -/

/-- `_clean_ref` on a text. -/
def cleanText (maxLength : ℕ) (value : Points) : Points :=
  let text := Points.strip value
  if text.isEmpty || maxLength < text.length || text.any (· < 32) then [] else text

theorem cleanText_cleanText (n : ℕ) (t : Points) : cleanText n (cleanText n t) = cleanText n t := by
  unfold cleanText
  dsimp only
  split
  · rfl
  · rename_i h
    rw [Points.strip_strip, if_neg h]

/-- A text that is clean within a length. -/
abbrev Cleaned (n : ℕ) :=
  { t : Points // cleanText n t = t }

/-- A reference to a child. -/
abbrev ChildRef :=
  { t : Cleaned 256 // t.1 ≠ [] }

variable {δ : Type} (codec : TeamCodec δ)

/-- `_clean_ref`. -/
def cleaned (n : ℕ) (value : Json) : Cleaned n :=
  ⟨cleanText n (textOrEmpty codec.toInterpreter value), cleanText_cleanText n _⟩

/-- The reference of a payload, unless it is empty. -/
def childRef? (payload : Fields) : Option ChildRef :=
  let ref := cleaned codec 256 (get payload "childRef")
  if h : ref.1 = [] then none else some ⟨ref, h⟩

/-! ## The projection -/

/-- `_Child`, under its reference. -/
structure Child (δ : Type) where
  role : Cleaned 128
  state : ChildState
  updatedAt : δ

/-- `NativeTeamProjection`. -/
structure TeamProjection (δ : Type) where
  provider : { t : Points // t ≠ [] }
  observable : Bool
  reconcileSeconds : ℕ
  sessionId : Cleaned 256
  children : Table ChildRef (Child δ)

def unknownProvider : { t : Points // t ≠ [] } :=
  ⟨Points.ofString "unknown", by decide⟩

/-- `str(provider or "unknown")` -/
def providerOf (provider : Points) : { t : Points // t ≠ [] } :=
  if h : provider = [] then unknownProvider else ⟨provider, h⟩

/-- `__init__`. -/
def init (provider : Points) (observable : Bool) (reconcileSeconds : ℤ) : TeamProjection δ where
  provider := providerOf provider
  observable := observable
  reconcileSeconds := (max 1 (min reconcileSeconds 600)).toNat
  sessionId := ⟨[], rfl⟩
  children := Table.empty

/-- The state of a payload. -/
def stateOf (payload : Fields) : ChildState :=
  let state := codec.lower (cleaned codec 64 (get payload "state")).1
  (ChildState.all.find? fun s => stateText s == state).getD .running

/-- `_upsert_child`. -/
def upsertChild (p : TeamProjection δ) (payload : Fields) (now : δ) : TeamProjection δ :=
  match childRef? codec payload with
  | none => p
  | some ref =>
    let role := cleaned codec 128 (get payload "role")
    let kept := if role.1 = [] then ((p.children.get? ref).map Child.role).getD role else role
    { p with children := p.children.put ref ⟨kept, stateOf codec payload, now⟩ }

/-- A payload in a list, if it is one. -/
def upsertItem (p : TeamProjection δ) (item : Json) (now : δ) : TeamProjection δ :=
  match item with
  | .obj payload => upsertChild codec p payload now
  | _ => p

/-- The reference of an item of a list. -/
def itemRef? : Json → Option ChildRef
  | .obj payload => childRef? codec payload
  | _ => none

/-- The branch of `apply` for a snapshot. -/
def applySnapshot (p : TeamProjection δ) (payload : Fields) (now : δ) : TeamProjection δ :=
  match get payload "children" with
  | .arr items =>
    let q := items.foldl (fun q item => upsertItem codec q item now) p
    if truthy codec.toInterpreter (get payload "replace") then
      { q with
        children := q.children.update
          (fun ref child => !(items.filterMap (itemRef? codec)).contains ref && child.state.isLive)
          fun _ child => { child with state := .completed, updatedAt := now } }
    else q
  | _ => p

/-- `apply`. -/
def apply (p : TeamProjection δ) (event : Fields) (now : δ) : TeamProjection δ :=
  if !p.observable then p
  else
    let type := (cleaned codec 256 (get event "event_type")).1
    match get event "payload" with
    | .obj payload =>
      if type = Points.ofString "provider.session.started" then
        { p with sessionId := cleaned codec 256 (get payload "sessionId") }
      else if type = Points.ofString "provider.child.snapshot" then
        applySnapshot codec p payload now
      else if (Points.ofString "provider.child.").isPrefixOf type then upsertChild codec p payload now
      else p
    | _ => p

/-- The order of references. -/
def refLe (a b : ChildRef) : Bool :=
  decide (a.1.1 ≤ b.1.1)

/-- The references of the live children, in order. -/
def active (p : TeamProjection δ) : List ChildRef :=
  ((p.children.select fun _ child => child.state.isLive).map Prod.fst).mergeSort refLe

/-- `SettlementDecision`. -/
structure Decision where
  state : SettlementState
  activeChildRefs : List ChildRef := []
  lostChildRefs : List ChildRef := []
  deriving DecidableEq

/-- `settlement`: the decision, and the projection that is left. -/
def settlement (p : TeamProjection δ) (rootExitedAt now : δ) : Decision × TeamProjection δ :=
  if !p.observable then (⟨.ready, [], []⟩, p)
  else if (active p).isEmpty then (⟨.ready, [], []⟩, p)
  else if codec.microseconds rootExitedAt now < p.reconcileSeconds * 1000000 then
    (⟨.settling, active p, []⟩, p)
  else
    (⟨.degraded, [], active p⟩,
      { p with
        children := p.children.update (fun ref _ => (active p).contains ref)
          fun _ child => { child with state := .unknown, updatedAt := now } })

/-! ## Summaries -/

/-- The object of a child. -/
def childJson (ref : ChildRef) (child : Child δ) : Json :=
  .obj [(Points.ofString "childRef", .str ref.1.1), (Points.ofString "role", .str child.role.1),
    (Points.ofString "state", .str (stateText child.state)),
    (Points.ofString "updatedAt", .str (codec.isoformat child.updatedAt))]

/-- `summary`, with null where there is none. -/
def summary (p : TeamProjection δ) : Json :=
  if !p.observable then .null
  else
    let children := p.children.sorted refLe
    .obj [(Points.ofString "observable", .bool true),
      (Points.ofString "provider", .str p.provider.1),
      (Points.ofString "sessionId", if p.sessionId.1 = [] then .null else .str p.sessionId.1),
      (Points.ofString "activeCount", .int (children.countP fun e => e.2.state.isLive)),
      (Points.ofString "children", .arr (children.map fun e => childJson codec e.1 e.2))]

/-- The time of a stored child. -/
def storedTime (child : Fields) : δ :=
  let raw := Points.strip (textOrEmpty codec.toInterpreter (get child "updatedAt"))
  let text := raw.flatMap fun c => if c = 90 then Points.ofString "+00:00" else [c]
  let time := (codec.fromisoformat text).getD codec.utcNow
  if codec.isAware time then time else codec.replaceUtc time

/-- A stored child, if it is one. -/
def restoreItem (p : TeamProjection δ) : Json → TeamProjection δ
  | .obj child => upsertChild codec p child (storedTime codec child)
  | _ => p

/-- `value is True` -/
def isTrue : Json → Bool
  | .bool b => b
  | _ => false

/-- `from_summary`. -/
def fromSummary (summary : Json) (reconcileSeconds : ℤ) : TeamProjection δ :=
  match summary with
  | .obj fields =>
    let provider := textOrEmpty codec.toInterpreter (get fields "provider")
    let p : TeamProjection δ :=
      { init (providerOf provider).1 (isTrue (get fields "observable")) (max 1 reconcileSeconds) with
        sessionId := cleaned codec 256 (get fields "sessionId") }
    match get fields "children" with
    | .arr children => children.foldl (restoreItem codec) p
    | _ => p
  | _ => init (Points.ofString "unknown") false (max 1 reconcileSeconds)

/-! ## Continuations -/

/-- What happens to a team. -/
inductive TeamOp (δ : Type)
  | apply (event : Fields) (now : δ)
  | settle (rootExitedAt now : δ)

/-- The time of an operation. -/
def TeamOp.now : TeamOp δ → δ
  | .apply _ now => now
  | .settle _ now => now

/-- The decision of an operation, if it is a settlement. -/
def decision? (p : TeamProjection δ) : TeamOp δ → Option Decision
  | .apply _ _ => none
  | .settle rootExitedAt now => some (settlement codec p rootExitedAt now).1

/-- The projection that an operation leaves. -/
def step (p : TeamProjection δ) : TeamOp δ → TeamProjection δ
  | .apply event now => apply codec p event now
  | .settle rootExitedAt now => (settlement codec p rootExitedAt now).2

/-- What is seen of a projection from now on: its summary, and after every operation the decision
and the summary. -/
def observations (p : TeamProjection δ) : List (TeamOp δ) → List (Option Decision × Json)
  | [] => [(none, summary codec p)]
  | op :: ops => (decision? codec p op, summary codec p) :: observations (step codec p op) ops

/-- Nothing tells a projection from the one that is read back from its summary. -/
def Transparent (reconcileSeconds : ℤ) (p : TeamProjection δ) : Prop :=
  ∀ ops, observations codec (fromSummary codec (summary codec p) reconcileSeconds) ops =
    observations codec p ops

/-! ## Projections that look alike -/

/-- What a summary shows of a child. -/
def Child.view (child : Child δ) : Cleaned 128 × ChildState × Points :=
  (child.role, child.state, codec.isoformat child.updatedAt)

/-- What a summary shows of the children, in the order of their references. -/
def views (p : TeamProjection δ) : List (ChildRef × Cleaned 128 × ChildState × Points) :=
  (p.children.sorted refLe).map fun e => (e.1, e.2.view codec)

/-- The same team with the same children, up to what is not shown of their times. -/
structure Alike (p q : TeamProjection δ) : Prop where
  provider : q.provider = p.provider
  observable : q.observable = p.observable
  reconcileSeconds : q.reconcileSeconds = p.reconcileSeconds
  sessionId : q.sessionId = p.sessionId
  children : p.children.Agrees (Child.view codec) q.children

section Order

theorem refLe_trans (a b c : ChildRef) (hab : refLe a b = true) (hbc : refLe b c = true) :
    refLe a c = true := by
  simp only [refLe, decide_eq_true_eq] at hab hbc ⊢
  exact hab.trans hbc

theorem refLe_total (a b : ChildRef) : (refLe a b || refLe b a) = true := by
  simp only [refLe, Bool.or_eq_true, decide_eq_true_eq]
  exact le_total a.1.1 b.1.1

theorem refLe_antisymm (a b : ChildRef) (hab : refLe a b = true) (hba : refLe b a = true) :
    a = b := by
  simp only [refLe, decide_eq_true_eq] at hab hba
  exact Subtype.ext (Subtype.ext (le_antisymm hab hba))

end Order

section Alike

variable {codec} {p q : TeamProjection δ}

theorem Alike.view_eq (h : Alike codec p q) {ref : ChildRef} {child : Child δ}
    (hchild : p.children.get? ref = some child) :
    ∃ other, q.children.get? ref = some other ∧ other.view codec = child.view codec := by
  have hview := h.children ref
  rw [hchild, Option.map_some] at hview
  exact Option.map_eq_some_iff.mp hview

theorem Alike.symm (h : Alike codec p q) : Alike codec q p :=
  ⟨h.provider.symm, h.observable.symm, h.reconcileSeconds.symm, h.sessionId.symm,
    fun ref => (h.children ref).symm⟩

/-- A child is live on both sides. -/
theorem Alike.live_iff (h : Alike codec p q) (ref : ChildRef) :
    (∃ child, p.children.get? ref = some child ∧ child.state.isLive = true) ↔
      ∃ child, q.children.get? ref = some child ∧ child.state.isLive = true := by
  have hside : ∀ {p q : TeamProjection δ}, Alike codec p q →
      (∃ child, p.children.get? ref = some child ∧ child.state.isLive = true) →
        ∃ child, q.children.get? ref = some child ∧ child.state.isLive = true := by
    rintro p q h ⟨child, hchild, hlive⟩
    obtain ⟨other, hother, hview⟩ := h.view_eq hchild
    have hstate : other.state = child.state := congrArg (fun v => v.2.1) hview
    exact ⟨other, hother, hstate ▸ hlive⟩
  exact ⟨hside h, hside h.symm⟩

theorem Alike.active_eq (h : Alike codec p q) : active q = active p :=
  mergeSort_eq_of_perm refLe_trans refLe_total (fun a _ b _ => refLe_antisymm a b)
    (Table.perm_keys_select fun ref => (h.live_iff ref).symm)

theorem Alike.views_eq (h : Alike codec p q) : views codec q = views codec p :=
  Table.sorted_view refLe_trans refLe_total refLe_antisymm h.children

/-- What a summary says of a child. -/
def viewJson (e : ChildRef × Cleaned 128 × ChildState × Points) : Json :=
  .obj [(Points.ofString "childRef", .str e.1.1.1), (Points.ofString "role", .str e.2.1.1),
    (Points.ofString "state", .str (stateText e.2.2.1)),
    (Points.ofString "updatedAt", .str e.2.2.2)]

/-- The summary of an observable team, from what it shows of the children. -/
theorem summary_eq (h : p.observable = true) :
    summary codec p = .obj [(Points.ofString "observable", .bool true),
      (Points.ofString "provider", .str p.provider.1),
      (Points.ofString "sessionId", if p.sessionId.1 = [] then .null else .str p.sessionId.1),
      (Points.ofString "activeCount",
        .int ((views codec p).countP fun e => e.2.2.1.isLive)),
      (Points.ofString "children", .arr ((views codec p).map viewJson))] := by
  simp only [summary, h, views, List.countP_map, List.map_map]
  rfl

theorem Alike.summary_eq (h : Alike codec p q) : summary codec q = summary codec p := by
  cases hp : p.observable with
  | false => simp [summary, hp, h.observable]
  | true =>
    rw [NativeSummaries.summary_eq hp, NativeSummaries.summary_eq (h.observable.trans hp),
      h.views_eq, h.provider, h.sessionId]

theorem Alike.upsertChild (h : Alike codec p q) (payload : Fields) (now : δ) :
    Alike codec (upsertChild codec p payload now) (upsertChild codec q payload now) := by
  unfold NativeSummaries.upsertChild
  cases childRef? codec payload with
  | none => exact h
  | some ref =>
    have hroles : (q.children.get? ref).map Child.role = (p.children.get? ref).map Child.role := by
      have hview := congrArg (Option.map Prod.fst) (h.children ref)
      rw [Option.map_map, Option.map_map] at hview
      exact hview
    refine { h with children := h.children.put ref ?_ }
    rw [hroles]

theorem Alike.upsertItem (h : Alike codec p q) (item : Json) (now : δ) :
    Alike codec (upsertItem codec p item now) (upsertItem codec q item now) := by
  cases item <;> first | exact h | exact h.upsertChild _ now

theorem Alike.applySnapshot (h : Alike codec p q) (payload : Fields) (now : δ) :
    Alike codec (applySnapshot codec p payload now) (applySnapshot codec q payload now) := by
  unfold NativeSummaries.applySnapshot
  split
  · rename_i items _
    have hfold : ∀ (items : List Json) {p q : TeamProjection δ}, Alike codec p q →
        Alike codec (items.foldl (fun q item => NativeSummaries.upsertItem codec q item now) p)
          (items.foldl (fun q item => NativeSummaries.upsertItem codec q item now) q) := by
      intro items
      induction items with
      | nil => exact fun h => h
      | cons item items ih => exact fun h => ih (h.upsertItem item now)
    have hitems := hfold items h
    dsimp only
    split
    · refine { hitems with children := hitems.children.update ?_ ?_ }
      · intro ref child other hview
        have hstate : other.state = child.state := congrArg (fun v => v.2.1) hview
        rw [hstate]
      · intro _ child other hview
        have hrole : other.role = child.role := congrArg Prod.fst hview
        simp only [Child.view, hrole]
    · exact hitems
  · exact h

theorem Alike.apply (h : Alike codec p q) (event : Fields) (now : δ) :
    Alike codec (apply codec p event now) (apply codec q event now) := by
  unfold NativeSummaries.apply
  by_cases hp : (!p.observable) = true
  · rw [if_pos hp, if_pos (h.observable ▸ hp)]
    exact h
  rw [if_neg hp, if_neg (h.observable ▸ hp)]
  dsimp only
  split
  · split
    · exact { h with sessionId := rfl }
    split
    · exact h.applySnapshot _ now
    split
    · exact h.upsertChild _ now
    · exact h
  · exact h

/-- The decisions are the same, and what they leave is alike. -/
theorem Alike.settlement (h : Alike codec p q) (rootExitedAt now : δ) :
    (settlement codec q rootExitedAt now).1 = (settlement codec p rootExitedAt now).1 ∧
      Alike codec (settlement codec p rootExitedAt now).2
        (settlement codec q rootExitedAt now).2 := by
  unfold NativeSummaries.settlement
  rw [h.active_eq]
  by_cases hp : (!p.observable) = true
  · rw [if_pos hp, if_pos (h.observable ▸ hp)]
    exact ⟨rfl, h⟩
  rw [if_neg hp, if_neg (h.observable ▸ hp)]
  split
  · exact ⟨rfl, h⟩
  by_cases hage : codec.microseconds rootExitedAt now < p.reconcileSeconds * 1000000
  · rw [if_pos hage, if_pos (h.reconcileSeconds ▸ hage)]
    exact ⟨rfl, h⟩
  · rw [if_neg hage, if_neg (h.reconcileSeconds ▸ hage)]
    refine ⟨rfl, { h with children := h.children.update (fun _ _ _ _ => rfl) ?_ }⟩
    intro _ child other hview
    have hrole : other.role = child.role := congrArg Prod.fst hview
    simp only [Child.view, hrole]

theorem Alike.step (h : Alike codec p q) (op : TeamOp δ) :
    decision? codec q op = decision? codec p op ∧ Alike codec (step codec p op) (step codec q op) := by
  cases op with
  | apply event now => exact ⟨rfl, h.apply event now⟩
  | settle rootExitedAt now =>
    obtain ⟨hdecision, hleft⟩ := h.settlement rootExitedAt now
    exact ⟨congrArg some hdecision, hleft⟩

/-- Nothing tells projections apart that look alike. -/
theorem Alike.observations_eq (h : Alike codec p q) (ops : List (TeamOp δ)) :
    observations codec q ops = observations codec p ops := by
  induction ops generalizing p q with
  | nil => simp only [observations, h.summary_eq]
  | cons op ops ih =>
    obtain ⟨hdecision, hstep⟩ := h.step op
    rw [observations, observations, hdecision, h.summary_eq, ih hstep]

end Alike

/-! ## What is read back -/

section Restoring

variable {codec} {p : TeamProjection δ}

/-- A time that is stored and read back. -/
def readBack (codec : TeamCodec δ) (d : δ) : δ :=
  let time := (codec.fromisoformat (codec.isoformat d)).getD codec.utcNow
  if codec.isAware time then time else codec.replaceUtc time

/-- A child that is stored and read back. -/
def Child.readBack (codec : TeamCodec δ) (child : Child δ) : Child δ :=
  { child with updatedAt := NativeSummaries.readBack codec child.updatedAt }

/-- A time is read back as it was stored when it has an offset. -/
theorem isoformat_readBack (hlaw : codec.Lawful) (d : δ) :
    codec.isoformat (readBack codec d) = codec.isoformat d ↔ codec.isAware d = true := by
  obtain ⟨e, hread, htext, haware⟩ := hlaw.reads d
  rw [readBack, hread, Option.getD_some, haware]
  cases hd : codec.isAware d with
  | true => simpa using htext
  | false => simpa using hlaw.replaced d e hd

theorem view_readBack (hlaw : codec.Lawful) (child : Child δ) :
    (child.readBack codec).view codec = child.view codec ↔
      codec.isAware child.updatedAt = true := by
  rw [← isoformat_readBack hlaw]
  simp only [Child.view, Child.readBack, Prod.mk.injEq, true_and]

/-- The fields of a child. -/
def storedFields (codec : TeamCodec δ) (e : ChildRef × Child δ) : Fields :=
  [(Points.ofString "childRef", .str e.1.1.1), (Points.ofString "role", .str e.2.role.1),
    (Points.ofString "state", .str (stateText e.2.state)),
    (Points.ofString "updatedAt", .str (codec.isoformat e.2.updatedAt))]

theorem cleaned_str (n : ℕ) (t : Cleaned n) : cleaned codec n (.str t.1) = t := by
  refine Subtype.ext ?_
  simp only [cleaned, textOrEmpty_str, t.2]

theorem childRef?_storedFields (e : ChildRef × Child δ) :
    childRef? codec (storedFields codec e) = some e.1 := by
  have hget : get (storedFields codec e) "childRef" = .str e.1.1.1 := rfl
  simp only [childRef?, hget, cleaned_str, dif_neg e.1.2]

theorem stateOf_storedFields (hlaw : codec.Lawful) (e : ChildRef × Child δ) :
    stateOf codec (storedFields codec e) = e.2.state := by
  have hget : get (storedFields codec e) "state" = .str (stateText e.2.state) := rfl
  have hclean : ∀ state : ChildState, cleanText 64 (stateText state) = stateText state := by
    intro state
    cases state <;> decide
  have hfind : ∀ state : ChildState,
      (ChildState.all.find? fun s => stateText s == stateText state) = some state := by
    intro state
    cases state <;> decide
  simp only [stateOf, cleaned, hget, textOrEmpty_str, hclean, hlaw.lower_stateText, hfind,
    Option.getD_some]

theorem storedTime_storedFields (hlaw : codec.Lawful) (e : ChildRef × Child δ) :
    storedTime codec (storedFields codec e) = readBack codec e.2.updatedAt := by
  have hget : get (storedFields codec e) "updatedAt" = .str (codec.isoformat e.2.updatedAt) := rfl
  have hzulu : ((codec.isoformat e.2.updatedAt).flatMap fun c =>
      if c = 90 then Points.ofString "+00:00" else [c]) = codec.isoformat e.2.updatedAt := by
    have hnone := hlaw.zulu e.2.updatedAt
    generalize codec.isoformat e.2.updatedAt = t at hnone
    induction t with
    | nil => rfl
    | cons c t ih =>
      rw [List.mem_cons, not_or] at hnone
      rw [List.flatMap_cons, if_neg (Ne.symm hnone.1), ih hnone.2]
      rfl
  simp only [storedTime, hget, textOrEmpty_str, hlaw.strip_isoformat, hzulu, readBack]

/-- A stored child that is not there yet is read back. -/
theorem restoreItem_storedFields (hlaw : codec.Lawful) (e : ChildRef × Child δ)
    (hnew : p.children.get? e.1 = none) :
    restoreItem codec p (.obj (storedFields codec e)) =
      { p with children := p.children.put e.1 (e.2.readBack codec) } := by
  have hget : get (storedFields codec e) "role" = .str e.2.role.1 := rfl
  simp only [restoreItem, upsertChild, childRef?_storedFields, hget, cleaned_str, hnew,
    Option.map_none, Option.getD_none, ite_self, stateOf_storedFields hlaw,
    storedTime_storedFields hlaw, Child.readBack]

/-- Stored children are read back under their references. -/
theorem foldl_restoreItem (hlaw : codec.Lawful) {es : List (ChildRef × Child δ)}
    (hnodup : (es.map Prod.fst).Nodup) (hnew : ∀ e ∈ es, p.children.get? e.1 = none) :
    ∃ t, (es.map fun e => Json.obj (storedFields codec e)).foldl (restoreItem codec) p =
        { p with children := t } ∧
      (∀ e ∈ es, t.get? e.1 = some (e.2.readBack codec)) ∧
      ∀ ref ∉ es.map Prod.fst, t.get? ref = p.children.get? ref := by
  induction es generalizing p with
  | nil => exact ⟨p.children, rfl, by simp, fun _ _ => rfl⟩
  | cons e es ih =>
    rw [List.map_cons, List.nodup_cons] at hnodup
    rw [List.forall_mem_cons] at hnew
    rw [List.map_cons, List.foldl_cons, restoreItem_storedFields hlaw e hnew.1]
    obtain ⟨t, hfold, hmem, hrest⟩ := ih hnodup.2
      (p := { p with children := p.children.put e.1 (e.2.readBack codec) }) (by
        intro e' he'
        have hne : e'.1 ≠ e.1 := fun heq => hnodup.1 (heq ▸ List.mem_map_of_mem he')
        rw [Table.get?_put, if_neg hne]
        exact hnew.2 e' he')
    refine ⟨t, hfold, ?_, fun ref href => ?_⟩
    · rw [List.forall_mem_cons]
      refine ⟨?_, hmem⟩
      rw [hrest e.1 hnodup.1, Table.get?_put, if_pos rfl]
    · rw [List.map_cons, List.mem_cons, not_or] at href
      rw [hrest ref href.2, Table.get?_put, if_neg href.1]

/-- What is read back of the summary of an observable team: every child with the time that is read
back. -/
theorem fromSummary_summary (hlaw : codec.Lawful) (hobservable : p.observable = true)
    (reconcileSeconds : ℤ) :
    ∃ t, fromSummary codec (summary codec p) reconcileSeconds =
        { p with
          reconcileSeconds := (max 1 (min reconcileSeconds 600)).toNat
          children := t } ∧
      ∀ ref, t.get? ref = (p.children.get? ref).map (Child.readBack codec) := by
  obtain ⟨t, hfold, hmem, hrest⟩ := foldl_restoreItem hlaw (p.children.nodup_sorted refLe)
    (p := { p with
      reconcileSeconds := (max 1 (min reconcileSeconds 600)).toNat, children := Table.empty })
    fun _ _ => rfl
  refine ⟨t, ?_, fun ref => ?_⟩
  · have hclamp : max 1 (min (max 1 reconcileSeconds) 600) = max 1 (min reconcileSeconds 600) := by
      omega
    have hprovider : (providerOf (providerOf p.provider.1).1) = p.provider := by
      simp only [providerOf, dif_neg p.provider.2]
    have hsession : cleaned codec 256 (if p.sessionId.1 = [] then .null else .str p.sessionId.1) =
        p.sessionId := by
      split
      · rename_i hempty
        exact Subtype.ext (Eq.trans rfl hempty.symm)
      · exact cleaned_str 256 p.sessionId
    rw [← hfold]
    simp only [summary, hobservable, fromSummary]
    change List.foldl (restoreItem codec)
      { provider := providerOf (providerOf (textOrEmpty codec.toInterpreter (.str p.provider.1))).1
        observable := true
        reconcileSeconds := (max 1 (min (max 1 reconcileSeconds) 600)).toNat
        sessionId :=
          cleaned codec 256 (if p.sessionId.1 = [] then .null else .str p.sessionId.1)
        children := Table.empty } _ = _
    rw [textOrEmpty_str, hprovider, hclamp, hsession]
    rfl
  · cases hchild : p.children.get? ref with
    | none =>
      rw [hrest ref, Option.map_none]
      · rfl
      · rintro href
        obtain ⟨e, he, rfl⟩ := List.mem_map.mp href
        rw [Table.get?_of_mem (Table.mem_sorted.mp he)] at hchild
        cases hchild
    | some child => exact hmem (ref, child) (Table.mem_sorted.mpr (Table.mem_of_get? hchild))

/-- A team looks like what is read back of its summary exactly when the times of its children all
have offsets. -/
theorem alike_fromSummary_iff (hlaw : codec.Lawful) (hobservable : p.observable = true)
    {reconcileSeconds : ℤ}
    (hreconcile : p.reconcileSeconds = (max 1 (min reconcileSeconds 600)).toNat) :
    Alike codec p (fromSummary codec (summary codec p) reconcileSeconds) ↔
      ∀ ref child, p.children.get? ref = some child → codec.isAware child.updatedAt = true := by
  obtain ⟨t, heq, ht⟩ := fromSummary_summary hlaw hobservable reconcileSeconds
  have hviews : Alike codec p (fromSummary codec (summary codec p) reconcileSeconds) ↔
      p.children.Agrees (Child.view codec) t := by
    rw [heq]
    exact ⟨fun h => h.children, fun h => ⟨rfl, rfl, hreconcile.symm, rfl, h⟩⟩
  rw [hviews]
  constructor
  · intro h ref child hchild
    have hview := h ref
    rw [ht, hchild] at hview
    exact (view_readBack hlaw child).mp (Option.some.inj hview)
  · intro h ref
    rw [ht]
    cases hchild : p.children.get? ref with
    | none => rfl
    | some child => exact congrArg some ((view_readBack hlaw child).mpr (h ref child hchild))

/-- What a summary shows determines it. -/
theorem views_eq_of_summary_eq {q : TeamProjection δ} (hp : p.observable = true)
    (hq : q.observable = true) (h : summary codec q = summary codec p) :
    views codec q = views codec p := by
  rw [summary_eq hp, summary_eq hq] at h
  have htext : Function.Injective stateText := by
    intro a b hab
    cases a <;> cases b <;> first | rfl | exact absurd hab (by decide)
  have hinjective : Function.Injective viewJson := by
    rintro ⟨ref, role, state, time⟩ ⟨ref', role', state', time'⟩ heq
    simp only [viewJson, Json.obj.injEq, List.cons.injEq, Prod.mk.injEq, true_and, and_true,
      Json.str.injEq] at heq
    obtain ⟨href, hrole, hstate, htime⟩ := heq
    rw [Subtype.ext (Subtype.ext href), Subtype.ext hrole, htext hstate, htime]
  simp only [Json.obj.injEq, List.cons.injEq, Prod.mk.injEq, true_and, and_true,
    Json.arr.injEq] at h
  exact hinjective.list_map h.2.2.2

/-- The times of the children all have offsets. -/
def Dated (codec : TeamCodec δ) (p : TeamProjection δ) : Prop :=
  p.observable = true → ∀ ref child, p.children.get? ref = some child →
    codec.isAware child.updatedAt = true

theorem step_of_unobservable (h : p.observable = false) (op : TeamOp δ) : step codec p op = p := by
  cases op <;> simp [step, apply, settlement, h]

/-- Teams that are not observed all look the same. -/
theorem observations_of_unobservable {q : TeamProjection δ} (hp : p.observable = false)
    (hq : q.observable = false) (ops : List (TeamOp δ)) :
    observations codec q ops = observations codec p ops := by
  have hsummary : summary codec q = summary codec p := by simp [summary, hp, hq]
  induction ops with
  | nil => simp only [observations, hsummary]
  | cons op ops ih =>
    have hdecision : decision? codec q op = decision? codec p op := by
      cases op <;> simp [decision?, settlement, hp, hq]
    rw [observations, observations, step_of_unobservable hp, step_of_unobservable hq, hsummary,
      hdecision, ih]

theorem transparent_iff (hlaw : codec.Lawful) {reconcileSeconds : ℤ}
    (hreconcile : p.reconcileSeconds = (max 1 (min reconcileSeconds 600)).toNat) :
    Transparent codec reconcileSeconds p ↔ Dated codec p := by
  cases hobservable : p.observable with
  | false =>
    refine iff_of_true (fun ops => observations_of_unobservable hobservable ?_ ops) ?_
    · simp [summary, hobservable, fromSummary, init]
    · intro h
      cases hobservable.symm.trans h
  | true =>
    have hiff := alike_fromSummary_iff hlaw hobservable hreconcile
    constructor
    · intro h _
      refine hiff.mp ?_
      obtain ⟨t, heq, -⟩ := fromSummary_summary hlaw hobservable reconcileSeconds
      have hsummary := congrArg (List.map Prod.snd) (h [])
      simp only [observations, List.map_cons, List.map_nil, List.cons.injEq, and_true] at hsummary
      have hviews := views_eq_of_summary_eq hobservable (by rw [heq]; exact hobservable) hsummary
      rw [heq] at hviews ⊢
      refine ⟨rfl, rfl, hreconcile.symm, rfl, fun ref => Option.ext fun view => ?_⟩
      rw [← Table.mem_sorted_view refLe, ← Table.mem_sorted_view refLe]
      exact iff_of_eq (congrArg ((ref, view) ∈ ·) hviews)
    · intro h ops
      exact (hiff.mpr (h hobservable)).observations_eq ops

end Restoring

/-! ## The times that are set -/

section Stamps

/-- The children of a snapshot, and those that it replaces. -/
def snapshotRefs (p : TeamProjection δ) (payload : Fields) : List ChildRef :=
  match get payload "children" with
  | .arr items =>
    let refs := items.filterMap (itemRef? codec)
    if truthy codec.toInterpreter (get payload "replace") then
      refs ++ (active p).filter fun ref => !refs.contains ref
    else refs
  | _ => []

/-- The children whose times an event sets. -/
def eventRefs (p : TeamProjection δ) (event : Fields) : List ChildRef :=
  let type := (cleaned codec 256 (get event "event_type")).1
  match get event "payload" with
  | .obj payload =>
    if type = Points.ofString "provider.session.started" then []
    else if type = Points.ofString "provider.child.snapshot" then snapshotRefs codec p payload
    else if (Points.ofString "provider.child.").isPrefixOf type then
      (childRef? codec payload).toList
    else []
  | _ => []

/-- The children whose times an operation sets. -/
def stamped (p : TeamProjection δ) : TeamOp δ → List ChildRef
  | .apply event _ => if !p.observable then [] else eventRefs codec p event
  | .settle rootExitedAt now =>
    if !p.observable then []
    else if codec.microseconds rootExitedAt now < p.reconcileSeconds * 1000000 then []
    else active p

/-- The children with these references have this time, and the others are as they were. -/
def Stamps (p q : TeamProjection δ) (refs : List ChildRef) (now : δ) : Prop :=
  ∀ ref, if ref ∈ refs then ∃ child, q.children.get? ref = some child ∧ child.updatedAt = now
    else q.children.get? ref = p.children.get? ref

variable {codec} {p : TeamProjection δ} {now : δ}

theorem mem_active {ref : ChildRef} : ref ∈ active p ↔
    ∃ child, p.children.get? ref = some child ∧ child.state.isLive = true := by
  rw [active, (List.mergeSort_perm _ _).mem_iff, List.mem_map]
  constructor
  · rintro ⟨⟨_, child⟩, hchild, rfl⟩
    exact ⟨child, Table.mem_select.mp hchild⟩
  · rintro ⟨child, hchild⟩
    exact ⟨(ref, child), Table.mem_select.mpr hchild, rfl⟩

theorem stamps_nil : Stamps p p [] now := by
  intro ref
  simp

theorem stamps_upsertChild (payload : Fields) :
    Stamps p (upsertChild codec p payload now) (childRef? codec payload).toList now := by
  intro ref
  unfold upsertChild
  cases childRef? codec payload with
  | none => simp
  | some =>
    simp only [Option.toList_some, List.mem_singleton, Table.get?_put]
    split
    · exact ⟨_, rfl, rfl⟩
    · rfl

theorem stamps_items (codec : TeamCodec δ) (p : TeamProjection δ) (now : δ)
    (items : List Json) :
    Stamps p (items.foldl (fun q item => upsertItem codec q item now) p)
      (items.filterMap (itemRef? codec)) now := by
  induction items generalizing p with
  | nil => exact stamps_nil
  | cons item items ih =>
    have hitem : Stamps p (upsertItem codec p item now) (itemRef? codec item).toList now := by
      cases item <;> first | exact stamps_nil | exact stamps_upsertChild _
    intro ref
    have href := hitem ref
    have hrest := ih (p := upsertItem codec p item now) ref
    rw [List.foldl_cons, List.filterMap_cons]
    cases hkey : itemRef? codec item <;>
      simp only [hkey, Option.toList_none, Option.toList_some, List.not_mem_nil, if_false, or_false,
        List.mem_cons] at href ⊢
    · rwa [href] at hrest
    · split at hrest
      · rename_i hmem
        rw [if_pos (Or.inr hmem)]
        exact hrest
      · rename_i hmem
        rw [hrest]
        simp only [hmem, or_false]
        exact href

theorem stamps_applySnapshot (payload : Fields) :
    Stamps p (applySnapshot codec p payload now) (snapshotRefs codec p payload) now := by
  unfold applySnapshot snapshotRefs
  split
  · rename_i items _
    have hitems := stamps_items codec p now items
    dsimp only
    split
    · intro ref
      have href := hitems ref
      simp only [List.mem_append, List.mem_filter, Bool.not_eq_true', List.contains_eq_mem,
        decide_eq_false_iff_not, Table.get?_update]
      by_cases hmem : ref ∈ items.filterMap (itemRef? codec)
      · rw [if_pos hmem] at href
        obtain ⟨child, hchild, htime⟩ := href
        rw [if_pos (Or.inl hmem), hchild]
        exact ⟨child, by simp [hmem], htime⟩
      · rw [if_neg hmem] at href
        rw [href]
        split
        · rename_i hlive
          obtain ⟨child, hchild, hlive⟩ := mem_active.mp (hlive.resolve_left hmem).1
          rw [hchild]
          exact ⟨_, by simp only [Option.map_some, hmem, hlive, decide_false, Bool.not_false,
            Bool.and_self, if_true]; rfl, rfl⟩
        · rename_i hidle
          cases hchild : p.children.get? ref with
          | none => rfl
          | some child =>
            have hstate : child.state.isLive = false := by
              cases hlive : child.state.isLive with
              | false => rfl
              | true => exact absurd (Or.inr ⟨mem_active.mpr ⟨child, hchild, hlive⟩, hmem⟩) hidle
            simp [hstate]
    · exact hitems
  · exact stamps_nil

theorem stamps_step (codec : TeamCodec δ) (p : TeamProjection δ) (op : TeamOp δ) :
    Stamps p (step codec p op) (stamped codec p op) op.now := by
  cases op with
  | apply event now =>
    simp only [step, apply, stamped, eventRefs, TeamOp.now]
    split
    · exact stamps_nil
    split
    · split
      · exact fun _ => by simp
      split
      · exact stamps_applySnapshot _
      split
      · exact stamps_upsertChild _
      · exact stamps_nil
    · exact stamps_nil
  | settle rootExitedAt now =>
    simp only [step, settlement, stamped, TeamOp.now]
    by_cases hobservable : (!p.observable) = true
    · rw [if_pos hobservable, if_pos hobservable]
      exact stamps_nil
    rw [if_neg hobservable, if_neg hobservable]
    split
    · rename_i hnone
      rw [List.isEmpty_iff.mp hnone, ite_self]
      exact stamps_nil
    split
    · exact stamps_nil
    · intro ref
      simp only [Table.get?_update, List.contains_eq_mem, decide_eq_true_eq]
      split
      · rename_i hmem
        obtain ⟨child, hchild, -⟩ := mem_active.mp hmem
        rw [hchild]
        exact ⟨_, rfl, rfl⟩
      · cases p.children.get? ref <;> rfl

/-- An operation leaves alone whether the team is observed and for how long it is waited for. -/
theorem settings_step (p : TeamProjection δ) (op : TeamOp δ) :
    (step codec p op).observable = p.observable ∧
      (step codec p op).reconcileSeconds = p.reconcileSeconds := by
  have hchild : ∀ (p : TeamProjection δ) payload now,
      (upsertChild codec p payload now).observable = p.observable ∧
        (upsertChild codec p payload now).reconcileSeconds = p.reconcileSeconds := by
    intro p payload now
    unfold upsertChild
    split <;> exact ⟨rfl, rfl⟩
  have hitems : ∀ (items : List Json) (p : TeamProjection δ) now,
      (items.foldl (fun q item => upsertItem codec q item now) p).observable = p.observable ∧
        (items.foldl (fun q item => upsertItem codec q item now) p).reconcileSeconds =
          p.reconcileSeconds := by
    intro items
    induction items with
    | nil => exact fun _ _ => ⟨rfl, rfl⟩
    | cons item items ih =>
      intro p now
      have hitem : (upsertItem codec p item now).observable = p.observable ∧
          (upsertItem codec p item now).reconcileSeconds = p.reconcileSeconds := by
        cases item <;> first | exact ⟨rfl, rfl⟩ | exact hchild p _ now
      obtain ⟨hobservable, hreconcile⟩ := ih (upsertItem codec p item now) now
      exact ⟨hobservable.trans hitem.1, hreconcile.trans hitem.2⟩
  cases op with
  | apply event now =>
    simp only [step, apply]
    split
    · exact ⟨rfl, rfl⟩
    split
    · split
      · exact ⟨rfl, rfl⟩
      split
      · unfold applySnapshot
        split
        · dsimp only
          split <;> exact hitems _ p now
        · exact ⟨rfl, rfl⟩
      split
      · exact hchild p _ now
      · exact ⟨rfl, rfl⟩
    · exact ⟨rfl, rfl⟩
  | settle =>
    simp only [step, settlement]
    repeat' split
    all_goals exact ⟨rfl, rfl⟩

/-- The times of the children all have offsets after an operation that sets none to a time without
one. -/
theorem dated_step_iff (hp : Dated codec p) (op : TeamOp δ) :
    Dated codec (step codec p op) ↔ (stamped codec p op ≠ [] → codec.isAware op.now = true) := by
  have hstamps := stamps_step codec p op
  constructor
  · intro h hsome
    obtain ⟨ref, href⟩ := List.exists_mem_of_ne_nil _ hsome
    have hobservable : p.observable = true := by
      cases hobservable : p.observable with
      | true => rfl
      | false => cases op <;> simp [stamped, hobservable] at href
    have hchild := hstamps ref
    rw [if_pos href] at hchild
    obtain ⟨child, hchild, htime⟩ := hchild
    rw [← htime]
    exact h ((settings_step p op).1.trans hobservable) ref child hchild
  · intro h hobservable ref child hchild
    have href := hstamps ref
    split at href
    · rename_i hmem
      obtain ⟨child', hchild', htime⟩ := href
      obtain rfl := Option.some.inj (hchild'.symm.trans hchild)
      rw [htime]
      exact h (List.ne_nil_of_mem hmem)
    · rw [href] at hchild
      exact hp ((settings_step p op).1.symm.trans hobservable) ref child hchild

end Stamps

/-- **Summaries can be continued from at every point exactly as long as no operation gives a child a
time without an offset.** Such a time is stored without one and read back as one in UTC, which the
next summary shows. -/
theorem transparent_iff_along {codec : TeamCodec δ} (hlaw : codec.Lawful) (provider : Points)
    (observable : Bool) (reconcileSeconds : ℤ) (ops : List (TeamOp δ)) :
    (∀ pre, pre <+: ops → Transparent codec reconcileSeconds
      (run (step codec) (init provider observable reconcileSeconds) pre)) ↔
      Along (step codec) (fun p op => stamped codec p op ≠ [] → codec.isAware op.now = true)
        (init provider observable reconcileSeconds) ops := by
  refine forall_prefix_iff_along
    (I := fun p => p.reconcileSeconds = (max 1 (min reconcileSeconds 600)).toNat)
    (fun p op hp => (settings_step p op).2.trans hp) (fun p op hp htransparent => ?_) rfl ?_
  · rw [transparent_iff hlaw ((settings_step p op).2.trans hp)]
    exact dated_step_iff ((transparent_iff hlaw hp).mp htransparent) op
  · refine (transparent_iff hlaw rfl).mpr fun _ ref child hchild => ?_
    cases hchild

/-! ## A time without an offset -/

/-- A time with an offset, and the same without. -/
def noonCodec : TeamCodec Bool where
  toInterpreter := cpython
  isoformat aware :=
    Points.ofString (if aware then "2026-03-01T12:00:00+00:00" else "2026-03-01T12:00:00")
  fromisoformat t :=
    if t = Points.ofString "2026-03-01T12:00:00+00:00" then some true
    else if t = Points.ofString "2026-03-01T12:00:00" then some false
    else none
  isAware aware := aware
  replaceUtc _ := true
  microseconds _ _ := 0
  utcNow := true
  lower t := t.map fun c => if 65 ≤ c ∧ c ≤ 90 then c + 32 else c

theorem noonCodec_lawful : noonCodec.Lawful where
  isoformat_ne_nil aware := by cases aware <;> decide
  strip_isoformat aware := by cases aware <;> decide
  zulu aware := by cases aware <;> decide
  reads aware := ⟨aware, by cases aware <;> decide, rfl, rfl⟩
  replaced aware _ h := by
    obtain rfl : aware = false := h
    change noonCodec.isoformat true ≠ noonCodec.isoformat false
    decide
  lower_stateText state := by cases state <;> decide

/-- A child starts. -/
def startedEvent : Fields :=
  [(Points.ofString "event_type", .str (Points.ofString "provider.child.started")),
    (Points.ofString "payload", .obj [(Points.ofString "childRef", .str (Points.ofString "a"))])]

theorem transparent_iff_along_noon :
    (∀ pre, pre <+: [TeamOp.apply startedEvent true, .settle true true] →
      Transparent noonCodec 120
        (run (step noonCodec) (init (Points.ofString "codex") true 120) pre)) ↔
      Along (step noonCodec)
        (fun p op => stamped noonCodec p op ≠ [] → noonCodec.isAware op.now = true)
        (init (Points.ofString "codex") true 120)
        [TeamOp.apply startedEvent true, .settle true true] :=
  transparent_iff_along noonCodec_lawful _ _ _ _

/-- A child that starts at a time without an offset is summarized with it, and after a restart with
one in UTC. -/
theorem not_transparent_naive :
    ¬ ∀ (codec : TeamCodec Bool), codec.Lawful → ∀ provider observable reconcileSeconds ops pre,
      pre <+: ops → Transparent codec reconcileSeconds
        (run (step codec) (init provider observable reconcileSeconds) pre) := by
  intro h
  have htransparent := h noonCodec noonCodec_lawful (Points.ofString "codex") true 120
    [.apply startedEvent false] _ (List.prefix_refl _)
  have hdated := (transparent_iff noonCodec_lawful rfl).mp htransparent
  have hinit : Dated noonCodec (init (Points.ofString "codex") true 120) :=
    fun _ _ _ hchild => by cases hchild
  have haware := (dated_step_iff hinit (.apply startedEvent false)).mp hdated (by decide)
  cases haware

end GlassHive.NativeSummaries
