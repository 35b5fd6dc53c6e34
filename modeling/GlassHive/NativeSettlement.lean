import GlassHive.NativeTeam
import GlassHive.Library.Flags

/-!
# Settlement of native teams

Events of a provider are delivered to a projection in any order, and settlements are asked for in
between. A child is live after a run exactly when something made it live and nothing settled it
since: its own report, a replacing snapshot without it, or a settlement that gave it up.
-/

namespace GlassHive

open Relational Transition

/-! ## Reports -/

/-- The report is about the child. -/
def ChildReport.names (report : ChildReport) (ref : Text) : Bool :=
  !ref.isEmpty && cleanText 256 report.childRef == ref

theorem childState_text (ref role : Text) (s : ChildState) :
    (ChildReport.mk ref role s.text).childState = s := by
  have hclean : Text.lower (cleanText 64 s.text) = s.text := by cases s <;> decide
  unfold ChildReport.childState
  rw [hclean, ChildState.ofText?_text, Option.getD_some]

namespace NativeEvent

/-- The event names the child as live: a start, an update in a live state, or a snapshot that lists
it. -/
def enlivens (ref : Text) : NativeEvent → Bool
  | .child .started report _ _ => report.names ref
  | .child .updated report _ _ => report.names ref && report.childState.isLive
  | .snapshot children _ _ => children.any (·.names ref)
  | _ => false

/-- The event reports a terminal state of the child, or is a replacing snapshot that does not list
it. -/
def settles (ref : Text) : NativeEvent → Bool
  | .child .updated report _ _ => report.names ref && !report.childState.isLive
  | .child (.ended _) report _ _ => report.names ref
  | .snapshot children replace _ => replace && !children.any (·.names ref)
  | _ => false

/-- The state in the payload is that of the type. -/
def Coherent : NativeEvent → Prop
  | .child .started report _ _ => report.childState.isLive = true
  | .child (.ended how) report _ _ => report.childState = how.state
  | .snapshot children _ _ => ∀ report ∈ children, report.childState.isLive = true
  | _ => True

end NativeEvent

section Projected

variable {line : BrokerFields} {observedAt : Option Time} {e : NativeEvent}

theorem coherent_of_mem_sessionEvent {sessionId : BrokerValue}
    (h : e ∈ sessionEvent sessionId observedAt) : e.Coherent := by
  unfold sessionEvent at h
  dsimp only at h
  split at h
  · simp at h
  · obtain rfl := List.mem_singleton.mp h
    trivial

theorem coherent_of_mem_subAgentActivity (h : e ∈ subAgentActivity line observedAt) :
    e.Coherent := by
  unfold subAgentActivity at h
  set kind := Text.lower ((line.get "kind").cleanWithin 64)
  dsimp only at h
  split at h
  · simp at h
  · have hevent : ∀ (type : ChildEventType) (ref role : Text) (eventRef : Option Text),
        type = (if kind ∈ ["started".toList, "spawned".toList, "created".toList] then .started
          else ((codexTerminalState.lookup kind).map .ended).getD .updated) →
        (NativeEvent.child type ⟨ref, role,
          (((codexTerminalState.lookup kind).map ChildEnd.state).getD .running).text⟩ eventRef
          observedAt).Coherent := by
      rintro type ref role eventRef rfl
      split
      · rename_i hkind
        have hnone : codexTerminalState.lookup kind = none := by
          simp only [List.mem_cons, List.not_mem_nil, or_false] at hkind
          rcases hkind with hkind | hkind | hkind <;> rw [hkind] <;> decide
        rw [hnone]
        exact congrArg ChildState.isLive (childState_text ref role .running)
      · cases codexTerminalState.lookup kind with
        | none => trivial
        | some how => exact childState_text ref role how.state
    split at h
    · rcases List.mem_pair.mp h with rfl | rfl
      · exact hevent _ _ _ _ rfl
      · trivial
    · obtain rfl := List.mem_singleton.mp h
      exact hevent _ _ _ _ rfl

theorem coherent_of_agentStateEvent {roles : List (Text × Text)} {entry : String × BrokerValue}
    (h : agentStateEvent roles observedAt entry = some e) : e.Coherent := by
  unfold agentStateEvent at h
  dsimp only at h
  split at h
  · cases h
  · split at h
    · cases h
      exact childState_text _ _ _
    · split at h
      · cases h
        trivial
      · cases h

theorem coherent_of_mem_collabToolCall (h : e ∈ collabToolCall line observedAt) : e.Coherent := by
  unfold collabToolCall at h
  simp only [List.mem_append] at h
  rcases h with (h | h) | h
  · split at h
    · obtain ⟨ref, -, rfl⟩ := List.mem_map.mp h
      exact congrArg ChildState.isLive (childState_text ref _ .running)
    · simp at h
  · split at h
    · obtain ⟨ref, -, rfl⟩ := List.mem_map.mp h
      trivial
    · simp at h
  · split at h
    · obtain ⟨entry, -, hentry⟩ := List.mem_filterMap.mp h
      exact coherent_of_agentStateEvent hentry
    · simp at h

theorem coherent_of_mem_codexEvent (h : e ∈ codexEvent line observedAt) : e.Coherent := by
  unfold codexEvent at h
  dsimp only at h
  split at h
  · exact coherent_of_mem_sessionEvent h
  · split at h
    · exact coherent_of_mem_subAgentActivity h
    · split at h
      · split at h
        · exact coherent_of_mem_collabToolCall h
        · simp at h
      · simp at h

theorem isLive_of_mem_backgroundTasks {tasks : List BrokerValue} {report : ChildReport}
    (h : report ∈ backgroundTasks tasks) : report.childState.isLive = true := by
  obtain ⟨task, -, htask⟩ := List.mem_filterMap.mp h
  cases task with
  | object =>
    simp only [taskReport] at htask
    split at htask
    · cases htask
    · cases htask
      exact congrArg ChildState.isLive (childState_text _ _ .running)
  | _ => cases htask

theorem coherent_of_mem_claudeEvent (h : e ∈ claudeEvent line observedAt) : e.Coherent := by
  unfold claudeEvent at h
  dsimp only at h
  split at h
  · simp at h
  split at h
  · exact coherent_of_mem_sessionEvent h
  split at h
  · obtain rfl := List.mem_singleton.mp h
    exact congrArg ChildState.isLive (childState_text _ _ .running)
  split at h
  · split at h
    · obtain rfl := List.mem_singleton.mp h
      exact childState_text _ _ _
    · obtain rfl := List.mem_singleton.mp h
      trivial
  split at h
  · split at h
    · obtain rfl := List.mem_singleton.mp h
      exact childState_text _ _ _
    · simp at h
  split at h
  · split at h
    · obtain rfl := List.mem_singleton.mp h
      exact fun report hreport => isLive_of_mem_backgroundTasks hreport
    · simp at h
  split at h
  · split at h
    · simp at h
    · obtain rfl := List.mem_singleton.mp h
      trivial
  · simp at h

theorem coherent_of_mem_projectNativeEvents {loads : Text → Option BrokerValue} {provider : Text}
    {line : ProviderLine} (h : e ∈ projectNativeEvents loads provider line observedAt) :
    e.Coherent := by
  unfold projectNativeEvents at h
  dsimp only at h
  split at h
  · simp at h
  · split at h
    · exact coherent_of_mem_codexEvent h
    · split at h
      · exact coherent_of_mem_claudeEvent h
      · simp at h

end Projected

/-! ## Steps of a projection -/

namespace NativeTeamProjection

variable {p : NativeTeamProjection} {ref : Text} {now : Time}

/-- What no step changes. -/
def settings (p : NativeTeamProjection) : Bool × ℕ :=
  (p.observable, p.reconcileSeconds)

theorem isLive_updateChildren (children : Table Text Child) :
    (p.updateChildren children).isLive ref =
      ((children.get? ref).map fun child => child.state.isLive).getD false := rfl

theorem mem_active : ref ∈ p.active ↔ p.isLive ref = true := by
  unfold active isLive
  rw [List.mem_mergeSort, List.mem_map]
  constructor
  · rintro ⟨⟨ref', child⟩, hmem, rfl⟩
    obtain ⟨hget, hlive⟩ := Table.mem_select.mp hmem
    simpa [hget] using hlive
  · intro hlive
    cases hget : p.children.get? ref with
    | none => simp [hget] at hlive
    | some child =>
      exact ⟨(ref, child), Table.mem_select.mpr ⟨hget, by simpa [hget] using hlive⟩, rfl⟩

theorem isLive_upsertChild (report : ChildReport) :
    (p.upsertChild report now).isLive ref =
      if report.names ref then report.childState.isLive else p.isLive ref := by
  unfold upsertChild ChildReport.names
  dsimp only
  by_cases hempty : (cleanText 256 report.childRef).isEmpty = true
  · have hnames : (!ref.isEmpty && cleanText 256 report.childRef == ref) = false := by
      by_cases href : cleanText 256 report.childRef = ref
      · simp [← href, hempty]
      · simp [href]
    rw [if_pos hempty, hnames]
    simp
  · rw [if_neg hempty, isLive_updateChildren, Table.get?_put]
    by_cases href : ref = cleanText 256 report.childRef
    · subst href
      simp [hempty]
    · simp [href, Ne.symm href, isLive]

theorem settings_upsertChild (report : ChildReport) :
    (p.upsertChild report now).settings = p.settings := by
  unfold upsertChild
  dsimp only
  split <;> rfl

theorem isLive_foldl_upsertChild {reports : List ChildReport}
    (hlive : ∀ report ∈ reports, report.childState.isLive = true) :
    (reports.foldl (fun q report => q.upsertChild report now) p).isLive ref =
      (reports.any (·.names ref) || p.isLive ref) := by
  induction reports generalizing p with
  | nil => simp
  | cons report reports ih =>
    have hreport : report.childState.isLive = true := hlive report (List.mem_cons_self ..)
    rw [List.foldl_cons, ih fun r hr => hlive r (List.mem_cons_of_mem report hr),
      isLive_upsertChild, hreport, List.any_cons]
    cases report.names ref <;> simp

theorem settings_foldl_upsertChild (reports : List ChildReport) :
    (reports.foldl (fun q report => q.upsertChild report now) p).settings = p.settings := by
  induction reports generalizing p with
  | nil => rfl
  | cons report reports ih => rw [List.foldl_cons, ih, settings_upsertChild]

end NativeTeamProjection

/-! ## Runs -/

/-- An event is delivered, or a settlement asked for. -/
inductive TeamOp
  | deliver (event : NativeEvent) (now : Time)
  | settle (rootExitedAt now : Time)
  deriving DecidableEq, Repr

/-- What a run shows at a step: the event, or the decision. -/
inductive TeamMoment
  | event (e : NativeEvent)
  | answer (d : SettlementDecision)
  deriving DecidableEq, Repr

namespace TeamMoment

/-- The child is live afterwards. -/
def enlivens (ref : Text) : TeamMoment → Bool
  | .event e => e.enlivens ref
  | .answer _ => false

/-- The child is not live afterwards: its end was reported, it was dropped, or it was given up. -/
def settles (ref : Text) : TeamMoment → Bool
  | .event e => e.settles ref
  | .answer d => d.lostChildRefs.contains ref

theorem enlivens_eq_false {ref : Text} {m : TeamMoment} (h : m.settles ref = true) :
    m.enlivens ref = false := by
  cases m with
  | answer => rfl
  | event e =>
    simp only [settles, enlivens] at h ⊢
    cases e with
    | child type =>
      cases type with
      | started => cases h
      | updated => simp_all [NativeEvent.settles, NativeEvent.enlivens]
      | ended => rfl
    | snapshot =>
      rw [NativeEvent.settles, Bool.and_eq_true, Bool.not_eq_true'] at h
      exact h.2
    | _ => rfl

/-- What a moment says about the child. -/
def mark (ref : Text) (m : TeamMoment) : Option Bool :=
  if m.enlivens ref then some true else if m.settles ref then some false else none

end TeamMoment

namespace NativeTeamProjection

/-- One step. -/
def step (p : NativeTeamProjection) : TeamOp → NativeTeamProjection
  | .deliver event now => p.apply event now
  | .settle rootExitedAt now => (p.settlement rootExitedAt now).2

/-- The moment of a step. -/
def moment (p : NativeTeamProjection) : TeamOp → TeamMoment
  | .deliver event _ => .event event
  | .settle rootExitedAt now => .answer (p.settlement rootExitedAt now).1

/-- The moments of a run. -/
def moments : NativeTeamProjection → List TeamOp → List TeamMoment
  | _, [] => []
  | p, op :: ops => p.moment op :: (p.step op).moments ops

end NativeTeamProjection

/-- A delivered event comes from a line of a provider. -/
def TeamOp.Projected (loads : Text → Option BrokerValue) : TeamOp → Prop
  | .deliver event _ => ∃ provider line observedAt,
      event ∈ projectNativeEvents loads provider line observedAt
  | .settle _ _ => True

namespace NativeTeamProjection

variable {p : NativeTeamProjection} {ref : Text}

theorem isLive_applySnapshot {children : List ChildReport} {replace : Bool} {now : Time}
    (hlive : ∀ report ∈ children, report.childState.isLive = true) :
    (p.applySnapshot children replace now).isLive ref =
      (children.any (·.names ref) || (!replace && p.isLive ref)) := by
  unfold applySnapshot
  dsimp only
  set q := children.foldl (fun q report => q.upsertChild report now) p with hq
  have hfold : q.isLive ref = (children.any (·.names ref) || p.isLive ref) :=
    isLive_foldl_upsertChild hlive
  cases replace with
  | false => simpa using hfold
  | true =>
    -- A reference of the snapshot is one that a report names.
    have hrefs : ((children.map fun report => cleanText 256 report.childRef).filter
        (!·.isEmpty)).contains ref = children.any (·.names ref) := by
      rw [Bool.eq_iff_iff, List.contains_iff_mem, List.mem_filter, List.mem_map, List.any_eq_true]
      constructor
      · rintro ⟨⟨report, hreport, rfl⟩, hempty⟩
        exact ⟨report, hreport, by simpa [ChildReport.names] using hempty⟩
      · rintro ⟨report, hreport, hnames⟩
        simp only [ChildReport.names, Bool.and_eq_true, beq_iff_eq] at hnames
        exact ⟨⟨report, hreport, hnames.2⟩, hnames.1⟩
    rw [if_pos rfl, isLive_updateChildren, Table.get?_update, hrefs]
    have hget : q.isLive ref =
        ((q.children.get? ref).map fun child => child.state.isLive).getD false := rfl
    by_cases hnamed : children.any (·.names ref) = true
    · rw [hnamed, Bool.true_or] at hfold ⊢
      rw [hfold] at hget
      cases hchild : q.children.get? ref with
      | none => simp [hchild] at hget
      | some => simpa [hchild] using hget.symm
    · rw [Bool.not_eq_true] at hnamed
      rw [hnamed]
      cases hchild : q.children.get? ref with
      | none => simp
      | some child =>
        cases hstate : child.state.isLive <;> simp [hstate]

theorem isLive_settlement (hobservable : p.observable = true) (rootExitedAt now : Time) :
    (p.settlement rootExitedAt now).2.isLive ref =
      (p.isLive ref && !(p.settlement rootExitedAt now).1.lostChildRefs.contains ref) := by
  unfold settlement
  simp only [hobservable, Bool.not_true, Bool.false_eq_true, if_false]
  split
  · simp
  split
  · simp
  · dsimp only
    rw [isLive_updateChildren, Table.get?_update]
    have hmem : p.active.contains ref = p.isLive ref := by
      rw [Bool.eq_iff_iff, List.contains_iff_mem, mem_active]
    rw [hmem]
    cases hchild : p.children.get? ref with
    | none => simp [isLive, hchild]
    | some =>
      cases hlive : p.isLive ref with
      | false =>
        simpa [isLive, hchild] using hlive
      | true => simp

theorem settings_step (op : TeamOp) : (p.step op).settings = p.settings := by
  cases op with
  | settle =>
    unfold step settlement
    dsimp only
    repeat' split
    all_goals rfl
  | deliver event =>
    unfold step apply
    dsimp only
    split
    · rfl
    · cases event with
      | snapshot children =>
        unfold applySnapshot
        dsimp only
        split
        · exact settings_foldl_upsertChild children
        · exact settings_foldl_upsertChild children
      | child type report => exact settings_upsertChild report
      | _ => rfl

theorem settings_run (ops : List TeamOp) : (run step p ops).settings = p.settings := by
  induction ops generalizing p with
  | nil => rfl
  | cons op ops ih => rw [run_cons, ih, settings_step]

theorem isLive_apply {event : NativeEvent} (hobservable : p.observable = true)
    (hcoherent : event.Coherent) (now : Time) :
    (p.apply event now).isLive ref =
      ((TeamMoment.event event).mark ref).getD (p.isLive ref) := by
  unfold apply TeamMoment.mark TeamMoment.enlivens TeamMoment.settles
  rw [hobservable]
  cases event with
  | sessionStarted => rfl
  | teamMessage => rfl
  | child type report =>
    have hupsert : (p.upsertChild report now).isLive ref =
        if report.names ref then report.childState.isLive else p.isLive ref :=
      isLive_upsertChild report
    cases type with
    | started =>
      have hlive : report.childState.isLive = true := hcoherent
      cases hnames : report.names ref <;>
        simpa [NativeEvent.enlivens, NativeEvent.settles, hnames, hlive] using hupsert
    | updated =>
      cases hnames : report.names ref <;> cases hlive : report.childState.isLive <;>
        simpa [NativeEvent.enlivens, NativeEvent.settles, hnames, hlive] using hupsert
    | ended how =>
      have hlive : report.childState.isLive = false := by
        rw [show report.childState = how.state from hcoherent]
        cases how <;> rfl
      cases hnames : report.names ref <;>
        simpa [NativeEvent.enlivens, NativeEvent.settles, hnames, hlive] using hupsert
  | snapshot children replace =>
    have hsnapshot : (p.applySnapshot children replace now).isLive ref =
        (children.any (·.names ref) || (!replace && p.isLive ref)) :=
      isLive_applySnapshot hcoherent
    simp only [Bool.not_true, Bool.false_eq_true, if_false, hsnapshot, NativeEvent.enlivens,
      NativeEvent.settles]
    rcases Bool.eq_false_or_eq_true (children.any (·.names ref)) with hnamed | hnamed <;>
      cases replace <;> simp [hnamed]

/-- One step makes of a child what its moment says. -/
theorem isLive_step (hobservable : p.observable = true) {loads : Text → Option BrokerValue}
    {op : TeamOp} (hop : op.Projected loads) :
    (p.step op).isLive ref = ((p.moment op).mark ref).getD (p.isLive ref) := by
  cases op with
  | deliver event now =>
    obtain ⟨provider, line, observedAt, hmem⟩ := hop
    exact isLive_apply hobservable (coherent_of_mem_projectNativeEvents hmem) now
  | settle rootExitedAt now =>
    have hsettle : (p.settlement rootExitedAt now).2.isLive ref =
        (p.isLive ref && !(p.settlement rootExitedAt now).1.lostChildRefs.contains ref) :=
      isLive_settlement hobservable rootExitedAt now
    simp only [step, moment, hsettle, TeamMoment.mark, TeamMoment.enlivens, TeamMoment.settles]
    by_cases hlost : ref ∈ (p.settlement rootExitedAt now).1.lostChildRefs <;> simp [hlost]

theorem isLive_run (hobservable : p.observable = true) {loads : Text → Option BrokerValue}
    {ops : List TeamOp} (hops : ∀ op ∈ ops, op.Projected loads) :
    (run step p ops).isLive ref =
      Flags.latest (TeamMoment.mark ref) (p.isLive ref) (p.moments ops) := by
  induction ops generalizing p with
  | nil => rfl
  | cons op ops ih =>
    have hop : op.Projected loads := hops op (List.mem_cons_self ..)
    have hnext : (p.step op).observable = true :=
      (congrArg Prod.fst (settings_step op)).trans hobservable
    rw [run_cons, ih hnext fun op' hop' => hops op' (List.mem_cons_of_mem op hop'),
      isLive_step hobservable hop]
    rfl

/-- No child is live exactly when a settlement is ready. -/
theorem settlement_ready_iff (hobservable : p.observable = true) (rootExitedAt now : Time) :
    (p.settlement rootExitedAt now).1.state = .ready ↔ ∀ ref, p.isLive ref = false := by
  have hactive : p.active = [] ↔ ∀ ref, p.isLive ref = false := by
    rw [List.eq_nil_iff_forall_not_mem]
    simp [mem_active]
  rw [← hactive]
  unfold settlement
  simp only [hobservable, Bool.not_true, Bool.false_eq_true, if_false, List.isEmpty_iff]
  by_cases hempty : p.active = []
  · rw [if_pos hempty]
    exact ⟨fun _ => hempty, fun _ => rfl⟩
  · rw [if_neg hempty]
    split <;> simp only [reduceCtorEq, false_iff] <;> exact hempty

theorem settlement_ne_settling {rootExitedAt now : Time}
    (hlate : rootExitedAt + p.reconcileSeconds * 1000000 ≤ now) :
    (p.settlement rootExitedAt now).1.state ≠ .settling := by
  unfold settlement
  split
  · simp
  split
  · simp
  split
  · have hbound := Int.ofNat_le.mpr hlate
    rw [Int.natCast_add, Int.natCast_mul] at hbound
    omega
  · simp

/-! ## What a settlement answers -/

/-- A child whose end was reported, that a snapshot dropped or that a settlement gave up is not
counted live before an event names it live again. A settlement is ready exactly when every child
that was ever live has been settled in one of these ways since, and from the bound after the exit of
the root on it is never settling. -/
theorem settlement_sound {loads : Text → Option BrokerValue} {ops : List TeamOp}
    (hobservable : p.observable = true) (hops : ∀ op ∈ ops, op.Projected loads) :
    (∀ ref pre m post, p.moments ops = pre ++ m :: post → m.settles ref = true →
      (∀ later ∈ post, later.enlivens ref = false) → (run step p ops).isLive ref = false) ∧
    (∀ rootExitedAt now, ((run step p ops).settlement rootExitedAt now).1.state = .ready ↔
      ∀ ref, ¬Flags.Outstanding (TeamMoment.mark ref) (p.isLive ref) (p.moments ops)) ∧
    (∀ rootExitedAt now, rootExitedAt + p.reconcileSeconds * 1000000 ≤ now →
      ((run step p ops).settlement rootExitedAt now).1.state ≠ .settling) := by
  have hsettings := settings_run (p := p) ops
  refine ⟨?_, ?_, ?_⟩
  · intro ref pre m post htrace hsettles hpost
    have henlivens := TeamMoment.enlivens_eq_false hsettles
    have hm : TeamMoment.mark ref m = some false := by
      unfold TeamMoment.mark
      rw [henlivens, hsettles, if_neg Bool.false_ne_true, if_pos rfl]
    rw [isLive_run hobservable hops, htrace, Flags.latest_append, Flags.latest_cons, hm,
      Option.getD_some]
    refine Flags.latest_of_down fun later hlater => ?_
    unfold TeamMoment.mark
    rw [hpost later hlater, if_neg Bool.false_ne_true]
    split <;> simp
  · intro rootExitedAt now
    have hrun : (run step p ops).observable = true :=
      (congrArg Prod.fst hsettings).trans hobservable
    rw [settlement_ready_iff hrun]
    refine forall_congr' fun ref => ?_
    rw [isLive_run hobservable hops, ← Flags.latest_eq_true_iff, Bool.not_eq_true]
  · intro rootExitedAt now hlate
    have hseconds : (run step p ops).reconcileSeconds = p.reconcileSeconds :=
      congrArg Prod.snd hsettings
    exact settlement_ne_settling (hseconds ▸ hlate)

/-! ## A child that is live again, and a settlement that is asked for twice -/

private def task : Text := "task-1".toList

private def taskLine (subtype : String) (more : BrokerFields) : ProviderLine :=
  .mapping ([("type", .str "system".toList), ("subtype", .str subtype.toList),
    ("task_id", .str task)] ++ more)

private def taskEvent (type : ChildEventType) (state : ChildState) : NativeEvent :=
  .child type ⟨task, [], state.text⟩ none none

private def team : NativeTeamProjection :=
  init "claude".toList true 120

private def lateProgress : List TeamOp :=
  [.deliver (taskEvent .started .running) 0, .deliver (taskEvent (.ended .completed) .completed) 1,
    .deliver (taskEvent .updated .running) 2]

private def askedTwice : List TeamOp :=
  [.deliver (taskEvent .started .running) 0, .settle 0 120000000, .settle 0 120000000]

private theorem projected_started :
    taskEvent .started .running ∈ projectNativeEvents (fun _ => none) "claude".toList
      (taskLine "task_started" []) none := by
  decide +kernel

private theorem projected_completed :
    taskEvent (.ended .completed) .completed ∈ projectNativeEvents (fun _ => none) "claude".toList
      (taskLine "task_notification" [("status", .str "completed".toList)]) none := by
  decide +kernel

private theorem projected_progress :
    taskEvent .updated .running ∈ projectNativeEvents (fun _ => none) "claude".toList
      (taskLine "task_progress" []) none := by
  decide +kernel

private theorem projected_lateProgress :
    ∀ op ∈ lateProgress, op.Projected fun _ => none := by
  simp only [lateProgress, List.forall_mem_cons, TeamOp.Projected]
  exact ⟨⟨_, _, _, projected_started⟩, ⟨_, _, _, projected_completed⟩,
    ⟨_, _, _, projected_progress⟩, by simp⟩

private theorem projected_askedTwice : ∀ op ∈ askedTwice, op.Projected fun _ => none := by
  simp only [askedTwice, List.forall_mem_cons, TeamOp.Projected]
  exact ⟨⟨_, _, _, projected_started⟩, trivial, trivial, by simp⟩

/-- Progress that arrives late makes a completed child live again, and a settlement that is asked
for again after it gave a child up is ready. -/
theorem settlement_unsound :
    ((∀ op ∈ lateProgress, op.Projected fun _ => none) ∧
      team.moments lateProgress = [.event (taskEvent .started .running),
        .event (taskEvent (.ended .completed) .completed), .event (taskEvent .updated .running)] ∧
      (run step team lateProgress).isLive task = true) ∧
    (∀ op ∈ askedTwice, op.Projected fun _ => none) ∧
      team.moments askedTwice = [.event (taskEvent .started .running),
        .answer ⟨.degraded, [], [task]⟩, .answer ⟨.ready, [], []⟩] := by
  refine ⟨⟨projected_lateProgress, rfl, ?_⟩, projected_askedTwice, ?_⟩
  · decide +kernel
  · decide +kernel

/-- A child that completed is not counted live, and the settlement is ready exactly when no child
is outstanding. -/
theorem settlement_sound_completed :
    (run step team (lateProgress.take 2)).isLive task = false ∧
    (((run step team (lateProgress.take 2)).settlement 0 5).1.state = .ready ↔
      ∀ ref, ¬Flags.Outstanding (TeamMoment.mark ref) (team.isLive ref)
        (team.moments (lateProgress.take 2))) := by
  have hprojected : ∀ op ∈ lateProgress.take 2, op.Projected fun _ => none :=
    fun op hop => projected_lateProgress op (List.mem_of_mem_take hop)
  have hsound := settlement_sound (p := team) rfl hprojected
  refine ⟨hsound.1 task [.event (taskEvent .started .running)]
    (.event (taskEvent (.ended .completed) .completed)) [] rfl ?_ (by simp), hsound.2.1 0 5⟩
  decide +kernel

end NativeTeamProjection

end GlassHive
