import GlassHive.LibraryCatalog
import GlassHive.ManifestFiles

/-!
# Library proposals

Users propose library items, and operators publish or reject what is proposed. Calls that create
and review proposals are interleaved: a creation counts the pending proposals of its user and then
inserts its own, and a review reads its proposal, publishes its manifest and then resolves it, each
in a transaction of its own.

Beside the tables stand a record of the resolutions, and in every call the item that it added to
the catalog.
-/

namespace GlassHive.LibraryProposals

open Relational Transition LibraryManifests LibraryCatalog
open Json (Fields)
open Fallible (demand bind_eq_ok demand_bind_eq_ok)

inductive ProposalStatus
  | pending
  | published
  | rejected
  deriving DecidableEq, Repr

/-- A row of `control_plane_library_proposals`, without its key. -/
structure LibraryProposal where
  tenantId : Points
  ownerId : Points
  manifestJson : Points
  status : ProposalStatus
  libraryId : Option Points
  resolutionReason : Points
  resolvedBy : Points
  createdAt : ℚ
  resolvedAt : Option ℚ
  deriving DecidableEq

/-- What `create_library_proposal` is given. -/
structure CreateRequest where
  tenantId : Points
  ownerId : Points
  manifest : Json

/-- What `review_library_proposal` is given. -/
structure ReviewRequest where
  proposalId : Points
  tenantId : Points
  action : Points
  reason : Points
  actorId : Points

inductive ProposalCall
  | create (r : CreateRequest)
  | review (r : ReviewRequest)

/-- What an ended call comes to. -/
inductive Outcome
  | created (proposalId : Points)
  | reviewed (status : ProposalStatus)
  | raised (e : CatalogFailure)
  deriving DecidableEq

/-- How far a call is. From its publication on, a review has the item that it was given, and the
identifier of the item if the review added it. -/
inductive CallPhase
  /-- The manifest is validated. -/
  | counting (r : CreateRequest) (normalized : Fields)
  | inserting (r : CreateRequest) (normalized : Fields)
  | reading (r : ReviewRequest)
  | publishing (r : ReviewRequest) (manifest : Json)
  | resolving (r : ReviewRequest) (library : Option Points) (added : Option Points)
  | ended (outcome : Outcome) (added : Option Points)

structure ProposalState where
  catalog : Catalog
  proposals : Table Points LibraryProposal := .empty
  calls : List CallPhase := []
  /-- The proposals that a review resolved, once for each time. -/
  resolutions : List Points := []

/-- Nothing is proposed yet. -/
structure Initial (s : ProposalState) : Prop where
  proposals : s.proposals = .empty
  calls : s.calls = []
  resolutions : s.resolutions = []

/-! ## Steps -/

/-- A call raises. -/
def raised (e : CatalogFailure) : CallPhase :=
  .ended (.raised e) none

/-- A pending proposal of a user. -/
def isPendingOf (tenantId ownerId : Points) (p : LibraryProposal) : Bool :=
  p.tenantId == tenantId && p.ownerId == ownerId && p.status == .pending

/-- The number of the pending proposals of a user. -/
def pendingCount (proposals : Table Points LibraryProposal) (tenantId ownerId : Points) : ℕ :=
  (proposals.select fun _ p => isPendingOf tenantId ownerId p).length

/-- `str(action or "").strip().lower()`. -/
def ReviewRequest.normalizedAction (r : ReviewRequest) : Points :=
  lower (Points.strip r.action)

/-- The review is to publish. -/
def ReviewRequest.publishes (r : ReviewRequest) : Bool :=
  r.normalizedAction == Points.ofString "publish"

/-- A call of `s` enters a phase. -/
@[simps]
def ProposalState.enter (s : ProposalState) (i : ℕ) (phase : CallPhase) : ProposalState :=
  { s with calls := s.calls.set i phase }

variable (pf : Platform)

/-- The first phase of a call. -/
def firstPhase : ProposalCall → CallPhase
  | .create r =>
    match checked (validateLibraryManifest pf r.manifest) .error with
    | .ok normalized => .counting r normalized
    | .error e => raised e
  | .review r =>
    if LibraryManifests.oneOf r.normalizedAction ["publish", "reject"] then .reading r
    else raised (errorOf "Unsupported Library proposal review action")

/-- The phase after the read of a proposal. -/
def afterRead (s : ProposalState) (r : ReviewRequest) : Except CatalogFailure CallPhase :=
  match s.proposals.get? r.proposalId with
  | none => .error (errorOf "Library proposal not found")
  | some p => do
    ensure (p.tenantId == r.tenantId) (errorOf "Library proposal not found")
    ensure (p.status == .pending) (conflictOf "Library proposal is already resolved")
    let manifest ← parseJson pf p.manifestJson (.obj [])
    if r.publishes then
      match manifest with
      | .obj fields => return .publishing r (.obj fields)
      | _ => .error (conflictOf "Library proposal manifest is invalid")
    else if (Points.strip r.reason).isEmpty then
      .error (errorOf "A rejection reason is required")
    else return .resolving r none none

/-- The row of a new proposal. -/
def newProposal (r : CreateRequest) (normalized : Fields) (now : ℚ) : LibraryProposal where
  tenantId := r.tenantId
  ownerId := r.ownerId
  manifestJson := Json.dumpsSorted (.obj normalized)
  status := .pending
  libraryId := none
  resolutionReason := []
  resolvedBy := []
  createdAt := now
  resolvedAt := none

/-- The status that a review gives its proposal. -/
def ReviewRequest.nextStatus (r : ReviewRequest) : ProposalStatus :=
  if r.publishes then .published else .rejected

/-- The proposal that a review resolves. -/
def ReviewRequest.resolved (r : ReviewRequest) (library : Option Points) (now : ℚ)
    (p : LibraryProposal) : LibraryProposal :=
  { p with
    status := r.nextStatus
    libraryId := library
    resolutionReason := (Points.strip r.reason).take 1000
    resolvedBy := (orElse r.actorId (Points.ofString "operator")).take 200
    resolvedAt := some now }

/-- The final write of a review finds its proposal. -/
def ReviewRequest.finds (r : ReviewRequest) (id : Points) (p : LibraryProposal) : Bool :=
  id == r.proposalId && p.tenantId == r.tenantId && p.status == .pending

/-- What a step does to a call in some phase. A new row gets the identifier, at the time. -/
def advance (s : ProposalState) (i : ℕ) (id : Points) (now : ℚ) : CallPhase → ProposalState
  | .counting r normalized =>
    if pendingCount s.proposals r.tenantId r.ownerId < 20 then s.enter i (.inserting r normalized)
    else s.enter i (raised (conflictOf "Library proposal limit reached for this user"))
  | .inserting r normalized =>
    match s.proposals.insert? id (newProposal r normalized now) with
    | some proposals => { s.enter i (.ended (.created id) none) with proposals }
    | none => s.enter i (raised .uncaught)
  | .reading r =>
    match afterRead pf s r with
    | .ok phase => s.enter i phase
    | .error e => s.enter i (raised e)
  | .publishing r manifest =>
    match publishLibraryManifest pf s.catalog manifest r.actorId id now with
    | .ok (catalog, .existing library _) =>
      { s.enter i (.resolving r (some library) none) with catalog }
    | .ok (catalog, .added library _) =>
      { s.enter i (.resolving r (some library) (some library)) with catalog }
    | .error e => s.enter i (raised e)
  | .resolving r library added =>
    if s.proposals.any r.finds then
      { s.enter i (.ended (.reviewed r.nextStatus) added) with
        proposals := s.proposals.update r.finds fun _ => r.resolved library now
        resolutions := r.proposalId :: s.resolutions }
    else s.enter i (.ended (.raised (conflictOf "Library proposal changed concurrently")) added)
  | .ended _ _ => s

inductive ProposalStep
  | call (c : ProposalCall)
  | move (i : ℕ) (id : Points) (now : ℚ)

def step (s : ProposalState) : ProposalStep → ProposalState
  | .call c => { s with calls := s.calls ++ [firstPhase pf c] }
  | .move i id now =>
    match s.calls[i]? with
    | some phase => advance pf s i id now phase
    | none => s

/-! ## Atomic reviews -/

/-- The item that a call added to the catalog. -/
def CallPhase.added : CallPhase → Option Points
  | .resolving _ _ added => added
  | .ended _ added => added
  | _ => none

/-- The call raised, or its review rejected the proposal. -/
def CallPhase.withdrawn : CallPhase → Bool
  | .ended (.raised _) _ => true
  | .ended (.reviewed .rejected) _ => true
  | _ => false

/-- No call that raised or rejected its proposal leaves an item that it added, no proposal is
resolved twice, and no user has more than twenty pending proposals. -/
structure ReviewsAtomic (s : ProposalState) : Prop where
  unpublished : ∀ phase ∈ s.calls, phase.withdrawn = true → ∀ id ∈ phase.added,
    s.catalog.get? id = none
  resolvedOnce : s.resolutions.Nodup
  bounded : ∀ tenantId ownerId, pendingCount s.proposals tenantId ownerId ≤ 20

/-- A new proposal is inserted where its user has less than twenty pending ones, and the proposal of
a review that added an item is pending when the review resolves it. -/
def Guarded (s : ProposalState) : ProposalStep → Prop
  | .call _ => True
  | .move i id _ =>
    match s.calls[i]? with
    | some (.inserting r _) =>
      s.proposals.get? id = none → pendingCount s.proposals r.tenantId r.ownerId < 20
    | some (.resolving r _ (some _)) => s.proposals.any r.finds = true
    | _ => True

/-! ## What holds in every state -/

/-- What is known of a call by its phase, beside the catalog. -/
def CallPhase.Sound (catalog : Catalog) : CallPhase → Prop
  | .publishing r _ => r.publishes = true
  | .resolving r _ added =>
    ∀ id ∈ added, r.publishes = true ∧ (catalog.get? id).isSome = true
  | .ended outcome added =>
    ∀ id ∈ added, outcome ≠ .reviewed .rejected ∧ (catalog.get? id).isSome = true
  | _ => True

/-- The calls are sound, and what is resolved is no longer pending. -/
structure Consistent (s : ProposalState) : Prop where
  sound : ∀ phase ∈ s.calls, phase.Sound s.catalog
  nodup : s.resolutions.Nodup
  resolved : ∀ id ∈ s.resolutions, ∃ p, s.proposals.get? id = some p ∧ p.status ≠ .pending

section Invariants

variable {pf} {s : ProposalState}

variable {phase : CallPhase} {calls : List CallPhase} {i : ℕ} {id : Points} {now : ℚ}
  {catalog catalog' : Catalog} {r : ReviewRequest} {s' : ProposalState}

theorem CallPhase.Sound.mono
    (hgrow : ∀ id, (catalog.get? id).isSome = true → (catalog'.get? id).isSome = true)
    (h : phase.Sound catalog) : phase.Sound catalog' := by
  cases phase with
  | resolving => exact fun id hid => ⟨(h id hid).1, hgrow id (h id hid).2⟩
  | ended => exact fun id hid => ⟨(h id hid).1, hgrow id (h id hid).2⟩
  | publishing => exact h
  | counting => trivial
  | inserting => trivial
  | reading => trivial

theorem sound_raised (catalog : Catalog) (e : CatalogFailure) : (raised e).Sound catalog :=
  fun _ hid => by cases hid

theorem sound_firstPhase (catalog : Catalog) (c : ProposalCall) :
    (firstPhase pf c).Sound catalog := by
  cases c with
  | create =>
    simp only [firstPhase]
    split
    · trivial
    · exact sound_raised catalog _
  | review =>
    simp only [firstPhase]
    split
    · trivial
    · exact sound_raised catalog _

/-- The read of a proposal leads to its publication or, for a rejection, to its resolution. -/
theorem afterRead_eq_ok (h : afterRead pf s r = .ok phase) :
    (r.publishes = true ∧ ∃ manifest, phase = .publishing r manifest) ∨
      phase = .resolving r none none := by
  unfold afterRead at h
  split at h
  · cases h
  · obtain ⟨_, h⟩ := demand_bind_eq_ok.mp h
    obtain ⟨_, h⟩ := demand_bind_eq_ok.mp h
    obtain ⟨manifest, _, h⟩ := bind_eq_ok.mp h
    split at h
    · rename_i hpublishes
      split at h
      · exact .inl ⟨hpublishes, _, (Except.ok.inj h).symm⟩
      · cases h
    · split at h
      · cases h
      · exact .inr (Except.ok.inj h).symm

/-- What a step does to the tables and the calls. -/
inductive Moves (s : ProposalState) (i : ℕ) (id : Points) : CallPhase → ProposalState → Prop
  /-- The call enters a phase in which it has added no item. -/
  | enters {phase phase' : CallPhase} (hadded : phase.added = none) (hadded' : phase'.added = none)
      (hsound : phase'.Sound s.catalog) (hinserting : ∀ r m, phase = .inserting r m →
        s.proposals.get? id ≠ none) : Moves s i id phase (s.enter i phase')
  | inserts {r : CreateRequest} {normalized : Fields} {now : ℚ}
      {proposals : Table Points LibraryProposal}
      (hinsert : s.proposals.insert? id (newProposal r normalized now) = some proposals) :
      Moves s i id (.inserting r normalized)
        { s.enter i (.ended (.created id) none) with proposals }
  | adds {r : ReviewRequest} {manifest : Json} {catalog : Catalog} {row : LibraryRow}
      (hinsert : s.catalog.insert? id row = some catalog) :
      Moves s i id (.publishing r manifest)
        { s.enter i (.resolving r (some id) (some id)) with catalog }
  | resolves {r : ReviewRequest} {library added : Option Points} {now : ℚ}
      (hany : s.proposals.any r.finds = true) : Moves s i id (.resolving r library added)
        { s.enter i (.ended (.reviewed r.nextStatus) added) with
          proposals := s.proposals.update r.finds fun _ => r.resolved library now
          resolutions := r.proposalId :: s.resolutions }
  | loses {r : ReviewRequest} {library added : Option Points}
      (hany : s.proposals.any r.finds = false) : Moves s i id (.resolving r library added)
        (s.enter i (.ended (.raised (conflictOf "Library proposal changed concurrently")) added))
  | stays {outcome : Outcome} {added : Option Points} : Moves s i id (.ended outcome added) s

/-- A step of a call moves it. -/
theorem moves_advance (i : ℕ) (id : Points) (now : ℚ) (phase : CallPhase) :
    Moves s i id phase (advance pf s i id now phase) := by
  cases phase with
  | counting =>
    simp only [advance]
    split
    · exact .enters rfl rfl trivial fun _ _ h => by cases h
    · exact .enters rfl rfl (sound_raised _ _) fun _ _ h => by cases h
  | inserting r normalized =>
    simp only [advance]
    cases hinsert : s.proposals.insert? id (newProposal r normalized now) with
    | some => exact .inserts hinsert
    | none =>
      refine .enters rfl rfl (sound_raised _ _) fun _ _ _ hnone => ?_
      have hsome := Table.insert?_isSome (r := newProposal r normalized now).mpr hnone
      rw [hinsert] at hsome
      cases hsome
  | reading r =>
    simp only [advance]
    cases hread : afterRead pf s r with
    | ok =>
      rcases afterRead_eq_ok hread with ⟨hpublishes, manifest, rfl⟩ | rfl
      · exact .enters rfl rfl hpublishes fun _ _ h => by cases h
      · exact .enters rfl rfl (fun _ hid => by cases hid) fun _ _ h => by cases h
    | error => exact .enters rfl rfl (sound_raised _ _) fun _ _ h => by cases h
  | publishing r manifest =>
    simp only [advance]
    cases hpublish : publishLibraryManifest pf s.catalog manifest r.actorId id now with
    | ok result =>
      obtain ⟨catalog, registered⟩ := result
      rcases publishLibraryManifest_eq_ok hpublish with
        ⟨rfl, library, row, rfl⟩ | ⟨row, hinsert, rfl⟩
      · exact .enters rfl rfl (fun _ hid => by cases hid) fun _ _ h => by cases h
      · exact .adds hinsert
    | error => exact .enters rfl rfl (sound_raised _ _) fun _ _ h => by cases h
  | resolving r =>
    simp only [advance]
    cases hany : s.proposals.any r.finds with
    | true => exact .resolves hany
    | false => exact .loses hany
  | ended => exact .stays

theorem nextStatus_ne_pending (r : ReviewRequest) : r.nextStatus ≠ .pending := by
  unfold ReviewRequest.nextStatus
  split <;> simp

/-- What a step of a call needs of a phase for every call to be sound. -/
theorem sound_set (hgrow : ∀ id, (catalog.get? id).isSome = true → (catalog'.get? id).isSome = true)
    (hcalls : ∀ p ∈ calls, p.Sound catalog) (hphase : phase.Sound catalog') :
    ∀ p ∈ calls.set i phase, p.Sound catalog' := by
  intro p hp
  rcases List.mem_or_eq_of_mem_set hp with hp | rfl
  · exact (hcalls p hp).mono hgrow
  · exact hphase

theorem consistent_moves (h : Consistent s) (hphase : phase ∈ s.calls)
    (hmoves : Moves s i id phase s') : Consistent s' := by
  have hkeep : ∀ id, (s.catalog.get? id).isSome = true → (s.catalog.get? id).isSome = true :=
    fun _ hid => hid
  cases hmoves with
  | enters hadded hadded' hsound =>
    exact ⟨sound_set hkeep h.sound hsound, h.nodup, h.resolved⟩
  | inserts hinsert =>
    refine ⟨sound_set hkeep h.sound (fun _ hid => by cases hid), h.nodup, ?_⟩
    intro resolvedId hid
    obtain ⟨p, hp, hstatus⟩ := h.resolved resolvedId hid
    exact ⟨p, Table.get?_insert_of_some hinsert hp, hstatus⟩
  | adds hinsert =>
    refine ⟨sound_set (fun other hother => ?_) h.sound ?_, h.nodup, h.resolved⟩
    · rw [Table.get?_insert hinsert]
      split
      · rfl
      · exact hother
    rintro _ ⟨⟩
    refine ⟨h.sound _ hphase, ?_⟩
    rw [Table.get?_insert hinsert, if_pos rfl]
    rfl
  | @resolves r library added now hany =>
    obtain ⟨k, p, hmem, hfinds⟩ := Table.any_eq_true.mp hany
    simp only [ReviewRequest.finds, Bool.and_eq_true, beq_iff_eq] at hfinds
    obtain ⟨⟨rfl, htenant⟩, hpending⟩ := hfinds
    refine ⟨sound_set hkeep h.sound ?_, ?_, ?_⟩
    · intro other hother
      obtain ⟨hpublishes, hpresent⟩ := h.sound _ hphase other hother
      refine ⟨?_, hpresent⟩
      simp [ReviewRequest.nextStatus, hpublishes]
    · refine List.nodup_cons.mpr ⟨fun hresolved => ?_, h.nodup⟩
      obtain ⟨q, hq, hstatus⟩ := h.resolved _ hresolved
      rw [hmem] at hq
      obtain rfl := Option.some.inj hq
      exact hstatus hpending
    · intro id hid
      rw [List.mem_cons] at hid
      rcases hid with rfl | hid
      · refine ⟨r.resolved library now p, ?_, nextStatus_ne_pending r⟩
        rw [Table.get?_update, hmem, Option.map_some, if_pos]
        simp [ReviewRequest.finds, htenant, hpending]
      · obtain ⟨q, hq, hstatus⟩ := h.resolved id hid
        rw [Table.get?_update, hq]
        refine ⟨_, rfl, ?_⟩
        dsimp only
        split
        · exact nextStatus_ne_pending r
        · exact hstatus
  | loses =>
    refine ⟨sound_set hkeep h.sound ?_, h.nodup, h.resolved⟩
    intro other hother
    exact ⟨by simp, (h.sound _ hphase other hother).2⟩
  | stays => exact h

theorem consistent_step (h : Consistent s) (a : ProposalStep) : Consistent (step pf s a) := by
  cases a with
  | call c =>
    refine ⟨fun phase hphase => ?_, h.nodup, h.resolved⟩
    rcases List.mem_append.mp hphase with hphase | hphase
    · exact h.sound phase hphase
    · rw [List.mem_singleton.mp hphase]
      exact sound_firstPhase s.catalog c
  | move i id now =>
    simp only [step]
    cases hphase : s.calls[i]? with
    | none => exact h
    | some phase =>
      exact consistent_moves h (List.mem_of_getElem? hphase) (moves_advance i id now phase)

theorem consistent_of_initial (h : Initial s) : Consistent s := by
  refine ⟨fun phase hphase => ?_, ?_, fun id hid => ?_⟩
  · rw [h.calls] at hphase
    cases hphase
  · rw [h.resolutions]
    exact List.nodup_nil
  · rw [h.resolutions] at hid
    cases hid

/-! ## What a step keeps -/

/-- The calls that raised or rejected their proposals added no item. -/
def NothingLeft (calls : List CallPhase) : Prop :=
  ∀ phase ∈ calls, phase.withdrawn = true → phase.added = none

/-- No user has more than twenty pending proposals. -/
def Bounded (proposals : Table Points LibraryProposal) : Prop :=
  ∀ tenantId ownerId, pendingCount proposals tenantId ownerId ≤ 20

/-- Where the calls are sound, reviews are atomic when nothing is left and the bound is kept. -/
theorem reviewsAtomic_iff (h : Consistent s) :
    ReviewsAtomic s ↔ NothingLeft s.calls ∧ Bounded s.proposals := by
  constructor
  · intro hatomic
    refine ⟨fun phase hphase hwithdrawn => ?_, hatomic.bounded⟩
    cases hadded : phase.added with
    | none => rfl
    | some id =>
      have habsent := hatomic.unpublished phase hphase hwithdrawn id hadded
      have hpresent : (s.catalog.get? id).isSome = true := by
        have hsound := h.sound phase hphase
        cases phase with
        | ended => exact (hsound id hadded).2
        | _ => cases hwithdrawn
      rw [habsent] at hpresent
      cases hpresent
  · rintro ⟨hnothing, hbounded⟩
    refine ⟨fun phase hphase hwithdrawn id hid => ?_, h.nodup, hbounded⟩
    rw [hnothing phase hphase hwithdrawn] at hid
    cases hid

theorem nothingLeft_set {phase' : CallPhase} (hphase : calls[i]? = some phase)
    (h : NothingLeft calls) :
    NothingLeft (calls.set i phase') ↔ (phase'.withdrawn = true → phase'.added = none) := by
  constructor
  · intro hall
    exact hall phase' (List.mem_set (List.getElem?_eq_some_iff.mp hphase).1 phase')
  · intro hphase' p hp
    rcases List.mem_or_eq_of_mem_set hp with hp | rfl
    · exact h p hp
    · exact hphase'

/-- An insertion counts for its user. -/
theorem pendingCount_insert {r : CreateRequest} {normalized : Fields}
    {proposals : Table Points LibraryProposal}
    (hinsert : s.proposals.insert? id (newProposal r normalized now) = some proposals)
    (tenantId ownerId : Points) :
    pendingCount proposals tenantId ownerId = pendingCount s.proposals tenantId ownerId +
        if r.tenantId = tenantId ∧ r.ownerId = ownerId then 1 else 0 := by
  obtain ⟨_, hentries⟩ := Table.insert?_eq_some hinsert
  simp only [pendingCount, Table.select, hentries, List.filter_append,
    List.length_append, List.filter_cons, List.filter_nil, isPendingOf, newProposal]
  congr 1
  by_cases huser : r.tenantId = tenantId ∧ r.ownerId = ownerId
  · simp [huser]
  · have hother : (r.tenantId == tenantId && r.ownerId == ownerId) = false := by
      simpa [not_and] using huser
    simp [huser, hother]

/-- A resolution leaves no more pending proposals than there were. -/
theorem pendingCount_update {library : Option Points} (tenantId ownerId : Points) :
    pendingCount (s.proposals.update r.finds fun _ => r.resolved library now) tenantId ownerId ≤
      pendingCount s.proposals tenantId ownerId := by
  simp only [pendingCount, Table.select, Table.update, List.filter_map,
    List.length_map]
  refine List.Sublist.length_le (List.monotone_filter_right _ fun e => ?_)
  simp only [Function.comp_apply]
  split
  · intro hpending
    simp only [isPendingOf, ReviewRequest.resolved, Bool.and_eq_true, beq_iff_eq] at hpending
    exact absurd hpending.2 (nextStatus_ne_pending r)
  · exact id

/-- A step of a call keeps reviews atomic exactly when it is guarded. -/
theorem kept_iff (h : Consistent s) (hphase : s.calls[i]? = some phase)
    (hmoves : Moves s i id phase s') (hnothing : NothingLeft s.calls)
    (hbounded : Bounded s.proposals) :
    NothingLeft s'.calls ∧ Bounded s'.proposals ↔ Guarded s (.move i id now) := by
  have hset {phase' : CallPhase} : NothingLeft (s.calls.set i phase') ↔
      (phase'.withdrawn = true → phase'.added = none) := nothingLeft_set hphase hnothing
  simp only [Guarded, hphase]
  cases hmoves with
  | enters hadded hadded' hsound hinserting =>
    refine ⟨fun _ => ?_, fun _ => ⟨hset.mpr fun _ => hadded', hbounded⟩⟩
    cases phase with
    | inserting r normalized => exact fun hnone => absurd hnone (hinserting r normalized rfl)
    | resolving r library added =>
      obtain rfl : added = none := hadded
      trivial
    | _ => trivial
  | @inserts r normalized now proposals hinsert =>
    have hcount := pendingCount_insert hinsert
    refine ⟨fun hkept _ => ?_, fun hguard => ⟨hset.mpr fun _ => rfl, fun tenantId ownerId => ?_⟩⟩
    · have hlimit := hkept.2 r.tenantId r.ownerId
      rw [hcount, if_pos ⟨rfl, rfl⟩] at hlimit
      omega
    · rw [hcount]
      split
      · rename_i huser
        obtain ⟨rfl, rfl⟩ := huser
        have := hguard (Table.insert?_eq_some hinsert).1
        omega
      · exact hbounded tenantId ownerId
  | adds =>
    refine ⟨fun _ => trivial, fun _ => ⟨hset.mpr fun hwithdrawn => ?_, hbounded⟩⟩
    cases hwithdrawn
  | @resolves r library added now hany =>
    constructor
    · intro _
      cases added with
      | none => trivial
      | some => exact hany
    · intro _
      refine ⟨hset.mpr fun hwithdrawn => ?_, fun tenantId ownerId => ?_⟩
      · cases added with
        | none => rfl
        | some added =>
          have hpublishes := (h.sound _ (List.mem_of_getElem? hphase) added rfl).1
          simp [CallPhase.withdrawn, ReviewRequest.nextStatus, hpublishes] at hwithdrawn
      · exact (pendingCount_update tenantId ownerId).trans (hbounded tenantId ownerId)
  | @loses r library added hany =>
    constructor
    · intro hkept
      cases added with
      | none => trivial
      | some => cases hset.mp hkept.1 rfl
    · intro hguard
      refine ⟨hset.mpr fun _ => ?_, hbounded⟩
      cases added with
      | none => rfl
      | some =>
        have hfound : s.proposals.any r.finds = true := hguard
        rw [hany] at hfound
        cases hfound
  | stays => exact ⟨fun _ => trivial, fun _ => ⟨hnothing, hbounded⟩⟩

theorem nothingLeft_call (c : ProposalCall) (h : NothingLeft calls) :
    NothingLeft (calls ++ [firstPhase pf c]) := by
  intro phase hphase hwithdrawn
  rcases List.mem_append.mp hphase with hphase | hphase
  · exact h phase hphase hwithdrawn
  · rw [List.mem_singleton.mp hphase]
    cases c with
    | create =>
      simp only [firstPhase]
      split <;> rfl
    | review =>
      simp only [firstPhase]
      split <;> rfl

/-- A step keeps reviews atomic exactly when it is guarded. -/
theorem reviewsAtomic_step_iff (h : Consistent s) (hatomic : ReviewsAtomic s) (a : ProposalStep) :
    ReviewsAtomic (step pf s a) ↔ Guarded s a := by
  obtain ⟨hnothing, hbounded⟩ := (reviewsAtomic_iff h).mp hatomic
  rw [reviewsAtomic_iff (consistent_step h a)]
  cases a with
  | call c => exact ⟨fun _ => trivial, fun _ => ⟨nothingLeft_call c hnothing, hbounded⟩⟩
  | move i id now =>
    cases hphase : s.calls[i]? with
    | none => simp [step, Guarded, hphase, hnothing, hbounded]
    | some phase =>
      have hstep : step pf s (.move i id now) = advance pf s i id now phase := by
        simp only [step, hphase]
      rw [hstep]
      exact kept_iff h hphase (moves_advance i id now phase) hnothing hbounded

end Invariants

/-- Reviews are atomic in every state of a run exactly when every step is guarded: an insertion
finds less than twenty pending proposals of its user, and a review that added an item finds its
proposal pending when it resolves it. -/
theorem reviews_atomic_iff {s : ProposalState} (h : Initial s) (steps : List ProposalStep) :
    (∀ before, before <+: steps → ReviewsAtomic (run (step pf) s before)) ↔
      Along (step pf) Guarded s steps := by
  have hstep : ∀ s a, Consistent s → Consistent (step pf s a) := fun s a hs =>
    consistent_step hs a
  have hiff : ∀ s a, Consistent s → ReviewsAtomic s → (ReviewsAtomic (step pf s a) ↔ Guarded s a) :=
    fun s a hs hatomic => reviewsAtomic_step_iff hs hatomic a
  have hinit : ReviewsAtomic s := by
    rw [reviewsAtomic_iff (consistent_of_initial h), h.calls, h.proposals]
    refine ⟨fun phase hphase => absurd hphase List.not_mem_nil, fun tenantId ownerId => ?_⟩
    exact Nat.zero_le 20
  exact forall_prefix_iff_along hstep hiff (consistent_of_initial h) hinit

/-- A review of the proposal `p` of a tenant. -/
def reviewOf (action : String) : ReviewRequest where
  proposalId := Points.ofString "p"
  tenantId := Points.ofString "t"
  action := Points.ofString action
  reason := Points.ofString "duplicate"
  actorId := Points.ofString "operator"

/-- Reviews of a proposal that there is not are atomic. -/
theorem reviewsAtomic_missing :
    Along (step (starterPlatform notesDigest)) Guarded { catalog := .empty }
        [.call (.review (reviewOf "publish")), .move 0 [] 0] ∧
      ∀ before, before <+: [.call (.review (reviewOf "publish")), .move 0 [] 0] →
        ReviewsAtomic (run (step (starterPlatform notesDigest)) { catalog := .empty } before) := by
  have halong : Along (step (starterPlatform notesDigest)) Guarded { catalog := .empty }
      [.call (.review (reviewOf "publish")), .move 0 [] 0] := ⟨trivial, trivial, trivial⟩
  exact ⟨halong, (reviews_atomic_iff _ ⟨rfl, rfl, rfl⟩ _).mpr halong⟩

/-! ## A review that is overtaken -/

/-- A call that raised or rejected its proposal left its item in the catalog. -/
def leavesItem (s : ProposalState) (i : ℕ) : Bool :=
  match s.calls[i]? with
  | some phase => phase.withdrawn && phase.added.any fun id => (s.catalog.get? id).isSome
  | none => false

theorem not_reviewsAtomic_of_leavesItem {s : ProposalState} {i : ℕ} (h : leavesItem s i = true) :
    ¬ReviewsAtomic s := by
  intro hatomic
  unfold leavesItem at h
  split at h
  · rename_i phase hphase
    obtain ⟨hwithdrawn, hadded⟩ := (Bool.and_eq_true _ _).mp h
    cases hid : phase.added with
    | none =>
      rw [hid] at hadded
      cases hadded
    | some id =>
      rw [hid, Option.any_some,
        hatomic.unpublished phase (List.mem_of_getElem? hphase) hwithdrawn id hid] at hadded
      cases hadded
  · cases h

/-- A proposal is rejected while another review is about to publish it. -/
def overtaken (manifest : Json) : List ProposalStep :=
  [.call (.create ⟨Points.ofString "t", Points.ofString "u", manifest⟩), .move 0 [] 0,
    .move 0 (Points.ofString "p") 0, .call (.review (reviewOf "publish")),
    .call (.review (reviewOf "reject")), .move 1 [] 0, .move 2 [] 0, .move 2 [] 0,
    .move 1 (Points.ofString "lib") 0, .move 1 [] 0]

/-- The review that publishes raises, and its item stays. -/
theorem not_reviewsAtomic_overtaken :
    Initial { catalog := .empty } ∧
      ¬ReviewsAtomic (run (step (starterPlatform notesDigest)) { catalog := .empty }
        (overtaken (.obj (starter "notes.md"
          "sha256:bdf674e89c8c426ef27bf0b7e68f1afa9ea04699f9c501ff299a82c9f29cb95b")))) := by
  refine ⟨⟨rfl, rfl, rfl⟩, not_reviewsAtomic_of_leavesItem (i := 1) ?_⟩
  unfold starter starterActivation starterBundle starterEntry textField
  repeat rw [Points.ofString_ofList]
  decide +kernel

end GlassHive.LibraryProposals
