import GlassHive.LibraryCatalog
import GlassHive.ManifestFiles
import GlassHive.Library.Walks

/-!
# Libraries of templates

A template of a workspace refers to library items. Before it is used, its items and what they depend
on are listed for approval; an installation plans the same items anew. The items are found by their
pinned versions in the catalog, in which a pinned version is unique.

How deep the calls of an installation are nested is not limited here.
-/

namespace GlassHive.TemplateApprovals

open Relational LibraryManifests LibraryCatalog
open RunActions (get truthy isText)
open Json (Fields keysAre getOr)
open Fallible (demand bind_eq_ok demand_bind_eq_ok demand_eq_ok map_eq_ok)
open Walks (Planner listing)

/-- What a version is pinned by: `stable_id`, `version` and `content_hash`. -/
abbrev Identity := Points × Points × Points

/-- A row with its `library_id`. -/
abbrev Item := Points × LibraryRow

def identityOf (item : Item) : Identity :=
  (item.2.stableId, item.2.version, item.2.contentHash)

/-- The catalog with its unique pinned versions. -/
structure PinnedCatalog where
  rows : Catalog
  unique : (rows.entries.map identityOf).Nodup

/-- The available item with an identifier. -/
def availableItem (rows : Catalog) (libraryId : Points) : Option Item :=
  (rows.select fun id row => id == libraryId && row.status == .available).head?

variable (pf : Platform)

/-! ## Columns -/

/-- What a column of JSON yields when it is iterated. -/
def columnItems (t : Points) : Except CatalogFailure (List Json) := do
  let value ← parseJson pf t (.arr [])
  checked (iterated value) .error

/-- The texts of a column, stripped, sorted and each of them once. -/
def columnTexts (t : Points) : Except CatalogFailure (List Points) := do
  let items ← columnItems pf t
  return sortedSet ((items.map fun v => Points.strip (text pf v)).filter fun t => !t.isEmpty)

/-- The column of the provenance is what the manifest tells of its origin. -/
def isProvenance (stored : Json) (p : Provenance) : Bool :=
  match stored with
  | .obj fields =>
    keysAre fields ["source", "publisher", "revision"] && isText (get fields "source") p.source &&
      isText (get fields "publisher") p.publisher && isText (get fields "revision") p.revision
  | _ => false

/-- What is shown of an item before it is confirmed. -/
structure Snapshot where
  libraryId : Points
  stableId : Points
  version : Points
  contentHash : Points
  provenance : Provenance
  supportedProfiles : List Points
  allowedScopes : List Points
  displayLabel : Points
  manifestSha256 : Points
  activationSha256 : Points

/-- The label of an item. -/
def displayLabel (normalized : Fields) (stableId : Points) : Points :=
  let label := get normalized "label"
  let name := get normalized "name"
  (if truthy pf.py label then text pf label
    else if truthy pf.py name then text pf name
    else stableId).take 200

/-- `_library_confirmation_snapshot`. -/
def libraryConfirmationSnapshot (item : Item) : Except CatalogFailure Snapshot := do
  let row := item.2
  let manifest ← parseJson pf row.manifestJson (.obj [])
  let (found, normalized) ← checked (validated pf manifest) fun message =>
    .conflict (Points.ofString "Library manifest integrity check failed: " ++ message)
  let same ← LibraryCatalog.compareDigest row.contentHash found.contentHash
  ensure same (conflictOf "Library content integrity check failed")
  let storedProvenance ← parseJson pf row.provenance (.obj [])
  let storedProfiles ← columnTexts pf row.supportedProfilesJson
  let storedScopes ← columnTexts pf row.scopesJson
  ensure (row.stableId == found.stableId && row.version == found.version &&
      isProvenance storedProvenance found.provenance &&
      storedProfiles == found.supportedProfiles && storedScopes == found.requestedScopes)
    (conflictOf "Library registry metadata integrity check failed")
  let manifestSha256 ← checked (libraryContentHash pf (.obj normalized)) .error
  let activationSha256 ← checked (libraryContentHash pf (.obj found.activation)) .error
  return {
    libraryId := item.1
    stableId := row.stableId
    version := row.version
    contentHash := row.contentHash
    provenance := found.provenance
    supportedProfiles := storedProfiles
    allowedScopes := storedScopes
    displayLabel := displayLabel pf normalized row.stableId
    manifestSha256
    activationSha256 }

/-- `activation_bundle_for_profile`, of a manifest with what was found in it. -/
def bundleForProfile (found : Checked) (profile : Points) : Except Refusal Fields := do
  LibraryManifests.require (found.supportedProfiles.contains profile)
    "Library item is incompatible with this workspace profile"
  activationBundleForProfile found.activation profile

/-- The bundle of a manifest for a profile, or else for its first one. -/
def activatedBundle (manifest : Json) (profile : Option Points) : Except Refusal Fields := do
  let (_, normalized) ← validated pf manifest
  let (found, _) ← validated pf (.obj normalized)
  match (profile.filter fun p => !p.isEmpty).or found.supportedProfiles.head? with
  | some profile => bundleForProfile found profile
  | none => .error .uncaught

/-- `_library_activation`. -/
def libraryActivation (manifest : Json) (profile : Option Points) :
    Except CatalogFailure (Option Fields) :=
  match activatedBundle pf manifest profile with
  | .ok bundle => .ok (some bundle)
  | .error (.manifest _) => .ok none
  | .error .uncaught => .error .uncaught

/-! ## Approvals -/

/-- What is listed for approval. -/
structure Approval where
  libraryId : Points
  stableId : Points
  version : Points
  contentHash : Points
  scopes : List Points
  approvalRequired : Bool := true

/-- What a reference or a dependency is pinned to. -/
def pinned (requested : Fields) : Identity :=
  (stripped pf (get requested "stable_id"), stripped pf (get requested "version"),
    stripped pf (get requested "content_hash"))

/-- The row that is asked for, by its identifier when there is one. -/
def lookUp (rows : Catalog) (requested : Fields) : Option Item :=
  let libraryId := stripped pf (get requested "library_id")
  let (stableId, version, contentHash) := pinned pf requested
  if libraryId.isEmpty then availablePinned rows stableId version contentHash
  else availableItem rows libraryId

/-- The item that is asked for. -/
def requestedItem (rows : Catalog) (requested : Json) : Except CatalogFailure Item :=
  match requested with
  | .obj fields =>
    match lookUp pf rows fields with
    | none => .error (errorOf "Required Library version is no longer available")
    | some item => do
      ensure (identityOf item == pinned pf fields)
        (conflictOf "Required Library version or content hash changed")
      return item
  | _ => .error (errorOf "Workspace template Library reference is invalid")

/-- The scopes that a reference or a dependency asks for. -/
def requestedScopes (requested : Json) : Except CatalogFailure (List Points) := do
  let fields := match requested with | .obj fields => fields | _ => []
  let listed ← checked (iterated (getOr fields "scopes" (.arr []))) .error
  return sortedSet ((listed.map (text pf)).filter fun t => !t.isEmpty)

/-- The dependencies of a manifest, as they are stored. -/
def storedDependencies (manifest : Json) : Except CatalogFailure (List Json) :=
  match manifest with
  | .obj fields =>
    match getOr fields "dependencies" (.arr []) with
    | .arr dependencies => .ok dependencies
    | _ => .error (errorOf "Library dependency metadata is invalid")
  | _ => .ok []

/-- The scopes that are listed for an item: those asked for, or else all that are allowed. -/
def scopesOr (scopes allowed : List Points) : List Points :=
  if scopes.isEmpty then sortedSet allowed else scopes

/-- The approval of an item that is asked for, and what its manifest asks for. -/
def approve (profile : Points) (requested : Json) (item : Item) :
    Except CatalogFailure (Approval × List Json) := do
  let (libraryId, row) := item
  let supported ← columnItems pf row.supportedProfilesJson
  ensure (supported.isEmpty || (supported.map (text pf)).contains profile)
    (errorOf "Required Library version is incompatible with this worker profile")
  let items ← columnItems pf row.scopesJson
  let allowed := items.map (text pf)
  let scopes ← requestedScopes pf requested
  ensure (scopes.all allowed.contains)
    (conflictOf "Required Library scopes exceed the approved version")
  let manifest ← parseJson pf row.manifestJson (.obj [])
  let activation ← libraryActivation pf manifest none
  ensure activation.isSome (errorOf "Required Library version is not activatable")
  let dependencies ← storedDependencies manifest
  return ({
    libraryId
    stableId := row.stableId
    version := row.version
    contentHash := row.contentHash
    scopes := scopesOr scopes allowed }, dependencies)

/-- `validate_workspace_template_libraries`. It ends within a step for each reference and for each
dependency that an item may have. -/
def validateWorkspaceTemplateLibraries (rows : Catalog) (profile : Points)
    (libraryRefs : List Json) : Except (Option CatalogFailure) (List Approval) :=
  listing (requestedItem pf rows) identityOf (approve pf profile)
    (libraryRefs.length + 32 * rows.entries.length + 1) libraryRefs []

/-! ## Plans -/

/-- What an installation visits: the item that is installed, or a dependency. -/
inductive Visit
  | root (libraryId : Points)
  | dependency (d : Dependency)

/-- What a visit finds: the row, its manifest as it was validated, and the scopes that are asked
for, or all those of the manifest. -/
structure Node where
  item : Item
  found : Checked
  normalized : Fields
  scopes : List Points

/-- The row that is visited, and the scopes that are asked for. -/
def visitedRow (rows : Catalog) : Visit → Except CatalogFailure (Item × Option (List Points))
  | .root libraryId =>
    match availableItem rows libraryId with
    | none => .error (errorOf "Library item is not available")
    | some item => .ok (item, none)
  | .dependency d =>
    match availablePinned rows d.stableId d.version d.contentHash with
    | none => .error (.error (Points.ofString "Required Library dependency " ++ d.stableId ++
        32 :: d.version ++ Points.ofString " is unavailable"))
    | some item => .ok (item, some d.scopes)

/-- The checks of a visit before it looks at what was visited. -/
def look (rows : Catalog) (v : Visit) : Except CatalogFailure Node := do
  let (item, scopes) ← visitedRow rows v
  let manifest ← parseJson pf item.2.manifestJson (.obj [])
  let (found, normalized) ← checked (validated pf manifest) fun message =>
    .conflict (Points.ofString "Library manifest changed since review or is invalid: " ++ message)
  let same ← LibraryCatalog.compareDigest item.2.contentHash found.contentHash
  ensure same (conflictOf "Library content integrity check failed")
  return { item, found, normalized, scopes := sortedSet (scopes.getD found.requestedScopes) }

/-- The visits that come before an item. -/
def dependencies (profile : Points) (n : Node) : Except CatalogFailure (List Visit) := do
  ensure (n.found.supportedProfiles.contains profile)
    (errorOf "Library item is not compatible with this workspace profile")
  return n.found.dependencies.map .dependency

/-- The snapshot of an item that is planned. -/
def close (n : Node) : Except CatalogFailure Snapshot := do
  ensure (n.scopes.all n.found.requestedScopes.contains)
    (conflictOf "Library dependency scopes exceed its published manifest")
  libraryConfirmationSnapshot pf n.item

/-- `visit`. -/
def planner (rows : Catalog) (profile : Points) :
    Planner Visit Node Identity (List Points) Snapshot CatalogFailure where
  look := look pf rows
  key n := (n.found.stableId, n.found.version, n.found.contentHash)
  label := Node.scopes
  children := dependencies profile
  close := close pf
  cycle := conflictOf "Library dependency cycle detected"
  inconsistent := conflictOf
    "Library dependency graph requests inconsistent scopes for the same pinned version"

/-- `_library_install_plan`. Its visits are nested at most as deep as there are items. -/
def libraryInstallPlan (rows : Catalog) (libraryId profile : Points) :
    Except (Option CatalogFailure) (List (Node × Snapshot)) :=
  (planner pf rows profile).visit (rows.entries.length + 1) [] [] (.root libraryId)

/-! ## Agreement -/

/-- An installation of the item of a reference plans some items. -/
def Plans (rows : Catalog) (profile : Points) (ref : Json) (item : Item)
    (plan : List (Node × Snapshot)) : Prop :=
  requestedItem pf rows ref = .ok item ∧ libraryInstallPlan pf rows item.1 profile = .ok plan

/-- Every reference can be planned. What is listed for approval are the items of these plans, each
of them once, and every dependency is listed with the scopes with which it is planned. -/
structure PlansAgree (rows : Catalog) (profile : Points) (libraryRefs : List Json)
    (approvals : List Approval) : Prop where
  planned : ∀ ref ∈ libraryRefs, ∃ item plan, Plans pf rows profile ref item plan
  items : ∀ libraryId, libraryId ∈ approvals.map Approval.libraryId ↔
    ∃ ref ∈ libraryRefs, ∃ item plan, Plans pf rows profile ref item plan ∧
      libraryId ∈ plan.map fun e => e.1.item.1
  once : (approvals.map Approval.libraryId).Nodup
  scopes : ∀ ref ∈ libraryRefs, ∀ item plan, Plans pf rows profile ref item plan →
    ∀ e ∈ plan, e.1.item.1 ≠ item.1 → ∀ a ∈ approvals, a.libraryId = e.1.item.1 →
      a.scopes = e.1.scopes

/-- What is found in the manifest of an item. -/
def manifestOf (item : Item) : Option Checked :=
  match parseJson pf item.2.manifestJson (.obj []) with
  | .ok manifest => (validated pf manifest).toOption.map (·.1)
  | .error _ => none

/-- What a stored dependency is pinned to. -/
def storedPin (value : Json) : Identity :=
  match value with
  | .obj fields => pinned pf fields
  | _ => default

/-- What the dependencies of an item are pinned to as they are stored. -/
def storedPins (item : Item) : List Identity :=
  match parseJson pf item.2.manifestJson (.obj []) >>= storedDependencies with
  | .ok values => values.map (storedPin pf)
  | .error _ => []

/-- What a dependency is pinned to. -/
def pinOf (d : Dependency) : Identity :=
  (d.stableId, d.version, d.contentHash)

/-- The columns of an item tell what its manifest does. -/
structure Registered (item : Item) (found : Checked) : Prop where
  identity : identityOf item = (found.stableId, found.version, found.contentHash)
  provenance : ∃ stored, parseJson pf item.2.provenance (.obj []) = .ok stored ∧
    isProvenance stored found.provenance = true
  profiles : columnTexts pf item.2.supportedProfilesJson = .ok found.supportedProfiles
  scopes : columnTexts pf item.2.scopesJson = .ok found.requestedScopes

/-- An item with the columns of its manifest, which supports a profile and whose dependencies are
stored under the pins with which they are validated. -/
structure Intact (profile : Points) (item : Item) (found : Checked) : Prop where
  manifest : manifestOf pf item = some found
  registered : Registered pf item found
  supported : profile ∈ found.supportedProfiles
  pins : storedPins pf item = found.dependencies.map pinOf

/-- An item depends on another by a dependency of its manifest. -/
def DependsBy (rows : Catalog) (item : Item) (d : Dependency) (other : Item) : Prop :=
  ∃ found, manifestOf pf item = some found ∧ d ∈ found.dependencies ∧
    availablePinned rows d.stableId d.version d.contentHash = some other

def DependsOn (rows : Catalog) (item other : Item) : Prop :=
  ∃ d, DependsBy pf rows item d other

/-- The items of some references, and what they depend on. -/
inductive Needed (rows : Catalog) (libraryRefs : List Json) : Item → Prop
  | reference {ref : Json} {item : Item} : ref ∈ libraryRefs →
    requestedItem pf rows ref = .ok item → Needed rows libraryRefs item
  | dependency {item other : Item} : Needed rows libraryRefs item →
    DependsOn pf rows item other → Needed rows libraryRefs other

/-- The first reference to an item. -/
def firstReference (rows : Catalog) (libraryRefs : List Json) (item : Item) : Option Json :=
  libraryRefs.find? (Walks.finds (fun r => (requestedItem pf rows r).map identityOf)
    (identityOf item))

/-- The scopes that the column of an item allows. -/
def allowedScopes (item : Item) : List Points :=
  match columnItems pf item.2.scopesJson with
  | .ok items => items.map (text pf)
  | .error _ => []

/-- The scopes that the first reference to an item asks for, or else those of a dependency. -/
def firstScopes (rows : Catalog) (libraryRefs : List Json) (d : Dependency) (item : Item) :
    List Points :=
  match firstReference pf rows libraryRefs item with
  | some ref => (requestedScopes pf ref).toOption.getD []
  | none => d.scopes

/-- Items that can be installed with what is listed for them: they are intact and none depends on
itself. The dependencies on one of them ask for the same scopes, which are those of its first
reference, if there is one. Where that asks for none, they are all that the item allows. -/
structure Consistent (rows : Catalog) (profile : Points) (libraryRefs : List Json) : Prop where
  intact : ∀ item, Needed pf rows libraryRefs item → ∃ found, Intact pf profile item found
  acyclic : ∀ item, Needed pf rows libraryRefs item →
    ¬Relation.TransGen (DependsOn pf rows) item item
  listed : ∀ item d other, Needed pf rows libraryRefs item → DependsBy pf rows item d other →
    d.scopes = scopesOr (firstScopes pf rows libraryRefs d other) (allowedScopes pf other)
  agree : ∀ item item' d d' other, Needed pf rows libraryRefs item →
    Needed pf rows libraryRefs item' → DependsBy pf rows item d other →
    DependsBy pf rows item' d' other → d.scopes = d'.scopes

variable {pf} {rows : Catalog} {catalog : PinnedCatalog} {profile stableId t : Points}
  {libraryRefs : List Json} {item other : Item} {key : String} {v : Visit} {n : Node}
  {p : Points → LibraryRow → Bool} {requested default : Json} {dependencyIds : List Points}

/-! ## Items -/

/-- An item that can be found. -/
def Available (rows : Catalog) (item : Item) : Prop :=
  item ∈ rows.entries ∧ item.2.status = .available

theorem head?_select_eq_some (h : (rows.select p).head? = some item) :
    item ∈ rows.entries ∧ p item.1 item.2 = true :=
  List.mem_filter.mp (List.mem_of_head? h)

/-- The only row that satisfies a predicate is found by it. -/
theorem head?_select_of_unique (hmem : item ∈ rows.entries) (hp : p item.1 item.2 = true)
    (hunique : ∀ e ∈ rows.entries, p e.1 e.2 = true → e = item) :
    (rows.select p).head? = some item := by
  have hne : rows.select p ≠ [] := List.ne_nil_of_mem (List.mem_filter.mpr ⟨hmem, hp⟩)
  rw [List.head?_eq_some_head hne]
  obtain ⟨he, hpe⟩ := head?_select_eq_some (List.head?_eq_some_head hne)
  rw [hunique _ he hpe]

/-- A pinned version is the version of one item. -/
theorem PinnedCatalog.eq_of_identity (hitem : item ∈ catalog.rows.entries)
    (hother : other ∈ catalog.rows.entries) (h : identityOf item = identityOf other) :
    item = other :=
  List.inj_on_of_nodup_map catalog.unique hitem hother h

theorem eq_of_libraryId (hitem : item ∈ rows.entries) (hother : other ∈ rows.entries)
    (h : item.1 = other.1) : item = other :=
  List.inj_on_of_nodup_map rows.nodup hitem hother h

theorem availablePinned_eq_some_iff {version contentHash : Points} :
    availablePinned catalog.rows stableId version contentHash = some item ↔
      Available catalog.rows item ∧ identityOf item = (stableId, version, contentHash) := by
  have hiff : ∀ e : Item, (e.2.stableId == stableId && e.2.version == version &&
      e.2.contentHash == contentHash && e.2.status == .available) = true ↔
      identityOf e = (stableId, version, contentHash) ∧ e.2.status = .available := by
    intro e
    simp only [identityOf, Bool.and_eq_true, beq_iff_eq, Prod.mk.injEq, and_assoc]
  constructor
  · intro h
    obtain ⟨hmem, hp⟩ := head?_select_eq_some h
    obtain ⟨hidentity, hstatus⟩ := (hiff item).mp hp
    exact ⟨⟨hmem, hstatus⟩, hidentity⟩
  · rintro ⟨⟨hmem, hstatus⟩, hidentity⟩
    refine head?_select_of_unique hmem ((hiff item).mpr ⟨hidentity, hstatus⟩) fun e he hpe => ?_
    exact catalog.eq_of_identity he hmem (((hiff e).mp hpe).1.trans hidentity.symm)

theorem availableItem_eq_some_iff {libraryId : Points} :
    availableItem rows libraryId = some item ↔ Available rows item ∧ item.1 = libraryId := by
  have hiff : ∀ e : Item, (e.1 == libraryId && e.2.status == .available) = true ↔
      e.1 = libraryId ∧ e.2.status = .available := by
    intro e
    simp only [Bool.and_eq_true, beq_iff_eq]
  constructor
  · intro h
    obtain ⟨hmem, hp⟩ := head?_select_eq_some h
    obtain ⟨hid, hstatus⟩ := (hiff item).mp hp
    exact ⟨⟨hmem, hstatus⟩, hid⟩
  · rintro ⟨⟨hmem, hstatus⟩, hid⟩
    refine head?_select_of_unique hmem ((hiff item).mpr ⟨hid, hstatus⟩) fun e he hpe => ?_
    exact eq_of_libraryId he hmem (((hiff e).mp hpe).1.trans hid.symm)

theorem available_of_requestedItem (h : requestedItem pf catalog.rows requested = .ok item) :
    Available catalog.rows item := by
  unfold requestedItem at h
  split at h
  · split at h
    · cases h
    · rename_i hlook
      obtain ⟨_, h⟩ := demand_bind_eq_ok.mp h
      obtain rfl := Except.ok.inj h
      unfold lookUp at hlook
      dsimp only at hlook
      split at hlook
      · exact (availablePinned_eq_some_iff.mp hlook).1
      · exact (availableItem_eq_some_iff.mp hlook).1
  · cases h

variable {found : Checked} {fields : Fields} {manifest : Json} {normalized : Fields}

/-- What is asked for has the pins that are asked for. -/
theorem pinned_of_requestedItem (h : requestedItem pf rows (.obj fields) = .ok item) :
    lookUp pf rows fields = some item ∧ identityOf item = pinned pf fields := by
  unfold requestedItem at h
  dsimp only at h
  split at h
  · cases h
  · rename_i hlook
    obtain ⟨hidentity, h⟩ := demand_bind_eq_ok.mp h
    obtain rfl := Except.ok.inj h
    exact ⟨hlook, eq_of_beq hidentity⟩

theorem requestedItem_of_lookUp (hlook : lookUp pf rows fields = some item)
    (hpinned : identityOf item = pinned pf fields) :
    requestedItem pf rows (.obj fields) = .ok item := by
  unfold requestedItem
  dsimp only
  rw [hlook]
  exact demand_bind_eq_ok.mpr ⟨beq_iff_eq.mpr hpinned, rfl⟩

/-! ## Dependencies -/

/-- A stored dependency that is validated has no identifier, so that it is looked up by its pins. -/
structure StoredAs (pf : Platform) (value : Json) (d : Dependency) : Prop where
  isObject : ∃ fields, value = .obj fields ∧ stripped pf (get fields "library_id") = []
  scopes : requestedScopes pf value = .ok d.scopes
  areScopes : ∀ t ∈ d.scopes, LibraryManifests.isScope t = true
  settled : ∀ fields, value = .obj fields → lower (pinned pf fields).1 = d.stableId ∧
    (pinned pf fields).2.1 = d.version ∧ lower (pinned pf fields).2.2 = d.contentHash

theorem isScope_ne_nil (h : LibraryManifests.isScope t = true) : t ≠ [] := by
  rintro rfl
  cases h

theorem get_eq_null_of_keysAre {keys : List String} (h : keysAre fields keys = true)
    (hkey : ∀ k ∈ keys, Points.ofString k ≠ Points.ofString key) : get fields key = .null := by
  have hlookup : fields.lookup (Points.ofString key) = none := by
    rw [← Option.not_isSome_iff_eq_none, Json.isSome_lookup, Bool.not_eq_true, List.any_eq_false]
    intro f hf hbeq
    simp only [keysAre, Json.keysWithin, Bool.and_eq_true, List.all_eq_true, List.any_eq_true] at h
    obtain ⟨k, hk, hfk⟩ := h.2 f hf
    exact hkey k hk ((eq_of_beq hfk).symm.trans (eq_of_beq hbeq))
  rw [RunActions.get, hlookup]
  rfl

theorem getOr_eq_get (h : get fields key ≠ .null) : getOr fields key default = get fields key := by
  unfold getOr RunActions.get at *
  cases hlookup : fields.lookup (Points.ofString key) with
  | none => exact absurd (by rw [hlookup]; rfl) h
  | some => rfl

theorem getOr_of_get_arr {items : List Json} (h : get fields key = .arr items) :
    getOr fields key default = .arr items := by
  rw [getOr_eq_get (by simp [h]), h]

theorem validateDependency_eq_ok {value : Json} {d : Dependency}
    (h : validateDependency pf stableId dependencyIds value = .ok d) : StoredAs pf value d := by
  cases value with
  | obj fields =>
    simp only [validateDependency, LibraryManifests.require, demand_bind_eq_ok] at h
    obtain ⟨hkeys, _, _, _, h⟩ := h
    split at h
    · rename_i scopes hscopes
      obtain ⟨hall, h⟩ := demand_bind_eq_ok.mp h
      obtain rfl := Except.ok.inj h
      constructor
      · refine ⟨fields, rfl, ?_⟩
        rw [get_eq_null_of_keysAre hkeys (by decide)]
        rfl
      · have hget : getOr fields "scopes" (.arr []) = .arr scopes := getOr_of_get_arr hscopes
        have hne : ∀ t ∈ scopes.map (text pf), (!t.isEmpty) = true := by
          intro t ht
          have := isScope_ne_nil (List.all_eq_true.mp hall t ht)
          simpa using this
        rw [requestedScopes]
        dsimp only
        rw [hget]
        change Except.ok (sortedSet ((scopes.map (text pf)).filter fun t => !t.isEmpty)) = _
        rw [List.filter_eq_self.mpr hne]
      · intro t ht
        exact List.all_eq_true.mp hall t (mem_sortedSet.mp ht)
      · rintro fields' hfields
        obtain rfl := Json.obj.inj hfields
        exact ⟨rfl, rfl, rfl⟩
    · cases h
  | _ => cases h

theorem validateDependencies_eq_ok {values : List Json} {ds : List Dependency}
    (h : validateDependencies pf stableId dependencyIds values = .ok ds) :
    List.Forall₂ (StoredAs pf) values ds := by
  induction values generalizing dependencyIds ds with
  | nil =>
    obtain rfl := Except.ok.inj h
    exact .nil
  | cons value values ih =>
    obtain ⟨d, hd, h⟩ := bind_eq_ok.mp h
    obtain ⟨rest, hrest, h⟩ := bind_eq_ok.mp h
    obtain rfl := Except.ok.inj h
    exact .cons (validateDependency_eq_ok hd) (ih hrest)

/-- The dependencies of a validated manifest as they are stored, of which there are few. -/
theorem storedDependencies_of_validated (h : validated pf manifest = .ok (found, normalized)) :
    ∃ values, storedDependencies manifest = .ok values ∧ values.length ≤ 32 ∧
      List.Forall₂ (StoredAs pf) values found.dependencies := by
  obtain ⟨fields, rfl, _, _, hfinds, _⟩ := validated_eq_ok.mp h
  have hlist := hfinds.dependencies
  unfold listDependencies at hlist
  split at hlist
  · rename_i values hvalues
    simp only [LibraryManifests.require, demand_bind_eq_ok, decide_eq_true_eq] at hlist
    refine ⟨values, ?_, hlist.1, validateDependencies_eq_ok hlist.2⟩
    rw [storedDependencies, getOr_of_get_arr hvalues]
  · cases hlist

theorem manifestOf_eq_some :
    manifestOf pf item = some found ↔ ∃ manifest normalized,
      parseJson pf item.2.manifestJson (.obj []) = .ok manifest ∧
        validated pf manifest = .ok (found, normalized) := by
  unfold manifestOf
  split
  · rename_i manifest hmanifest
    cases hvalid : validated pf manifest with
    | error => simp [hmanifest, hvalid, Except.toOption]
    | ok => simp [hmanifest, hvalid, Except.toOption, Prod.ext_iff]
  · rename_i hmanifest
    simp [hmanifest]

theorem checked_eq_ok {α : Type} {result : Except Refusal α} {failure : Points → CatalogFailure}
    {a : α} : checked result failure = .ok a ↔ result = .ok a := by
  unfold checked
  split <;> simp

/-! ## Approvals -/

/-- What an approval lists of an item, and what is asked for then. -/
structure Approves (pf : Platform) (requested : Json) (item : Item) (a : Approval)
    (more : List Json) : Prop where
  libraryId : a.libraryId = item.1
  scopes : ∃ scopes, requestedScopes pf requested = .ok scopes ∧
    (∀ t ∈ scopes, t ∈ allowedScopes pf item) ∧ a.scopes = scopesOr scopes (allowedScopes pf item)
  manifest : ∃ found, manifestOf pf item = some found ∧ more.length ≤ 32 ∧
    List.Forall₂ (StoredAs pf) more found.dependencies
  pins : storedPins pf item = more.map (storedPin pf)

theorem libraryActivation_eq_some {profile : Option Points} {bundle : Fields}
    (h : libraryActivation pf manifest profile = .ok (some bundle)) :
    ∃ found normalized, validated pf manifest = .ok (found, normalized) := by
  unfold libraryActivation at h
  split at h
  · rename_i hactivated
    obtain ⟨⟨found, normalized⟩, hvalid, _⟩ := bind_eq_ok.mp hactivated
    exact ⟨found, normalized, hvalid⟩
  · cases h
  · cases h

/-- A validated manifest can be activated. -/
theorem exists_activation (h : validated pf manifest = .ok (found, normalized)) :
    ∃ bundle, libraryActivation pf manifest none = .ok (some bundle) := by
  obtain ⟨fields, _, _, _, hfinds, _⟩ := validated_eq_ok.mp h
  obtain ⟨profiles, hclean, _, hvalid, hsorted⟩ := hfinds.profiles
  obtain ⟨_, _, _, hbundles⟩ := validateActivation_eq_ok.mp hvalid
  have hne : found.supportedProfiles ≠ [] := by
    intro hnil
    have hlength := List.length_insertionSort (· ≤ ·) profiles
    rw [← sortedTexts, ← hsorted, hnil] at hlength
    obtain rfl := List.length_eq_zero_iff.mp hlength.symm
    unfold cleanStrings at hclean
    split at hclean
    · rename_i value rest _
      have hmem : stripped pf value ∈ ([] : List Points) := by
        rw [(cleanInto_eq_ok.mp hclean).1]
        exact List.mem_append_right _ List.mem_cons_self
      exact absurd hmem List.not_mem_nil
    · cases hclean
  obtain ⟨first, rest, hfirst⟩ := List.exists_cons_of_ne_nil hne
  have hmem : first ∈ found.supportedProfiles := hfirst ▸ List.mem_cons_self
  obtain ⟨bundle, hbundle, _⟩ := hbundles first (mem_sortedTexts.mp (hsorted ▸ hmem))
  have hforProfile : bundleForProfile found first = .ok bundle :=
    demand_bind_eq_ok.mpr ⟨List.contains_iff_mem.mpr hmem, hbundle⟩
  have hactivated : activatedBundle pf manifest none = .ok bundle := by
    refine bind_eq_ok.mpr ⟨_, h, bind_eq_ok.mpr ⟨_, validated_normalized h, ?_⟩⟩
    dsimp only
    rw [hfirst]
    exact hforProfile
  refine ⟨bundle, ?_⟩
  rw [libraryActivation, hactivated]

theorem approve_eq_ok {a : Approval} {more : List Json}
    (h : approve pf profile requested item = .ok (a, more)) :
    Approves pf requested item a more := by
  obtain ⟨supported, _, h⟩ := bind_eq_ok.mp h
  obtain ⟨_, h⟩ := demand_bind_eq_ok.mp h
  obtain ⟨items, hitems, h⟩ := bind_eq_ok.mp h
  obtain ⟨scopes, hscopes, h⟩ := bind_eq_ok.mp h
  obtain ⟨hsubset, h⟩ := demand_bind_eq_ok.mp h
  obtain ⟨manifest, hmanifest, h⟩ := bind_eq_ok.mp h
  obtain ⟨activation, hactivation, h⟩ := bind_eq_ok.mp h
  obtain ⟨hsome, h⟩ := demand_bind_eq_ok.mp h
  obtain ⟨values, hvalues, h⟩ := bind_eq_ok.mp h
  obtain ⟨rfl, rfl⟩ := Prod.mk.inj (Except.ok.inj h)
  obtain ⟨bundle, rfl⟩ := Option.isSome_iff_exists.mp hsome
  obtain ⟨found, normalized, hvalid⟩ := libraryActivation_eq_some hactivation
  obtain ⟨values', hvalues', hlength, hstored⟩ := storedDependencies_of_validated hvalid
  obtain rfl := Except.ok.inj (hvalues.symm.trans hvalues')
  have hallowed : allowedScopes pf item = items.map (text pf) := by
    rw [allowedScopes, hitems]
  refine ⟨rfl, ⟨scopes, hscopes, fun t ht => ?_, ?_⟩, ⟨found, ?_, hlength, hstored⟩, ?_⟩
  · rw [hallowed]
    exact List.contains_iff_mem.mp (List.all_eq_true.mp hsubset t ht)
  · rw [hallowed]
  · exact manifestOf_eq_some.mpr ⟨manifest, normalized, hmanifest, hvalid⟩
  · rw [storedPins, bind_eq_ok.mpr ⟨manifest, hmanifest, hvalues⟩]

/-! ## Nodes -/

theorem compareDigest_eq_ok {a b : Points} {same : Bool}
    (h : LibraryCatalog.compareDigest a b = .ok same) : same = (a == b) := by
  unfold LibraryCatalog.compareDigest at h
  split at h
  · exact (Except.ok.inj h).symm
  · cases h

theorem compareDigest_self (h : ∀ c ∈ t, c < 128) :
    LibraryCatalog.compareDigest t t = .ok true := by
  have hall : t.all (· < 128) = true := by simpa using h
  rw [LibraryCatalog.compareDigest, hall, beq_self_eq_true]
  rfl

theorem lt_of_mem_libraryContentHash {activation : Json}
    (h : libraryContentHash pf activation = .ok t) : ∀ c ∈ t, c < 128 := by
  unfold libraryContentHash at h
  split at h
  · cases h
  · obtain rfl := Except.ok.inj h
    have hstart : ∀ c ∈ Points.ofString "sha256:", c < 128 := by decide
    have hdigit : ∀ n < 16, Json.hexDigit n < 128 := by decide
    intro c hc
    rcases List.mem_append.mp hc with hc | hc
    · exact hstart c hc
    · obtain ⟨b, _, hb⟩ := List.mem_flatMap.mp hc
      have hbyte : b.toNat < 256 := UInt8.toNat_lt b
      rcases List.mem_pair.mp hb with rfl | rfl
      · exact hdigit _ (by omega)
      · exact hdigit _ (by omega)

/-- What is found in a manifest has a hash of ASCII, and can be hashed. -/
theorem hashes_of_validated (h : validated pf manifest = .ok (found, normalized)) :
    (∀ c ∈ found.contentHash, c < 128) ∧ (∃ t, libraryContentHash pf (.obj normalized) = .ok t) ∧
      ∃ t, libraryContentHash pf (.obj found.activation) = .ok t := by
  obtain ⟨fields, _, _, _, hfinds, _, _, length, hlength, _⟩ := validated_eq_ok.mp h
  refine ⟨lt_of_mem_libraryContentHash hfinds.contentHash.1, ?_, _, hfinds.contentHash.1⟩
  unfold encodedLength at hlength
  split at hlength
  · rename_i bytes hbytes
    rw [libraryContentHash, hbytes]
    exact ⟨_, rfl⟩
  · cases hlength

/-- A node tells what was visited, what is in its manifest and which scopes are asked for. -/
structure Looks (pf : Platform) (rows : Catalog) (v : Visit) (n : Node) : Prop where
  row : ∃ scopes, visitedRow rows v = .ok (n.item, scopes) ∧
    n.scopes = sortedSet (scopes.getD n.found.requestedScopes)
  manifest : ∃ manifest, parseJson pf n.item.2.manifestJson (.obj []) = .ok manifest ∧
    validated pf manifest = .ok (n.found, n.normalized)
  contentHash : n.item.2.contentHash = n.found.contentHash

theorem look_eq_ok : look pf rows v = .ok n ↔ Looks pf rows v n := by
  constructor
  · intro h
    obtain ⟨⟨item, scopes⟩, hrow, h⟩ := bind_eq_ok.mp h
    obtain ⟨manifest, hmanifest, h⟩ := bind_eq_ok.mp h
    obtain ⟨⟨found, normalized⟩, hvalid, h⟩ := bind_eq_ok.mp h
    obtain ⟨same, hsame, h⟩ := bind_eq_ok.mp h
    obtain ⟨htrue, h⟩ := demand_bind_eq_ok.mp h
    obtain rfl := Except.ok.inj h
    rw [compareDigest_eq_ok hsame] at htrue
    exact ⟨⟨scopes, hrow, rfl⟩, ⟨manifest, hmanifest, checked_eq_ok.mp hvalid⟩, eq_of_beq htrue⟩
  · rintro ⟨⟨scopes, hrow, hscopes⟩, ⟨manifest, hmanifest, hvalid⟩, hhash⟩
    refine bind_eq_ok.mpr ⟨_, hrow, bind_eq_ok.mpr ⟨_, hmanifest, ?_⟩⟩
    refine bind_eq_ok.mpr ⟨_, checked_eq_ok.mpr hvalid, ?_⟩
    have hsame :
        LibraryCatalog.compareDigest n.item.2.contentHash n.found.contentHash = .ok true := by
      rw [hhash]
      exact compareDigest_self (hashes_of_validated hvalid).1
    refine bind_eq_ok.mpr ⟨_, hsame, demand_bind_eq_ok.mpr ⟨rfl, ?_⟩⟩
    rw [← hscopes]
    rfl

theorem Looks.manifestOf (h : Looks pf rows v n) : manifestOf pf n.item = some n.found := by
  obtain ⟨manifest, hmanifest, hvalid⟩ := h.manifest
  exact manifestOf_eq_some.mpr ⟨manifest, n.normalized, hmanifest, hvalid⟩

theorem Looks.available (h : Looks pf catalog.rows v n) : Available catalog.rows n.item := by
  obtain ⟨scopes, hrow, _⟩ := h.row
  unfold visitedRow at hrow
  split at hrow
  · split at hrow
    · cases hrow
    · rename_i hitem
      obtain ⟨rfl, _⟩ := Prod.mk.inj (Except.ok.inj hrow)
      exact (availableItem_eq_some_iff.mp hitem).1
  · split at hrow
    · cases hrow
    · rename_i hitem
      obtain ⟨rfl, _⟩ := Prod.mk.inj (Except.ok.inj hrow)
      exact (availablePinned_eq_some_iff.mp hitem).1

theorem registered_of_snapshot {snapshot : Snapshot} (hmanifest : manifestOf pf item = some found)
    (h : libraryConfirmationSnapshot pf item = .ok snapshot) : Registered pf item found := by
  obtain ⟨manifest, normalized, hparse, hvalid⟩ := manifestOf_eq_some.mp hmanifest
  obtain ⟨manifest', hparse', h⟩ := bind_eq_ok.mp h
  obtain rfl := Except.ok.inj (hparse.symm.trans hparse')
  obtain ⟨result, hvalid', h⟩ := bind_eq_ok.mp h
  obtain rfl := Except.ok.inj (hvalid.symm.trans (checked_eq_ok.mp hvalid'))
  obtain ⟨same, hsame, h⟩ := bind_eq_ok.mp h
  obtain ⟨htrue, h⟩ := demand_bind_eq_ok.mp h
  obtain ⟨stored, hstored, h⟩ := bind_eq_ok.mp h
  obtain ⟨profiles, hprofiles, h⟩ := bind_eq_ok.mp h
  obtain ⟨scopes, hscopes, h⟩ := bind_eq_ok.mp h
  obtain ⟨hcolumns, _⟩ := demand_bind_eq_ok.mp h
  simp only [Bool.and_eq_true, beq_iff_eq] at hcolumns
  obtain ⟨⟨⟨⟨hid, hversion⟩, hprovenance⟩, rfl⟩, rfl⟩ := hcolumns
  rw [compareDigest_eq_ok hsame, beq_iff_eq] at htrue
  refine ⟨?_, ⟨stored, hstored, hprovenance⟩, hprofiles, hscopes⟩
  rw [identityOf, hid, hversion, htrue]

theorem exists_snapshot (hmanifest : manifestOf pf item = some found) (h : Registered pf item found)
    :
    ∃ snapshot, libraryConfirmationSnapshot pf item = .ok snapshot := by
  obtain ⟨manifest, normalized, hparse, hvalid⟩ := manifestOf_eq_some.mp hmanifest
  obtain ⟨hascii, ⟨manifestHash, hmanifestHash⟩, activationHash, hactivationHash⟩ :=
    hashes_of_validated hvalid
  obtain ⟨stored, hstored, hprovenance⟩ := h.provenance
  obtain ⟨hid, hversion, hhash⟩ : item.2.stableId = found.stableId ∧
      item.2.version = found.version ∧ item.2.contentHash = found.contentHash := by
    simpa only [identityOf, Prod.mk.injEq] using h.identity
  have hsame : LibraryCatalog.compareDigest item.2.contentHash found.contentHash = .ok true := by
    rw [hhash]
    exact compareDigest_self hascii
  refine ⟨{
    libraryId := item.1
    stableId := item.2.stableId
    version := item.2.version
    contentHash := item.2.contentHash
    provenance := found.provenance
    supportedProfiles := found.supportedProfiles
    allowedScopes := found.requestedScopes
    displayLabel := displayLabel pf normalized item.2.stableId
    manifestSha256 := manifestHash
    activationSha256 := activationHash }, ?_⟩
  refine bind_eq_ok.mpr ⟨_, hparse, bind_eq_ok.mpr ⟨_, checked_eq_ok.mpr hvalid, ?_⟩⟩
  refine bind_eq_ok.mpr ⟨_, hsame, demand_bind_eq_ok.mpr ⟨rfl, ?_⟩⟩
  refine bind_eq_ok.mpr ⟨_, hstored, bind_eq_ok.mpr ⟨_, h.profiles, ?_⟩⟩
  refine bind_eq_ok.mpr ⟨_, h.scopes, demand_bind_eq_ok.mpr ⟨?_, ?_⟩⟩
  · simp only [hid, hversion, hprovenance, beq_self_eq_true, Bool.and_self]
  · refine bind_eq_ok.mpr ⟨_, checked_eq_ok.mpr hmanifestHash, ?_⟩
    exact bind_eq_ok.mpr ⟨_, checked_eq_ok.mpr hactivationHash, rfl⟩

end GlassHive.TemplateApprovals
