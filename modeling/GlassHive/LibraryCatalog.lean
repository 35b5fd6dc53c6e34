import GlassHive.LibraryManifests

/-!
# The library catalog

The table of the published library items, as far as items are published and looked up. An item is
published in one transaction, and an item that is there already with the same content and manifest
is returned as it is.
-/

namespace GlassHive.LibraryCatalog

open Relational LibraryManifests
open Json (Fields)
open Fallible (demand bind_eq_ok demand_bind_eq_ok)

/-- What a call of the control plane raises. A conflict is an error as well. -/
inductive CatalogFailure
  | error (message : Points)
  | conflict (message : Points)
  | uncaught
  deriving DecidableEq, Repr

/-- `LIBRARY_STATUSES`. -/
inductive LibraryStatus
  | available
  | disabled
  | removed
  deriving DecidableEq, Repr

/-- A row of `control_plane_library`, without its key. The columns of JSON are texts. -/
structure LibraryRow where
  stableId : Points
  version : Points
  contentHash : Points
  provenance : Points
  supportedProfilesJson : Points
  scopesJson : Points
  manifestJson : Points
  status : LibraryStatus
  statusReason : Points
  publishedBy : Points
  statusUpdatedAt : Option ℚ
  createdAt : ℚ
  updatedAt : ℚ
  deriving DecidableEq

/-- The rows, by `library_id`. -/
abbrev Catalog := Table Points LibraryRow

/-- A check of the control plane. -/
def ensure (condition : Bool) (e : CatalogFailure) : Except CatalogFailure Unit :=
  demand condition e

def errorOf (message : String) : CatalogFailure :=
  .error (Points.ofString message)

def conflictOf (message : String) : CatalogFailure :=
  .conflict (Points.ofString message)

variable (pf : Platform)

/-- `_parse_json`. A text that is beyond the limits of the parser raises another exception. -/
def parseJson (t : Points) (fallback : Json) : Except CatalogFailure Json :=
  match Json.loads pf.py.limits t with
  | .ok value => .ok value
  | .error .malformed => .ok fallback
  | .error .beyondLimits => .error .uncaught

/-- `hmac.compare_digest` of texts, which have to be ASCII. -/
def compareDigest (a b : Points) : Except CatalogFailure Bool :=
  if a.all (· < 128) && b.all (· < 128) then .ok (a == b) else .error .uncaught

/-- The result of the validation of a manifest, whose refusal raises another error. -/
def checked {α : Type} (result : Except Refusal α) (failure : Points → CatalogFailure) :
    Except CatalogFailure α :=
  match result with
  | .ok a => .ok a
  | .error (.manifest message) => .error (failure message)
  | .error .uncaught => .error .uncaught

/-- The available row of a pinned version. -/
def availablePinned (rows : Catalog) (stableId version contentHash : Points) :
    Option (Points × LibraryRow) :=
  (rows.select fun _ row => row.stableId == stableId && row.version == version &&
    row.contentHash == contentHash && row.status == .available).head?

/-- What `register_library_item` is given. -/
structure Registration where
  stableId : Points
  version : Points
  contentHash : Points
  provenance : Points
  supportedProfiles : List Points
  scopes : List Points
  manifest : Json
  publishedBy : Points

/-- Whether the arguments of a registration are those of its manifest. -/
def matchesManifest (r : Registration) (found : Checked) : Except CatalogFailure Unit := do
  ensure (lower (Points.strip r.stableId) == found.stableId)
    (errorOf "Library stable_id does not match its manifest")
  ensure (Points.strip r.version == found.version)
    (errorOf "Library version does not match its manifest")
  let same ← compareDigest (lower (Points.strip r.contentHash)) found.contentHash
  ensure same (errorOf "Library content hash does not match its manifest")
  ensure (sortedSet r.supportedProfiles == found.supportedProfiles)
    (errorOf "Library supported profiles do not match its manifest")
  ensure (sortedSet r.scopes == found.requestedScopes)
    (errorOf "Library requested scopes do not match its manifest")
  let supplied := Points.strip r.provenance
  ensure (supplied == found.provenance.source ||
      supplied == Json.dumpsSorted found.provenance.toJson)
    (errorOf "Library provenance does not match its manifest")

/-- The check of a dependency of an item that is published. -/
def checkDependency (rows : Catalog) (found : Checked) (d : Dependency) :
    Except CatalogFailure Unit :=
  match availablePinned rows d.stableId d.version d.contentHash with
  | none =>
    .error (.error (Points.ofString "Library dependency " ++ d.stableId ++ 32 :: d.version ++
      Points.ofString " is not available"))
  | some (_, row) => do
    let manifest ← parseJson pf row.manifestJson (.obj [])
    let (dependency, _) ← checked (validated pf manifest) fun _ =>
      errorOf "Library dependency manifest is invalid"
    ensure (found.supportedProfiles.all dependency.supportedProfiles.contains)
      (errorOf "Library dependency does not support every declared profile")
    ensure (d.scopes.all dependency.requestedScopes.contains)
      (errorOf "Library dependency scopes exceed its published manifest")

/-- A text, or another when it is empty. -/
def orElse (text default : Points) : Points :=
  if text.isEmpty then default else text

/-- The row of an item that is published. -/
def newRow (found : Checked) (normalized : Fields) (publishedBy : Points) (now : ℚ) :
    LibraryRow where
  stableId := found.stableId
  version := found.version
  contentHash := found.contentHash
  provenance := Json.dumpsSorted found.provenance.toJson
  supportedProfilesJson := Json.dumpsSorted (texts found.supportedProfiles)
  scopesJson := Json.dumpsSorted (texts found.requestedScopes)
  manifestJson := Json.dumpsSorted (.obj normalized)
  status := .available
  statusReason := []
  publishedBy :=
    (Points.strip (orElse publishedBy (Points.ofString "deployment-registry"))).take 200
  statusUpdatedAt := some now
  createdAt := now
  updatedAt := now

/-- The item that a registration returns: one that was there, or one that it added. -/
inductive Registered
  | existing (libraryId : Points) (row : LibraryRow)
  | added (libraryId : Points) (row : LibraryRow)

/-- The transaction of `register_library_item`, for a new identifier. -/
def insertItem (rows : Catalog) (found : Checked) (normalized : Fields) (publishedBy : Points)
    (libraryId : Points) (now : ℚ) : Except CatalogFailure (Catalog × Registered) :=
  match (rows.select fun _ row =>
      row.stableId == found.stableId && row.version == found.version).head? with
  | some (existingId, existing) => do
    let sameContent ← compareDigest existing.contentHash found.contentHash
    ensure sameContent (conflictOf
      "Library stable_id and version are already published with different content")
    let sameManifest ← compareDigest existing.manifestJson (Json.dumpsSorted (.obj normalized))
    ensure sameManifest (conflictOf
      "Library stable_id and version are already published with different metadata")
    return (rows, .existing existingId existing)
  | none => do
    found.dependencies.forM (checkDependency pf rows found)
    let row := newRow found normalized publishedBy now
    match rows.insert? libraryId row with
    | some rows => .ok (rows, .added libraryId row)
    | none => .error .uncaught

/-- `register_library_item`. -/
def registerLibraryItem (rows : Catalog) (r : Registration) (libraryId : Points) (now : ℚ) :
    Except CatalogFailure (Catalog × Registered) := do
  let (found, normalized) ← checked (validated pf r.manifest) .error
  matchesManifest r found
  insertItem pf rows found normalized r.publishedBy libraryId now

/-- `publish_library_manifest`. -/
def publishLibraryManifest (rows : Catalog) (manifest : Json) (publishedBy libraryId : Points)
    (now : ℚ) : Except CatalogFailure (Catalog × Registered) := do
  let (found, normalized) ← checked (validated pf manifest) .error
  registerLibraryItem pf rows {
    stableId := found.stableId
    version := found.version
    contentHash := found.contentHash
    provenance := found.provenance.source
    supportedProfiles := found.supportedProfiles
    scopes := found.requestedScopes
    manifest := .obj normalized
    publishedBy } libraryId now

/-! ## What a publication does -/

variable {pf} {rows rows' : Catalog} {libraryId publishedBy : Points} {now : ℚ}
  {result : Registered}

/-- A transaction adds its item under the new identifier, or leaves the catalog as it is. -/
theorem insertItem_eq_ok {found : Checked} {normalized : Fields}
    (h : insertItem pf rows found normalized publishedBy libraryId now = .ok (rows', result)) :
    (rows' = rows ∧ ∃ id row, result = .existing id row) ∨
      ∃ row, rows.insert? libraryId row = some rows' ∧ result = .added libraryId row := by
  unfold insertItem at h
  split at h
  · obtain ⟨_, _, h⟩ := bind_eq_ok.mp h
    obtain ⟨_, h⟩ := demand_bind_eq_ok.mp h
    obtain ⟨_, _, h⟩ := bind_eq_ok.mp h
    obtain ⟨_, h⟩ := demand_bind_eq_ok.mp h
    obtain ⟨rfl, rfl⟩ := Prod.mk.inj (Except.ok.inj h)
    exact .inl ⟨rfl, _, _, rfl⟩
  · obtain ⟨_, _, h⟩ := bind_eq_ok.mp h
    dsimp only at h
    split at h
    · rename_i hinsert
      obtain ⟨rfl, rfl⟩ := Prod.mk.inj (Except.ok.inj h)
      exact .inr ⟨_, hinsert, rfl⟩
    · cases h

/-- A publication adds its item under the new identifier, or leaves the catalog as it is. -/
theorem publishLibraryManifest_eq_ok {manifest : Json}
    (h : publishLibraryManifest pf rows manifest publishedBy libraryId now = .ok (rows', result)) :
    (rows' = rows ∧ ∃ id row, result = .existing id row) ∨
      ∃ row, rows.insert? libraryId row = some rows' ∧ result = .added libraryId row := by
  obtain ⟨_, _, h⟩ := bind_eq_ok.mp h
  obtain ⟨_, _, h⟩ := bind_eq_ok.mp h
  obtain ⟨_, _, h⟩ := bind_eq_ok.mp h
  exact insertItem_eq_ok h

end GlassHive.LibraryCatalog
