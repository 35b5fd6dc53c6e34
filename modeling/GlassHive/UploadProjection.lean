import GlassHive.InferenceBroker
import GlassHive.Library.Fallible
import Mathlib.Data.List.Induction

/-!
# Selected uploads

A delegation packet may select the uploads of a request that its worker gets to see. The records
of the request are intersected with the selection, and what remains is projected to the files of
the workspace. Both walk their argument in search of uploads, so the projection finds again what
is nested in a record that was selected.
-/

namespace GlassHive

namespace Uploads

/-! ## The uploads of a value -/

/-- The keys that make an object an upload. -/
def uploadMarks : List String :=
  ["file_id", "filename", "filepath", "source_path", "local_path", "text"]

def isUpload (fields : BrokerFields) : Bool :=
  uploadMarks.any fun key => (fields.lookup key).isSome

mutual

/-- `_iter_uploads`. -/
def iterUploads : BrokerValue → List BrokerFields
  | .array items _ => iterItems items
  | .object fields _ =>
    if isUpload fields then fields :: iterChildren fields else iterChildren fields
  | _ => []
  termination_by structural value => value

/-- The uploads of the items of a list. -/
def iterItems : List BrokerValue → List BrokerFields
  | [] => []
  | value :: values => iterUploads value ++ iterItems values
  termination_by structural values => values

/-- The uploads of the values of an object. -/
def iterChildren : List (String × BrokerValue) → List BrokerFields
  | [] => []
  | (_, value) :: fields => iterUploads value ++ iterChildren fields
  termination_by structural fields => fields

end

mutual

/-- Only uploads are listed. -/
theorem isUpload_iterUploads {u : BrokerFields} :
    ∀ value : BrokerValue, u ∈ iterUploads value → isUpload u = true
  | .null, h | .bool _, h | .int _, h | .float _ _ _, h | .str _, h => by
    simp [iterUploads] at h
  | .array items _, h => by
    rw [iterUploads] at h
    exact isUpload_iterItems items h
  | .object fields _, h => by
    rw [iterUploads] at h
    split at h
    · rename_i hmark
      rcases List.mem_cons.mp h with rfl | hchild
      · exact hmark
      · exact isUpload_iterChildren fields hchild
    · exact isUpload_iterChildren fields h
  termination_by structural value => value

theorem isUpload_iterItems {u : BrokerFields} :
    ∀ items : List BrokerValue, u ∈ iterItems items → isUpload u = true
  | [], h => by simp [iterItems] at h
  | value :: values, h => by
    rw [iterItems] at h
    rcases List.mem_append.mp h with hhead | htail
    · exact isUpload_iterUploads value hhead
    · exact isUpload_iterItems values htail
  termination_by structural items => items

theorem isUpload_iterChildren {u : BrokerFields} :
    ∀ fields : List (String × BrokerValue), u ∈ iterChildren fields → isUpload u = true
  | [], h => by simp [iterChildren] at h
  | (_, value) :: fields, h => by
    rw [iterChildren] at h
    rcases List.mem_append.mp h with hhead | htail
    · exact isUpload_iterUploads value hhead
    · exact isUpload_iterChildren fields htail
  termination_by structural fields => fields

end

/-! ## The names of an upload -/

/-- `value.replace("\\", "/").rsplit("/", 1)[-1]`. -/
def basename (value : Text) : Text :=
  ((value.map fun c => if c = '\\' then '/' else c).reverse.takeWhile (· ≠ '/')).reverse

/-- What stands before the first `__`. -/
def beforeDunder : Text → Option Text
  | '_' :: '_' :: _ => some []
  | c :: text => (beforeDunder text).map (c :: ·)
  | [] => none

def isNameChar (c : Char) : Bool :=
  c.isAlphanum || c == '.' || c == '_' || c == '-'

/-- `_safe_virtual_ref`, of a text. -/
def safeVirtualRef (value : Text) : Text :=
  match value.strip with
  | [] => []
  | c :: rest =>
    if c.isAlphanum && rest.all isNameChar && decide (rest.length ≤ 255) then c :: rest else []

/-- The keys that name the file of an upload. -/
def sourceKeys : List String :=
  ["file_id", "id", "filepath", "path", "source_path", "local_path", "upload_path",
    "absolute_path", "url", "uri"]

/-- `str(file_obj.get(key) or "").strip()`. -/
def textOf (u : BrokerFields) (key : String) : Text :=
  (u.get key).textOrEmpty.strip

/-- The references that one value gives: itself and the token before the `__` of its last part. -/
def refsOf (value : Text) : List Text :=
  if value.isEmpty then []
  else match beforeDunder (basename value) with
  | some token => if (safeVirtualRef token).isEmpty then [value] else [value, token]
  | none => [value]

/-- `_upload_source_refs`. -/
def uploadSourceRefs (u : BrokerFields) : List Text :=
  sourceKeys.flatMap fun key => refsOf (textOf u key)

/-- The first text among those of some keys that is not empty. -/
def firstText (u : BrokerFields) (keys : List String) : Text :=
  ((keys.map (textOf u)).find? fun value => !value.isEmpty).getD []

/-- `str(file_obj.get("file_id") or file_obj.get("id") or "").strip()`. -/
def fileIdOf (u : BrokerFields) : Text :=
  if (u.get "file_id").truthy then textOf u "file_id" else textOf u "id"

/-- `_upload_stable_key`. -/
def uploadStableKey (u : BrokerFields) (ordinal : ℕ) : Text × Text :=
  let sourceRef := firstText u ["filepath", "source_path", "local_path", "upload_path",
    "absolute_path", "url", "uri", "path"]
  if (fileIdOf u).isEmpty && sourceRef.isEmpty then
    ("ledger".toList, (toString ordinal).toList)
  else (fileIdOf u, sourceRef)

/-! ## The intersection with a selection -/

/-- An entry of `selected_files`. -/
structure Selector where
  kind : Text
  value : Text
  deriving DecidableEq, Repr

/-- One of the references of an upload is selected. -/
def Selected (selection : List Selector) (u : BrokerFields) : Prop :=
  ∃ s ∈ selection, s.value ∈ uploadSourceRefs u

instance (selection : List Selector) (u : BrokerFields) : Decidable (Selected selection u) :=
  inferInstanceAs (Decidable (∃ s ∈ selection, s.value ∈ uploadSourceRefs u))

abbrev Candidate := (Text × Text) × BrokerFields

/-- `candidates.setdefault`. -/
def setDefault (candidates : List Candidate) (c : Candidate) : List Candidate :=
  if candidates.any (·.1 == c.1) then candidates else candidates ++ [c]

/-- The first record of each stable key, in order. -/
def candidatesOf (records : List BrokerFields) : List Candidate :=
  (records.zipIdx.map fun r => (uploadStableKey r.1 r.2, r.1)).foldl setDefault []

/-- The key that a selector selects. -/
def selectKey (candidates : List Candidate) (requireAll : Bool) (s : Selector) :
    Except String (Option (Text × Text)) :=
  if s.kind ≠ "ref".toList then .error "Selected files require a stable upload ref"
  else match candidates.filter fun c => (uploadSourceRefs c.2).contains s.value with
  | [] =>
    if requireAll then
      .error "Selected file identity does not match a trusted upload ref"
    else .ok none
  | [c] => .ok (some c.1)
  | _ => .error "Selected file identity is ambiguous"

/-- `intersect_upload_records`. An error is the message of a `ValueError`. -/
def intersectUploadRecords (value : BrokerValue) (selectedFiles : Option (List Selector))
    (requireAll : Bool) : Except String (List BrokerFields) :=
  let records := iterUploads value
  match selectedFiles with
  | none => .ok records
  | some [] => .ok []
  | some selectors => do
    let candidates := candidatesOf records
    let selectedKeys ← selectors.mapM (selectKey candidates requireAll)
    return (candidates.filter fun c => selectedKeys.contains (some c.1)).map Prod.snd

section Intersection

variable {candidates : List Candidate} {c : Candidate}

theorem mem_of_mem_setDefault {d : Candidate} (h : d ∈ setDefault candidates c) :
    d ∈ candidates ∨ d = c := by
  unfold setDefault at h
  split at h
  · exact Or.inl h
  · simpa using h

theorem nodup_setDefault (h : (candidates.map Prod.fst).Nodup) :
    ((setDefault candidates c).map Prod.fst).Nodup := by
  unfold setDefault
  split
  · exact h
  · rename_i hnew
    rw [List.map_append, List.map_singleton, List.nodup_append]
    refine ⟨h, by simp, ?_⟩
    intro key hkey key' hkey' heq
    obtain ⟨d, hd, rfl⟩ := List.mem_map.mp hkey
    rw [List.mem_singleton] at hkey'
    exact hnew (List.any_eq_true.mpr ⟨d, hd, by simp [heq, hkey']⟩)

theorem foldl_setDefault {l : List Candidate} (h : (candidates.map Prod.fst).Nodup) :
    ((l.foldl setDefault candidates).map Prod.fst).Nodup ∧
      ∀ d ∈ l.foldl setDefault candidates, d ∈ candidates ∨ d ∈ l := by
  induction l generalizing candidates with
  | nil => exact ⟨h, fun d hd => Or.inl hd⟩
  | cons c l ih =>
    obtain ⟨hnodup, hmem⟩ := ih (nodup_setDefault (c := c) h)
    refine ⟨hnodup, fun d hd => ?_⟩
    rcases hmem d hd with hold | hlater
    · rcases mem_of_mem_setDefault hold with hkept | rfl
      · exact Or.inl hkept
      · exact Or.inr List.mem_cons_self
    · exact Or.inr (List.mem_cons_of_mem c hlater)

/-- Candidates are records, and each has a stable key of its own. -/
theorem candidatesOf_spec (records : List BrokerFields) :
    ((candidatesOf records).map Prod.fst).Nodup ∧ ∀ d ∈ candidatesOf records, d.2 ∈ records := by
  have hempty : (([] : List Candidate).map Prod.fst).Nodup := List.nodup_nil
  obtain ⟨hnodup, hmem⟩ := foldl_setDefault
    (l := records.zipIdx.map fun r => (uploadStableKey r.1 r.2, r.1)) hempty
  refine ⟨hnodup, fun d hd => ?_⟩
  rcases hmem d hd with hnil | hrecord
  · exact absurd hnil List.not_mem_nil
  · obtain ⟨r, hr, rfl⟩ := List.mem_map.mp hrecord
    exact (List.mem_zipIdx' hr).2 ▸ List.getElem_mem _

/-- The key that a selector selects is the one of a candidate that it names. -/
theorem selectKey_eq_some {requireAll : Bool} {s : Selector} {key : Text × Text}
    (h : selectKey candidates requireAll s = .ok (some key)) :
    ∃ d ∈ candidates, d.1 = key ∧ s.value ∈ uploadSourceRefs d.2 := by
  unfold selectKey at h
  split at h
  · simp at h
  · split at h
    · split at h <;> simp at h
    · rename_i d hd
      have hmem : d ∈ candidates.filter fun c => (uploadSourceRefs c.2).contains s.value :=
        hd ▸ List.mem_singleton_self d
      rw [List.mem_filter] at hmem
      exact ⟨d, hmem.1, Option.some.inj (Except.ok.inj h), by simpa using hmem.2⟩
    · simp at h

end Intersection

/-- The records of an intersection are uploads of the value, and selected. -/
theorem intersectUploadRecords_selected {value : BrokerValue} {selection : List Selector}
    {requireAll : Bool} {records : List BrokerFields}
    (h : intersectUploadRecords value (some selection) requireAll = .ok records) :
    ∀ r ∈ records, r ∈ iterUploads value ∧ Selected selection r := by
  intro r hr
  cases selection with
  | nil =>
    obtain rfl : [] = records := Except.ok.inj h
    exact absurd hr List.not_mem_nil
  | cons =>
    simp only [intersectUploadRecords, Fallible.bind_eq_ok] at h
    obtain ⟨keys, hkeys, hrecords⟩ := h
    obtain rfl := Except.ok.inj hrecords
    obtain ⟨c, hc, rfl⟩ := List.mem_map.mp hr
    rw [List.mem_filter] at hc
    obtain ⟨hnodup, hmem⟩ := candidatesOf_spec (iterUploads value)
    refine ⟨hmem c hc.1, ?_⟩
    have hkey : some c.1 ∈ keys := by simpa using hc.2
    obtain ⟨t, ht, hselects⟩ := Fallible.mem_of_mapM_eq_ok hkeys hkey
    obtain ⟨d, hd, hsame, hnames⟩ := selectKey_eq_some hselects
    have hdc : d = c := List.inj_on_of_nodup_map hnodup hd hc.1 hsame
    exact ⟨t, ht, hdc ▸ hnames⟩

/-! ## Where the bytes of an upload are -/

/-- An entry that the walk of a directory meets. -/
structure StoredItem where
  name : Text
  isFile : Bool
  resolved : Text

/-- The roots of uploads, the file system and the signing key: which paths are files and which are
directories, what the walk of a directory meets before it ends or fails, and
`sign_bootstrap_source_path` for the owner at hand. -/
structure UploadStorage where
  roots : List Text
  isFile : Text → Bool
  isDir : Text → Bool
  rglob : Text → List StoredItem
  sign : Text → Text

/-- The owners of a projection, `None` as the empty text. -/
structure UploadOwners where
  ownerId : Text
  storageOwnerId : Text

/-- A text that is safe as one part of a path. -/
def isComponent (clean : Text) : Bool :=
  !clean.isEmpty && clean != ".".toList && !clean.contains '\x00' && !clean.contains '/' &&
    !clean.contains '\\' && !clean.tails.any ("..".toList.isPrefixOf ·)

/-- `_owner_components`. -/
def ownerComponents (owners : UploadOwners) : List Text :=
  (([owners.ownerId, owners.storageOwnerId].map Text.strip).filter isComponent).dedup

/-- `root / path`. -/
def joinPath (root path : Text) : Text :=
  if root = ".".toList then path
  else if root.getLast? = some '/' then root ++ path
  else root ++ '/' :: path

/-- One component in `os.path.normpath`. -/
def normStep (done : List Text) (component : Text) : List Text :=
  if component.isEmpty || component == ".".toList then done
  else if component != "..".toList || done.isEmpty || done.getLast? == some "..".toList then
    done ++ [component]
  else done.dropLast

/-- `os.path.normpath`, of a path that does not start with a slash. -/
def normpath (path : Text) : Text :=
  let joined := List.intercalate ['/'] ((path.splitOn '/').foldl normStep [])
  if joined.isEmpty then ".".toList else joined

/-- A text without some characters at its ends. -/
def stripChars (p : Char → Bool) (text : Text) : Text :=
  ((text.dropWhile p).reverse.dropWhile p).reverse

/-- `_trusted_virtual_source`. -/
def trustedVirtualSource (storage : UploadStorage) (owners : UploadOwners) (value : Text) : Text :=
  let prefixed := "/uploads/".toList
  if !prefixed.isPrefixOf value then []
  else
    let relative := stripChars (· == '/') ((value.takeWhile (· ≠ '?')).drop prefixed.length)
    let normalized := normpath relative
    if relative.isEmpty || normalized == ".".toList || "..".toList.isPrefixOf normalized ||
        (normalized.splitOn '/').contains "..".toList then []
    else if (!owners.ownerId.isEmpty || !owners.storageOwnerId.isEmpty) &&
        !(ownerComponents owners).contains (normalized.takeWhile (· ≠ '/')) then []
    else ((storage.roots.map fun root => joinPath root normalized).find? storage.isFile).getD []

/-- `_owner_source_for_file_id`. -/
def ownerSourceForFileId (storage : UploadStorage) (owners : UploadOwners) (fileId : Text) : Text :=
  let cleanId := fileId.strip
  if !isComponent cleanId then []
  else
    let ownerRoots := storage.roots.flatMap fun root =>
      (ownerComponents owners).map fun owner => joinPath root owner
    let items := (ownerRoots.filter storage.isDir).flatMap storage.rglob
    let found := items.filter fun item => item.isFile &&
      (item.name == cleanId || (cleanId ++ "__".toList).isPrefixOf item.name)
    match (found.map StoredItem.resolved).dedup with
    | [source] => source
    | _ => []

/-! ## Names of projected files -/

/-- Every run of characters that a name may not have becomes one dash. -/
def dashRuns : Bool → Text → Text
  | _, [] => []
  | inRun, c :: text =>
    if isNameChar c then c :: dashRuns false text
    else if inRun then dashRuns true text
    else '-' :: dashRuns true text

/-- `_safe_upload_filename`, of a text. -/
def safeUploadFilename (value fallback : Text) : Text :=
  let last := (basename value).strip
  let name := if last.isEmpty then fallback else last
  let safe := stripChars (fun c => c == '.' || c == '-') (dashRuns false name)
  if safe.isEmpty then fallback else safe

/-- A text that has a first character of one kind and at most 63 more of another. -/
def isToken (first rest : Char → Bool) : Text → Bool
  | [] => false
  | c :: text => first c && text.all rest && decide (text.length ≤ 63)

/-- `_safe_source_type`, of a text. -/
def safeSourceType (value : Text) : Text :=
  let candidate := value.strip.lower
  if isToken Char.isLower (fun c => c.isLower || c.isDigit || c == '_' || c == '-') candidate then
    candidate
  else []

/-- `_safe_declared_type`, of a text. -/
def safeDeclaredType (value : Text) : Text :=
  let candidate := value.strip.lower
  let parts := candidate.splitOn '/'
  if parts.length ≤ 2 && parts.all (isToken (fun c => c.isLower || c.isDigit) fun c =>
      c.isLower || c.isDigit || c == '.' || c == '+' || c == '_' || c == '-') then
    candidate
  else []

/-- `os.path.splitext`, of a name. -/
def splitext (name : Text) : Text × Text :=
  let extension := '.' :: (name.reverse.takeWhile (· ≠ '.')).reverse
  let stem := name.take (name.length - extension.length)
  if name.contains '.' && stem.any (· ≠ '.') then (stem, extension) else (name, [])

/-- The path of a name that is taken already, with a number. -/
def numberedPath (stem extension : Text) (suffix : ℕ) : Text :=
  "uploads/".toList ++ stem ++ '-' :: (toString suffix).toList ++ extension

/-- The first free path from a number on. -/
def freePath (stem extension : Text) (used : List Text) : ℕ → ℕ → Text
  | 0, suffix => numberedPath stem extension suffix
  | fuel + 1, suffix =>
    if used.contains (numberedPath stem extension suffix) then
      freePath stem extension used fuel (suffix + 1)
    else numberedPath stem extension suffix

/-- `_dedupe_path`: among as many numbers as there are paths in use and one more, one is free. -/
def dedupePath (filename : Text) (used : List Text) : Text :=
  let safe := safeUploadFilename filename "upload".toList
  let path := "uploads/".toList ++ safe
  if used.contains path then
    freePath (splitext safe).1 (splitext safe).2 used used.length 2
  else path

/-! ## The projection -/

structure UploadMetadata where
  filename : Text
  fileId : Option Text
  source : Option Text
  type : Option Text
  bytes : Option ℤ
  mediaGroupIndex : Option ℤ
  deriving DecidableEq, Repr

/-- What a projected file holds: the bytes of a source, the text of the upload, or a manifest that
says that its bytes are not available. -/
inductive Delivery
  | source (sourcePath token : Text)
  | content (text : Text)
  | blocked (extractedTextAvailable : Bool)
  deriving DecidableEq, Repr

structure ProjectedFile where
  path : Text
  metadata : UploadMetadata
  delivery : Delivery
  deriving DecidableEq, Repr

/-- The reference that the projection reads the bytes of an upload from. -/
def projectedRef (u : BrokerFields) : Text :=
  firstText u ["filepath", "path", "local_path", "upload_path", "absolute_path", "url", "uri"]

/-- What tells an upload at its index from those before it. -/
def identityOf (entry : BrokerFields × ℕ) : Text × Text :=
  let fileId := fileIdOf entry.1
  let sourceRef := projectedRef entry.1
  (fileId, if !sourceRef.isEmpty then sourceRef
    else if fileId.isEmpty then "ledger-index:".toList ++ (toString entry.2).toList else [])

/-- A value of the metadata that is present when it is not empty. -/
def nonempty (value : Text) : Option Text :=
  if value.isEmpty then none else some value

/-- A count of the metadata. -/
def countOf (u : BrokerFields) (key : String) : Option ℤ :=
  match u.get key with
  | .int n => if 0 ≤ n then some n else none
  | _ => none

/-- `file_obj.get("filename") or file_obj.get("name") or source_ref or file_id`. -/
def displayName (u : BrokerFields) : Text :=
  if (u.get "filename").truthy then (u.get "filename").toText
  else if (u.get "name").truthy then (u.get "name").toText
  else if !(projectedRef u).isEmpty then projectedRef u
  else fileIdOf u

def metadataOf (u : BrokerFields) (filename : Text) : UploadMetadata where
  filename := filename
  fileId := nonempty (safeVirtualRef (fileIdOf u))
  source := nonempty (safeSourceType (u.get "source").textOrEmpty)
  type := nonempty (safeDeclaredType (u.get "type").textOrEmpty)
  bytes := countOf u "bytes"
  mediaGroupIndex := countOf u "media_group_index"

/-- The endings of names whose text may stand for the file. -/
def textSuffixes : List String :=
  [".txt", ".md", ".csv", ".json", ".jsonl", ".tsv", ".yaml", ".yml", ".xml", ".html", ".htm",
    ".log"]

/-- Where the bytes of an upload come from. -/
def sourceOf (storage : UploadStorage) (owners : UploadOwners) (u : BrokerFields) : Text :=
  let source := trustedVirtualSource storage owners (projectedRef u)
  if source.isEmpty && !(fileIdOf u).isEmpty then ownerSourceForFileId storage owners (fileIdOf u)
  else source

def deliveryOf (storage : UploadStorage) (owners : UploadOwners) (u : BrokerFields)
    (filename : Text) : Delivery :=
  let source := sourceOf storage owners u
  if !source.isEmpty then .source source (storage.sign source)
  else match u.get "text" with
  | .str text =>
    if text.strip.isEmpty then .blocked false
    else if textSuffixes.any fun suffix => suffix.toList.isSuffixOf filename.lower then
      .content text
    else .blocked true
  | _ => .blocked false

/-- What the projection has done so far: the files, each with its upload, the identities it has
seen and the paths it has used. -/
structure Projection where
  result : List (BrokerFields × ProjectedFile)
  seen : List (Text × Text)
  usedPaths : List Text

/-- One turn of the loop of `project_upload_files`. -/
def projectUpload (storage : UploadStorage) (owners : UploadOwners) (p : Projection)
    (entry : BrokerFields × ℕ) : Projection :=
  if p.seen.contains (identityOf entry) then p
  else
    let u := entry.1
    let filename := safeUploadFilename (displayName u)
      ("upload-".toList ++ (toString (p.result.length + 1)).toList)
    let path := dedupePath filename p.usedPaths
    let delivery := deliveryOf storage owners u filename
    let filePath := match delivery with
      | .blocked _ => path ++ ".metadata.json".toList
      | _ => path
    { result := p.result ++ [(u, ⟨filePath, metadataOf u filename, delivery⟩)]
      seen := identityOf entry :: p.seen
      usedPaths := path :: p.usedPaths }

def projectUploads (storage : UploadStorage) (owners : UploadOwners)
    (uploadContext : BrokerValue) : Projection :=
  (iterUploads uploadContext).zipIdx.foldl (projectUpload storage owners) ⟨[], [], []⟩

/-- `project_upload_files`. -/
def projectUploadFiles (storage : UploadStorage) (owners : UploadOwners)
    (uploadContext : BrokerValue) : List ProjectedFile :=
  (projectUploads storage owners uploadContext).result.map Prod.snd

/-! ## What is projected -/

section Loop

/-- An element that is the first of its key in a longer list is one already, or is the last. -/
theorem exists_first_append_singleton {α β : Type} {key : α → β} {l : List α} {e : α}
    {P : α → Prop} :
    (∃ pre d post, l ++ [e] = pre ++ d :: post ∧ P d ∧ ∀ c ∈ pre, key c ≠ key d) ↔
      (∃ pre d post, l = pre ++ d :: post ∧ P d ∧ ∀ c ∈ pre, key c ≠ key d) ∨
        P e ∧ ∀ c ∈ l, key c ≠ key e := by
  constructor
  · rintro ⟨pre, d, post, heq, hd, hfirst⟩
    rcases List.eq_nil_or_concat post with rfl | ⟨post, last, rfl⟩
    · obtain ⟨rfl, hlast⟩ := List.append_inj' heq rfl
      obtain rfl : e = d := List.head_eq_of_cons_eq hlast
      exact Or.inr ⟨hd, hfirst⟩
    · rw [List.concat_eq_append, ← List.cons_append, ← List.append_assoc] at heq
      exact Or.inl ⟨pre, d, post, (List.append_inj' heq rfl).1, hd, hfirst⟩
  · rintro (⟨pre, d, post, rfl, hd, hfirst⟩ | ⟨he, hfirst⟩)
    · exact ⟨pre, d, post ++ [e], by simp, hd, hfirst⟩
    · exact ⟨l, e, [], rfl, he, hfirst⟩

variable (storage : UploadStorage) (owners : UploadOwners)

theorem seen_projectUpload (entries : List (BrokerFields × ℕ)) (key : Text × Text) :
    key ∈ (entries.foldl (projectUpload storage owners) ⟨[], [], []⟩).seen ↔
      ∃ e ∈ entries, identityOf e = key := by
  induction entries using List.reverseRecOn with
  | nil => simp
  | append_singleton entries e ih =>
    have hsplit : (∃ f ∈ entries ++ [e], identityOf f = key) ↔
        (∃ f ∈ entries, identityOf f = key) ∨ identityOf e = key := by
      simp [or_and_right, exists_or]
    rw [List.foldl_append, List.foldl_cons, List.foldl_nil, hsplit, ← ih]
    generalize entries.foldl (projectUpload storage owners) ⟨[], [], []⟩ = p
    unfold projectUpload
    split
    · rename_i hold
      have hold : identityOf e ∈ p.seen := by simpa using hold
      exact ⟨Or.inl, fun h => h.elim id fun hkey => hkey ▸ hold⟩
    · rw [List.mem_cons, or_comm, eq_comm]

/-- The uploads that have been projected are those whose identity no earlier one shows. -/
theorem result_projectUpload (entries : List (BrokerFields × ℕ)) (u : BrokerFields) :
    u ∈ (entries.foldl (projectUpload storage owners) ⟨[], [], []⟩).result.map Prod.fst ↔
      ∃ pre e post, entries = pre ++ e :: post ∧ e.1 = u ∧
        ∀ d ∈ pre, identityOf d ≠ identityOf e := by
  induction entries using List.reverseRecOn with
  | nil => simp
  | append_singleton entries e ih =>
    have hseen := seen_projectUpload storage owners entries (identityOf e)
    rw [List.foldl_append, List.foldl_cons, List.foldl_nil, exists_first_append_singleton, ← ih]
    generalize entries.foldl (projectUpload storage owners) ⟨[], [], []⟩ = p at hseen ⊢
    have hfresh : (∀ d ∈ entries, identityOf d ≠ identityOf e) ↔ identityOf e ∉ p.seen := by
      rw [hseen]
      simp
    rw [hfresh]
    unfold projectUpload
    split
    · rename_i hold
      have hold : identityOf e ∈ p.seen := by simpa using hold
      simp [hold]
    · rename_i hnew
      have hnew : identityOf e ∉ p.seen := by simpa using hnew
      rw [List.map_append, List.mem_append]
      simp [hnew, eq_comm]

end Loop

/-- The uploads that the projection lists for some records: each with what is nested in it. -/
def listed (records : List BrokerFields) : List BrokerFields :=
  records.flatMap fun r => r :: iterChildren r

/-- The context in which records are projected. -/
def selectedUploads (records : List BrokerFields) : BrokerValue :=
  .object [("selected_uploads", .array (records.map fun r => .object r []) [])] []

theorem iterUploads_selectedUploads {records : List BrokerFields}
    (h : ∀ r ∈ records, isUpload r = true) : iterUploads (selectedUploads records) =
      listed records := by
  have hitems : iterItems (records.map fun r => .object r []) = listed records := by
    induction records with
    | nil => simp [iterItems, listed]
    | cons r records ih =>
      have hr : isUpload r = true := h r List.mem_cons_self
      have hrest := ih fun q hq => h q (List.mem_cons_of_mem r hq)
      rw [List.map_cons, iterItems, iterUploads, if_pos hr, hrest]
      simp [listed]
  have hcontext : isUpload [("selected_uploads",
      .array (records.map fun r => .object r []) [])] = false := by
    simp [isUpload, uploadMarks]
  rw [selectedUploads, iterUploads, hcontext]
  simp [iterChildren, iterUploads, hitems]

/-- What is nested in the records of a selection is selected as well, unless an upload that is
listed before it has the same identity. -/
def NestedSelected (selection : List Selector) (records : List BrokerFields) : Prop :=
  ∀ pre e post, (listed records).zipIdx = pre ++ e :: post →
    (∃ r ∈ records, e.1 ∈ iterChildren r) →
    Selected selection e.1 ∨ ∃ d ∈ pre, identityOf d = identityOf e

section Selection

variable {value : BrokerValue} {selection : List Selector} {requireAll : Bool}
  {records : List BrokerFields}

theorem mem_projectUploads_iff (storage : UploadStorage) (owners : UploadOwners)
    (h : ∀ r ∈ records, isUpload r = true) {u : BrokerFields} :
    u ∈ (projectUploads storage owners (selectedUploads records)).result.map Prod.fst ↔
      ∃ pre e post, (listed records).zipIdx = pre ++ e :: post ∧ e.1 = u ∧
        ∀ d ∈ pre, identityOf d ≠ identityOf e := by
  rw [projectUploads, iterUploads_selectedUploads h]
  exact result_projectUpload storage owners _ u

/-- The records of a selection are selected, and so is everything that is projected from them if
and only if what is nested in them is. -/
theorem projectUploads_selected_iff (storage : UploadStorage) (owners : UploadOwners)
    (h : intersectUploadRecords value (some selection) requireAll = .ok records) :
    (∀ r ∈ records, Selected selection r) ∧
      ((∀ p ∈ (projectUploads storage owners (selectedUploads records)).result,
        Selected selection p.1) ↔ NestedSelected selection records) := by
  have hrecords := intersectUploadRecords_selected h
  have hupload : ∀ r ∈ records, isUpload r = true :=
    fun r hr => isUpload_iterUploads value (hrecords r hr).1
  refine ⟨fun r hr => (hrecords r hr).2, ?_, ?_⟩
  · intro hall pre e post hsplit _
    by_cases hfirst : ∃ d ∈ pre, identityOf d = identityOf e
    · exact Or.inr hfirst
    · have hmem := (mem_projectUploads_iff storage owners hupload).mpr
        ⟨pre, e, post, hsplit, rfl, fun d hd hsame => hfirst ⟨d, hd, hsame⟩⟩
      obtain ⟨p, hp, hpe⟩ := List.mem_map.mp hmem
      exact Or.inl (hpe ▸ hall p hp)
  · intro hnested p hp
    obtain ⟨pre, e, post, hsplit, hep, hfirst⟩ :=
      (mem_projectUploads_iff storage owners hupload).mp (List.mem_map_of_mem hp)
    have hlisted : e.1 ∈ listed records := by
      have he : e ∈ (listed records).zipIdx := hsplit ▸ by simp
      exact (List.mem_zipIdx' he).2 ▸ List.getElem_mem _
    rw [← hep]
    obtain ⟨r, hr, hmem⟩ := List.mem_flatMap.mp hlisted
    rcases List.mem_cons.mp hmem with hself | hchild
    · exact hself ▸ (hrecords r hr).2
    · rcases hnested pre e post hsplit ⟨r, hr, hchild⟩ with hselected | ⟨d, hd, hsame⟩
      · exact hselected
      · exact absurd hsame (hfirst d hd)

/-- Records in which no upload is nested are projected only as far as they are selected. -/
theorem projectUploads_selected_of_flat (storage : UploadStorage) (owners : UploadOwners)
    (h : intersectUploadRecords value (some selection) requireAll = .ok records)
    (hflat : ∀ r ∈ records, iterChildren r = []) :
    ∀ p ∈ (projectUploads storage owners (selectedUploads records)).result,
      Selected selection p.1 := by
  refine (projectUploads_selected_iff storage owners h).2.mpr fun pre e post _ hnested => ?_
  obtain ⟨r, hr, hchild⟩ := hnested
  rw [hflat r hr] at hchild
  exact absurd hchild List.not_mem_nil

end Selection

/-! ## A record with another one in it -/

/-- A storage without roots. -/
def emptyStorage : UploadStorage where
  roots := []
  isFile _ := false
  isDir _ := false
  rglob _ := []
  sign _ := []

/-- An upload with the uploads nested in it. -/
def albumRecord (fileId : String) (children : List BrokerValue) : BrokerFields :=
  [("file_id", .str fileId.toList), ("pages", .array children [])]

/-- The upload `a`, with the upload `b` nested in it. -/
def album : BrokerFields :=
  albumRecord "a" [.object (albumRecord "b" []) []]

def selectUpload (fileId : String) : List Selector :=
  [⟨"ref".toList, fileId.toList⟩]

/-- An upload without nested ones is projected when it is selected. -/
theorem projectUploads_selected_iff_single :
    (∀ r ∈ [albumRecord "a" []], Selected (selectUpload "a") r) ∧
      ((∀ p ∈ (projectUploads emptyStorage ⟨"mia".toList, []⟩
          (selectedUploads [albumRecord "a" []])).result, Selected (selectUpload "a") p.1) ↔
        NestedSelected (selectUpload "a") [albumRecord "a" []]) := by
  have h : intersectUploadRecords (.array [.object (albumRecord "a" []) []] [])
      (some (selectUpload "a")) false = .ok [albumRecord "a" []] := by
    rfl
  exact projectUploads_selected_iff emptyStorage ⟨"mia".toList, []⟩ h

/-- The upload `a` alone is selected, and `b` is projected with it. -/
theorem projectUploads_unselected :
    intersectUploadRecords (.array [.object album []] []) (some (selectUpload "a")) false =
        .ok [album] ∧
      ¬∀ p ∈ (projectUploads emptyStorage ⟨"mia".toList, []⟩ (selectedUploads [album])).result,
        Selected (selectUpload "a") p.1 := by
  constructor
  · rfl
  · decide +kernel

end Uploads

end GlassHive
