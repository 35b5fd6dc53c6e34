import GlassHive.Library.FirstFree
import GlassHive.Library.Firsts
import GlassHive.UploadProjection

/-!
# Projected uploads in a workspace

What the projection of a ledger returns, and what a merge makes of it beside the files of a bundle.
The projection gives every upload a path of its own before it knows which uploads it can deliver;
the manifest of another one is named after that. The merge takes what it adds for an upload that is
there already by an identity of its own.
-/

namespace GlassHive

namespace Uploads

/-! ## One file of each upload -/

/-- What tells an upload from others: its identifier with its source reference, or its position in
the ledger when it has neither. -/
inductive UploadIdentity
  | named (fileId sourceRef : Text)
  | position (ordinal : ℕ)
  deriving DecidableEq, Repr

def uploadIdentity (e : BrokerFields × ℕ) : UploadIdentity :=
  if (fileIdOf e.1).isEmpty && (projectedRef e.1).isEmpty then .position e.2
  else .named (fileIdOf e.1) (projectedRef e.1)

/-- The reference that stands for a position. -/
def ledgerIndex (ordinal : ℕ) : Text :=
  "ledger-index:".toList ++ (toString ordinal).toList

/-- The pair that the projection compares. -/
def identityText : UploadIdentity → Text × Text
  | .named fileId sourceRef => (fileId, sourceRef)
  | .position ordinal => ([], ledgerIndex ordinal)

theorem identityOf_eq (e : BrokerFields × ℕ) :
    identityOf e = identityText (uploadIdentity e) := by
  have hpair : identityOf e = (fileIdOf e.1, if !(projectedRef e.1).isEmpty then projectedRef e.1
      else if (fileIdOf e.1).isEmpty then ledgerIndex e.2 else []) := rfl
  rw [hpair, uploadIdentity]
  cases hid : fileIdOf e.1 <;> cases href : projectedRef e.1 <;> rfl

/-- No upload without an identifier has a source reference that reads as the position of one that
has neither. -/
def NoPositionRef (entries : List (BrokerFields × ℕ)) : Prop :=
  ∀ d ∈ entries, fileIdOf d.1 = [] → projectedRef d.1 = [] →
    ∀ e ∈ entries, fileIdOf e.1 = [] → projectedRef e.1 ≠ ledgerIndex d.2

theorem ledgerIndex_ne_nil (ordinal : ℕ) : ledgerIndex ordinal ≠ [] :=
  List.append_ne_nil_of_right_ne_nil _ (FirstFree.digits_ne_nil ordinal)

theorem ledgerIndex_injective : Function.Injective ledgerIndex := fun _ _ h =>
  FirstFree.digits_injective (List.append_cancel_left h)

theorem noPositionRef_iff (entries : List (BrokerFields × ℕ)) :
    NoPositionRef entries ↔ ∀ d ∈ entries, ∀ e ∈ entries,
      identityText (uploadIdentity d) = identityText (uploadIdentity e) →
        uploadIdentity d = uploadIdentity e := by
  have hposition : ∀ {e : BrokerFields × ℕ} {n : ℕ}, uploadIdentity e = .position n ↔
      fileIdOf e.1 = [] ∧ projectedRef e.1 = [] ∧ e.2 = n := by
    intro e n
    unfold uploadIdentity
    split <;> simp_all
  have hnamed : ∀ {e : BrokerFields × ℕ} {fileId ref : Text}, uploadIdentity e = .named fileId ref →
      fileIdOf e.1 = fileId ∧ projectedRef e.1 = ref := by
    intro e fileId ref h
    unfold uploadIdentity at h
    split at h <;> simp_all
  constructor
  · intro hno d hd e he h
    cases hdi : uploadIdentity d with
    | named =>
      cases hei : uploadIdentity e with
      | named => rw [hdi, hei] at h; simp_all [identityText]
      | position =>
        rw [hdi, hei] at h
        simp only [identityText, Prod.mk.injEq] at h
        obtain ⟨hid, href, rfl⟩ := hposition.mp hei
        obtain ⟨hid', href'⟩ := hnamed hdi
        exact absurd (href'.trans h.2) (hno e he hid href d hd (hid'.trans h.1))
    | position =>
      obtain ⟨hid, href, rfl⟩ := hposition.mp hdi
      cases hei : uploadIdentity e with
      | named =>
        rw [hdi, hei] at h
        simp only [identityText, Prod.mk.injEq] at h
        obtain ⟨hid', href'⟩ := hnamed hei
        exact absurd (href'.trans h.2.symm) (hno d hd hid href e he (hid'.trans h.1.symm))
      | position =>
        rw [hdi, hei] at h
        simp only [identityText, Prod.mk.injEq, true_and] at h
        rw [ledgerIndex_injective h]
  · intro hinj d hd hid href e he hid' href'
    have hdi : uploadIdentity d = .position d.2 := hposition.mpr ⟨hid, href, rfl⟩
    have hei : uploadIdentity e = .named [] (ledgerIndex d.2) := by
      rw [uploadIdentity, hid', href', List.isEmpty_eq_false_iff.mpr (ledgerIndex_ne_nil _),
        Bool.and_false, if_neg Bool.false_ne_true]
    have h := hinj d hd e he (by rw [hdi, hei]; rfl)
    rw [hdi, hei] at h
    cases h

/-! ## Paths of their own -/

theorem numberedPath_injective (stem extension : Text) :
    Function.Injective (numberedPath stem extension) := by
  intro m n h
  unfold numberedPath at h
  have htail := List.append_cancel_left (List.append_cancel_right h)
  exact FirstFree.digits_injective (List.cons.inj htail).2

theorem freePath_eq (stem extension : Text) (used : List Text) (fuel suffix : ℕ) :
    freePath stem extension used fuel suffix =
      FirstFree.firstFree (numberedPath stem extension) used fuel suffix := by
  induction fuel generalizing suffix with
  | zero => rfl
  | succ fuel ih =>
    rw [freePath, FirstFree.firstFree, ih]
    by_cases h : numberedPath stem extension suffix ∈ used
    · rw [if_pos h, if_pos (List.contains_iff_mem.mpr h)]
    · rw [if_neg h, if_neg (mt List.contains_iff_mem.mp h)]

/-- `_dedupe_path` finds a path that is not in use. -/
theorem dedupePath_notMem (filename : Text) (used : List Text) :
    dedupePath filename used ∉ used := by
  unfold dedupePath
  dsimp only
  split
  · rw [freePath_eq]
    exact FirstFree.firstFree_notMem (numberedPath_injective _ _) 2
  · rename_i h
    rwa [List.contains_iff_mem] at h

/-- What the path of a manifest ends with. -/
def manifestSuffix : Text :=
  ".metadata.json".toList

/-- A path that `_dedupe_path` gives to an upload, and whether only a manifest can be delivered. -/
structure PlannedFile where
  path : Text
  blocked : Bool

/-- The path that is returned for the upload. -/
def PlannedFile.filePath (f : PlannedFile) : Text :=
  if f.blocked then f.path ++ manifestSuffix else f.path

def Delivery.isBlocked : Delivery → Bool
  | .blocked _ => true
  | _ => false

/-- The name that the next upload asks for. -/
def wantedName (u : BrokerFields) (count : ℕ) : Text :=
  safeUploadFilename (displayName u) ("upload-".toList ++ (toString (count + 1)).toList)

/-- `_dedupe_path` of the names of uploads, one after another. -/
def planUpload (storage : UploadStorage) (owners : UploadOwners) (plan : List PlannedFile)
    (u : BrokerFields) : List PlannedFile :=
  plan ++ [⟨dedupePath (wantedName u plan.length) (plan.map PlannedFile.path).reverse,
    (deliveryOf storage owners u (wantedName u plan.length)).isBlocked⟩]

def planUploads (storage : UploadStorage) (owners : UploadOwners) (uploads : List BrokerFields) :
    List PlannedFile :=
  uploads.foldl (planUpload storage owners) []

theorem nodup_planUploads (storage : UploadStorage) (owners : UploadOwners)
    (uploads : List BrokerFields) :
    ((planUploads storage owners uploads).map PlannedFile.path).Nodup := by
  induction uploads using List.reverseRecOn with
  | nil => simp [planUploads]
  | append_singleton uploads u ih =>
    rw [planUploads, List.foldl_append, List.foldl_cons, List.foldl_nil, ← planUploads, planUpload,
      List.map_append, List.map_singleton]
    refine List.nodup_append.mpr ⟨ih, List.nodup_singleton _, fun a ha b hb => ?_⟩
    rw [List.mem_singleton] at hb
    rintro rfl
    exact dedupePath_notMem _ _ (List.mem_reverse.mpr (hb ▸ ha))

/-- The uploads that are projected, each the first of its identity. -/
def distinctUploads (entries : List (BrokerFields × ℕ)) : List BrokerFields :=
  (Firsts.firsts identityOf entries).map Prod.fst

/-- The projection delivers the plan for the distinct uploads. -/
structure Projects (storage : UploadStorage) (owners : UploadOwners)
    (entries : List (BrokerFields × ℕ)) (p : Projection) : Prop where
  uploads : p.result.map Prod.fst = distinctUploads entries
  seen : ∀ key, key ∈ p.seen ↔ key ∈ (Firsts.firsts identityOf entries).map identityOf
  used : p.usedPaths =
    ((planUploads storage owners (distinctUploads entries)).map PlannedFile.path).reverse
  paths : p.result.map (fun r => r.2.path) =
    (planUploads storage owners (distinctUploads entries)).map PlannedFile.filePath

theorem projects_foldl (storage : UploadStorage) (owners : UploadOwners)
    (entries : List (BrokerFields × ℕ)) :
    Projects storage owners entries
      (entries.foldl (projectUpload storage owners) ⟨[], [], []⟩) := by
  induction entries using List.reverseRecOn with
  | nil => exact ⟨rfl, by simp [Firsts.firsts], rfl, rfl⟩
  | append_singleton entries e ih =>
    rw [List.foldl_append, List.foldl_cons, List.foldl_nil]
    generalize entries.foldl (projectUpload storage owners) ⟨[], [], []⟩ = p at ih
    have hfirsts : Firsts.firsts identityOf (entries ++ [e]) =
        Firsts.keep identityOf (Firsts.firsts identityOf entries) e := Firsts.firsts_concat _ _
    by_cases hold : identityOf e ∈ (Firsts.firsts identityOf entries).map identityOf
    · have hseen : p.seen.contains (identityOf e) = true := by
        rw [List.contains_iff_mem, ih.seen]
        exact hold
      have hsame : Firsts.firsts identityOf (entries ++ [e]) =
          Firsts.firsts identityOf entries := by
        rw [hfirsts, Firsts.keep, if_pos hold]
      rw [projectUpload, if_pos hseen]
      constructor
      · rw [distinctUploads, hsame]
        exact ih.uploads
      · rw [hsame]
        exact ih.seen
      · rw [distinctUploads, hsame]
        exact ih.used
      · rw [distinctUploads, hsame]
        exact ih.paths
    · have hseen : ¬p.seen.contains (identityOf e) = true := by
        rw [List.contains_iff_mem, ih.seen]
        exact hold
      have hnew : Firsts.firsts identityOf (entries ++ [e]) =
          Firsts.firsts identityOf entries ++ [e] := by
        rw [hfirsts, Firsts.keep, if_neg hold]
      have hdistinct : distinctUploads (entries ++ [e]) = distinctUploads entries ++ [e.1] := by
        rw [distinctUploads, hnew, List.map_append, List.map_singleton, distinctUploads]
      have hplan : planUploads storage owners (distinctUploads entries ++ [e.1]) =
          planUpload storage owners (planUploads storage owners (distinctUploads entries)) e.1 := by
        rw [planUploads, List.foldl_append]
        rfl
      have hlength : p.result.length =
          (planUploads storage owners (distinctUploads entries)).length := by
        simpa using congrArg List.length ih.paths
      rw [projectUpload, if_neg hseen]
      constructor
      · rw [List.map_append, ih.uploads, hdistinct]
        rfl
      · intro key
        rw [List.mem_cons, ih.seen, hnew, List.map_append, List.mem_append, or_comm]
        simp
      · rw [hdistinct, hplan, planUpload, List.map_append, List.reverse_append, ih.used,
          wantedName, hlength]
        rfl
      · rw [hdistinct, hplan, planUpload, List.map_append, List.map_append, ih.paths, wantedName,
          ← hlength, ih.used]
        congr 1
        rw [List.map_singleton, List.map_singleton, PlannedFile.filePath]
        congr 1
        dsimp only
        cases deliveryOf storage owners e.1 _ <;> rfl

section Ledger

variable (storage : UploadStorage) (owners : UploadOwners) (uploadContext : BrokerValue)

/-- One file for each identity of the ledger. -/
def OneFileEach : Prop :=
  ∃ kept : List (BrokerFields × ℕ), kept.Sublist (iterUploads uploadContext).zipIdx ∧
    (projectUploads storage owners uploadContext).result.map Prod.fst = kept.map Prod.fst ∧
    (kept.map uploadIdentity).Nodup ∧
    ∀ e ∈ (iterUploads uploadContext).zipIdx, uploadIdentity e ∈ kept.map uploadIdentity

/-- The paths that are returned differ. -/
def PathsDiffer : Prop :=
  ((projectUploadFiles storage owners uploadContext).map ProjectedFile.path).Nodup

/-- No upload that can be delivered has the path of the manifest of another one. -/
def NoManifestPath : Prop :=
  ∀ m ∈ planUploads storage owners (distinctUploads (iterUploads uploadContext).zipIdx),
    ∀ f ∈ planUploads storage owners (distinctUploads (iterUploads uploadContext).zipIdx),
      m.blocked = true → f.blocked = false → f.path ≠ m.path ++ manifestSuffix

theorem oneFileEach_iff :
    OneFileEach storage owners uploadContext ↔
      NoPositionRef (iterUploads uploadContext).zipIdx := by
  have hprojects := projects_foldl storage owners (iterUploads uploadContext).zipIdx
  have hidentity : identityOf = identityText ∘ uploadIdentity := funext identityOf_eq
  rw [noPositionRef_iff, OneFileEach, projectUploads, hprojects.uploads, distinctUploads, hidentity]
  exact @Firsts.exists_one_each_iff _ _ _ _ uploadIdentity identityText _
    (fun kept => (Firsts.firsts (identityText ∘ uploadIdentity)
      (iterUploads uploadContext).zipIdx).map Prod.fst = kept.map Prod.fst) rfl
    fun kept h => by simpa using (congrArg List.length h).symm

/-- Files with paths of their own are told apart unless one has the path of a manifest. -/
theorem nodup_filePath_iff {plan : List PlannedFile} (h : (plan.map PlannedFile.path).Nodup) :
    (plan.map PlannedFile.filePath).Nodup ↔ ∀ m ∈ plan, ∀ f ∈ plan, m.blocked = true →
      f.blocked = false → f.path ≠ m.path ++ manifestSuffix := by
  have hinj := List.inj_on_of_nodup_map h
  rw [List.nodup_map_iff_inj_on h.of_map]
  constructor
  · intro hall m hm f hf hblocked hfree heq
    have hsame := hall f hf m hm (by simp [PlannedFile.filePath, hblocked, hfree, heq])
    rw [hsame, hblocked] at hfree
    cases hfree
  · intro hnone m hm f hf heq
    simp only [PlannedFile.filePath] at heq
    cases hmb : m.blocked <;> cases hfb : f.blocked <;> rw [hmb, hfb] at heq
    · exact hinj hm hf heq
    · exact absurd heq (hnone f hf m hm hfb hmb)
    · exact absurd heq.symm (hnone m hm f hf hmb hfb)
    · exact hinj hm hf (List.append_cancel_right heq)

theorem pathsDiffer_iff :
    PathsDiffer storage owners uploadContext ↔ NoManifestPath storage owners uploadContext := by
  have hprojects := projects_foldl storage owners (iterUploads uploadContext).zipIdx
  rw [PathsDiffer, projectUploadFiles, projectUploads, List.map_map]
  have hpaths : ((iterUploads uploadContext).zipIdx.foldl (projectUpload storage owners)
      ⟨[], [], []⟩).result.map (ProjectedFile.path ∘ Prod.snd) = _ := hprojects.paths
  rw [hpaths]
  exact nodup_filePath_iff (nodup_planUploads storage owners _)

end Ledger

/-! ## The merge -/

/-- What the merge compares: the identifier of a file, else its source, else its path. -/
inductive MergeIdentity
  | fileId (value : Text)
  | sourcePath (value : Text)
  | workspacePath (value : Text)
  deriving DecidableEq, Repr

def mergeIdentity (u : BrokerFields) : Option MergeIdentity :=
  if !(fileIdOf u).isEmpty then some (.fileId (fileIdOf u))
  else if !(textOf u "source_path").isEmpty then some (.sourcePath (textOf u "source_path"))
  else if !(textOf u "path").isEmpty then some (.workspacePath (textOf u "path"))
  else none

/-- `os.path.split`. -/
def splitPath (path : Text) : Text × Text :=
  let head := path.rdropWhile (· != '/')
  (if head.all (· == '/') then head else head.rdropWhile (· == '/'), path.rtakeWhile (· != '/'))

/-- `os.path.join`, of a directory and a name without a slash. -/
def joinName (parent name : Text) : Text :=
  if parent.isEmpty || parent.getLast? == some '/' then parent ++ name else parent ++ '/' :: name

/-- A name with a number before its extension. -/
def numberedName (name : Text) (suffix : ℕ) : Text :=
  (splitext name).1 ++ '-' :: (toString suffix).toList ++ (splitext name).2

/-- The file beside another one with a number. -/
def numberedSibling (path : Text) (suffix : ℕ) : Text :=
  joinName (splitPath path).1 (numberedName (splitPath path).2 suffix)

/-- `collision_safe_path`. -/
def collisionSafePath (path : Text) (seen : List Text) : Text :=
  if path.isEmpty || !seen.contains path then path
  else FirstFree.firstFree (numberedSibling path) seen seen.length 2

/-- `entry["path"] = path`, of an entry that has a path. -/
def withPath (u : BrokerFields) (path : Text) : BrokerFields :=
  u.map fun e => if e.1 = "path" then (e.1, .str path) else e

/-- The items of a bundle's files. -/
def itemsOf : BrokerValue → List BrokerValue
  | .array items _ => items
  | _ => []

/-- The items that are objects. -/
def uploadsOf (existing : BrokerValue) : List BrokerFields :=
  (itemsOf existing).filterMap fun item =>
    match item with
    | .object fields _ => some fields
    | _ => none

/-- What a merge has added so far, and the identities and paths that it has seen. -/
structure Merge where
  added : List BrokerFields
  identities : List MergeIdentity
  paths : List Text

/-- What a merge has seen before it adds anything. -/
def Merge.start (existing : BrokerValue) : Merge where
  added := []
  identities := (uploadsOf existing).filterMap mergeIdentity
  paths := ((uploadsOf existing).map (textOf · "path")).filter (!·.isEmpty)

/-- The entry of an upload, and the path that it takes. -/
def entryOf (u : BrokerFields) (path : Text) : BrokerFields :=
  if path.isEmpty then u else withPath u path

/-- One turn of the second loop of `merge_projected_upload_files`. -/
def mergeUpload (m : Merge) (u : BrokerFields) : Merge :=
  if (mergeIdentity u).any m.identities.contains then m
  else
    let path := collisionSafePath (textOf u "path") m.paths
    { added := m.added ++ [entryOf u path]
      identities := m.identities ++ (mergeIdentity u).toList
      paths := if path.isEmpty then m.paths else m.paths ++ [path] }

def mergeUploads (existing : BrokerValue) (projected : List BrokerFields) : Merge :=
  projected.foldl mergeUpload (.start existing)

/-- `merge_projected_upload_files`. -/
def mergeProjectedUploadFiles (existing : BrokerValue) (projected : List BrokerFields) :
    List BrokerValue :=
  itemsOf existing ++ (mergeUploads existing projected).added.map fun u => .object u []

/-! ## A path that is free -/

theorem numberedSibling_injective (path : Text) : Function.Injective (numberedSibling path) := by
  intro m n h
  have hname : numberedName (splitPath path).2 m = numberedName (splitPath path).2 n := by
    unfold numberedSibling joinName at h
    split at h
    · exact List.append_cancel_left h
    · exact (List.cons.inj (List.append_cancel_left h)).2
  exact FirstFree.digits_injective
    (List.cons.inj (List.append_cancel_left (List.append_cancel_right hname))).2

theorem numberedName_ne_nil (name : Text) (suffix : ℕ) : numberedName name suffix ≠ [] := by
  simp [numberedName]

variable {name : Text} {path : Text}

/-- The stem of a name starts like the name. -/
theorem head?_splitext (h : name ≠ []) :
    (splitext name).1.head? = name.head? := by
  unfold splitext
  dsimp only
  split
  · rename_i hstem
    rw [Bool.and_eq_true] at hstem
    generalize hn : name.length - _ = n at hstem ⊢
    cases n with
    | zero => simp at hstem
    | succ => cases name <;> simp_all
  · rfl

/-- The extension of a name ends like the name, or with a dot. -/
theorem getLast?_splitext {c : Char} (h : (splitext name).2.getLast? = some c) :
    c = '.' ∨ name.getLast? = some c := by
  unfold splitext at h
  dsimp only at h
  split at h
  · rw [List.getLast?_cons, List.getLast?_reverse, Option.some.injEq] at h
    rw [← List.head?_reverse]
    cases hrev : name.reverse with
    | nil =>
      rw [hrev] at h
      exact Or.inl h.symm
    | cons =>
      rw [hrev, List.takeWhile_cons] at h
      split at h
      · exact Or.inr (congrArg some h)
      · exact Or.inl h.symm
  · simp at h

/-- A numbered name starts like the name, and ends like it, with a dot or with a digit. -/
theorem head?_numberedName (h : name ≠ []) (suffix : ℕ) :
    (numberedName name suffix).head? = name.head? := by
  have hstem := head?_splitext h
  rw [numberedName, List.append_assoc, List.head?_append, hstem]
  cases name with
  | nil => exact absurd rfl h
  | cons => rfl

theorem getLast?_numberedName {suffix : ℕ} {c : Char}
    (h : (numberedName name suffix).getLast? = some c) :
    c.isDigit = true ∨ c = '.' ∨ name.getLast? = some c := by
  rw [numberedName, List.getLast?_append] at h
  cases hext : (splitext name).2.getLast? with
  | some =>
    rw [hext, Option.some_or, Option.some.injEq] at h
    exact Or.inr (getLast?_splitext (h ▸ hext))
  | none =>
    rw [hext, Option.none_or, List.getLast?_append, List.getLast?_cons] at h
    left
    have hdigits := FirstFree.digits_ne_nil suffix
    obtain ⟨d, hd⟩ := Option.ne_none_iff_exists'.mp
      (List.getLast?_eq_none_iff.not.mpr hdigits)
    rw [hd, Option.some_or, Option.getD_some, Option.some.injEq] at h
    exact FirstFree.isDigit_of_mem_digits (h ▸ List.mem_of_getLast? hd)

theorem not_isSpace_of_isDigit {c : Char} (h : c.isDigit = true) : Text.isSpace c = false := by
  have hrange : 48 ≤ c.toNat ∧ c.toNat ≤ 57 := by
    simp only [Char.isDigit, ge_iff_le, Bool.and_eq_true, decide_eq_true_eq,
      UInt32.le_iff_toNat_le] at h
    exact h
  rw [Bool.eq_false_iff]
  intro hspace
  simp only [Text.isSpace, Bool.or_eq_true, Bool.and_eq_true, decide_eq_true_eq, beq_iff_eq]
    at hspace
  omega

/-- A directory and a name start like the directory, if there is one. -/
theorem head?_joinName {parent : Text} (h : parent ≠ []) (name : Text) :
    (joinName parent name).head? = parent.head? := by
  cases parent with
  | nil => exact absurd rfl h
  | cons =>
    rw [joinName]
    split <;> rfl

theorem joinName_nil (name : Text) : joinName [] name = name := rfl

theorem getLast?_joinName (parent : Text) (h : name ≠ []) :
    (joinName parent name).getLast? = name.getLast? := by
  obtain ⟨c, hc⟩ := Option.ne_none_iff_exists'.mp (List.getLast?_eq_none_iff.not.mpr h)
  rw [joinName]
  split
  · rw [List.getLast?_append, hc, Option.some_or]
  · rw [List.getLast?_append, List.getLast?_cons, hc, Option.some_or, Option.getD_some]

/-- The directory of a path starts like the path. -/
theorem head?_splitPath (h : path.rdropWhile (· != '/') ≠ []) :
    (splitPath path).1 ≠ [] ∧ (splitPath path).1.head? = path.head? := by
  have hpath : (path.rdropWhile (· != '/')).head? = path.head? := by
    obtain ⟨rest, hrest⟩ := List.rdropWhile_prefix (· != '/') path
    conv_rhs => rw [← hrest]
    cases hhead : path.rdropWhile (· != '/') with
    | nil => exact absurd hhead h
    | cons => rfl
  rw [splitPath]
  dsimp only
  split
  · exact ⟨h, hpath⟩
  · rename_i hslash
    have hne : (path.rdropWhile (· != '/')).rdropWhile (· == '/') ≠ [] := by
      rw [Ne, List.rdropWhile_eq_nil_iff]
      simpa using hslash
    obtain ⟨rest, hrest⟩ := List.rdropWhile_prefix (· == '/') (path.rdropWhile (· != '/'))
    refine ⟨hne, hpath ▸ ?_⟩
    conv_rhs => rw [← hrest]
    cases hhead : (path.rdropWhile (· != '/')).rdropWhile (· == '/') with
    | nil => exact absurd hhead hne
    | cons => rfl

/-- The file beside one whose path has no white space at its ends has none either. -/
theorem trimmed_numberedSibling (h : path.Trimmed) (hne : path ≠ []) (suffix : ℕ) :
    (numberedSibling path suffix).Trimmed := by
  have hsplit : path.rdropWhile (· != '/') ++ (splitPath path).2 = path :=
    List.rdropWhile_append_rtakeWhile ..
  constructor
  · intro c hc
    refine h.first c ?_
    by_cases hhead : path.rdropWhile (· != '/') = []
    · have hparent : (splitPath path).1 = [] := by
        rw [splitPath, hhead]
        rfl
      have hname : (splitPath path).2 = path := by rwa [hhead, List.nil_append] at hsplit
      rwa [numberedSibling, hparent, joinName_nil, hname, head?_numberedName hne] at hc
    · obtain ⟨hparent, hfirst⟩ := head?_splitPath hhead
      rwa [numberedSibling, head?_joinName hparent, hfirst] at hc
  · intro c hc
    rw [numberedSibling, getLast?_joinName _ (numberedName_ne_nil _ _)] at hc
    rcases getLast?_numberedName hc with hdigit | rfl | hlast
    · exact not_isSpace_of_isDigit hdigit
    · rfl
    · refine h.last c ?_
      rw [← hsplit, List.getLast?_append, hlast, Option.some_or]

/-- `collision_safe_path` of a path without white space at its ends: a path of this kind that is
free. -/
theorem collisionSafePath_spec (h : path.Trimmed) (hne : path ≠ []) (seen : List Text) :
    collisionSafePath path seen ∉ seen ∧ (collisionSafePath path seen).Trimmed ∧
      collisionSafePath path seen ≠ [] := by
  have hempty : path.isEmpty = false := List.isEmpty_eq_false_iff.mpr hne
  rw [collisionSafePath, hempty, Bool.false_or]
  split
  · rename_i hfree
    rw [Bool.not_eq_true', ← Bool.not_eq_true, List.contains_iff_mem] at hfree
    exact ⟨hfree, h, hne⟩
  · refine ⟨FirstFree.firstFree_notMem (numberedSibling_injective path) 2, ?_⟩
    have hnumber : ∃ n, FirstFree.firstFree (numberedSibling path) seen seen.length 2 =
        numberedSibling path n := FirstFree.exists_eq_firstFree ..
    obtain ⟨n, hn⟩ := hnumber
    rw [hn]
    refine ⟨trimmed_numberedSibling h hne n, fun hnil => ?_⟩
    rw [numberedSibling, joinName] at hnil
    split at hnil <;> simp [numberedName_ne_nil] at hnil

/-- The path that an entry is given is its path. -/
theorem textOf_withPath {u : BrokerFields} (hu : textOf u "path" ≠ []) (h : path.Trimmed) :
    textOf (withPath u path) "path" = path := by
  have hget : (withPath u path).get "path" = .str path := by
    have hkey : (u.lookup "path").isSome = true := by
      rw [Option.isSome_iff_ne_none]
      intro hnone
      apply hu
      rw [textOf, BrokerFields.get, hnone]
      rfl
    rw [BrokerFields.get]
    clear hu
    induction u with
    | nil => cases hkey
    | cons e u ih =>
      rw [withPath, List.map_cons]
      by_cases he : e.1 = "path"
      · rw [if_pos he, List.lookup_cons, he, beq_self_eq_true]
        rfl
      · have hne : ("path" == e.1) = false := beq_eq_false_iff_ne.mpr (Ne.symm he)
        rw [List.lookup_cons, hne] at hkey
        rw [if_neg he, List.lookup_cons, hne]
        exact ih hkey
  rw [textOf, hget]
  cases path with
  | nil => rfl
  | cons => exact h.strip_eq

/-- The path of the entry that a merge adds: none, or a free one. -/
theorem textOf_entryOf (u : BrokerFields) (seen : List Text) :
    textOf (entryOf u (collisionSafePath (textOf u "path") seen)) "path" =
        collisionSafePath (textOf u "path") seen ∧
      (collisionSafePath (textOf u "path") seen ≠ [] →
        collisionSafePath (textOf u "path") seen ∉ seen) := by
  by_cases hu : textOf u "path" = []
  · have hsame : collisionSafePath (textOf u "path") seen = [] := by
      rw [collisionSafePath, hu]
      rfl
    rw [hsame]
    exact ⟨hu, fun h => absurd rfl h⟩
  · have hpath : (textOf u "path").Trimmed := Text.trimmed_strip _
    obtain ⟨hfree, htrimmed, hne⟩ := collisionSafePath_spec hpath hu seen
    refine ⟨?_, fun _ => hfree⟩
    rw [entryOf, List.isEmpty_eq_false_iff.mpr hne, if_neg Bool.false_ne_true]
    exact textOf_withPath hu htrimmed

/-! ## What is merged -/

section Merging

variable (existing : BrokerValue) (projected : List BrokerFields)

theorem mergeUploads_concat (u : BrokerFields) :
    mergeUploads existing (projected ++ [u]) = mergeUpload (mergeUploads existing projected) u := by
  rw [mergeUploads, List.foldl_append]
  rfl

/-- What has been seen is the identities of the files that were there and of the uploads so far. -/
theorem mem_identities (k : MergeIdentity) :
    k ∈ (mergeUploads existing projected).identities ↔
      ∃ q ∈ uploadsOf existing ++ projected, mergeIdentity q = some k := by
  induction projected using List.reverseRecOn with
  | nil => simp [mergeUploads, Merge.start]
  | append_singleton projected u ih =>
    have hsplit : (∃ q ∈ uploadsOf existing ++ (projected ++ [u]), mergeIdentity q = some k) ↔
        (∃ q ∈ uploadsOf existing ++ projected, mergeIdentity q = some k) ∨
          mergeIdentity u = some k := by
      simp only [← List.append_assoc, List.mem_append, List.mem_singleton, or_and_right, exists_or,
        exists_eq_left]
    rw [mergeUploads_concat, hsplit, ← ih, mergeUpload]
    split
    · rename_i hold
      simp only [Option.any_eq_true, List.contains_iff_mem] at hold
      obtain ⟨k', hk', hmem⟩ := hold
      constructor
      · exact Or.inl
      · rintro (h | h)
        · exact h
        · rw [hk', Option.some.injEq] at h
          exact h ▸ hmem
    · simp [eq_comm]

/-- An upload is left out when one with its identity is there. -/
theorem any_contains_iff (u : BrokerFields) :
    (mergeIdentity u).any (mergeUploads existing projected).identities.contains = true ↔
      ∃ k, mergeIdentity u = some k ∧
        ∃ q ∈ uploadsOf existing ++ projected, mergeIdentity q = some k := by
  simp only [Option.any_eq_true, List.contains_iff_mem, mem_identities]

/-- The paths of the files that were there and of the entries that were added have been seen, and
no entry has taken a path before it. -/
structure PathsTaken (m : Merge) : Prop where
  present : ∀ q ∈ uploadsOf existing, textOf q "path" ≠ [] → textOf q "path" ∈ m.paths
  added : ∀ e ∈ m.added, textOf e "path" ≠ [] → textOf e "path" ∈ m.paths
  differ : ∀ pre e post, m.added = pre ++ e :: post → textOf e "path" ≠ [] →
    ∀ q ∈ uploadsOf existing ++ pre, textOf q "path" ≠ textOf e "path"

theorem pathsTaken_mergeUploads : PathsTaken existing (mergeUploads existing projected) := by
  induction projected using List.reverseRecOn with
  | nil =>
    refine ⟨fun q hq hne => ?_, fun e he => absurd he List.not_mem_nil, fun pre e post h => ?_⟩
    · exact List.mem_filter.mpr ⟨List.mem_map_of_mem hq,
        by rw [List.isEmpty_eq_false_iff.mpr hne, Bool.not_false]⟩
    · exact absurd h (by simp [mergeUploads, Merge.start])
  | append_singleton projected u ih =>
    rw [mergeUploads_concat, mergeUpload]
    generalize mergeUploads existing projected = m at ih
    split
    · exact ih
    obtain ⟨hpath, hfree⟩ := textOf_entryOf u m.paths
    dsimp only
    generalize collisionSafePath (textOf u "path") m.paths = path at hpath hfree
    have hmore : ∀ p, p ∈ m.paths → p ∈ if path.isEmpty then m.paths else m.paths ++ [path] := by
      intro p hp
      split
      · exact hp
      · exact List.mem_append_left _ hp
    refine ⟨fun q hq hne => hmore _ (ih.present q hq hne), fun e he hne => ?_,
      fun pre e post hsplit hne q hq => ?_⟩
    · rcases List.mem_append.mp he with hold | hnew
      · exact hmore _ (ih.added e hold hne)
      · rw [List.mem_singleton] at hnew
        subst hnew
        rw [hpath] at hne ⊢
        rw [List.isEmpty_eq_false_iff.mpr hne, if_neg Bool.false_ne_true]
        exact List.mem_append_right _ (List.mem_singleton_self _)
    · rcases List.eq_nil_or_concat post with rfl | ⟨post, last, rfl⟩
      · obtain ⟨rfl, hlast⟩ := List.append_inj' hsplit rfl
        obtain rfl : entryOf u path = e := List.head_eq_of_cons_eq hlast
        rw [hpath] at hne ⊢
        intro heq
        refine hfree hne ?_
        rcases List.mem_append.mp hq with hold | hadded
        · exact heq ▸ ih.present q hold (heq ▸ hne)
        · exact heq ▸ ih.added q hadded (heq ▸ hne)
      · rw [List.concat_eq_append, ← List.cons_append, ← List.append_assoc] at hsplit
        exact ih.differ pre e post (List.append_inj' hsplit rfl).1 hne q hq

/-- The path of a file. -/
def pathOf : BrokerValue → Text
  | .object u _ => textOf u "path"
  | _ => []

/-- What a merge promises, where `same q u` says that `q` is the same upload as `u`: every file that
was there is unchanged, an upload is added in its turn unless the same one is there already, with at
most its path changed, and no file that is added has the path of one before it. -/
structure Merged (same : BrokerFields → BrokerFields → Prop) : Prop where
  kept : itemsOf existing <+: mergeProjectedUploadFiles existing projected
  grows : ∀ pre, pre <+: projected →
    mergeProjectedUploadFiles existing pre <+: mergeProjectedUploadFiles existing projected
  added : ∀ pre u, pre ++ [u] <+: projected → (∃ q ∈ uploadsOf existing ++ pre, same q u) ∨
    ∃ entry, (entry = u ∨ ∃ path, entry = withPath u path) ∧
      mergeProjectedUploadFiles existing (pre ++ [u]) =
        mergeProjectedUploadFiles existing pre ++ [.object entry []]
  differ : ∀ pre f post, mergeProjectedUploadFiles existing projected = pre ++ f :: post →
    (itemsOf existing).length ≤ pre.length → pathOf f ≠ [] → ∀ g ∈ pre, pathOf g ≠ pathOf f

/-- Where an upload has the identity of a file that is there or of an upload before it, the same
upload is among these. -/
def SharedBySame (same : BrokerFields → BrokerFields → Prop) : Prop :=
  ∀ pre u, pre ++ [u] <+: projected → ∀ k, mergeIdentity u = some k →
    (∃ q ∈ uploadsOf existing ++ pre, mergeIdentity q = some k) →
      ∃ q ∈ uploadsOf existing ++ pre, same q u

/-- What one upload adds to the files. -/
theorem mergeProjectedUploadFiles_concat (u : BrokerFields) :
    (∃ k, mergeIdentity u = some k ∧
        (∃ q ∈ uploadsOf existing ++ projected, mergeIdentity q = some k) ∧
        mergeProjectedUploadFiles existing (projected ++ [u]) =
          mergeProjectedUploadFiles existing projected) ∨
    (∀ k, mergeIdentity u = some k →
        ¬∃ q ∈ uploadsOf existing ++ projected, mergeIdentity q = some k) ∧
      ∃ entry, (entry = u ∨ ∃ path, entry = withPath u path) ∧
        mergeProjectedUploadFiles existing (projected ++ [u]) =
          mergeProjectedUploadFiles existing projected ++ [.object entry []] := by
  have hdrop := any_contains_iff existing projected u
  rw [mergeProjectedUploadFiles, mergeProjectedUploadFiles, mergeUploads_concat, mergeUpload]
  split
  · rename_i hold
    obtain ⟨k, hk, hq⟩ := hdrop.mp hold
    exact Or.inl ⟨k, hk, hq, rfl⟩
  · rename_i hnew
    refine Or.inr ⟨fun k hk hq => hnew (hdrop.mpr ⟨k, hk, hq⟩), entryOf u
      (collisionSafePath (textOf u "path") (mergeUploads existing projected).paths), ?_, ?_⟩
    · rw [entryOf]
      split
      · exact Or.inl rfl
      · exact Or.inr ⟨_, rfl⟩
    · simp only [List.map_append, List.map_cons, List.map_nil, List.append_assoc]

theorem mergeProjectedUploadFiles_prefix (pre post : List BrokerFields) :
    mergeProjectedUploadFiles existing pre <+:
      mergeProjectedUploadFiles existing (pre ++ post) := by
  induction post using List.reverseRecOn with
  | nil => simp
  | append_singleton post u ih =>
    rw [← List.append_assoc]
    rcases mergeProjectedUploadFiles_concat existing (pre ++ post) u with
      ⟨k, -, -, heq⟩ | ⟨-, entry, -, heq⟩
    · rwa [heq]
    · rw [heq]
      exact ih.trans (List.prefix_append _ _)

/-- No file that is added has the path of one before it. -/
theorem differ_mergeProjectedUploadFiles {pre post : List BrokerValue} {f : BrokerValue}
    (h : mergeProjectedUploadFiles existing projected = pre ++ f :: post)
    (hlength : (itemsOf existing).length ≤ pre.length) (hne : pathOf f ≠ []) :
    ∀ g ∈ pre, pathOf g ≠ pathOf f := by
  have htaken := pathsTaken_mergeUploads existing projected
  obtain ⟨earlier, rfl⟩ : itemsOf existing <+: pre :=
    List.prefix_of_prefix_length_le (List.prefix_append _ _) (h ▸ List.prefix_append _ _) hlength
  rw [mergeProjectedUploadFiles, List.append_assoc, List.append_cancel_left_eq,
    List.map_eq_append_iff] at h
  obtain ⟨before, rest, hadded, rfl, hrest⟩ := h
  obtain ⟨e, after, rfl, rfl, rfl⟩ := List.map_eq_cons_iff.mp hrest
  have hdiffer := htaken.differ before e after hadded hne
  intro g hg
  rcases List.mem_append.mp hg with hitem | hearlier
  · cases g with
    | object u =>
      refine hdiffer u (List.mem_append_left _ ?_)
      exact List.mem_filterMap.mpr ⟨_, hitem, rfl⟩
    | _ => exact Ne.symm hne
  · obtain ⟨u, hu, rfl⟩ := List.mem_map.mp hearlier
    exact hdiffer u (List.mem_append_right _ hu)

theorem merged_iff (same : BrokerFields → BrokerFields → Prop) :
    Merged existing projected same ↔ SharedBySame existing projected same := by
  constructor
  · intro h pre u hpre k hk hq
    rcases h.added pre u hpre with hsame | ⟨entry, -, hadded⟩
    · exact hsame
    · rcases mergeProjectedUploadFiles_concat existing pre u with
        ⟨-, -, -, heq⟩ | ⟨hnew, -⟩
      · rw [heq] at hadded
        simpa using congrArg List.length hadded
      · exact absurd hq (hnew k hk)
  · intro h
    refine ⟨List.prefix_append _ _, fun pre hpre => ?_, fun pre u hpre => ?_,
      fun pre f post hsplit hlength hne =>
        differ_mergeProjectedUploadFiles existing projected hsplit hlength hne⟩
    · obtain ⟨post, rfl⟩ := hpre
      exact mergeProjectedUploadFiles_prefix existing pre post
    · rcases mergeProjectedUploadFiles_concat existing pre u with
        ⟨k, hk, hq, -⟩ | ⟨-, entry, hentry, heq⟩
      · exact Or.inl (h pre u hpre k hk hq)
      · exact Or.inr ⟨entry, hentry, heq⟩

/-- With the identity of the merge itself for sameness, the merge always keeps its promise. -/
theorem merged_mergeIdentity :
    Merged existing projected fun q u => mergeIdentity q = mergeIdentity u := by
  rw [merged_iff]
  rintro pre u - k hk ⟨q, hq, hqk⟩
  exact ⟨q, hq, hqk.trans hk.symm⟩

end Merging

/-- The projection of a ledger returns one file of each upload, under paths that differ, exactly
when no source reference reads as a position and no file has the path of a manifest. The merge
keeps its promise exactly when what it takes for the same upload is. -/
theorem projection_and_merge_iff (storage : UploadStorage) (owners : UploadOwners)
    (uploadContext existing : BrokerValue) (projected : List BrokerFields)
    (same : BrokerFields → BrokerFields → Prop) :
    (OneFileEach storage owners uploadContext ∧ PathsDiffer storage owners uploadContext ↔
      NoPositionRef (iterUploads uploadContext).zipIdx ∧
        NoManifestPath storage owners uploadContext) ∧
    (Merged existing projected same ↔ SharedBySame existing projected same) :=
  ⟨and_congr (oneFileEach_iff storage owners uploadContext)
    (pathsDiffer_iff storage owners uploadContext), merged_iff existing projected same⟩

/-! ## A file named like a manifest -/

/-- A report whose bytes are not available, and a note that is named like its manifest. -/
def reportAndNote : BrokerValue :=
  .array [.object [("filename", .str "r.pdf".toList)] [],
    .object [("filename", .str "r.pdf.metadata.json".toList), ("text", .str "x".toList)] []] []

/-- The note takes the path of the manifest of the report. -/
theorem paths_collide : ¬PathsDiffer emptyStorage ⟨"mia".toList, []⟩ reportAndNote := by
  unfold PathsDiffer
  decide +kernel

end Uploads

end GlassHive
