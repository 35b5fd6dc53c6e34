import GlassHive.LibraryManifests
import Mathlib.Data.List.Dedup

/-!
# Files of validated manifests

A validated manifest stays valid: its normalized form is validated to itself. Its files stay inside
the workspace. The reserved paths and the duplicates among the paths of a bundle, though, are
looked for by the text of a path, so that another spelling of a path is not recognized.
-/

namespace GlassHive.LibraryManifests

open RunActions (get textOrEmpty truthy isText isNumber isAlnum isText_iff textOrEmpty_str)
open Json (Fields has keysWithin keysAre getOr update)
open Fallible (demand bind_eq_ok demand_bind_eq_ok demand_eq_ok eq_ok_of_isOk map_eq_ok forM_eq_ok)

variable {pf : Platform}

/-! ## Normal texts -/

@[simp] theorem stripped_str (t : Points) : stripped pf (.str t) = Points.strip t := by
  rw [stripped, textOrEmpty_str]

theorem strip_stripped (value : Json) : Points.strip (stripped pf value) = stripped pf value :=
  Points.strip_strip _

/-- A character that neither case nor stripping changes. -/
def Settled (t : Points) : Prop :=
  ∀ c ∈ t, lowerPoint c = c ∧ Points.isSpace c = false

variable {ts out dependencyIds : List Points} {value entry : Json} {t stableId : Points}
  {c : Checked} {normalized manifest activation fields : Fields}
  {profiles out dependencyIds : List Points} {values files : List Json} {key message : String}
  {u : Unit} {maximum : ℕ} {p : Probe} {ds : List Dependency}

theorem Settled.lower_strip (h : Settled t) : lower (Points.strip t) = t := by
  rw [Points.strip_of_forall fun c hc => (h c hc).2, lower]
  exact (List.map_congr_left fun c hc => (h c hc).1).trans (List.map_id t)

theorem settled_of_isStableChar {c : ℕ} (h : isStableChar c = true) :
    lowerPoint c = c ∧ Points.isSpace c = false := by
  simp only [isStableChar, isLowerAlpha, isDigit, Bool.or_eq_true, Bool.and_eq_true,
    decide_eq_true_eq, beq_iff_eq] at h
  constructor
  · unfold lowerPoint
    rw [if_neg (by omega), if_neg (by omega)]
  · simp only [Points.isSpace, Bool.or_eq_false_iff, Bool.and_eq_false_iff, decide_eq_false_iff_not,
      beq_eq_false_iff_ne]
    omega

theorem settled_of_isStableId (h : isStableId t = true) : Settled t := by
  cases t with
  | nil => cases h
  | cons =>
    simp only [isStableId, Bool.and_eq_true, List.all_eq_true] at h
    obtain ⟨⟨⟨hc, _⟩, _⟩, hcs⟩ := h
    intro d hd
    rcases List.mem_cons.mp hd with rfl | hd
    · refine settled_of_isStableChar ?_
      rw [isStableChar, hc]
      rfl
    · exact settled_of_isStableChar (hcs d hd)

/-- `[0-9a-f:]`, and the letters of the name of the hash. -/
theorem settled_hash_prefix : Settled (Points.ofString "sha256:") := by
  unfold Settled
  decide

theorem settled_of_hexDigit {c : ℕ} (h : isDigit c = true ∨ (97 ≤ c ∧ c ≤ 102)) :
    lowerPoint c = c ∧ Points.isSpace c = false := by
  refine settled_of_isStableChar ?_
  simp only [isDigit, Bool.and_eq_true, decide_eq_true_eq] at h
  simp only [isStableChar, isLowerAlpha, isDigit, Bool.or_eq_true, Bool.and_eq_true,
    decide_eq_true_eq, beq_iff_eq]
  omega

theorem settled_append {s : Points} (hs : Settled s) (ht : Settled t) : Settled (s ++ t) := by
  intro c hc
  rcases List.mem_append.mp hc with hc | hc
  · exact hs c hc
  · exact ht c hc

theorem settled_of_isContentHash (h : isContentHash t = true) : Settled t := by
  simp only [isContentHash, Bool.and_eq_true, List.all_eq_true] at h
  obtain ⟨⟨hstart, _⟩, hdigits⟩ := h
  obtain ⟨rest, rfl⟩ := List.isPrefixOf_iff_prefix.mp hstart
  refine settled_append settled_hash_prefix ?_
  intro c hc
  have hdrop : (Points.ofString "sha256:" ++ rest).drop 7 = rest := rfl
  have := hdigits c (hdrop ▸ hc)
  refine settled_of_hexDigit ?_
  simpa only [Bool.or_eq_true, Bool.and_eq_true, decide_eq_true_eq] using this

theorem settled_libraryContentHash {activation : Json}
    (h : libraryContentHash pf activation = .ok t) : Settled t := by
  unfold libraryContentHash at h
  split at h
  · cases h
  · obtain rfl := Except.ok.inj h
    refine settled_append settled_hash_prefix ?_
    intro c hc
    obtain ⟨b, _, hb⟩ := List.mem_flatMap.mp hc
    have hdigit : ∀ n < 16, isDigit (Json.hexDigit n) = true ∨
        (97 ≤ Json.hexDigit n ∧ Json.hexDigit n ≤ 102) := by decide
    have hbyte : b.toNat < 256 := UInt8.toNat_lt b
    rcases List.mem_pair.mp hb with rfl | rfl
    · exact settled_of_hexDigit (hdigit _ (by omega))
    · exact settled_of_hexDigit (hdigit _ (by omega))

/-! ## Lists of texts -/

theorem mem_sortedTexts : t ∈ sortedTexts ts ↔ t ∈ ts :=
  (List.perm_insertionSort _ ts).mem_iff

theorem sortedTexts_sortedTexts (ts : List Points) :
    sortedTexts (sortedTexts ts) = sortedTexts ts :=
  (List.pairwise_insertionSort _ ts).insertionSort_eq

theorem nodup_sortedTexts (h : ts.Nodup) : (sortedTexts ts).Nodup :=
  (List.perm_insertionSort _ ts).nodup_iff.mpr h

theorem mem_sortedSet : t ∈ sortedSet ts ↔ t ∈ ts := by
  rw [sortedSet, (List.perm_insertionSort _ _).mem_iff, List.mem_dedup]

theorem sortedSet_sortedSet (ts : List Points) : sortedSet (sortedSet ts) = sortedSet ts := by
  have hnodup : (sortedSet ts).Nodup :=
    (List.perm_insertionSort _ _).nodup_iff.mpr (List.nodup_dedup ts)
  rw [sortedSet, hnodup.dedup]
  exact sortedTexts_sortedTexts ts.dedup

/-- The texts of a list come out stripped, when there is none that is empty, too long or there
before. -/
theorem cleanInto_eq_ok {result : List Points} :
    cleanInto pf maximum message result values = .ok out ↔
      out = result ++ values.map (stripped pf) ∧
      (∀ v ∈ values, stripped pf v ≠ [] ∧ (stripped pf v).length ≤ maximum ∧
        stripped pf v ∉ result) ∧
      (values.map (stripped pf)).Nodup := by
  induction values generalizing result with
  | nil =>
    simp only [cleanInto, List.map_nil, List.append_nil, Except.ok.injEq]
    constructor
    · rintro rfl
      exact ⟨rfl, fun v hv => absurd hv List.not_mem_nil, List.nodup_nil⟩
    · rintro ⟨rfl, _⟩
      rfl
  | cons v values ih =>
    simp only [cleanInto, require, demand_bind_eq_ok, ih, Bool.not_eq_true',
      Bool.or_eq_false_iff, List.isEmpty_eq_false_iff, decide_eq_false_iff_not, not_lt,
      List.contains_eq_mem, List.map_cons, List.nodup_cons, List.forall_mem_cons,
      List.mem_append, List.mem_singleton, not_or, List.mem_map, not_exists, not_and]
    rw [List.append_assoc, List.singleton_append]
    constructor
    · rintro ⟨⟨⟨hne, hlength⟩, hnew⟩, hout, hrest, hnodup⟩
      refine ⟨hout, ⟨⟨hne, hlength, hnew⟩, fun w hw => ?_⟩, fun w hw => ?_, hnodup⟩
      · exact ⟨(hrest w hw).1, (hrest w hw).2.1, (hrest w hw).2.2.1⟩
      · exact (hrest w hw).2.2.2
    · rintro ⟨hout, ⟨⟨hne, hlength, hnew⟩, hrest⟩, hfresh, hnodup⟩
      refine ⟨⟨⟨hne, hlength⟩, hnew⟩, hout, fun w hw => ?_, hnodup⟩
      exact ⟨(hrest w hw).1, (hrest w hw).2.1, (hrest w hw).2.2, hfresh w hw⟩

/-- Texts that came out clean come out of a clean list of them. -/
theorem cleanInto_texts (h : cleanInto pf maximum message [] values = .ok out) :
    cleanInto pf maximum message [] ((sortedTexts out).map .str) = .ok (sortedTexts out) := by
  obtain ⟨rfl, hvalues, hnodup⟩ := cleanInto_eq_ok.mp h
  rw [List.nil_append]
  have hmem : ∀ t ∈ sortedTexts (values.map (stripped pf)),
      Points.strip t = t ∧ t ≠ [] ∧ t.length ≤ maximum := by
    intro t ht
    obtain ⟨v, hv, rfl⟩ := List.mem_map.mp (mem_sortedTexts.mp ht)
    exact ⟨strip_stripped v, (hvalues v hv).1, (hvalues v hv).2.1⟩
  have hmap : ((sortedTexts (values.map (stripped pf))).map Json.str).map (stripped pf) =
      sortedTexts (values.map (stripped pf)) := by
    rw [List.map_map]
    refine (List.map_congr_left fun t ht => ?_).trans (List.map_id _)
    exact (stripped_str t).trans (hmem t ht).1
  refine cleanInto_eq_ok.mpr ⟨?_, ?_, ?_⟩
  · rw [hmap, List.nil_append]
  · intro v hv
    obtain ⟨t, ht, rfl⟩ := List.mem_map.mp hv
    rw [stripped_str, (hmem t ht).1]
    exact ⟨(hmem t ht).2.1, (hmem t ht).2.2, List.not_mem_nil⟩
  · rw [hmap]
    exact nodup_sortedTexts hnodup

/-- The texts that were stripped are stripped again to themselves. -/
theorem map_stripped_texts (h : ∀ t ∈ ts, Points.strip t = t) :
    (ts.map Json.str).map (stripped pf) = ts := by
  rw [List.map_map]
  exact (List.map_congr_left fun t ht => (stripped_str t).trans (h t ht)).trans (List.map_id ts)

/-! ## What validation finds is found again -/

theorem validateProvenance_toJson {p : Provenance} (h : validateProvenance pf value = .ok p) :
    validateProvenance pf p.toJson = .ok p := by
  cases value with
  | obj =>
    simp only [validateProvenance] at h
    split at h
    · cases h
    · rename_i url hurl
      simp only [require, demand_bind_eq_ok] at h
      obtain ⟨hsource, hbounds, hp⟩ := h
      obtain rfl := Except.ok.inj hp
      have hget (s t u : Points) :
          get [(Points.ofString "source", .str s), (Points.ofString "publisher", .str t),
            (Points.ofString "revision", .str u)] "source" = .str s ∧
          get [(Points.ofString "source", .str s), (Points.ofString "publisher", .str t),
            (Points.ofString "revision", .str u)] "publisher" = .str t ∧
          get [(Points.ofString "source", .str s), (Points.ofString "publisher", .str t),
            (Points.ofString "revision", .str u)] "revision" = .str u :=
        ⟨rfl, rfl, rfl⟩
      simp only [Provenance.toJson, validateProvenance, (hget _ _ _).1, (hget _ _ _).2.1,
        (hget _ _ _).2.2, stripped_str, strip_stripped, hurl, require, demand_bind_eq_ok]
      exact ⟨hsource, hbounds, rfl⟩
  | _ => cases h

theorem validateConfigurationSchema_eq_ok {schema : Json}
    (h : validateConfigurationSchema value = .ok schema) : schema = value := by
  cases value with
  | obj =>
    simp only [validateConfigurationSchema, require, demand_bind_eq_ok] at h
    obtain ⟨_, _, h⟩ := h
    split at h
    · simp only [demand_bind_eq_ok] at h
      obtain ⟨_, h⟩ := h
      obtain ⟨_, _, h⟩ := bind_eq_ok.mp h
      obtain ⟨_, h⟩ := demand_bind_eq_ok.mp h
      exact (Except.ok.inj h).symm
    · cases h
  | _ => cases h

theorem validateLifecycle_eq_ok {lifecycle : Json} (h : validateLifecycle value = .ok lifecycle) :
    lifecycle = value := by
  cases value with
  | obj =>
    simp only [validateLifecycle, require, demand_bind_eq_ok] at h
    exact (Except.ok.inj h.2).symm
  | _ => cases h

/-- An activation comes back as it is, and is valid for some of its profiles. -/
theorem validateActivation_eq_ok :
    validateActivation pf value profiles = .ok activation ↔
      value = .obj activation ∧
      isText (get activation "type") (Points.ofString "bootstrap_bundle") = true ∧
      keysWithin activation ["type", "bundle", "profiles"] = true ∧
      ∀ profile ∈ profiles, ∃ bundle,
        activationBundleForProfile activation profile = .ok bundle ∧
          validateBundle pf bundle profile = .ok () := by
  cases value with
  | obj =>
    simp only [validateActivation, require, demand_bind_eq_ok, Json.obj.injEq]
    simp only [bind_eq_ok, forM_eq_ok]
    constructor
    · rintro ⟨htype, hkeys, _, hbundles, hfields⟩
      obtain rfl := Except.ok.inj hfields
      exact ⟨rfl, htype, hkeys, hbundles⟩
    · rintro ⟨rfl, htype, hkeys, hbundles⟩
      exact ⟨htype, hkeys, (), hbundles, rfl⟩
  | _ => simp [validateActivation, refuse]

theorem getOr_probe (p : Probe) (fields : Fields) (h : p.toJson = .obj fields) :
    getOr fields "required_files" (.arr []) = texts p.requiredFiles ∧
    getOr fields "required_bundle_keys" (.arr []) = texts p.requiredBundleKeys ∧
    getOr fields "required_mcp_servers" (.arr []) = texts p.requiredMcpServers ∧
    isText (get fields "type") (Points.ofString "bootstrap_contract") = true ∧
    keysWithin fields
      ["type", "required_files", "required_bundle_keys", "required_mcp_servers"] = true := by
  obtain rfl := Json.obj.inj h
  exact ⟨rfl, rfl, rfl, rfl, rfl⟩

theorem probeTexts_eq_ok (h : probeTexts pf fields key = .ok ts) :
    ∀ t ∈ ts, Points.strip t = t := by
  obtain ⟨items, _, h⟩ := bind_eq_ok.mp h
  obtain rfl := Except.ok.inj h
  intro t ht
  obtain ⟨v, _, rfl⟩ := List.mem_map.mp ht
  exact strip_stripped v

theorem probeTexts_of_texts (hget : getOr fields key (.arr []) = texts ts)
    (h : ∀ t ∈ ts, Points.strip t = t) : probeTexts pf fields key = .ok ts := by
  rw [probeTexts, hget]
  exact congrArg Except.ok (map_stripped_texts h)

theorem isEmpty_sortedSet (ts : List Points) : (sortedSet ts).isEmpty = ts.isEmpty := by
  rw [Bool.eq_iff_iff, List.isEmpty_iff, List.isEmpty_iff, List.eq_nil_iff_forall_not_mem,
    List.eq_nil_iff_forall_not_mem]
  simp only [mem_sortedSet]

theorem all_sortedSet (p : Points → Bool) (ts : List Points) :
    (sortedSet ts).all p = ts.all p := by
  rw [Bool.eq_iff_iff, List.all_eq_true, List.all_eq_true]
  simp only [mem_sortedSet]

/-- A probe of stripped texts, in order and each of them once, is valid. -/
theorem validateProbe_of_normal
    (hstrip : ∀ t ∈ p.requiredFiles ++ p.requiredBundleKeys ++ p.requiredMcpServers,
      Points.strip t = t)
    (hfiles : (p.requiredFiles.all fun item => !item.isEmpty && item.length ≤ 240) = true)
    (hkeys : (p.requiredBundleKeys.all fun item => oneOf item libraryBundleKeys) = true)
    (hservers : p.requiredMcpServers.all isMcpServer = true)
    (hsome : (!(p.requiredFiles.isEmpty && p.requiredBundleKeys.isEmpty &&
      p.requiredMcpServers.isEmpty)) = true)
    (hsorted : sortedSet p.requiredFiles = p.requiredFiles ∧
      sortedSet p.requiredBundleKeys = p.requiredBundleKeys ∧
      sortedSet p.requiredMcpServers = p.requiredMcpServers) :
    validateProbe pf p.toJson = .ok p := by
  obtain ⟨hgetFiles, hgetKeys, hgetServers, htype, hwithin⟩ := getOr_probe p _ rfl
  simp only [List.mem_append] at hstrip
  simp only [validateProbe, Probe.toJson, require, demand_bind_eq_ok]
  refine ⟨htype, hwithin, ?_⟩
  rw [probeTexts_of_texts hgetFiles fun t ht => hstrip t (.inl (.inl ht)),
    probeTexts_of_texts hgetKeys fun t ht => hstrip t (.inl (.inr ht)),
    probeTexts_of_texts hgetServers fun t ht => hstrip t (.inr ht)]
  change (demand _ _ >>= fun _ => demand _ _ >>= fun _ => demand _ _ >>= fun _ =>
    demand _ _ >>= fun _ => _) = _
  simp only [demand_bind_eq_ok]
  refine ⟨hfiles, hkeys, hservers, hsome, ?_⟩
  rw [hsorted.1, hsorted.2.1, hsorted.2.2]
  rfl

theorem validateProbe_toJson (h : validateProbe pf value = .ok p) :
    validateProbe pf p.toJson = .ok p := by
  cases value with
  | obj =>
    simp only [validateProbe, require, demand_bind_eq_ok] at h
    obtain ⟨_, _, h⟩ := h
    obtain ⟨files, hfiles, h⟩ := bind_eq_ok.mp h
    obtain ⟨keys, hkeys, h⟩ := bind_eq_ok.mp h
    obtain ⟨servers, hservers, h⟩ := bind_eq_ok.mp h
    simp only [demand_bind_eq_ok] at h
    obtain ⟨hfileTexts, hkeyTexts, hserverTexts, hsome, h⟩ := h
    obtain rfl := Except.ok.inj h
    refine validateProbe_of_normal ?_ ?_ ?_ ?_ ?_
      ⟨sortedSet_sortedSet _, sortedSet_sortedSet _, sortedSet_sortedSet _⟩
    · intro t ht
      simp only [List.mem_append, mem_sortedSet] at ht
      rcases ht with (ht | ht) | ht
      · exact probeTexts_eq_ok hfiles t ht
      · exact probeTexts_eq_ok hkeys t ht
      · exact probeTexts_eq_ok hservers t ht
    · rwa [all_sortedSet]
    · rwa [all_sortedSet]
    · rwa [all_sortedSet]
    · rwa [isEmpty_sortedSet, isEmpty_sortedSet, isEmpty_sortedSet]
  | _ => cases h

theorem map_text_texts (ts : List Points) : (ts.map Json.str).map (text pf) = ts := by
  rw [List.map_map]
  exact (List.map_congr_left fun t _ => rfl).trans (List.map_id ts)

theorem validateDependency_toJson {d : Dependency}
    (h : validateDependency pf stableId dependencyIds value = .ok d) :
    validateDependency pf stableId dependencyIds d.toJson = .ok d := by
  cases value with
  | obj fields =>
    simp only [validateDependency, require, demand_bind_eq_ok] at h
    obtain ⟨_, hidentity, hnew, hhash, h⟩ := h
    split at h
    · rename_i scopes _
      simp only [demand_bind_eq_ok] at h
      obtain ⟨hscopes, h⟩ := h
      obtain rfl := Except.ok.inj h
      have hid := (Bool.and_eq_true _ _ ▸ hidentity).1
      have hstable : lower (Points.strip (lower (stripped pf (get fields "stable_id")))) =
          lower (stripped pf (get fields "stable_id")) :=
        (settled_of_isStableId hid).lower_strip
      have hcontent : lower (Points.strip (lower (stripped pf (get fields "content_hash")))) =
          lower (stripped pf (get fields "content_hash")) :=
        (settled_of_isContentHash hhash).lower_strip
      have hget (i v c : Points) (s : Json) :
          let fs := [(Points.ofString "stable_id", Json.str i),
            (Points.ofString "version", .str v), (Points.ofString "content_hash", .str c),
            (Points.ofString "scopes", s)]
          get fs "stable_id" = .str i ∧ get fs "version" = .str v ∧
            get fs "content_hash" = .str c ∧ get fs "scopes" = s ∧
            keysAre fs ["stable_id", "version", "content_hash", "scopes"] = true :=
        ⟨rfl, rfl, rfl, rfl, rfl⟩
      obtain ⟨hgetId, hgetVersion, hgetHash, hgetScopes, hkeys⟩ := hget
        (lower (stripped pf (get fields "stable_id"))) (stripped pf (get fields "version"))
        (lower (stripped pf (get fields "content_hash")))
        (texts (sortedSet (scopes.map (text pf))))
      simp only [Dependency.toJson, validateDependency, require, demand_bind_eq_ok, hgetId,
        hgetVersion, hgetHash, hgetScopes, hkeys, stripped_str, strip_stripped, hstable, hcontent]
      refine ⟨trivial, hidentity, hnew, hhash, ?_⟩
      simp only [texts, map_text_texts, demand_bind_eq_ok, all_sortedSet, sortedSet_sortedSet]
      exact ⟨hscopes, rfl⟩
    · cases h
  | _ => cases h

theorem validateDependencies_toJson
    (h : validateDependencies pf stableId dependencyIds values = .ok ds) :
    validateDependencies pf stableId dependencyIds (ds.map Dependency.toJson) = .ok ds ∧
      ds.length = values.length := by
  induction values generalizing dependencyIds ds with
  | nil =>
    obtain rfl := Except.ok.inj h
    exact ⟨rfl, rfl⟩
  | cons value values ih =>
    obtain ⟨d, hd, h⟩ := bind_eq_ok.mp h
    obtain ⟨rest, hrest, h⟩ := bind_eq_ok.mp h
    obtain rfl := Except.ok.inj h
    obtain ⟨hagain, hlength⟩ := ih hrest
    refine ⟨?_, by rw [List.length_cons, List.length_cons, hlength]⟩
    refine bind_eq_ok.mpr ⟨d, validateDependency_toJson hd, ?_⟩
    exact bind_eq_ok.mpr ⟨rest, hagain, rfl⟩

theorem listDependencies_toJson (h : listDependencies pf value stableId = .ok ds) :
    listDependencies pf (.arr (ds.map Dependency.toJson)) stableId = .ok ds := by
  cases value with
  | arr =>
    simp only [listDependencies, require, demand_bind_eq_ok, decide_eq_true_eq] at h ⊢
    obtain ⟨hagain, hlength⟩ := validateDependencies_toJson h.2
    rw [List.length_map, hlength]
    exact ⟨h.1, hagain⟩
  | _ => cases h

/-! ## Manifests -/

/-- What the validation of the fields of a manifest finds in them. -/
structure Finds (pf : Platform) (manifest : Fields) (c : Checked) : Prop where
  schemaVersion : isNumber pf.py (get manifest "schema_version") 1 = true
  stableId : lower (stripped pf (get manifest "stable_id")) = c.stableId ∧
    isStableId c.stableId = true
  version : stripped pf (get manifest "version") = c.version ∧ isVersion c.version = true
  profiles : ∃ profiles, cleanStrings pf (get manifest "supported_profiles") "supported_profiles" =
      .ok profiles ∧ (profiles.all fun profile => oneOf profile libraryProfiles) = true ∧
    validateActivation pf (get manifest "activation") profiles = .ok c.activation ∧
    c.supportedProfiles = sortedTexts profiles
  scopes : ∃ scopes, cleanScopes pf (get manifest "requested_scopes") = .ok scopes ∧
    c.requestedScopes = sortedTexts scopes
  provenance : validateProvenance pf (get manifest "provenance") = .ok c.provenance
  configurationSchema : validateConfigurationSchema (get manifest "configuration_schema") =
    .ok c.configurationSchema
  contentHash : libraryContentHash pf (.obj c.activation) = .ok c.contentHash ∧
    lower (stripped pf (get manifest "content_hash")) = c.contentHash
  dependencies : listDependencies pf (get manifest "dependencies") c.stableId = .ok c.dependencies
  lifecycle : validateLifecycle (get manifest "lifecycle") = .ok c.lifecycle
  healthProbe : validateProbe pf (get manifest "health_probe") = .ok c.healthProbe

theorem checkManifest_eq_ok : checkManifest pf manifest = .ok c ↔ Finds pf manifest c := by
  simp only [checkManifest, require, demand_bind_eq_ok]
  simp only [bind_eq_ok]
  constructor
  · rintro ⟨hschema, hid, hversion, profiles, hprofiles, _, hsupported, scopes, hscopes, p, hp, s,
      hs, a, ha, contentHash, hhash, _, hsame, ds, hds, l, hl, probe, hprobe, hc⟩
    obtain rfl := Except.ok.inj hc
    exact ⟨hschema, ⟨rfl, hid⟩, ⟨rfl, hversion⟩,
      ⟨profiles, hprofiles, demand_eq_ok.mp hsupported, ha, rfl⟩, ⟨scopes, hscopes, rfl⟩, hp, hs,
      ⟨hhash, eq_of_beq (demand_eq_ok.mp hsame)⟩, hds, hl, hprobe⟩
  · intro h
    obtain ⟨profiles, hprofiles, hsupported, ha, hsorted⟩ := h.profiles
    obtain ⟨scopes, hscopes, hsortedScopes⟩ := h.scopes
    obtain ⟨hid, hstable⟩ := h.stableId
    obtain ⟨hv, hversion⟩ := h.version
    rw [hid, hv]
    refine ⟨h.schemaVersion, hstable, hversion, profiles, hprofiles, (),
      demand_eq_ok.mpr hsupported, scopes, hscopes, _, h.provenance, _, h.configurationSchema, _,
      ha, _, h.contentHash.1, (), demand_eq_ok.mpr (beq_iff_eq.mpr h.contentHash.2), _,
      h.dependencies, _, h.lifecycle, _, h.healthProbe, ?_⟩
    rw [← hsorted, ← hsortedScopes]
    rfl

/-- A field that comes back normalized. -/
theorem get_update {v : Json} (hhas : has manifest key = true)
    (hv : c.fields.lookup (Points.ofString key) = some v) :
    get (update manifest c.fields) key = v := by
  rw [has, ← Json.isSome_lookup] at hhas
  obtain ⟨w, hw⟩ := Option.isSome_iff_exists.mp hhas
  unfold RunActions.get
  rw [Json.lookup_update, hw, Option.map_some, hv]
  rfl

theorem validateActivation_sortedTexts (h : validateActivation pf value profiles = .ok activation) :
    validateActivation pf (.obj activation) (sortedTexts profiles) = .ok activation := by
  obtain ⟨_, htype, hkeys, hbundles⟩ := validateActivation_eq_ok.mp h
  exact validateActivation_eq_ok.mpr
    ⟨rfl, htype, hkeys, fun profile hp => hbundles profile (mem_sortedTexts.mp hp)⟩

theorem cleanStrings_texts {label : String} (h : cleanStrings pf value label = .ok profiles) :
    cleanStrings pf (texts (sortedTexts profiles)) label = .ok (sortedTexts profiles) := by
  cases value with
  | arr values =>
    cases values with
    | nil => cases h
    | cons v =>
      have hclean := cleanInto_texts h
      obtain ⟨hout, _⟩ := cleanInto_eq_ok.mp h
      have hne : sortedTexts profiles ≠ [] := by
        have hmem : stripped pf v ∈ sortedTexts profiles := by
          rw [mem_sortedTexts, hout]
          exact List.mem_append_right _ List.mem_cons_self
        exact List.ne_nil_of_mem hmem
      rw [texts]
      cases hsorted : sortedTexts profiles with
      | nil => exact absurd hsorted hne
      | cons =>
        rw [hsorted] at hclean
        exact hclean
  | _ => cases h

theorem cleanScopes_texts {scopes : List Points} (h : cleanScopes pf value = .ok scopes) :
    cleanScopes pf (texts (sortedTexts scopes)) = .ok (sortedTexts scopes) := by
  cases value with
  | arr =>
    obtain ⟨out, hout, h⟩ := bind_eq_ok.mp h
    simp only [require, demand_bind_eq_ok] at h
    obtain ⟨hscopes, h⟩ := h
    obtain rfl := Except.ok.inj h
    simp only [cleanScopes, texts]
    refine bind_eq_ok.mpr ⟨_, cleanInto_texts hout, ?_⟩
    simp only [require, demand_bind_eq_ok, List.all_eq_true, mem_sortedTexts] at hscopes ⊢
    exact ⟨hscopes, rfl⟩
  | _ => cases h

/-- The same is found in the normalized fields of a manifest. -/
theorem finds_update (hrequired : required.all (has manifest) = true) (h : Finds pf manifest c) :
    Finds pf (update manifest c.fields) c := by
  have hhas : ∀ key ∈ required, has manifest key = true := List.all_eq_true.mp hrequired
  simp only [required, List.forall_mem_cons] at hhas
  obtain ⟨hschema, hid, hversion, hhash, hprovenance, hprofiles, hscopes, hconfiguration,
    hdependencies, hprobe, hlifecycle, hactivation, _⟩ := hhas
  obtain ⟨profiles, hclean, hsupported, hvalid, hsorted⟩ := h.profiles
  obtain ⟨scopes, hcleanScopes, hsortedScopes⟩ := h.scopes
  exact {
    schemaVersion := by
      rw [get_update hschema rfl]
      rfl
    stableId := by
      rw [get_update hid rfl, stripped_str]
      exact ⟨(settled_of_isStableId h.stableId.2).lower_strip, h.stableId.2⟩
    version := by
      rw [get_update hversion rfl, stripped_str, ← h.version.1]
      exact ⟨strip_stripped _, h.version.1 ▸ h.version.2⟩
    profiles := by
      rw [get_update hprofiles rfl, get_update hactivation rfl, hsorted]
      refine ⟨sortedTexts profiles, cleanStrings_texts hclean, ?_,
        validateActivation_sortedTexts hvalid, (sortedTexts_sortedTexts profiles).symm⟩
      simpa only [List.all_eq_true, mem_sortedTexts] using hsupported
    scopes := by
      rw [get_update hscopes rfl, hsortedScopes]
      exact ⟨sortedTexts scopes, cleanScopes_texts hcleanScopes,
        (sortedTexts_sortedTexts scopes).symm⟩
    provenance := by
      rw [get_update hprovenance rfl]
      exact validateProvenance_toJson h.provenance
    configurationSchema := by
      rw [get_update hconfiguration rfl]
      have hschema := h.configurationSchema
      rwa [← validateConfigurationSchema_eq_ok hschema] at hschema
    contentHash := by
      rw [get_update hhash rfl, stripped_str]
      exact ⟨h.contentHash.1, (settled_libraryContentHash h.contentHash.1).lower_strip⟩
    dependencies := by
      rw [get_update hdependencies rfl]
      exact listDependencies_toJson h.dependencies
    lifecycle := by
      rw [get_update hlifecycle rfl]
      have hlife := h.lifecycle
      rwa [← validateLifecycle_eq_ok hlife] at hlife
    healthProbe := by
      rw [get_update hprobe rfl]
      exact validateProbe_toJson h.healthProbe }

theorem validated_eq_ok {manifest : Json} :
    validated pf manifest = .ok (c, normalized) ↔
      ∃ fields, manifest = .obj fields ∧ required.all (has fields) = true ∧
        keysWithin fields allowedManifestFields = true ∧ Finds pf fields c ∧
        normalized = update fields c.fields ∧
        containsCredential pf (.obj normalized) = false ∧
        ∃ length, encodedLength (Json.dumpsSorted (.obj normalized)) = .ok length ∧
          length ≤ 5 * 1024 * 1024 := by
  cases manifest with
  | obj fields =>
    simp only [validated, require, demand_bind_eq_ok, Json.obj.injEq]
    constructor
    · rintro ⟨hrequired, hwithin, h⟩
      obtain ⟨found, hfound, h⟩ := bind_eq_ok.mp h
      obtain ⟨hcredential, h⟩ := demand_bind_eq_ok.mp h
      obtain ⟨length, hlength, h⟩ := bind_eq_ok.mp h
      obtain ⟨hlimit, h⟩ := demand_bind_eq_ok.mp h
      obtain ⟨rfl, rfl⟩ := Prod.mk.inj (Except.ok.inj h)
      exact ⟨fields, rfl, hrequired, hwithin, checkManifest_eq_ok.mp hfound, rfl,
        Bool.not_eq_true' _ ▸ hcredential, length, hlength, of_decide_eq_true hlimit⟩
    · rintro ⟨_, rfl, hrequired, hwithin, hfinds, rfl, hcredential, length, hlength, hlimit⟩
      refine ⟨hrequired, hwithin, bind_eq_ok.mpr ⟨c, checkManifest_eq_ok.mpr hfinds, ?_⟩⟩
      refine demand_bind_eq_ok.mpr ⟨Bool.not_eq_true' _ ▸ hcredential, ?_⟩
      refine bind_eq_ok.mpr ⟨length, hlength, ?_⟩
      exact demand_bind_eq_ok.mpr ⟨decide_eq_true hlimit, rfl⟩
  | _ => simp [validated, refuse]

/-- A validated manifest is validated to itself. -/
theorem validated_normalized {manifest : Json} (h : validated pf manifest = .ok (c, normalized)) :
    validated pf (.obj normalized) = .ok (c, normalized) := by
  obtain ⟨fields, rfl, hrequired, hwithin, hfinds, rfl, hcredential, hlength⟩ :=
    validated_eq_ok.mp h
  refine validated_eq_ok.mpr ⟨_, rfl, ?_, ?_, finds_update hrequired hfinds, ?_, hcredential,
    hlength⟩
  · simpa only [List.all_eq_true, Json.has_update] using hrequired
  · rwa [Json.keysWithin_update]
  · rw [Json.update_update]

/-! ## Paths -/

/-- The parts of a path in normal form: without the blanks around it, the dots and the repeated
slashes, and with its case folded. -/
def normalParts (pf : Platform) (path : Points) : List Points :=
  (posixParts (Points.strip path)).map (casefold pf)

/-- A reserved path, or a file with a reserved name. -/
def isReserved (parts : List Points) : Bool :=
  reservedPaths.any (fun path => parts == (Points.ofString path).splitOn 47) ||
    oneOf (parts.getLastD []) reservedNames

/-- A path is relative, does not lead out of its directory and is not reserved. -/
structure Confined (pf : Platform) (path : Points) : Prop where
  isRelative : (Points.strip path).head? ≠ some 47
  inside : Points.ofString ".." ∉ normalParts pf path
  unreserved : isReserved (normalParts pf path) = false

/-- The text of a path is its normal form but for the case. -/
def Plain (path : Points) : Prop :=
  Points.strip path = path ∧ [47].intercalate (posixParts path) = path

/-- The files of a bundle have confined paths, and no two of them have one path. -/
structure FilesApart (pf : Platform) (files : List Json) : Prop where
  confined : ∀ entry ∈ files, Confined pf (pathText pf entry)
  distinct : files.Pairwise fun a b =>
    normalParts pf (pathText pf a) ≠ normalParts pf (pathText pf b)

/-- Paths that are spelled in another way than their normal form are not reserved and are not the
paths of other files. -/
structure RespellingsHarmless (pf : Platform) (files : List Json) : Prop where
  unreserved : ∀ entry ∈ files, ¬Plain (pathText pf entry) →
    isReserved (normalParts pf (pathText pf entry)) = false
  distinct : files.Pairwise fun a b => ¬(Plain (pathText pf a) ∧ Plain (pathText pf b)) →
    normalParts pf (pathText pf a) ≠ normalParts pf (pathText pf b)

theorem casefold_dots (h : ∀ c ∈ t, c = 46) : casefold pf t = t := by
  induction t with
  | nil => rfl
  | cons c t ih =>
    rw [List.forall_mem_cons] at h
    obtain ⟨rfl, ht⟩ := h
    have hfold := ih ht
    unfold casefold at hfold ⊢
    rw [List.flatMap_cons, hfold, pf.fold_ascii 46 (by omega)]
    rfl

/-- Only dots are folded to dots. -/
theorem eq_dots_of_casefold (h : casefold pf t = Points.ofString "..") :
    t = Points.ofString ".." := by
  have hdots : ∀ c ∈ t, c = 46 := by
    intro c hc
    obtain ⟨d, hd⟩ := List.exists_mem_of_ne_nil _ (pf.fold_ne_nil c)
    have hmem : d ∈ casefold pf t := List.mem_flatMap.mpr ⟨c, hc, hd⟩
    have hdot : d = 46 := by
      rw [h] at hmem
      have hall : ∀ e ∈ Points.ofString "..", e = 46 := by decide
      exact hall d hmem
    exact pf.dot_of_fold c (hdot ▸ hd)
  rw [← casefold_dots hdots, h]

theorem casefold_append (s t : Points) : casefold pf (s ++ t) = casefold pf s ++ casefold pf t :=
  List.flatMap_append

/-- The case of a joined path is folded in each part of it. -/
theorem casefold_intercalate (parts : List Points) :
    casefold pf ([47].intercalate parts) = [47].intercalate (parts.map (casefold pf)) := by
  induction parts with
  | nil => rfl
  | cons part parts ih =>
    cases parts with
    | nil => simp [List.intercalate]
    | cons =>
      have hslash : casefold pf [47] = [47] := by
        simp [casefold, pf.fold_ascii 47 (by omega)]
      rw [List.intercalate_cons_cons, casefold_append, casefold_append, hslash, ih]
      rw [List.map_cons, List.map_cons, List.map_cons, List.intercalate_cons_cons]

/-- The text of a plain path is its normal form, with its case folded. -/
theorem Plain.casefold_eq {path : Points} (h : Plain path) :
    casefold pf path = [47].intercalate (normalParts pf path) := by
  rw [normalParts, h.1, ← casefold_intercalate, h.2]

/-! ## Accepted files -/

/-- What the check of an entry tells of its path. -/
theorem validateFileEntry_eq_ok (h : validateFileEntry pf entry = .ok u) :
    (Points.strip (pathText pf entry)).head? ≠ some 47 ∧
      Points.ofString ".." ∉ posixParts (Points.strip (pathText pf entry)) ∧
      oneOf (casefold pf (Points.strip (pathText pf entry))) reservedPaths = false ∧
      oneOf (casefold pf ((posixParts (Points.strip (pathText pf entry))).getLastD []))
        reservedNames = false := by
  cases entry with
  | obj =>
    simp only [validateFileEntry, require, demand_bind_eq_ok, Bool.and_eq_true, bne_iff_ne,
      Bool.not_eq_true', Bool.or_eq_false_iff] at h
    obtain ⟨_, _, ⟨⟨⟨⟨_, hrelative⟩, _⟩, hparts⟩, _⟩, hreserved, _⟩ := h
    refine ⟨hrelative, ?_, hreserved⟩
    intro hmem
    have hdots := List.any_eq_false.mp hparts _ hmem
    exact hdots (by decide)
  | _ => cases h

theorem validateFiles_eq_ok {seenPaths : List Points} (h : validateFiles pf seenPaths files = .ok u) :
    (∀ entry ∈ files, validateFileEntry pf entry = .ok () ∧
        casefold pf (pathText pf entry) ∉ seenPaths) ∧
      files.Pairwise fun a b => casefold pf (pathText pf a) ≠ casefold pf (pathText pf b) := by
  induction files generalizing seenPaths with
  | nil => exact ⟨fun entry hentry => absurd hentry List.not_mem_nil, List.Pairwise.nil⟩
  | cons entry files ih =>
    obtain ⟨⟨⟩, hentry, h⟩ := bind_eq_ok.mp h
    simp only [require, demand_bind_eq_ok, Bool.not_eq_true', List.contains_eq_mem,
      decide_eq_false_iff_not] at h
    obtain ⟨hnew, h⟩ := h
    obtain ⟨hrest, hpairwise⟩ := ih h
    constructor
    · rw [List.forall_mem_cons]
      refine ⟨⟨hentry, hnew⟩, fun other hother => ⟨(hrest other hother).1, ?_⟩⟩
      exact fun hseen => (hrest other hother).2 (List.mem_cons_of_mem _ hseen)
    · rw [List.pairwise_cons]
      refine ⟨fun other hother heq => (hrest other hother).2 ?_, hpairwise⟩
      rw [← heq]
      exact List.mem_cons_self

theorem getLastD_map (parts : List Points) :
    (parts.map (casefold pf)).getLastD [] = casefold pf (parts.getLastD []) := by
  rw [List.getLastD_eq_getLast?, List.getLastD_eq_getLast?, List.getLast?_map]
  cases parts.getLast? <;> rfl

/-- An accepted path that is spelled in its normal form is not reserved. -/
theorem isReserved_of_plain (h : validateFileEntry pf entry = .ok ())
    (hplain : Plain (pathText pf entry)) :
    isReserved (normalParts pf (pathText pf entry)) = false := by
  obtain ⟨_, _, hpath, hname⟩ := validateFileEntry_eq_ok h
  rw [isReserved, Bool.or_eq_false_iff]
  constructor
  · rw [List.any_eq_false]
    intro path hmem hparts
    rw [hplain.1, hplain.casefold_eq, eq_of_beq hparts, List.intercalate_splitOn] at hpath
    exact List.any_eq_false.mp hpath path hmem (beq_self_eq_true _)
  · rw [normalParts, getLastD_map]
    exact hname

/-- The accepted files of a bundle are apart exactly when other spellings do no harm. -/
theorem filesApart_iff (h : validateFiles pf [] files = .ok u) :
    FilesApart pf files ↔ RespellingsHarmless pf files := by
  obtain ⟨hfiles, hpairwise⟩ := validateFiles_eq_ok h
  constructor
  · intro hapart
    refine ⟨fun entry hentry _ => (hapart.confined entry hentry).unreserved, ?_⟩
    refine hapart.distinct.imp ?_
    intro a b hne _
    exact hne
  · intro hharmless
    constructor
    · intro entry hentry
      obtain ⟨hrelative, hinside, _, _⟩ := validateFileEntry_eq_ok (hfiles entry hentry).1
      refine ⟨hrelative, ?_, ?_⟩
      · intro hmem
        obtain ⟨part, hpart, hfold⟩ := List.mem_map.mp hmem
        rw [eq_dots_of_casefold hfold] at hpart
        exact hinside hpart
      · by_cases hplain : Plain (pathText pf entry)
        · exact isReserved_of_plain (hfiles entry hentry).1 hplain
        · exact hharmless.unreserved entry hentry hplain
    · refine (hpairwise.and hharmless.distinct).imp fun {a b} hab heq => ?_
      by_cases hplain : Plain (pathText pf a) ∧ Plain (pathText pf b)
      · refine hab.1 ?_
        rw [hplain.1.casefold_eq, hplain.2.casefold_eq, heq]
      · exact hab.2 hplain heq

/-- The files that a manifest has for a profile. -/
def HasFiles (pf : Platform) (c : Checked) (profile : Points) (files : List Json) : Prop :=
  profile ∈ c.supportedProfiles ∧ ∃ bundle,
    activationBundleForProfile c.activation profile = .ok bundle ∧ bundleFiles pf bundle = .ok files

/-- The files of an accepted manifest passed their check. -/
theorem HasFiles.validateFiles {manifest : Json} {profile : Points}
    (hfiles : HasFiles pf c profile files) (h : validated pf manifest = .ok (c, normalized)) :
    validateFiles pf [] files = .ok () := by
  obtain ⟨fields, rfl, _, _, hfinds, _⟩ := validated_eq_ok.mp h
  obtain ⟨profiles, _, _, hvalid, hsorted⟩ := hfinds.profiles
  obtain ⟨_, _, _, hbundles⟩ := validateActivation_eq_ok.mp hvalid
  obtain ⟨hprofile, bundle, hbundle, hlist⟩ := hfiles
  rw [hsorted, mem_sortedTexts] at hprofile
  obtain ⟨bundle', hbundle', hcheck⟩ := hbundles profile hprofile
  obtain rfl := Except.ok.inj (hbundle.symm.trans hbundle')
  unfold validateBundle at hcheck
  split at hcheck
  · cases hcheck
  · simp only [require, demand_bind_eq_ok] at hcheck
    obtain ⟨_, _, _, hcheck⟩ := hcheck
    obtain ⟨files', hfiles', hcheck⟩ := bind_eq_ok.mp hcheck
    obtain ⟨⟨⟩, hvalidFiles, _⟩ := bind_eq_ok.mp hcheck
    obtain rfl := Except.ok.inj (hlist.symm.trans hfiles')
    exact hvalidFiles

/-- A manifest whose files are apart for every profile, and whose normalized form is validated to
itself. -/
structure StaysValid (pf : Platform) (c : Checked) (normalized : Fields) : Prop where
  apart : ∀ profile files, HasFiles pf c profile files → FilesApart pf files
  again : validateLibraryManifest pf (.obj normalized) = .ok normalized

/-- An accepted manifest is normalized to itself, and its files are apart exactly when no path that
is spelled in another way than its normal form is reserved or is the path of another file. -/
theorem staysValid_iff {manifest : Json} {c : Checked} {normalized : Fields}
    (h : validated pf manifest = .ok (c, normalized)) :
    StaysValid pf c normalized ↔
      ∀ profile files, HasFiles pf c profile files → RespellingsHarmless pf files := by
  constructor
  · intro hvalid profile files hfiles
    exact (filesApart_iff (hfiles.validateFiles h)).mp (hvalid.apart profile files hfiles)
  · intro hharmless
    constructor
    · intro profile files hfiles
      exact (filesApart_iff (hfiles.validateFiles h)).mpr (hharmless profile files hfiles)
    · rw [validateLibraryManifest, validated_normalized h]
      rfl

/-! ## A manifest with one file -/

/-- The tables of ASCII, and the answers of the libraries about a manifest with one file whose
activation has some digest. -/
def starterPlatform (digest : List UInt8) : Platform where
  py := RunActions.cpython
  floatWithin _ _ _ := false
  fold c := [if 65 ≤ c ∧ c ≤ 90 then c + 32 else c]
  fold_ascii _ _ := rfl
  fold_ne_nil _ := List.cons_ne_nil _ _
  dot_of_fold c h := by
    rw [List.mem_singleton] at h
    split at h <;> omega
  isWord c := isAlnum c || c == 95
  sha256 _ := digest
  urlparse _ := some
    ⟨Points.ofString "curated", Points.ofString "starter", [], [], [], [],
      Points.ofString "starter"⟩
  isGlobal _ := none
  tomlLoads _ := .error .uncaught

/-- A field of a text. -/
def textField (key value : String) : Points × Json :=
  (Points.ofString key, .str (Points.ofString value))

/-- A file at a path. -/
def starterEntry (path : String) : Json :=
  .obj [textField "path" path, textField "content" "x"]

def starterBundle (path : String) : Fields :=
  [(Points.ofString "files", .arr [starterEntry path])]

def starterActivation (path : String) : Fields :=
  [textField "type" "bootstrap_bundle", (Points.ofString "bundle", .obj (starterBundle path))]

/-- A manifest with one file, whose activation has some hash. -/
def starter (path hash : String) : Fields :=
  [(Points.ofString "schema_version", .int 1), textField "stable_id" "notes",
    textField "version" "1.0.0", textField "content_hash" hash,
    (Points.ofString "provenance", .obj [textField "source" "curated://starter",
      textField "publisher" "starter", textField "revision" "1"]),
    (Points.ofString "supported_profiles", texts [Points.ofString "codex-cli"]),
    (Points.ofString "requested_scopes", .arr []),
    (Points.ofString "configuration_schema", .obj [textField "type" "object",
      (Points.ofString "additionalProperties", .bool false)]),
    (Points.ofString "dependencies", .arr []),
    (Points.ofString "health_probe", .obj [textField "type" "bootstrap_contract",
      (Points.ofString "required_bundle_keys", texts [Points.ofString "files"])]),
    (Points.ofString "lifecycle", .obj [textField "upgrade" "replace_same_stable_id",
      textField "remove" "restore_prior_bundle"]),
    (Points.ofString "activation", .obj (starterActivation path))]

/-- Such a manifest has its file for its profile. -/
theorem hasFiles_starter {path hash : String}
    (h : validated pf (.obj (starter path hash)) = .ok (c, normalized)) :
    HasFiles pf c (Points.ofString "codex-cli") [starterEntry path] ∧
      ∀ profile files, HasFiles pf c profile files → files = [starterEntry path] := by
  obtain ⟨fields, hfields, _, _, hfinds, _⟩ := validated_eq_ok.mp h
  obtain rfl := Json.obj.inj hfields
  obtain ⟨profiles, hclean, _, hvalid, hsorted⟩ := hfinds.profiles
  have hactivation : starterActivation path = c.activation :=
    Json.obj.inj (validateActivation_eq_ok.mp hvalid).1
  have hprofiles : [Points.ofString "codex-cli"] = profiles := Except.ok.inj hclean
  constructor
  · refine ⟨?_, starterBundle path, ?_, rfl⟩
    · rw [hsorted, ← hprofiles]
      exact List.mem_singleton_self _
    · rw [← hactivation]
      rfl
  · rintro profile files ⟨_, bundle, hbundle, hfiles⟩
    rw [← hactivation] at hbundle
    obtain rfl := Except.ok.inj hbundle
    exact (Except.ok.inj hfiles).symm

/-- The digest of the activation with the file `notes.md`. -/
def notesDigest : List UInt8 :=
  [189, 246, 116, 232, 156, 140, 66, 110, 242, 123, 240, 183, 230, 143, 26, 250, 158, 160, 70, 153,
    249, 197, 1, 255, 41, 154, 130, 201, 242, 156, 185, 91]

/-- The manifest with the file `notes.md` stays valid. -/
theorem staysValid_notes : ∃ c normalized,
    validated (starterPlatform notesDigest) (.obj (starter "notes.md"
      "sha256:bdf674e89c8c426ef27bf0b7e68f1afa9ea04699f9c501ff299a82c9f29cb95b")) =
        .ok (c, normalized) ∧
      StaysValid (starterPlatform notesDigest) c normalized := by
  have haccepted : (validated (starterPlatform notesDigest) (.obj (starter "notes.md"
      "sha256:bdf674e89c8c426ef27bf0b7e68f1afa9ea04699f9c501ff299a82c9f29cb95b"))).isOk = true := by
    unfold starter starterActivation starterBundle starterEntry textField
    repeat rw [Points.ofString_ofList]
    decide +kernel
  obtain ⟨⟨c, normalized⟩, h⟩ := eq_ok_of_isOk haccepted
  refine ⟨c, normalized, h, (staysValid_iff h).mpr ?_⟩
  intro profile files hfiles
  obtain rfl := (hasFiles_starter h).2 profile files hfiles
  refine ⟨fun entry hentry _ => ?_, List.pairwise_singleton _ _⟩
  rw [List.mem_singleton.mp hentry]
  decide +kernel

/-- The digest of the activation with the file `./.env`. -/
def respelledDigest : List UInt8 :=
  [27, 33, 115, 94, 126, 77, 66, 250, 31, 61, 195, 187, 71, 66, 4, 172, 211, 117, 241, 25, 173, 149,
    130, 204, 212, 84, 179, 64, 164, 3, 11, 190]

/-- The manifest with the file `./.env` is accepted, though the path is reserved. -/
theorem not_staysValid_respelled : ∃ c normalized,
    validated (starterPlatform respelledDigest) (.obj (starter "./.env"
      "sha256:1b21735e7e4d42fa1f3dc3bb474204acd375f119ad9582ccd454b340a4030bbe")) =
        .ok (c, normalized) ∧
      ¬StaysValid (starterPlatform respelledDigest) c normalized := by
  have haccepted : (validated (starterPlatform respelledDigest) (.obj (starter "./.env"
      "sha256:1b21735e7e4d42fa1f3dc3bb474204acd375f119ad9582ccd454b340a4030bbe"))).isOk = true := by
    unfold starter starterActivation starterBundle starterEntry textField
    repeat rw [Points.ofString_ofList]
    decide +kernel
  obtain ⟨⟨c, normalized⟩, h⟩ := eq_ok_of_isOk haccepted
  refine ⟨c, normalized, h, fun hvalid => ?_⟩
  have hconfined := (hvalid.apart _ _ (hasFiles_starter h).1).confined _ (List.mem_singleton_self _)
  have hreserved : isReserved (normalParts (starterPlatform respelledDigest)
      (pathText (starterPlatform respelledDigest) (starterEntry "./.env"))) = true := by
    decide +kernel
  rw [hconfined.unreserved] at hreserved
  cases hreserved

end GlassHive.LibraryManifests
