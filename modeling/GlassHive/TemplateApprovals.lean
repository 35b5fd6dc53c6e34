import GlassHive.TemplateLibraries

/-!
# Approvals of templates

The approvals of a template agree with the plans of installations exactly when the items that it
needs are consistent: intact, without cycles, and with dependencies that ask for the scopes that are
listed.
-/

namespace GlassHive.TemplateApprovals

open Relational LibraryManifests LibraryCatalog
open RunActions (get)
open Json (Fields)
open Fallible (bind_eq_ok demand_bind_eq_ok eq_ok_of_isOk map_eq_ok)
open Walks (Planner)

variable {pf : Platform} {rows : Catalog} {catalog : PinnedCatalog} {profile : Points}
  {libraryRefs : List Json} {item other : Item}

/-! ## What is listed -/

/-- The visits of a listing, and the approvals that come out. -/
abbrev Lists (pf : Platform) (catalog : PinnedCatalog) (profile : Points) (libraryRefs : List Json)
    (visits : List Json) (approvals : List Approval) : Prop :=
  Walks.Listed (fun r => (requestedItem pf catalog.rows r).map identityOf)
    (fun r => requestedItem pf catalog.rows r >>= approve pf profile r) libraryRefs [] visits
    approvals

/-- An item that is listed for one of the visits. -/
def Visited (pf : Platform) (catalog : PinnedCatalog) (visits : List Json) (item : Item) : Prop :=
  ∃ v ∈ visits, requestedItem pf catalog.rows v = .ok item

/-- The dependencies of an item are stored under the pins with which they are validated. -/
def PinsKept (pf : Platform) (item : Item) : Prop :=
  ∃ found, manifestOf pf item = some found ∧ storedPins pf item = found.dependencies.map pinOf

variable {visits : List Json} {approvals : List Approval}

theorem lists_of_ok
    (h : validateWorkspaceTemplateLibraries pf catalog.rows profile libraryRefs = .ok approvals) :
    ∃ visits, Lists pf catalog profile libraryRefs visits approvals :=
  Walks.listing_eq_ok h

variable (h : Lists pf catalog profile libraryRefs visits approvals)

include h in
theorem Lists.approves_of_visit
    {v : Json} (hv : v ∈ visits) : ∃ item, requestedItem pf catalog.rows v = .ok item ∧
      ∃ a ∈ approvals, ∃ more, approve pf profile v item = .ok (a, more) := by
  obtain ⟨a, ha, more, hmore⟩ := h.exists_result hv
  obtain ⟨item, hitem, happrove⟩ := bind_eq_ok.mp hmore
  exact ⟨item, hitem, a, ha, more, happrove⟩

variable {d : Dependency} {found : Checked} {a : Approval} {more : List Json} {r requested : Json}
  {t : Points} {c : Visit}

include h in
theorem Lists.visit_of_mem (ha : a ∈ approvals) : ∃ v ∈ visits, ∃ item,
      requestedItem pf catalog.rows v = .ok item ∧
        ∃ more, approve pf profile v item = .ok (a, more) := by
  obtain ⟨v, hv, more, hmore⟩ := h.exists_visit ha
  obtain ⟨item, hitem, happrove⟩ := bind_eq_ok.mp hmore
  exact ⟨v, hv, item, hitem, more, happrove⟩

/-- Requests that find one identity find one item. -/
theorem eq_of_map_identityOf {r' : Json} (hitem : requestedItem pf catalog.rows r = .ok item)
    (hother : requestedItem pf catalog.rows r' = .ok other) (h : identityOf item = identityOf other) :
    item = other :=
  catalog.eq_of_identity (available_of_requestedItem hitem).1
    (available_of_requestedItem hother).1 h

include h in
theorem Lists.visited_of_mem (hr : r ∈ libraryRefs ∨ ∃ v ∈ visits, ∃ item a more,
      requestedItem pf catalog.rows v = .ok item ∧ approve pf profile v item = .ok (a, more) ∧
        r ∈ more) :
    ∃ item, requestedItem pf catalog.rows r = .ok item ∧ Visited pf catalog visits item := by
  have hasked : r ∈ libraryRefs ∨ ∃ v ∈ visits, ∃ a more,
      (requestedItem pf catalog.rows v >>= approve pf profile v) = .ok (a, more) ∧ r ∈ more := by
    refine hr.imp id ?_
    rintro ⟨v, hv, item, a, more, hitem, happrove, hmem⟩
    exact ⟨v, hv, a, more, bind_eq_ok.mpr ⟨item, hitem, happrove⟩, hmem⟩
  obtain ⟨k, hk, hseen | ⟨v, hv, hvk⟩⟩ := h.covered r hasked
  · cases hseen
  · obtain ⟨item, hitem, rfl⟩ := map_eq_ok.mp hk
    obtain ⟨other, hother, hidentity⟩ := map_eq_ok.mp hvk
    obtain rfl := eq_of_map_identityOf hother hitem hidentity
    exact ⟨other, hitem, v, hv, hother⟩

include h in
/-- One item is listed for one visit. -/
theorem Lists.eq_of_visited {v v' : Json} (hv : v ∈ visits) (hv' : v' ∈ visits)
    (hitem : requestedItem pf catalog.rows v = .ok item)
    (hitem' : requestedItem pf catalog.rows v' = .ok item) : v = v' := by
  refine h.eq_of_find hv hv' ?_
  rw [hitem, hitem']

include h in
/-- Every item is listed once. -/
theorem Lists.once :
    (approvals.map Approval.libraryId).Nodup := by
  refine List.pairwise_map.mpr (Walks.Listed.pairwise h ?_)
  intro v v' a a' more more' hv hv' hne heq
  obtain ⟨item, hitem, happrove⟩ := bind_eq_ok.mp hv
  obtain ⟨item', hitem', happrove'⟩ := bind_eq_ok.mp hv'
  rw [(approve_eq_ok happrove).libraryId, (approve_eq_ok happrove').libraryId] at heq
  obtain rfl := eq_of_libraryId (available_of_requestedItem hitem).1
    (available_of_requestedItem hitem').1 heq
  rw [hitem, hitem'] at hne
  exact hne rfl

/-- What was stored for the dependencies of an item, as the pins of some of them are kept. -/
theorem forall₂_and_map {α β γ : Type} {R : α → β → Prop} {f : α → γ} {g : β → γ} {l : List α}
    {l' : List β} (h : List.Forall₂ R l l') (hmap : l.map f = l'.map g) :
    List.Forall₂ (fun a b => R a b ∧ f a = g b) l l' := by
  induction h with
  | nil => exact .nil
  | cons hfirst _ ih =>
    obtain ⟨heq, htail⟩ := List.cons.inj hmap
    exact .cons ⟨hfirst, heq⟩ (ih htail)

/-- A stored dependency finds the row that the dependency is pinned to. -/
theorem availablePinned_of_storedAs {value : Json} (hstored : StoredAs pf value d)
    (hpin : storedPin pf value = pinOf d) (h : requestedItem pf rows value = .ok item) :
    availablePinned rows d.stableId d.version d.contentHash = some item := by
  obtain ⟨fields, rfl, hid⟩ := hstored.isObject
  have hlook := (pinned_of_requestedItem h).1
  unfold lookUp at hlook
  change pinned pf fields = pinOf d at hpin
  rw [hid, hpin] at hlook
  exact hlook

/-- The dependencies of an approved item are the stored ones. -/
theorem Approves.depends (h : Approves pf requested item a more) (hpins : PinsKept pf item) :
    ∃ found, manifestOf pf item = some found ∧
      List.Forall₂ (fun v d => StoredAs pf v d ∧ storedPin pf v = pinOf d) more
        found.dependencies := by
  obtain ⟨found, hfound, _, hstored⟩ := h.manifest
  obtain ⟨found', hfound', hkept⟩ := hpins
  obtain rfl := Option.some.inj (hfound.symm.trans hfound')
  exact ⟨found, hfound, forall₂_and_map hstored (h.pins.symm.trans hkept)⟩

include h in
/-- What an approved item depends on is approved. -/
theorem Lists.visited_of_depends (hitem : Visited pf catalog visits item) (hpins : PinsKept pf item)
    (hfound : manifestOf pf item = some found) (hd : d ∈ found.dependencies) :
    ∃ other, availablePinned catalog.rows d.stableId d.version d.contentHash = some other ∧
      Visited pf catalog visits other := by
  obtain ⟨v, hv, hvitem⟩ := hitem
  obtain ⟨item', hitem', a, _, more, happrove⟩ := h.approves_of_visit hv
  obtain rfl := Except.ok.inj (hvitem.symm.trans hitem')
  obtain ⟨found', hfound', hstored⟩ := (approve_eq_ok happrove).depends hpins
  obtain rfl := Option.some.inj (hfound.symm.trans hfound')
  obtain ⟨w, hw, hwd, hpin⟩ := Walks.exists_mem_of_forall₂ hstored.flip hd
  obtain ⟨other, hother, hvisited⟩ :=
    h.visited_of_mem (.inr ⟨v, hv, item, a, more, hvitem, happrove, hw⟩)
  exact ⟨other, availablePinned_of_storedAs hwd hpin hother, hvisited⟩

include h in
/-- Every needed item is approved, when those that are approved keep their pins. -/
theorem Lists.visited_of_needed (hpins : ∀ item, Visited pf catalog visits item → PinsKept pf item)
    (hitem : Needed pf catalog.rows libraryRefs item) : Visited pf catalog visits item := by
  induction hitem with
  | reference href hitem =>
    obtain ⟨other, hother, hvisited⟩ := h.visited_of_mem (.inl href)
    obtain rfl := Except.ok.inj (hitem.symm.trans hother)
    exact hvisited
  | dependency _ hdepends ih =>
    obtain ⟨d, found, hfound, hd, hother⟩ := hdepends
    obtain ⟨other, hother', hvisited⟩ := h.visited_of_depends ih (hpins _ ih) hfound hd
    obtain rfl := Option.some.inj (hother.symm.trans hother')
    exact hvisited

/-- What is asked for is needed, as a reference or for a dependency, when the items that are needed
keep their pins. -/
theorem needed_of_asked (hpins : ∀ item, Needed pf catalog.rows libraryRefs item → PinsKept pf item)
    (hr : Walks.Asked (fun r => requestedItem pf catalog.rows r >>= approve pf profile r)
      libraryRefs r)
    (hitem : requestedItem pf catalog.rows r = .ok item) :
    Needed pf catalog.rows libraryRefs item ∧
      (r ∈ libraryRefs ∨ ∃ needing d, Needed pf catalog.rows libraryRefs needing ∧
        DependsBy pf catalog.rows needing d item ∧ requestedScopes pf r = .ok d.scopes) := by
  induction hr generalizing item with
  | initial hmem => exact ⟨.reference hmem hitem, .inl hmem⟩
  | more _ hexpand hmem ih =>
    obtain ⟨needing, hneeding, happrove⟩ := bind_eq_ok.mp hexpand
    have hneeded := (ih hneeding).1
    obtain ⟨found, hfound, hstored⟩ := (approve_eq_ok happrove).depends (hpins needing hneeded)
    obtain ⟨d, hd, hwd, hpin⟩ := Walks.exists_mem_of_forall₂ hstored hmem
    have hdepends : DependsBy pf catalog.rows needing d item :=
      ⟨found, hfound, hd, availablePinned_of_storedAs hwd hpin hitem⟩
    exact ⟨.dependency hneeded ⟨d, hdepends⟩, .inr ⟨needing, d, hneeded, hdepends, hwd.scopes⟩⟩

include h in
/-- The scopes that are listed for an item: those of its first reference, or else of a dependency
on it. -/
theorem Lists.scopes
    (hpins : ∀ item, Needed pf catalog.rows libraryRefs item → PinsKept pf item) {v : Json}
    (hv : v ∈ visits) (hitem : requestedItem pf catalog.rows v = .ok item)
    (ha : approve pf profile v item = .ok (a, more)) :
    (∃ ref, firstReference pf catalog.rows libraryRefs item = some ref ∧ a.scopes =
      scopesOr ((requestedScopes pf ref).toOption.getD []) (allowedScopes pf item)) ∨
    (firstReference pf catalog.rows libraryRefs item = none ∧ ∃ needing d,
      Needed pf catalog.rows libraryRefs needing ∧ DependsBy pf catalog.rows needing d item ∧
        a.scopes = scopesOr d.scopes (allowedScopes pf item)) := by
  obtain ⟨scopes, hscopes, _, hlisted⟩ := (approve_eq_ok ha).scopes
  cases href : firstReference pf catalog.rows libraryRefs item with
  | some ref =>
    have hvisit := h.first _ ref List.not_mem_nil href
    have hfound := (Walks.finds_iff _).mp (List.find?_some href)
    obtain ⟨other, hother, hidentity⟩ := map_eq_ok.mp hfound
    obtain rfl := eq_of_map_identityOf hother hitem hidentity
    obtain rfl := h.eq_of_visited hv hvisit hitem hother
    refine .inl ⟨v, rfl, ?_⟩
    rw [hlisted, hscopes]
    rfl
  | none =>
    refine .inr ⟨rfl, ?_⟩
    rcases (needed_of_asked hpins (h.asked v hv) hitem).2 with hmem | ⟨needing, d, hneeding, hd, hr⟩
    · refine absurd ((Walks.finds_iff _).mpr ?_) (List.find?_eq_none.mp href v hmem)
      exact map_eq_ok.mpr ⟨item, hitem, rfl⟩
    · obtain rfl := Except.ok.inj (hscopes.symm.trans hr)
      exact ⟨needing, d, hneeding, hd, hlisted⟩

/-! ## What is visited -/

theorem lower_of_settled (h : Settled t) : lower t = t :=
  (List.map_congr_left fun c hc => (h c hc).1).trans (List.map_id t)

theorem map_eq_map_of_forall₂ {α β γ : Type} {R : α → β → Prop} {f : α → γ} {g : β → γ} {l : List α}
    {l' : List β} (h : List.Forall₂ R l l') (hR : ∀ a ∈ l, ∀ b, R a b → f a = g b) :
    l.map f = l'.map g := by
  induction h with
  | nil => rfl
  | cons hfirst _ ih =>
    rw [List.forall_mem_cons] at hR
    rw [List.map_cons, List.map_cons, hR.1 _ hfirst, ih hR.2]

include h in
/-- Items with the columns of their manifests keep the pins of their dependencies. -/
theorem Lists.pinsKept (hregistered : ∀ item, Visited pf catalog visits item →
      ∃ found, manifestOf pf item = some found ∧ Registered pf item found)
    (hitem : Visited pf catalog visits item) : PinsKept pf item := by
  obtain ⟨v, hv, hvitem⟩ := hitem
  obtain ⟨item', hitem', a, _, more, happrove⟩ := h.approves_of_visit hv
  obtain rfl := Except.ok.inj (hvitem.symm.trans hitem')
  obtain ⟨found, hfound, _, hstored⟩ := (approve_eq_ok happrove).manifest
  refine ⟨found, hfound, (approve_eq_ok happrove).pins.trans ?_⟩
  refine map_eq_map_of_forall₂ hstored fun w hw d hwd => ?_
  obtain ⟨other, hother, hvisited⟩ :=
    h.visited_of_mem (.inr ⟨v, hv, item, a, more, hvitem, happrove, hw⟩)
  obtain ⟨found', hfound', hregistered'⟩ := hregistered other hvisited
  obtain ⟨manifest, normalized, _, hvalid⟩ := manifestOf_eq_some.mp hfound'
  obtain ⟨_, _, _, _, hfinds, _⟩ := validated_eq_ok.mp hvalid
  obtain ⟨fields, rfl, _⟩ := hwd.isObject
  have hpinned := (pinned_of_requestedItem hother).2.symm.trans hregistered'.identity
  obtain ⟨hid, hversion, hhash⟩ := hwd.settled fields rfl
  rw [hpinned] at hid hversion hhash
  rw [lower_of_settled (settled_of_isStableId hfinds.stableId.2)] at hid
  rw [lower_of_settled (settled_libraryContentHash hfinds.contentHash.1)] at hhash
  change pinned pf fields = pinOf d
  rw [hpinned, pinOf, ← hid, ← hversion, ← hhash]

/-- What an installation of an item visits. -/
inductive Installs (pf : Platform) (rows : Catalog) (root : Item) : Visit → Prop
  | root : Installs pf rows root (.root root.1)
  | dependency {item : Item} {found : Checked} {d : Dependency} :
    Relation.ReflTransGen (DependsOn pf rows) root item → manifestOf pf item = some found →
    d ∈ found.dependencies → Installs pf rows root (.dependency d)

/-- The visited items are intact. -/
def AllIntact (pf : Platform) (catalog : PinnedCatalog) (profile : Points) (visits : List Json) :
    Prop :=
  ∀ item, Visited pf catalog visits item → ∃ found, Intact pf profile item found

variable {root : Item} {v : Visit} {n : Node} (hintact : AllIntact pf catalog profile visits)
  (hroot : Visited pf catalog visits root)

theorem AllIntact.pinsKept (h : AllIntact pf catalog profile visits)
    (hitem : Visited pf catalog visits item) : PinsKept pf item := by
  obtain ⟨found, hfound⟩ := h item hitem
  exact ⟨found, hfound.manifest, hfound.pins⟩

include h hintact hroot in
theorem Lists.visited_of_reach
    (hpath : Relation.ReflTransGen (DependsOn pf catalog.rows) root item) :
    Visited pf catalog visits item := by
  induction hpath with
  | refl => exact hroot
  | tail _ hstep ih =>
    obtain ⟨d, found, hfound, hd, hother⟩ := hstep
    obtain ⟨other, hother', hvisited⟩ := h.visited_of_depends ih (hintact.pinsKept ih) hfound hd
    obtain rfl := Option.some.inj (hother.symm.trans hother')
    exact hvisited

theorem sortedSet_scopes (hfound : manifestOf pf item = some found) (hd : d ∈ found.dependencies) :
    sortedSet d.scopes = d.scopes := by
  obtain ⟨manifest, normalized, _, hvalid⟩ := manifestOf_eq_some.mp hfound
  obtain ⟨values, _, _, hstored⟩ := storedDependencies_of_validated hvalid
  obtain ⟨w, _, hwd⟩ := Walks.exists_mem_of_forall₂ hstored.flip hd
  obtain ⟨listed, _, hscopes⟩ := bind_eq_ok.mp hwd.scopes
  rw [← Except.ok.inj hscopes]
  exact sortedSet_sortedSet _

/-- What a visit of an installation finds: its own item, or one that another depends on, with the
scopes of the dependency. -/
structure FindsItem (pf : Platform) (catalog : PinnedCatalog) (root : Item) (v : Visit) (n : Node) :
    Prop where
  reached : Relation.ReflTransGen (DependsOn pf catalog.rows) root n.item
  kind : (v = .root root.1 ∧ n.item = root ∧ n.scopes = sortedSet n.found.requestedScopes) ∨
    ∃ needing d, v = .dependency d ∧
      Relation.ReflTransGen (DependsOn pf catalog.rows) root needing ∧
      DependsBy pf catalog.rows needing d n.item ∧ n.scopes = d.scopes

theorem findsItem_of_look (hroot : Available catalog.rows root)
    (hv : Installs pf catalog.rows root v) (hn : look pf catalog.rows v = .ok n) :
    FindsItem pf catalog root v n := by
  obtain ⟨scopes, hrow, hscopes⟩ := (look_eq_ok.mp hn).row
  cases hv with
  | root =>
    rw [visitedRow, availableItem_eq_some_iff.mpr ⟨hroot, rfl⟩] at hrow
    obtain ⟨hitem, rfl⟩ := Prod.mk.inj (Except.ok.inj hrow)
    exact ⟨hitem ▸ .refl, .inl ⟨rfl, hitem.symm, hscopes⟩⟩
  | @dependency item found d hpath hfound hd =>
    unfold visitedRow at hrow
    dsimp only at hrow
    split at hrow
    · cases hrow
    · rename_i hother
      obtain ⟨rfl, rfl⟩ := Prod.mk.inj (Except.ok.inj hrow)
      have hdepends : DependsBy pf catalog.rows item d n.item := ⟨found, hfound, hd, hother⟩
      refine ⟨hpath.tail ⟨d, hdepends⟩, .inr ⟨item, d, rfl, hpath, hdepends, ?_⟩⟩
      rw [hscopes]
      exact sortedSet_scopes hfound hd

theorem item_of_look_root (hroot : Available catalog.rows root)
    (hn : look pf catalog.rows (.root root.1) = .ok n) : n.item = root := by
  rcases (findsItem_of_look hroot .root hn).kind with ⟨_, hitem, _⟩ | ⟨_, _, hdependency, _⟩
  · exact hitem
  · cases hdependency

theorem dependsOn_of_requires {r : Visit} {m : Node}
    (h : (planner pf catalog.rows profile).Requires r c) (hn : look pf catalog.rows r = .ok n)
    (hm : look pf catalog.rows c = .ok m) : DependsOn pf catalog.rows n.item m.item := by
  obtain ⟨n', children, hn', hchildren, hc⟩ := h
  obtain rfl := Except.ok.inj (hn.symm.trans hn')
  obtain ⟨_, hchildren⟩ := demand_bind_eq_ok.mp hchildren
  obtain rfl := Except.ok.inj hchildren
  obtain ⟨d, hd, rfl⟩ := List.mem_map.mp hc
  obtain ⟨scopes, hrow, _⟩ := (look_eq_ok.mp hm).row
  unfold visitedRow at hrow
  dsimp only at hrow
  split at hrow
  · cases hrow
  · rename_i hother
    obtain ⟨rfl, _⟩ := Prod.mk.inj (Except.ok.inj hrow)
    exact ⟨d, n.found, (look_eq_ok.mp hn).manifestOf, hd, hother⟩

theorem dependsOn_of_transGen {r : Visit} {m : Node}
    (h : Relation.TransGen (planner pf catalog.rows profile).Requires r c)
    (hn : look pf catalog.rows r = .ok n) (hm : look pf catalog.rows c = .ok m) :
    Relation.TransGen (DependsOn pf catalog.rows) n.item m.item := by
  induction h generalizing m with
  | single hstep => exact .single (dependsOn_of_requires hstep hn hm)
  | tail _ hstep ih =>
    obtain ⟨b, _, hb, _⟩ := id hstep
    exact (ih hb).tail (dependsOn_of_requires hstep hb hm)

theorem installs_of_requires (hroot : Available catalog.rows root)
    (hv : Installs pf catalog.rows root v) (h : (planner pf catalog.rows profile).Requires v c) :
    Installs pf catalog.rows root c := by
  obtain ⟨n, children, hn, hchildren, hc⟩ := h
  obtain ⟨_, hchildren⟩ := demand_bind_eq_ok.mp hchildren
  obtain rfl := Except.ok.inj hchildren
  obtain ⟨d, hd, rfl⟩ := List.mem_map.mp hc
  exact .dependency (findsItem_of_look hroot hv hn).reached (look_eq_ok.mp hn).manifestOf hd

include hintact in
/-- The key of a node of an intact item is the identity of the item, and its manifest is the one of
the item. -/
theorem AllIntact.node
    (hn : look pf catalog.rows v = .ok n) (hvisited : Visited pf catalog visits n.item) :
    Intact pf profile n.item n.found ∧
      identityOf n.item = (n.found.stableId, n.found.version, n.found.contentHash) := by
  obtain ⟨found, hfound⟩ := hintact n.item hvisited
  obtain rfl := Option.some.inj (hfound.manifest.symm.trans (look_eq_ok.mp hn).manifestOf)
  exact ⟨hfound, hfound.registered.identity⟩

include hintact in
/-- Nodes of intact items with one key are nodes of one item, with the same manifest. -/
theorem AllIntact.eq_of_key {v' : Visit} {n' : Node}
    (hn : look pf catalog.rows v = .ok n) (hn' : look pf catalog.rows v' = .ok n')
    (hvisited : Visited pf catalog visits n.item) (hvisited' : Visited pf catalog visits n'.item)
    (hkey : (planner pf catalog.rows profile).key n = (planner pf catalog.rows profile).key n') :
    n.item = n'.item ∧ n.found = n'.found := by
  have hitem : n.item = n'.item :=
    catalog.eq_of_identity (look_eq_ok.mp hn).available.1 (look_eq_ok.mp hn').available.1
      ((hintact.node hn hvisited).2.trans (hkey.trans (hintact.node hn' hvisited').2.symm))
  have hmanifest := (look_eq_ok.mp hn).manifestOf
  rw [hitem, (look_eq_ok.mp hn').manifestOf] at hmanifest
  exact ⟨hitem, (Option.some.inj hmanifest).symm⟩

include h hintact hroot in
/-- Every visit of an installation of a listed item finds a listed item. -/
theorem Lists.look_of_installs (hv : Installs pf catalog.rows root v) :
    ∃ n, look pf catalog.rows v = .ok n ∧ Visited pf catalog visits n.item := by
  obtain ⟨item, scopes, hrow, hvisited⟩ : ∃ item scopes,
      visitedRow catalog.rows v = .ok (item, scopes) ∧ Visited pf catalog visits item := by
    cases hv with
    | root =>
      obtain ⟨w, hw, hwroot⟩ := id hroot
      refine ⟨root, none, ?_, hroot⟩
      rw [visitedRow, availableItem_eq_some_iff.mpr ⟨available_of_requestedItem hwroot, rfl⟩]
    | @dependency item found d hpath hfound hd =>
      have hitem := h.visited_of_reach hintact hroot hpath
      obtain ⟨other, hother, hvisited⟩ :=
        h.visited_of_depends hitem (hintact.pinsKept hitem) hfound hd
      refine ⟨other, some d.scopes, ?_, hvisited⟩
      rw [visitedRow, hother]
  obtain ⟨found, hfound⟩ := hintact item hvisited
  obtain ⟨manifest, normalized, hmanifest, hvalid⟩ := manifestOf_eq_some.mp hfound.manifest
  have hhash : item.2.contentHash = found.contentHash :=
    (Prod.mk.inj (Prod.mk.inj hfound.registered.identity).2).2
  refine ⟨{ item, found, normalized, scopes := sortedSet (scopes.getD found.requestedScopes) },
    look_eq_ok.mpr ⟨⟨scopes, hrow, rfl⟩, ⟨manifest, hmanifest, hvalid⟩, hhash⟩, hvisited⟩

include hintact in
/-- A visit that finds an item requires the visits of its dependencies. -/
theorem AllIntact.requires
    (hn : look pf catalog.rows v = .ok n) (hvisited : Visited pf catalog visits n.item)
    (hfound : manifestOf pf n.item = some found) (hd : d ∈ found.dependencies) :
    (planner pf catalog.rows profile).Requires v (.dependency d) := by
  obtain rfl := Option.some.inj (hfound.symm.trans (look_eq_ok.mp hn).manifestOf)
  have hsupported := (hintact.node hn hvisited).1.supported
  refine ⟨n, n.found.dependencies.map .dependency, hn, ?_, List.mem_map.mpr ⟨d, hd, rfl⟩⟩
  exact demand_bind_eq_ok.mpr ⟨List.contains_iff_mem.mpr hsupported, rfl⟩

include h hintact hroot in
/-- What an item depends on is found by what its visit requires. -/
theorem Lists.exists_requires
    (hv : Installs pf catalog.rows root v) (hn : look pf catalog.rows v = .ok n)
    (hpath : Relation.ReflTransGen (DependsOn pf catalog.rows) n.item item) :
    ∃ c m, Relation.ReflTransGen (planner pf catalog.rows profile).Requires v c ∧
      Installs pf catalog.rows root c ∧ look pf catalog.rows c = .ok m ∧ m.item = item := by
  induction hpath with
  | refl => exact ⟨v, n, .refl, hv, hn, rfl⟩
  | tail _ hstep ih =>
    obtain ⟨c, m, hreach, hc, hm, rfl⟩ := ih
    obtain ⟨d, found, hfound, hd, hother⟩ := hstep
    obtain ⟨w, hw, hwroot⟩ := id hroot
    have havailable := available_of_requestedItem hwroot
    have hvisited := h.visited_of_reach hintact hroot (findsItem_of_look havailable hc hm).reached
    have hrequires := hintact.requires hm hvisited hfound hd
    have hinstalls := installs_of_requires havailable hc hrequires
    obtain ⟨k, hk, _⟩ := h.look_of_installs hintact hroot hinstalls
    refine ⟨.dependency d, k, hreach.tail hrequires, hinstalls, hk, ?_⟩
    obtain ⟨scopes, hrow, _⟩ := (look_eq_ok.mp hk).row
    rw [visitedRow, hother] at hrow
    exact (Prod.mk.inj (Except.ok.inj hrow)).1.symm

/-! ## What is planned -/

variable {plan : List (Node × Snapshot)}

/-- What a plan of an item has: entries that are found by its visits, after what they require. -/
theorem planned_of_ok (h : libraryInstallPlan pf rows root.1 profile = .ok plan) :
    (planner pf rows profile).Planned plan ∧
      (planner pf rows profile).Settled plan (.root root.1) ∧
      ∀ e ∈ plan, ∃ r, Relation.ReflTransGen (planner pf rows profile).Requires (.root root.1) r ∧
        look pf rows r = .ok e.1 := by
  obtain ⟨hplanned, hsettled, _, hnew⟩ := Planner.visit_eq_ok .nil h
  refine ⟨hplanned, hsettled, fun e he => ?_⟩
  rcases hnew e he with hnil | ⟨_, hfrom⟩
  · exact absurd hnil List.not_mem_nil
  · exact hfrom

theorem installs_of_reflTransGen (hroot : Available catalog.rows root)
    (hv : Installs pf catalog.rows root v)
    (h : Relation.ReflTransGen (planner pf catalog.rows profile).Requires v c) :
    Installs pf catalog.rows root c := by
  induction h with
  | refl => exact hv
  | tail _ hstep ih => exact installs_of_requires hroot ih hstep

theorem Visited.available (h : Visited pf catalog visits item) : Available catalog.rows item := by
  obtain ⟨w, _, hw⟩ := h
  exact available_of_requestedItem hw

include h hintact hroot in
/-- An entry of a plan of a listed item is found by one of its visits, and its item is listed. -/
theorem Lists.entry
    (hplan : libraryInstallPlan pf catalog.rows root.1 profile = .ok plan) {e : Node × Snapshot}
    (he : e ∈ plan) : ∃ r, Installs pf catalog.rows root r ∧ look pf catalog.rows r = .ok e.1 ∧
      FindsItem pf catalog root r e.1 ∧ Visited pf catalog visits e.1.item := by
  obtain ⟨r, hreach, hr⟩ := (planned_of_ok hplan).2.2 e he
  have hinstalls := installs_of_reflTransGen hroot.available .root hreach
  have hfinds := findsItem_of_look hroot.available hinstalls hr
  exact ⟨r, hinstalls, hr, hfinds, h.visited_of_reach hintact hroot hfinds.reached⟩

include h hintact hroot in
/-- A request that a plan settles has an entry with its item and its scopes. -/
theorem Lists.entry_of_settled
    (hplan : libraryInstallPlan pf catalog.rows root.1 profile = .ok plan)
    (hv : Installs pf catalog.rows root v) (hn : look pf catalog.rows v = .ok n)
    {part : List (Node × Snapshot)} (hpart : part ⊆ plan)
    (hsettled : (planner pf catalog.rows profile).Settled part v) :
    ∃ e ∈ plan, e.1.item = n.item ∧ e.1.scopes = n.scopes := by
  obtain ⟨n', hn', e, he, hkey, hlabel⟩ := hsettled
  obtain rfl := Except.ok.inj (hn.symm.trans hn')
  obtain ⟨r, _, hr, _, hvisited⟩ := h.entry hintact hroot hplan (hpart he)
  have hfinds := findsItem_of_look hroot.available hv hn
  have hvisited' := h.visited_of_reach hintact hroot hfinds.reached
  exact ⟨e, hpart he, (hintact.eq_of_key hr hn hvisited hvisited' hkey).1, hlabel⟩

include h hintact hroot in
/-- The visits of a plan with the key of an entry have what the entry requires. -/
theorem Lists.children_eq (hplan : libraryInstallPlan pf catalog.rows root.1 profile = .ok plan) :
    ∀ e ∈ plan, ∀ r n, Installs pf catalog.rows root r →
      (planner pf catalog.rows profile).look r = .ok n →
      (planner pf catalog.rows profile).key e.1 = (planner pf catalog.rows profile).key n →
      (planner pf catalog.rows profile).children n =
        (planner pf catalog.rows profile).children e.1 := by
  intro e he r n hr hn hkey
  obtain ⟨r', _, hr', _, hvisited⟩ := h.entry hintact hroot hplan he
  have hreached := (findsItem_of_look hroot.available hr hn).reached
  have hvisited' := h.visited_of_reach hintact hroot hreached
  change dependencies profile n = dependencies profile e.1
  rw [dependencies, dependencies, (hintact.eq_of_key hr' hn hvisited hvisited' hkey).2]

include h hintact hroot in
/-- The visits that an installation requires are settled in its plan. -/
theorem Lists.settled (hplan : libraryInstallPlan pf catalog.rows root.1 profile = .ok plan)
    (hv : Relation.ReflTransGen (planner pf catalog.rows profile).Requires (.root root.1) v) :
    ∃ part ⊆ plan, (planner pf catalog.rows profile).Settled part v := by
  obtain ⟨hplanned, hsettled, _⟩ := planned_of_ok hplan
  rcases Relation.reflTransGen_iff_eq_or_transGen.mp hv with rfl | htrans
  · exact ⟨plan, List.Subset.refl _, hsettled⟩
  · obtain ⟨n, hn, e, he, hkey, _⟩ := hsettled
    obtain ⟨_, done, _, _, rfl, _, hdone⟩ := hplanned.of_transGen
      (h.children_eq hintact hroot hplan)
      (fun r c hr hc => installs_of_requires hroot.available hr hc) .root hn ⟨e, he, hkey⟩ htrans
    exact ⟨done, List.subset_append_left _ _, hdone⟩

include h hintact hroot in
/-- What an item depends on is planned with it. -/
theorem Lists.mem_plan (hplan : libraryInstallPlan pf catalog.rows root.1 profile = .ok plan)
    (hpath : Relation.ReflTransGen (DependsOn pf catalog.rows) root item) :
    ∃ e ∈ plan, e.1.item = item := by
  obtain ⟨n, hn, _⟩ := h.look_of_installs hintact hroot .root
  have hitem := item_of_look_root hroot.available hn
  obtain ⟨c, m, hreach, hc, hm, rfl⟩ :=
    h.exists_requires hintact hroot .root hn (hitem.symm ▸ hpath)
  obtain ⟨part, hpart, hsettled⟩ := h.settled hintact hroot hplan hreach
  obtain ⟨e, he, heitem, _⟩ := h.entry_of_settled hintact hroot hplan hc hm hpart hsettled
  exact ⟨e, he, heitem⟩

include h hintact hroot in
/-- A dependency is planned with its scopes. -/
theorem Lists.mem_plan_of_depends
    (hplan : libraryInstallPlan pf catalog.rows root.1 profile = .ok plan)
    (hpath : Relation.ReflTransGen (DependsOn pf catalog.rows) root item)
    (hdepends : DependsBy pf catalog.rows item d other) :
    ∃ e ∈ plan, e.1.item = other ∧ e.1.scopes = d.scopes := by
  obtain ⟨n, hn, _⟩ := h.look_of_installs hintact hroot .root
  have hitem := item_of_look_root hroot.available hn
  obtain ⟨c, m, hreach, hc, hm, rfl⟩ :=
    h.exists_requires hintact hroot .root hn (hitem.symm ▸ hpath)
  obtain ⟨found, hfound, hd, hother⟩ := hdepends
  have hvisited := h.visited_of_reach hintact hroot hpath
  have hrequires := hintact.requires hm hvisited hfound hd
  have hinstalls := installs_of_requires hroot.available hc hrequires
  obtain ⟨k, hk, _⟩ := h.look_of_installs hintact hroot hinstalls
  obtain ⟨part, hpart, hsettled⟩ := h.settled hintact hroot hplan (hreach.tail hrequires)
  obtain ⟨e, he, heitem, hescopes⟩ :=
    h.entry_of_settled hintact hroot hplan hinstalls hk hpart hsettled
  obtain ⟨scopes, hrow, hscopes⟩ := (look_eq_ok.mp hk).row
  rw [visitedRow, hother] at hrow
  obtain ⟨hkitem, rfl⟩ := Prod.mk.inj (Except.ok.inj hrow)
  refine ⟨e, he, heitem.trans hkitem.symm, hescopes.trans (hscopes.trans ?_)⟩
  exact sortedSet_scopes hfound hd

include h hintact hroot in
/-- No item that is planned depends on itself. -/
theorem Lists.acyclic (hplan : libraryInstallPlan pf catalog.rows root.1 profile = .ok plan)
    (hpath : Relation.ReflTransGen (DependsOn pf catalog.rows) root item) :
    ¬Relation.TransGen (DependsOn pf catalog.rows) item item := by
  intro hcycle
  obtain ⟨middle, hfirst, hrest⟩ := Relation.TransGen.head'_iff.mp hcycle
  obtain ⟨d, found, hfound, hd, hmiddle⟩ := hfirst
  obtain ⟨n, hn, _⟩ := h.look_of_installs hintact hroot .root
  have hitem := item_of_look_root hroot.available hn
  obtain ⟨c, m, hreach, hc, hm, rfl⟩ :=
    h.exists_requires hintact hroot .root hn (hitem.symm ▸ hpath)
  have hvisited := h.visited_of_reach hintact hroot hpath
  have hrequires := hintact.requires hm hvisited hfound hd
  have hinstalls := installs_of_requires hroot.available hc hrequires
  obtain ⟨k, hk, _⟩ := h.look_of_installs hintact hroot hinstalls
  have hkitem : k.item = middle := by
    obtain ⟨scopes, hrow, _⟩ := (look_eq_ok.mp hk).row
    rw [visitedRow, hmiddle] at hrow
    exact (Prod.mk.inj (Except.ok.inj hrow)).1.symm
  obtain ⟨c', m', hreach', _, hm', hagain⟩ :=
    h.exists_requires hintact hroot hinstalls hk (hkitem.symm ▸ hrest)
  obtain ⟨part, hpart, n', hn', e, he, hkey, _⟩ := h.settled hintact hroot hplan hreach
  obtain rfl := Except.ok.inj (hm.symm.trans hn')
  refine (planned_of_ok hplan).1.acyclic (h.children_eq hintact hroot hplan)
    (fun r c hr hc => installs_of_requires hroot.available hr hc) hc hm ⟨e, hpart he, hkey⟩
    (Relation.TransGen.head' hrequires hreach') hm' ?_
  have hidentity := (hintact.node hm hvisited).2
  have hidentity' := (hintact.node hm' (hagain ▸ hvisited)).2
  rw [hagain] at hidentity'
  exact hidentity.symm.trans hidentity'

/-! ## Agreement and consistency -/

variable (hagree : PlansAgree pf catalog.rows profile libraryRefs approvals)
  (hc : Consistent pf catalog.rows profile libraryRefs)

/-- Every needed item is reached from the item of a reference. -/
theorem exists_reference (hitem : Needed pf catalog.rows libraryRefs item) :
    ∃ ref ∈ libraryRefs, ∃ root, requestedItem pf catalog.rows ref = .ok root ∧
      Relation.ReflTransGen (DependsOn pf catalog.rows) root item := by
  induction hitem with
  | reference href hitem => exact ⟨_, href, _, hitem, .refl⟩
  | dependency _ hdepends ih =>
    obtain ⟨ref, href, root, hroot, hpath⟩ := ih
    exact ⟨ref, href, root, hroot, hpath.tail hdepends⟩

theorem Needed.of_reach (hroot : Needed pf catalog.rows libraryRefs root)
    (hpath : Relation.ReflTransGen (DependsOn pf catalog.rows) root item) :
    Needed pf catalog.rows libraryRefs item := by
  induction hpath with
  | refl => exact hroot
  | tail _ hstep ih => exact ih.dependency hstep

include h in
theorem Lists.visited_of_reference {ref : Json} (href : ref ∈ libraryRefs)
    (hroot : requestedItem pf catalog.rows ref = .ok root) : Visited pf catalog visits root := by
  obtain ⟨item, hitem, hvisited⟩ := h.visited_of_mem (.inl href)
  obtain rfl := Except.ok.inj (hroot.symm.trans hitem)
  exact hvisited

include h in
/-- A listed item has an approval. -/
theorem Lists.exists_approval
    (hitem : Visited pf catalog visits item) : ∃ a ∈ approvals, a.libraryId = item.1 := by
  obtain ⟨v, hv, hvitem⟩ := hitem
  obtain ⟨item', hitem', a, ha, more, happrove⟩ := h.approves_of_visit hv
  obtain rfl := Except.ok.inj (hvitem.symm.trans hitem')
  exact ⟨a, ha, (approve_eq_ok happrove).libraryId⟩

include h in
/-- An approval of a listed item approves it. -/
theorem Lists.approve_of_libraryId
    (hitem : Visited pf catalog visits item) (ha : a ∈ approvals) (hid : a.libraryId = item.1) :
    ∃ v ∈ visits, requestedItem pf catalog.rows v = .ok item ∧
      ∃ more, approve pf profile v item = .ok (a, more) := by
  obtain ⟨v, hv, item', hitem', more, happrove⟩ := h.visit_of_mem ha
  obtain rfl := eq_of_libraryId (available_of_requestedItem hitem').1 hitem.available.1
    ((approve_eq_ok happrove).libraryId.symm.trans hid)
  exact ⟨v, hv, hitem', more, happrove⟩

include h hagree in
/-- The items of plans that agree with the approvals are intact. -/
theorem PlansAgree.allIntact :
    AllIntact pf catalog profile visits := by
  have hplanned : ∀ item, Visited pf catalog visits item → ∃ found,
      manifestOf pf item = some found ∧ Registered pf item found ∧
        profile ∈ found.supportedProfiles := by
    intro item hitem
    obtain ⟨a, ha, hid⟩ := h.exists_approval hitem
    obtain ⟨ref, _, root, plan, ⟨_, hplan⟩, hmem⟩ :=
      (hagree.items a.libraryId).mp (List.mem_map.mpr ⟨a, ha, rfl⟩)
    obtain ⟨e, he, heid⟩ := List.mem_map.mp hmem
    obtain ⟨hmade, _, hfrom⟩ := planned_of_ok hplan
    obtain ⟨r, _, hr⟩ := hfrom e he
    have hlooks := look_eq_ok.mp hr
    obtain rfl := eq_of_libraryId hlooks.available.1 hitem.available.1 (heid.trans hid)
    obtain ⟨⟨children, hchildren⟩, hclose⟩ := hmade.of_mem he
    obtain ⟨hsupported, _⟩ := demand_bind_eq_ok.mp hchildren
    obtain ⟨_, hsnapshot⟩ := demand_bind_eq_ok.mp hclose
    exact ⟨e.1.found, hlooks.manifestOf, registered_of_snapshot hlooks.manifestOf hsnapshot,
      List.contains_iff_mem.mp hsupported⟩
  intro item hitem
  obtain ⟨found, hfound, hregistered, hsupported⟩ := hplanned item hitem
  obtain ⟨found', hfound', hpins⟩ := h.pinsKept (fun other hother => by
    obtain ⟨found, hfound, hregistered, _⟩ := hplanned other hother
    exact ⟨found, hfound, hregistered⟩) hitem
  obtain rfl := Option.some.inj (hfound.symm.trans hfound')
  exact ⟨found, hfound, hregistered, hsupported, hpins⟩

include h hagree in
/-- When the plans agree with the approvals, every dependency is listed with its scopes. -/
theorem PlansAgree.scopes_eq (hitem : Needed pf catalog.rows libraryRefs item)
    (hdepends : DependsBy pf catalog.rows item d other) :
    ∀ a ∈ approvals, a.libraryId = other.1 → a.scopes = d.scopes := by
  intro a ha hid
  have hintact := hagree.allIntact h
  obtain ⟨ref, href, root, hroot, hpath⟩ := exists_reference hitem
  have hvisited := h.visited_of_reference href hroot
  obtain ⟨root', plan, hroot', hplan⟩ := hagree.planned ref href
  obtain rfl := Except.ok.inj (hroot.symm.trans hroot')
  obtain ⟨e, he, rfl, hscopes⟩ := h.mem_plan_of_depends hintact hvisited hplan hpath hdepends
  have hne : e.1.item.1 ≠ root.1 := by
    intro heq
    have hroot : e.1.item = root := by
      obtain ⟨_, _, _, _, hentry⟩ := h.entry hintact hvisited hplan he
      exact eq_of_libraryId hentry.available.1 hvisited.available.1 heq
    refine h.acyclic hintact hvisited hplan .refl ?_
    exact Relation.TransGen.tail' hpath (hroot ▸ ⟨d, hdepends⟩)
  rw [hagree.scopes ref href root plan ⟨hroot, hplan⟩ e he hne a ha hid, hscopes]

include h hagree in
theorem PlansAgree.consistent :
    Consistent pf catalog.rows profile libraryRefs := by
  have hintact := hagree.allIntact h
  have hvisited : ∀ item, Needed pf catalog.rows libraryRefs item →
      Visited pf catalog visits item := fun item hitem =>
    h.visited_of_needed (fun _ => hintact.pinsKept) hitem
  have hpins : ∀ item, Needed pf catalog.rows libraryRefs item → PinsKept pf item :=
    fun item hitem => hintact.pinsKept (hvisited item hitem)
  constructor
  · exact fun item hitem => hintact item (hvisited item hitem)
  · intro item hitem
    obtain ⟨ref, href, root, hroot, hpath⟩ := exists_reference hitem
    obtain ⟨root', plan, hroot', hplan⟩ := hagree.planned ref href
    obtain rfl := Except.ok.inj (hroot.symm.trans hroot')
    exact h.acyclic hintact (h.visited_of_reference href hroot) hplan hpath
  · intro item d other hitem hdepends
    have hother := hvisited other (hitem.dependency ⟨d, hdepends⟩)
    obtain ⟨a, ha, hid⟩ := h.exists_approval hother
    obtain ⟨v, hv, hvother, more, happrove⟩ := h.approve_of_libraryId hother ha hid
    have hscopes := hagree.scopes_eq h hitem hdepends a ha hid
    rcases h.scopes hpins hv hvother happrove with
      ⟨ref, href, hlisted⟩ | ⟨hnone, needing, d', hneeding, hdepends', hlisted⟩
    · rw [firstScopes, href, ← hscopes]
      exact hlisted
    · rw [firstScopes, hnone, ← hscopes]
      rw [← hagree.scopes_eq h hneeding hdepends' a ha hid] at hlisted
      exact hlisted
  · intro item item' d d' other hitem hitem' hdepends hdepends'
    obtain ⟨a, ha, hid⟩ := h.exists_approval (hvisited other (hitem.dependency ⟨d, hdepends⟩))
    rw [← hagree.scopes_eq h hitem hdepends a ha hid,
      hagree.scopes_eq h hitem' hdepends' a ha hid]

include hc in
theorem Consistent.pinsKept (hitem : Needed pf catalog.rows libraryRefs item) : PinsKept pf item := by
  obtain ⟨found, hfound⟩ := hc.intact item hitem
  exact ⟨found, hfound.manifest, hfound.pins⟩

include h hc in
theorem Consistent.needed_of_visited
    (hitem : Visited pf catalog visits item) : Needed pf catalog.rows libraryRefs item := by
  obtain ⟨v, hv, hvitem⟩ := hitem
  exact (needed_of_asked (fun _ => hc.pinsKept) (h.asked v hv) hvitem).1

include h hc in
theorem Consistent.allIntact :
    AllIntact pf catalog profile visits :=
  fun item hitem => hc.intact item (hc.needed_of_visited h hitem)

include h hc in
/-- Every dependency is listed with its scopes, when the items are consistent. -/
theorem Consistent.scopes_eq (hitem : Needed pf catalog.rows libraryRefs item)
    (hdepends : DependsBy pf catalog.rows item d other) {v : Json} (hv : v ∈ visits)
    (hother : requestedItem pf catalog.rows v = .ok other)
    (happrove : approve pf profile v other = .ok (a, more)) : a.scopes = d.scopes := by
  have hlisted := hc.listed item d other hitem hdepends
  rcases h.scopes (fun _ => hc.pinsKept) hv hother happrove with
    ⟨ref, href, hscopes⟩ | ⟨hnone, needing, d', hneeding, hdepends', hscopes⟩
  · rw [firstScopes, href] at hlisted
    exact hscopes.trans hlisted.symm
  · rw [firstScopes, hnone] at hlisted
    rw [← hc.agree item needing d d' other hitem hneeding hdepends hdepends'] at hscopes
    exact hscopes.trans hlisted.symm

theorem mem_scopesOr {scopes allowed : List Points} (hsubset : ∀ t ∈ scopes, t ∈ allowed)
    (ht : t ∈ scopesOr scopes allowed) : t ∈ allowed := by
  unfold scopesOr at ht
  split at ht
  · exact mem_sortedSet.mp ht
  · exact hsubset t ht

/-- A scope has no blanks. -/
theorem strip_of_isScope (h : LibraryManifests.isScope t = true) : Points.strip t = t := by
  have hpart : ∀ s : Points, isScopePart s = true → ∀ c ∈ s, Points.isSpace c = false := by
    intro s hs c hc
    cases s with
    | nil => cases hs
    | cons =>
      simp only [isScopePart, Bool.and_eq_true, List.all_eq_true] at hs
      rcases List.mem_cons.mp hc with rfl | hc
      · refine (settled_of_isStableChar ?_).2
        rw [isStableChar, hs.1.1]
        rfl
      · exact (settled_of_isStableChar (hs.2 c hc)).2
  refine Points.strip_of_forall fun c hc => ?_
  unfold LibraryManifests.isScope at h
  split at h
  · cases h
  · rename_i colon rest hrest
    rw [Bool.and_eq_true] at h
    rw [← List.takeWhile_append_dropWhile (p := (· ≠ 58)) (l := t), hrest] at hc
    rcases List.mem_append.mp hc with hc | hc
    · exact hpart _ h.1 c hc
    · rcases List.mem_cons.mp hc with rfl | hc
      · have hcolon := List.head?_dropWhile_not (· ≠ 58) t
        rw [hrest] at hcolon
        obtain rfl : c = 58 := by simpa using hcolon
        rfl
      · exact hpart _ h.2 c hc

theorem isScope_of_mem (hfound : manifestOf pf item = some found) (hd : d ∈ found.dependencies) :
    ∀ t ∈ d.scopes, LibraryManifests.isScope t = true := by
  obtain ⟨manifest, normalized, _, hvalid⟩ := manifestOf_eq_some.mp hfound
  obtain ⟨values, _, _, hstored⟩ := storedDependencies_of_validated hvalid
  obtain ⟨w, _, hwd⟩ := Walks.exists_mem_of_forall₂ hstored.flip hd
  exact hwd.areScopes

/-- A scope that the column of an item allows is one of its manifest. -/
theorem mem_requestedScopes (hregistered : Registered pf item found)
    (ht : t ∈ allowedScopes pf item) (hscope : LibraryManifests.isScope t = true) :
    t ∈ found.requestedScopes := by
  obtain ⟨items, hitems, hscopes⟩ := bind_eq_ok.mp hregistered.scopes
  rw [← Except.ok.inj hscopes, mem_sortedSet, List.mem_filter]
  rw [allowedScopes, hitems] at ht
  obtain ⟨v, hv, rfl⟩ := List.mem_map.mp ht
  refine ⟨List.mem_map.mpr ⟨v, hv, strip_of_isScope hscope⟩, ?_⟩
  simpa using isScope_ne_nil hscope

include h hroot hc in
/-- Consistent items can be planned. -/
theorem Consistent.plannable :
    (planner pf catalog.rows profile).Plannable (Installs pf catalog.rows root) := by
  have hintact := hc.allIntact h
  have hneeded := hc.needed_of_visited h hroot
  constructor
  · intro r hr
    obtain ⟨n, hn, hvisited⟩ := h.look_of_installs hintact hroot hr
    obtain ⟨hfound, _⟩ := hintact.node hn hvisited
    have hchildren : (planner pf catalog.rows profile).children n =
        .ok (n.found.dependencies.map .dependency) :=
      demand_bind_eq_ok.mpr ⟨List.contains_iff_mem.mpr hfound.supported, rfl⟩
    have hallowed : ∀ t ∈ n.scopes, t ∈ n.found.requestedScopes := by
      rcases (findsItem_of_look hroot.available hr hn).kind with
        ⟨_, _, hscopes⟩ | ⟨needing, d, _, hpath, hdepends, hscopes⟩
      · rw [hscopes]
        exact fun t ht => mem_sortedSet.mp ht
      · intro t ht
        rw [hscopes] at ht
        obtain ⟨v, hv, hitem⟩ := id hvisited
        obtain ⟨item, hitem', a, _, more, happrove⟩ := h.approves_of_visit hv
        obtain rfl := Except.ok.inj (hitem.symm.trans hitem')
        obtain ⟨scopes, _, hsubset, hlisted⟩ := (approve_eq_ok happrove).scopes
        have heq := hc.scopes_eq h (hneeded.of_reach hpath) hdepends hv hitem happrove
        rw [← heq, hlisted] at ht
        have hmem := mem_scopesOr hsubset ht
        rw [← hlisted, heq] at ht
        obtain ⟨found, hmanifest, hd, _⟩ := hdepends
        exact mem_requestedScopes hfound.registered hmem (isScope_of_mem hmanifest hd t ht)
    obtain ⟨snapshot, hsnapshot⟩ := exists_snapshot hfound.manifest hfound.registered
    refine ⟨n, _, snapshot, hn, hchildren, fun c hcmem => ?_, demand_bind_eq_ok.mpr ⟨?_, hsnapshot⟩⟩
    · exact installs_of_requires hroot.available hr ⟨n, _, hn, hchildren, hcmem⟩
    · exact List.all_eq_true.mpr fun t ht => List.contains_iff_mem.mpr (hallowed t ht)
  · intro r r' n n' hr hr' hn hn' hkey
    have hfinds := findsItem_of_look hroot.available hr hn
    have hfinds' := findsItem_of_look hroot.available hr' hn'
    obtain ⟨hitem, hfound⟩ := hintact.eq_of_key hn hn'
      (h.visited_of_reach hintact hroot hfinds.reached)
      (h.visited_of_reach hintact hroot hfinds'.reached) hkey
    have hacyclic := hc.acyclic root hneeded
    change n.scopes = n'.scopes
    rcases hfinds.kind with ⟨_, hroot₁, hscopes⟩ | ⟨needing, d, _, hpath, hdepends, hscopes⟩ <;>
      rcases hfinds'.kind with
        ⟨_, hroot₂, hscopes'⟩ | ⟨needing', d', _, hpath', hdepends', hscopes'⟩
    · rw [hscopes, hscopes', hfound]
    · rw [← hitem, hroot₁] at hdepends'
      exact absurd (Relation.TransGen.tail' hpath' ⟨d', hdepends'⟩) hacyclic
    · rw [hitem, hroot₂] at hdepends
      exact absurd (Relation.TransGen.tail' hpath ⟨d, hdepends⟩) hacyclic
    · rw [hscopes, hscopes']
      rw [hitem] at hdepends
      exact hc.agree needing needing' d d' n'.item (hneeded.of_reach hpath)
        (hneeded.of_reach hpath') hdepends hdepends'
  · intro r r' n n' hr htrans hn hn' hkey
    have hreached := (findsItem_of_look hroot.available hr hn).reached
    have hreached' := hreached.trans (dependsOn_of_transGen htrans hn hn').to_reflTransGen
    obtain ⟨hitem, _⟩ := hintact.eq_of_key hn hn' (h.visited_of_reach hintact hroot hreached)
      (h.visited_of_reach hintact hroot hreached') hkey
    have hcycle := dependsOn_of_transGen htrans hn hn'
    rw [← hitem] at hcycle
    exact hc.acyclic n.item (hneeded.of_reach hreached) hcycle

/-- The keys that a plan may have. -/
def planKeys (pf : Platform) (rows : Catalog) : List Identity :=
  rows.entries.filterMap fun item => (manifestOf pf item).map fun found =>
    (found.stableId, found.version, found.contentHash)

theorem key_mem_planKeys (hn : look pf catalog.rows v = .ok n) :
    (planner pf catalog.rows profile).key n ∈ planKeys pf catalog.rows := by
  have hlooks := look_eq_ok.mp hn
  refine List.mem_filterMap.mpr ⟨n.item, hlooks.available.1, ?_⟩
  rw [hlooks.manifestOf]
  rfl

theorem length_planKeys_lt : (planKeys pf rows).length < rows.entries.length + 1 :=
  Nat.lt_succ_of_le (List.length_filterMap_le _ _)

/-- A plan is made or fails within its steps. -/
theorem libraryInstallPlan_ne_none (libraryId : Points) :
    libraryInstallPlan pf catalog.rows libraryId profile ≠ .error none :=
  Planner.visit_ne_none (fun _ _ hn => key_mem_planKeys hn)
    (Nat.lt_of_le_of_lt (List.length_filter_le _ _) length_planKeys_lt)

theorem validateWorkspaceTemplateLibraries_ne_none :
    validateWorkspaceTemplateLibraries pf catalog.rows profile libraryRefs ≠ .error none := by
  have hlook : ∀ r item, requestedItem pf catalog.rows r = .ok item →
      identityOf item ∈ catalog.rows.entries.map identityOf := fun r item hitem =>
    List.mem_map.mpr ⟨item, (available_of_requestedItem hitem).1, rfl⟩
  have hmore : ∀ r item a more, approve pf profile r item = .ok (a, more) → more.length ≤ 32 := by
    intro r item a more happrove
    obtain ⟨_, _, hlength, _⟩ := (approve_eq_ok happrove).manifest
    exact hlength
  refine Walks.listing_ne_none hlook hmore ?_
  have hkeys : ((catalog.rows.entries.map identityOf).filter (· ∉ [])).length ≤
      catalog.rows.entries.length :=
    (List.length_filter_le _ _).trans_eq (List.length_map _)
  have hbound := Nat.mul_le_mul_left 32 hkeys
  exact Nat.lt_succ_of_le (Nat.add_le_add_left hbound _)

include h hc in
theorem Consistent.plansAgree :
    PlansAgree pf catalog.rows profile libraryRefs approvals := by
  have hintact := hc.allIntact h
  have hplans : ∀ ref ∈ libraryRefs, ∃ root plan, Plans pf catalog.rows profile ref root plan := by
    intro ref href
    obtain ⟨root, hroot, hvisited⟩ := h.visited_of_mem (.inl href)
    obtain ⟨plan, hplan⟩ := Planner.exists_plan (hc.plannable h hvisited) .root
      (fun _ _ hn => key_mem_planKeys hn) length_planKeys_lt
    exact ⟨root, plan, hroot, hplan⟩
  refine ⟨hplans, fun libraryId => ⟨fun hmem => ?_, ?_⟩, h.once, ?_⟩
  · obtain ⟨a, ha, rfl⟩ := List.mem_map.mp hmem
    obtain ⟨v, hv, item, hitem, more, happrove⟩ := h.visit_of_mem ha
    obtain ⟨ref, href, root, hroot, hpath⟩ :=
      exists_reference (hc.needed_of_visited h ⟨v, hv, hitem⟩)
    obtain ⟨root', plan, hroot', hplan⟩ := hplans ref href
    obtain rfl := Except.ok.inj (hroot.symm.trans hroot')
    obtain ⟨e, he, rfl⟩ :=
      h.mem_plan hintact (h.visited_of_reference href hroot) hplan hpath
    refine ⟨ref, href, root, plan, ⟨hroot, hplan⟩, List.mem_map.mpr ⟨e, he, ?_⟩⟩
    exact (approve_eq_ok happrove).libraryId.symm
  · rintro ⟨ref, href, root, plan, ⟨hroot, hplan⟩, hmem⟩
    obtain ⟨e, he, rfl⟩ := List.mem_map.mp hmem
    obtain ⟨_, _, _, _, hvisited⟩ :=
      h.entry hintact (h.visited_of_reference href hroot) hplan he
    obtain ⟨a, ha, hid⟩ := h.exists_approval hvisited
    exact List.mem_map.mpr ⟨a, ha, hid⟩
  · rintro ref href root plan ⟨hroot, hplan⟩ e he hne a ha hid
    have hvisited := h.visited_of_reference href hroot
    obtain ⟨r, _, hr, hfinds, hentry⟩ := h.entry hintact hvisited hplan he
    rcases hfinds.kind with ⟨_, hitem, _⟩ | ⟨needing, d, _, hpath, hdepends, hscopes⟩
    · exact absurd (congrArg Prod.fst hitem) hne
    · obtain ⟨v, hv, hother, more, happrove⟩ := h.approve_of_libraryId hentry ha hid
      have hneeding := (hc.needed_of_visited h hvisited).of_reach hpath
      rw [hc.scopes_eq h hneeding hdepends hv hother happrove, hscopes]

/-- The validation of the libraries of a template ends. When it succeeds, its approvals agree with
the plans of installations exactly when the items that are needed are consistent. -/
theorem plansAgree_iff (catalog : PinnedCatalog) (profile : Points) (libraryRefs : List Json) :
    validateWorkspaceTemplateLibraries pf catalog.rows profile libraryRefs ≠ .error none ∧
      ∀ approvals,
        validateWorkspaceTemplateLibraries pf catalog.rows profile libraryRefs = .ok approvals →
          (PlansAgree pf catalog.rows profile libraryRefs approvals ↔
            Consistent pf catalog.rows profile libraryRefs) := by
  refine ⟨validateWorkspaceTemplateLibraries_ne_none, fun approvals hok => ?_⟩
  obtain ⟨visits, h⟩ := lists_of_ok hok
  exact ⟨fun hagree => hagree.consistent h, fun hc => hc.plansAgree h⟩

/-! ## An item and one that it depends on -/

/-- A column that was written for some texts is read as these texts. -/
theorem columnItems_dumps (ts : List Points) :
    columnItems pf (Json.dumps (texts ts)) = .ok (ts.map .str) := by
  have hreadable : Json.Readable pf.py.limits.digits pf.py.limits.depth (texts ts) := by
    have hdepth := pf.py.depth_pos
    obtain ⟨depth, hsucc⟩ := Nat.exists_eq_succ_of_ne_zero hdepth.ne'
    rw [hsucc]
    intro v hv
    obtain ⟨t, _, rfl⟩ := List.mem_map.mp hv
    cases depth <;> trivial
  rw [columnItems, parseJson, Json.loads_dumps hreadable]
  rfl

/-- The hash of the activation with the file `notes.md`. -/
def notesHash : String :=
  "sha256:bdf674e89c8c426ef27bf0b7e68f1afa9ea04699f9c501ff299a82c9f29cb95b"

/-- A dependency on an item with that activation. -/
def starterDependency (stableId : String) : Json :=
  .obj [textField "content_hash" notesHash, (Points.ofString "scopes", texts []),
    textField "stable_id" stableId, textField "version" "1.0.0"]

/-- The stored manifest of an item with that activation. -/
def storedManifest (stableId : String) (scopes : List Points) (dependencies : List Json) : Json :=
  .obj [
    (Points.ofString "activation", .obj [
      (Points.ofString "bundle", .obj [(Points.ofString "files",
        .arr [.obj [textField "content" "x", textField "path" "notes.md"]])]),
      textField "type" "bootstrap_bundle"]),
    (Points.ofString "configuration_schema", .obj [
      (Points.ofString "additionalProperties", .bool false), textField "type" "object"]),
    textField "content_hash" notesHash,
    (Points.ofString "dependencies", .arr dependencies),
    (Points.ofString "health_probe", .obj [
      (Points.ofString "required_bundle_keys", texts [Points.ofString "files"]),
      (Points.ofString "required_files", texts []),
      (Points.ofString "required_mcp_servers", texts []),
      textField "type" "bootstrap_contract"]),
    (Points.ofString "lifecycle", .obj [
      textField "remove" "restore_prior_bundle", textField "upgrade" "replace_same_stable_id"]),
    (Points.ofString "provenance", .obj [textField "publisher" "starter",
      textField "revision" "1", textField "source" "curated://starter"]),
    (Points.ofString "requested_scopes", texts scopes),
    (Points.ofString "schema_version", .int 1),
    textField "stable_id" stableId,
    (Points.ofString "supported_profiles", texts [Points.ofString "codex-cli"]),
    textField "version" "1.0.0"]

def storedItem (libraryId stableId : String) (scopes : List Points) (dependencies : List Json) :
    Item :=
  (Points.ofString libraryId, {
    stableId := Points.ofString stableId
    version := Points.ofString "1.0.0"
    contentHash := Points.ofString notesHash
    provenance := Json.dumps (.obj [textField "publisher" "starter", textField "revision" "1",
      textField "source" "curated://starter"])
    supportedProfilesJson := Json.dumps (texts [Points.ofString "codex-cli"])
    scopesJson := Json.dumps (texts scopes)
    manifestJson := Json.dumps (storedManifest stableId scopes dependencies)
    status := .available
    statusReason := []
    publishedBy := Points.ofString "deployment-registry"
    statusUpdatedAt := some 0
    createdAt := 0
    updatedAt := 0 })

/-- An item with a scope. -/
def notesItem : Item :=
  storedItem "1" "notes" [Points.ofString "files:read"] []

/-- An item that depends on the other without any of its scopes. -/
def bookItem : Item :=
  storedItem "2" "book" [] [starterDependency "notes"]

def bookCatalog : PinnedCatalog where
  rows := ⟨[notesItem, bookItem], by decide⟩
  unique := by decide

/-- A reference to an item. -/
def referenceTo (libraryId stableId : String) : Json :=
  .obj [textField "library_id" libraryId, textField "stable_id" stableId,
    textField "version" "1.0.0", textField "content_hash" notesHash]

/-- What an item with the stored columns lists for approval, when its manifest is valid. -/
theorem approve_storedItem {libraryId stableId : String} {scopes : List Points}
    {dependencies : List Json} {asked : List Points}
    (hreadable : Json.Readable pf.py.limits.digits pf.py.limits.depth
      (storedManifest stableId scopes dependencies))
    (hvalid : ∃ result, validated pf (storedManifest stableId scopes dependencies) = .ok result)
    (hasked : requestedScopes pf requested = .ok asked) (hsubset : asked ⊆ scopes) :
    ∃ a, approve pf (Points.ofString "codex-cli") requested
      (storedItem libraryId stableId scopes dependencies) = .ok (a, dependencies) := by
  obtain ⟨⟨found, normalized⟩, hvalid⟩ := hvalid
  obtain ⟨bundle, hbundle⟩ := exists_activation hvalid
  have hmap : (scopes.map Json.str).map (text pf) = scopes := map_text_texts scopes
  have hparse : parseJson pf (Json.dumps (storedManifest stableId scopes dependencies)) (.obj []) =
      .ok (storedManifest stableId scopes dependencies) := by
    rw [parseJson, Json.loads_dumps hreadable]
  refine ⟨{
    libraryId := Points.ofString libraryId
    stableId := Points.ofString stableId
    version := Points.ofString "1.0.0"
    contentHash := Points.ofString notesHash
    scopes := scopesOr asked scopes }, ?_⟩
  refine bind_eq_ok.mpr ⟨_, columnItems_dumps _, demand_bind_eq_ok.mpr ⟨rfl, ?_⟩⟩
  refine bind_eq_ok.mpr ⟨_, columnItems_dumps _, bind_eq_ok.mpr ⟨_, hasked, ?_⟩⟩
  rw [hmap]
  refine demand_bind_eq_ok.mpr ⟨?_, bind_eq_ok.mpr ⟨_, hparse, ?_⟩⟩
  · exact List.all_eq_true.mpr fun t ht => List.contains_iff_mem.mpr (hsubset ht)
  · exact bind_eq_ok.mpr ⟨_, hbundle, rfl⟩

/-- The manifest of the notes is read back, and is valid. -/
theorem validated_notes : Json.Readable 4300 1000
      (storedManifest "notes" [Points.ofString "files:read"] []) ∧
    ∃ result, validated (starterPlatform notesDigest)
      (storedManifest "notes" [Points.ofString "files:read"] []) = .ok result := by
  have hvalid : (validated (starterPlatform notesDigest)
      (storedManifest "notes" [Points.ofString "files:read"] [])).isOk = true := by
    unfold storedManifest textField notesHash
    repeat rw [Points.ofString_ofList]
    decide +kernel
  exact ⟨by decide +kernel, eq_ok_of_isOk hvalid⟩

/-- The manifest of the book is read back, and is valid. -/
theorem validated_book : Json.Readable 4300 1000
      (storedManifest "book" [] [starterDependency "notes"]) ∧
    ∃ result, validated (starterPlatform notesDigest)
      (storedManifest "book" [] [starterDependency "notes"]) = .ok result := by
  have hvalid : (validated (starterPlatform notesDigest)
      (storedManifest "book" [] [starterDependency "notes"])).isOk = true := by
    unfold storedManifest starterDependency textField notesHash
    repeat rw [Points.ofString_ofList]
    decide +kernel
  exact ⟨by decide +kernel, eq_ok_of_isOk hvalid⟩

theorem availablePinned_notes : availablePinned bookCatalog.rows (Points.ofString "notes")
    (Points.ofString "1.0.0") (Points.ofString notesHash) = some notesItem :=
  availablePinned_eq_some_iff.mpr ⟨⟨List.mem_cons_self, rfl⟩, rfl⟩

theorem requestedItem_dependency :
    requestedItem (starterPlatform notesDigest) bookCatalog.rows (starterDependency "notes") =
      .ok notesItem :=
  requestedItem_of_lookUp availablePinned_notes (by decide)

theorem requestedItem_notes :
    requestedItem (starterPlatform notesDigest) bookCatalog.rows (referenceTo "1" "notes") =
      .ok notesItem := by
  have hitem : availableItem bookCatalog.rows (Points.ofString "1") = some notesItem :=
    availableItem_eq_some_iff.mpr ⟨⟨List.mem_cons_self, rfl⟩, rfl⟩
  exact requestedItem_of_lookUp hitem (by decide)

theorem requestedItem_book :
    requestedItem (starterPlatform notesDigest) bookCatalog.rows (referenceTo "2" "book") =
      .ok bookItem := by
  have hitem : availableItem bookCatalog.rows (Points.ofString "2") = some bookItem :=
    availableItem_eq_some_iff.mpr ⟨⟨List.mem_cons_of_mem _ List.mem_cons_self, rfl⟩, rfl⟩
  exact requestedItem_of_lookUp hitem (by decide)

/-- A step of a listing that visits an item. -/
theorem listing_visit {fuel : ℕ} {pending : List Json} {seen : List Identity} {rest : List Approval}
    (hitem : requestedItem pf rows r = .ok item) (hnew : identityOf item ∉ seen)
    (happrove : approve pf profile r item = .ok (a, more))
    (hrest : Walks.listing (requestedItem pf rows) identityOf (approve pf profile) fuel (pending ++ more) (identityOf item :: seen) = .ok rest) :
    Walks.listing (requestedItem pf rows) identityOf (approve pf profile) (fuel + 1)
      (r :: pending) seen = .ok (a :: rest) := by
  refine bind_eq_ok.mpr ⟨item, Walks.lifted_eq_ok.mpr hitem, ?_⟩
  rw [if_neg hnew]
  exact bind_eq_ok.mpr ⟨_, Walks.lifted_eq_ok.mpr happrove, bind_eq_ok.mpr ⟨rest, hrest, rfl⟩⟩

theorem approve_notes (hasked : requestedScopes (starterPlatform notesDigest) requested = .ok []) :
    ∃ a, approve (starterPlatform notesDigest) (Points.ofString "codex-cli") requested notesItem =
      .ok (a, []) :=
  approve_storedItem validated_notes.1 validated_notes.2 hasked (List.nil_subset _)

theorem approve_book :
    ∃ a, approve (starterPlatform notesDigest) (Points.ofString "codex-cli")
      (referenceTo "2" "book") bookItem = .ok (a, [starterDependency "notes"]) :=
  approve_storedItem validated_book.1 validated_book.2 rfl (List.nil_subset _)

/-- The approvals of the notes agree with their plan exactly when they are consistent. -/
theorem plansAgree_notes : ∃ approvals,
    validateWorkspaceTemplateLibraries (starterPlatform notesDigest) bookCatalog.rows
        (Points.ofString "codex-cli") [referenceTo "1" "notes"] = .ok approvals ∧
      (PlansAgree (starterPlatform notesDigest) bookCatalog.rows (Points.ofString "codex-cli")
          [referenceTo "1" "notes"] approvals ↔
        Consistent (starterPlatform notesDigest) bookCatalog.rows (Points.ofString "codex-cli")
          [referenceTo "1" "notes"]) := by
  obtain ⟨a, ha⟩ := approve_notes (rfl : requestedScopes _ (referenceTo "1" "notes") = .ok [])
  have hlisted : validateWorkspaceTemplateLibraries (starterPlatform notesDigest) bookCatalog.rows
      (Points.ofString "codex-cli") [referenceTo "1" "notes"] = .ok [a] :=
    listing_visit requestedItem_notes List.not_mem_nil ha rfl
  exact ⟨[a], hlisted, (plansAgree_iff bookCatalog _ _).2 [a] hlisted⟩

/-- The book depends on the notes without any of their scopes. -/
theorem dependsBy_book : ∃ d, d.scopes = [] ∧
    DependsBy (starterPlatform notesDigest) bookCatalog.rows bookItem d notesItem := by
  obtain ⟨a, ha⟩ := approve_book
  obtain ⟨found, hfound, _, hstored⟩ := (approve_eq_ok ha).manifest
  obtain ⟨d, hd, hwd⟩ := Walks.exists_mem_of_forall₂ hstored List.mem_cons_self
  obtain ⟨hid, hversion, hhash⟩ := hwd.settled _ rfl
  refine ⟨d, (Except.ok.inj hwd.scopes).symm, found, hfound, hd, ?_⟩
  rw [← hid, ← hversion, ← hhash]
  exact availablePinned_notes

/-- The notes are listed with their scope for a reference to the book, which depends on none of
them. -/
theorem not_plansAgree_book : ∃ approvals,
    validateWorkspaceTemplateLibraries (starterPlatform notesDigest) bookCatalog.rows
        (Points.ofString "codex-cli") [referenceTo "2" "book"] = .ok approvals ∧
      ¬PlansAgree (starterPlatform notesDigest) bookCatalog.rows (Points.ofString "codex-cli")
        [referenceTo "2" "book"] approvals := by
  obtain ⟨a, ha⟩ := approve_book
  obtain ⟨b, hb⟩ := approve_notes (rfl : requestedScopes _ (starterDependency "notes") = .ok [])
  have hlisted : validateWorkspaceTemplateLibraries (starterPlatform notesDigest) bookCatalog.rows
      (Points.ofString "codex-cli") [referenceTo "2" "book"] = .ok [a, b] :=
    listing_visit requestedItem_book List.not_mem_nil ha
      (listing_visit requestedItem_dependency (by decide) hb rfl)
  refine ⟨[a, b], hlisted, fun hagree => ?_⟩
  obtain ⟨visits, h⟩ := lists_of_ok hlisted
  obtain ⟨d, hscopes, hdepends⟩ := dependsBy_book
  have heq := (hagree.consistent h).listed bookItem d notesItem
    (.reference List.mem_cons_self requestedItem_book) hdepends
  have hfirst : firstReference (starterPlatform notesDigest) bookCatalog.rows
      [referenceTo "2" "book"] notesItem = none := by
    refine List.find?_eq_none.mpr fun r hr hfinds => ?_
    obtain rfl := List.mem_singleton.mp hr
    rw [Walks.finds_iff, requestedItem_book] at hfinds
    exact absurd (Except.ok.inj hfinds) (by decide)
  have hallowed : allowedScopes (starterPlatform notesDigest) notesItem =
      [Points.ofString "files:read"] := by
    have hitems : columnItems (starterPlatform notesDigest) notesItem.2.scopesJson =
        .ok ([Points.ofString "files:read"].map .str) := columnItems_dumps _
    rw [allowedScopes, hitems]
    rfl
  rw [firstScopes, hfirst, hscopes, hallowed] at heq
  exact absurd heq (by decide)

end GlassHive.TemplateApprovals
