import GlassHive.Library.Fallible
import Mathlib.Data.List.Basic
import Mathlib.Data.List.Forall2
import Mathlib.Data.List.Pairwise
import Mathlib.Logic.Relation

/-!
# Walks over requests

A request asks for something under a key, which may ask for more. What is asked for is either
listed, breadth first and each key once, or planned, depth first and after what it requires. A walk
has fuel for its steps; it fails without an error when it runs out of it.
-/

namespace Walks

open Fallible (bind_eq_ok map_eq_ok)

/-- A computation as a step of a walk. -/
def lifted {ε α : Type} (x : Except ε α) : Except (Option ε) α :=
  x.mapError some

section Lifted

variable {ε α : Type} {x : Except ε α}

theorem lifted_eq_ok {a : α} : lifted x = .ok a ↔ x = .ok a := by
  cases x <;> simp [lifted, Except.mapError]

theorem lifted_ne_none : lifted x ≠ .error none := by
  cases x <;> simp [lifted, Except.mapError]

/-- A sequence runs out of fuel when its second part does. -/
theorem bind_ne_none {β : Type} {y : Except (Option ε) α} {f : α → Except (Option ε) β}
    (hy : y ≠ .error none) (hf : ∀ a, y = .ok a → f a ≠ .error none) :
    (y >>= f) ≠ .error none := by
  cases y with
  | error => exact fun h => hy (congrArg _ (Except.error.inj h))
  | ok a => exact hf a rfl

/-- Fewer keys are left after one of them is met. -/
theorem length_filter_notMem_cons_lt {κ : Type} [DecidableEq κ] {keys seen : List κ} {k : κ}
    (hk : k ∈ keys) (hnew : k ∉ seen) :
    (keys.filter (· ∉ k :: seen)).length < (keys.filter (· ∉ seen)).length := by
  have hfilter : keys.filter (· ∉ k :: seen) = (keys.filter (· ∉ seen)).filter (· ≠ k) := by
    rw [List.filter_filter]
    refine List.filter_congr fun j _ => ?_
    simp only [List.mem_cons, not_or, Bool.decide_and]
  rw [hfilter]
  refine List.length_filter_lt_length_iff_exists.mpr ⟨k, ?_, by simp⟩
  exact List.mem_filter.mpr ⟨hk, by simpa using hnew⟩

/-- What is in one of two lists is related to something in the other, when they are related. -/
theorem exists_mem_of_forall₂ {β : Type} {R : α → β → Prop} {l : List α} {l' : List β}
    (h : List.Forall₂ R l l') {a : α} (ha : a ∈ l) : ∃ b ∈ l', R a b := by
  induction h with
  | nil => exact absurd ha List.not_mem_nil
  | cons hfirst _ ih =>
    rcases List.mem_cons.mp ha with rfl | ha
    · exact ⟨_, List.mem_cons_self, hfirst⟩
    · obtain ⟨b, hb, hab⟩ := ih ha
      exact ⟨b, List.mem_cons_of_mem _ hb, hab⟩

end Lifted

/-! ## Breadth first -/

section Listing

variable {ρ ν κ α ε : Type} [DecidableEq κ]

/-- The requests are taken in their order. One for a key that was seen is skipped; what another
asks for is put behind the rest. -/
def listing (look : ρ → Except ε ν) (key : ν → κ) (expand : ρ → ν → Except ε (α × List ρ)) :
    ℕ → List ρ → List κ → Except (Option ε) (List α)
  | 0, _, _ => .error none
  | _ + 1, [], _ => .ok []
  | fuel + 1, r :: pending, seen => do
    let n ← lifted (look r)
    if key n ∈ seen then listing look key expand fuel pending seen
    else do
      let (a, more) ← lifted (expand r n)
      let rest ← listing look key expand fuel (pending ++ more) (key n :: seen)
      return a :: rest

variable (find : ρ → Except ε κ) (expand : ρ → Except ε (α × List ρ))

/-- A request finds a key. -/
def finds (k : κ) (r : ρ) : Bool :=
  match find r with
  | .ok j => j == k
  | .error _ => false

theorem finds_iff {k : κ} {r : ρ} : finds find k r = true ↔ find r = .ok k := by
  unfold finds
  split <;> rename_i h <;> simp [h]

/-- What some requests ask for, directly or not. -/
inductive Asked (requests : List ρ) : ρ → Prop
  | initial {r : ρ} : r ∈ requests → Asked requests r
  | more {r r' : ρ} {a : α} {more : List ρ} : Asked requests r → expand r = .ok (a, more) →
    r' ∈ more → Asked requests r'

/-- What a listing of some requests visits, after some keys were seen, and what comes out. -/
structure Listed (pending : List ρ) (seen : List κ) (visits : List ρ) (out : List α) : Prop where
  results : List.Forall₂ (fun r a => ∃ more, expand r = .ok (a, more)) visits out
  asked : ∀ r ∈ visits, Asked expand pending r
  fresh : ∀ r ∈ visits, ∃ k, find r = .ok k ∧ k ∉ seen
  once : visits.Pairwise fun r r' => find r ≠ find r'
  covered : ∀ r, (r ∈ pending ∨ ∃ v ∈ visits, ∃ a more, expand v = .ok (a, more) ∧ r ∈ more) →
    ∃ k, find r = .ok k ∧ (k ∈ seen ∨ ∃ v ∈ visits, find v = .ok k)
  first : ∀ k r, k ∉ seen → pending.find? (finds find k) = some r → r ∈ visits

variable {find expand} {fuel : ℕ} {pending : List ρ} {seen : List κ} {visits : List ρ}
  {out : List α}

/-- What is asked for by what one of the requests asks for is asked for. -/
theorem Asked.of_expand {r r' : ρ} {a : α} {more : List ρ} (hr : expand r = .ok (a, more))
    (h : Asked expand (pending ++ more) r') : Asked expand (r :: pending) r' := by
  induction h with
  | initial hmem =>
    rcases List.mem_append.mp hmem with hmem | hmem
    · exact .initial (List.mem_cons_of_mem _ hmem)
    · exact .more (.initial List.mem_cons_self) hr hmem
  | more _ hexpand hmem ih => exact .more ih hexpand hmem

theorem Asked.mono {requests requests' : List ρ} {r : ρ} (hsub : requests ⊆ requests')
    (h : Asked expand requests r) : Asked expand requests' r := by
  induction h with
  | initial hmem => exact .initial (hsub hmem)
  | more _ hexpand hmem ih => exact .more ih hexpand hmem

/-- A request for a key that was seen is left out. -/
theorem Listed.skip {r : ρ} {k : κ} (hfind : find r = .ok k) (hk : k ∈ seen)
    (h : Listed find expand pending seen visits out) :
    Listed find expand (r :: pending) seen visits out where
  results := h.results
  asked v hv := (h.asked v hv).mono (List.subset_cons_self _ _)
  fresh := h.fresh
  once := h.once
  covered q hq := by
    rcases hq with hq | hq
    · rcases List.mem_cons.mp hq with rfl | hq
      · exact ⟨k, hfind, .inl hk⟩
      · exact h.covered q (.inl hq)
    · exact h.covered q (.inr hq)
  first j q hj hq := by
    have hr : finds find j r = false := by
      rw [Bool.eq_false_iff, Ne, finds_iff, hfind]
      exact fun heq => hj (Except.ok.inj heq ▸ hk)
    rw [List.find?_cons_of_neg (by simp [hr])] at hq
    exact h.first j q hj hq

/-- A request for another key is visited. -/
theorem Listed.visit {r : ρ} {k : κ} {a : α} {more : List ρ} (hfind : find r = .ok k)
    (hk : k ∉ seen) (hexpand : expand r = .ok (a, more))
    (h : Listed find expand (pending ++ more) (k :: seen) visits out) :
    Listed find expand (r :: pending) seen (r :: visits) (a :: out) where
  results := .cons ⟨more, hexpand⟩ h.results
  asked v hv := by
    rcases List.mem_cons.mp hv with rfl | hv
    · exact .initial List.mem_cons_self
    · exact (h.asked v hv).of_expand hexpand
  fresh v hv := by
    rcases List.mem_cons.mp hv with rfl | hv
    · exact ⟨k, hfind, hk⟩
    · obtain ⟨j, hj, hnew⟩ := h.fresh v hv
      exact ⟨j, hj, fun hmem => hnew (List.mem_cons_of_mem k hmem)⟩
  once := by
    refine List.pairwise_cons.mpr ⟨fun v hv heq => ?_, h.once⟩
    obtain ⟨j, hj, hnew⟩ := h.fresh v hv
    rw [hfind, hj] at heq
    exact hnew (Except.ok.inj heq ▸ List.mem_cons_self)
  covered q hq := by
    have hcovered : q = r ∨
        ∃ j, find q = .ok j ∧ (j ∈ k :: seen ∨ ∃ v ∈ visits, find v = .ok j) := by
      rcases hq with hq | ⟨v, hv, b, others, hb, hmem⟩
      · rcases List.mem_cons.mp hq with rfl | hq
        · exact .inl rfl
        · exact .inr (h.covered q (.inl (List.mem_append_left more hq)))
      · rcases List.mem_cons.mp hv with rfl | hv
        · obtain ⟨rfl, rfl⟩ := Prod.mk.inj (Except.ok.inj (hexpand.symm.trans hb))
          exact .inr (h.covered q (.inl (List.mem_append_right pending hmem)))
        · exact .inr (h.covered q (.inr ⟨v, hv, b, others, hb, hmem⟩))
    rcases hcovered with rfl | ⟨j, hj, hmem | ⟨v, hv, hvj⟩⟩
    · exact ⟨k, hfind, .inr ⟨q, List.mem_cons_self, hfind⟩⟩
    · rcases List.mem_cons.mp hmem with rfl | hmem
      · exact ⟨j, hj, .inr ⟨r, List.mem_cons_self, hfind⟩⟩
      · exact ⟨j, hj, .inl hmem⟩
    · exact ⟨j, hj, .inr ⟨v, List.mem_cons_of_mem r hv, hvj⟩⟩
  first j q hj hq := by
    rw [List.find?_cons] at hq
    split at hq
    · obtain rfl := Option.some.inj hq
      exact List.mem_cons_self
    · rename_i hr
      have hjk : j ≠ k := by
        rintro rfl
        exact Bool.eq_false_iff.mp hr ((finds_iff find).mpr hfind)
      refine List.mem_cons_of_mem r (h.first j q ?_ ?_)
      · exact fun hmem => (List.mem_cons.mp hmem).elim hjk hj
      · rw [List.find?_append, hq, Option.some_or]

/-- A listing that succeeds lists what it visits. -/
theorem listing_eq_ok {look : ρ → Except ε ν} {key : ν → κ}
    {expand : ρ → ν → Except ε (α × List ρ)}
    (h : listing look key expand fuel pending seen = .ok out) :
    ∃ visits, Listed (fun r => (look r).map key) (fun r => look r >>= expand r) pending seen
      visits out := by
  induction fuel generalizing pending seen out with
  | zero => cases h
  | succ fuel ih =>
    cases pending with
    | nil =>
      obtain rfl := Except.ok.inj h
      refine ⟨[], .nil, ?_, ?_, .nil, ?_, ?_⟩ <;> simp
    | cons r =>
      obtain ⟨n, hlook, h⟩ := bind_eq_ok.mp h
      rw [lifted_eq_ok] at hlook
      have hfind : (look r).map key = .ok (key n) := map_eq_ok.mpr ⟨n, hlook, rfl⟩
      split at h
      · rename_i hk
        obtain ⟨visits, hvisits⟩ := ih h
        exact ⟨visits, hvisits.skip hfind hk⟩
      · rename_i hk
        obtain ⟨⟨a, more⟩, hexpand, h⟩ := bind_eq_ok.mp h
        rw [lifted_eq_ok] at hexpand
        obtain ⟨rest, hrest, h⟩ := bind_eq_ok.mp h
        obtain rfl := Except.ok.inj h
        obtain ⟨visits, hvisits⟩ := ih hrest
        exact ⟨r :: visits, hvisits.visit hfind hk (bind_eq_ok.mpr ⟨n, hlook, hexpand⟩)⟩

theorem Listed.exists_result (h : Listed find expand pending seen visits out) {v : ρ}
    (hv : v ∈ visits) : ∃ a ∈ out, ∃ more, expand v = .ok (a, more) :=
  exists_mem_of_forall₂ h.results hv

theorem Listed.exists_visit (h : Listed find expand pending seen visits out) {a : α}
    (ha : a ∈ out) : ∃ v ∈ visits, ∃ more, expand v = .ok (a, more) :=
  exists_mem_of_forall₂ h.results.flip ha

/-- Two visits for one key are one. -/
theorem Listed.eq_of_find (h : Listed find expand pending seen visits out) {v v' : ρ}
    (hv : v ∈ visits) (hv' : v' ∈ visits) (hfind : find v = find v') : v = v' := by
  have : Std.Symm fun r r' => find r ≠ find r' := ⟨fun _ _ hne => hne.symm⟩
  by_contra hne
  exact h.once.forall hv hv' hne hfind

/-- What comes out is pairwise related as the results for different keys are. -/
theorem Listed.pairwise {R : α → α → Prop} (h : Listed find expand pending seen visits out)
    (hR : ∀ v v' a a' more more', expand v = .ok (a, more) → expand v' = .ok (a', more') →
      find v ≠ find v' → R a a') : out.Pairwise R := by
  have honce := h.once
  have hresults := h.results
  clear h
  induction hresults with
  | nil => exact .nil
  | @cons v a visits out hfirst hrest ih =>
    rw [List.pairwise_cons] at honce ⊢
    refine ⟨fun a' ha' => ?_, ih honce.2⟩
    obtain ⟨more, hmore⟩ := hfirst
    obtain ⟨v', hv', more', hmore'⟩ := exists_mem_of_forall₂ hrest.flip ha'
    exact hR v v' a a' more more' hmore hmore' (honce.1 v' hv')

/-- A listing ends, when there are finitely many keys and each asks for a bounded number of
others. -/
theorem listing_ne_none {look : ρ → Except ε ν} {key : ν → κ}
    {expand : ρ → ν → Except ε (α × List ρ)} {keys : List κ} {bound : ℕ}
    (hlook : ∀ r n, look r = .ok n → key n ∈ keys)
    (hmore : ∀ r n a more, expand r n = .ok (a, more) → more.length ≤ bound)
    (hfuel : pending.length + bound * (keys.filter (· ∉ seen)).length < fuel) :
    listing look key expand fuel pending seen ≠ .error none := by
  induction fuel generalizing pending seen with
  | zero => exact absurd hfuel (Nat.not_lt_zero _)
  | succ fuel ih =>
    cases pending with
    | nil => exact nofun
    | cons r =>
      rw [List.length_cons] at hfuel
      refine bind_ne_none lifted_ne_none fun n hn => ?_
      rw [lifted_eq_ok] at hn
      split
      · exact ih (by omega)
      · rename_i hnew
        refine bind_ne_none lifted_ne_none fun result hresult => ?_
        obtain ⟨a, more⟩ := result
        rw [lifted_eq_ok] at hresult
        have hlength := hmore r n a more hresult
        have hkeys := length_filter_notMem_cons_lt (hlook r n hn) hnew
        have hmul := Nat.mul_le_mul_left bound (Nat.succ_le_of_lt hkeys)
        rw [Nat.mul_succ] at hmul
        refine bind_ne_none (ih ?_) fun rest _ => nofun
        rw [List.length_append]
        omega

end Listing

/-! ## Depth first -/

/-- How requests are planned: what a request finds, under which key and with which label; what has
to be planned before it, and what is made of it then. -/
structure Planner (ρ ν κ σ ω ε : Type) where
  look : ρ → Except ε ν
  key : ν → κ
  label : ν → σ
  children : ν → Except ε (List ρ)
  close : ν → Except ε ω
  cycle : ε
  inconsistent : ε

namespace Planner

variable {ρ ν κ σ ω ε : Type} [DecidableEq κ] [DecidableEq σ] (g : Planner ρ ν κ σ ω ε)

/-- What a request requires is planned, unless it is there, and the request is put behind it. A key
that is being visited is not visited again, and has one label. -/
def visit : ℕ → List κ → List (ν × ω) → ρ → Except (Option ε) (List (ν × ω))
  | 0, _, _, _ => .error none
  | fuel + 1, visiting, plan, r => do
    let n ← lifted (g.look r)
    if g.key n ∈ visiting then .error (some g.cycle)
    else
      match plan.find? fun e => g.key e.1 = g.key n with
      | some e => if g.label n = g.label e.1 then .ok plan else .error (some g.inconsistent)
      | none => do
        let children ← lifted (g.children n)
        let plan ← children.foldlM (visit fuel (g.key n :: visiting)) plan
        let w ← lifted (g.close n)
        return plan ++ [(n, w)]

/-- One request requires another. -/
def Requires (r c : ρ) : Prop :=
  ∃ n children, g.look r = .ok n ∧ g.children n = .ok children ∧ c ∈ children

/-- A request is met by a plan, under its own label. -/
def Settled (plan : List (ν × ω)) (r : ρ) : Prop :=
  ∃ n, g.look r = .ok n ∧ ∃ e ∈ plan, g.key e.1 = g.key n ∧ g.label e.1 = g.label n

/-- A plan in which every key stands once, behind what it requires. -/
inductive Planned : List (ν × ω) → Prop
  | nil : Planned []
  | snoc {plan : List (ν × ω)} {n : ν} {children : List ρ} {w : ω} : Planned plan →
    (∀ e ∈ plan, g.key e.1 ≠ g.key n) → g.children n = .ok children →
    (∀ c ∈ children, g.Settled plan c) → g.close n = .ok w → Planned (plan ++ [(n, w)])

/-- What a visit adds to a plan is found by what is required, directly or not, and is not being
visited. -/
def Adds (visiting : List κ) (r : ρ) (plan plan' : List (ν × ω)) : Prop :=
  plan ⊆ plan' ∧ ∀ e ∈ plan', e ∈ plan ∨
    g.key e.1 ∉ visiting ∧ ∃ r', Relation.ReflTransGen g.Requires r r' ∧ g.look r' = .ok e.1

variable {g} {fuel : ℕ} {visiting : List κ} {plan plan' : List (ν × ω)} {r c : ρ} {n : ν}

omit [DecidableEq κ] [DecidableEq σ] in
theorem Settled.mono (h : g.Settled plan r) (hsub : plan ⊆ plan') : g.Settled plan' r := by
  obtain ⟨n, hn, e, he, hkey, hlabel⟩ := h
  exact ⟨n, hn, e, hsub he, hkey, hlabel⟩

/-- What a visit does when it succeeds, of each of some requests, is what visiting them one after
the other does. -/
theorem foldlM_visit_eq_ok {children : List ρ}
    (hvisit : ∀ c plan plan', g.Planned plan → g.visit fuel visiting plan c = .ok plan' →
      g.Planned plan' ∧ g.Settled plan' c ∧ g.Adds visiting c plan plan')
    (hplan : g.Planned plan)
    (h : children.foldlM (g.visit fuel visiting) plan = .ok plan') :
    g.Planned plan' ∧ (∀ c ∈ children, g.Settled plan' c) ∧ plan ⊆ plan' ∧
      ∀ e ∈ plan', e ∈ plan ∨ g.key e.1 ∉ visiting ∧
        ∃ c ∈ children, ∃ r', Relation.ReflTransGen g.Requires c r' ∧ g.look r' = .ok e.1 := by
  induction children generalizing plan with
  | nil =>
    obtain rfl := Except.ok.inj h
    exact ⟨hplan, fun c hc => absurd hc List.not_mem_nil, List.Subset.refl _,
      fun e he => .inl he⟩
  | cons c children ih =>
    rw [List.foldlM_cons] at h
    obtain ⟨middle, hmiddle, h⟩ := bind_eq_ok.mp h
    obtain ⟨hplanned, hsettled, hsub, hnew⟩ := hvisit c plan middle hplan hmiddle
    obtain ⟨hplanned', hrest, hsub', hnew'⟩ := ih hplanned h
    refine ⟨hplanned', ?_, List.Subset.trans hsub hsub', fun e he => ?_⟩
    · exact List.forall_mem_cons.mpr ⟨hsettled.mono hsub', hrest⟩
    · rcases hnew' e he with he | ⟨hkey, d, hd, hfrom⟩
      · rcases hnew e he with he | ⟨hkey, hfrom⟩
        · exact .inl he
        · exact .inr ⟨hkey, c, List.mem_cons_self, hfrom⟩
      · exact .inr ⟨hkey, d, List.mem_cons_of_mem c hd, hfrom⟩

/-- A visit that succeeds plans what is required, and settles its request. -/
theorem visit_eq_ok (hplan : g.Planned plan) (h : g.visit fuel visiting plan r = .ok plan') :
    g.Planned plan' ∧ g.Settled plan' r ∧ g.Adds visiting r plan plan' := by
  induction fuel generalizing visiting plan plan' r with
  | zero => cases h
  | succ fuel ih =>
    obtain ⟨n, hlook, h⟩ := bind_eq_ok.mp h
    rw [lifted_eq_ok] at hlook
    split at h
    · cases h
    · rename_i hvisiting
      split at h
      · rename_i e he
        split at h
        · rename_i hlabel
          obtain rfl := Except.ok.inj h
          have hkey : g.key e.1 = g.key n := by simpa using List.find?_some he
          exact ⟨hplan, ⟨n, hlook, e, List.mem_of_find?_eq_some he, hkey, hlabel.symm⟩,
            List.Subset.refl _, fun e he => .inl he⟩
        · cases h
      · rename_i hnone
        obtain ⟨children, hchildren, h⟩ := bind_eq_ok.mp h
        obtain ⟨middle, hmiddle, h⟩ := bind_eq_ok.mp h
        obtain ⟨w, hclose, h⟩ := bind_eq_ok.mp h
        rw [lifted_eq_ok] at hchildren hclose
        obtain rfl := Except.ok.inj h
        obtain ⟨hplanned, hsettled, hsub, hnew⟩ :=
          foldlM_visit_eq_ok (fun c plan plan' hplan h => ih hplan h) hplan hmiddle
        refine ⟨hplanned.snoc (fun e he => ?_) hchildren hsettled hclose,
          ⟨n, hlook, (n, w), List.mem_append_right _ List.mem_cons_self, rfl, rfl⟩,
          List.Subset.trans hsub (List.subset_append_left _ _), fun e he => ?_⟩
        · rcases hnew e he with he | ⟨hkey, _⟩
          · exact of_decide_eq_false (Bool.eq_false_iff.mpr (List.find?_eq_none.mp hnone e he))
          · exact fun heq => hkey (heq ▸ List.mem_cons_self)
        · rcases List.mem_append.mp he with he | he
          · rcases hnew e he with he | ⟨hkey, c, hc, r', hfrom, hr'⟩
            · exact .inl he
            · exact .inr ⟨fun hmem => hkey (List.mem_cons_of_mem _ hmem), r',
                .head ⟨n, children, hlook, hchildren, hc⟩ hfrom, hr'⟩
          · obtain rfl := List.mem_singleton.mp he
            exact .inr ⟨hvisiting, r, .refl, hlook⟩

/-- A visit ends, when there are finitely many keys. -/
theorem visit_ne_none {keys : List κ} (hlook : ∀ r n, g.look r = .ok n → g.key n ∈ keys)
    (hfuel : (keys.filter (· ∉ visiting)).length < fuel) :
    g.visit fuel visiting plan r ≠ .error none := by
  induction fuel generalizing visiting plan r with
  | zero => exact absurd hfuel (Nat.not_lt_zero _)
  | succ fuel ih =>
    refine bind_ne_none lifted_ne_none fun n hn => ?_
    rw [lifted_eq_ok] at hn
    split
    · exact nofun
    · rename_i hvisiting
      split
      · split <;> exact nofun
      · refine bind_ne_none lifted_ne_none fun children _ => ?_
        have hkeys := length_filter_notMem_cons_lt (hlook r n hn) hvisiting
        have hfold : ∀ (cs : List ρ) (plan : List (ν × ω)),
            cs.foldlM (g.visit fuel (g.key n :: visiting)) plan ≠ .error none := by
          intro cs
          induction cs with
          | nil => exact fun _ => nofun
          | cons c cs ihc =>
            intro plan
            rw [List.foldlM_cons]
            exact bind_ne_none (ih (by omega)) fun plan _ => ihc plan
        exact bind_ne_none (hfold children plan) fun plan _ =>
          bind_ne_none lifted_ne_none fun w _ => nofun

/-! ## Plans that exist -/

/-- Requests that can be planned: each finds what it can make, each requires others of them, those
for one key have one label, and none requires its own key. -/
structure Plannable (g : Planner ρ ν κ σ ω ε) (P : ρ → Prop) : Prop where
  look : ∀ r, P r → ∃ n children w, g.look r = .ok n ∧ g.children n = .ok children ∧
    (∀ c ∈ children, P c) ∧ g.close n = .ok w
  agree : ∀ r r' n n', P r → P r' → g.look r = .ok n → g.look r' = .ok n' → g.key n = g.key n' →
    g.label n = g.label n'
  acyclic : ∀ r r' n n', P r → Relation.TransGen g.Requires r r' → g.look r = .ok n →
    g.look r' = .ok n' → g.key n ≠ g.key n'

/-- The keys being visited are those of requests that require the given one. -/
def Above (g : Planner ρ ν κ σ ω ε) (P : ρ → Prop) (visiting : List κ) (r : ρ) : Prop :=
  ∀ k ∈ visiting, ∃ a n, P a ∧ Relation.TransGen g.Requires a r ∧ g.look a = .ok n ∧ g.key n = k

variable {P : ρ → Prop}

omit [DecidableEq κ] [DecidableEq σ] in
theorem Plannable.of_requires (h : g.Plannable P) (hr : P r) (hc : g.Requires r c) : P c := by
  obtain ⟨n, children, hn, hchildren, hc⟩ := hc
  obtain ⟨n', children', w, hn', hchildren', hP, _⟩ := h.look r hr
  obtain rfl := Except.ok.inj (hn.symm.trans hn')
  obtain rfl := Except.ok.inj (hchildren.symm.trans hchildren')
  exact hP c hc

omit [DecidableEq κ] [DecidableEq σ] in
theorem Plannable.of_reflTransGen (h : g.Plannable P) (hr : P r)
    (hc : Relation.ReflTransGen g.Requires r c) : P c := by
  induction hc with
  | refl => exact hr
  | tail _ hstep ih => exact h.of_requires ih hstep

omit [DecidableEq κ] [DecidableEq σ] in
theorem Above.cons (hr : P r) (hn : g.look r = .ok n) (hc : g.Requires r c)
    (h : g.Above P visiting r) : g.Above P (g.key n :: visiting) c := by
  intro k hk
  rcases List.mem_cons.mp hk with rfl | hk
  · exact ⟨r, n, hr, .single hc, hn, rfl⟩
  · obtain ⟨a, m, ha, hpath, hm, hkey⟩ := h k hk
    exact ⟨a, m, ha, hpath.tail hc, hm, hkey⟩

/-- Requests that can be planned are planned, behind others of them. -/
theorem visit_ne_error (hP : g.Plannable P) (hr : P r) (habove : g.Above P visiting r)
    (hplan : g.Planned plan) (hfrom : ∀ e ∈ plan, ∃ r, P r ∧ g.look r = .ok e.1) (e : ε) :
    g.visit fuel visiting plan r ≠ .error (some e) := by
  induction fuel generalizing visiting plan r with
  | zero => exact nofun
  | succ fuel ih =>
    obtain ⟨n, children, w, hn, hchildren, hall, hw⟩ := hP.look r hr
    have hvisiting : g.key n ∉ visiting := by
      intro hmem
      obtain ⟨a, m, ha, hpath, hm, hkey⟩ := habove _ hmem
      exact hP.acyclic a r m n ha hpath hm hn hkey
    rw [visit, lifted_eq_ok.mpr hn]
    change (if g.key n ∈ visiting then _ else _) ≠ _
    rw [if_neg hvisiting]
    split
    · rename_i e he
      obtain ⟨r', hr', hlook⟩ := hfrom e (List.mem_of_find?_eq_some he)
      have hkey : g.key e.1 = g.key n := by simpa using List.find?_some he
      rw [if_pos (hP.agree r r' n e.1 hr hr' hn hlook hkey.symm)]
      exact nofun
    · rw [lifted_eq_ok.mpr hchildren, lifted_eq_ok.mpr hw]
      change (children.foldlM _ plan >>= fun plan => Except.ok (plan ++ [(n, w)])) ≠ _
      have hrequires : ∀ c ∈ children, g.Requires r c :=
        fun c hc => ⟨n, children, hn, hchildren, hc⟩
      have hfold : ∀ cs ⊆ children, ∀ plan, g.Planned plan →
          (∀ e ∈ plan, ∃ r, P r ∧ g.look r = .ok e.1) →
          cs.foldlM (g.visit fuel (g.key n :: visiting)) plan ≠ .error (some e) := by
        intro cs hcs
        induction cs with
        | nil => exact fun _ _ _ => nofun
        | cons c cs ihc =>
          intro plan hplan hfrom
          have hc := hcs List.mem_cons_self
          have hstep := ih (hall c hc) (habove.cons hr hn (hrequires c hc)) hplan hfrom
          rw [List.foldlM_cons]
          cases hvisit : g.visit fuel (g.key n :: visiting) plan c with
          | error => exact fun h => hstep (hvisit.trans h)
          | ok plan' =>
            obtain ⟨hplan', _, _, hnew⟩ := visit_eq_ok hplan hvisit
            refine ihc (fun d hd => hcs (List.mem_cons_of_mem c hd)) plan' hplan' fun e he => ?_
            rcases hnew e he with he | ⟨_, r', hpath, hr'⟩
            · exact hfrom e he
            · exact ⟨r', hP.of_reflTransGen (hall c hc) hpath, hr'⟩
      have hchildrenFold := hfold children (List.Subset.refl _) plan hplan hfrom
      cases hplan' : children.foldlM (g.visit fuel (g.key n :: visiting)) plan with
      | error => exact fun h => hchildrenFold (hplan'.trans h)
      | ok => exact nofun

/-- What can be planned is planned, from nothing and with a step for each key. -/
theorem exists_plan {keys : List κ} (hP : g.Plannable P) (hr : P r)
    (hlook : ∀ r n, g.look r = .ok n → g.key n ∈ keys) (hfuel : keys.length < fuel) :
    ∃ plan, g.visit fuel [] [] r = .ok plan := by
  have hnone : g.visit fuel [] [] r ≠ .error none :=
    visit_ne_none hlook (Nat.lt_of_le_of_lt (List.length_filter_le _ _) hfuel)
  cases h : g.visit fuel [] [] r with
  | ok plan => exact ⟨plan, rfl⟩
  | error e =>
    cases e with
    | none => exact absurd h hnone
    | some e =>
      exact absurd h (visit_ne_error hP hr (fun k hk => absurd hk List.not_mem_nil) .nil
        (fun e he => absurd he List.not_mem_nil) e)

/-! ## Plans that were made -/

omit [DecidableEq κ] [DecidableEq σ] in
/-- What stands before an entry of a plan is a plan, and has what the entry requires. -/
theorem Planned.before {done rest : List (ν × ω)} {e : ν × ω}
    (h : g.Planned (done ++ e :: rest)) :
    (∀ e' ∈ done, g.key e'.1 ≠ g.key e.1) ∧
      ∃ children, g.children e.1 = .ok children ∧ ∀ c ∈ children, g.Settled done c := by
  generalize hplan : done ++ e :: rest = plan at h
  induction h generalizing rest with
  | nil => exact absurd hplan (by simp)
  | @snoc plan n children w hplanned hkeys hchildren hsettled _ ih =>
    rcases List.eq_nil_or_concat rest with rfl | ⟨rest', last, rfl⟩
    · obtain ⟨rfl, hlast⟩ := List.append_inj' hplan rfl
      obtain rfl := List.singleton_inj.mp hlast
      exact ⟨hkeys, children, hchildren, hsettled⟩
    · rw [List.concat_eq_append, ← List.cons_append, ← List.append_assoc] at hplan
      exact ih (List.append_inj' hplan rfl).1

omit [DecidableEq κ] [DecidableEq σ] in
/-- What an entry of a plan requires is known, and so is what was made of it. -/
theorem Planned.of_mem {e : ν × ω} (h : g.Planned plan) (he : e ∈ plan) :
    (∃ children, g.children e.1 = .ok children) ∧ g.close e.1 = .ok e.2 := by
  induction h with
  | nil => exact absurd he List.not_mem_nil
  | @snoc plan n children w _ _ hchildren _ hclose ih =>
    rcases List.mem_append.mp he with he | he
    · exact ih he
    · obtain rfl := List.mem_singleton.mp he
      exact ⟨⟨children, hchildren⟩, hclose⟩

omit [DecidableEq κ] [DecidableEq σ] in
/-- What a planned request requires stands before it. -/
theorem Planned.of_transGen (h : g.Planned plan)
    (hsame : ∀ e ∈ plan, ∀ r n, P r → g.look r = .ok n → g.key e.1 = g.key n →
      g.children n = g.children e.1)
    (hstep : ∀ r c, P r → g.Requires r c → P c) (hr : P r) (hn : g.look r = .ok n)
    (hmem : ∃ e ∈ plan, g.key e.1 = g.key n) (hc : Relation.TransGen g.Requires r c) :
    P c ∧ ∃ done e rest, plan = done ++ e :: rest ∧ g.key e.1 = g.key n ∧ g.Settled done c := by
  have hone : ∀ b c m, P b → g.look b = .ok m → g.Requires b c → ∀ e ∈ plan, g.key e.1 = g.key m →
      ∀ done rest, plan = done ++ e :: rest → g.Settled done c := by
    intro b c m hb hm hbc e he hkey done rest hplan
    obtain ⟨m', children, hm', hchildren, hcmem⟩ := hbc
    obtain rfl := Except.ok.inj (hm.symm.trans hm')
    obtain ⟨_, children', hchildren', hsettled⟩ := Planned.before (hplan ▸ h)
    rw [hsame e he b m hb hm hkey] at hchildren
    obtain rfl := Except.ok.inj (hchildren.symm.trans hchildren')
    exact hsettled c hcmem
  induction hc with
  | single hrc =>
    obtain ⟨e, he, hkey⟩ := hmem
    obtain ⟨done, rest, hplan⟩ := List.append_of_mem he
    exact ⟨hstep _ _ hr hrc, done, e, rest, hplan, hkey,
      hone _ _ n hr hn hrc e he hkey done rest hplan⟩
  | tail _ hbc ih =>
    obtain ⟨hb, done, e, rest, hplan, hkey, m, hm, e', he', hkey', _⟩ := ih
    obtain ⟨done', rest', hdone⟩ := List.append_of_mem he'
    have hplan' : plan = done' ++ e' :: (rest' ++ e :: rest) := by
      rw [hplan, hdone, List.append_assoc, List.cons_append]
    have hmem' : e' ∈ plan := hplan' ▸ List.mem_append_right _ List.mem_cons_self
    have hsettled := hone _ _ m hb hm hbc e' hmem' hkey' done' _ hplan'
    refine ⟨hstep _ _ hb hbc, done, e, rest, hplan, hkey, hsettled.mono ?_⟩
    rw [hdone]
    exact List.subset_append_left _ _

omit [DecidableEq κ] [DecidableEq σ] in
/-- No request of a plan requires its own key. -/
theorem Planned.acyclic (h : g.Planned plan)
    (hsame : ∀ e ∈ plan, ∀ r n, P r → g.look r = .ok n → g.key e.1 = g.key n →
      g.children n = g.children e.1)
    (hstep : ∀ r c, P r → g.Requires r c → P c) (hr : P r) (hn : g.look r = .ok n)
    (hmem : ∃ e ∈ plan, g.key e.1 = g.key n) (hc : Relation.TransGen g.Requires r c) {m : ν}
    (hm : g.look c = .ok m) : g.key n ≠ g.key m := by
  obtain ⟨_, done, e, rest, hplan, hkey, m', hm', e', he', hkey', _⟩ :=
    h.of_transGen hsame hstep hr hn hmem hc
  obtain rfl := Except.ok.inj (hm.symm.trans hm')
  intro heq
  exact (Planned.before (hplan ▸ h)).1 e' he' (hkey'.trans (heq.symm.trans hkey.symm))

end Planner

end Walks
