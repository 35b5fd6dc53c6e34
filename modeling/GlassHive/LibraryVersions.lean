import GlassHive.Library.Fallible
import GlassHive.Library.FirstDifference
import GlassHive.Library.Text
import Mathlib.Data.Sum.Order
import Mathlib.Data.Char
import Mathlib.Data.List.Lex
import Mathlib.Data.Set.Defs
import Mathlib.Logic.Relation

/-!
# Library versions

An upgrade of a library item must select a greater version. Versions are three numbers and an
optional prerelease. The pattern that manifests are checked against is wider than semantic
versioning: numeric identifiers of a prerelease may have leading zeros.

The interpreter converts texts of at most `digits` digits to integers.
-/

namespace GlassHive.LibraryVersions

/-! ## The comparison -/

/-- What `compare_semantic_versions` raises: a `ValueError` of `int`. -/
inductive VersionError
  | valueError
  deriving DecidableEq, Repr

/-- `str.isdigit`, of an ASCII text. -/
def isDigits (t : Text) : Bool :=
  !t.isEmpty && t.all Char.isDigit

/-- The value of a text of digits. -/
def number (t : Text) : ℕ :=
  t.foldl (fun n c => 10 * n + (c.toNat - '0'.toNat)) 0

/-- `int` of a text of digits. -/
def int (digits : ℕ) (t : Text) : Except VersionError ℕ :=
  if t.length ≤ digits then .ok (number t) else .error .valueError

/-- The texts of the numbers of a version. -/
def mainParts (value : Text) : List Text :=
  (value.takeWhile (· ≠ '-')).splitOn '.'

/-- The identifiers of its prerelease. -/
def prerelease (value : Text) : Option (List Text) :=
  match value.dropWhile (· ≠ '-') with
  | [] => none
  | _ :: rest => some (rest.splitOn '.')

/-- `parse`. -/
def parse (digits : ℕ) (value : Text) : Except VersionError (List ℕ × Option (List Text)) := do
  let main ← (mainParts value).mapM (int digits)
  return (main, prerelease value)

/-- The comparison of two prereleases. -/
def comparePrereleases (digits : ℕ) : List Text → List Text → Except VersionError ℤ
  | [], [] => return 0
  | [], _ :: _ => return -1
  | _ :: _, [] => return 1
  | left :: lefts, right :: rights =>
    if left = right then comparePrereleases digits lefts rights
    else if isDigits left && isDigits right then do
      let m ← int digits left
      let n ← int digits right
      return if n < m then 1 else -1
    else if isDigits left != isDigits right then return if isDigits left then -1 else 1
    else return if right < left then 1 else -1

/-- `compare_semantic_versions`. -/
def compareSemanticVersions (digits : ℕ) (left right : Text) : Except VersionError ℤ := do
  let (leftMain, leftPre) ← parse digits left
  let (rightMain, rightPre) ← parse digits right
  if leftMain ≠ rightMain then return if rightMain < leftMain then 1 else -1
  match leftPre, rightPre with
  | none, none => return 0
  | none, some _ => return 1
  | some _, none => return -1
  | some lefts, some rights => comparePrereleases digits lefts rights

/-- `[0-9A-Za-z.-]`. -/
def isVersionChar (c : Char) : Bool :=
  c.isDigit || c.isAlpha || c == '.' || c == '-'

/-- `_VERSION`. -/
def isVersion (value : Text) : Bool :=
  (mainParts value).length == 3 && (mainParts value).all isDigits &&
    match value.dropWhile (· ≠ '-') with
    | [] => true
    | _ :: rest => !rest.isEmpty && rest.all isVersionChar

/-- A version that a manifest may have. -/
def Version : Type :=
  { value : Text // isVersion value = true }

/-- The components of a version: its numbers, and the identifiers of its prerelease. -/
def Version.components (v : Version) : List ℕ × Option (List Text) :=
  ((mainParts v.1).map number, prerelease v.1)

/-- The comparison of two versions. -/
def Version.compare (digits : ℕ) (a b : Version) : Except VersionError ℤ :=
  compareSemanticVersions digits a.1 b.1

/-- A version can be upgraded to a greater one. -/
def Upgrades (digits : ℕ) (a b : Version) : Prop :=
  ∃ n, b.compare digits a = .ok n ∧ 0 < n

/-! ## What is asked of the comparison -/

/-- Among the versions of a set the comparison never raises, it is a total order in which only
versions with the same components are equal, and no chain of upgrades leads back. -/
structure TotallyOrdered (digits : ℕ) (V : Set Version) : Prop where
  total : ∀ a ∈ V, ∀ b ∈ V, ∃ n, a.compare digits b = .ok n
  antisymm : ∀ a ∈ V, ∀ b ∈ V, ∀ n, a.compare digits b = .ok n → b.compare digits a = .ok (-n)
  trans : ∀ a ∈ V, ∀ b ∈ V, ∀ c ∈ V, ∀ m n, a.compare digits b = .ok m → 0 ≤ m →
    b.compare digits c = .ok n → 0 ≤ n → ∃ k, a.compare digits c = .ok k ∧ 0 ≤ k
  equal : ∀ a ∈ V, ∀ b ∈ V, a.compare digits b = .ok 0 → a.components = b.components
  upgrades : ∀ a ∈ V, ¬Relation.TransGen (Upgrades digits) a a

/-- Where two prereleases first differ, they do not have two digit texts that are too long or that
have the same value. -/
def Settles (digits : ℕ) : List Text → List Text → Prop
  | left :: lefts, right :: rights =>
    if left = right then Settles digits lefts rights
    else isDigits left = true → isDigits right = true →
      left.length ≤ digits ∧ right.length ≤ digits ∧ number left ≠ number right
  | _, _ => True

/-- The numbers of a version are short enough to be converted. -/
def Version.Short (digits : ℕ) (v : Version) : Prop :=
  ∀ part ∈ mainParts v.1, part.length ≤ digits

/-- Two versions can be compared: their numbers are short enough, and if these are the same, their
prereleases settle. -/
structure Comparable (digits : ℕ) (a b : Version) : Prop where
  left : a.Short digits
  right : b.Short digits
  settles : a.components.1 = b.components.1 → ∀ lefts rights, a.components.2 = some lefts →
    b.components.2 = some rights → Settles digits lefts rights

/-! ## The order behind it -/

/-- The rank of an identifier: numbers come before other texts. -/
def rank (t : Text) : ℕ ⊕ₗ Text :=
  if isDigits t then Sum.inlₗ (number t) else Sum.inrₗ t

/-- The result of a comparison. -/
def sign : Ordering → ℤ
  | .lt => -1
  | .eq => 0
  | .gt => 1

/-- The digit texts at the first difference can be converted. -/
def Readable (digits : ℕ) : List Text → List Text → Prop
  | left :: lefts, right :: rights =>
    if left = right then Readable digits lefts rights
    else isDigits left = true → isDigits right = true →
      left.length ≤ digits ∧ right.length ≤ digits
  | _, _ => True

section Prereleases

variable {digits : ℕ} {lefts rights : List Text}

theorem int_of_le {t : Text} (h : t.length ≤ digits) : int digits t = .ok (number t) :=
  if_pos h

theorem rank_eq_iff {x y : Text} (hxy : x ≠ y) :
    rank x = rank y ↔ isDigits x = true ∧ isDigits y = true ∧ number x = number y := by
  unfold rank
  cases hx : isDigits x <;> cases hy : isDigits y <;> simp [Sum.inlₗ, Sum.inrₗ, hxy]

theorem settles_iff : Settles digits lefts rights ↔
    Readable digits lefts rights ∧ ¬FirstDifference.Collide rank lefts rights := by
  induction lefts generalizing rights with
  | nil => simp [Settles, Readable, FirstDifference.Collide]
  | cons x xs ih =>
    cases rights with
    | nil => simp [Settles, Readable, FirstDifference.Collide]
    | cons =>
      rw [Settles, Readable, FirstDifference.Collide]
      split
      · exact ih
      · rename_i hxy
        rw [rank_eq_iff hxy]
        tauto

/-- The comparison of identifiers that differ. -/
theorem compareDifferent_eq_ok {x y : Text} {n : ℤ} (hxy : x ≠ y) :
    comparePrereleases digits (x :: lefts) (y :: rights) = .ok n ↔
      (isDigits x = true → isDigits y = true → x.length ≤ digits ∧ y.length ≤ digits) ∧
        n = if rank y < rank x then 1 else -1 := by
  rw [comparePrereleases, if_neg hxy]
  cases hx : isDigits x <;> cases hy : isDigits y
  · simp [rank, hx, hy, pure, Except.pure, eq_comm]
  · simp [rank, hx, hy, pure, Except.pure, eq_comm]
  · simp [rank, hx, hy, pure, Except.pure, eq_comm]
  · simp only [Bool.and_self, if_true, rank, hx, hy, Sum.Lex.inl_lt_inl_iff, forall_const]
    by_cases hxlen : x.length ≤ digits
    · by_cases hylen : y.length ≤ digits
      · simp [int_of_le hxlen, int_of_le hylen, hxlen, hylen, pure, Except.pure, bind, Except.bind,
          eq_comm]
      · simp [int, hxlen, hylen, bind, Except.bind]
    · simp [int, hxlen, bind, Except.bind]

/-- A comparison of prereleases raises or has the sign of the order at the first difference. -/
theorem comparePrereleases_eq_ok {n : ℤ} : comparePrereleases digits lefts rights = .ok n ↔
    Readable digits lefts rights ∧ n = sign (FirstDifference.compare rank lefts rights) := by
  induction lefts generalizing rights with
  | nil =>
    cases rights with
    | nil => simp [comparePrereleases, Readable, FirstDifference.compare, sign, pure, Except.pure,
        eq_comm]
    | cons => simp [comparePrereleases, Readable, FirstDifference.compare, sign, pure, Except.pure,
        eq_comm]
  | cons x xs ih =>
    cases rights with
    | nil => simp [comparePrereleases, Readable, FirstDifference.compare, sign, pure, Except.pure,
        eq_comm]
    | cons y =>
      by_cases hxy : x = y
      · rw [comparePrereleases, Readable, FirstDifference.compare, if_pos hxy, if_pos hxy,
          if_pos hxy]
        exact ih
      · rw [compareDifferent_eq_ok hxy, Readable, FirstDifference.compare, if_neg hxy, if_neg hxy]
        split <;> rfl

end Prereleases

/-! ## The order of versions -/

/-- The order of the components of two versions. -/
def orderParts (p q : List ℕ × Option (List Text)) : Ordering :=
  if p.1 ≠ q.1 then if q.1 < p.1 then .gt else .lt
  else match p.2, q.2 with
  | none, none => .eq
  | none, some _ => .gt
  | some _, none => .lt
  | some lefts, some rights => FirstDifference.compare rank lefts rights

/-- The order that the comparison of two versions goes by. -/
def Version.order (a b : Version) : Ordering :=
  orderParts a.components b.components

section Versions

variable {digits : ℕ} {a b c : Version} {n : ℤ}

theorem mapM_int_eq_ok {parts : List Text} {numbers : List ℕ} :
    parts.mapM (int digits) = .ok numbers ↔
      (∀ part ∈ parts, part.length ≤ digits) ∧ numbers = parts.map number := by
  induction parts generalizing numbers with
  | nil => simp [pure, Except.pure, eq_comm]
  | cons part parts ih =>
    simp only [List.mapM_cons, Fallible.bind_eq_ok, ih, List.forall_mem_cons, List.map_cons]
    constructor
    · rintro ⟨m, hm, ms, ⟨hshort, rfl⟩, hnumbers⟩
      unfold int at hm
      split at hm
      · rename_i hlen
        obtain rfl := Except.ok.inj hm
        exact ⟨⟨hlen, hshort⟩, (Except.ok.inj hnumbers).symm⟩
      · cases hm
    · rintro ⟨⟨hlen, hshort⟩, rfl⟩
      exact ⟨_, int_of_le hlen, _, ⟨hshort, rfl⟩, rfl⟩

theorem parse_eq_ok {p : List ℕ × Option (List Text)} :
    parse digits a.1 = .ok p ↔ a.Short digits ∧ p = a.components := by
  simp only [parse, Fallible.bind_eq_ok, mapM_int_eq_ok]
  constructor
  · rintro ⟨main, ⟨hshort, rfl⟩, hp⟩
    exact ⟨hshort, (Except.ok.inj hp).symm⟩
  · rintro ⟨hshort, rfl⟩
    exact ⟨_, ⟨hshort, rfl⟩, rfl⟩

/-- A comparison raises or has the sign of the order. -/
theorem compare_eq_ok : a.compare digits b = .ok n ↔
    (a.Short digits ∧ b.Short digits ∧
      (a.components.1 = b.components.1 → ∀ lefts rights, a.components.2 = some lefts →
        b.components.2 = some rights → Readable digits lefts rights)) ∧ n = sign (a.order b) := by
  have hparts : ∀ p q : List ℕ × Option (List Text),
      (if p.1 ≠ q.1 then return if q.1 < p.1 then 1 else -1
      else match p.2, q.2 with
      | none, none => return 0
      | none, some _ => return 1
      | some _, none => return -1
      | some lefts, some rights => comparePrereleases digits lefts rights) =
        (.ok n : Except VersionError ℤ) ↔
      (p.1 = q.1 → ∀ lefts rights, p.2 = some lefts → q.2 = some rights →
        Readable digits lefts rights) ∧ n = sign (orderParts p q) := by
    rintro ⟨main, pre⟩ ⟨main', pre'⟩
    dsimp only [orderParts]
    by_cases hmain : main = main'
    · rw [if_neg (not_not_intro hmain), if_neg (not_not_intro hmain)]
      cases pre with
      | none => cases pre' <;> simp [hmain, sign, pure, Except.pure, eq_comm]
      | some =>
        cases pre' with
        | none => simp [hmain, sign, pure, Except.pure, eq_comm]
        | some => simp [hmain, comparePrereleases_eq_ok]
    · rw [if_pos hmain, if_pos hmain]
      split <;> simp [hmain, sign, pure, Except.pure, eq_comm]
  simp only [Version.compare, compareSemanticVersions, Fallible.bind_eq_ok, parse_eq_ok]
  constructor
  · rintro ⟨p, ⟨hleft, rfl⟩, q, ⟨hright, rfl⟩, h⟩
    obtain ⟨hread, hn⟩ := (hparts _ _).mp h
    exact ⟨⟨hleft, hright, hread⟩, hn⟩
  · rintro ⟨⟨hleft, hright, hread⟩, hn⟩
    exact ⟨_, ⟨hleft, rfl⟩, _, ⟨hright, rfl⟩, (hparts _ _).mpr ⟨hread, hn⟩⟩

theorem order_eq_eq : a.order b = .eq ↔ a.components = b.components := by
  simp only [Version.order, orderParts, Prod.ext_iff]
  by_cases hmain : a.components.1 = b.components.1
  · rw [if_neg (not_not_intro hmain)]
    cases a.components.2 <;> cases b.components.2 <;>
      simp [hmain, FirstDifference.compare_eq_eq]
  · rw [if_pos hmain]
    split <;> simp [hmain]

/-- Being greater is transitive. -/
theorem order_gt_trans (h : a.order b = .gt) (h' : b.order c = .gt) : a.order c = .gt := by
  simp only [Version.order, orderParts] at h h' ⊢
  by_cases hab : a.components.1 = b.components.1 <;> by_cases hbc : b.components.1 = c.components.1
  · rw [if_neg (not_not_intro hab)] at h
    rw [if_neg (not_not_intro hbc)] at h'
    rw [if_neg (not_not_intro (hab.trans hbc))]
    revert h h'
    cases a.components.2 with
    | none => cases b.components.2 <;> cases c.components.2 <;> simp
    | some =>
      cases b.components.2 with
      | none => simp
      | some =>
        cases c.components.2 with
        | none => simp
        | some => exact FirstDifference.gt_trans
  · rw [if_pos hbc] at h'
    rw [hab, if_pos hbc]
    exact h'
  · rw [if_pos hab] at h
    rw [← hbc, if_pos hab]
    exact h
  · rw [if_pos hab, ite_eq_left_iff] at h
    rw [if_pos hbc, ite_eq_left_iff] at h'
    have hlt : b.components.1 < a.components.1 := by_contra fun hn => by cases h hn
    have hlt' : c.components.1 < b.components.1 := by_contra fun hn => by cases h' hn
    have hac : a.components.1 ≠ c.components.1 := (hlt'.trans hlt).ne'
    rw [if_pos hac, if_pos (hlt'.trans hlt)]

/-- Not being lesser is transitive. -/
theorem order_ne_lt_trans (h : a.order b ≠ .lt) (h' : b.order c ≠ .lt) : a.order c ≠ .lt := by
  rcases hab : a.order b with _ | _ | _
  · exact absurd hab h
  · rw [Version.order, order_eq_eq.mp hab]
    exact h'
  · rcases hbc : b.order c with _ | _ | _
    · exact absurd hbc h'
    · rw [Version.order, ← order_eq_eq.mp hbc]
      exact h
    · rw [order_gt_trans hab hbc]
      exact Ordering.noConfusion

/-- Comparing the other way gives the opposite, exactly when no identifiers collide. -/
theorem order_swap_iff : b.order a = (a.order b).swap ↔
    (a.components.1 = b.components.1 → ∀ lefts rights, a.components.2 = some lefts →
      b.components.2 = some rights → ¬FirstDifference.Collide rank lefts rights) := by
  simp only [Version.order, orderParts]
  by_cases hmain : a.components.1 = b.components.1
  · rw [if_neg (not_not_intro hmain), if_neg (not_not_intro hmain.symm)]
    cases a.components.2 with
    | none => cases b.components.2 <;> simp
    | some =>
      cases b.components.2 with
      | none => simp
      | some => simp [hmain, FirstDifference.compare_swap_iff]
  · rw [if_pos hmain, if_pos (Ne.symm hmain)]
    refine iff_of_true ?_ fun h => absurd h hmain
    rcases lt_or_gt_of_ne hmain with hlt | hgt
    · rw [if_pos hlt, if_neg hlt.not_gt]
      rfl
    · rw [if_neg hgt.not_gt, if_pos hgt]
      rfl

theorem sign_injective : Function.Injective sign := by
  intro x y h
  cases x <;> cases y <;> first | rfl | cases h

theorem sign_swap (o : Ordering) : sign o.swap = -sign o := by
  cases o <;> rfl

theorem sign_nonneg {o : Ordering} : 0 ≤ sign o ↔ o ≠ .lt := by
  cases o <;> decide

theorem sign_pos {o : Ordering} : 0 < sign o ↔ o = .gt := by
  cases o <;> decide

theorem order_of_upgrades (h : Upgrades digits a b) : b.order a = .gt := by
  obtain ⟨n, hn, hpos⟩ := h
  rw [(compare_eq_ok.mp hn).2] at hpos
  exact sign_pos.mp hpos

theorem comparable_iff : Comparable digits a b ↔
    (∃ n, a.compare digits b = .ok n) ∧ b.order a = (a.order b).swap := by
  rw [order_swap_iff]
  constructor
  · intro h
    refine ⟨⟨_, compare_eq_ok.mpr ⟨⟨h.left, h.right, fun hmain lefts rights hl hr => ?_⟩, rfl⟩⟩, ?_⟩
    · exact (settles_iff.mp (h.settles hmain lefts rights hl hr)).1
    · exact fun hmain lefts rights hl hr => (settles_iff.mp (h.settles hmain lefts rights hl hr)).2
  · rintro ⟨⟨n, hn⟩, hcollide⟩
    obtain ⟨⟨hleft, hright, hread⟩, -⟩ := compare_eq_ok.mp hn
    exact ⟨hleft, hright, fun hmain lefts rights hl hr =>
      settles_iff.mpr ⟨hread hmain lefts rights hl hr, hcollide hmain lefts rights hl hr⟩⟩

/-- No chain of upgrades leads back, whatever the versions are. -/
theorem not_transGen_upgrades (digits : ℕ) (a : Version) :
    ¬Relation.TransGen (Upgrades digits) a a := by
  have hchain : ∀ b, Relation.TransGen (Upgrades digits) a b → b.order a = .gt := by
    intro b h
    induction h with
    | single h => exact order_of_upgrades h
    | tail _ h ih => exact order_gt_trans (order_of_upgrades h) ih
  intro h
  have hself : a.order a = .eq := order_eq_eq.mpr rfl
  rw [hchain a h] at hself
  cases hself

end Versions

/-- The versions of a set are totally ordered exactly when any two of them can be compared: their
numbers are not too long, and where prereleases of versions with the same numbers first differ,
they do not have two digit texts of the same value or of too many digits. -/
theorem totallyOrdered_iff (digits : ℕ) (V : Set Version) :
    TotallyOrdered digits V ↔ ∀ a ∈ V, ∀ b ∈ V, Comparable digits a b := by
  constructor
  · intro h a ha b hb
    obtain ⟨n, hn⟩ := h.total a ha b hb
    have hback := (compare_eq_ok.mp (h.antisymm a ha b hb n hn)).2
    rw [(compare_eq_ok.mp hn).2, ← sign_swap] at hback
    exact comparable_iff.mpr ⟨⟨n, hn⟩, (sign_injective hback).symm⟩
  · intro h
    have hval : ∀ a ∈ V, ∀ b ∈ V, a.compare digits b = .ok (sign (a.order b)) := by
      intro a ha b hb
      obtain ⟨⟨n, hn⟩, -⟩ := comparable_iff.mp (h a ha b hb)
      rw [hn, (compare_eq_ok.mp hn).2]
    have hswap : ∀ a ∈ V, ∀ b ∈ V, b.order a = (a.order b).swap :=
      fun a ha b hb => (comparable_iff.mp (h a ha b hb)).2
    refine ⟨fun a ha b hb => ⟨_, hval a ha b hb⟩, ?_, ?_, ?_, fun a _ =>
      not_transGen_upgrades digits a⟩
    · intro a ha b hb n hn
      rw [hval b hb a ha, hswap a ha b hb, sign_swap, (compare_eq_ok.mp hn).2]
    · intro a ha b hb c hc m n hm hm0 hn hn0
      refine ⟨_, hval a ha c hc, ?_⟩
      rw [(compare_eq_ok.mp hm).2, sign_nonneg] at hm0
      rw [(compare_eq_ok.mp hn).2, sign_nonneg] at hn0
      rw [sign_nonneg]
      exact order_ne_lt_trans hm0 hn0
    · intro a ha b hb heq
      have hsign : sign .eq = sign (a.order b) := (compare_eq_ok.mp heq).2
      exact order_eq_eq.mp (sign_injective hsign).symm

/-- Of the prereleases `01` and `1` each is lesser than the other. -/
theorem not_totallyOrdered_zeros : ¬TotallyOrdered 4300 Set.univ := by
  have hcompare : (Except.ok (-1) : Except VersionError ℤ) =
        compareSemanticVersions 4300 "1.0.0-01".toList "1.0.0-1".toList ∧
      (Except.ok (-1) : Except VersionError ℤ) =
        compareSemanticVersions 4300 "1.0.0-1".toList "1.0.0-01".toList := by
    decide +kernel
  intro h
  have hback := h.antisymm ⟨"1.0.0-01".toList, by decide +kernel⟩ trivial
    ⟨"1.0.0-1".toList, by decide +kernel⟩ trivial (-1) hcompare.1.symm
  have hone : (Except.ok (-1) : Except VersionError ℤ) = .ok 1 := hcompare.2.trans hback
  cases hone

end GlassHive.LibraryVersions
