import GlassHive.FirstOccurrences

/-!
# Counted rules

The `COUNT` of a rule limits how often it occurs from its start. Each step of a schedule builds the
rule anew: from the start of the schedule where it has one, and else from the occurrence that the
step leaves, so that the count begins again.
-/

namespace GlassHive.Recurrences

/-! ## Runs of a schedule -/

/-- The occurrences that a schedule comes to, the latest first : the first one, and after each of
them the next. -/
inductive OccurrenceRun (lib : RecurrenceLibrary) (spec : RecurrenceSpec) (now : ℤ) : List ℤ → Prop
  | first {u : ℤ} (h : firstOccurrenceAt lib spec [] now = .ok u) :
      OccurrenceRun lib spec now [u]
  | next {u v : ℤ} {us : List ℤ} (hrun : OccurrenceRun lib spec now (u :: us))
      (h : nextAfter lib spec u = .ok (some v)) : OccurrenceRun lib spec now (v :: u :: us)

/-- The `COUNT` of a rule. -/
def ruleCount (lib : RecurrenceLibrary) (rrule : Text) : Option ℤ :=
  match rruleFields lib rrule with
  | .ok fields =>
    if fields.any (fun f => f.1 == "COUNT".toList) then lib.int (fields.get "COUNT") else none
  | .error _ => none

/-- A rule of `dateutil` that has a count has no more occurrences than that. -/
def HonoursCount (lib : RecurrenceLibrary) (spec : RecurrenceSpec) : Prop :=
  ∀ n : ℕ, ruleCount lib spec.rrule = some (n : ℤ) → ∀ dtstart rule,
    lib.rrulestr spec.rrule dtstart spec.zone = some rule → rule.counts = true →
      ∃ times : Set ℤ, rule.Expands spec.zone times ∧ times.encard ≤ n

/-- A time that the clock skips is taken for a later one. -/
def ZoneInfo.SkipsForward (zone : ZoneInfo) : Prop :=
  ∀ x, x ≤ x - zone.offsetOf x false + zone.offsetAt (x - zone.offsetOf x false)

section Steps

variable {lib : RecurrenceLibrary} {spec : RecurrenceSpec} {start now u v : ℤ} {us : List ℤ}
  {rule : RecurrenceRule}

theorem ruleFrom_eq_ok : ruleFrom lib spec.rrule spec.zone (wholeMinute start) = .ok rule ↔
    ∃ dtstart, localTimeAt spec.zone (wholeMinute start) = .ok dtstart ∧
      lib.rrulestr spec.rrule dtstart spec.zone = some rule := by
  simp only [ruleFrom, Fallible.bind_eq_ok, required_eq_ok]

section Start

variable (hkind : spec.recurrenceType = .rfc5545) (hstart : spec.startsAt = some start)

include hstart

theorem rfcRule_eq_ok {base : ℤ} : rfcRule lib spec base = .ok rule ↔
    ∃ dtstart, localTimeAt spec.zone (wholeMinute start) = .ok dtstart ∧
      lib.rrulestr spec.rrule dtstart spec.zone = some rule := by
  simp only [rfcRule, hstart, Fallible.bind_eq_ok, required_eq_ok]

include hkind

/-- The first occurrence is one of the rule from the start. -/
theorem exists_rule_of_first (h : firstOccurrenceAt lib spec [] now = .ok u) :
    ∃ rule, rfcRule lib spec start = .ok rule ∧
      rule.after (.instant (max now start)) true = some u := by
  simp only [firstOccurrenceAt, hkind, hstart, List.isEmpty_nil, Bool.not_true,
    Bool.false_eq_true, if_false, Fallible.bind_eq_ok, required_eq_ok, withinWindow_eq_ok,
    Option.getD_some] at h
  obtain ⟨_, -, rule, hrule, v, hv, rfl, -⟩ := h
  rw [rfcRule_eq_ok hstart] at hrule
  exact ⟨rule, (rfcRule_eq_ok hstart).mpr hrule, hv⟩

/-- The next occurrence is the next one of the rule from the start, when this has a count. -/
theorem after_of_nextAfter (hrule : rfcRule lib spec start = .ok rule)
    (hcounts : rule.counts = true) (h : nextAfter lib spec u = .ok (some v)) :
    rule.after (.instant u) false = some v := by
  simp only [nextAfter, hkind, Fallible.bind_eq_ok, rfcOccurrenceNear, hstart,
    Option.getD_some] at h
  obtain ⟨value, ⟨found, hfound, hnear⟩, hbounded⟩ := h
  rw [ruleFrom_eq_ok, ← rfcRule_eq_ok hstart, hrule] at hfound
  obtain rfl := Except.ok.inj hfound
  rw [if_pos hcounts] at hnear
  obtain rfl := Except.ok.inj hnear
  have hvalue : boundedByEnd spec (rule.after (.instant u) false) = some v :=
    Except.ok.inj hbounded
  exact (Option.filter_eq_some_iff.mp hvalue).1

end Start

/-- The occurrences of a run have times of the rule on the clock, each later than the one before. -/
theorem OccurrenceRun.exists_times (hkind : spec.recurrenceType = .rfc5545)
    (hstart : spec.startsAt = some start) (hzone : spec.zone.SkipsForward)
    (hrule : rfcRule lib spec start = .ok rule) (hcounts : rule.counts = true) {times : Set ℤ}
    (htimes : rule.Expands spec.zone times) (hrun : OccurrenceRun lib spec now us) :
    ∃ x xs, us.head? = some (x - spec.zone.offsetOf x false) ∧ (x :: xs).length = us.length ∧
      (x :: xs).Pairwise (· > ·) ∧ ∀ y ∈ x :: xs, y ∈ times := by
  induction hrun with
  | first h =>
    obtain ⟨rule', hrule', hafter⟩ := exists_rule_of_first hkind hstart h
    obtain rfl : rule = rule' := Except.ok.inj (hrule.symm.trans hrule')
    obtain ⟨x, hleast, rfl⟩ := (htimes.after _ _ _).mp hafter
    refine ⟨x, [], rfl, rfl, List.pairwise_singleton _ _, fun y hy => ?_⟩
    rw [List.mem_singleton.mp hy]
    exact hleast.1.1
  | @next u v us hrun h ih =>
    obtain ⟨x, xs, hu, hlength, hpairwise, hmem⟩ := ih
    obtain rfl := Option.some.inj hu
    obtain ⟨y, hleast, rfl⟩ := (htimes.after _ _ _).mp
      (after_of_nextAfter hkind hstart hrule hcounts h)
    have hxy : x < y := by
      have hlater := hleast.1.2
      have hskip := hzone x
      simp only [Bool.false_eq_true, if_false] at hlater
      omega
    refine ⟨y, x :: xs, rfl, by simpa using hlength, ?_, ?_⟩
    · refine List.pairwise_cons.mpr ⟨fun z hz => ?_, hpairwise⟩
      rcases List.mem_cons.mp hz with rfl | hz
      · exact hxy
      · exact ((List.pairwise_cons.mp hpairwise).1 z hz).trans hxy
    · intro z hz
      rcases List.mem_cons.mp hz with rfl | hz
      · exact hleast.1.1
      · exact hmem z hz

end Steps

/-- A schedule that has a start and whose rule `dateutil` reads as one rule with its count has no
more occurrences than the count. -/
theorem occurrenceRun_length_le (lib : RecurrenceLibrary) (spec : RecurrenceSpec)
    (hkind : spec.recurrenceType = .rfc5545) (n : ℕ)
    (hcount : ruleCount lib spec.rrule = some (n : ℤ)) (hlib : HonoursCount lib spec)
    (hzone : spec.zone.SkipsForward) (start : ℤ) (hstart : spec.startsAt = some start)
    (hsingle : ∀ rule, rfcRule lib spec start = .ok rule → rule.counts = true) (now : ℤ)
    (us : List ℤ) (hrun : OccurrenceRun lib spec now us) : us.length ≤ n := by
  have hrule : ∃ rule, rfcRule lib spec start = .ok rule := by
    clear hsingle
    induction hrun with
    | first h =>
      obtain ⟨rule, hrule, -⟩ := exists_rule_of_first hkind hstart h
      exact ⟨rule, hrule⟩
    | next _ _ ih => exact ih
  obtain ⟨rule, hrule⟩ := hrule
  obtain ⟨dtstart, -, hread⟩ := (rfcRule_eq_ok hstart).mp hrule
  have hcounts := hsingle rule hrule
  obtain ⟨times, htimes, hcard⟩ := hlib n hcount dtstart rule hread hcounts
  obtain ⟨x, xs, -, hlength, hpairwise, hmem⟩ :=
    hrun.exists_times hkind hstart hzone hrule hcounts htimes
  have hnodup : (x :: xs).Nodup := hpairwise.imp fun h => h.ne'
  have hsub : ((x :: xs).toFinset : Set ℤ) ⊆ times := fun y hy =>
    hmem y (List.mem_toFinset.mp (Finset.mem_coe.mp hy))
  have hle := (Set.encard_le_encard hsub).trans hcard
  rw [Set.encard_coe_eq_coe_finsetCard, List.toFinset_card_of_nodup hnodup, hlength] at hle
  exact_mod_cast hle

/-! ## Twice, every day -/

/-- The rule that has some times on a clock, in order. -/
def listRule (counts : Bool) (zone : ZoneInfo) (times : List ℤ) : RecurrenceRule where
  counts := counts
  bound := none
  after reference inclusive := match reference with
    | .instant t => (times.find? fun x => decide (if inclusive then t + zone.offsetAt t ≤ x
        else t + zone.offsetAt t < x)).map fun x => x - zone.offsetOf x false
    | .bound => none
  before reference inclusive := match reference with
    | .instant t => (times.reverse.find? fun x => decide (if inclusive then x ≤ t + zone.offsetAt t
        else x < t + zone.offsetAt t)).map fun x => x - zone.offsetOf x false
    | .bound => none

theorem listRule_expands {counts : Bool} {zone : ZoneInfo} {times : List ℤ}
    (h : times.Pairwise (· < ·)) : (listRule counts zone times).Expands zone {x | x ∈ times} := by
  constructor
  · intro t inclusive u
    simp only [listRule, Option.map_eq_some_iff, Successions.find?_eq_some_iff_of_pairwise h,
      decide_eq_true_eq]
    refine exists_congr fun x => and_congr ?_ eq_comm
    constructor
    · rintro ⟨hmem, hx, hleast⟩
      exact ⟨⟨hmem, hx⟩, fun y hy => (hleast y hy.1 hy.2).elim (fun h => h.ge) le_of_lt⟩
    · rintro ⟨⟨hmem, hx⟩, hleast⟩
      exact ⟨hmem, hx, fun y hy hpy => (hleast ⟨hy, hpy⟩).eq_or_lt.imp Eq.symm id⟩
  · intro t inclusive u
    simp only [listRule, Option.map_eq_some_iff,
      Successions.find?_eq_some_iff_of_pairwise (List.pairwise_reverse.mpr h), decide_eq_true_eq,
      List.mem_reverse]
    refine exists_congr fun x => and_congr ?_ eq_comm
    constructor
    · rintro ⟨hmem, hx, hgreatest⟩
      exact ⟨⟨hmem, hx⟩, fun y hy => (hgreatest y hy.1 hy.2).elim (fun h => h.le) le_of_lt⟩
    · rintro ⟨⟨hmem, hx⟩, hgreatest⟩
      exact ⟨hmem, hx, fun y hy hpy => (hgreatest ⟨hy, hpy⟩).eq_or_lt⟩

/-- The libraries, as far as the rule `FREQ=DAILY;COUNT=2` calls them in UTC. -/
def dailyLibrary : RecurrenceLibrary :=
  { utcLibrary with
    int := fun text => if text = ['1'] then some 1 else if text = ['2'] then some 2 else none
    rrulestr := fun _ dtstart zone => some (listRule true zone [dtstart, dtstart + day]) }

/-- That rule, without a start. -/
def twice : RecurrenceSpec :=
  { minutelyFromNine with
    recurrenceType := .rfc5545
    dstPolicy := .elapsed
    cronExpression := []
    rrule := "FREQ=DAILY;COUNT=2".toList
    startsAt := none }

/-- That rule, from nine. -/
def twiceFromNine : RecurrenceSpec :=
  { twice with startsAt := some nine }

theorem ruleCount_twice : ruleCount dailyLibrary twice.rrule = some ((2 : ℕ) : ℤ) := by
  decide +kernel

theorem dailyLibrary_honoursCount (spec : RecurrenceSpec) (hrule : spec.rrule = twice.rrule) :
    HonoursCount dailyLibrary spec := by
  intro n hn dtstart rule hread _
  rw [hrule, ruleCount_twice] at hn
  obtain rfl : 2 = n := by exact_mod_cast Option.some.inj hn
  obtain rfl := Option.some.inj hread
  have hsorted : [dtstart, dtstart + day].Pairwise (· < ·) := by
    simp [day, hour, minute]
  refine ⟨_, listRule_expands hsorted, ?_⟩
  have hpair : {x | x ∈ [dtstart, dtstart + day]} = ({dtstart, dtstart + day} : Set ℤ) := by
    ext x
    simp
  rw [hpair]
  refine (Set.encard_insert_le _ _).trans ?_
  rw [Set.encard_singleton]
  rfl

theorem twice_skipsForward : twice.zone.SkipsForward := by
  intro x
  simp [twice, minutelyFromNine]

/-- Without a start it occurs a third time. -/
theorem twice_occurs_thrice :
    (∃ d, normalizeRecurrenceSpec dailyLibrary d nine = .ok twice) ∧
      ruleCount dailyLibrary twice.rrule = some ((2 : ℕ) : ℤ) ∧ HonoursCount dailyLibrary twice ∧
      OccurrenceRun dailyLibrary twice nine [nine + 2 * day, nine + day, nine] ∧
      ¬[nine + 2 * day, nine + day, nine].length ≤ 2 := by
  refine ⟨⟨{ hourly.input with
      recurrenceType := "rfc5545".toList
      rrule := "FREQ=DAILY;COUNT=2".toList
      endsAt := [] }, rfl⟩, ruleCount_twice, dailyLibrary_honoursCount twice rfl, ?_, by simp⟩
  have hfirst : firstOccurrenceAt dailyLibrary twice [] nine = .ok nine := by decide +kernel
  have hsecond : nextAfter dailyLibrary twice nine = .ok (some (nine + day)) := by decide +kernel
  have hthird : nextAfter dailyLibrary twice (nine + day) = .ok (some (nine + 2 * day)) := by
    decide +kernel
  exact .next (.next (.first hfirst) hsecond) hthird

/-- From nine it occurs twice. -/
theorem twiceFromNine_occurs_twice :
    OccurrenceRun dailyLibrary twiceFromNine nine [nine + day, nine] ∧
      [nine + day, nine].length ≤ 2 := by
  have hfirst : firstOccurrenceAt dailyLibrary twiceFromNine [] nine = .ok nine := by
    decide +kernel
  have hsecond : nextAfter dailyLibrary twiceFromNine nine = .ok (some (nine + day)) := by
    decide +kernel
  have hrun : OccurrenceRun dailyLibrary twiceFromNine nine [nine + day, nine] :=
    .next (.first hfirst) hsecond
  have hsingle : ∀ rule, rfcRule dailyLibrary twiceFromNine nine = .ok rule →
      rule.counts = true := by
    intro rule hrule
    obtain ⟨dtstart, -, hread⟩ := (rfcRule_eq_ok rfl).mp hrule
    exact Option.some.inj hread ▸ rfl
  exact ⟨hrun, occurrenceRun_length_le dailyLibrary twiceFromNine rfl 2 ruleCount_twice
    (dailyLibrary_honoursCount twiceFromNine rfl) twice_skipsForward nine rfl hsingle nine _ hrun⟩

end GlassHive.Recurrences
