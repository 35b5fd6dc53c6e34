import GlassHive.CronSteps
import GlassHive.RecurrenceChecks
import Mathlib.Data.Int.LeastGreatest
import Mathlib.Order.Bounds.Basic

/-!
# First occurrences

A new schedule starts at the first occurrence of its recurrence. When the start of the recurrence is
still to come this should be the least occurrence at or after the start. Each type of recurrence has
a search of its own, and these treat an occurrence exactly at the start differently.
-/

namespace GlassHive.Recurrences

section Search

variable (lib : RecurrenceLibrary)

/-! ## The search -/

/-- The occurrence, when it does not lie after the end. -/
def withinWindow (spec : RecurrenceSpec) (occurrence : ℤ) : Except RecurrenceError ℤ :=
  required (boundedByEnd spec (some occurrence))
    (.value "recurrence has no occurrence inside its start/end window")

/-- `_rfc_rule`. A start is given to the minute in UTC, and by default to the minute on the clock. -/
def rfcRule (spec : RecurrenceSpec) (defaultStart : ℤ) : Except RecurrenceError RecurrenceRule := do
  let dtstart ← match spec.startsAt with
    | some start => localTimeAt spec.zone (wholeMinute start)
    | none => (localTimeAt spec.zone defaultStart).map wholeMinute
  required (lib.rrulestr spec.rrule dtstart spec.zone) .other

/-- The first daily occurrence on one of some dates. -/
def firstDaily (spec : RecurrenceSpec) (now date : ℤ) : List ℕ → Except RecurrenceError ℤ
  | [] => .error (.value "could not resolve the first daily occurrence")
  | dayOffset :: dayOffsets => do
    let occurrence ← resolveLocalOccurrence spec (date + dayOffset)
    if now < occurrence && spec.startsAt.all (· ≤ occurrence) then withinWindow spec occurrence
    else firstDaily spec now date dayOffsets

/-- `first_occurrence_at`. -/
def firstOccurrenceAt (spec : RecurrenceSpec) (firstRunAt : Text) (now : ℤ) :
    Except RecurrenceError ℤ :=
  if !firstRunAt.isEmpty then do
    let occurrence ← parseAwareUtc lib firstRunAt "first_run_at"
    withinWindow spec occurrence
  else
    let base := max now (spec.startsAt.getD now)
    match spec.recurrenceType with
    | .once => required spec.startsAt
        (.value "once recurrence requires starts_at or first_run_at")
    | .interval => do
      let step := spec.intervalSeconds * 1000000
      let occurrence ← match spec.startsAt with
        | some start => .ok start
        | none => datetime (now + step)
      if occurrence < now then do
        let periods := (now - occurrence) / 1000000 / spec.intervalSeconds + 1
        let later ← datetime (occurrence + periods * step)
        withinWindow spec later
      else withinWindow spec occurrence
    | .cron => do
      let occurrence ← nextCronOccurrence lib spec base
      withinWindow spec occurrence
    | .rfc5545 => do
      let _ ← localTimeAt spec.zone base
      let rule ← rfcRule lib spec base
      let occurrence ← required (rule.after (.instant base) true)
        (.value "rrule does not produce a future occurrence")
      withinWindow spec occurrence
    | .daily => do
      let date ← localDate spec.zone base
      firstDaily spec now date [0, 1, 2]

/-! ## What is asked of it -/

/-- The rule finds the instants of some times on the clock of the zone, in the order of the clock. -/
structure RecurrenceRule.Expands (rule : RecurrenceRule) (zone : ZoneInfo) (times : Set ℤ) :
    Prop where
  after : ∀ t inclusive u, rule.after (.instant t) inclusive = some u ↔
    ∃ x, IsLeast {y | y ∈ times ∧ if inclusive then t + zone.offsetAt t ≤ y
      else t + zone.offsetAt t < y} x ∧ u = x - zone.offsetOf x false
  before : ∀ t inclusive u, rule.before (.instant t) inclusive = some u ↔
    ∃ x, IsGreatest {y | y ∈ times ∧ if inclusive then y ≤ t + zone.offsetAt t
      else y < t + zone.offsetAt t} x ∧ u = x - zone.offsetOf x false

/-- The times that the libraries enumerate for a recurrence: the minutes that match its expression,
or the times of the rule that is expanded from its start. -/
def Enumerated (spec : RecurrenceSpec) (start : ℤ) (times : Set ℤ) : Prop :=
  match spec.recurrenceType with
  | .cron => WalksThrough lib spec.cronExpression times
  | .rfc5545 => match rfcRule lib spec start with
    | .ok rule => rule.Expands spec.zone times
    | .error _ => times = ∅
  | _ => True

/-- The occurrences of a recurrence from its start. -/
def occurrences (spec : RecurrenceSpec) (start : ℤ) (times : Set ℤ) : Set ℤ :=
  match spec.recurrenceType with
  | .once => {start}
  | .interval => {u | ∃ k : ℕ, u = start + k * (spec.intervalSeconds * 1000000)}
  | .daily => {u | ∃ date, resolveLocalOccurrence spec date = .ok u}
  | .cron => resolvedInstants spec times
  | .rfc5545 => {u | ∃ x ∈ times, u = x - spec.zone.offsetOf x false}

/-- An instant does not lie after the end. -/
def InWindow (spec : RecurrenceSpec) (u : ℤ) : Prop :=
  ∀ bound ∈ spec.endsAt, u ≤ bound

/-- The least occurrence at or after the start. -/
def IsFirst (spec : RecurrenceSpec) (start : ℤ) (times : Set ℤ) (u : ℤ) : Prop :=
  IsLeast {v | v ∈ occurrences spec start times ∧ start ≤ v} u

/-- The search returns the least occurrence at or after the start, and raises exactly when there is
none or when it lies after the end. -/
def FindsFirst (spec : RecurrenceSpec) (start now : ℤ) (times : Set ℤ) : Prop :=
  ∀ u, firstOccurrenceAt lib spec [] now = .ok u ↔ IsFirst spec start times u ∧ InWindow spec u

/-- The occurrence of one of three dates, after others that lie before the start. -/
def OnFirstDates (spec : RecurrenceSpec) (start u : ℤ) : Prop :=
  ∃ date, localDate spec.zone start = .ok date ∧
    ∃ k < 3, resolveLocalOccurrence spec (date + (k : ℕ)) = .ok u ∧
      ∀ j < k, ∃ v, resolveLocalOccurrence spec (date + (j : ℕ)) = .ok v ∧ v < start

/-- The occurrence of a rule whose time on the clock is the least from that of the start. -/
def FirstOnClock (spec : RecurrenceSpec) (start : ℤ) (times : Set ℤ) (u : ℤ) : Prop :=
  ∃ cursor x, localTimeAt spec.zone start = .ok cursor ∧ IsLeast {y | y ∈ times ∧ cursor ≤ y} x ∧
    u = x - spec.zone.offsetOf x false

/-- A start from which the search of a type comes to the first occurrence. A cron expression has
none at the start itself. Unless it lies after the end, the first occurrence is within reach of the
clock, on the date of the start or the two dates after, or first on the clock of the rule. -/
def StartsWell (spec : RecurrenceSpec) (start : ℤ) (times : Set ℤ) : Prop :=
  match spec.recurrenceType with
  | .once => True
  | .interval => True
  | .daily => ∀ u, IsFirst spec start times u → InWindow spec u → OnFirstDates spec start u
  | .cron => start ∉ resolvedInstants spec times ∧
      ∀ u, IsFirst spec start times u → InWindow spec u →
        ∃ cursor shown, localTimeAt spec.zone start = .ok cursor ∧
          WithinReach (· < ·) spec times start cursor shown u
  | .rfc5545 => ∀ u, InWindow spec u →
      (FirstOnClock spec start times u ↔ IsFirst spec start times u)

end Search

/-! ## What each search returns -/

section Searches

variable {lib : RecurrenceLibrary} {spec : RecurrenceSpec} {start now u : ℤ} {times : Set ℤ}

theorem withinWindow_eq_ok {v : ℤ} : withinWindow spec v = .ok u ↔ u = v ∧ InWindow spec v := by
  simp only [withinWindow, required_eq_ok, boundedByEnd, Option.filter_eq_some_iff,
    Option.some.injEq, InWindow]
  cases spec.endsAt with
  | none => simp [eq_comm]
  | some =>
    simp only [Option.any_some, Bool.not_eq_true', decide_eq_false_iff_not, not_lt,
      Option.mem_some_iff, forall_eq']
    constructor
    · rintro ⟨rfl, hle⟩
      exact ⟨rfl, hle⟩
    · rintro ⟨rfl, hle⟩
      exact ⟨rfl, hle⟩

section Start

variable (hstart : spec.startsAt = some start) (hnow : now < start)

include hstart hnow

/-- The search among dates returns the first that lies at or after the start. -/
theorem firstDaily_eq_ok {date : ℤ} {a n : ℕ} :
    firstDaily spec now date (List.range' a n) = .ok u ↔
      InWindow spec u ∧ start ≤ u ∧ ∃ k, a ≤ k ∧ k < a + n ∧
        resolveLocalOccurrence spec (date + (k : ℕ)) = .ok u ∧
        ∀ j, a ≤ j → j < k → ∃ v, resolveLocalOccurrence spec (date + (j : ℕ)) = .ok v ∧
          v < start := by
  induction n generalizing a with
  | zero =>
    simp only [List.range'_zero, firstDaily, reduceCtorEq, false_iff]
    rintro ⟨-, -, k, hle, hlt, -⟩
    omega
  | succ n ih =>
    simp only [List.range'_succ, firstDaily, Fallible.bind_eq_ok]
    constructor
    · rintro ⟨occurrence, hoccurrence, h⟩
      split at h
      · rename_i hfound
        simp only [hstart, Option.all_some, Bool.and_eq_true, decide_eq_true_eq] at hfound
        obtain ⟨rfl, hwindow⟩ := withinWindow_eq_ok.mp h
        exact ⟨hwindow, hfound.2, a, le_rfl, by omega, hoccurrence, fun j _ _ => by omega⟩
      · rename_i hfound
        simp only [hstart, Option.all_some, Bool.and_eq_true, decide_eq_true_eq] at hfound
        obtain ⟨hwindow, hle, k, hak, hkn, hu, hbefore⟩ := ih.mp h
        refine ⟨hwindow, hle, k, by omega, by omega, hu, fun j haj hjk => ?_⟩
        rcases haj.eq_or_lt with rfl | hlt
        · exact ⟨occurrence, hoccurrence, by omega⟩
        · exact hbefore j hlt hjk
    · rintro ⟨hwindow, hle, k, hak, hkn, hu, hbefore⟩
      rcases hak.eq_or_lt with rfl | hlt
      · refine ⟨u, hu, ?_⟩
        rw [if_pos (by simp only [hstart, Option.all_some, Bool.and_eq_true, decide_eq_true_eq]; omega)]
        exact withinWindow_eq_ok.mpr ⟨rfl, hwindow⟩
      · obtain ⟨v, hv, hearly⟩ := hbefore a le_rfl hlt
        refine ⟨v, hv, ?_⟩
        rw [if_neg (by simp only [hstart, Option.all_some, Bool.and_eq_true, decide_eq_true_eq]; omega)]
        exact ih.mpr ⟨hwindow, hle, k, hlt, by omega, hu, fun j haj hjk => hbefore j (by omega) hjk⟩

theorem max_startsAt : max now (spec.startsAt.getD now) = start := by
  rw [hstart, Option.getD_some]
  exact max_eq_right hnow.le

theorem first_daily_eq_ok (hkind : spec.recurrenceType = .daily) :
    firstOccurrenceAt lib spec [] now = .ok u ↔
      OnFirstDates spec start u ∧ start ≤ u ∧ InWindow spec u := by
  have hdates : ([0, 1, 2] : List ℕ) = List.range' 0 3 := rfl
  simp only [firstOccurrenceAt, hkind, max_startsAt hstart hnow, List.isEmpty_nil, Bool.not_true,
    Bool.false_eq_true, if_false, Fallible.bind_eq_ok, hdates, firstDaily_eq_ok hstart hnow,
    OnFirstDates]
  constructor
  · rintro ⟨date, hdate, hwindow, hle, k, -, hk, hu, hbefore⟩
    exact ⟨⟨date, hdate, k, by omega, hu, fun j hj => hbefore j (by omega) hj⟩, hle, hwindow⟩
  · rintro ⟨⟨date, hdate, k, hk, hu, hbefore⟩, hle, hwindow⟩
    exact ⟨date, hdate, hwindow, hle, k, by omega, by omega, hu, fun j _ hj => hbefore j hj⟩

theorem first_cron_eq_ok (hkind : spec.recurrenceType = .cron)
    (hwalk : WalksThrough lib spec.cronExpression times) :
    firstOccurrenceAt lib spec [] now = .ok u ↔
      (∃ cursor shown, localTimeAt spec.zone start = .ok cursor ∧
        WithinReach (· < ·) spec times start cursor shown u) ∧ InWindow spec u := by
  have hnext : ∀ v, nextCronOccurrence lib spec start = .ok v ↔ ∃ cursor shown,
      localTimeAt spec.zone start = .ok cursor ∧
        WithinReach (· < ·) spec times start cursor shown v :=
    fun v => step_eq_ok_iff hwalk.next rfl
  simp only [firstOccurrenceAt, hkind, max_startsAt hstart hnow, List.isEmpty_nil, Bool.not_true,
    Bool.false_eq_true, if_false, Fallible.bind_eq_ok, hnext, withinWindow_eq_ok]
  constructor
  · rintro ⟨v, hreach, rfl, hwindow⟩
    exact ⟨hreach, hwindow⟩
  · rintro ⟨hreach, hwindow⟩
    exact ⟨u, hreach, rfl, hwindow⟩

theorem first_rfc5545_eq_ok (hkind : spec.recurrenceType = .rfc5545)
    (henum : Enumerated lib spec start times) :
    firstOccurrenceAt lib spec [] now = .ok u ↔
      FirstOnClock spec start times u ∧ InWindow spec u := by
  simp only [Enumerated, hkind] at henum
  simp only [firstOccurrenceAt, hkind, max_startsAt hstart hnow, List.isEmpty_nil, Bool.not_true,
    Bool.false_eq_true, if_false, Fallible.bind_eq_ok, required_eq_ok, withinWindow_eq_ok,
    FirstOnClock]
  constructor
  · rintro ⟨cursor, hcursor, rule, hrule, v, hv, rfl, hwindow⟩
    rw [hrule] at henum
    obtain ⟨x, hleast, hx⟩ := (henum.after start true _).mp hv
    obtain rfl := datetime_eq_ok hcursor
    exact ⟨⟨_, x, hcursor, by simpa using hleast, hx⟩, hwindow⟩
  · rintro ⟨⟨cursor, x, hcursor, hleast, hx⟩, hwindow⟩
    cases hrule : rfcRule lib spec start with
    | error =>
      rw [hrule] at henum
      rw [henum] at hleast
      exact absurd hleast.1.1 (Set.notMem_empty x)
    | ok rule =>
      rw [hrule] at henum
      obtain rfl := datetime_eq_ok hcursor
      exact ⟨_, hcursor, rule, rfl, u, (henum.after start true u).mpr ⟨x, by simpa using hleast, hx⟩,
        rfl, hwindow⟩

theorem first_interval_eq_ok (hkind : spec.recurrenceType = .interval) :
    firstOccurrenceAt lib spec [] now = .ok u ↔ u = start ∧ InWindow spec start := by
  simp only [firstOccurrenceAt, hkind, hstart, List.isEmpty_nil, Bool.not_true,
    Bool.false_eq_true, if_false, Fallible.bind_eq_ok, Except.ok.injEq, exists_eq_left',
    if_neg hnow.not_gt, withinWindow_eq_ok]

end Start

end Searches

/-! ## The first occurrence -/

section First

variable {spec : RecurrenceSpec} {start : ℤ} {times : Set ℤ}

/-- Where there is an occurrence at or after the start, one of these is the least. -/
theorem exists_isFirst {u : ℤ} (hu : u ∈ occurrences spec start times) (hle : start ≤ u) :
    ∃ w, IsFirst spec start times w ∧ w ≤ u := by
  obtain ⟨w, hw, hleast⟩ := Int.exists_least_of_bdd
    (P := fun v => v ∈ occurrences spec start times ∧ start ≤ v)
    ⟨start, fun v hv => hv.2⟩ ⟨u, hu, hle⟩
  exact ⟨w, ⟨hw, fun v hv => hleast v hv⟩, hleast u ⟨hu, hle⟩⟩

theorem InWindow.mono {u w : ℤ} (h : InWindow spec u) (hle : w ≤ u) : InWindow spec w :=
  fun bound hbound => hle.trans (h bound hbound)

/-- Two of the first dates with nothing but early occurrences before them are one. -/
theorem OnFirstDates.unique {u w : ℤ} (hu : OnFirstDates spec start u)
    (hw : OnFirstDates spec start w) (hustart : start ≤ u) (hwstart : start ≤ w) : u = w := by
  obtain ⟨date, hdate, k, -, hk, hbefore⟩ := hu
  obtain ⟨date', hdate', k', -, hk', hbefore'⟩ := hw
  obtain rfl : date = date' := Except.ok.inj (hdate.symm.trans hdate')
  rcases lt_trichotomy k k' with hlt | rfl | hgt
  · obtain ⟨v, hv, hearly⟩ := hbefore' k hlt
    have huv : u = v := Except.ok.inj (hk.symm.trans hv)
    omega
  · exact Except.ok.inj (hk.symm.trans hk')
  · obtain ⟨v, hv, hearly⟩ := hbefore k' hgt
    have hwv : w = v := Except.ok.inj (hk'.symm.trans hv)
    omega

/-- Two minutes within reach of one time on the clock resolve to one instant. -/
theorem WithinReach.unique {r : ℤ → ℤ → Prop} [hr : IsStrictTotalOrder ℤ r]
    {reference cursor shown shown' u w : ℤ}
    (h : WithinReach r spec times reference cursor shown u)
    (h' : WithinReach r spec times reference cursor shown' w) : u = w := by
  have htri : r shown shown' ∨ shown = shown' ∨ r shown' shown := trichotomous_of r shown shown'
  rcases htri with hlt | rfl | hgt
  · obtain ⟨v, hv, hnot⟩ := h'.passed shown ⟨h.mem, h.ahead, hlt⟩
    have huv : u = v := Except.ok.inj (h.resolves.symm.trans hv)
    exact absurd (huv ▸ h.qualifies) hnot
  · exact Except.ok.inj (h.resolves.symm.trans h'.resolves)
  · obtain ⟨v, hv, hnot⟩ := h.passed shown' ⟨h'.mem, h'.ahead, hgt⟩
    have hwv : w = v := Except.ok.inj (h'.resolves.symm.trans hv)
    exact absurd (hwv ▸ h'.qualifies) hnot

end First

/-- The search for the first occurrence of a recurrence that has not started yet is right exactly
when the start is one from which its type comes to the first occurrence. -/
theorem findsFirst_iff (lib : RecurrenceLibrary) (d : RecurrenceInput) (clock : ℤ)
    (spec : RecurrenceSpec) (hspec : normalizeRecurrenceSpec lib d clock = .ok spec)
    (hkind : spec.recurrenceType ≠ .once) (start now : ℤ) (hstart : spec.startsAt = some start)
    (hnow : now < start) (times : Set ℤ) (henum : Enumerated lib spec start times) :
    FindsFirst lib spec start now times ↔ StartsWell spec start times := by
  have hwindow : InWindow spec start :=
    (normalizeRecurrenceSpec_eq_ok.mp hspec).1.inOrder start hstart
  unfold FindsFirst StartsWell
  cases hkind' : spec.recurrenceType with
  | once => exact absurd hkind' hkind
  | interval =>
    simp only [first_interval_eq_ok hstart hnow hkind', iff_true]
    intro u
    have hleast : IsFirst spec start times start := by
      refine ⟨⟨?_, le_rfl⟩, fun v hv => hv.2⟩
      rw [occurrences, hkind']
      exact ⟨0, by simp⟩
    constructor
    · rintro ⟨rfl, -⟩
      exact ⟨hleast, hwindow⟩
    · rintro ⟨hfirst, -⟩
      exact ⟨hfirst.unique hleast, hwindow⟩
  | daily =>
    simp only [first_daily_eq_ok hstart hnow hkind']
    constructor
    · intro h u hfirst hu
      exact ((h u).mpr ⟨hfirst, hu⟩).1
    · intro h u
      constructor
      · rintro ⟨hdates, hle, hu⟩
        have hmem : u ∈ occurrences spec start times := by
          obtain ⟨date, -, k, -, hresolves, -⟩ := hdates
          rw [occurrences, hkind']
          exact ⟨_, hresolves⟩
        obtain ⟨w, hfirst, hwu⟩ := exists_isFirst hmem hle
        obtain rfl := hdates.unique (h w hfirst (hu.mono hwu)) hle hfirst.1.2
        exact ⟨hfirst, hu⟩
      · rintro ⟨hfirst, hu⟩
        exact ⟨h u hfirst hu, hfirst.1.2, hu⟩
  | cron =>
    have hwalk : WalksThrough lib spec.cronExpression times := by
      simpa only [Enumerated, hkind'] using henum
    have hocc : occurrences spec start times = resolvedInstants spec times := by
      rw [occurrences, hkind']
    simp only [first_cron_eq_ok hstart hnow hkind' hwalk]
    constructor
    · intro h
      refine ⟨fun hmem => ?_, fun u hfirst hu => ((h u).mpr ⟨hfirst, hu⟩).1⟩
      have hleast : IsFirst spec start times start :=
        ⟨⟨hocc ▸ hmem, le_rfl⟩, fun v hv => hv.2⟩
      obtain ⟨⟨cursor, shown, -, hreach⟩, -⟩ := (h start).mpr ⟨hleast, hwindow⟩
      exact lt_irrefl start hreach.qualifies
    · rintro ⟨-, h⟩ u
      constructor
      · rintro ⟨⟨cursor, shown, hcursor, hreach⟩, hu⟩
        have hmem : u ∈ occurrences spec start times :=
          hocc ▸ ⟨shown, hreach.mem, hreach.resolves⟩
        obtain ⟨w, hfirst, hwu⟩ := exists_isFirst hmem hreach.qualifies.le
        obtain ⟨cursor', shown', hcursor', hreach'⟩ := h w hfirst (hu.mono hwu)
        obtain rfl : cursor = cursor' := Except.ok.inj (hcursor.symm.trans hcursor')
        obtain rfl := hreach.unique hreach'
        exact ⟨hfirst, hu⟩
      · rintro ⟨hfirst, hu⟩
        exact ⟨h u hfirst hu, hu⟩
  | rfc5545 =>
    simp only [first_rfc5545_eq_ok hstart hnow hkind' henum]
    constructor
    · intro h u hu
      have hiff := h u
      tauto
    · intro h u
      have hiff := h u
      tauto

/-! ## Every minute from nine -/

/-- A recurrence at every minute, from nine. -/
def minutelyInput : RecurrenceInput :=
  { hourly.input with
    recurrenceType := "cron".toList
    dstPolicy := "next_valid_earliest".toList
    cronExpression := "* * * * *".toList
    startsAt := "2026-01-05T09:00:00+00:00".toList
    endsAt := [] }

/-- Its specification. -/
def minutelyFromNine : RecurrenceSpec :=
  { minutely with
    zone := ⟨fun _ => 0, fun _ _ => 0⟩
    startsAt := some nine }

theorem normalizeRecurrenceSpec_minutely :
    normalizeRecurrenceSpec minuteLibrary minutelyInput 0 = .ok minutelyFromNine := by
  rfl

theorem resolveLocalDatetime_nine :
    resolveLocalDatetime minutelyFromNine.zone minutelyFromNine.dstPolicy nine = .ok nine := by
  decide +kernel

/-- The minute of nine itself is not found. -/
theorem not_findsFirst_minutely :
    normalizeRecurrenceSpec minuteLibrary minutelyInput 0 = .ok minutelyFromNine ∧
      minutelyFromNine.startsAt = some nine ∧
      Enumerated minuteLibrary minutelyFromNine nine everyMinute ∧
      ¬FindsFirst minuteLibrary minutelyFromNine nine (nine - hour) everyMinute := by
  refine ⟨normalizeRecurrenceSpec_minutely, rfl, minuteLibrary_walksThrough _, fun h => ?_⟩
  have hmatches : nine ∈ everyMinute := mem_everyMinute.mpr (by decide)
  have hfirst : IsFirst minutelyFromNine nine everyMinute nine :=
    ⟨⟨⟨nine, hmatches, resolveLocalDatetime_nine⟩, le_rfl⟩, fun v hv => hv.2⟩
  have hfound := (h nine).mpr ⟨hfirst, fun bound hbound => by cases hbound⟩
  have hnext : (firstOccurrenceAt minuteLibrary minutelyFromNine [] (nine - hour)).toOption =
      some (nine + minute) := by
    decide +kernel
  rw [hfound] at hnext
  cases hnext

/-- An hourly recurrence from nine. -/
def hourlyInput : RecurrenceInput :=
  { hourly.input with startsAt := "2026-01-05T09:00:00+00:00".toList }

/-- Its first occurrence is found. -/
theorem findsFirst_hourly : ∃ spec, normalizeRecurrenceSpec utcLibrary hourlyInput 0 = .ok spec ∧
    FindsFirst utcLibrary spec nine (nine - hour) ∅ := by
  refine ⟨_, rfl, ?_⟩
  exact (findsFirst_iff utcLibrary hourlyInput 0 _ rfl (by decide) nine (nine - hour) rfl
    (by decide) ∅ trivial).mpr trivial

end GlassHive.Recurrences
