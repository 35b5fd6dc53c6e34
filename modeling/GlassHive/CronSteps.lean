import GlassHive.EndsAt
import GlassHive.Library.Successions

/-!
# Steps of a cron recurrence

The next and the previous occurrence of a cron expression are searched among the minutes that match
it on the clock of the zone : each of sixteen candidates is resolved to an instant, and the first
one that lies on the right side of the reference is taken. Where the clock is put back, the minutes
of more than sixteen candidates can resolve to the wrong side, or the minutes that resolve to the
right one can be behind the clock.
-/

namespace GlassHive.Recurrences

/-! ## What is asked of a step -/

/-- `croniter` finds the minutes that match an expression, in order. -/
structure WalksThrough (lib : RecurrenceLibrary) (expression : Text) (matching : Set ℤ) : Prop where
  next : Successions.Enumerates (· < ·) (lib.cronNext expression) matching
  previous : Successions.Enumerates (· > ·) (lib.cronPrevious expression) matching

/-- The instants that the matching minutes resolve to. -/
def resolvedInstants (spec : RecurrenceSpec) (matching : Set ℤ) : Set ℤ :=
  {u | ∃ shown ∈ matching, resolveLocalDatetime spec.zone spec.dstPolicy shown = .ok u}

/-- Where a resolved instant lies on the side `r` of the reference, the step returns the nearest. -/
def FindsNearest (r : ℤ → ℤ → Prop) (spec : RecurrenceSpec) (matching : Set ℤ)
    (step : ℤ → Except RecurrenceError ℤ) (reference : ℤ) : Prop :=
  (∃ u ∈ resolvedInstants spec matching, r reference u) →
    ∃ u, step reference = .ok u ∧ Successions.IsNext r (resolvedInstants spec matching) reference u

/-- The next occurrence is the least one after the reference, the previous one the greatest one
before it. -/
structure StepsExactly (lib : RecurrenceLibrary) (spec : RecurrenceSpec) (matching : Set ℤ)
    (reference : ℤ) : Prop where
  next : FindsNearest (· < ·) spec matching (nextCronOccurrence lib spec) reference
  previous : FindsNearest (· > ·) spec matching (previousCronOccurrence lib spec) reference

/-- A matching minute and its instant lie on one side of the clock and of the reference, and fewer
than sixteen matching minutes between the clock and that minute all resolve to the other side. -/
structure WithinReach (r : ℤ → ℤ → Prop) (spec : RecurrenceSpec) (matching : Set ℤ)
    (reference cursor shown u : ℤ) : Prop where
  mem : shown ∈ matching
  ahead : r cursor shown
  resolves : resolveLocalDatetime spec.zone spec.dstPolicy shown = .ok u
  qualifies : r reference u
  few : (Successions.between r matching cursor shown).encard < 16
  passed : ∀ other ∈ Successions.between r matching cursor shown,
    ∃ v, resolveLocalDatetime spec.zone spec.dstPolicy other = .ok v ∧ ¬r reference v

/-- The nearest resolved instant is that of a minute within reach of the clock. -/
def NearestWithinReach (r : ℤ → ℤ → Prop) (spec : RecurrenceSpec) (matching : Set ℤ)
    (reference : ℤ) : Prop :=
  (∃ u ∈ resolvedInstants spec matching, r reference u) →
    ∃ cursor shown u, localTimeAt spec.zone reference = .ok cursor ∧
      WithinReach r spec matching reference cursor shown u ∧
      ∀ v ∈ resolvedInstants spec matching, r reference v → ¬r v u

/-! ## The walk over candidates -/

section Walk

variable {r : ℤ → ℤ → Prop} [DecidableRel r] [hr : IsStrictTotalOrder ℤ r] {spec : RecurrenceSpec}
  {matching : Set ℤ} {find : Text → ℤ → Option ℤ} {message : String} {reference cursor u : ℤ}

theorem nthTime_eq_nth {expression : Text} {n : ℕ} :
    nthTime find expression cursor n = Successions.nth (find expression) n cursor := by
  induction n generalizing cursor with
  | zero => rfl
  | succ n ih =>
    rw [nthTime, Successions.nth]
    congr
    ext next : 1
    exact ih

/-- The walk takes an instant exactly when its minute is within reach. -/
theorem firstResolved_eq_ok_iff
    (henum : Successions.Enumerates r (find spec.cronExpression) matching) :
    firstResolved spec find (fun occurrence => decide (r reference occurrence)) message 16 cursor =
      .ok u ↔ ∃ shown, WithinReach r spec matching reference cursor shown u := by
  simp only [firstResolved_eq_ok, nthTime_eq_nth, decide_eq_true_eq, decide_eq_false_iff_not]
  constructor
  · rintro ⟨n, hn, hqualifies, ⟨shown, hshown, hresolves⟩, hpassed⟩
    obtain ⟨hmem, hahead, hcard⟩ := (Successions.nth_eq_some_iff henum).mp hshown
    refine ⟨shown, hmem, hahead, hresolves, hqualifies, ?_, fun other hother => ?_⟩
    · rw [hcard]
      exact_mod_cast hn
    · obtain ⟨m, hm, hmth⟩ := Successions.exists_nth_of_between henum hshown hother
      obtain ⟨shown', v, hshown', hv, hnot⟩ := hpassed m hm
      obtain rfl : shown' = other := Option.some.inj (hshown'.symm.trans hmth)
      exact ⟨v, hv, hnot⟩
  · rintro ⟨shown, hreach⟩
    have hfin : (Successions.between r matching cursor shown).Finite :=
      Set.finite_of_encard_le_coe (k := 16) hreach.few.le
    obtain ⟨n, hcard⟩ := hfin.exists_encard_eq_coe
    have hn : n < 16 := by
      have hfew := hreach.few
      rw [hcard] at hfew
      exact_mod_cast hfew
    have hshown : Successions.nth (find spec.cronExpression) n cursor = some shown :=
      (Successions.nth_eq_some_iff henum).mpr ⟨hreach.mem, hreach.ahead, hcard⟩
    refine ⟨n, hn, hreach.qualifies, ⟨shown, hshown, hreach.resolves⟩, fun m hm => ?_⟩
    obtain ⟨other, hmth, hbetween⟩ := Successions.exists_between_of_nth henum hshown hm
    obtain ⟨v, hv, hnot⟩ := hreach.passed other hbetween
    exact ⟨other, v, hmth, hv, hnot⟩

section Step

variable {step : ℤ → Except RecurrenceError ℤ}
  (henum : Successions.Enumerates r (find spec.cronExpression) matching)
  (hstep : step reference = do
    let cursor ← localTimeAt spec.zone reference
    firstResolved spec find (fun occurrence => decide (r reference occurrence)) message 16 cursor)

include henum hstep

theorem step_eq_ok_iff : step reference = .ok u ↔ ∃ cursor shown,
    localTimeAt spec.zone reference = .ok cursor ∧
      WithinReach r spec matching reference cursor shown u := by
  simp only [hstep, Fallible.bind_eq_ok, firstResolved_eq_ok_iff henum, exists_and_left]

/-- A step finds the nearest instant exactly when this is within reach. -/
theorem findsNearest_iff :
    FindsNearest r spec matching step reference ↔ NearestWithinReach r spec matching reference := by
  constructor
  · intro h hsome
    obtain ⟨u, hu, hnext⟩ := h hsome
    obtain ⟨cursor, shown, hcursor, hreach⟩ := (step_eq_ok_iff henum hstep).mp hu
    exact ⟨cursor, shown, u, hcursor, hreach, hnext.least⟩
  · intro h hsome
    obtain ⟨cursor, shown, u, hcursor, hreach, hleast⟩ := h hsome
    exact ⟨u, (step_eq_ok_iff henum hstep).mpr ⟨cursor, shown, hcursor, hreach⟩,
      ⟨shown, hreach.mem, hreach.resolves⟩, hreach.qualifies, hleast⟩

end Step

end Walk

/-- The steps of a cron recurrence are exact at a reference exactly when the nearest instants on
both of its sides are within reach. -/
theorem stepsExactly_iff (lib : RecurrenceLibrary) (spec : RecurrenceSpec) (matching : Set ℤ)
    (hwalk : WalksThrough lib spec.cronExpression matching) (reference : ℤ) :
    StepsExactly lib spec matching reference ↔
      NearestWithinReach (· < ·) spec matching reference ∧
        NearestWithinReach (· > ·) spec matching reference := by
  have hnext : FindsNearest (· < ·) spec matching (nextCronOccurrence lib spec) reference ↔
      NearestWithinReach (· < ·) spec matching reference :=
    findsNearest_iff hwalk.next rfl
  have hprevious : FindsNearest (· > ·) spec matching (previousCronOccurrence lib spec) reference ↔
      NearestWithinReach (· > ·) spec matching reference :=
    findsNearest_iff hwalk.previous rfl
  constructor
  · intro h
    exact ⟨hnext.mp h.next, hprevious.mp h.previous⟩
  · rintro ⟨hafter, hbefore⟩
    exact ⟨hnext.mpr hafter, hprevious.mpr hbefore⟩

/-! ## Every minute, while the clock is put back -/

/-- The minutes of `* * * * *`. -/
def everyMinute : Set ℤ :=
  {t | minute ∣ t}

/-- `croniter` on `* * * * *`. -/
def minuteLibrary : RecurrenceLibrary :=
  { utcLibrary with
    cronIsValid := fun _ => true
    cronNext := fun _ t => some ((t / minute + 1) * minute)
    cronPrevious := fun _ t => some ((t - 1) / minute * minute) }

/-- The instant at which New York puts its clock back from two to one, in 2026. -/
def fallBack : ℤ := 1793512800000000

/-- The clock of New York around that instant. -/
def newYork : ZoneInfo where
  offsetAt t := if t < fallBack then -4 * hour else -5 * hour
  offsetOf shown fold :=
    if shown < fallBack - 5 * hour then -4 * hour
    else if shown < fallBack - 4 * hour && !fold then -4 * hour else -5 * hour

/-- A recurrence at every minute in New York. -/
def minutely : RecurrenceSpec where
  recurrenceType := .cron
  zone := newYork
  dstPolicy := .nextValidEarliest
  cronExpression := "* * * * *".toList
  startsAt := none
  endsAt := none
  enabled := true
  overlapPolicy := .skip
  misfireGraceSeconds := 300
  catchUpPolicy := .coalesce
  maxCatchUpOccurrences := 1
  jitterSeconds := 0

theorem mem_everyMinute {t : ℤ} : t ∈ everyMinute ↔ 60000000 ∣ t :=
  Iff.rfl

theorem minuteLibrary_walksThrough (expression : Text) :
    WalksThrough minuteLibrary expression everyMinute := by
  constructor
  · intro c x
    simp only [minuteLibrary, minute, Int.reduceMul, Option.some.injEq]
    constructor
    · rintro rfl
      refine ⟨mem_everyMinute.mpr (by omega), by omega, fun y hy hcy => ?_⟩
      rw [mem_everyMinute] at hy
      omega
    · intro h
      have hmem := mem_everyMinute.mp h.mem
      have hafter := h.after
      have hleast := h.least ((c / 60000000 + 1) * 60000000) (mem_everyMinute.mpr (by omega))
        (by omega)
      omega
  · intro c x
    simp only [minuteLibrary, minute, Int.reduceMul, Option.some.injEq]
    constructor
    · rintro rfl
      refine ⟨mem_everyMinute.mpr (by omega), by omega, fun y hy hcy => ?_⟩
      rw [mem_everyMinute] at hy
      omega
    · intro h
      have hmem := mem_everyMinute.mp h.mem
      have hafter := h.after
      have hleast := h.least ((c - 1) / 60000000 * 60000000) (mem_everyMinute.mpr (by omega))
        (by omega)
      omega

/-- At the second one o'clock no minute is found : those of the next hour resolve to the hour
before. -/
theorem nextCronOccurrence_fallBack :
    nextCronOccurrence minuteLibrary minutely fallBack =
      .error (.value "cron_expression did not produce a future wall-clock occurrence") := by
  decide +kernel

/-- The steps of the recurrence are not exact there. -/
theorem not_stepsExactly_fallBack :
    WalksThrough minuteLibrary minutely.cronExpression everyMinute ∧
      ¬StepsExactly minuteLibrary minutely everyMinute fallBack := by
  refine ⟨minuteLibrary_walksThrough _, fun h => ?_⟩
  have hlater : resolveLocalDatetime minutely.zone minutely.dstPolicy (fallBack - 4 * hour) =
      .ok (fallBack + hour) := by
    decide +kernel
  have hmatches : fallBack - 4 * hour ∈ everyMinute := mem_everyMinute.mpr (by decide)
  obtain ⟨u, hu, -⟩ := h.next ⟨_, ⟨_, hmatches, hlater⟩, by decide⟩
  rw [nextCronOccurrence_fallBack] at hu
  cases hu

/-- Whether they are exact a day before is a matter of reach too. -/
theorem stepsExactly_day_before :
    StepsExactly minuteLibrary minutely everyMinute (fallBack - day) ↔
      NearestWithinReach (· < ·) minutely everyMinute (fallBack - day) ∧
        NearestWithinReach (· > ·) minutely everyMinute (fallBack - day) :=
  stepsExactly_iff minuteLibrary minutely everyMinute (minuteLibrary_walksThrough _)
    (fallBack - day)

end GlassHive.Recurrences
