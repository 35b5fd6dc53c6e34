import GlassHive.RecurrenceRules
import GlassHive.Library.Fallible

/-!
# Occurrences after the end of a recurrence

The end of a recurrence bounds the instant that follows a tick, not the instants of the tick itself.
A tick that comes late takes the latest instant that is due, however long after the end it lies.
-/

namespace GlassHive.Recurrences

variable {lib : RecurrenceLibrary} {spec : RecurrenceSpec} {nextDue now bound t first clock : ℤ}
  {message : String} {room : ℕ} {d : RecurrenceInput}

/-! ## When a tick keeps to the end -/

/-- The walk back from an instant meets no occurrence after the end. -/
def WalkWithin (lib : RecurrenceLibrary) (spec : RecurrenceSpec) (nextDue bound : ℤ) :
    ℕ → ℤ → Prop
  | 0, _ => True
  | room + 1, first => ∀ previous, previousBefore lib spec first = .ok (some previous) →
      nextDue ≤ previous → previous ≤ bound ∧ WalkWithin lib spec nextDue bound room previous

/-- The walk of bounded catch-up. -/
def CatchUpWithin (lib : RecurrenceLibrary) (spec : RecurrenceSpec) (nextDue bound latest : ℤ) :
    Prop :=
  spec.catchUpPolicy = .bounded →
    WalkWithin lib spec nextDue bound (spec.maxCatchUpOccurrences - 1).toNat latest

/-- The occurrence of today's date, or when that is still to come the one of the day before. -/
def IsDailyCandidate (spec : RecurrenceSpec) (now candidate : ℤ) : Prop :=
  ∃ date today, localDate spec.zone now = .ok date ∧
    resolveLocalOccurrence spec date = .ok today ∧
    (today ≤ now ∧ candidate = today ∨
      now < today ∧ resolveLocalOccurrence spec (date - 1) = .ok candidate)

/-- A local time of a cron expression, by its place on the walk from a time. -/
def nthTime (find : Text → ℤ → Option ℤ) (expression : Text) (cursor : ℤ) : ℕ → Option ℤ
  | 0 => find expression cursor
  | n + 1 => (find expression cursor).bind fun next => nthTime find expression next n

/-- An occurrence at one of the first sixteen times on the walk back, each of the times before it
being one whose instant is still to come. -/
def IsCronCandidate (lib : RecurrenceLibrary) (spec : RecurrenceSpec) (now candidate : ℤ) : Prop :=
  ∃ cursor n, localTimeAt spec.zone (now + 1) = .ok cursor ∧ n < 16 ∧ candidate ≤ now ∧
    (∃ shown, nthTime lib.cronPrevious spec.cronExpression cursor n = some shown ∧
      resolveLocalDatetime spec.zone spec.dstPolicy shown = .ok candidate) ∧
    ∀ m < n, ∃ shown later, nthTime lib.cronPrevious spec.cronExpression cursor m = some shown ∧
      resolveLocalDatetime spec.zone spec.dstPolicy shown = .ok later ∧ now < later

/-- No occurrence that the tick comes to lies after the end. -/
def KeepsEnd (lib : RecurrenceLibrary) (spec : RecurrenceSpec) (nextDue now bound : ℤ) : Prop :=
  match spec.recurrenceType with
  | .once => True
  | .interval => ∀ k : ℕ, nextDue + k * (spec.intervalSeconds * 1000000) ≤ now →
      nextDue + k * (spec.intervalSeconds * 1000000) ≤ bound
  | .daily => ∀ candidate, IsDailyCandidate spec now candidate →
      candidate ≤ bound ∧ CatchUpWithin lib spec nextDue bound (max nextDue candidate)
  | .cron => ∀ candidate, IsCronCandidate lib spec now candidate → candidate ≤ bound
  | .rfc5545 => ∀ found, rfcOccurrenceNear lib spec now nextDue true true = .ok found →
      (∀ candidate ∈ found, candidate ≤ bound) ∧
        CatchUpWithin lib spec nextDue bound ((found.map (max nextDue)).getD nextDue)

/-! ## Checks that pass -/

theorem required_eq_ok {α : Type} {value : Option α} {error : RecurrenceError} {a : α} :
    required value error = .ok a ↔ value = some a := by
  cases value <;> simp [required]

theorem require_eq_ok {condition : Bool} {u : Unit} :
    require condition message = .ok u ↔ condition = true := by
  cases condition <;> simp [require]

theorem datetime_eq_ok {u : ℤ} (h : datetime t = .ok u) : u = t := by
  unfold datetime at h
  split at h
  · exact (Except.ok.inj h).symm
  · cases h

/-! ## Bounded catch-up -/

theorem catchUp_le_iff {values taken : List ℤ}
    (h : catchUp lib spec nextDue room first values = .ok taken) :
    (∀ t ∈ taken, t ≤ bound) ↔
      (first ≤ bound ∧ ∀ t ∈ values, t ≤ bound) ∧ WalkWithin lib spec nextDue bound room first := by
  induction room generalizing first values with
  | zero =>
    obtain rfl : first :: values = taken := Except.ok.inj h
    simp [WalkWithin]
  | succ room ih =>
    rw [catchUp, Fallible.bind_eq_ok] at h
    obtain ⟨found, hfound, h⟩ := h
    split at h
    · obtain rfl : first :: values = taken := Except.ok.inj h
      simp [WalkWithin, hfound]
    · rename_i previous
      split at h
      · rename_i hbefore
        obtain rfl : first :: values = taken := Except.ok.inj h
        have hnot : ¬nextDue ≤ previous := by omega
        simp [WalkWithin, hfound, hnot]
      · rename_i hafter
        have hle : nextDue ≤ previous := by omega
        rw [ih h]
        simp only [List.mem_cons, forall_eq_or_imp, WalkWithin, hfound, Except.ok.injEq,
          Option.some.injEq, forall_eq', hle, true_implies]
        tauto

/-- A walk that only goes back stays within the end. -/
theorem walkWithin_of_lt (hprevious : ∀ t previous,
      previousBefore lib spec t = .ok (some previous) → previous < t)
    (h : first ≤ bound) : WalkWithin lib spec nextDue bound room first := by
  induction room generalizing first with
  | zero => trivial
  | succ room ih =>
    intro previous hfound _
    have hlt := hprevious first previous hfound
    exact ⟨by omega, ih (by omega)⟩

/-! ## The occurrence that each type comes to -/

/-- A walk over local times returns the first instant that qualifies. -/
theorem firstResolved_eq_ok {find : Text → ℤ → Option ℤ} {qualifies : ℤ → Bool} {steps : ℕ}
    {cursor : ℤ} :
    firstResolved spec find qualifies message steps cursor = .ok t ↔
      ∃ n < steps, qualifies t = true ∧
        (∃ shown, nthTime find spec.cronExpression cursor n = some shown ∧
          resolveLocalDatetime spec.zone spec.dstPolicy shown = .ok t) ∧
        ∀ m < n, ∃ shown later, nthTime find spec.cronExpression cursor m = some shown ∧
          resolveLocalDatetime spec.zone spec.dstPolicy shown = .ok later ∧
          qualifies later = false := by
  induction steps generalizing cursor with
  | zero => simp [firstResolved]
  | succ steps ih =>
    simp only [firstResolved, Fallible.bind_eq_ok, required_eq_ok]
    constructor
    · rintro ⟨shown, hshown, later, hlater, h⟩
      split at h
      · rename_i hqualifies
        obtain rfl : later = t := Except.ok.inj h
        exact ⟨0, by omega, hqualifies, ⟨shown, hshown, hlater⟩, by simp⟩
      · rename_i hqualifies
        obtain ⟨n, hn, hqual, ⟨last, hlast, hresolved⟩, hbefore⟩ := ih.mp h
        refine ⟨n + 1, by omega, hqual, ⟨last, by simp [nthTime, hshown, hlast], hresolved⟩, ?_⟩
        intro m hm
        cases m with
        | zero => exact ⟨shown, later, hshown, hlater, by simpa using hqualifies⟩
        | succ m =>
          obtain ⟨shown', later', hshown', hrest⟩ := hbefore m (by omega)
          exact ⟨shown', later', by simp [nthTime, hshown, hshown'], hrest⟩
    · rintro ⟨n, hn, hqualifies, ⟨last, hlast, hresolved⟩, hbefore⟩
      cases n with
      | zero =>
        refine ⟨last, hlast, t, hresolved, ?_⟩
        rw [if_pos hqualifies]
      | succ n =>
        obtain ⟨shown, later, hshown, hlater, hnot⟩ := hbefore 0 (by omega)
        refine ⟨shown, hshown, later, hlater, ?_⟩
        rw [hnot, if_neg (by simp)]
        change find spec.cronExpression cursor = some shown at hshown
        refine ih.mpr ⟨n, by omega, hqualifies, ⟨last, ?_, hresolved⟩, fun m hm => ?_⟩
        · simpa [nthTime, hshown] using hlast
        · obtain ⟨shown', later', hshown', hrest⟩ := hbefore (m + 1) (by omega)
          exact ⟨shown', later', by simpa [nthTime, hshown] using hshown', hrest⟩

theorem previousCronOccurrence_eq_ok :
    previousCronOccurrence lib spec (now + 1) = .ok t ↔ IsCronCandidate lib spec now t := by
  simp only [previousCronOccurrence, Fallible.bind_eq_ok, firstResolved_eq_ok, IsCronCandidate,
    decide_eq_true_eq, decide_eq_false_iff_not, not_lt]
  constructor
  · rintro ⟨cursor, hcursor, n, hn, hlt, hshown, hbefore⟩
    refine ⟨cursor, n, hcursor, hn, by omega, hshown, fun m hm => ?_⟩
    obtain ⟨shown, later, hmth, hresolved, hle⟩ := hbefore m hm
    exact ⟨shown, later, hmth, hresolved, by omega⟩
  · rintro ⟨cursor, n, hcursor, hn, hle, hshown, hbefore⟩
    refine ⟨cursor, hcursor, n, hn, by omega, hshown, fun m hm => ?_⟩
    obtain ⟨shown, later, hmth, hresolved, hlt⟩ := hbefore m hm
    exact ⟨shown, later, hmth, hresolved, by omega⟩

/-- The latest instant of a daily recurrence is its candidate or the instant that was due. -/
theorem latestDue_daily (htype : spec.recurrenceType = .daily) :
    latestDue lib spec nextDue now = .ok t ↔
      ∃ candidate, IsDailyCandidate spec now candidate ∧ t = max nextDue candidate := by
  simp only [latestDue, htype, Fallible.bind_eq_ok, IsDailyCandidate]
  constructor
  · rintro ⟨date, hdate, today, htoday, h⟩
    split at h
    · rename_i hlater
      obtain ⟨yesterday, hyesterday, h⟩ := Fallible.bind_eq_ok.mp h
      exact ⟨yesterday, ⟨date, today, hdate, htoday, Or.inr ⟨hlater, hyesterday⟩⟩,
        (Except.ok.inj h).symm⟩
    · rename_i hdue
      exact ⟨today, ⟨date, today, hdate, htoday, Or.inl ⟨by omega, rfl⟩⟩,
        (Except.ok.inj h).symm⟩
  · rintro ⟨candidate, ⟨date, today, hdate, htoday, hcase⟩, rfl⟩
    refine ⟨date, hdate, today, htoday, ?_⟩
    rcases hcase with ⟨hdue, rfl⟩ | ⟨hlater, hyesterday⟩
    · rw [if_neg (by omega)]
      rfl
    · rw [if_pos hlater, hyesterday]
      rfl

/-- The latest instant of elapsed time keeps to a bound exactly when all of them up to now do. -/
theorem elapsed_le_iff {step : ℤ} (hstep : 0 < step) (hdue : nextDue ≤ now) :
    nextDue + (now - nextDue) / step * step ≤ bound ↔
      ∀ k : ℕ, nextDue + k * step ≤ now → nextDue + k * step ≤ bound := by
  have hquotient : 0 ≤ (now - nextDue) / step := Int.ediv_nonneg (by omega) hstep.le
  have hfloor : (now - nextDue) / step * step ≤ now - nextDue :=
    Int.ediv_mul_le _ hstep.ne'
  constructor
  · intro hlatest k hk
    have hle : (k : ℤ) ≤ (now - nextDue) / step :=
      (Int.le_ediv_iff_mul_le hstep).mpr (by omega)
    have hmul := Int.mul_le_mul_of_nonneg_right hle hstep.le
    omega
  · intro hall
    have hlast := hall ((now - nextDue) / step).toNat
    rw [Int.toNat_of_nonneg hquotient] at hlast
    exact hlast (by omega)

theorem intervalSeconds_of_normalized (h : normalizeRecurrenceSpec lib d clock = .ok spec)
    (htype : spec.recurrenceType = .interval) : 60 ≤ spec.intervalSeconds := by
  simp only [normalizeRecurrenceSpec, Fallible.bind_eq_ok] at h
  obtain ⟨common, -, h⟩ := h
  split at h
  · rename_i hkind
    simp only [Fallible.bind_eq_ok] at h
    obtain ⟨_, -, h⟩ := h
    obtain rfl := Except.ok.inj h
    rw [hkind] at htype
    cases htype
  · simp only [Fallible.bind_eq_ok, require_eq_ok] at h
    obtain ⟨_, hmin, _, -, _, -, h⟩ := h
    obtain rfl := Except.ok.inj h
    exact of_decide_eq_true hmin
  · rename_i hkind
    simp only [Fallible.bind_eq_ok] at h
    obtain ⟨_, -, _, -, h⟩ := h
    obtain rfl := Except.ok.inj h
    rw [hkind] at htype
    cases htype
  · rename_i hkind
    simp only [Fallible.bind_eq_ok] at h
    obtain ⟨_, -, _, -, _, -, h⟩ := h
    obtain rfl := Except.ok.inj h
    rw [hkind] at htype
    cases htype
  · rename_i hkind
    simp only [Fallible.bind_eq_ok] at h
    obtain ⟨_, -, _, -, h⟩ := h
    obtain rfl := Except.ok.inj h
    rw [hkind] at htype
    cases htype

/-! ## Ticks -/

/-- A tick takes its latest instant, and under bounded catch-up walks back from it. -/
theorem scheduledFor_le_iff {definition : RecurrenceDefinition} {occurrences : List DueOccurrence}
    {following : Option ℤ} (hspec : specFromDefinition lib definition clock = .ok spec)
    (hnext : parseAwareUtc lib definition.nextRunAt "next_run_at" = .ok nextDue)
    (henabled : spec.enabled = true) (hdue : nextDue ≤ now)
    (h : dueOccurrencesAndNext lib definition now clock = .ok (occurrences, following)) :
    ∃ latest, latestDue lib spec nextDue now = .ok latest ∧
      ((∀ o ∈ occurrences, o.scheduledFor ≤ bound) ↔
        latest ≤ bound ∧ CatchUpWithin lib spec nextDue bound latest) := by
  have hnot : ¬now < nextDue := by omega
  simp only [dueOccurrencesAndNext, Fallible.bind_eq_ok, hspec, hnext, Except.ok.injEq,
    exists_eq_left', henabled, hnot, if_false, Bool.not_true, Bool.false_eq_true] at h
  obtain ⟨latest, hlatest, _, -, h⟩ := h
  refine ⟨latest, hlatest, ?_⟩
  split at h
  · rename_i hpolicy
    simp only [Fallible.bind_eq_ok] at h
    obtain ⟨values, hvalues, h⟩ := h
    obtain ⟨rfl, -⟩ := Prod.mk.inj (Except.ok.inj h)
    have hiff : (∀ t ∈ values, t ≤ bound) ↔ _ := catchUp_le_iff hvalues
    simpa [CatchUpWithin, hpolicy, pendingAt] using hiff
  · rename_i hpolicy
    have hnone : CatchUpWithin lib spec nextDue bound latest := by
      simp [CatchUpWithin, hpolicy]
    split at h
    · obtain ⟨rfl, -⟩ := Prod.mk.inj (Except.ok.inj h)
      simp [hnone]
    · obtain ⟨rfl, -⟩ := Prod.mk.inj (Except.ok.inj h)
      simp [hnone, pendingAt]
  · rename_i hpolicy
    obtain ⟨rfl, -⟩ := Prod.mk.inj (Except.ok.inj h)
    simp [CatchUpWithin, hpolicy, pendingAt]

/-- The latest instant and the walk back from it keep to the end exactly when the occurrences that
the tick comes to do. -/
theorem latestDue_keepsEnd_iff {latest : ℤ} (hspec : normalizeRecurrenceSpec lib d clock = .ok spec)
    (hdue : nextDue ≤ now) (hbound : nextDue ≤ bound)
    (hlatest : latestDue lib spec nextDue now = .ok latest) :
    latest ≤ bound ∧ CatchUpWithin lib spec nextDue bound latest ↔
      KeepsEnd lib spec nextDue now bound := by
  unfold KeepsEnd
  split
  · rename_i htype
    simp only [latestDue, htype] at hlatest
    obtain rfl := Except.ok.inj hlatest
    refine iff_of_true ⟨hbound, fun _ => walkWithin_of_lt ?_ hbound⟩ trivial
    intro t previous hprevious
    simp [previousBefore, htype] at hprevious
  · rename_i htype
    have hseconds := intervalSeconds_of_normalized hspec htype
    simp only [latestDue, htype] at hlatest
    have hvalue := datetime_eq_ok hlatest
    have hstep : 0 < spec.intervalSeconds * 1000000 := by omega
    have hquotient : (now - nextDue) / 1000000 / spec.intervalSeconds =
        (now - nextDue) / (spec.intervalSeconds * 1000000) := by
      rw [Int.ediv_ediv_of_nonneg (by omega), mul_comm]
    rw [← elapsed_le_iff hstep hdue, ← hquotient, ← mul_assoc, ← hvalue]
    refine and_iff_left_of_imp fun hle _ => walkWithin_of_lt ?_ hle
    intro t previous hprevious
    simp only [previousBefore, htype, Fallible.bind_eq_ok] at hprevious
    obtain ⟨value, hdatetime, hvalue⟩ := hprevious
    obtain rfl := Option.some.inj (Except.ok.inj hvalue)
    rw [datetime_eq_ok hdatetime]
    omega
  · rename_i htype
    obtain ⟨candidate, hcandidate, rfl⟩ := (latestDue_daily htype).mp hlatest
    have hunique {other : ℤ} (hother : IsDailyCandidate spec now other) : other = candidate := by
      obtain ⟨date, today, hdate, htoday, hcase⟩ := hcandidate
      obtain ⟨date', today', hdate', htoday', hcase'⟩ := hother
      obtain rfl := Except.ok.inj (hdate.symm.trans hdate')
      obtain rfl := Except.ok.inj (htoday.symm.trans htoday')
      rcases hcase with ⟨hle, rfl⟩ | ⟨hlt, hyesterday⟩
      · rcases hcase' with ⟨-, rfl⟩ | ⟨hlt', -⟩
        · rfl
        · omega
      · rcases hcase' with ⟨hle', -⟩ | ⟨-, hyesterday'⟩
        · omega
        · exact Except.ok.inj (hyesterday'.symm.trans hyesterday)
    constructor
    · rintro ⟨hle, hwalk⟩ other hother
      obtain rfl := hunique hother
      exact ⟨(le_max_right _ _).trans hle, hwalk⟩
    · intro hall
      obtain ⟨hle, hwalk⟩ := hall candidate hcandidate
      exact ⟨max_le hbound hle, hwalk⟩
  · rename_i htype
    simp only [latestDue, htype, Fallible.bind_eq_ok] at hlatest
    obtain ⟨before, hbefore, candidate, hfound, hlatest⟩ := hlatest
    obtain rfl := datetime_eq_ok hbefore
    obtain rfl := Except.ok.inj hlatest
    have hcandidate := previousCronOccurrence_eq_ok.mp hfound
    constructor
    · rintro ⟨hle, -⟩ other hother
      have hother' := previousCronOccurrence_eq_ok.mpr hother
      rw [hfound, Except.ok.injEq] at hother'
      subst hother'
      exact (le_max_right _ _).trans hle
    · intro hall
      have hle : max nextDue candidate ≤ bound := max_le hbound (hall candidate hcandidate)
      refine ⟨hle, fun _ => walkWithin_of_lt ?_ hle⟩
      intro t previous hprevious
      simp only [previousBefore, htype, Fallible.bind_eq_ok, previousCronOccurrence,
        firstResolved_eq_ok] at hprevious
      obtain ⟨value, ⟨_, -, _, -, hqualifies, -⟩, hvalue⟩ := hprevious
      obtain rfl := Option.some.inj (Except.ok.inj hvalue)
      exact of_decide_eq_true hqualifies
  · rename_i htype
    simp only [latestDue, htype, Fallible.bind_eq_ok] at hlatest
    obtain ⟨found, hfound, hlatest⟩ := hlatest
    obtain rfl := Except.ok.inj hlatest
    constructor
    · rintro ⟨hle, hwalk⟩ other hother
      obtain rfl := Except.ok.inj (hfound.symm.trans hother)
      refine ⟨fun candidate hcandidate => ?_, hwalk⟩
      obtain rfl : found = some candidate := hcandidate
      exact (le_max_right _ _).trans hle
    · intro hall
      obtain ⟨hle, hwalk⟩ := hall found hfound
      refine ⟨?_, hwalk⟩
      cases found with
      | none => exact hbound
      | some candidate => exact max_le hbound (hle candidate rfl)

/-- A tick takes no occurrence after the end exactly when the recurrence is not enabled or the
occurrences that the tick comes to keep to the end. -/
theorem due_occurrences_within_iff (lib : RecurrenceLibrary) (definition : RecurrenceDefinition)
    (spec : RecurrenceSpec) (nextDue now clock : ℤ) (occurrences : List DueOccurrence)
    (following : Option ℤ) (hspec : specFromDefinition lib definition clock = .ok spec)
    (hnext : parseAwareUtc lib definition.nextRunAt "next_run_at" = .ok nextDue)
    (hdue : nextDue ≤ now)
    (h : dueOccurrencesAndNext lib definition now clock = .ok (occurrences, following)) :
    ∀ bound ∈ spec.endsAt, nextDue ≤ bound →
      ((∀ o ∈ occurrences, o.scheduledFor ≤ bound) ↔
        (spec.enabled = true → KeepsEnd lib spec nextDue now bound)) := by
  intro bound _ hbound
  cases henabled : spec.enabled with
  | false =>
    simp only [dueOccurrencesAndNext, Fallible.bind_eq_ok, hspec, hnext, Except.ok.injEq,
      exists_eq_left', henabled, Bool.not_false, if_true] at h
    obtain ⟨rfl, -⟩ := Prod.mk.inj h
    simp
  | true =>
    obtain ⟨latest, hlatest, hiff⟩ := scheduledFor_le_iff hspec hnext henabled hdue h
    rw [hiff, latestDue_keepsEnd_iff hspec hdue hbound hlatest]
    simp

/-! ## An hourly recurrence -/

/-- The libraries, as far as a recurrence of elapsed time in UTC calls them. -/
def utcLibrary : RecurrenceLibrary where
  zoneInfo name := if name = "UTC".toList then some ⟨fun _ => 0, fun _ _ => 0⟩ else none
  datetimeFromisoformat text :=
    if text = "2026-01-05T09:00:00+00:00".toList then some (1767603600000000, some 0)
    else if text = "2026-01-05T10:30:00+00:00".toList then some (1767609000000000, some 0)
    else none
  timeFromisoformat _ := none
  int _ := none
  upper := List.map Char.toUpper
  cronIsValid _ := false
  cronNext _ _ := none
  cronPrevious _ _ := none
  rrulestr _ _ _ := none

/-- An hourly recurrence from nine that ends at half past ten. -/
def hourly : RecurrenceDefinition where
  input := {
    recurrenceType := "interval".toList
    intervalSeconds := some 3600
    localTime := []
    timezoneName := "UTC".toList
    dstPolicy := []
    cronExpression := []
    rrule := []
    startsAt := []
    endsAt := "2026-01-05T10:30:00+00:00".toList
    enabled := true
    overlapPolicy := "skip".toList
    misfireGraceSeconds := 300
    catchUpPolicy := "coalesce".toList
    maxCatchUpOccurrences := 1
    jitterSeconds := 0 }
  nextRunAt := "2026-01-05T09:00:00+00:00".toList

def nine : ℤ := 1767603600000000

theorem exists_hourly_spec : ∃ spec, specFromDefinition utcLibrary hourly 0 = .ok spec ∧
    spec.enabled = true ∧ spec.endsAt = some (nine + hour + 30 * minute) := by
  have hfields : (specFromDefinition utcLibrary hourly 0).toOption.map
      (fun spec => (spec.enabled, spec.endsAt)) = some (true, some (nine + hour + 30 * minute)) := by
    decide +kernel
  cases hspec : specFromDefinition utcLibrary hourly 0 with
  | error => simp [hspec, Except.toOption] at hfields
  | ok spec =>
    simp only [hspec, Except.toOption, Option.map_some, Option.some.injEq,
      Prod.mk.injEq] at hfields
    exact ⟨spec, rfl, hfields.1, hfields.2⟩

/-- A tick at ten past ten keeps to the end. -/
theorem due_occurrences_within_ten_past_ten :
    ∃ spec, specFromDefinition utcLibrary hourly 0 = .ok spec ∧
      KeepsEnd utcLibrary spec nine (nine + hour + 10 * minute) (nine + hour + 30 * minute) := by
  obtain ⟨spec, hspec, henabled, hend⟩ := exists_hourly_spec
  have hnext : parseAwareUtc utcLibrary hourly.nextRunAt "next_run_at" = .ok nine := by
    decide +kernel
  have htick : dueOccurrencesAndNext utcLibrary hourly (nine + hour + 10 * minute) 0 =
      .ok ([pendingAt (nine + hour)], none) := by
    decide +kernel
  have hiff := due_occurrences_within_iff utcLibrary hourly spec nine _ 0 _ _ hspec hnext
    (by decide) htick _ hend (by decide)
  refine ⟨spec, hspec, hiff.mp ?_ henabled⟩
  simp only [List.mem_singleton, forall_eq]
  decide

/-- A tick at ten past one takes the occurrence of one o'clock, after the end. -/
theorem due_occurrences_after_end :
    ∃ spec, specFromDefinition utcLibrary hourly 0 = .ok spec ∧
      spec.endsAt = some (nine + hour + 30 * minute) ∧
      parseAwareUtc utcLibrary hourly.nextRunAt "next_run_at" = .ok nine ∧
      nine ≤ nine + 4 * hour + 10 * minute ∧ nine ≤ nine + hour + 30 * minute ∧
      dueOccurrencesAndNext utcLibrary hourly (nine + 4 * hour + 10 * minute) 0 =
        .ok ([pendingAt (nine + 4 * hour)], none) ∧
      ¬nine + 4 * hour ≤ nine + hour + 30 * minute := by
  obtain ⟨spec, hspec, -, hend⟩ := exists_hourly_spec
  exact ⟨spec, hspec, hend, by decide +kernel, by decide, by decide, by decide +kernel, by decide⟩

end GlassHive.Recurrences
