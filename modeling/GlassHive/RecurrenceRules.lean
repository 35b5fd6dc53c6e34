import GlassHive.RecurrenceSpecs

/-!
# Due occurrences of a recurrence

A tick takes the latest instant of a recurrence that is due, or under bounded catch-up some of those
before it, and the instant that follows. Each type of recurrence finds its instants in its own way :
by elapsed time, by the dates on a clock, by walking the times of a cron expression, or by expanding
a rule around an instant.
-/

namespace GlassHive.Recurrences

variable (lib : RecurrenceLibrary)

/-! ## Local times -/

/-- The first of some minutes after a local time at which the clock shows a time, with the instant
that the policy takes. -/
def firstValidMinute (zone : ZoneInfo) (latest : Bool) (localValue : ℤ) :
    List ℕ → Except RecurrenceError ℤ
  | [] => .error (.value "local_time cannot be resolved in the configured timezone")
  | offset :: offsets => do
    let shifted ← datetime (localValue + offset * minute)
    let candidates ← validUtcCandidates zone shifted
    match if latest then candidates.getLast? else candidates.head? with
    | some candidate => .ok candidate
    | none => firstValidMinute zone latest localValue offsets

/-- `_resolve_local_datetime`. -/
def resolveLocalDatetime (zone : ZoneInfo) (policy : DstPolicy) (localValue : ℤ) :
    Except RecurrenceError ℤ := do
  require (policy ≠ .elapsed) "DST policy must be next_valid_earliest or next_valid_latest"
  firstValidMinute zone (policy == .nextValidLatest) localValue (List.range 361)

/-- The date on the clock of a zone at an instant, in days. -/
def localDate (zone : ZoneInfo) (t : ℤ) : Except RecurrenceError ℤ := do
  let shown ← localTimeAt zone t
  return shown / day

/-- `resolve_local_occurrence`, on a date in days. -/
def resolveLocalOccurrence (spec : RecurrenceSpec) (date : ℤ) : Except RecurrenceError ℤ := do
  let localValue ← datetime (date * day + spec.localTime)
  resolveLocalDatetime spec.zone spec.dstPolicy localValue

/-! ## Cron -/

/-- The first of some local times, each found from the one before, whose instant qualifies. -/
def firstResolved (spec : RecurrenceSpec) (find : Text → ℤ → Option ℤ) (qualifies : ℤ → Bool)
    (message : String) : ℕ → ℤ → Except RecurrenceError ℤ
  | 0, _ => .error (.value message)
  | steps + 1, cursor => do
    let localCandidate ← required (find spec.cronExpression cursor) .other
    let occurrence ← resolveLocalDatetime spec.zone spec.dstPolicy localCandidate
    if qualifies occurrence then .ok occurrence
    else firstResolved spec find qualifies message steps localCandidate

/-- `_next_cron_occurrence`. -/
def nextCronOccurrence (spec : RecurrenceSpec) (after : ℤ) : Except RecurrenceError ℤ := do
  let cursor ← localTimeAt spec.zone after
  firstResolved spec lib.cronNext (fun occurrence => after < occurrence)
    "cron_expression did not produce a future wall-clock occurrence" 16 cursor

/-- `_previous_cron_occurrence`. -/
def previousCronOccurrence (spec : RecurrenceSpec) (before : ℤ) : Except RecurrenceError ℤ := do
  let cursor ← localTimeAt spec.zone before
  firstResolved spec lib.cronPrevious (fun occurrence => occurrence < before)
    "cron_expression did not produce a previous wall-clock occurrence" 16 cursor

/-! ## RRULE -/

/-- `_shift_months`. -/
def shiftMonths (value months : ℤ) : Option ℤ :=
  let date := Calendar.civil (value / day)
  let index := date.year * 12 + date.month - 1 + months
  let year := index / 12
  let month := (index % 12).toNat + 1
  if 1 ≤ year ∧ year ≤ 9999 ∧ date.day ≤ Calendar.daysInMonth year month then
    some (Calendar.daysOf ⟨year, month, date.day⟩ * day + value % day)
  else none

/-- `_aligned_month_period`. -/
def alignedMonthPeriod (value : ℤ) (periods : ℕ) (intervalMonths : ℤ) : Except RecurrenceError ℤ :=
  required ((List.range (min periods 4800 + 1)).findSome? fun rewind =>
      shiftMonths value (((periods - rewind : ℕ) : ℤ) * intervalMonths))
    (.value "monthly recurrence could not preserve DTSTART alignment")

/-- The length of a period of a frequency, in seconds. -/
def periodSeconds : List (Text × ℤ) :=
  [("MINUTELY".toList, 60), ("HOURLY".toList, 3600), ("DAILY".toList, 86400),
   ("WEEKLY".toList, 7 * 86400)]

/-- `_aligned_rfc_anchor`, on the clock of the zone. -/
def alignedRfcAnchor (spec : RecurrenceSpec) (reference fallbackStart : ℤ) (lookbackPeriods : ℕ) :
    Except RecurrenceError ℤ := do
  let anchor ← localTimeAt spec.zone (spec.startsAt.getD fallbackStart)
  let target ← localTimeAt spec.zone reference
  let fields ← rruleFields lib spec.rrule
  let given ← required (fields.int lib "INTERVAL") .other
  let interval := max 1 given
  let frequency := fields.get "FREQ"
  match periodSeconds.lookup frequency with
  | some unit =>
    let seconds := unit * interval
    let periods := ((target - anchor) / 1000000 / seconds).toNat
    datetime (anchor + ((periods - lookbackPeriods : ℕ) : ℤ) * seconds * 1000000)
  | none =>
    let anchorDate := Calendar.civil (anchor / day)
    let targetDate := Calendar.civil (target / day)
    if frequency = "MONTHLY".toList then
      let months :=
        ((targetDate.year - anchorDate.year) * 12 + targetDate.month - anchorDate.month).toNat
      alignedMonthPeriod anchor (months / interval.toNat - lookbackPeriods) interval
    else if frequency = "YEARLY".toList then
      let periods := ((targetDate.year - anchorDate.year) / interval).toNat
      alignedMonthPeriod anchor (periods - lookbackPeriods) (interval * 12)
    else .error (.value "rrule frequency is not supported")

/-- An instant without its seconds. -/
def wholeMinute (t : ℤ) : ℤ :=
  t - t % minute

/-- What a rule finds before or after a reference. -/
def RecurrenceRule.near (rule : RecurrenceRule) (reference : RuleReference)
    (before inclusive : Bool) : Option ℤ :=
  if before then rule.before reference inclusive else rule.after reference inclusive

/-- The first occurrence found in windows that reach back further and further. -/
def firstInWindow (spec : RecurrenceSpec) (fallbackStart target : ℤ) (reference : RuleReference)
    (before inclusive : Bool) : List ℕ → Except RecurrenceError (Option ℤ)
  | [] => .ok none
  | exponent :: exponents => do
    let nearStart ← alignedRfcAnchor lib spec target fallbackStart (2 ^ exponent)
    let nearRule ← required (lib.rrulestr spec.rrule nearStart spec.zone) .other
    match nearRule.near reference before inclusive with
    | some value => .ok (some value)
    | none => firstInWindow spec fallbackStart target reference before inclusive exponents

/-- `_rfc_occurrence_near`. -/
def rfcOccurrenceNear (spec : RecurrenceSpec) (reference fallbackStart : ℤ)
    (before inclusive : Bool) : Except RecurrenceError (Option ℤ) := do
  let rule ← ruleFrom lib spec.rrule spec.zone (wholeMinute (spec.startsAt.getD fallbackStart))
  if rule.counts then .ok (rule.near (.instant reference) before inclusive)
  else
    let exponents := (List.range 20).map (· + 1)
    let past := rule.bound.filter fun bound => before && decide (bound < reference)
    match past with
    | some bound => firstInWindow lib spec fallbackStart bound .bound before true exponents
    | none =>
      firstInWindow lib spec fallbackStart reference (.instant reference) before inclusive exponents

/-! ## Ticks -/

/-- A persisted definition. -/
structure RecurrenceDefinition where
  input : RecurrenceInput
  nextRunAt : Text

/-- A text, or another when it is empty. -/
def orText (t : Text) (default : String) : Text :=
  if t.isEmpty then default.toList else t

/-- `_spec_from_definition`. -/
def specFromDefinition (definition : RecurrenceDefinition) (clock : ℤ) :
    Except RecurrenceError RecurrenceSpec :=
  let d := definition.input
  normalizeRecurrenceSpec lib { d with
    timezoneName := orText d.timezoneName "UTC"
    dstPolicy := orText d.dstPolicy "next_valid_earliest"
    overlapPolicy := orText d.overlapPolicy "skip"
    catchUpPolicy := orText d.catchUpPolicy "coalesce"
    maxCatchUpOccurrences := if d.maxCatchUpOccurrences = 0 then 1 else d.maxCatchUpOccurrences }
    clock

/-- `_bounded_by_end`. -/
def boundedByEnd (spec : RecurrenceSpec) (value : Option ℤ) : Option ℤ :=
  value.filter fun t => !(spec.endsAt.any fun bound => bound < t)

/-- `_next_after`. -/
def nextAfter (spec : RecurrenceSpec) (occurrence : ℤ) : Except RecurrenceError (Option ℤ) :=
  match spec.recurrenceType with
  | .once => .ok none
  | .interval => do
    let value ← datetime (occurrence + spec.intervalSeconds * 1000000)
    return boundedByEnd spec (some value)
  | .daily => do
    let date ← localDate spec.zone occurrence
    let value ← resolveLocalOccurrence spec (date + 1)
    return boundedByEnd spec (some value)
  | .cron => do
    let value ← nextCronOccurrence lib spec occurrence
    return boundedByEnd spec (some value)
  | .rfc5545 => do
    let value ← rfcOccurrenceNear lib spec occurrence occurrence false false
    return boundedByEnd spec value

/-- `_previous_before`. -/
def previousBefore (spec : RecurrenceSpec) (occurrence : ℤ) : Except RecurrenceError (Option ℤ) :=
  match spec.recurrenceType with
  | .once => .ok none
  | .interval => do
    let value ← datetime (occurrence - spec.intervalSeconds * 1000000)
    return some value
  | .daily => do
    let date ← localDate spec.zone occurrence
    let value ← resolveLocalOccurrence spec (date - 1)
    return some value
  | .cron => do
    let value ← previousCronOccurrence lib spec occurrence
    return some value
  | .rfc5545 => rfcOccurrenceNear lib spec occurrence occurrence true false

/-- `_latest_due`. -/
def latestDue (spec : RecurrenceSpec) (nextDue now : ℤ) : Except RecurrenceError ℤ :=
  match spec.recurrenceType with
  | .once => .ok nextDue
  | .interval =>
    let periods := (now - nextDue) / 1000000 / spec.intervalSeconds
    datetime (nextDue + periods * spec.intervalSeconds * 1000000)
  | .daily => do
    let date ← localDate spec.zone now
    let today ← resolveLocalOccurrence spec date
    if now < today then do
      let yesterday ← resolveLocalOccurrence spec (date - 1)
      return max nextDue yesterday
    else return max nextDue today
  | .cron => do
    let before ← datetime (now + 1)
    let value ← previousCronOccurrence lib spec before
    return max nextDue value
  | .rfc5545 => do
    let value ← rfcOccurrenceNear lib spec now nextDue true true
    return (value.map (max nextDue)).getD nextDue

/-- The decision on an occurrence that is due. -/
structure DueOccurrence where
  scheduledFor : ℤ
  state : String
  outcome : String
  deriving DecidableEq, Repr

/-- An occurrence that is to run. -/
def pendingAt (t : ℤ) : DueOccurrence :=
  ⟨t, "pending", "pending"⟩

/-- The occurrences of bounded catch-up: some instants before the first of `values`, and these. -/
def catchUp (spec : RecurrenceSpec) (nextDue : ℤ) :
    ℕ → ℤ → List ℤ → Except RecurrenceError (List ℤ)
  | 0, first, values => .ok (first :: values)
  | room + 1, first, values => do
    match ← previousBefore lib spec first with
    | none => .ok (first :: values)
    | some previous =>
      if previous < nextDue then .ok (first :: values)
      else catchUp spec nextDue room previous (first :: values)

/-- `due_occurrences_and_next`, at a reading of the clock. -/
def dueOccurrencesAndNext (definition : RecurrenceDefinition) (now clock : ℤ) :
    Except RecurrenceError (List DueOccurrence × Option ℤ) := do
  let spec ← specFromDefinition lib definition clock
  let nextDue ← parseAwareUtc lib definition.nextRunAt "next_run_at"
  if !spec.enabled then .ok ([], some nextDue)
  else if now < nextDue then .ok ([], some nextDue)
  else do
    let latest ← latestDue lib spec nextDue now
    let following ← nextAfter lib spec latest
    match spec.catchUpPolicy with
    | .bounded => do
      let values ← catchUp lib spec nextDue (spec.maxCatchUpOccurrences - 1).toNat latest []
      return (values.map pendingAt, following)
    | .skip =>
      if spec.misfireGraceSeconds < max 0 ((now - latest) / 1000000) then
        return ([⟨latest, "skipped", "misfire_skipped"⟩], following)
      else return ([pendingAt latest], following)
    | .coalesce => return ([pendingAt latest], following)

end GlassHive.Recurrences
