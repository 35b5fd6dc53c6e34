import GlassHive.Library.Calendar
import GlassHive.Library.Text

/-!
# Recurrence specifications

A definition of a recurring schedule is checked and normalized each time it is used. Instants, and
times on a clock without a zone, count microseconds since the epoch.

`RecurrenceLibrary` stands for the time zones, the parsers of ISO times, croniter and dateutil. The
normalized specification holds what the texts of its fields are parsed to when they are read again.
-/

namespace GlassHive.Recurrences

/-- A minute, an hour and a day. -/
def minute : ℤ := 60 * 1000000

def hour : ℤ := 60 * minute

def day : ℤ := 24 * hour

/-- What a function of the module raises: a `ValueError` of its own, or anything else. -/
inductive RecurrenceError
  | value (message : String)
  | other
  deriving DecidableEq, Repr

/-! ## Libraries -/

/-- A `ZoneInfo`: its offset at an instant, and that of a time on its clock with a fold. -/
structure ZoneInfo where
  offsetAt : ℤ → ℤ
  offsetOf : ℤ → Bool → ℤ

/-- What a rule is asked about: an instant on the clock of its zone, or its own `UNTIL`. -/
inductive RuleReference
  | instant (t : ℤ)
  | bound
  deriving DecidableEq, Repr

/-- A rule of `rrulestr`: whether it has a `COUNT`, its `UNTIL`, and the instants of its nearest
occurrences. -/
structure RecurrenceRule where
  counts : Bool
  bound : Option ℤ
  before : RuleReference → Bool → Option ℤ
  after : RuleReference → Bool → Option ℤ

/-- The libraries. A parsed time has its clock time and, when it names one, its offset; a parsed
time of day says whether it names one. -/
structure RecurrenceLibrary where
  zoneInfo : Text → Option ZoneInfo
  datetimeFromisoformat : Text → Option (ℤ × Option ℤ)
  timeFromisoformat : Text → Option (ℤ × Bool)
  int : Text → Option ℤ
  upper : Text → Text
  cronIsValid : Text → Bool
  cronNext : Text → ℤ → Option ℤ
  cronPrevious : Text → ℤ → Option ℤ
  rrulestr : Text → ℤ → ZoneInfo → Option RecurrenceRule

/-! ## Policies -/

/-- `RECURRENCE_TYPES`. -/
inductive RecurrenceType
  | once
  | daily
  | interval
  | cron
  | rfc5545
  deriving DecidableEq, Repr

/-- `DST_POLICIES`, and the policy of the types that have none. -/
inductive DstPolicy
  | nextValidEarliest
  | nextValidLatest
  | elapsed
  deriving DecidableEq, Repr

/-- `OVERLAP_POLICIES`. -/
inductive OverlapPolicy
  | skip
  | queue
  deriving DecidableEq, Repr

/-- `CATCH_UP_POLICIES`. -/
inductive CatchUpPolicy
  | skip
  | bounded
  | coalesce
  deriving DecidableEq, Repr

def recurrenceTypes : List (Text × RecurrenceType) :=
  [("once".toList, .once), ("daily".toList, .daily), ("interval".toList, .interval),
   ("cron".toList, .cron), ("rfc5545".toList, .rfc5545)]

def dstPolicies : List (Text × DstPolicy) :=
  [("next_valid_earliest".toList, .nextValidEarliest),
   ("next_valid_latest".toList, .nextValidLatest)]

def overlapPolicies : List (Text × OverlapPolicy) :=
  [("skip".toList, .skip), ("queue".toList, .queue)]

def catchUpPolicies : List (Text × CatchUpPolicy) :=
  [("skip".toList, .skip), ("bounded".toList, .bounded), ("coalesce".toList, .coalesce)]

def minIntervalSeconds : ℤ := 60

def maxIntervalSeconds : ℤ := 366 * 24 * 60 * 60

def maxMisfireGraceSeconds : ℤ := 7 * 24 * 60 * 60

def maxCatchUpOccurrences : ℤ := 10

def maxJitterSeconds : ℤ := 15 * 60

def maxRruleLength : ℕ := 2048

def maxRruleParts : ℕ := 32

def maxRruleListValues : ℕ := 64

def maxRruleCount : ℤ := 10000

/-- `MAX_RRULE_INTERVALS`. -/
def maxRruleIntervals : List (Text × ℤ) :=
  [("MINUTELY".toList, 527040), ("HOURLY".toList, 8784), ("DAILY".toList, 366),
   ("WEEKLY".toList, 53), ("MONTHLY".toList, 1200), ("YEARLY".toList, 100)]

/-! ## Checks -/

/-- A value that has to be there. -/
def required {α : Type} (value : Option α) (error : RecurrenceError) : Except RecurrenceError α :=
  match value with
  | none => .error error
  | some a => .ok a

/-- A condition that has to hold. -/
def require (condition : Bool) (message : String) : Except RecurrenceError Unit :=
  if condition then .ok () else .error (.value message)

/-- A `datetime` of the years from 1 to 9999. -/
def datetime (t : ℤ) : Except RecurrenceError ℤ :=
  if -62135596800000000 ≤ t ∧ t < 253402300800000000 then .ok t else .error .other

/-- `str.replace("Z", "+00:00")`. -/
def withOffset (t : Text) : Text :=
  t.flatMap fun c => if c = 'Z' then "+00:00".toList else [c]

variable (lib : RecurrenceLibrary)

/-- `parse_aware_utc`. -/
def parseAwareUtc (value : Text) (label : String) : Except RecurrenceError ℤ := do
  let parsed ← required (lib.datetimeFromisoformat (withOffset (Text.strip value)))
    (.value s!"{label} must be an ISO datetime")
  let offset ← required parsed.2 (.value s!"{label} must include a timezone offset")
  datetime (parsed.1 - offset)

/-- `_timezone`. -/
def timezone (value : Text) : Except RecurrenceError ZoneInfo := do
  require (!(Text.strip value).isEmpty) "timezone_name must be an IANA timezone"
  required (lib.zoneInfo (Text.strip value)) (.value "timezone_name must be a valid IANA timezone")

/-- `_local_time`. -/
def parseLocalTime (value : Text) : Except RecurrenceError ℤ := do
  let raw := Text.strip value
  let parsed ← required (lib.timeFromisoformat raw)
    (.value "local_time must use HH:MM in 24-hour time")
  require (!parsed.2 && parsed.1 % minute == 0 && raw.length == 5)
    "local_time must use HH:MM in 24-hour time"
  return parsed.1

/-- The time on the clock of a zone at an instant. -/
def localTimeAt (zone : ZoneInfo) (t : ℤ) : Except RecurrenceError ℤ :=
  datetime (t + zone.offsetAt t)

/-- The instant of a clock time under a fold, when the clock shows that time then. -/
def validUtcCandidate (zone : ZoneInfo) (localValue : ℤ) (fold : Bool) :
    Except RecurrenceError (Option ℤ) := do
  let candidate ← datetime (localValue - zone.offsetOf localValue fold)
  let shown ← localTimeAt zone candidate
  return if shown = localValue then some candidate else none

/-- `_valid_utc_candidates`: the instants in order, each once. -/
def validUtcCandidates (zone : ZoneInfo) (localValue : ℤ) : Except RecurrenceError (List ℤ) := do
  let first ← validUtcCandidate zone localValue false
  let second ← validUtcCandidate zone localValue true
  return match first, second with
    | none, none => []
    | some a, none => [a]
    | none, some b => [b]
    | some a, some b => if a = b then [a] else [min a b, max a b]

/-- `_schedule_boundary`. -/
def scheduleBoundary (value : Text) (zone : ZoneInfo) (label : String) :
    Except RecurrenceError ℤ := do
  let parsed ← required (lib.datetimeFromisoformat (withOffset (Text.strip value)))
    (.value s!"{label} must be an ISO datetime")
  match parsed.2 with
  | some offset => datetime (parsed.1 - offset)
  | none => do
    let candidates ← validUtcCandidates zone parsed.1
    required candidates.head? (.value s!"{label} is not a valid local time in timezone_name")

/-- A boundary that may be missing. -/
def boundary (value : Text) (zone : ZoneInfo) (label : String) :
    Except RecurrenceError (Option ℤ) :=
  if value.isEmpty then .ok none else (scheduleBoundary lib value zone label).map some

/-! ## RRULE texts -/

/-- The fields of a rule text. -/
abbrev RruleFields := List (Text × Text)

/-- The rule without its prefix. -/
def rruleText (ruleText : Text) : Text :=
  let text := Text.strip ruleText
  if (lib.upper text).take 6 = "RRULE:".toList then text.drop 6 else text

/-- One segment after the others, with the number of values so far. -/
def rruleSegment (state : RruleFields × ℕ) (segment : Text) :
    Except RecurrenceError (RruleFields × ℕ) := do
  let key := lib.upper (Text.strip (segment.takeWhile (· ≠ '=')))
  let value := lib.upper (Text.strip ((segment.dropWhile (· ≠ '=')).drop 1))
  require (segment.contains '=' && !key.isEmpty && !value.isEmpty &&
    !(state.1.any fun f => f.1 == key)) "rrule must be a valid RFC 5545 recurrence rule"
  let values := state.2 + (value.splitOn ',').length
  require (values ≤ maxRruleListValues) "rrule is too complex"
  return (state.1 ++ [(key, value)], values)

/-- `fields.get(key, "")`. -/
def RruleFields.get (fields : RruleFields) (key : String) : Text :=
  (fields.lookup key.toList).getD []

/-- `int(fields.get(key) or "1")`. -/
def RruleFields.int (fields : RruleFields) (key : String) : Option ℤ :=
  lib.int (if (fields.get key).isEmpty then ['1'] else fields.get key)

/-- `_rrule_fields`. -/
def rruleFields (ruleText : Text) : Except RecurrenceError RruleFields := do
  let text := rruleText lib ruleText
  require (!text.isEmpty && text.length ≤ maxRruleLength && !text.contains '\n' &&
    !text.contains '\r') "rrule is too complex"
  let segments := text.splitOn ';'
  require (segments.length ≤ maxRruleParts) "rrule is too complex"
  let (fields, _) ← segments.foldlM (rruleSegment lib) ([], 0)
  let frequency := fields.get "FREQ"
  require (frequency ≠ "SECONDLY".toList) "rrule cadence must be at least one minute"
  let maxInterval ← required (maxRruleIntervals.lookup frequency)
    (.value "rrule must use a supported RFC 5545 frequency")
  let interval ← required (fields.int lib "INTERVAL")
    (.value "rrule must be a valid RFC 5545 recurrence rule")
  require (1 ≤ interval && interval ≤ maxInterval)
    "rrule INTERVAL is outside the supported range"
  require (((fields.get "BYSECOND").splitOn ',').length ≤ 1)
    "rrule is too complex; subminute expansion is not supported"
  if fields.any (fun f => f.1 == "COUNT".toList) then do
    let count ← required (lib.int (fields.get "COUNT"))
      (.value "rrule must be a valid RFC 5545 recurrence rule")
    require (1 ≤ count && count ≤ maxRruleCount) "rrule COUNT must be between 1 and 10000"
  return fields

/-! ## Normalization -/

/-- The arguments of `normalize_recurrence_spec`. A boundary that is missing is empty. -/
structure RecurrenceInput where
  recurrenceType : Text
  intervalSeconds : Option ℤ
  localTime : Text
  timezoneName : Text
  dstPolicy : Text
  cronExpression : Text
  rrule : Text
  startsAt : Text
  endsAt : Text
  enabled : Bool
  overlapPolicy : Text
  misfireGraceSeconds : ℤ
  catchUpPolicy : Text
  maxCatchUpOccurrences : ℤ
  jitterSeconds : ℤ

/-- A normalized specification. -/
structure RecurrenceSpec where
  recurrenceType : RecurrenceType
  intervalSeconds : ℤ := 0
  localTime : ℤ := 0
  zone : ZoneInfo
  dstPolicy : DstPolicy := .elapsed
  cronExpression : Text := []
  rrule : Text := []
  startsAt : Option ℤ
  endsAt : Option ℤ
  enabled : Bool
  overlapPolicy : OverlapPolicy
  misfireGraceSeconds : ℤ
  catchUpPolicy : CatchUpPolicy
  maxCatchUpOccurrences : ℤ
  jitterSeconds : ℤ

/-- The words of a text. -/
def words (t : Text) : List Text :=
  (t.splitOnP Text.isSpace).filter fun w => !w.isEmpty

/-- The fields that every type has. -/
def commonSpec (d : RecurrenceInput) : Except RecurrenceError RecurrenceSpec := do
  let kind ← required (recurrenceTypes.lookup (Text.lower (Text.strip d.recurrenceType)))
    (.value "recurrence_type must be once, daily, interval, cron, or rfc5545")
  let zone ← timezone lib d.timezoneName
  let overlap ← required (overlapPolicies.lookup (Text.lower (Text.strip d.overlapPolicy)))
    (.value "overlap_policy must be skip or queue")
  let catchUp ← required (catchUpPolicies.lookup (Text.lower (Text.strip d.catchUpPolicy)))
    (.value "catch_up_policy must be skip, bounded, or coalesce")
  require (0 ≤ d.misfireGraceSeconds && d.misfireGraceSeconds ≤ maxMisfireGraceSeconds)
    "misfire_grace_seconds must be between 0 and 604800"
  require (1 ≤ d.maxCatchUpOccurrences && d.maxCatchUpOccurrences ≤ maxCatchUpOccurrences)
    "max_catch_up_occurrences must be between 1 and 10"
  require (0 ≤ d.jitterSeconds && d.jitterSeconds ≤ maxJitterSeconds)
    "jitter_seconds must be between 0 and 900"
  let start ← boundary lib d.startsAt zone "starts_at"
  let finish ← boundary lib d.endsAt zone "ends_at"
  require (!((start.bind fun a => finish.map fun b => decide (b < a)).getD false))
    "ends_at must not be before starts_at"
  return {
    recurrenceType := kind
    zone := zone
    startsAt := start
    endsAt := finish
    enabled := d.enabled
    overlapPolicy := overlap
    misfireGraceSeconds := d.misfireGraceSeconds
    catchUpPolicy := catchUp
    maxCatchUpOccurrences := d.maxCatchUpOccurrences
    jitterSeconds := d.jitterSeconds }

/-- A rule whose first time is an instant on the clock of the zone. -/
def ruleFrom (rrule : Text) (zone : ZoneInfo) (start : ℤ) :
    Except RecurrenceError RecurrenceRule := do
  let dtstart ← localTimeAt zone start
  required (lib.rrulestr rrule dtstart zone)
    (.value "rrule must be a valid RFC 5545 recurrence rule")

/-- A DST policy that the type of the recurrence needs. -/
def parseDstPolicy (value : Text) : Except RecurrenceError DstPolicy :=
  required (dstPolicies.lookup value)
    (.value "DST policy must be next_valid_earliest or next_valid_latest")

/-- `normalize_recurrence_spec`, at a reading of the clock. -/
def normalizeRecurrenceSpec (d : RecurrenceInput) (clock : ℤ) :
    Except RecurrenceError RecurrenceSpec := do
  let spec ← commonSpec lib d
  match spec.recurrenceType with
  | .once => do
    require spec.startsAt.isSome "once recurrence requires starts_at or first_run_at"
    return spec
  | .interval => do
    let seconds := d.intervalSeconds.getD 0
    require (minIntervalSeconds ≤ seconds) "interval_seconds must be at least 60"
    require (seconds ≤ maxIntervalSeconds) "interval_seconds must be at most 31622400"
    require (lib.upper (Text.strip d.timezoneName) = "UTC".toList)
      "interval recurrence uses elapsed UTC time; timezone_name must be UTC"
    return { spec with intervalSeconds := seconds }
  | .cron => do
    let expression := Text.strip d.cronExpression
    require ((words expression).length == 5 && lib.cronIsValid expression)
      "cron_expression must be a valid cron expression"
    let policy ← parseDstPolicy d.dstPolicy
    return { spec with dstPolicy := policy, cronExpression := expression }
  | .rfc5545 => do
    let rule := Text.strip d.rrule
    require (!rule.isEmpty) "rrule is required for rfc5545 recurrence"
    let _ ← rruleFields lib rule
    let _ ← ruleFrom lib rule spec.zone (spec.startsAt.getD clock)
    return { spec with rrule := rule }
  | .daily => do
    let localTime ← parseLocalTime lib d.localTime
    let policy ← parseDstPolicy d.dstPolicy
    return { spec with localTime := localTime, dstPolicy := policy }

end GlassHive.Recurrences
