import GlassHive.FirstOccurrences

/-!
# Stored recurrences

A schedule stores the fields that `normalize_recurrence_spec` returns, and every tick normalizes
them again. A new schedule that follows a cron expression or a rule is also given its time of
creation as its start; a changed one is not, so that a rule without a start is checked at another
time on each tick.
-/

namespace GlassHive.Recurrences

/-! ## The fields that are stored -/

/-- A number with leading zeros. -/
def padded (length n : ℕ) : Text :=
  (Nat.toDigits 10 n).leftpad length '0'

/-- `datetime.isoformat`, of an instant in UTC. -/
def isoformat (t : ℤ) : Text :=
  let date := Calendar.civil (t / day)
  let micros := (t % day).toNat
  let second := micros / 1000000
  padded 4 date.year.toNat ++ '-' :: padded 2 date.month ++ '-' :: padded 2 date.day ++
    'T' :: padded 2 (second / 3600) ++ ':' :: padded 2 (second / 60 % 60) ++
    ':' :: padded 2 (second % 60) ++
    (if micros % 1000000 = 0 then [] else '.' :: padded 6 (micros % 1000000)) ++ "+00:00".toList

/-- `time.strftime("%H:%M")`. -/
def strftime (t : ℤ) : Text :=
  padded 2 (t / hour).toNat ++ ':' :: padded 2 (t % hour / minute).toNat

/-- The fields that `normalize_recurrence_spec` returns. -/
def normalizedFields (d : RecurrenceInput) (spec : RecurrenceSpec) : RecurrenceInput where
  recurrenceType := Text.lower (Text.strip d.recurrenceType)
  intervalSeconds := if spec.recurrenceType = .interval then some spec.intervalSeconds else none
  localTime := if spec.recurrenceType = .daily then strftime spec.localTime else []
  timezoneName :=
    if spec.recurrenceType = .interval then "UTC".toList else Text.strip d.timezoneName
  dstPolicy :=
    if spec.recurrenceType = .cron ∨ spec.recurrenceType = .daily then d.dstPolicy
    else "elapsed".toList
  cronExpression := spec.cronExpression
  rrule := spec.rrule
  startsAt := (spec.startsAt.map isoformat).getD []
  endsAt := (spec.endsAt.map isoformat).getD []
  enabled := spec.enabled
  overlapPolicy := Text.lower (Text.strip d.overlapPolicy)
  misfireGraceSeconds := spec.misfireGraceSeconds
  catchUpPolicy := Text.lower (Text.strip d.catchUpPolicy)
  maxCatchUpOccurrences := spec.maxCatchUpOccurrences
  jitterSeconds := spec.jitterSeconds

/-- The fields as `_spec_from_definition` passes them on. -/
def coalesced (d : RecurrenceInput) : RecurrenceInput :=
  { d with
    timezoneName := orText d.timezoneName "UTC"
    dstPolicy := orText d.dstPolicy "next_valid_earliest"
    overlapPolicy := orText d.overlapPolicy "skip"
    catchUpPolicy := orText d.catchUpPolicy "coalesce"
    maxCatchUpOccurrences := if d.maxCatchUpOccurrences = 0 then 1 else d.maxCatchUpOccurrences }

/-- A specification that `create_recurring_schedule` gives its time of creation as a start. -/
def RecurrenceSpec.startedAt (spec : RecurrenceSpec) (creation : ℤ) : RecurrenceSpec :=
  if spec.startsAt = none ∧ (spec.recurrenceType = .cron ∨ spec.recurrenceType = .rfc5545) then
    { spec with startsAt := some creation }
  else spec

variable (lib : RecurrenceLibrary)

/-- The specifications of the schedules that an input leads to: a change stores what the input is
normalized to, and a creation that finds a first occurrence stores it with its start. -/
inductive Persisted (d : RecurrenceInput) (clock : ℤ) : RecurrenceSpec → Prop
  | updated {spec : RecurrenceSpec} (hspec : normalizeRecurrenceSpec lib d clock = .ok spec) :
      Persisted d clock spec
  | created {spec : RecurrenceSpec} (hspec : normalizeRecurrenceSpec lib d clock = .ok spec)
      (creation first : ℤ) (firstRunAt : Text) (hcreation : datetime creation = .ok creation)
      (hfirst : firstOccurrenceAt lib (spec.startedAt creation) firstRunAt creation = .ok first) :
      Persisted d clock (spec.startedAt creation)

/-- What the fields of a definition are normalized to, on a tick. -/
def fieldsFromDefinition (definition : RecurrenceDefinition) (clock : ℤ) :
    Except RecurrenceError RecurrenceInput :=
  (specFromDefinition lib definition clock).map (normalizedFields (coalesced definition.input))

/-- The libraries read the texts that are stored for a specification. -/
structure ReadsBack (spec : RecurrenceSpec) : Prop where
  start : ∀ t ∈ spec.startsAt, lib.datetimeFromisoformat (isoformat t) = some (t, some 0)
  finish : ∀ t ∈ spec.endsAt, lib.datetimeFromisoformat (isoformat t) = some (t, some 0)
  time : spec.recurrenceType = .daily →
    lib.timeFromisoformat (strftime spec.localTime) = some (spec.localTime, false)
  timeOfDay : ∀ text t named, lib.timeFromisoformat text = some (t, named) → 0 ≤ t ∧ t < day
  utc : ∃ zone, lib.zoneInfo "UTC".toList = some zone
  upper : lib.upper "UTC".toList = "UTC".toList

/-- The stored start does not lie after the end, and the rule is valid from the start, or from the
time of the tick where there is no start. -/
structure StaysValid (spec : RecurrenceSpec) (clock : ℤ) : Prop where
  inOrder : ∀ start ∈ spec.startsAt, ∀ finish ∈ spec.endsAt, start ≤ finish
  rule : spec.recurrenceType = .rfc5545 →
    ∃ rule, ruleFrom lib spec.rrule spec.zone (spec.startsAt.getD clock) = .ok rule

/-! ## Texts that are read back -/

section Texts

variable {lib} {t : ℤ} {β : Type} {key : Text} {c : Char}

theorem strip_strip (text : Text) : Text.strip (Text.strip text) = Text.strip text :=
  (Text.trimmed_strip text).strip_eq

theorem mem_of_lookup {entries : List (Text × β)} {value : β} (h : entries.lookup key = some value) :
    (key, value) ∈ entries := by
  obtain ⟨l, l', rfl, -⟩ := List.lookup_eq_some_iff.mp h
  simp

/-- The names of types and policies are trimmed texts in lower case. -/
theorem lower_strip_of_lookup {entries : List (Text × β)} {value : β}
    (hnames : ∀ entry ∈ entries, Text.lower (Text.strip entry.1) = entry.1)
    (h : entries.lookup key = some value) : Text.lower (Text.strip key) = key :=
  hnames _ (mem_of_lookup h)

/-- The characters of a text that is written for a time. -/
def isTimeChar (c : Char) : Bool :=
  c.isDigit || c == '-' || c == 'T' || c == ':' || c == '.' || c == '+'

theorem isTimeChar_of_mem_padded {length n : ℕ} (h : c ∈ padded length n) :
    isTimeChar c = true := by
  rw [padded, List.leftpad, List.mem_append] at h
  rcases h with h | h
  · rw [List.eq_of_mem_replicate h]
    decide
  · have hdigit : c.isDigit = true := Nat.isDigit_of_mem_toDigits (by decide) (by decide) h
    simp [isTimeChar, hdigit]

theorem isTimeChar_of_mem_isoformat : ∀ c ∈ isoformat t, isTimeChar c = true := by
  have hutc : ∀ c ∈ "+00:00".toList, isTimeChar c = true := by simp [isTimeChar]
  have hpadded : ∀ length n, ∀ c ∈ padded length n, isTimeChar c = true :=
    fun _ _ _ => isTimeChar_of_mem_padded
  have hmicros : ∀ n, ∀ c ∈ (if n % 1000000 = 0 then [] else '.' :: padded 6 (n % 1000000)),
      isTimeChar c = true := by
    intro n c hc
    split at hc
    · exact absurd hc List.not_mem_nil
    · rcases List.mem_cons.mp hc with rfl | hc
      · decide
      · exact hpadded _ _ c hc
  simp only [isoformat, List.forall_mem_append, List.forall_mem_cons]
  refine ⟨⟨⟨⟨⟨⟨⟨hpadded _ _, ?_, hpadded _ _⟩, ?_, hpadded _ _⟩, ?_, hpadded _ _⟩, ?_,
    hpadded _ _⟩, ?_, hpadded _ _⟩, hmicros _⟩, hutc⟩
  all_goals rfl

theorem isTimeChar_of_mem_strftime : ∀ c ∈ strftime t, isTimeChar c = true := by
  simp only [strftime, List.forall_mem_append, List.forall_mem_cons]
  exact ⟨fun c => isTimeChar_of_mem_padded, by decide, fun c => isTimeChar_of_mem_padded⟩

theorem isSpace_of_isTimeChar (h : isTimeChar c = true) : Text.isSpace c = false := by
  simp only [isTimeChar, Bool.or_eq_true, beq_iff_eq] at h
  rcases h with ((((h | rfl) | rfl) | rfl) | rfl) | rfl
  · simp only [Char.isDigit, Bool.and_eq_true, decide_eq_true_eq, ge_iff_le, UInt32.le_iff_toNat_le] at h
    have hlow : 48 ≤ c.toNat := h.1
    have hhigh : c.toNat ≤ 57 := h.2
    simp only [Text.isSpace]
    simp
    omega
  all_goals decide

theorem strip_of_isTimeChar {text : Text} (h : ∀ c ∈ text, isTimeChar c = true) :
    Text.strip text = text := by
  refine Text.Trimmed.strip_eq ⟨fun c hc => ?_, fun c hc => ?_⟩
  · exact isSpace_of_isTimeChar (h c (List.mem_of_mem_head? hc))
  · exact isSpace_of_isTimeChar (h c (List.mem_of_getLast? hc))

theorem withOffset_isoformat : withOffset (isoformat t) = isoformat t := by
  have hchars : ∀ text : Text, (∀ c ∈ text, isTimeChar c = true) → withOffset text = text := by
    intro text htext
    rw [withOffset]
    conv_rhs => rw [← List.flatMap_singleton' text]
    refine List.flatMap_congr fun c hc => ?_
    have hne : c ≠ 'Z' := by
      rintro rfl
      exact absurd (htext _ hc) (by decide)
    rw [if_neg hne]
  exact hchars _ isTimeChar_of_mem_isoformat

theorem isoformat_ne_nil : (isoformat t).isEmpty = false := by
  rw [List.isEmpty_eq_false_iff]
  intro h
  have hmem : 'T' ∈ isoformat t := by simp [isoformat]
  rw [h] at hmem
  exact absurd hmem List.not_mem_nil

theorem length_strftime (h0 : 0 ≤ t) (hday : t < day) : (strftime t).length = 5 := by
  have htwo : ∀ n < 60, (padded 2 n).length = 2 := by decide +kernel
  have hhours : (t / hour).toNat < 60 := by
    simp only [day, hour, minute] at hday ⊢
    omega
  have hminutes : (t % hour / minute).toNat < 60 := by
    simp only [hour, minute]
    omega
  simp [strftime, htwo _ hhours, htwo _ hminutes]

end Texts

/-! ## Fields that are checked again -/

section Fields

variable {lib} {d : RecurrenceInput} {clock later t : ℤ} {spec : RecurrenceSpec} {zone : ZoneInfo}
  {text : Text} {found : Option ℤ}

theorem datetime_self {u : ℤ} (h : datetime t = .ok u) : datetime u = .ok u := by
  obtain rfl := datetime_eq_ok h
  exact h

theorem datetime_of_mem_validUtcCandidates {localValue : ℤ} {candidates : List ℤ}
    (h : validUtcCandidates zone localValue = .ok candidates) (ht : t ∈ candidates) :
    datetime t = .ok t := by
  have hcandidate : ∀ fold u, validUtcCandidate zone localValue fold = .ok (some u) →
      datetime u = .ok u := by
    intro fold u hu
    simp only [validUtcCandidate, Fallible.bind_eq_ok] at hu
    obtain ⟨candidate, hcandidate, shown, -, hu⟩ := hu
    have heq := Except.ok.inj hu
    split at heq
    · obtain rfl := Option.some.inj heq
      exact datetime_self hcandidate
    · cases heq
  simp only [validUtcCandidates, Fallible.bind_eq_ok] at h
  obtain ⟨first, hfirst, second, hsecond, h⟩ := h
  obtain rfl := Except.ok.inj h
  cases first with
  | none =>
    cases second with
    | none => exact absurd ht List.not_mem_nil
    | some b => exact List.mem_singleton.mp ht ▸ hcandidate true b hsecond
  | some a =>
    have ha := hcandidate false a hfirst
    cases second with
    | none => exact List.mem_singleton.mp ht ▸ ha
    | some b =>
      have hb := hcandidate true b hsecond
      dsimp only at ht
      split at ht
      · exact List.mem_singleton.mp ht ▸ ha
      · rcases le_total a b with hab | hba
        · rw [min_eq_left hab, max_eq_right hab] at ht
          rcases List.mem_pair.mp ht with rfl | rfl
          · exact ha
          · exact hb
        · rw [min_eq_right hba, max_eq_left hba] at ht
          rcases List.mem_pair.mp ht with rfl | rfl
          · exact hb
          · exact ha

/-- A boundary that is read is an instant of the calendar. -/
theorem datetime_of_boundary {label : String} (h : boundary lib text zone label = .ok found) :
    ∀ t ∈ found, datetime t = .ok t := by
  unfold boundary at h
  split at h
  · obtain rfl := Except.ok.inj h
    exact fun t ht => absurd ht (Option.not_mem_none t)
  · obtain ⟨t, ht, rfl⟩ := Fallible.map_eq_ok.mp h
    rintro u hu
    obtain rfl := Option.some.inj hu
    simp only [scheduleBoundary, Fallible.bind_eq_ok] at ht
    obtain ⟨parsed, -, ht⟩ := ht
    split at ht
    · exact datetime_self ht
    · obtain ⟨candidates, hcandidates, ht⟩ := Fallible.bind_eq_ok.mp ht
      exact datetime_of_mem_validUtcCandidates hcandidates
        (List.mem_of_mem_head? (required_eq_ok.mp ht))

/-- A boundary that is written is read as it was. -/
theorem boundary_isoformat
    (hread : ∀ t ∈ found, lib.datetimeFromisoformat (isoformat t) = some (t, some 0))
    (hfound : ∀ t ∈ found, datetime t = .ok t) (zone : ZoneInfo) (label : String) :
    boundary lib ((found.map isoformat).getD []) zone label = .ok found := by
  cases found with
  | none => rfl
  | some t =>
    have ht := hfound t rfl
    have hboundary : scheduleBoundary lib (isoformat t) zone label = .ok t := by
      rw [scheduleBoundary, strip_of_isTimeChar isTimeChar_of_mem_isoformat,
        withOffset_isoformat, hread t rfl]
      simpa [required, bind, Except.bind] using ht
    simp [boundary, isoformat_ne_nil, hboundary, Except.map]

theorem parseLocalTime_strftime
    (hday : ∀ text t named, lib.timeFromisoformat text = some (t, named) → 0 ≤ t ∧ t < day)
    (hread : lib.timeFromisoformat (strftime t) = some (t, false))
    (h : parseLocalTime lib text = .ok t) : parseLocalTime lib (strftime t) = .ok t := by
  simp only [parseLocalTime, Fallible.bind_eq_ok, required_eq_ok, require_eq_ok] at h
  obtain ⟨⟨time, named⟩, hparsed, _, hchecks, h⟩ := h
  obtain rfl : time = t := Except.ok.inj h
  simp only [Bool.and_eq_true, Bool.not_eq_true', beq_iff_eq] at hchecks
  obtain ⟨h0, hlt⟩ := hday _ _ _ hparsed
  simp only [parseLocalTime, Fallible.bind_eq_ok, required_eq_ok, require_eq_ok,
    strip_of_isTimeChar isTimeChar_of_mem_strftime]
  refine ⟨(time, false), hread, (), ?_, rfl⟩
  simp [hchecks.1.2, length_strftime h0 hlt]

theorem timezone_strip (name : Text) : timezone lib (Text.strip name) = timezone lib name := by
  rw [timezone, timezone, strip_strip]

theorem timezone_utc (hutc : ∃ zone, lib.zoneInfo "UTC".toList = some zone) :
    ∃ zone, timezone lib "UTC".toList = .ok zone := by
  obtain ⟨zone, hzone⟩ := hutc
  refine ⟨zone, ?_⟩
  have hstrip : Text.strip "UTC".toList = "UTC".toList := by decide
  rw [timezone, hstrip, hzone]
  rfl

/-- A persisted specification is the normalized one, but perhaps for its start. -/
theorem Persisted.exists_base {persisted : RecurrenceSpec} (h : Persisted lib d clock persisted) :
    ∃ base start, normalizeRecurrenceSpec lib d clock = .ok base ∧
      persisted = { base with startsAt := start } ∧ (∀ t ∈ start, datetime t = .ok t) ∧
      (start = base.startsAt ∨ base.recurrenceType = .cron ∨ base.recurrenceType = .rfc5545) := by
  have hsame : ∀ base, normalizeRecurrenceSpec lib d clock = .ok base →
      ∀ t ∈ base.startsAt, datetime t = .ok t := fun base hbase =>
    datetime_of_boundary (normalizeRecurrenceSpec_eq_ok.mp hbase).1.start
  cases h with
  | updated hspec => exact ⟨_, _, hspec, rfl, hsame _ hspec, Or.inl rfl⟩
  | @created base hspec creation first firstRunAt hcreation hfirst =>
    unfold RecurrenceSpec.startedAt
    split
    · rename_i hstarted
      refine ⟨base, some creation, hspec, rfl, fun t ht => ?_, Or.inr hstarted.2⟩
      obtain rfl := Option.some.inj ht
      exact hcreation
    · exact ⟨base, _, hspec, rfl, hsame _ hspec, Or.inl rfl⟩

theorem orText_eq_self (h : text ≠ []) (default : String) : orText text default = text := by
  rw [orText, if_neg (by simpa using h)]

theorem ne_nil_of_lookup {β : Type} {entries : List (Text × β)} {key : Text} {value : β}
    (hnames : ∀ entry ∈ entries, entry.1 ≠ []) (h : entries.lookup key = some value) : key ≠ [] :=
  hnames _ (mem_of_lookup h)

theorem dstPolicy_ne_nil {policy : DstPolicy} (h : parseDstPolicy text = .ok policy) : text ≠ [] :=
  ne_nil_of_lookup (by decide) (required_eq_ok.mp h)

/-- No stored field falls back to a default when it is read. -/
theorem coalesced_normalizedFields (hcommon : PassesCommon lib d spec)
    (hkind : PassesKind lib d clock spec) :
    coalesced (normalizedFields d spec) = normalizedFields d spec := by
  have hzone : Text.strip d.timezoneName ≠ [] := by
    have hchecked := hcommon.zone
    simp only [timezone, Fallible.bind_eq_ok, require_eq_ok] at hchecked
    obtain ⟨_, hsome, -⟩ := hchecked
    simpa using hsome
  have hpolicy : (normalizedFields d spec).dstPolicy ≠ [] := by
    simp only [normalizedFields]
    split
    · rename_i hpolicy
      rcases hpolicy with hcron | hdaily
      · rw [PassesKind, hcron] at hkind
        exact dstPolicy_ne_nil hkind.2.1
      · rw [PassesKind, hdaily] at hkind
        exact dstPolicy_ne_nil hkind.2.1
    · decide
  have hname : (normalizedFields d spec).timezoneName ≠ [] := by
    simp only [normalizedFields]
    split
    · decide
    · exact hzone
  have hoverlap : (normalizedFields d spec).overlapPolicy ≠ [] :=
    ne_nil_of_lookup (by decide) hcommon.overlap
  have hcatchUp : (normalizedFields d spec).catchUpPolicy ≠ [] :=
    ne_nil_of_lookup (by decide) hcommon.catchUp
  have hlimit : (normalizedFields d spec).maxCatchUpOccurrences ≠ 0 := by
    have hpositive := hcommon.catchUpLimit.1
    simp only [normalizedFields, hcommon.maxCatchUp]
    omega
  rw [coalesced, orText_eq_self hname, orText_eq_self hpolicy, orText_eq_self hoverlap,
    orText_eq_self hcatchUp, if_neg hlimit]

/-- The fields of a specification are the fields of these. -/
theorem normalizedFields_normalizedFields (zone : ZoneInfo) :
    normalizedFields (normalizedFields d spec) { spec with zone := zone } =
      { normalizedFields d spec with
        recurrenceType := Text.lower (Text.strip (Text.lower (Text.strip d.recurrenceType)))
        overlapPolicy := Text.lower (Text.strip (Text.lower (Text.strip d.overlapPolicy)))
        catchUpPolicy := Text.lower (Text.strip (Text.lower (Text.strip d.catchUpPolicy))) } := by
  simp only [normalizedFields, RecurrenceInput.mk.injEq, and_true, true_and]
  constructor
  · split
    · rfl
    · exact strip_strip _
  · split <;> rfl

end Fields

/-! ## Ticks on stored fields -/

section Ticks

variable {lib} {d : RecurrenceInput} {clock later : ℤ} {base : RecurrenceSpec} {start : Option ℤ}
  (hlib : ReadsBack lib { base with startsAt := start })
  (hbase : normalizeRecurrenceSpec lib d clock = .ok base)
  (hrange : ∀ t ∈ start, datetime t = .ok t)

include hlib hbase hrange

/-- The specification that stored fields are normalized to has their zone, type, rule and
boundaries. -/
theorem eq_of_normalized {found : RecurrenceSpec}
    (hfound : normalizeRecurrenceSpec lib
      (normalizedFields d { base with startsAt := start }) later = .ok found) :
    found.recurrenceType = base.recurrenceType ∧
      (base.recurrenceType ≠ .interval → found.zone = base.zone) ∧ found.startsAt = start ∧
      found.endsAt = base.endsAt := by
  obtain ⟨hcommon, -⟩ := normalizeRecurrenceSpec_eq_ok.mp hbase
  obtain ⟨hcommon', -⟩ := normalizeRecurrenceSpec_eq_ok.mp hfound
  have hkind := hcommon'.kind
  have hzone := hcommon'.zone
  have hstart := hcommon'.start
  have hfinish := hcommon'.finish
  simp only [normalizedFields] at hkind hzone hstart hfinish
  rw [lower_strip_of_lookup (by decide) hcommon.kind, hcommon.kind] at hkind
  rw [boundary_isoformat hlib.start hrange] at hstart
  rw [boundary_isoformat hlib.finish (datetime_of_boundary hcommon.finish)] at hfinish
  refine ⟨(Option.some.inj hkind).symm, fun hnot => ?_, (Except.ok.inj hstart).symm,
    (Except.ok.inj hfinish).symm⟩
  rw [if_neg hnot, timezone_strip, hcommon.zone] at hzone
  exact (Except.ok.inj hzone).symm

/-- Stored fields that stay valid pass all checks again. -/
theorem normalized_of_staysValid
    (hstarted : start = base.startsAt ∨ base.recurrenceType = .cron ∨
      base.recurrenceType = .rfc5545)
    (h : StaysValid lib { base with startsAt := start } later) :
    ∃ zone, normalizeRecurrenceSpec lib (normalizedFields d { base with startsAt := start }) later =
      .ok { base with
        startsAt := start
        zone := zone } := by
  obtain ⟨hcommon, hkinds⟩ := normalizeRecurrenceSpec_eq_ok.mp hbase
  have hzone : ∃ zone, timezone lib
      (normalizedFields d { base with startsAt := start }).timezoneName = .ok zone ∧
      (base.recurrenceType ≠ .interval → zone = base.zone) := by
    simp only [normalizedFields]
    split
    · rename_i hinterval
      obtain ⟨zone, hzone⟩ := timezone_utc hlib.utc
      exact ⟨zone, hzone, fun hnot => absurd hinterval hnot⟩
    · exact ⟨base.zone, by rw [timezone_strip, hcommon.zone], fun _ => rfl⟩
  obtain ⟨zone, hzone, hsame⟩ := hzone
  refine ⟨zone, normalizeRecurrenceSpec_eq_ok.mpr ⟨?_, ?_⟩⟩
  · refine ⟨?_, hzone, ?_, ?_, ?_, ?_, ?_, boundary_isoformat hlib.start hrange _ _,
      boundary_isoformat hlib.finish (datetime_of_boundary hcommon.finish) _ _, h.inOrder, rfl, rfl, rfl,
      rfl⟩
    · simp only [normalizedFields, lower_strip_of_lookup (by decide) hcommon.kind, hcommon.kind]
    · simp only [normalizedFields, lower_strip_of_lookup (by decide) hcommon.overlap,
        hcommon.overlap]
    · simp only [normalizedFields, lower_strip_of_lookup (by decide) hcommon.catchUp,
        hcommon.catchUp]
    · simp only [normalizedFields, hcommon.misfireGraceSeconds]
      exact hcommon.grace
    · simp only [normalizedFields, hcommon.maxCatchUp]
      exact hcommon.catchUpLimit
    · simp only [normalizedFields, hcommon.jitterSeconds]
      exact hcommon.jitter
  · cases hkind : base.recurrenceType with
    | once =>
      simp only [PassesKind, hkind] at hkinds hstarted ⊢
      rcases hstarted with rfl | hcron | hrule
      · exact hkinds
      · cases hcron
      · cases hrule
    | interval =>
      simp only [PassesKind, normalizedFields, hkind, if_true] at hkinds ⊢
      obtain ⟨hbounds, -, -, hrest⟩ := hkinds
      have hstrip : Text.strip "UTC".toList = "UTC".toList := by decide
      exact ⟨hbounds, by rw [hstrip, hlib.upper], rfl, hrest⟩
    | cron =>
      simp only [PassesKind, normalizedFields, hkind, true_or, if_true] at hkinds ⊢
      obtain ⟨hvalid, hpolicy, hinterval, htime, hcron, hrule⟩ := hkinds
      exact ⟨hvalid, hpolicy, hinterval, htime, by rw [hcron, strip_strip], hrule⟩
    | rfc5545 =>
      simp only [PassesKind, normalizedFields, hkind] at hkinds ⊢
      obtain ⟨hsome, hfields, -, hinterval, htime, hpolicy, hcron, hrule⟩ := hkinds
      have hnot : base.recurrenceType ≠ .interval := by rw [hkind]; decide
      rw [hsame hnot]
      exact ⟨hsome, hfields, h.rule hkind, hinterval, htime, hpolicy, hcron,
        by rw [hrule, strip_strip]⟩
    | daily =>
      simp only [PassesKind, normalizedFields, hkind, or_true, if_true] at hkinds ⊢
      obtain ⟨htime, hpolicy, hrest⟩ := hkinds
      exact ⟨parseLocalTime_strftime hlib.timeOfDay (hlib.time hkind) htime, hpolicy, hrest⟩

end Ticks

/-- On a tick the stored fields are normalized to themselves exactly when they are still valid. -/
theorem fieldsFromDefinition_stored_iff (lib : RecurrenceLibrary) (d : RecurrenceInput) (clock : ℤ)
    (spec : RecurrenceSpec) (hspec : Persisted lib d clock spec) (hlib : ReadsBack lib spec)
    (nextRunAt : Text) (later : ℤ) :
    fieldsFromDefinition lib ⟨normalizedFields d spec, nextRunAt⟩ later =
      .ok (normalizedFields d spec) ↔ StaysValid lib spec later := by
  obtain ⟨base, start, hbase, rfl, hrange, hstarted⟩ := hspec.exists_base
  obtain ⟨hcommon, hkinds⟩ := normalizeRecurrenceSpec_eq_ok.mp hbase
  have hcoalesced : coalesced (normalizedFields d { base with startsAt := start }) =
      normalizedFields d { base with startsAt := start } := by
    have hfields := coalesced_normalizedFields hcommon hkinds
    exact congrArg (fun f : RecurrenceInput =>
      { f with startsAt := (start.map isoformat).getD [] }) hfields
  have hread : specFromDefinition lib ⟨normalizedFields d { base with startsAt := start },
      nextRunAt⟩ later = normalizeRecurrenceSpec lib
        (normalizedFields d { base with startsAt := start }) later :=
    congrArg (fun f => normalizeRecurrenceSpec lib f later) hcoalesced
  rw [fieldsFromDefinition, hread, Fallible.map_eq_ok]
  constructor
  · rintro ⟨found, hfound, -⟩
    obtain ⟨hkind, hzone, hstart, hfinish⟩ := eq_of_normalized hlib hbase hrange hfound
    obtain ⟨hcommon', hkinds'⟩ := normalizeRecurrenceSpec_eq_ok.mp hfound
    refine ⟨?_, fun hrule => ?_⟩
    · rw [← hstart, ← hfinish]
      exact hcommon'.inOrder
    · have hnot : base.recurrenceType ≠ .interval := by
        intro hinterval
        rw [hinterval] at hrule
        cases hrule
      have hrule' : base.recurrenceType = .rfc5545 := hrule
      rw [PassesKind, hkind, hrule'] at hkinds'
      rw [PassesKind, hrule'] at hkinds
      obtain ⟨-, -, hvalid, -, -, -, -, htext⟩ := hkinds'
      have hsame : found.rrule = base.rrule := by
        rw [htext, normalizedFields, hkinds.2.2.2.2.2.2.2, strip_strip]
      rw [hsame, hzone hnot, hstart] at hvalid
      exact hvalid
  · intro h
    obtain ⟨zone, hzone⟩ := normalized_of_staysValid hlib hbase hrange hstarted h
    refine ⟨_, hzone, ?_⟩
    rw [hcoalesced, normalizedFields_normalizedFields,
      lower_strip_of_lookup (by decide) hcommon.kind,
      lower_strip_of_lookup (by decide) hcommon.overlap,
      lower_strip_of_lookup (by decide) hcommon.catchUp]
    rfl

/-! ## A rule that only some hours accept -/

/-- The libraries, as far as the rule `FREQ=HOURLY;INTERVAL=2;BYHOUR=1` calls them in UTC. From an
odd hour it has one occurrence a day; from an even hour it has none, and is refused. -/
def oddHours : RecurrenceLibrary :=
  { utcLibrary with
    int := fun text => if text = ['2'] then some 2 else none
    rrulestr := fun _ dtstart _ =>
      let first := hour + dtstart % hour
      if dtstart / hour % 2 = 1 then some {
        counts := false
        bound := none
        after := fun reference inclusive => match reference with
          | .instant t => some
              (first - (first - max dtstart (if inclusive then t else t + 1)) / day * day)
          | .bound => none
        before := fun reference inclusive => match reference with
          | .instant t =>
            let found := first + ((if inclusive then t else t - 1) - first) / day * day
            if dtstart ≤ found then some found else none
          | .bound => none }
      else none }

/-- That rule, without a start. -/
def everyOtherHour : RecurrenceInput :=
  { hourly.input with
    recurrenceType := "rfc5545".toList
    rrule := "FREQ=HOURLY;INTERVAL=2;BYHOUR=1".toList
    startsAt := []
    endsAt := [] }

/-- Its specification. -/
def everyOtherHourSpec : RecurrenceSpec :=
  { minutelyFromNine with
    recurrenceType := .rfc5545
    dstPolicy := .elapsed
    cronExpression := []
    rrule := "FREQ=HOURLY;INTERVAL=2;BYHOUR=1".toList
    startsAt := none }

/-- What is stored for it by a change at nine. -/
def everyOtherHourDefinition : RecurrenceDefinition where
  input := normalizedFields everyOtherHour everyOtherHourSpec
  nextRunAt := isoformat (nine + 16 * hour)

theorem persisted_everyOtherHour : Persisted oddHours everyOtherHour nine everyOtherHourSpec :=
  .updated rfl

/-- It is accepted at nine and fails on a tick at ten. -/
theorem fieldsFromDefinition_at_ten :
    Persisted oddHours everyOtherHour nine everyOtherHourSpec ∧
      fieldsFromDefinition oddHours everyOtherHourDefinition (nine + hour) ≠
        .ok everyOtherHourDefinition.input := by
  refine ⟨persisted_everyOtherHour, fun h => ?_⟩
  have hnone : (fieldsFromDefinition oddHours everyOtherHourDefinition
      (nine + hour)).toOption.isNone = true := by
    decide +kernel
  rw [h] at hnone
  cases hnone

/-- It is normalized to itself on a tick at eleven. -/
theorem fieldsFromDefinition_at_eleven :
    fieldsFromDefinition oddHours everyOtherHourDefinition (nine + 2 * hour) =
      .ok everyOtherHourDefinition.input := by
  refine (fieldsFromDefinition_stored_iff oddHours everyOtherHour nine everyOtherHourSpec
    persisted_everyOtherHour ⟨?_, ?_, ?_, ?_, ⟨_, rfl⟩, by decide⟩ _ (nine + 2 * hour)).mpr
      ⟨?_, fun _ => ⟨_, rfl⟩⟩
  · exact fun t ht => absurd ht (Option.not_mem_none t)
  · exact fun t ht => absurd ht (Option.not_mem_none t)
  · exact fun hdaily => by cases hdaily
  · exact fun text t named h => by cases h
  · exact fun t ht => absurd ht (Option.not_mem_none t)

end GlassHive.Recurrences
