import GlassHive.EndsAt

/-!
# Accepted recurrences

What the checks of `normalize_recurrence_spec` come to: an input is accepted with a specification
exactly when each of its fields passes its own check.
-/

namespace GlassHive.Recurrences

section Checks

variable (lib : RecurrenceLibrary)

/-- The fields that every type has pass their checks. -/
structure PassesCommon (d : RecurrenceInput) (spec : RecurrenceSpec) : Prop where
  kind : recurrenceTypes.lookup (Text.lower (Text.strip d.recurrenceType)) =
    some spec.recurrenceType
  zone : timezone lib d.timezoneName = .ok spec.zone
  overlap : overlapPolicies.lookup (Text.lower (Text.strip d.overlapPolicy)) =
    some spec.overlapPolicy
  catchUp : catchUpPolicies.lookup (Text.lower (Text.strip d.catchUpPolicy)) =
    some spec.catchUpPolicy
  grace : 0 ≤ d.misfireGraceSeconds ∧ d.misfireGraceSeconds ≤ maxMisfireGraceSeconds
  catchUpLimit : 1 ≤ d.maxCatchUpOccurrences ∧ d.maxCatchUpOccurrences ≤ maxCatchUpOccurrences
  jitter : 0 ≤ d.jitterSeconds ∧ d.jitterSeconds ≤ maxJitterSeconds
  start : boundary lib d.startsAt spec.zone "starts_at" = .ok spec.startsAt
  finish : boundary lib d.endsAt spec.zone "ends_at" = .ok spec.endsAt
  inOrder : ∀ start ∈ spec.startsAt, ∀ finish ∈ spec.endsAt, start ≤ finish
  enabled : spec.enabled = d.enabled
  misfireGraceSeconds : spec.misfireGraceSeconds = d.misfireGraceSeconds
  maxCatchUp : spec.maxCatchUpOccurrences = d.maxCatchUpOccurrences
  jitterSeconds : spec.jitterSeconds = d.jitterSeconds

/-- The fields of the type pass their checks, at a reading of the clock. -/
def PassesKind (d : RecurrenceInput) (clock : ℤ) (spec : RecurrenceSpec) : Prop :=
  match spec.recurrenceType with
  | .once => spec.startsAt.isSome = true ∧ spec.intervalSeconds = 0 ∧ spec.localTime = 0 ∧
      spec.dstPolicy = .elapsed ∧ spec.cronExpression = [] ∧ spec.rrule = []
  | .interval => (minIntervalSeconds ≤ spec.intervalSeconds ∧
        spec.intervalSeconds ≤ maxIntervalSeconds) ∧
      lib.upper (Text.strip d.timezoneName) = "UTC".toList ∧
      spec.intervalSeconds = d.intervalSeconds.getD 0 ∧ spec.localTime = 0 ∧
      spec.dstPolicy = .elapsed ∧ spec.cronExpression = [] ∧ spec.rrule = []
  | .cron => ((words spec.cronExpression).length = 5 ∧
        lib.cronIsValid spec.cronExpression = true) ∧
      parseDstPolicy d.dstPolicy = .ok spec.dstPolicy ∧
      spec.intervalSeconds = 0 ∧ spec.localTime = 0 ∧
      spec.cronExpression = Text.strip d.cronExpression ∧ spec.rrule = []
  | .rfc5545 => spec.rrule ≠ [] ∧ (∃ fields, rruleFields lib spec.rrule = .ok fields) ∧
      (∃ rule, ruleFrom lib spec.rrule spec.zone (spec.startsAt.getD clock) = .ok rule) ∧
      spec.intervalSeconds = 0 ∧ spec.localTime = 0 ∧ spec.dstPolicy = .elapsed ∧
      spec.cronExpression = [] ∧ spec.rrule = Text.strip d.rrule
  | .daily => parseLocalTime lib d.localTime = .ok spec.localTime ∧
      parseDstPolicy d.dstPolicy = .ok spec.dstPolicy ∧ spec.intervalSeconds = 0 ∧
      spec.cronExpression = [] ∧ spec.rrule = []

end Checks

variable {lib : RecurrenceLibrary} {d : RecurrenceInput} {clock : ℤ} {spec : RecurrenceSpec}

/-- A specification without the fields of its type. -/
def RecurrenceSpec.common (spec : RecurrenceSpec) : RecurrenceSpec :=
  { spec with
    intervalSeconds := 0
    localTime := 0
    dstPolicy := .elapsed
    cronExpression := []
    rrule := [] }

theorem passesCommon_common : PassesCommon lib d spec.common ↔ PassesCommon lib d spec := by
  constructor
  · intro h
    exact ⟨h.kind, h.zone, h.overlap, h.catchUp, h.grace, h.catchUpLimit, h.jitter, h.start,
      h.finish, h.inOrder, h.enabled, h.misfireGraceSeconds, h.maxCatchUp, h.jitterSeconds⟩
  · intro h
    exact ⟨h.kind, h.zone, h.overlap, h.catchUp, h.grace, h.catchUpLimit, h.jitter, h.start,
      h.finish, h.inOrder, h.enabled, h.misfireGraceSeconds, h.maxCatchUp, h.jitterSeconds⟩

theorem commonSpec_eq_ok :
    commonSpec lib d = .ok spec ↔ PassesCommon lib d spec ∧ spec.common = spec := by
  have horder : ∀ start finish : Option ℤ,
      (!((start.bind fun a => finish.map fun b => decide (b < a)).getD false)) = true ↔
        ∀ s ∈ start, ∀ f ∈ finish, s ≤ f := by
    intro start finish
    cases start <;> cases finish <;> simp
  simp only [commonSpec, Fallible.bind_eq_ok, required_eq_ok, require_eq_ok, horder,
    Bool.and_eq_true, decide_eq_true_eq]
  constructor
  · rintro ⟨kind, hkind, zone, hzone, overlap, hoverlap, catchUp, hcatchUp, _, hgrace, _, hlimit,
      _, hjitter, start, hstart, finish, hfinish, _, horder, h⟩
    obtain rfl := Except.ok.inj h
    exact ⟨⟨hkind, hzone, hoverlap, hcatchUp, hgrace, hlimit, hjitter, hstart, hfinish, horder,
      rfl, rfl, rfl, rfl⟩, rfl⟩
  · rintro ⟨h, hcommon⟩
    refine ⟨_, h.kind, _, h.zone, _, h.overlap, _, h.catchUp, (), h.grace, (), h.catchUpLimit, (),
      h.jitter, _, h.start, _, h.finish, (), h.inOrder, ?_⟩
    rw [← h.enabled, ← h.misfireGraceSeconds, ← h.maxCatchUp, ← h.jitterSeconds]
    exact congrArg Except.ok hcommon

/-- An input is accepted with a specification exactly when the checks are passed. -/
theorem normalizeRecurrenceSpec_eq_ok :
    normalizeRecurrenceSpec lib d clock = .ok spec ↔
      PassesCommon lib d spec ∧ PassesKind lib d clock spec := by
  simp only [normalizeRecurrenceSpec, Fallible.bind_eq_ok]
  constructor
  · rintro ⟨common, hcommon, h⟩
    obtain ⟨hpasses, hfields⟩ := commonSpec_eq_ok.mp hcommon
    rw [← hfields] at h hpasses
    have hpassesOf : ∀ other : RecurrenceSpec, other.common = common.common →
        PassesCommon lib d other := fun other hother => by
      rw [← passesCommon_common, hother]
      exact hpasses
    cases hkind : common.recurrenceType with
    | once =>
      simp only [RecurrenceSpec.common, hkind, Fallible.bind_eq_ok, require_eq_ok] at h
      obtain ⟨_, hstart, h⟩ := h
      obtain rfl := Except.ok.inj h
      exact ⟨hpassesOf _ (by rw [← hkind]; rfl), hstart, rfl, rfl, rfl, rfl, rfl⟩
    | interval =>
      simp only [RecurrenceSpec.common, hkind, Fallible.bind_eq_ok, require_eq_ok,
        decide_eq_true_eq] at h
      obtain ⟨_, hmin, _, hmax, _, hutc, h⟩ := h
      obtain rfl := Except.ok.inj h
      exact ⟨hpassesOf _ (by rw [← hkind]; rfl), ⟨hmin, hmax⟩, hutc, rfl, rfl, rfl, rfl, rfl⟩
    | cron =>
      simp only [RecurrenceSpec.common, hkind, Fallible.bind_eq_ok, require_eq_ok,
        Bool.and_eq_true, beq_iff_eq] at h
      obtain ⟨_, hvalid, policy, hpolicy, h⟩ := h
      obtain rfl := Except.ok.inj h
      exact ⟨hpassesOf _ (by rw [← hkind]; rfl), hvalid, hpolicy, rfl, rfl, rfl, rfl⟩
    | rfc5545 =>
      simp only [RecurrenceSpec.common, hkind, Fallible.bind_eq_ok, require_eq_ok,
        Bool.not_eq_true', List.isEmpty_eq_false_iff] at h
      obtain ⟨_, hsome, fields, hfields, rule, hrule, h⟩ := h
      obtain rfl := Except.ok.inj h
      exact ⟨hpassesOf _ (by rw [← hkind]; rfl), hsome, ⟨fields, hfields⟩, ⟨rule, hrule⟩, rfl, rfl,
        rfl, rfl, rfl⟩
    | daily =>
      simp only [RecurrenceSpec.common, hkind, Fallible.bind_eq_ok] at h
      obtain ⟨localTime, htime, policy, hpolicy, h⟩ := h
      obtain rfl := Except.ok.inj h
      exact ⟨hpassesOf _ (by rw [← hkind]; rfl), htime, hpolicy, rfl, rfl, rfl⟩
  · rintro ⟨hcommon, hkinds⟩
    refine ⟨spec.common, commonSpec_eq_ok.mpr ⟨passesCommon_common.mpr hcommon, rfl⟩, ?_⟩
    rcases spec with ⟨kind, interval, localTime, zone, policy, cron, rrule, start, finish, enabled,
      overlap, grace, catchUp, limit, jitter⟩
    cases kind with
    | once =>
      obtain ⟨hstart, rfl, rfl, rfl, rfl, rfl⟩ := hkinds
      simp only [RecurrenceSpec.common, Fallible.bind_eq_ok, require_eq_ok]
      exact ⟨(), hstart, rfl⟩
    | interval =>
      obtain ⟨⟨hmin, hmax⟩, hutc, rfl, rfl, rfl, rfl, rfl⟩ := hkinds
      simp only [RecurrenceSpec.common, Fallible.bind_eq_ok, require_eq_ok, decide_eq_true_eq]
      exact ⟨(), hmin, (), hmax, (), hutc, rfl⟩
    | cron =>
      obtain ⟨hvalid, hpolicy, rfl, rfl, rfl, rfl⟩ := hkinds
      simp only [RecurrenceSpec.common, Fallible.bind_eq_ok, require_eq_ok, Bool.and_eq_true,
        beq_iff_eq]
      exact ⟨(), hvalid, policy, hpolicy, rfl⟩
    | rfc5545 =>
      obtain ⟨hsome, ⟨fields, hfields⟩, ⟨rule, hrule⟩, rfl, rfl, rfl, rfl, rfl⟩ := hkinds
      simp only [RecurrenceSpec.common, Fallible.bind_eq_ok, require_eq_ok, Bool.not_eq_true',
        List.isEmpty_eq_false_iff]
      exact ⟨(), hsome, fields, hfields, rule, hrule, rfl⟩
    | daily =>
      obtain ⟨htime, hpolicy, rfl, rfl, rfl⟩ := hkinds
      simp only [RecurrenceSpec.common, Fallible.bind_eq_ok]
      exact ⟨localTime, htime, policy, hpolicy, rfl⟩

end GlassHive.Recurrences
