import GlassHive.Library.ReadWrite
import GlassHive.Library.Table
import GlassHive.Library.Text

/-!
# Preferences of a user

An update reads the row of the owner, puts its fields over it and writes the whole row in a
transaction of its own. Of two updates that overlap, the fields of the one that writes first are
lost, unless the row had their values before.
-/

namespace GlassHive.UserPreferences

open Relational ReadWrite

/-! ## Rows -/

structure Preferences where
  defaultWorkerProfile : Text := []
  codexReasoningEffort : Text := []
  claudeEffort : Text := []
  openclawEffort : Text := []
  updatedAt : Text := []
  deriving DecidableEq

/-- The arguments of an update, with what the clock reads during the call. -/
structure PreferenceCall where
  tenantId : Text
  ownerId : Text
  defaultWorkerProfile : Option Text := none
  codexReasoningEffort : Option Text := none
  claudeEffort : Option Text := none
  openclawEffort : Option Text := none
  now : Text

/-- The rows by tenant and owner. -/
abbrev PreferenceTable := Table (Text × Text) Preferences

def tenantOrLocal (tenantId : Text) : Text :=
  if tenantId = [] then "local".toList else tenantId

def getUserPreferences (t : PreferenceTable) (tenantId ownerId : Text) : Option Preferences :=
  t.get? (tenantOrLocal tenantId, ownerId)

def PreferenceCall.key (c : PreferenceCall) : Text × Text :=
  (tenantOrLocal c.tenantId, c.ownerId)

/-- The reading step: the row that the call will write. -/
def mergedPreferences (c : PreferenceCall) (t : PreferenceTable) : Preferences :=
  let existing := (getUserPreferences t c.tenantId c.ownerId).getD {}
  { defaultWorkerProfile := c.defaultWorkerProfile.getD existing.defaultWorkerProfile
    codexReasoningEffort := c.codexReasoningEffort.getD existing.codexReasoningEffort
    claudeEffort := c.claudeEffort.getD existing.claudeEffort
    openclawEffort := c.openclawEffort.getD existing.openclawEffort
    updatedAt := c.now }

/-- The writing transaction: the row is inserted, or every column of it is replaced. -/
def upsertPreferences (c : PreferenceCall) (data : Preferences) (t : PreferenceTable) :
    PreferenceTable :=
  t.put c.key data

/-- The table after the steps of two calls in the order of a schedule. -/
def upsertUserPreferences (calls : Client → PreferenceCall) (t : PreferenceTable)
    (sched : List Client) : PreferenceTable :=
  final (fun c => mergedPreferences (calls c)) (fun c => upsertPreferences (calls c)) t sched

/-! ## Fields -/

inductive Field
  | defaultWorkerProfile
  | codexReasoningEffort
  | claudeEffort
  | openclawEffort
  deriving DecidableEq

def Preferences.get (p : Preferences) : Field → Text
  | .defaultWorkerProfile => p.defaultWorkerProfile
  | .codexReasoningEffort => p.codexReasoningEffort
  | .claudeEffort => p.claudeEffort
  | .openclawEffort => p.openclawEffort

/-- The value that a call sets a field to. -/
def PreferenceCall.get? (c : PreferenceCall) : Field → Option Text
  | .defaultWorkerProfile => c.defaultWorkerProfile
  | .codexReasoningEffort => c.codexReasoningEffort
  | .claudeEffort => c.claudeEffort
  | .openclawEffort => c.openclawEffort

/-- The value of a field before the calls; without a row it is empty. -/
def storedValue (t : PreferenceTable) (c : PreferenceCall) (f : Field) : Text :=
  ((t.get? c.key).getD {}).get f

@[simp]
theorem mergedPreferences_get (c : PreferenceCall) (t : PreferenceTable) (f : Field) :
    (mergedPreferences c t).get f = (c.get? f).getD (storedValue t c f) := by
  cases f <;> rfl

theorem get?_upsertPreferences (c : PreferenceCall) (data : Preferences) (t : PreferenceTable)
    (k : Text × Text) :
    (upsertPreferences c data t).get? k = if k = c.key then some data else t.get? k :=
  t.get?_put c.key data k

/-! ## Lost updates -/

/-- The row of the owner has the values that a call sets. -/
def Contains (t : PreferenceTable) (c : PreferenceCall) : Prop :=
  ∃ row, t.get? c.key = some row ∧ ∀ f v, c.get? f = some v → row.get f = v

/-- No field is set by both calls. -/
def Disjoint (c d : PreferenceCall) : Prop :=
  ∀ f, c.get? f = none ∨ d.get? f = none

/-- The fields that a call sets have their values already. -/
def AlreadySet (t : PreferenceTable) (c : PreferenceCall) : Prop :=
  ∀ f v, c.get? f = some v → storedValue t c f = v

theorem Disjoint.symm {c d : PreferenceCall} (h : Disjoint c d) : Disjoint d c :=
  fun f => (h f).symm

section

variable {t : PreferenceTable} {c d : PreferenceCall}

/-- A call that reads what another one wrote keeps its fields. -/
theorem storedValue_upsert (hkey : c.key = d.key) (data : Preferences) (f : Field) :
    storedValue (upsertPreferences c data t) d f = data.get f := by
  rw [storedValue, get?_upsertPreferences, if_pos hkey.symm, Option.getD_some]

/-- What the last write leaves of a call: the row is the one that the last call has made. -/
theorem contains_upsert_iff (hkey : c.key = d.key) {data : Preferences} :
    Contains (upsertPreferences d data t) c ↔ ∀ f v, c.get? f = some v → data.get f = v := by
  rw [Contains, get?_upsertPreferences, if_pos hkey]
  constructor
  · rintro ⟨row, hrow, hset⟩
    rw [Option.some.injEq] at hrow
    exact hrow ▸ hset
  · intro hset
    exact ⟨data, rfl, hset⟩

/-- The call that writes last finds its own fields in the row. -/
theorem contains_own (c : PreferenceCall) (t₀ : PreferenceTable) :
    Contains (upsertPreferences c (mergedPreferences c t₀) t) c := by
  rw [contains_upsert_iff rfl]
  intro f v hv
  rw [mergedPreferences_get, hv, Option.getD_some]

/-- The other call finds its fields there exactly when the last one read their values. -/
theorem contains_other_iff (hkey : c.key = d.key) (hdisj : Disjoint c d) (t₀ : PreferenceTable) :
    Contains (upsertPreferences d (mergedPreferences d t₀) t) c ↔
      ∀ f v, c.get? f = some v → storedValue t₀ d f = v := by
  rw [contains_upsert_iff hkey]
  refine forall_congr' fun f => forall_congr' fun v => imp_congr_right fun hv => ?_
  have hnone : d.get? f = none := (hdisj f).resolve_left (by simp [hv])
  rw [mergedPreferences_get, hnone, Option.getD_none]

end

variable {calls : Client → PreferenceCall}

/-- After two calls for one owner that set different fields, the row contains both updates exactly
when the calls do not overlap, or the fields of the one that writes first had their values already.
-/
theorem both_updates_iff (t : PreferenceTable) {sched : List Client}
    (hkey : (calls .first).key = (calls .second).key)
    (hdisj : Disjoint (calls .first) (calls .second)) (hsched : Complete sched) :
    (∀ c, Contains (upsertUserPreferences calls t sched) (calls c)) ↔
      ∀ c, Overlaps c sched → AlreadySet t (calls c) := by
  have hkeys : ∀ c : Client, (calls c).key = (calls c.other).key := by
    intro c
    cases c
    · exact hkey
    · exact hkey.symm
  have hdisjoint : ∀ c : Client, Disjoint (calls c) (calls c.other) := by
    intro c
    cases c
    · exact hdisj
    · exact hdisj.symm
  have hboth : ∀ (c : Client) (t' : PreferenceTable),
      (∀ d, Contains t' (calls d)) ↔ Contains t' (calls c) ∧ Contains t' (calls c.other) := by
    intro c t'
    refine ⟨fun h => ⟨h c, h c.other⟩, fun h d => ?_⟩
    rcases c.eq_or_eq_other d with rfl | rfl
    · exact h.1
    · exact h.2
  rcases complete_cases hsched with ⟨c, rfl⟩ | ⟨c, hover⟩
  · have hleft : ∀ d, Contains (upsertUserPreferences calls t [c, c, c.other, c.other])
        (calls d) := by
      rw [hboth c, upsertUserPreferences, final_serial, contains_other_iff (hkeys c) (hdisjoint c)]
      refine ⟨fun f v hv => ?_, contains_own _ _⟩
      rw [storedValue_upsert (hkeys c), mergedPreferences_get, hv, Option.getD_some]
    refine iff_of_true hleft fun d hd => ?_
    obtain ⟨r, hr⟩ := hd
    simp only [List.cons.injEq] at hr
    exact absurd (hr.1.symm.trans hr.2.1) r.ne_other
  · have honly : ∀ d, Overlaps d sched ↔ d = c := by
      obtain ⟨r, rfl⟩ := hover
      intro d
      constructor
      · rintro ⟨r', hr⟩
        simp only [List.cons.injEq] at hr
        exact hr.2.2.1.symm
      · rintro rfl
        exact ⟨r, rfl⟩
    rw [hboth c, upsertUserPreferences, final_overlap _ _ _ hover,
      contains_other_iff (hkeys c) (hdisjoint c), and_iff_left (contains_own _ _)]
    simp only [honly, forall_eq, AlreadySet, storedValue, hkeys c]

/-! ## Two calls of one owner -/

/-- One call sets the effort of one assistant, the other that of another. -/
def sampleCalls : Client → PreferenceCall
  | .first => { tenantId := [], ownerId := ['o'], claudeEffort := some ['h'], now := ['1'] }
  | .second =>
    { tenantId := [], ownerId := ['o'], codexReasoningEffort := some ['l'], now := ['2'] }

theorem both_updates_sample :
    (∀ c, Contains (upsertUserPreferences sampleCalls .empty [.first, .first, .second, .second])
      (sampleCalls c)) ↔
      ∀ c, Overlaps c [.first, .first, .second, .second] → AlreadySet .empty (sampleCalls c) :=
  both_updates_iff .empty rfl (fun f => by cases f <;> simp [sampleCalls, PreferenceCall.get?])
    (by decide)

/-- Both calls read that there is no row. -/
theorem update_lost :
    ¬ Contains (upsertUserPreferences sampleCalls .empty [.first, .second, .first, .second])
      (sampleCalls .first) := by
  rintro ⟨row, hrow, hset⟩
  have hrow' : some ({ codexReasoningEffort := ['l'], updatedAt := ['2'] } : Preferences) =
      some row := hrow
  have hvalue := hset .claudeEffort ['h'] rfl
  rw [← Option.some.inj hrow'] at hvalue
  exact absurd hvalue (by decide)

end GlassHive.UserPreferences
