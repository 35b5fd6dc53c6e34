import GlassHive.Recurrence

/-!
# One run for each occurrence

Schedulers materialize the due occurrences of a definition, claim them and dispatch one run for
each, in separate transactions, so that one that crashes leaves its work to the next. An occurrence
is materialized once and its run is created once, in any order. The early return for an existing
occurrence does not advance the definition, and a claim looks at an expiry that the dispatch clears.
-/

namespace GlassHive

open Relational Transition

/-- The arguments of `materialize_recurring_schedule_occurrence`. -/
structure MaterializeOccurrence where
  definitionId : DefinitionId
  expectedNextRunAt : Time
  scheduledFor : Time
  nextRunAt : Time
  detectedAt : Time
  dispatchAt : Option Time
  occurrenceState : OccurrenceState
  outcome : String
  deactivateAfter : Bool

/-- The arguments of `create_recurring_schedule_run_now`. -/
structure RunNow where
  definitionId : DefinitionId
  tenantId : TenantId
  ownerId : OwnerId
  idempotencyToken : String
  scheduledFor : Time
  requirePrincipalAuthority : Bool

/-- The definition of an occurrence and the time that it is for. -/
def Occurrence.key (o : Occurrence) : DefinitionId × Time :=
  (o.definitionId, o.scheduledFor)

def MaterializeOccurrence.key (a : MaterializeOccurrence) : DefinitionId × Time :=
  (a.definitionId, a.scheduledFor)

def RunNow.key (a : RunNow) : DefinitionId × Time :=
  (a.definitionId, a.scheduledFor)

/-- The state of the scheduled run that is inserted with an occurrence. -/
def MaterializeOccurrence.scheduleState (a : MaterializeOccurrence) : ScheduleState :=
  match a.occurrenceState with
  | .pending => .pending
  | .skipped => .cancelled
  | _ => .failed

namespace Store

variable {s s' : Store} {now : Time} {scheduleId : ScheduleId}

/-- `materialize_recurring_schedule_occurrence`, with its arguments as one. -/
def materializes (s : Store) (a : MaterializeOccurrence) : Outcome (Option ScheduleId) :=
  s.materializeRecurringScheduleOccurrence a.definitionId a.expectedNextRunAt a.scheduledFor
    a.nextRunAt a.detectedAt a.dispatchAt a.occurrenceState a.outcome a.deactivateAfter

/-- `create_recurring_schedule_run_now`, with its arguments as one. -/
def runsNow (s : Store) (a : RunNow) : Outcome (Option ScheduleId) :=
  s.createRecurringScheduleRunNow a.definitionId a.tenantId a.ownerId a.idempotencyToken
    a.scheduledFor a.requirePrincipalAuthority

/-- Occurrences keep what they are for, and no run of a scheduled run is lost. -/
structure OccurrencesKept (s s' : Store) : Prop where
  nextId : s.nextId ≤ s'.nextId
  occurrences : ∀ id, (s'.occurrences.get? id).map (fun o => (o.key, o.scheduledRunId)) =
    (s.occurrences.get? id).map fun o => (o.key, o.scheduledRunId)
  scheduledRuns : ∀ id, (s'.scheduledRuns.get? id).isSome = true →
    (s.scheduledRuns.get? id).isSome = true ∨ id < s'.nextId
  runs : ∀ id, (s.runs.get? (.schedule id)).isSome = true →
    (s'.runs.get? (.schedule id)).isSome = true

/-- An occurrence is inserted with a scheduled run, both under fresh identifiers. -/
structure Materialized (s s' : Store) (q : ScheduledRun) (o : Occurrence) : Prop where
  nextId : s'.nextId = s.nextId + 2
  unused : ∀ id o', s.occurrences.get? id = some o' → o'.key ≠ o.key
  occurrence : s'.occurrences.get? (s.nextId + 1) = some o
  schedule : o.scheduledRunId = s.nextId
  scheduledRun : s'.scheduledRuns.get? s.nextId = some q
  occurrences : ∀ id, id ≠ s.nextId + 1 → s'.occurrences.get? id = s.occurrences.get? id
  scheduledRuns : ∀ id, id ≠ s.nextId → s'.scheduledRuns.get? id = s.scheduledRuns.get? id
  runs : s'.runs = s.runs

/-- A scheduled run without a run is linked to its stable run. -/
structure LinksRun (s s' : Store) (now : Time) (scheduleId : ScheduleId) : Prop where
  nextId : s'.nextId = s.nextId
  unlinked : ∃ q, s.scheduledRuns.get? scheduleId = some q ∧ q.state = .running ∧
    q.queuedRunId = none
  scheduledRuns : s'.scheduledRuns = s.scheduledRuns.update
    (fun i r => i == scheduleId && r.state == .running && r.queuedRunId.isNone)
    fun _ r => { r with
      state := .queued, queuedRunId := some (.schedule scheduleId), lastError := "",
      updatedAt := now }
  occurrences : s'.occurrences = s.occurrences.update
    (fun _ o => o.scheduledRunId == scheduleId && !oneOf o.state OccurrenceState.terminal)
    fun _ o => { o with state := .queued, outcome := "pending", claimExpiresAt := none }
  runs : s'.runs = s.runs ∨ ∃ r, s.runs.insert? (.schedule scheduleId) r = some s'.runs

/-- Occurrences and scheduled runs have drawn identifiers, and one occurrence each key. -/
structure OccurrencesUnique (s : Store) : Prop where
  drawn : ∀ id o, s.occurrences.get? id = some o → id < s.nextId ∧ o.scheduledRunId < s.nextId
  scheduled : ∀ id q, s.scheduledRuns.get? id = some q → id < s.nextId
  unique : ∀ id₁ id₂ o₁ o₂, s.occurrences.get? id₁ = some o₁ → s.occurrences.get? id₂ = some o₂ →
    o₁.key = o₂.key → id₁ = id₂

/-! ## One transaction -/

theorem occurrencesKept_refl (s : Store) : s.OccurrencesKept s :=
  ⟨le_rfl, fun _ => rfl, fun _ h => Or.inl h, fun _ h => h⟩

/-- Updates of occurrences and scheduled runs that leave what an occurrence is for. -/
theorem occurrencesKept_of_map (hnext : s'.nextId = s.nextId)
    (hocc : ∀ id, (s'.occurrences.get? id).map (fun o => (o.key, o.scheduledRunId)) =
      (s.occurrences.get? id).map fun o => (o.key, o.scheduledRunId))
    (hsched : ∀ id, (s'.scheduledRuns.get? id).map (fun _ => ()) =
      (s.scheduledRuns.get? id).map fun _ => ())
    (hruns : s'.runs = s.runs) : s.OccurrencesKept s' := by
  refine ⟨hnext.ge, hocc, fun id h => Or.inl ?_, fun id h => by rw [hruns, h]⟩
  have hsome := congrArg Option.isSome (hsched id)
  rw [Option.isSome_map, Option.isSome_map] at hsome
  rw [← hsome, h]

theorem claimSchedule_kept (s : Store) (now : Time) (scheduleId : ScheduleId) :
    s.OccurrencesKept (s.claimSchedule now scheduleId).store := by
  unfold claimSchedule
  split
  · exact occurrencesKept_refl s
  · dsimp only
    split
    · exact occurrencesKept_of_map rfl (Table.map_get?_update _ _ _ _ fun _ _ => rfl)
        (Table.map_get?_update _ _ _ _ fun _ _ => rfl) rfl
    · exact occurrencesKept_of_map rfl (Table.map_get?_update _ _ _ _ fun _ _ => rfl)
        (Table.map_get?_update _ _ _ _ fun _ _ => rfl) rfl

theorem claimRecurringScheduleOccurrence_kept (s : Store) (now : Time)
    (occurrenceId : OccurrenceId) (claimant : Option Claimant) (leaseSeconds : ℕ) :
    s.OccurrencesKept
      (s.claimRecurringScheduleOccurrence now occurrenceId claimant leaseSeconds).store := by
  unfold claimRecurringScheduleOccurrence
  dsimp only
  split
  · exact occurrencesKept_of_map rfl (Table.map_get?_update _ _ _ _ fun _ _ => rfl)
      (fun _ => rfl) rfl
  · exact occurrencesKept_refl s

theorem recoverStaleRecurringOccurrenceClaims_kept (s : Store) (now : Time) :
    s.OccurrencesKept (s.recoverStaleRecurringOccurrenceClaims now).store :=
  occurrencesKept_of_map rfl (Table.map_get?_update _ _ _ _ fun _ _ => rfl)
    (Table.map_get?_update _ _ _ _ fun _ _ => rfl) rfl

theorem LinksRun.kept (h : s.LinksRun s' now scheduleId) : s.OccurrencesKept s' := by
  refine ⟨h.nextId.ge, ?_, fun id hsome => ?_, fun id hsome => ?_⟩
  · rw [h.occurrences]
    exact Table.map_get?_update _ _ _ _ fun _ _ => rfl
  · rw [h.scheduledRuns, Table.get?_update, Option.isSome_map] at hsome
    exact Or.inl hsome
  · rcases h.runs with heq | ⟨r, hins⟩
    · rw [heq, hsome]
    · rw [Table.get?_insert hins]
      split
      · rfl
      · exact hsome

/-- A dispatch links its scheduled run, and reports the run as created when it inserts it, or it
changes nothing. -/
theorem createOrGetRunForSchedule_cases (s : Store) (now : Time) (scheduleId : ScheduleId)
    (bundle : Option JsonValue) (require : Bool) (fence : Option AccountFence) :
    ((s.createOrGetRunForSchedule now scheduleId bundle require fence).store = s ∧
      ∀ runId, (s.createOrGetRunForSchedule now scheduleId bundle require fence).value? ≠
        some (runId, true)) ∨
    s.LinksRun (s.createOrGetRunForSchedule now scheduleId bundle require fence).store now
        scheduleId ∧
      ∀ runId, (s.createOrGetRunForSchedule now scheduleId bundle require fence).value? =
          some (runId, true) →
        s.runs.get? (.schedule scheduleId) = none ∧
          ((s.createOrGetRunForSchedule now scheduleId bundle require fence).store.runs.get?
            (.schedule scheduleId)).isSome = true := by
  unfold createOrGetRunForSchedule
  split
  · exact Or.inl ⟨rfl, by simp⟩
  rename_i q hq
  split
  · exact Or.inl ⟨rfl, by simp⟩
  split
  · split
    · exact Or.inl ⟨rfl, by simp⟩
    · exact Or.inl ⟨rfl, by simp⟩
  rename_i hlink
  split
  · exact Or.inl ⟨rfl, by simp⟩
  rename_i hrunning
  have hstate : q.state = .running := by simpa using hrunning
  split
  · exact Or.inl ⟨rfl, by simp⟩
  split
  · exact Or.inl ⟨rfl, by simp⟩
  dsimp only
  split
  · split
    · exact Or.inr ⟨⟨rfl, ⟨q, hq, hstate, hlink⟩, rfl, rfl, Or.inl rfl⟩, by simp⟩
    · exact Or.inl ⟨rfl, by simp⟩
  rename_i hfree
  split
  · exact Or.inl ⟨rfl, by simp⟩
  split
  · exact Or.inl ⟨rfl, by simp⟩
  split
  · exact Or.inl ⟨rfl, by simp⟩
  rename_i s₁ hins
  obtain ⟨runs, hrows, rfl⟩ := insertRun?_eq_some hins
  right
  refine ⟨⟨rfl, ⟨q, hq, hstate, hlink⟩, rfl, rfl, Or.inr ⟨_, hrows⟩⟩, fun _ _ => ⟨hfree, ?_⟩⟩
  simp [Table.get?_insert hrows]

/-! ## Materialization -/

section Inserted

variable {scheduledRuns : Table ScheduleId ScheduledRun}
  {occurrences : Table OccurrenceId Occurrence}
  {q : ScheduledRun} {o : Occurrence} {definitions : Table DefinitionId RecurringDefinition}

/-- The tables after an insertion of an occurrence with its scheduled run. -/
theorem materialized_of_insert (hq : s.scheduledRuns.insert? s.nextId q = some scheduledRuns)
    (ho : s.occurrences.insert? (s.nextId + 1) o = some occurrences)
    (hschedule : o.scheduledRunId = s.nextId)
    (hunused : ∀ id o', s.occurrences.get? id = some o' → o'.key ≠ o.key) :
    s.Materialized { s.drawId.drawId with
      scheduledRuns := scheduledRuns, occurrences := occurrences, definitions := definitions }
      q o := by
  refine ⟨rfl, hunused, ?_, hschedule, ?_, fun id hid => ?_, fun id hid => ?_, rfl⟩
  · simp [Table.get?_insert ho]
  · simp [Table.get?_insert hq]
  · simp [Table.get?_insert ho, hid]
  · simp [Table.get?_insert hq, hid]

theorem OccurrencesUnique.insert_scheduledRun (h : s.OccurrencesUnique) (q : ScheduledRun) :
    ∃ scheduledRuns, s.scheduledRuns.insert? s.nextId q = some scheduledRuns := by
  apply Option.isSome_iff_exists.mp
  rw [Table.insert?_isSome]
  by_contra hne
  obtain ⟨q', hq'⟩ := Option.ne_none_iff_exists'.mp hne
  exact lt_irrefl _ (h.scheduled _ _ hq')

theorem OccurrencesUnique.insert_occurrence (h : s.OccurrencesUnique) (o : Occurrence) :
    ∃ occurrences, s.occurrences.insert? (s.nextId + 1) o = some occurrences := by
  apply Option.isSome_iff_exists.mp
  rw [Table.insert?_isSome]
  by_contra hne
  obtain ⟨o', ho'⟩ := Option.ne_none_iff_exists'.mp hne
  exact absurd (h.drawn _ _ ho').1 (Nat.not_lt.mpr (Nat.le_succ _))

end Inserted

/-- The definition of a materialization that is active and due as the call expects. -/
def DueAs (s : Store) (a : MaterializeOccurrence) (d : RecurringDefinition) : Prop :=
  s.definitions.get? a.definitionId = some d ∧ d.nativeScheduler = true ∧ d.active = true ∧
    d.nextRunAt = a.expectedNextRunAt

variable {a : MaterializeOccurrence}

/-- A materialization of an existing occurrence answers with its scheduled run. -/
theorem materializes_of_existing (h : ∃ id o, s.occurrences.get? id = some o ∧ o.key = a.key) :
    ∃ id o, s.occurrences.get? id = some o ∧
      s.materializes a = .commit s (some o.scheduledRunId) := by
  obtain ⟨id, o, ho, hkey⟩ := h
  have hsome : s.occurrences.first
      (fun _ o => o.definitionId == a.definitionId && o.scheduledFor == a.scheduledFor)
      (fun _ _ => false) ≠ none := by
    intro hnone
    have hfalse := Table.first_eq_none.mp hnone id o ho
    rw [Occurrence.key, MaterializeOccurrence.key, Prod.mk.injEq] at hkey
    simp [hkey] at hfalse
  obtain ⟨⟨id', o'⟩, hfirst⟩ := Option.ne_none_iff_exists'.mp hsome
  refine ⟨id', o', (Table.first_eq_some hfirst).1, ?_⟩
  unfold materializes materializeRecurringScheduleOccurrence
  rw [hfirst]

theorem first_eq_none_of_unused (h : ∀ id o, s.occurrences.get? id = some o → o.key ≠ a.key) :
    s.occurrences.first
      (fun _ o => o.definitionId == a.definitionId && o.scheduledFor == a.scheduledFor)
      (fun _ _ => false) = none := by
  rw [Table.first_eq_none]
  intro id o ho
  have hne := h id o ho
  rw [Bool.eq_false_iff]
  intro hboth
  rw [Bool.and_eq_true, beq_iff_eq, beq_iff_eq] at hboth
  exact hne (by rw [Occurrence.key, MaterializeOccurrence.key, hboth.1, hboth.2])

/-- A materialization without an occurrence or a due definition changes nothing. -/
theorem materializes_of_not_due (hunused : ∀ id o, s.occurrences.get? id = some o → o.key ≠ a.key)
    (hdue : ∀ d, ¬s.DueAs a d) : s.materializes a = .commit s none := by
  have hnone : ((s.definitions.get? a.definitionId).filter fun d =>
      d.nativeScheduler && d.active && d.nextRunAt == a.expectedNextRunAt) = none := by
    rw [Option.filter_eq_none_iff]
    intro d hd hok
    simp only [Bool.and_eq_true, beq_iff_eq] at hok
    exact hdue d ⟨hd, hok.1.1, hok.1.2, hok.2⟩
  unfold materializes materializeRecurringScheduleOccurrence
  rw [first_eq_none_of_unused hunused, hnone]

/-- A materialization of a new occurrence inserts it and advances the definition. -/
theorem materializes_of_new {d : RecurringDefinition} (h : s.OccurrencesUnique)
    (hunused : ∀ id o, s.occurrences.get? id = some o → o.key ≠ a.key) (hdue : s.DueAs a d) :
    (∃ q o, s.Materialized (s.materializes a).store q o ∧ o.key = a.key ∧
      o.state = a.occurrenceState ∧ q.state = a.scheduleState) ∧
      (s.materializes a).value? = some s.nextId ∧
      (s.materializes a).store.definitions = s.definitions.update
        (fun id d => id == a.definitionId && d.nextRunAt == a.expectedNextRunAt)
        fun _ d => { d with
          nextRunAt := a.nextRunAt, active := !a.deactivateAfter && d.active,
          enabled := !a.deactivateAfter && d.enabled, updatedAt := a.detectedAt } := by
  obtain ⟨hd, hnative, hactive, hnext⟩ := hdue
  have hsome : ((s.definitions.get? a.definitionId).filter fun d =>
      d.nativeScheduler && d.active && d.nextRunAt == a.expectedNextRunAt) = some d := by
    rw [hd, Option.filter_some_pos (by simp [hnative, hactive, hnext])]
  unfold materializes materializeRecurringScheduleOccurrence
  rw [first_eq_none_of_unused hunused, hsome]
  dsimp only
  obtain ⟨scheduledRuns, hq⟩ := h.insert_scheduledRun _
  obtain ⟨occurrences, ho⟩ := h.insert_occurrence _
  rw [hq, ho]
  exact ⟨⟨_, _, materialized_of_insert hq ho rfl hunused, rfl, rfl, rfl⟩, rfl, rfl⟩

/-- A run now inserts an occurrence or changes nothing. -/
theorem runsNow_cases {a : RunNow} (h : s.OccurrencesUnique) :
    (s.runsNow a).store = s ∧ (s.runsNow a).value? ≠ some s.nextId ∨
      (∃ q o, s.Materialized (s.runsNow a).store q o ∧ o.key = a.key ∧ o.state = .pending ∧
        q.state = .pending) ∧ (s.runsNow a).value? = some s.nextId := by
  unfold runsNow createRecurringScheduleRunNow
  split
  · exact Or.inl ⟨rfl, by simp⟩
  split
  · exact Or.inl ⟨rfl, by simp⟩
  split
  · exact Or.inl ⟨rfl, by simp⟩
  split
  · exact Or.inl ⟨rfl, by simp⟩
  split
  · rename_i id o hfirst
    left
    refine ⟨rfl, ?_⟩
    have hdrawn := (h.drawn id o (Table.first_eq_some hfirst).1).2
    simp [hdrawn.ne]
  split
  · exact Or.inl ⟨rfl, by simp⟩
  rename_i hnone
  obtain ⟨scheduledRuns, hq⟩ := h.insert_scheduledRun _
  obtain ⟨occurrences, ho⟩ := h.insert_occurrence _
  rw [hq, ho]
  right
  refine ⟨⟨_, _, materialized_of_insert hq ho rfl fun id o' ho' hkey => ?_, rfl, rfl, rfl⟩, rfl⟩
  rw [Bool.not_eq_true, Table.any_eq_false] at hnone
  have hne := hnone id o' ho'
  have hsame : o'.definitionId = a.definitionId ∧ o'.scheduledFor = a.scheduledFor := by
    simpa [Occurrence.key] using hkey
  simp [hsame] at hne

theorem materializes_cases (h : s.OccurrencesUnique) :
    (s.materializes a).store = s ∧ (s.materializes a).value? ≠ some s.nextId ∨
      (∃ q o, s.Materialized (s.materializes a).store q o ∧ o.key = a.key ∧
        o.state = a.occurrenceState ∧ q.state = a.scheduleState) ∧
      (s.materializes a).value? = some s.nextId := by
  by_cases hused : ∃ id o, s.occurrences.get? id = some o ∧ o.key = a.key
  · obtain ⟨id, o, ho, heq⟩ := materializes_of_existing hused
    have hdrawn := (h.drawn id o ho).2
    rw [heq]
    exact Or.inl ⟨rfl, by simp [hdrawn.ne]⟩
  · have hunused : ∀ id o, s.occurrences.get? id = some o → o.key ≠ a.key := fun id o ho hkey =>
      hused ⟨id, o, ho, hkey⟩
    by_cases hdue : ∃ d, s.DueAs a d
    · obtain ⟨d, hd⟩ := hdue
      obtain ⟨hmat, hvalue, -⟩ := materializes_of_new h hunused hd
      exact Or.inr ⟨hmat, hvalue⟩
    · rw [materializes_of_not_due hunused fun d hd => hdue ⟨d, hd⟩]
      exact Or.inl ⟨rfl, by simp⟩

end Store

/-- Whatever else happens to the store, short of deleting occurrences and runs. -/
structure ScheduleEnvironment where
  apply : Store → Store
  kept : ∀ s : Store, s.OccurrencesKept (apply s)

/-- A step of a scheduler, or another. -/
inductive DispatchStep
  | materialize (a : MaterializeOccurrence)
  | runNow (a : RunNow)
  | claimSchedule (now : Time) (scheduleId : ScheduleId)
  | claimOccurrence (now : Time) (occurrenceId : OccurrenceId) (claimant : Option Claimant)
      (leaseSeconds : ℕ)
  | createRun (now : Time) (scheduleId : ScheduleId) (runtimeBundle : Option JsonValue)
      (requireAuthority : Bool) (fence : Option AccountFence)
  | recover (now : Time)
  | elsewhere (e : ScheduleEnvironment)

namespace Store

variable {s s' : Store} {id : OccurrenceId} {o : Occurrence}

/-- One step. -/
def dispatchStep (s : Store) : DispatchStep → Store
  | .materialize a => (s.materializes a).store
  | .runNow a => (s.runsNow a).store
  | .claimSchedule now scheduleId => (s.claimSchedule now scheduleId).store
  | .claimOccurrence now occurrenceId claimant leaseSeconds =>
    (s.claimRecurringScheduleOccurrence now occurrenceId claimant leaseSeconds).store
  | .createRun now scheduleId bundle require fence =>
    (s.createOrGetRunForSchedule now scheduleId bundle require fence).store
  | .recover now => (s.recoverStaleRecurringOccurrenceClaims now).store
  | .elsewhere e => e.apply s

/-- What a step creates a scheduled run for. -/
def scheduledKey (s : Store) : DispatchStep → Option (DefinitionId × Time)
  | .materialize a => if (s.materializes a).value? = some s.nextId then some a.key else none
  | .runNow a => if (s.runsNow a).value? = some s.nextId then some a.key else none
  | _ => none

/-- The occurrence of a scheduled run. -/
def occurrenceOf (s : Store) (scheduleId : ScheduleId) : Option (OccurrenceId × Occurrence) :=
  s.occurrences.first (fun _ o => o.scheduledRunId == scheduleId) fun _ _ => false

/-- What a step creates a queued run for. -/
def dispatchedKey (s : Store) : DispatchStep → Option (DefinitionId × Time)
  | .createRun now scheduleId bundle require fence =>
    match (s.createOrGetRunForSchedule now scheduleId bundle require fence).value? with
    | some (_, true) => (s.occurrenceOf scheduleId).map fun e => e.2.key
    | _ => none
  | _ => none

/-- There is an occurrence for the key. -/
def KeyScheduled (s : Store) (key : DefinitionId × Time) : Prop :=
  ∃ id o, s.occurrences.get? id = some o ∧ o.key = key

/-- The run of the occurrence for the key exists. -/
def KeyDispatched (s : Store) (key : DefinitionId × Time) : Prop :=
  ∃ id o, s.occurrences.get? id = some o ∧ o.key = key ∧
    (s.runs.get? (.schedule o.scheduledRunId)).isSome = true

/-- A step keeps the occurrences, or inserts one that no occurrence is like. -/
theorem dispatchStep_cases (h : s.OccurrencesUnique) (i : DispatchStep) :
    s.OccurrencesKept (s.dispatchStep i) ∧ s.scheduledKey i = none ∨
      ∃ q o, s.Materialized (s.dispatchStep i) q o ∧ s.scheduledKey i = some o.key := by
  cases i with
  | materialize a =>
    rcases materializes_cases (a := a) h with ⟨hs, hvalue⟩ | ⟨⟨q, o, hmat, hkey, -⟩, hvalue⟩
    · rw [dispatchStep, hs, scheduledKey, if_neg hvalue]
      exact Or.inl ⟨occurrencesKept_refl s, rfl⟩
    · exact Or.inr ⟨q, o, hmat, hkey ▸ if_pos hvalue⟩
  | runNow a =>
    rcases runsNow_cases (a := a) h with ⟨hs, hvalue⟩ | ⟨⟨q, o, hmat, hkey, -⟩, hvalue⟩
    · rw [dispatchStep, hs, scheduledKey, if_neg hvalue]
      exact Or.inl ⟨occurrencesKept_refl s, rfl⟩
    · exact Or.inr ⟨q, o, hmat, hkey ▸ if_pos hvalue⟩
  | claimSchedule now scheduleId => exact Or.inl ⟨claimSchedule_kept s now scheduleId, rfl⟩
  | claimOccurrence now occurrenceId claimant leaseSeconds =>
    exact Or.inl
      ⟨claimRecurringScheduleOccurrence_kept s now occurrenceId claimant leaseSeconds, rfl⟩
  | createRun now scheduleId bundle require fence =>
    left
    refine ⟨?_, rfl⟩
    rcases createOrGetRunForSchedule_cases s now scheduleId bundle require fence with
      ⟨hs, -⟩ | ⟨hlink, -⟩
    · rw [dispatchStep, hs]
      exact occurrencesKept_refl s
    · exact hlink.kept
  | recover now => exact Or.inl ⟨recoverStaleRecurringOccurrenceClaims_kept s now, rfl⟩
  | elsewhere e => exact Or.inl ⟨e.kept s, rfl⟩

/-- An occurrence after a transaction that keeps them was there before it. -/
theorem OccurrencesKept.back (h : s.OccurrencesKept s') {o' : Occurrence}
    (ho' : s'.occurrences.get? id = some o') :
    ∃ o, s.occurrences.get? id = some o ∧ o.key = o'.key ∧
      o.scheduledRunId = o'.scheduledRunId := by
  have hmap := h.occurrences id
  rw [ho', Option.map_some, eq_comm, Option.map_eq_some_iff] at hmap
  obtain ⟨o, ho, heq⟩ := hmap
  rw [Prod.mk.injEq] at heq
  exact ⟨o, ho, heq⟩

/-- An occurrence before a transaction that keeps them is there after it. -/
theorem OccurrencesKept.forth (h : s.OccurrencesKept s') (ho : s.occurrences.get? id = some o) :
    ∃ o', s'.occurrences.get? id = some o' ∧ o'.key = o.key ∧
      o'.scheduledRunId = o.scheduledRunId := by
  have hmap := h.occurrences id
  rw [ho, Option.map_some, Option.map_eq_some_iff] at hmap
  obtain ⟨o', ho', heq⟩ := hmap
  rw [Prod.mk.injEq] at heq
  exact ⟨o', ho', heq⟩

theorem OccurrencesKept.unique (h : s.OccurrencesKept s') (hs : s.OccurrencesUnique) :
    s'.OccurrencesUnique := by
  constructor
  · intro id o' ho'
    obtain ⟨o, ho, -, hschedule⟩ := h.back ho'
    have hdrawn := hs.drawn id o ho
    exact ⟨hdrawn.1.trans_le h.nextId, hschedule ▸ hdrawn.2.trans_le h.nextId⟩
  · intro id q' hq'
    rcases h.scheduledRuns id (by simp [hq']) with hsome | hlt
    · obtain ⟨q, hq⟩ := Option.isSome_iff_exists.mp hsome
      exact (hs.scheduled id q hq).trans_le h.nextId
    · exact hlt
  · intro id₁ id₂ o₁' o₂' h₁ h₂ hkey
    obtain ⟨o₁, ho₁, hk₁, -⟩ := h.back h₁
    obtain ⟨o₂, ho₂, hk₂, -⟩ := h.back h₂
    exact hs.unique id₁ id₂ o₁ o₂ ho₁ ho₂ (hk₁.trans (hkey.trans hk₂.symm))

theorem Materialized.unique {q₀ : ScheduledRun} {o₀ : Occurrence} (h : s.Materialized s' q₀ o₀)
    (hs : s.OccurrencesUnique) : s'.OccurrencesUnique := by
  have hnext := h.nextId
  have hback : ∀ id o, s'.occurrences.get? id = some o →
      id = s.nextId + 1 ∧ o = o₀ ∨ s.occurrences.get? id = some o := by
    intro id o ho
    by_cases hid : id = s.nextId + 1
    · rw [hid, h.occurrence, Option.some.injEq] at ho
      exact Or.inl ⟨hid, ho.symm⟩
    · exact Or.inr (h.occurrences id hid ▸ ho)
  constructor
  · intro id o ho
    rw [hnext]
    rcases hback id o ho with ⟨rfl, rfl⟩ | hold
    · rw [h.schedule]
      exact ⟨Nat.lt_succ_self _, Nat.lt_add_of_pos_right (by decide)⟩
    · have hdrawn := hs.drawn id o hold
      exact ⟨hdrawn.1.trans (Nat.lt_add_of_pos_right (by decide)),
        hdrawn.2.trans (Nat.lt_add_of_pos_right (by decide))⟩
  · intro id q hq
    rw [hnext]
    by_cases hid : id = s.nextId
    · rw [hid]
      exact Nat.lt_add_of_pos_right (by decide)
    · rw [h.scheduledRuns id hid] at hq
      exact (hs.scheduled id q hq).trans (Nat.lt_add_of_pos_right (by decide))
  · intro id₁ id₂ o₁ o₂ h₁ h₂ hkey
    rcases hback id₁ o₁ h₁ with ⟨rfl, rfl⟩ | hold₁
    · rcases hback id₂ o₂ h₂ with ⟨rfl, rfl⟩ | hold₂
      · rfl
      · exact absurd hkey.symm (h.unused id₂ o₂ hold₂)
    · rcases hback id₂ o₂ h₂ with ⟨rfl, rfl⟩ | hold₂
      · exact absurd hkey (h.unused id₁ o₁ hold₁)
      · exact hs.unique id₁ id₂ o₁ o₂ hold₁ hold₂ hkey

theorem occurrencesUnique_dispatchStep (h : s.OccurrencesUnique) (i : DispatchStep) :
    (s.dispatchStep i).OccurrencesUnique := by
  rcases dispatchStep_cases h i with ⟨hkept, -⟩ | ⟨q, o, hmat, -⟩
  · exact hkept.unique h
  · exact hmat.unique h

/-! ## Once for each key -/

variable {key : DefinitionId × Time}

theorem keyScheduled_dispatchStep (h : s.OccurrencesUnique) (i : DispatchStep)
    (hkey : s.KeyScheduled key) :
    (s.dispatchStep i).KeyScheduled key := by
  obtain ⟨id, o, ho, rfl⟩ := hkey
  rcases dispatchStep_cases h i with ⟨hkept, -⟩ | ⟨q', o', hmat, -⟩
  · obtain ⟨o', ho', hk, -⟩ := hkept.forth ho
    exact ⟨id, o', ho', hk⟩
  · have hne : id ≠ s.nextId + 1 := by
      rintro rfl
      exact absurd (h.drawn _ o ho).1 (Nat.not_lt.mpr (Nat.le_succ _))
    exact ⟨id, o, (hmat.occurrences id hne).trans ho, rfl⟩

/-- What a step creates a scheduled run for had none, and has one then. -/
theorem keyScheduled_of_scheduledKey (h : s.OccurrencesUnique) (i : DispatchStep)
    (hkey : s.scheduledKey i = some key) :
    ¬s.KeyScheduled key ∧ (s.dispatchStep i).KeyScheduled key := by
  rcases dispatchStep_cases h i with ⟨-, hnone⟩ | ⟨q', o', hmat, hsome⟩
  · rw [hnone] at hkey
    exact absurd hkey (by simp)
  · rw [hsome, Option.some.injEq] at hkey
    subst hkey
    exact ⟨fun ⟨id, o, ho, hk⟩ => hmat.unused id o ho hk, _, o', hmat.occurrence, rfl⟩

theorem keyDispatched_dispatchStep (h : s.OccurrencesUnique) (i : DispatchStep)
    (hkey : s.KeyDispatched key) :
    (s.dispatchStep i).KeyDispatched key := by
  obtain ⟨id, o, ho, rfl, hrun⟩ := hkey
  rcases dispatchStep_cases h i with ⟨hkept, -⟩ | ⟨q', o', hmat, -⟩
  · obtain ⟨o', ho', hk, hschedule⟩ := hkept.forth ho
    refine ⟨id, o', ho', hk, ?_⟩
    rw [hschedule]
    exact hkept.runs _ hrun
  · have hne : id ≠ s.nextId + 1 := by
      rintro rfl
      exact absurd (h.drawn _ o ho).1 (Nat.not_lt.mpr (Nat.le_succ _))
    refine ⟨id, o, (hmat.occurrences id hne).trans ho, rfl, ?_⟩
    rw [hmat.runs]
    exact hrun

theorem occurrenceOf_eq_some {scheduleId : ScheduleId}
    (h : s.occurrenceOf scheduleId = some (id, o)) :
    s.occurrences.get? id = some o ∧ o.scheduledRunId = scheduleId := by
  have hfirst := Table.first_eq_some h
  rwa [beq_iff_eq] at hfirst

/-- What a step creates a queued run for had none, and has one then. -/
theorem keyDispatched_of_dispatchedKey (h : s.OccurrencesUnique) (i : DispatchStep)
    (hkey : s.dispatchedKey i = some key) :
    ¬s.KeyDispatched key ∧ (s.dispatchStep i).KeyDispatched key := by
  cases i with
  | createRun now scheduleId bundle require fence =>
    rw [dispatchedKey] at hkey
    split at hkey
    · rename_i runId hvalue
      obtain ⟨⟨id, o⟩, hocc, rfl⟩ := Option.map_eq_some_iff.mp hkey
      obtain ⟨ho, hschedule⟩ := occurrenceOf_eq_some hocc
      rcases createOrGetRunForSchedule_cases s now scheduleId bundle require fence with
        ⟨-, hnot⟩ | ⟨hlink, hcreated⟩
      · exact absurd hvalue (hnot runId)
      · obtain ⟨hfree, hrun⟩ := hcreated runId hvalue
        constructor
        · rintro ⟨id', o', ho', hk, hsome⟩
          have hid := h.unique id' id o' o ho' ho hk
          rw [hid, ho, Option.some.injEq] at ho'
          rw [← ho', hschedule, hfree] at hsome
          exact absurd hsome (by simp)
        · obtain ⟨o', ho', hk, hschedule'⟩ := hlink.kept.forth ho
          refine ⟨id, o', ho', hk, ?_⟩
          rw [hschedule', hschedule]
          exact hrun
    · exact absurd hkey (by simp)
  | materialize => exact absurd hkey (by simp [dispatchedKey])
  | runNow => exact absurd hkey (by simp [dispatchedKey])
  | claimSchedule => exact absurd hkey (by simp [dispatchedKey])
  | claimOccurrence =>
    exact absurd hkey (by simp [dispatchedKey])
  | recover => exact absurd hkey (by simp [dispatchedKey])
  | elsewhere => exact absurd hkey (by simp [dispatchedKey])

/-! ## Progress -/

/-- A call that names the stored time of an active native definition, with a later one or to
deactivate it, leaves the definition with that time or inactive. -/
def Advances (s : Store) (i : DispatchStep) : Prop :=
  ∀ a d, i = .materialize a → s.DueAs a d →
    (a.expectedNextRunAt < a.nextRunAt ∨ a.deactivateAfter = true) →
    ∃ d', (s.dispatchStep i).definitions.get? a.definitionId = some d' ∧
      (a.expectedNextRunAt < a.nextRunAt ∧ d'.nextRunAt = a.nextRunAt ∨ d'.active = false)

/-- Such a call is for a new occurrence. -/
def AdvancesNew (s : Store) (i : DispatchStep) : Prop :=
  ∀ a d, i = .materialize a → s.DueAs a d →
    (a.expectedNextRunAt < a.nextRunAt ∨ a.deactivateAfter = true) → ¬s.KeyScheduled a.key

theorem advances_iff (h : s.OccurrencesUnique) (i : DispatchStep) :
    s.Advances i ↔ s.AdvancesNew i := by
  constructor
  · rintro hadv a d rfl hdue hlater hused
    obtain ⟨d', hd', hmoved⟩ := hadv a d rfl hdue hlater
    obtain ⟨id, o, -, heq⟩ := materializes_of_existing hused
    rw [dispatchStep, heq, Outcome.store_commit, hdue.1, Option.some.injEq] at hd'
    subst hd'
    rcases hmoved with ⟨hlt, hnext⟩ | hinactive
    · rw [← hdue.2.2.2, hnext] at hlt
      exact lt_irrefl _ hlt
    · rw [hdue.2.2.1] at hinactive
      exact absurd hinactive (by simp)
  · rintro hnew a d rfl hdue hlater
    have hunused : ∀ id o, s.occurrences.get? id = some o → o.key ≠ a.key := fun id o ho hkey =>
      hnew a d rfl hdue hlater ⟨id, o, ho, hkey⟩
    obtain ⟨-, -, hdefs⟩ := materializes_of_new h hunused hdue
    refine ⟨{ d with
      nextRunAt := a.nextRunAt, active := !a.deactivateAfter && d.active,
      enabled := !a.deactivateAfter && d.enabled, updatedAt := a.detectedAt }, ?_, ?_⟩
    · rw [dispatchStep, hdefs, Table.get?_update, hdue.1]
      simp [hdue.2.2.2]
    · rcases hlater with hlt | hdeactivate
      · exact Or.inl ⟨hlt, rfl⟩
      · exact Or.inr (by simp [hdeactivate])

/-! ## Claims of a dispatched occurrence -/

/-- The occurrence is linked to a run that is not finished. -/
def LinkedLive (s : Store) (occurrenceId : OccurrenceId) : Prop :=
  ∃ o q runId r, s.occurrences.get? occurrenceId = some o ∧
    s.scheduledRuns.get? o.scheduledRunId = some q ∧ q.queuedRunId = some runId ∧
    s.runs.get? runId = some r ∧ r.state ∈ RunState.nonterminal

/-- An occurrence that is linked to a live run is not claimed again. -/
def KeepsLinked (s : Store) (i : DispatchStep) : Prop :=
  ∀ now occurrenceId claimant leaseSeconds,
    i = .claimOccurrence now occurrenceId claimant leaseSeconds → s.LinkedLive occurrenceId →
    (s.claimRecurringScheduleOccurrence now occurrenceId claimant leaseSeconds).value? = none

/-- A claim of an occurrence that is linked to a live run finds it finished, or held under an
unexpired claim of somebody else. -/
def HoldsLinked (s : Store) (i : DispatchStep) : Prop :=
  ∀ now occurrenceId claimant leaseSeconds,
    i = .claimOccurrence now occurrenceId claimant leaseSeconds → s.LinkedLive occurrenceId →
    ∀ o, s.occurrences.get? occurrenceId = some o → o.state ∈ OccurrenceState.terminal ∨
      o.claimant ≠ claimant ∧ ∃ expiresAt, o.claimExpiresAt = some expiresAt ∧ now < expiresAt

theorem claimRecurringScheduleOccurrence_eq_none {now : Time} {occurrenceId : OccurrenceId}
    {claimant : Option Claimant} {leaseSeconds : ℕ} (ho : s.occurrences.get? occurrenceId = some o) :
    (s.claimRecurringScheduleOccurrence now occurrenceId claimant leaseSeconds).value? = none ↔
      o.state ∈ OccurrenceState.terminal ∨
        o.claimant ≠ claimant ∧
          ∃ expiresAt, o.claimExpiresAt = some expiresAt ∧ now < expiresAt := by
  have hheld : o.claimExpiresAt.all (fun t => decide (t ≤ now)) = false ↔
      ∃ expiresAt, o.claimExpiresAt = some expiresAt ∧ now < expiresAt := by
    cases o.claimExpiresAt <;> simp
  unfold claimRecurringScheduleOccurrence
  dsimp only
  split
  · rename_i hany
    have hrow : (s.occurrences.get? occurrenceId).isSome = true := by simp [ho]
    refine iff_of_false ?_ ?_
    · simp [Table.get?_update, ho]
    · obtain ⟨id, o', ho', hok⟩ := Table.any_eq_true.mp hany
      simp only [Bool.and_eq_true, Bool.or_eq_true, beq_iff_eq, Bool.not_eq_true',
        oneOf_eq_false] at hok
      obtain ⟨⟨rfl, hopen⟩, hfree⟩ := hok
      rw [ho, Option.some.injEq] at ho'
      subst ho'
      rintro (hterm | ⟨hother, hexp⟩)
      · exact hopen hterm
      · rw [← hheld] at hexp
        rcases hfree with hexpired | hsame
        · rw [hexp] at hexpired
          exact absurd hexpired (by simp)
        · exact hother hsame
  · rename_i hany
    refine iff_of_true rfl ?_
    rw [Bool.not_eq_true, Table.any_eq_false] at hany
    have hrow := hany occurrenceId o ho
    simp only [BEq.rfl, Bool.true_and, Bool.and_eq_false_iff, Bool.or_eq_false_iff,
      Bool.not_eq_false', oneOf_eq_true, beq_eq_false_iff_ne] at hrow
    rw [← hheld]
    tauto

theorem keepsLinked_iff (i : DispatchStep) : s.KeepsLinked i ↔ s.HoldsLinked i := by
  constructor
  · intro hkeeps now occurrenceId claimant leaseSeconds hi hlive o ho
    exact (claimRecurringScheduleOccurrence_eq_none ho).mp
      (hkeeps now occurrenceId claimant leaseSeconds hi hlive)
  · intro hholds now occurrenceId claimant leaseSeconds hi hlive
    obtain ⟨o, q, runId, r, ho, -⟩ := id hlive
    exact (claimRecurringScheduleOccurrence_eq_none ho).mpr
      (hholds now occurrenceId claimant leaseSeconds hi hlive o ho)

theorem occurrencesUnique_init (settings : Settings) : (init settings).OccurrencesUnique :=
  ⟨fun id o h => by simp [init] at h, fun id q h => by simp [init] at h,
    fun id₁ id₂ o₁ o₂ h => by simp [init] at h⟩

end Store

/-- Along every interleaving of schedulers from a new database, no occurrence gets two scheduled
runs and none gets two queued runs. Every due call makes progress and no linked occurrence is
claimed again exactly when due calls are for new occurrences, and claims of linked ones find a live
claim of somebody else. -/
theorem occurrences_dispatched_iff (settings : Settings) (steps : List DispatchStep) :
    (outputs Store.dispatchStep Store.scheduledKey (.init settings) steps).Nodup ∧
    (outputs Store.dispatchStep Store.dispatchedKey (.init settings) steps).Nodup ∧
    (Along Store.dispatchStep (fun s i => s.Advances i ∧ s.KeepsLinked i) (.init settings) steps ↔
      Along Store.dispatchStep (fun s i => s.AdvancesNew i ∧ s.HoldsLinked i) (.init settings)
        steps) := by
  have hinv : ∀ (s : Store) (i : DispatchStep), s.OccurrencesUnique →
      (s.dispatchStep i).OccurrencesUnique := fun s i h => Store.occurrencesUnique_dispatchStep h i
  have hinit := Store.occurrencesUnique_init settings
  have hscheduled : ∀ (s : Store) (i : DispatchStep) (key : DefinitionId × Time),
      s.OccurrencesUnique → s.KeyScheduled key → (s.dispatchStep i).KeyScheduled key :=
    fun _ i _ h => Store.keyScheduled_dispatchStep h i
  have hdispatched : ∀ (s : Store) (i : DispatchStep) (key : DefinitionId × Time),
      s.OccurrencesUnique → s.KeyDispatched key → (s.dispatchStep i).KeyDispatched key :=
    fun _ i _ h => Store.keyDispatched_dispatchStep h i
  refine ⟨?_, ?_, ?_⟩
  · exact nodup_outputs hinv hscheduled
      (fun _ i _ h ho => (Store.keyScheduled_of_scheduledKey h i ho).1)
      (fun _ i _ h ho => (Store.keyScheduled_of_scheduledKey h i ho).2) hinit
  · exact nodup_outputs hinv hdispatched
      (fun _ i _ h ho => (Store.keyDispatched_of_dispatchedKey h i ho).1)
      (fun _ i _ h ho => (Store.keyDispatched_of_dispatchedKey h i ho).2) hinit
  · exact along_congr_of_invariant
      (fun _ i h => and_congr (Store.advances_iff h i) (Store.keepsLinked_iff i))
      (fun s i h _ => hinv s i h) hinit

/-! ## Two schedulers of one definition -/

namespace Store

/-- A transaction that leaves schedules and runs alone. -/
structure SchedulesUntouched (s s' : Store) : Prop where
  nextId : s.nextId ≤ s'.nextId
  occurrences : s'.occurrences = s.occurrences
  scheduledRuns : s'.scheduledRuns = s.scheduledRuns
  runs : s'.runs = s.runs

theorem SchedulesUntouched.kept {s s' : Store} (h : s.SchedulesUntouched s') :
    s.OccurrencesKept s' :=
  ⟨h.nextId, fun id => by rw [h.occurrences], fun id hsome => Or.inl (h.scheduledRuns ▸ hsome),
    fun id hsome => by rw [h.runs, hsome]⟩

theorem createProject_untouched (s : Store) (now : Time) (tenantId : TenantId) :
    s.SchedulesUntouched (s.createProject now tenantId).store := by
  unfold createProject
  split
  · exact ⟨le_rfl, rfl, rfl, rfl⟩
  · exact ⟨Nat.le_succ _, rfl, rfl, rfl⟩

theorem createWorker_untouched (s : Store) (now : Time) (a : NewWorker) :
    s.SchedulesUntouched (s.createWorker now a).store := by
  unfold createWorker
  split
  · exact ⟨le_rfl, rfl, rfl, rfl⟩
  split
  · exact ⟨le_rfl, rfl, rfl, rfl⟩
  · exact ⟨Nat.le_add_right _ 2, rfl, rfl, rfl⟩

theorem createRecurringScheduleDefinition_untouched (s : Store) (now : Time)
    (workerId : WorkerId) (projectId : ProjectId) (tenantId : TenantId) (ownerId : OwnerId)
    (nativeScheduler : Bool) (instruction : String) (overlapPolicy : OverlapPolicy)
    (nextRunAt : Time) (enabled require : Bool) :
    s.SchedulesUntouched (s.createRecurringScheduleDefinition now workerId projectId tenantId
      ownerId nativeScheduler instruction overlapPolicy nextRunAt enabled require).store := by
  unfold createRecurringScheduleDefinition
  split
  · exact ⟨le_rfl, rfl, rfl, rfl⟩
  split
  · exact ⟨le_rfl, rfl, rfl, rfl⟩
  split
  · exact ⟨le_rfl, rfl, rfl, rfl⟩
  split
  · exact ⟨le_rfl, rfl, rfl, rfl⟩
  · exact ⟨Nat.le_succ _, rfl, rfl, rfl⟩

end Store

/-- A step that sets up what schedules refer to. -/
structure ScheduleSetup where
  apply : Store → Store
  untouched : ∀ s : Store, s.SchedulesUntouched (apply s)

/-- A project `0` with worker `1`, whose definition `3` is due at `10`. -/
def setupOfDefinition : List ScheduleSetup :=
  [⟨fun s => (s.createProject 1 0).store, fun s => s.createProject_untouched 1 0⟩,
   ⟨fun s => (s.createWorker 2 firstWorker).store,
     fun s => s.createWorker_untouched 2 firstWorker⟩,
   ⟨fun s => (s.createRecurringScheduleDefinition 3 1 0 0 0 true "recurring" .skip 10 true
      false).store,
    fun s => s.createRecurringScheduleDefinition_untouched 3 1 0 0 0 true "recurring" .skip 10 true
      false⟩]

def withDefinition : List DispatchStep :=
  setupOfDefinition.map fun e => .elsewhere ⟨e.apply, fun s => (e.untouched s).kept⟩

/-- The occurrence at `10`, after which the definition is due at `20`. -/
def dueAtTen : MaterializeOccurrence where
  definitionId := 3
  expectedNextRunAt := 10
  scheduledFor := 10
  nextRunAt := 20
  detectedAt := 10
  dispatchAt := none
  occurrenceState := .pending
  outcome := "pending"
  deactivateAfter := false

/-- The user runs the definition just when it is due. -/
def withRunNow : List DispatchStep :=
  withDefinition ++ [.runNow ⟨3, 0, 0, "now", 10, false⟩]

/-- The occurrence `5` is claimed and dispatched. -/
def withDispatch : List DispatchStep :=
  withDefinition ++
    [.materialize dueAtTen, .claimSchedule 11 4, .createRun 12 4 none false none]

/-- The due call leaves the definition due, and a second scheduler claims the dispatched
occurrence. -/
theorem occurrences_dispatched_stuck :
    ¬Along Store.dispatchStep (fun s i => s.Advances i ∧ s.KeepsLinked i) (.init .default)
      (withRunNow ++ [.materialize dueAtTen]) ∧
    ¬Along Store.dispatchStep (fun s i => s.Advances i ∧ s.KeepsLinked i) (.init .default)
      (withDispatch ++ [.claimOccurrence 13 5 (some (.named "native:two")) 60]) := by
  constructor
  · intro halong
    have hadv := ((along_append _).mp halong).2.1.1
    have hbefore : ((run Store.dispatchStep (.init .default) withRunNow).definitions.get? 3).any
        (fun d => d.nativeScheduler && d.active && d.nextRunAt == 10) = true := by decide
    have hafter : (((run Store.dispatchStep (.init .default) withRunNow).dispatchStep
        (.materialize dueAtTen)).definitions.get? 3).all
        (fun d => d.active && d.nextRunAt == 10) = true := by decide
    obtain ⟨d, hd, hok⟩ := (Option.any_eq_true ..).mp hbefore
    simp only [Bool.and_eq_true, beq_iff_eq] at hok
    obtain ⟨d', hd', hmoved⟩ :=
      hadv dueAtTen d rfl ⟨hd, hok.1.1, hok.1.2, hok.2⟩ (Or.inl (by decide))
    have hd₁ : ((run Store.dispatchStep (.init .default) withRunNow).dispatchStep
        (.materialize dueAtTen)).definitions.get? 3 = some d' := hd'
    rw [hd₁, Option.all_some, Bool.and_eq_true, beq_iff_eq] at hafter
    rcases hmoved with ⟨-, hnext⟩ | hinactive
    · rw [hafter.2] at hnext
      exact absurd hnext (by decide)
    · rw [hafter.1] at hinactive
      exact absurd hinactive (by decide)
  · intro halong
    have hkeeps := ((along_append _).mp halong).2.1.2
    have hocc : ((run Store.dispatchStep (.init .default) withDispatch).occurrences.get? 5).any
        (fun o => o.scheduledRunId == 4) = true := by decide
    have hsched : ((run Store.dispatchStep (.init .default) withDispatch).scheduledRuns.get? 4).any
        (fun q => q.queuedRunId == some (.schedule 4)) = true := by decide
    have hrun : ((run Store.dispatchStep (.init .default) withDispatch).runs.get?
        (.schedule 4)).any (fun r => r.state == .queued) = true := by decide
    have hclaimed : ((run Store.dispatchStep (.init .default)
        withDispatch).claimRecurringScheduleOccurrence 13 5 (some (.named "native:two"))
        60).value?.isSome = true := by decide
    obtain ⟨o, ho, hid⟩ := (Option.any_eq_true ..).mp hocc
    obtain ⟨q, hq, hlink⟩ := (Option.any_eq_true ..).mp hsched
    obtain ⟨r, hr, hst⟩ := (Option.any_eq_true ..).mp hrun
    rw [beq_iff_eq] at hid hlink hst
    have hlive : (run Store.dispatchStep (.init .default) withDispatch).LinkedLive 5 :=
      ⟨o, q, .schedule 4, r, ho, hid ▸ hq, hlink, hr, by simp [hst, RunState.nonterminal]⟩
    have hnone := hkeeps 13 5 (some (.named "native:two")) 60 rfl hlive
    rw [hnone] at hclaimed
    exact absurd hclaimed (by decide)

end GlassHive
