import GlassHive.Library.Arrivals
import GlassHive.Library.Table
import GlassHive.Library.Text
import GlassHive.Library.Transition

/-!
# Health of provider routes

Structured provider pressure opens a circuit on a route, and more of it extends the circuit.
Evidence counts once for a route, and an older failure than the last one does not count. A circuit is cleared
on an observation of its last failure and its generation, which every failure that counts changes.
-/

namespace GlassHive.RouteHealth

open Relational

/-! ## Routes and circuits -/

structure Route where
  tenantId : Text
  ownerId : Text
  profile : Text
  runtime : Text
  model : Text
  deriving DecidableEq

/-- The tenant, or the local one for a text of white space. -/
def tenantOrLocal (tenantId : Text) : Text :=
  if tenantId.strip = [] then "local".toList else tenantId.strip

def Route.clean (r : Route) : Route where
  tenantId := tenantOrLocal r.tenantId
  ownerId := r.ownerId.strip
  profile := r.profile.strip
  runtime := r.runtime.strip
  model := r.model.strip

/-- No part of the route is empty. -/
def Route.complete (r : Route) : Bool :=
  r.tenantId ≠ [] ∧ r.ownerId ≠ [] ∧ r.profile ≠ [] ∧ r.runtime ≠ [] ∧ r.model ≠ []

inductive CooldownSource
  | providerExact
  | default
  deriving DecidableEq

/-- A row of `provider_route_health`; the instants are in microseconds, in whose order their texts
are. -/
structure Circuit where
  failureClass : Text
  failureCount : ℕ
  failureGeneration : ℕ
  firstFailedAt : ℤ
  lastFailedAt : ℤ
  cooldownUntil : ℤ
  cooldownSource : CooldownSource
  lastRunId : Text
  updatedAt : ℤ
  deriving DecidableEq

/-- A row of `provider_route_health_events`. -/
structure Evidence where
  runId : Text
  attemptId : Text
  evidenceKind : Text
  observedAt : ℤ
  deriving DecidableEq

structure HealthStore where
  health : Table Route Circuit
  events : Table (Route × Text) Evidence

/-- The arguments of a record beside the route. The times to retry are there when they can be
read. -/
structure Failure where
  failureClass : Text
  failureStructured : Bool
  defaultCooldown : ℤ
  retryAt : Option ℤ := none
  retryAfter : Option ℤ := none
  runId : Text := []
  evidenceId : Text := []
  attemptId : Text := []
  evidenceKind : Text := []
  now : ℤ
  deriving DecidableEq

def providerRouteHealthFailureClasses : List Text :=
  ["provider_quota_exhausted".toList, "provider_rate_limited".toList]

/-- The failure is structured provider pressure. -/
def Failure.opens (f : Failure) : Bool :=
  f.failureStructured && providerRouteHealthFailureClasses.contains f.failureClass.strip

def second : ℤ := 1000000

/-- The end of the cooldown and where it comes from. -/
def Failure.cooldown (f : Failure) : ℤ × CooldownSource :=
  match f.retryAt with
  | some exactRetry => (exactRetry, .providerExact)
  | none =>
    match f.retryAfter.filter (0 ≤ ·) with
    | some retryAfter => (f.now + retryAfter, .providerExact)
    | none => (f.now + max second (min f.defaultCooldown (86400 * second)), .default)

/-! ## Operations -/

def Failure.evidence (f : Failure) : Evidence where
  runId := f.runId.strip
  attemptId := f.attemptId.strip
  evidenceKind := f.evidenceKind.strip
  observedAt := f.now

/-- A circuit that a failure opens. -/
def Failure.circuit (f : Failure) : Circuit where
  failureClass := f.failureClass.strip
  failureCount := 1
  failureGeneration := 1
  firstFailedAt := f.now
  lastFailedAt := f.now
  cooldownUntil := f.cooldown.1
  cooldownSource := f.cooldown.2
  lastRunId := f.runId.strip
  updatedAt := f.now

/-- The circuit with one more failure. -/
def Circuit.extend (c : Circuit) (f : Failure) : Circuit :=
  { c with
    failureClass := f.failureClass.strip
    failureCount := c.failureCount + 1
    failureGeneration := c.failureGeneration + 1
    lastFailedAt := f.now
    cooldownUntil := if f.cooldown.1 ≤ c.cooldownUntil then c.cooldownUntil else f.cooldown.1
    cooldownSource := if f.cooldown.1 ≤ c.cooldownUntil then c.cooldownSource else f.cooldown.2
    lastRunId := f.runId.strip
    updatedAt := f.now }

def Failure.cleanEvidenceId (f : Failure) : Text :=
  f.evidenceId.strip

/-- The evidence of the failure is put down; there is nothing when it is there already. -/
def admitEvidence (s : HealthStore) (route : Route) (f : Failure) :
    Option (Table (Route × Text) Evidence) :=
  if f.cleanEvidenceId = [] then some s.events
  else s.events.insert? (route, f.cleanEvidenceId) f.evidence

/-- `ON CONFLICT DO UPDATE`, for a failure that is not older than the last one. -/
def upsertCircuit (health : Table Route Circuit) (route : Route) (f : Failure) :
    Table Route Circuit :=
  match health.get? route with
  | none => health.put route f.circuit
  | some c => if c.lastFailedAt ≤ f.now then health.put route (c.extend f) else health

def recordProviderRouteFailure (s : HealthStore) (raw : Route) (f : Failure) :
    Except String (HealthStore × Option Circuit) :=
  if f.opens = false then .ok (s, none)
  else if raw.clean.complete = false then
    .error "Provider route health requires a complete structural route"
  else
    match admitEvidence s raw.clean f with
    | none => .ok (s, s.health.get? raw.clean)
    | some events =>
      .ok (⟨upsertCircuit s.health raw.clean f, events⟩,
        (upsertCircuit s.health raw.clean f).get? raw.clean)

/-- The circuits whose cooldown is over are removed, of all routes. -/
def expire (s : HealthStore) (now : ℤ) : HealthStore :=
  { s with health := s.health.delete fun _ c => c.cooldownUntil ≤ now }

def getProviderRouteHealth (s : HealthStore) (raw : Route) (now : ℤ) :
    HealthStore × Option Circuit :=
  (expire s now, (expire s now).health.get? raw.clean)

/-- `ORDER BY updated_at DESC, profile, runtime, model` -/
def listedBefore (a b : Route × Circuit) : Bool :=
  b.2.updatedAt < a.2.updatedAt ∨ a.2.updatedAt = b.2.updatedAt ∧
    (a.1.profile < b.1.profile ∨ a.1.profile = b.1.profile ∧
      (a.1.runtime < b.1.runtime ∨ a.1.runtime = b.1.runtime ∧ a.1.model < b.1.model))

def listProviderRouteHealth (s : HealthStore) (tenantId ownerId : Text) (now : ℤ) :
    HealthStore × List (Route × Circuit) :=
  let rows := (expire s now).health.select fun route _ =>
    route.tenantId = tenantOrLocal tenantId ∧ route.ownerId = ownerId.strip
  (expire s now, rows.mergeSort fun a b => !listedBefore b a)

/-- The observation that a circuit is cleared on: an instant, unless the text is empty, and a
generation, unless it is a truth value. -/
structure Observation where
  expectedLastFailedAt : Option ℤ
  expectedGeneration : Option ℤ

def clearProviderRouteHealth (s : HealthStore) (raw : Route) (o : Observation) :
    HealthStore × Bool :=
  match o.expectedLastFailedAt, o.expectedGeneration with
  | some expected, some generation =>
    if generation < 1 then (s, false)
    else
      let matching := fun (route : Route) (c : Circuit) =>
        decide (route = raw.clean ∧ c.lastFailedAt = expected ∧ c.failureGeneration = generation)
      ({ s with health := s.health.delete matching }, s.health.any matching)
  | _, _ => (s, false)

/-! ## Records of one route -/

/-- The store after a record; one that is refused leaves it as it was. -/
def recordStep (raw : Route) (s : HealthStore) (f : Failure) : HealthStore :=
  match recordProviderRouteFailure s raw f with
  | .ok (s', _) => s'
  | .error _ => s

/-- Structured provider pressure with evidence. -/
def Failure.Pressure (f : Failure) : Prop :=
  f.opens = true ∧ f.cleanEvidenceId ≠ []

variable {raw route : Route} {s s' : HealthStore} {f : Failure} {calls : List Failure}
  {health : Table Route Circuit}

/-- Evidence that is there already changes nothing. -/
theorem recordStep_old (hf : f.Pressure) {e : Evidence}
    (he : s.events.get? (raw.clean, f.cleanEvidenceId) = some e) : recordStep raw s f = s := by
  have hnone : admitEvidence s raw.clean f = none := by
    rw [admitEvidence, if_neg hf.2, ← Option.not_isSome_iff_eq_none]
    intro hsome
    have hfree := Table.insert?_isSome.mp hsome
    rw [he] at hfree
    cases hfree
  by_cases hroute : raw.clean.complete = false
  · simp [recordStep, recordProviderRouteFailure, hf.1, hroute]
  · simp [recordStep, recordProviderRouteFailure, hf.1, hroute, hnone]

/-- New evidence is put down, and its failure is taken into the circuit. -/
theorem recordStep_new (hf : f.Pressure) (hroute : raw.clean.complete = true)
    (he : s.events.get? (raw.clean, f.cleanEvidenceId) = none) :
    (recordStep raw s f).health = upsertCircuit s.health raw.clean f ∧
      ∀ k, (recordStep raw s f).events.get? k =
        if k = (raw.clean, f.cleanEvidenceId) then some f.evidence else s.events.get? k := by
  obtain ⟨events, hevents⟩ := Option.isSome_iff_exists.mp
    ((s.events.insert?_isSome (r := f.evidence)).mpr he)
  have hadmit : admitEvidence s raw.clean f = some events := by
    rw [admitEvidence, if_neg hf.2]
    exact hevents
  have hstep : recordStep raw s f = ⟨upsertCircuit s.health raw.clean f, events⟩ := by
    simp [recordStep, recordProviderRouteFailure, hf.1, hroute, hadmit]
  rw [hstep]
  exact ⟨rfl, Table.get?_insert hevents⟩

/-- What the circuit of a route says of the calls that were made for it: it counts those that were
in time, and lasts as long as the longest of their cooldowns. -/
def Summary (calls : List Failure) : Option Circuit → Prop
  | none => calls = []
  | some c =>
    c.failureCount = (Arrivals.inTime Failure.cleanEvidenceId Failure.now calls).card ∧
      IsGreatest ((fun f : Failure => f.cooldown.1) ''
        (Arrivals.inTime Failure.cleanEvidenceId Failure.now calls : Set Failure))
          c.cooldownUntil ∧
      IsGreatest (Failure.now '' {f | f ∈ calls}) c.lastFailedAt

/-- A failure with new evidence. -/
theorem Summary.upsert (h : Summary calls (health.get? route))
    (hkeys : ∀ g ∈ calls, g.cleanEvidenceId ≠ f.cleanEvidenceId) :
    Summary (calls ++ [f]) ((upsertCircuit health route f).get? route) := by
  cases hget : health.get? route with
  | none =>
    rw [hget] at h
    obtain rfl : calls = [] := h
    rw [upsertCircuit, hget, Table.get?_put, if_pos rfl]
    simp [Summary, Failure.circuit, Arrivals.inTime_singleton]
  | some c =>
    rw [hget] at h
    obtain ⟨hcount, hcool, hlast⟩ := h
    have hnow : Failure.now '' {g | g ∈ calls ++ [f]} =
        insert f.now (Failure.now '' {g | g ∈ calls}) := by
      rw [← Set.image_insert_eq]
      congr 1
      ext g
      simp [or_comm]
    have htimely : (∀ g ∈ calls, g.now ≤ f.now) ↔ c.lastFailedAt ≤ f.now := by
      constructor
      · intro hall
        obtain ⟨g, hg, hglast⟩ := hlast.1
        exact hglast ▸ hall g hg
      · intro hle g hg
        exact (hlast.2 ⟨g, hg, rfl⟩).trans hle
    have hgreatest := hlast.insert f.now
    rw [← hnow] at hgreatest
    rw [upsertCircuit, hget]
    simp only
    split
    · rename_i hle
      rw [Table.get?_put, if_pos rfl, Summary, Arrivals.inTime_append_new hkeys,
        if_pos (htimely.mpr hle)]
      have hfresh : f ∉ Arrivals.inTime Failure.cleanEvidenceId Failure.now calls :=
        fun hmem => hkeys f (Arrivals.mem_inTime.mp hmem).1 rfl
      refine ⟨?_, ?_, ?_⟩
      · rw [Finset.card_insert_of_notMem hfresh, ← hcount]
        rfl
      · rw [Finset.coe_insert, Set.image_insert_eq]
        have hmax := hcool.insert f.cooldown.1
        rwa [max_def] at hmax
      · rwa [max_eq_left hle] at hgreatest
    · rename_i hle
      rw [hget, Summary, Arrivals.inTime_append_new hkeys, if_neg (mt htimely.mp hle)]
      rw [max_eq_right (not_le.mp hle).le] at hgreatest
      exact ⟨hcount, hcool, hgreatest⟩

theorem Summary.repeat {o : Option Circuit} (h : Summary calls o) (hf : f ∈ calls) :
    Summary (calls ++ [f]) o := by
  cases o with
  | none =>
    obtain rfl : calls = [] := h
    cases hf
  | some =>
    have hsame : {g | g ∈ calls ++ [f]} = {g | g ∈ calls} := by
      ext g
      exact ⟨fun hg => (List.mem_append.mp hg).elim id fun hgf => List.mem_singleton.mp hgf ▸ hf,
        List.mem_append_left [f]⟩
    rw [Summary, Arrivals.inTime_append_old hf, hsame]
    exact h

/-- What the store holds after calls for records of a set: the circuit and the evidence. -/
structure Tracks (raw : Route) (records : Finset Failure) (calls : List Failure)
    (s : HealthStore) : Prop where
  circuit : Summary calls (s.health.get? raw.clean)
  events : ∀ f ∈ records, s.events.get? (raw.clean, f.cleanEvidenceId) = none ↔ f ∉ calls

/-- The records are structured provider pressure with evidence of their own. -/
structure Distinct (records : Finset Failure) : Prop where
  pressure : ∀ f ∈ records, f.Pressure
  distinct : ∀ f ∈ records, ∀ g ∈ records, f.cleanEvidenceId = g.cleanEvidenceId → f = g

variable {records : Finset Failure}

theorem Tracks.step (h : Tracks raw records calls s) (hroute : raw.clean.complete = true)
    (hdistinct : Distinct records) (hcalls : ∀ g ∈ calls, g ∈ records) (hf : f ∈ records) :
    Tracks raw records (calls ++ [f]) (recordStep raw s f) := by
  by_cases hold : f ∈ calls
  · obtain ⟨e, he⟩ := Option.ne_none_iff_exists'.mp
      (fun hnone => (h.events f hf).mp hnone hold)
    rw [recordStep_old (hdistinct.pressure f hf) he]
    refine ⟨h.circuit.repeat hold, fun g hg => ?_⟩
    rw [h.events g hg, List.mem_append, List.mem_singleton, not_iff_not]
    exact ⟨Or.inl, fun hg => hg.elim id fun hgf => hgf ▸ hold⟩
  · have hkeys : ∀ g ∈ calls, g.cleanEvidenceId ≠ f.cleanEvidenceId := by
      intro g hg hkey
      exact hold (hdistinct.distinct g (hcalls g hg) f hf hkey ▸ hg)
    obtain ⟨hhealth, hevents⟩ :=
      recordStep_new (hdistinct.pressure f hf) hroute ((h.events f hf).mpr hold)
    refine ⟨hhealth ▸ h.circuit.upsert hkeys, fun g hg => ?_⟩
    rw [hevents, List.mem_append, List.mem_singleton]
    split
    · rename_i hkey
      have hgf : g = f := hdistinct.distinct g hg f hf (Prod.mk.inj hkey).2
      simp [hgf]
    · rename_i hkey
      have hgf : g ≠ f := by
        rintro rfl
        exact hkey rfl
      rw [h.events g hg]
      simp [hgf]

/-- After the calls for the records, in any order and with any repetitions. -/
theorem Tracks.run {pre : List Failure} (h : Tracks raw records pre s)
    (hroute : raw.clean.complete = true) (hdistinct : Distinct records)
    (hpre : ∀ g ∈ pre, g ∈ records) (hcalls : ∀ g ∈ calls, g ∈ records) :
    Tracks raw records (pre ++ calls) (Transition.run (recordStep raw) s calls) := by
  induction calls generalizing pre s with
  | nil => simpa using h
  | cons f calls ih =>
    rw [List.forall_mem_cons] at hcalls
    rw [Transition.run_cons, List.append_cons]
    refine ih (h.step hroute hdistinct hpre hcalls.1) (fun g hg => ?_) hcalls.2
    rw [List.mem_append, List.mem_singleton] at hg
    exact hg.elim (hpre g) fun hgf => hgf ▸ hcalls.1

/-! ## Runs -/

inductive HealthEvent
  | record (raw : Route) (f : Failure)
  | get (raw : Route) (now : ℤ)
  | list (tenantId ownerId : Text) (now : ℤ)
  | clear (raw : Route) (o : Observation)

def step (s : HealthStore) : HealthEvent → HealthStore
  | .record raw f => recordStep raw s f
  | .get raw now => (getProviderRouteHealth s raw now).1
  | .list tenantId ownerId now => (listProviderRouteHealth s tenantId ownerId now).1
  | .clear raw o => (clearProviderRouteHealth s raw o).1

/-- The time of a failure that the event counts on the circuit of a route. -/
def countedAt (route : Route) (s : HealthStore) (e : HealthEvent) : Option ℤ :=
  match e with
  | .record _ f =>
    if (step s e).health.get? route = s.health.get? route then none else some f.now
  | _ => none

/-- The store since an observation of the circuit of a route, with the times of the failures that
were counted on it, and of those among them that were counted after it had been removed. -/
structure Watch where
  store : HealthStore
  counted : List ℤ := []
  removed : Bool := false
  reopened : List ℤ := []

def watchStep (route : Route) (w : Watch) (e : HealthEvent) : Watch where
  store := step w.store e
  counted := w.counted ++ (countedAt route w.store e).toList
  removed := w.removed || ((step w.store e).health.get? route).isNone
  reopened := w.reopened ++ if w.removed then (countedAt route w.store e).toList else []

theorem get?_upsertCircuit (health : Table Route Circuit) (route route' : Route) (f : Failure) :
    (upsertCircuit health route f).get? route' = health.get? route' ∨ route' = route ∧
      ((health.get? route = none ∧ (upsertCircuit health route f).get? route = some f.circuit) ∨
        ∃ c, health.get? route = some c ∧
          (upsertCircuit health route f).get? route = some (c.extend f)) := by
  by_cases hroute : route' = route
  · subst hroute
    cases hget : health.get? route' with
    | none => simp [upsertCircuit, hget, Table.get?_put]
    | some c =>
      by_cases hle : c.lastFailedAt ≤ f.now <;> simp [upsertCircuit, hget, hle, Table.get?_put]
  · left
    cases hget : health.get? route with
    | none => simp [upsertCircuit, hget, Table.get?_put, hroute]
    | some c =>
      by_cases hle : c.lastFailedAt ≤ f.now <;>
        simp [upsertCircuit, hget, hle, Table.get?_put, hroute]

/-- A record leaves the circuits as they were, or takes the failure into one of them. -/
theorem recordStep_health (raw : Route) (s : HealthStore) (f : Failure) :
    (recordStep raw s f).health = s.health ∨
      (recordStep raw s f).health = upsertCircuit s.health raw.clean f := by
  unfold recordStep recordProviderRouteFailure
  by_cases hopens : f.opens = false
  · simp [hopens]
  · by_cases hroute : raw.clean.complete = false
    · simp [hopens, hroute]
    · cases admitEvidence s raw.clean f <;> simp [hopens, hroute]

theorem get?_delete_or (p : Route → Circuit → Bool) (route : Route) :
    (health.delete p).get? route = health.get? route ∨ (health.delete p).get? route = none := by
  rw [Table.get?_delete]
  cases health.get? route with
  | none => exact Or.inl rfl
  | some c => cases hp : p route c <;> simp [hp]

/-- What an event does to the circuit of a route: it leaves or removes it, opens a new one, or
counts one more failure. -/
theorem step_cases (route : Route) (s : HealthStore) (e : HealthEvent) :
    ((step s e).health.get? route = s.health.get? route ∨ (step s e).health.get? route = none) ∧
        countedAt route s e = none ∨
      ∃ f, countedAt route s e = some f.now ∧
        ((step s e).health.get? route = some f.circuit ∧ s.health.get? route = none ∨
          ∃ c, s.health.get? route = some c ∧
            (step s e).health.get? route = some (c.extend f)) := by
  cases e with
  | record raw f =>
    rcases recordStep_health raw s f with hsame | hupsert
    · exact Or.inl ⟨Or.inl (congrArg (·.get? route) hsame), by simp [countedAt, step, hsame]⟩
    · by_cases hchanged : (recordStep raw s f).health.get? route = s.health.get? route
      · exact Or.inl ⟨Or.inl hchanged, by simp [countedAt, step, hchanged]⟩
      · refine Or.inr ⟨f, by simp [countedAt, step, hchanged], ?_⟩
        rw [hupsert] at hchanged
        rcases get?_upsertCircuit s.health raw.clean route f with heq | ⟨rfl, ⟨hnone, hnew⟩ | hsome⟩
        · exact absurd heq hchanged
        · exact Or.inl ⟨(congrArg (·.get? raw.clean) hupsert).trans hnew, hnone⟩
        · obtain ⟨c, hc, hextend⟩ := hsome
          exact Or.inr ⟨c, hc, (congrArg (·.get? raw.clean) hupsert).trans hextend⟩
  | get => exact Or.inl ⟨get?_delete_or _ route, rfl⟩
  | list => exact Or.inl ⟨get?_delete_or _ route, rfl⟩
  | clear =>
    refine Or.inl ⟨?_, rfl⟩
    rw [step, clearProviderRouteHealth]
    split
    · split
      · exact Or.inl rfl
      · exact get?_delete_or _ route
    · exact Or.inl rfl

/-- Since the observation of a circuit: either it is there and its generation counts the failures,
or it was removed and another one has the time of a failure that was counted since then. -/
def Observed (route : Route) (c : Circuit) (w : Watch) : Prop :=
  (w.removed = false ∧ ∃ d, w.store.health.get? route = some d ∧
    d.failureGeneration = c.failureGeneration + w.counted.length) ∨
  (w.removed = true ∧ ∀ d, w.store.health.get? route = some d → d.lastFailedAt ∈ w.reopened)

theorem Observed.step {c : Circuit} {w : Watch} (h : Observed route c w) (e : HealthEvent) :
    Observed route c (watchStep route w e) := by
  unfold Observed watchStep
  rcases h with ⟨hkept, d, hd, hgeneration⟩ | ⟨hremoved, hlast⟩
  · rcases step_cases route w.store e with ⟨hsame | hnone, hcounted⟩ |
      ⟨f, hcounted, ⟨-, hnone⟩ | ⟨d', hd', hextend⟩⟩
    · simp [hsame, hcounted, hkept, hd, hgeneration]
    · simp [hnone]
    · rw [hnone] at hd
      cases hd
    · rw [hd] at hd'
      obtain rfl := Option.some.inj hd'
      simp [hextend, hcounted, hkept, Circuit.extend, hgeneration]
      omega
  · right
    refine ⟨by simp [hremoved], fun d hd => ?_⟩
    rcases step_cases route w.store e with ⟨hsame | hnone, hcounted⟩ |
      ⟨f, hcounted, ⟨hnew, -⟩ | ⟨d', -, hextend⟩⟩
    · rw [hsame] at hd
      exact List.mem_append_left _ (hlast d hd)
    · rw [hnone] at hd
      cases hd
    · rw [hnew] at hd
      obtain rfl := Option.some.inj hd
      simp [hremoved, hcounted, Failure.circuit]
    · rw [hextend] at hd
      obtain rfl := Option.some.inj hd
      simp [hremoved, hcounted, Circuit.extend]

/-- A circuit that is cleared has the last failure and the generation of the observation. -/
theorem clearProviderRouteHealth_eq_true {expected : ℤ} {generation : ℕ}
    (h : (clearProviderRouteHealth s raw ⟨some expected, some generation⟩).2 = true) :
    ∃ d, s.health.get? raw.clean = some d ∧ d.lastFailedAt = expected ∧
      d.failureGeneration = generation := by
  rw [clearProviderRouteHealth] at h
  simp only at h
  split at h
  · cases h
  · simp only [Table.any_eq_true, decide_eq_true_eq] at h
    obtain ⟨route, d, hd, rfl, hlast, hgeneration⟩ := h
    exact ⟨d, hd, hlast, by exact_mod_cast hgeneration⟩

/-- The route has no circuit, and none of the evidence of the records is known for it. -/
structure Unrecorded (s : HealthStore) (raw : Route) (records : Finset Failure) : Prop where
  complete : raw.clean.complete = true
  circuit : s.health.get? raw.clean = none
  events : ∀ f ∈ records, s.events.get? (raw.clean, f.cleanEvidenceId) = none

/-- The calls for the records in any order and with any repetitions open a circuit that counts the
records that are in time, and lasts as long as the longest of their cooldowns: these are all records
when no call comes before the first one for an older failure. And a circuit is cleared only when no
failure was counted on it since the observation, unless it was removed and a failure of the very
time observed was counted after that. -/
theorem route_circuit :
    (∀ (s : HealthStore) (raw : Route) (records : Finset Failure) (calls : List Failure),
      Unrecorded s raw records → Distinct records → records.Nonempty →
        (∀ f, f ∈ calls ↔ f ∈ records) →
          ∃ c, (Transition.run (recordStep raw) s calls).health.get? raw.clean = some c ∧
            Summary calls (some c) ∧
            ((∀ f ∈ records, ∀ g ∈ Arrivals.before Failure.cleanEvidenceId calls f,
                g.now ≤ f.now) →
              c.failureCount = records.card ∧
                IsGreatest ((fun f : Failure => f.cooldown.1) '' (records : Set Failure))
                  c.cooldownUntil)) ∧
    ∀ (s : HealthStore) (raw : Route) (c : Circuit) (es : List HealthEvent) (w : Watch),
      s.health.get? raw.clean = some c →
        w = Transition.run (watchStep raw.clean) { store := s } es →
          c.lastFailedAt ∉ w.reopened →
            (clearProviderRouteHealth w.store raw
              ⟨some c.lastFailedAt, some c.failureGeneration⟩).2 = true → w.counted = [] := by
  constructor
  · intro s raw records calls hfresh hdistinct hne hcalls
    have htracks : Tracks raw records [] s := by
      refine ⟨?_, fun f hf => by simp [hfresh.events f hf]⟩
      rw [hfresh.circuit]
      rfl
    have hend := htracks.run hfresh.complete hdistinct (by simp) (fun f hf => (hcalls f).mp hf)
    rw [List.nil_append] at hend
    obtain ⟨f, hf⟩ := hne
    have hsummary := hend.circuit
    cases hget : (Transition.run (recordStep raw) s calls).health.get? raw.clean with
    | none =>
      rw [hget] at hsummary
      obtain rfl : calls = [] := hsummary
      exact absurd ((hcalls f).mpr hf) List.not_mem_nil
    | some c =>
      rw [hget] at hsummary
      refine ⟨c, rfl, hsummary, fun htimely => ?_⟩
      have hall : Arrivals.inTime Failure.cleanEvidenceId Failure.now calls = records := by
        ext g
        rw [Arrivals.mem_inTime, hcalls]
        exact ⟨And.left, fun hg => ⟨hg, htimely g hg⟩⟩
      rw [Summary, hall] at hsummary
      exact ⟨hsummary.1, hsummary.2.1⟩
  · rintro s raw c es w hc rfl hreopened hclear
    have hobserved : Observed raw.clean c
        (Transition.run (watchStep raw.clean) { store := s } es) := by
      have hstart : Observed raw.clean c { store := s } := Or.inl ⟨rfl, c, hc, rfl⟩
      exact Transition.invariant_run (C := fun _ _ => True) (fun _ e h _ => h.step e) hstart
        (Transition.along_of_forall _ (fun _ _ => trivial) _ es)
    obtain ⟨d, hd, hlast, hgeneration⟩ := clearProviderRouteHealth_eq_true hclear
    rcases hobserved with ⟨-, d', hd', hcount⟩ | ⟨-, hother⟩
    · rw [hd] at hd'
      obtain rfl := Option.some.inj hd'
      exact List.length_eq_zero_iff.mp (by omega)
    · exact absurd (hlast ▸ hother d hd) hreopened

/-! ## Two failures of one route -/

def sampleRoute : Route where
  tenantId := []
  ownerId := ['o']
  profile := ['p']
  runtime := ['r']
  model := ['m']

def sampleFailure (evidence : Char) (now retryAt : ℤ) : Failure where
  failureClass := "provider_rate_limited".toList
  failureStructured := true
  defaultCooldown := 300 * second
  retryAt := some retryAt
  evidenceId := [evidence]
  now := now

def emptyHealth : HealthStore := ⟨.empty, .empty⟩

/-- The number of failures and the end of the cooldown after the calls for some records. -/
def sampleCircuit (calls : List Failure) : Option (ℕ × ℤ) :=
  ((Transition.run (recordStep sampleRoute) emptyHealth calls).health.get? sampleRoute.clean).map
    fun c => (c.failureCount, c.cooldownUntil)

def sampleRecords : Finset Failure :=
  {sampleFailure 'a' 1 900, sampleFailure 'b' 2 300}

/-- The store after the first of the records. -/
def openedHealth : HealthStore :=
  recordStep sampleRoute emptyHealth (sampleFailure 'a' 1 900)

theorem route_circuit_sample :
    (∃ c, (Transition.run (recordStep sampleRoute) emptyHealth
        [sampleFailure 'a' 1 900, sampleFailure 'b' 2 300, sampleFailure 'a' 1 900]).health.get?
          sampleRoute.clean = some c ∧ c.failureCount = sampleRecords.card) ∧
      (Transition.run (watchStep sampleRoute.clean) { store := openedHealth }
        [.record sampleRoute (sampleFailure 'a' 1 900), .get sampleRoute 2]).counted = [] := by
  have hmem : ∀ f, f ∈ sampleRecords ↔
      f = sampleFailure 'a' 1 900 ∨ f = sampleFailure 'b' 2 300 := by
    intro f
    rw [sampleRecords, Finset.mem_insert, Finset.mem_singleton]
  have hboth : ∀ {P : Failure → Prop}, P (sampleFailure 'a' 1 900) → P (sampleFailure 'b' 2 300) →
      ∀ f ∈ sampleRecords, P f := by
    rintro P ha hb f hf
    rcases (hmem f).mp hf with rfl | rfl
    · exact ha
    · exact hb
  constructor
  · obtain ⟨c, hc, -, hall⟩ := route_circuit.1 emptyHealth sampleRoute sampleRecords
      [sampleFailure 'a' 1 900, sampleFailure 'b' 2 300, sampleFailure 'a' 1 900]
      ⟨by decide +kernel, by decide +kernel, hboth (by decide +kernel) (by decide +kernel)⟩
      ⟨hboth ⟨by decide +kernel, by decide⟩ ⟨by decide +kernel, by decide⟩,
        hboth (hboth (fun _ => rfl) (fun h => by revert h; decide))
          (hboth (fun h => by revert h; decide) (fun _ => rfl))⟩
      ⟨_, (hmem _).mpr (Or.inl rfl)⟩
      (fun f => by rw [hmem]; simp only [List.mem_cons, List.not_mem_nil, or_false]; tauto)
    exact ⟨c, hc, (hall (hboth (by decide +kernel) (by decide +kernel))).1⟩
  · exact route_circuit.2 openedHealth sampleRoute (sampleFailure 'a' 1 900).circuit _ _
      (by decide +kernel) rfl (by decide +kernel) (by decide +kernel)

/-- The older failure does not count after the newer one, although its cooldown is longer. -/
theorem order_matters :
    sampleCircuit [sampleFailure 'a' 1 900, sampleFailure 'b' 2 300] = some (2, 900) ∧
      sampleCircuit [sampleFailure 'b' 2 300, sampleFailure 'a' 1 900] = some (1, 300) := by
  decide +kernel

end GlassHive.RouteHealth
