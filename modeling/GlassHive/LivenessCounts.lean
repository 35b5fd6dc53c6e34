import GlassHive.Observations

/-!
# Counting liveness observations

Along every run in which no confirmation invokes a runtime with retries counted and no observation
at its limit misses its worker, the count of a run is that of the record, no observation is applied
twice, and the observation that reaches the limit moves its attempt once, with one callback.
-/

namespace GlassHive

open Relational Transition

namespace LivenessRecord

variable {H : LivenessSource → OperationId} (idOrder : RunId → RunId → Bool) {h : LivenessRecord}

/-- What is kept by every step that is undisturbed. -/
structure Sound (h : LivenessRecord) : Prop where
  counts : h.base.store.CountsExactly h.applied
  invoked : h.base.store.AppliedInvoked h.applied
  running : ∀ id t, h.base.store.attempts.get? id = some t → t.RunsInvoked
  recorded : ∀ p ∈ h.applied, (h.base.events.get? p.source).isSome = true
  once : (h.applied.map AppliedObservation.source).Nodup
  ended : ∀ e ∈ h.attended, ∃ id t, e.2 = some id ∧ h.base.store.attempts.get? id = some t ∧
    t.endedAt.isSome = true
  attendedOnce : h.attended.Nodup

theorem sound_init (settings : Settings) : (init settings).Sound where
  counts _ _ _ _ hr := by cases hr
  invoked _ hp := by cases hp
  running _ _ ht := by cases ht
  recorded _ hp := by cases hp
  once := List.nodup_nil
  ended _ he := by cases he
  attendedOnce := List.nodup_nil

section Kept

variable {s s' : Store}

theorem runsInvoked_of_follow (hs : s.AttemptsFollow s' (fun _ => False) fun _ _ => False)
    (h : ∀ id t, s.attempts.get? id = some t → t.RunsInvoked) :
    ∀ id t, s'.attempts.get? id = some t → t.RunsInvoked := by
  intro id t' ht'
  cases ht : s.attempts.get? id with
  | none => exact (hs.fresh id t' ht ht').elim
  | some t =>
    obtain ⟨t₁, ht₁, hfollows⟩ := hs.kept id t ht
    obtain rfl := Option.some.inj (ht'.symm.trans ht₁)
    exact hfollows.running (h id t ht)

/-- The moves of a judgement are of attempts that were never moved. -/
theorem nodup_append_attendedIn {attended : List (RunId × Option AttemptId)}
    (hs : s.JudgedTo s') (hnodup : attended.Nodup)
    (hended : ∀ e ∈ attended, ∃ id t, e.2 = some id ∧ s.attempts.get? id = some t ∧
      t.endedAt.isSome = true) : (s.attendedIn s' ++ attended).Nodup := by
  rw [List.nodup_append]
  refine ⟨Store.nodup_attendedIn, hnodup, ?_⟩
  rintro e he e' he' rfl
  obtain ⟨id, hid, ⟨t, ht, -, hlive⟩, -⟩ := hs.ended he
  obtain ⟨id', t', hid', ht', hended'⟩ := hended e he'
  rw [hid] at hid'
  obtain rfl := Option.some.inj hid'
  rw [ht] at ht'
  obtain rfl := Option.some.inj ht'
  rw [hlive] at hended'
  cases hended'

theorem ended_append_attendedIn {attended : List (RunId × Option AttemptId)}
    (hs : s.JudgedTo s') (hended : ∀ e ∈ attended, ∃ id t, e.2 = some id ∧
      s.attempts.get? id = some t ∧ t.endedAt.isSome = true) :
    ∀ e ∈ s.attendedIn s' ++ attended, ∃ id t, e.2 = some id ∧ s'.attempts.get? id = some t ∧
      t.endedAt.isSome = true := by
  intro e he
  rcases List.mem_append.mp he with he | he
  · obtain ⟨id, hid, -, t, ht, hend⟩ := hs.ended he
    exact ⟨id, t, hid, ht, hend⟩
  · obtain ⟨id, t, hid, ht, hend⟩ := hended e he
    obtain ⟨t', ht', hfollows⟩ := hs.follow.kept id t ht
    exact ⟨id, t', hid, ht', hfollows.ended hend⟩

theorem appliedInvoked_of_follow {applied : List AppliedObservation}
    (hs : s.AttemptsFollow s' (fun _ => False) fun _ _ => False)
    (h : s.AppliedInvoked applied) : s'.AppliedInvoked applied := by
  intro p hp
  obtain ⟨t, ht, hinvoked⟩ := h p hp
  obtain ⟨t', ht', hfollows⟩ := hs.kept _ t ht
  exact ⟨t', ht', hfollows.invoked hinvoked⟩

end Kept

/-! ### Transactions -/

theorem sound_call_iff (hs : h.Sound) (c : Call) :
    h.Counted H idOrder (.call c) ↔ h.Undisturbed (.call c) := by
  have hiff := Store.countsExactly_step_iff (c := c) hs.counts hs.invoked
  constructor
  · exact fun hcounted => hiff.mp hcounted.counts
  · intro hquiet
    exact ⟨hiff.mpr hquiet, hs.once, hs.attendedOnce, fun now o hop => by cases hop⟩

theorem sound_call (hs : h.Sound) {c : Call} (hcounted : h.Counted H idOrder (.call c)) :
    (h.step H idOrder (.call c)).Sound where
  counts := hcounted.counts
  invoked := hs.invoked.step
  running id t' ht' := by
    have hfollows := h.base.store.attempts_step c
    cases ht : h.base.store.attempts.get? id with
    | none =>
      have hopens := hfollows.fresh id t' ht ht'
      unfold Store.Opens at hopens
      split at hopens
      · obtain ⟨_, _, -, -, rfl⟩ := hopens
        intro _ hstate
        cases hstate
      · exact hopens.elim
    | some t =>
      obtain ⟨t₁, ht₁, hgoes⟩ := hfollows.kept id t ht
      obtain rfl := Option.some.inj (ht'.symm.trans ht₁)
      exact hgoes.running (hs.running id t ht)
  recorded := hs.recorded
  once := hs.once
  ended e he := by
    obtain ⟨id, t, hid, ht, hend⟩ := hs.ended e he
    obtain ⟨t', ht', hfollows⟩ := (h.base.store.attempts_step c).kept id t ht
    exact ⟨id, t', hid, ht', hfollows.ended hend⟩
  attendedOnce := hs.attendedOnce

/-! ### Sweeps -/

theorem events_sweep {now observed inactivity : Time} (es : List (RunId × Run)) {d : LivenessStore}
    {source : LivenessSource} (hsource : (d.events.get? source).isSome = true) :
    ((es.foldl (LivenessStore.sweepRun H now observed inactivity) d).events.get? source).isSome =
      true := by
  induction es generalizing d with
  | nil => exact hsource
  | cons e es ih =>
    refine ih ?_
    unfold LivenessStore.sweepRun
    split
    · split
      · exact hsource
      dsimp only
      split
      · exact hsource
      · exact Table.isSome_get?_insert_getD hsource
    · exact hsource

theorem counted_sweep (hs : h.Sound) {now observed inactivity : Time} {limit : ℕ} :
    h.Counted H idOrder (.judge ⟨now, .sweep observed inactivity limit⟩) ∧
      (h.step H idOrder (.judge ⟨now, .sweep observed inactivity limit⟩)).Sound := by
  generalize hstep : h.step H idOrder (.judge ⟨now, .sweep observed inactivity limit⟩) = h'
  have hbase : h'.base = h.base.step H idOrder ⟨now, .sweep observed inactivity limit⟩ := by
    rw [← hstep]
    rfl
  have happlied : h'.applied = h.applied := by
    rw [← hstep]
    rfl
  have hattended : h'.attended = h.base.store.attendedIn h'.base.store ++ h.attended := by
    rw [← hstep]
    rfl
  have hjudged : h.base.store.JudgedTo h'.base.store := by
    rw [hbase]
    exact Store.judgedTo_sweep _ Store.judgedTo_refl
  have hcounts : h'.base.store.CountsExactly h'.applied := by
    rw [happlied]
    refine hs.counts.carried (fun id t ht => hjudged.follow.invoked (fun _ _ h => h.elim) ht)
      fun id v' hv' => ?_
    rw [hbase] at hv'
    obtain ⟨v, hv, hrow⟩ := LivenessStore.step_judges _ _ hv'
    refine Or.inr ⟨v, hv, ?_⟩
    cases hrow with
    | kept => exact Store.carries_of_eq rfl rfl
    | swept => exact Or.inr (Or.inr ⟨rfl, rfl⟩)
    | progressed o hop => cases hop
    | retried o hop => cases hop
    | attended o hop => cases hop
  have hnodup : h'.attended.Nodup := by
    rw [hattended]
    exact nodup_append_attendedIn hjudged hs.attendedOnce hs.ended
  constructor
  · exact
      { counts := hstep ▸ hcounts
        once := by rw [hstep, happlied]; exact hs.once
        attendedOnce := hstep ▸ hnodup
        observes := fun now o hop => by cases hop }
  · exact
      { counts := hcounts
        invoked := by rw [happlied]; exact appliedInvoked_of_follow hjudged.follow hs.invoked
        running := runsInvoked_of_follow hjudged.follow hs.running
        recorded := by
          rw [happlied, hbase]
          exact fun p hp => events_sweep _ (hs.recorded p hp)
        once := by rw [happlied]; exact hs.once
        ended := by rw [hattended]; exact ended_append_attendedIn hjudged hs.ended
        attendedOnce := hnodup }

/-! ### Observations -/

section RetriesSince

variable {p : AppliedObservation} {applied : List AppliedObservation} {runId : RunId}
  {attemptId : AttemptId}

theorem retriesSince_cons_of_ne (hne : p.runId ≠ runId) :
    retriesSince (p :: applied) runId attemptId = retriesSince applied runId attemptId := by
  unfold retriesSince
  rw [List.filter_cons_of_neg (by simp [hne])]

theorem retriesSince_cons (hrun : p.runId = runId) (hattempt : p.attemptId = attemptId) :
    retriesSince (p :: applied) runId attemptId =
      if p.kind = .internalRetry then retriesSince applied runId attemptId + 1 else 0 := by
  unfold retriesSince
  rw [List.filter_cons_of_pos (by simp [hrun, hattempt]), List.takeWhile_cons]
  by_cases hkind : p.kind = .internalRetry
  · simp [hkind]
  · simp [hkind]

theorem retriesSince_applied (o : LivenessObservation) :
    retriesSince (o.applied :: applied) o.runId o.expectedAttemptId =
      if o.kind = .internalRetry then retriesSince applied o.runId o.expectedAttemptId + 1 else 0 :=
  retriesSince_cons rfl rfl

end RetriesSince

section Observation

variable {d : LivenessStore} {now : Time} {o : LivenessObservation} {r : Run} {w : Worker}
  {applied : List AppliedObservation}

/-- The retries of the observed attempt are those that the run counts. -/
theorem retriesSince_of_applies (ha : d.Applies now o r w) (hcounts : d.store.CountsExactly applied)
    (hrunning : ∀ id t, d.store.attempts.get? id = some t → t.RunsInvoked) :
    retriesSince applied o.runId o.expectedAttemptId = r.liveness.internalRetryCount := by
  obtain ⟨t, hattempt, htstate, htended⟩ := ha.live.attempt
  obtain ⟨-, ht, -⟩ := Store.activeAttempt_eq_some hattempt
  exact (hcounts o.runId r o.expectedAttemptId t ha.run hattempt
    (hrunning _ t ht htended htstate)).symm

theorem kind_of_applies (ha : d.Applies now o r w) :
    o.kind = .meaningfulProgress ∨ o.kind = .internalRetry := by
  cases hkind : o.kind with
  | meaningfulProgress => exact Or.inl rfl
  | internalRetry => exact Or.inr rfl
  | inactivityTimeout =>
    have hcheck := ha.check
    rw [LivenessObservation.check, hkind] at hcheck
    cases hcheck

theorem reaches_iff_atLimit (hs : h.Sound) (ha : h.base.Applies now o r w) :
    h.Reaches H idOrder now o ↔ LivenessStore.AtLimit o r := by
  have happlied : (h.step H idOrder (.judge ⟨now, .observe o⟩)).applied =
      o.applied :: h.applied := by
    simp only [step, (ha.step (H := H) idOrder).2, Option.toList_some,
      List.singleton_append]
  unfold Reaches LivenessStore.AtLimit
  simp only [happlied, true_and]
  refine and_congr_right fun hkind => ?_
  rw [retriesSince_applied, if_pos hkind, retriesSince_of_applies ha hs.counts hs.running]

theorem judgedTo_observed (ha : d.Applies now o r w) : d.store.JudgedTo (d.observed now o) where
  follow := Store.attemptsFollow_of_eq rfl
  rows id v' hv' := by
    rw [ha.get?_observed] at hv'
    split at hv'
    · rename_i hid
      subst hid
      obtain rfl := Option.some.inj hv'
      exact ⟨r, ha.run, LivenessStore.apply_activeAttemptId, Or.inl LivenessStore.apply_state⟩
    · exact ⟨v', hv', rfl, Or.inl rfl⟩

/-- An applied observation counts itself. -/
theorem countsExactly_observed (ha : d.Applies now o r w) (hcounts : d.store.CountsExactly applied)
    (hrunning : ∀ id t, d.store.attempts.get? id = some t → t.RunsInvoked) :
    (d.observed now o).CountsExactly (o.applied :: applied) := by
  intro id v attemptId t hv hactive hinvoked
  rw [ha.get?_observed] at hv
  split at hv
  · rename_i hid
    subst hid
    obtain rfl := Option.some.inj hv
    have hid := (Store.activeAttempt_eq_some hactive).1
    rw [LivenessStore.apply_activeAttemptId, ha.live.active] at hid
    obtain rfl := Option.some.inj hid
    rw [retriesSince_applied, retriesSince_of_applies ha hcounts hrunning]
    unfold LivenessObservation.apply
    rcases kind_of_applies ha with hkind | hkind
    · simp [hkind, Run.progressed]
    · simp [hkind, Run.retried]
  · rename_i hid
    rw [retriesSince_cons_of_ne (Ne.symm hid)]
    exact hcounts id v attemptId t hv hactive hinvoked

/-- What the judgement of an applied observation leaves, with its move or without. -/
theorem store_of_applies (ha : d.Applies now o r w) :
    (LivenessStore.AtLimit o r ∧ w.lastRunId = some o.runId →
      (d.observed now o).Attends (d.step H idOrder ⟨now, .observe o⟩).store o.runId
        o.expectedAttemptId ∧
      ∃ key row, key.operation = .operation (H o.source) ∧ key.runId = some o.runId ∧
        key.name = "callback.run_needs_input" ∧ row.status = .pending ∧
        (d.step H idOrder ⟨now, .observe o⟩).store.effects =
          (d.store.effects.insert? key row).getD d.store.effects) ∧
    (¬(LivenessStore.AtLimit o r ∧ w.lastRunId = some o.runId) →
      (d.step H idOrder ⟨now, .observe o⟩).store = d.observed now o) := by
  obtain ⟨-, -, hmoved, hkept⟩ := ha.recordObservation (H := H)
  rw [(ha.step (H := H) idOrder).1]
  refine ⟨fun hlimit => ?_, hkept⟩
  obtain ⟨leaseId, htrans, hstore⟩ := hmoved hlimit
  obtain ⟨attemptId, hactive, hattends⟩ := Store.attends_of_transition htrans
  rw [LivenessStore.apply_activeAttemptId, ha.live.active] at hactive
  obtain rfl := Option.some.inj hactive
  refine ⟨hattends, ?_⟩
  rw [hstore, Store.effects_attend]
  exact ⟨_, _, rfl, rfl, rfl, rfl, rfl⟩

/-- The one run that a move with its observation is of. -/
theorem attendedIn_of_attends {s' : Store} (ha : d.Applies now o r w)
    (hattends : (d.observed now o).Attends s' o.runId o.expectedAttemptId) :
    d.store.attendedIn s' = [(o.runId, some o.expectedAttemptId)] := by
  have hmem : ∀ e, e ∈ d.store.attendedIn s' ↔ e ∈ [(o.runId, some o.expectedAttemptId)] := by
    intro e
    rw [Store.mem_attendedIn, List.mem_singleton]
    constructor
    · rintro ⟨v, v', hv, hstate, hv', hstate', hactive⟩
      rw [hattends.runs, ha.get?_observed] at hv'
      by_cases hid : e.1 = o.runId
      · rw [hid, ha.run] at hv
        obtain rfl := Option.some.inj hv
        exact Prod.ext hid (hactive.trans ha.live.active)
      · -- the other runs are as they were
        rw [if_neg hid, hv, Option.map_some, if_neg hid] at hv'
        obtain rfl := Option.some.inj hv'
        rw [hstate] at hstate'
        cases hstate'
    · rintro rfl
      have hrow : s'.runs.get? o.runId = some (o.apply now r).attention := by
        rw [hattends.runs, ha.get?_observed]
        simp
      exact ⟨r, _, ha.run, ha.live.running, hrow, rfl, ha.live.active.symm⟩
  have hperm : (d.store.attendedIn s').Perm [(o.runId, some o.expectedAttemptId)] :=
    (List.perm_ext_iff_of_nodup Store.nodup_attendedIn (List.nodup_singleton _)).mpr hmem
  exact List.perm_singleton.mp hperm

theorem attendedIn_observed (ha : d.Applies now o r w) :
    d.store.attendedIn (d.observed now o) = [] := by
  refine Store.attendedIn_eq_nil fun id v v' hv hv' => ?_
  rw [ha.get?_observed] at hv'
  split at hv'
  · rename_i hid
    rw [hid, ha.run] at hv
    obtain rfl := Option.some.inj hv
    obtain rfl := Option.some.inj hv'
    exact LivenessStore.apply_state
  · rw [hv] at hv'
    rw [Option.some.inj hv']

/-- A move keeps the counts. -/
theorem countsExactly_attends {s s' : Store} {runId : RunId} {attemptId : AttemptId}
    (hcounts : s.CountsExactly applied) (hattends : s.Attends s' runId attemptId) :
    s'.CountsExactly applied := by
  refine hcounts.carried
    (fun id t ht => hattends.follow.invoked (fun _ _ h => h.elim) ht) fun id v' hv' => ?_
  rw [hattends.runs] at hv'
  obtain ⟨v, hv, rfl⟩ := Option.map_eq_some_iff.mp hv'
  refine Or.inr ⟨v, hv, ?_⟩
  split
  · exact Or.inr (Or.inr ⟨rfl, rfl⟩)
  · exact Store.carries_of_eq rfl rfl

theorem judgedTo_of_applies (ha : d.Applies now o r w) :
    d.store.JudgedTo (d.step H idOrder ⟨now, .observe o⟩).store := by
  obtain ⟨hmoved, hkept⟩ := store_of_applies (H := H) idOrder ha
  by_cases hlimit : LivenessStore.AtLimit o r ∧ w.lastRunId = some o.runId
  · exact (judgedTo_observed ha).attends (hmoved hlimit).1
  · rw [hkept hlimit]
    exact judgedTo_observed ha

end Observation

section Steps

variable {now : Time} {o : LivenessObservation} {r : Run} {w : Worker}

theorem step_of_applies (ha : h.base.Applies now o r w) :
    h.step H idOrder (.judge ⟨now, .observe o⟩) =
      ⟨h.base.step H idOrder ⟨now, .observe o⟩, o.applied :: h.applied,
        h.base.store.attendedIn (h.base.step H idOrder ⟨now, .observe o⟩).store ++ h.attended⟩ := by
  simp only [step, (ha.step (H := H) idOrder).2, Option.toList_some,
    List.singleton_append]

/-- An applied observation does what it must exactly when a retry that reaches the limit finds the
run to be the last one of its worker. -/
theorem observes_iff_of_applies (hs : h.Sound) (ha : h.base.Applies now o r w) :
    h.Observes H idOrder now o ↔ (LivenessStore.AtLimit o r → w.lastRunId = some o.runId) := by
  have hreaches := reaches_iff_atLimit (H := H) idOrder hs ha
  have hstep := step_of_applies (H := H) idOrder ha
  obtain ⟨hmoved, hkept⟩ := store_of_applies (H := H) idOrder ha
  constructor
  · intro hobserves hlimit
    by_contra hlast
    have hattended := (hobserves.attention (hreaches.mpr hlimit)).1
    rw [hstep, hkept fun hboth => hlast hboth.2] at hattended
    simp [attendedIn_observed ha] at hattended
  intro hlast
  refine ⟨fun hstale => absurd ha.live.active (hstale r ha.run), fun hrefused => ?_,
    fun hlimit => ?_, fun hlimit => ?_⟩
  · rw [hstep] at hrefused
    exact absurd hrefused (List.cons_ne_self _ _)
  · rw [hreaches] at hlimit
    obtain ⟨hattends, heffects⟩ := hmoved ⟨hlimit, hlast hlimit⟩
    rw [hstep]
    refine ⟨?_, heffects⟩
    rw [attendedIn_of_attends ha hattends]
    rfl
  · rw [hreaches] at hlimit
    rw [hstep, hkept fun hboth => hlimit hboth.1]
    refine ⟨?_, rfl⟩
    rw [attendedIn_observed ha]
    rfl

/-- An observation that is not applied does what it must. -/
theorem observes_of_not_applies (ha : ¬∃ r w, h.base.Applies now o r w) :
    h.Observes H idOrder now o := by
  obtain ⟨happlied, hstore, -⟩ :=
    LivenessStore.step_of_not_applies (H := H) idOrder ha
  have hsame : (h.step H idOrder (.judge ⟨now, .observe o⟩)).applied = h.applied := by
    simp only [step, happlied, Option.toList_none, List.nil_append]
  have hquiet : (h.step H idOrder (.judge ⟨now, .observe o⟩)).attended = h.attended := by
    have hnone : h.base.store.attendedIn h.base.store = [] :=
      Store.attendedIn_eq_nil fun id v v' hv hv' => by rw [Option.some.inj (hv.symm.trans hv')]
    simp only [step, hstore, hnone, List.nil_append]
  refine ⟨fun hstale => ?_, fun _ => hstore, fun hreaches => ?_, fun _ => ⟨hquiet, ?_⟩⟩
  · have hbase : h.base.step H idOrder ⟨now, .observe o⟩ = h.base :=
      (LivenessStore.step_of_stale idOrder hstale).1
    exact LivenessRecord.ext hbase hsame hquiet
  · have hcons := hsame.symm.trans hreaches.1
    exact absurd hcons.symm (List.cons_ne_self _ _)
  · exact congrArg Store.effects hstore

/-- An observation counts exactly when it is not disturbed. -/
theorem counted_observe_iff (hs : h.Sound) :
    h.Counted H idOrder (.judge ⟨now, .observe o⟩) ↔ h.Undisturbed (.judge ⟨now, .observe o⟩) := by
  by_cases ha : ∃ r w, h.base.Applies now o r w
  · obtain ⟨r, w, ha⟩ := ha
    have hiff := observes_iff_of_applies (H := H) idOrder hs ha
    have hstep := step_of_applies (H := H) idOrder ha
    constructor
    · rintro hcounted o' r' w' hop ha' hkind hlimit
      obtain rfl := LivenessOp.observe.inj hop
      obtain rfl := Option.some.inj (ha.run.symm.trans ha'.run)
      obtain rfl := Option.some.inj (ha.worker.symm.trans ha'.worker)
      exact hiff.mp (hcounted.observes now o rfl) ⟨hkind, hlimit⟩
    intro hundisturbed
    have hobserved := countsExactly_observed ha hs.counts hs.running
    obtain ⟨hmoved, hkept⟩ := store_of_applies (H := H) idOrder ha
    refine ⟨?_, ?_, ?_, ?_⟩
    · rw [hstep]
      by_cases hlimit : LivenessStore.AtLimit o r ∧ w.lastRunId = some o.runId
      · exact countsExactly_attends hobserved (hmoved hlimit).1
      · dsimp only
        rw [hkept hlimit]
        exact hobserved
    · rw [hstep, List.map_cons, List.nodup_cons]
      refine ⟨fun hmem => ?_, hs.once⟩
      obtain ⟨p, hp, hsource⟩ := List.mem_map.mp hmem
      have hrecorded := hs.recorded p hp
      rw [hsource, show o.applied.source = o.source from rfl, ha.unrecorded] at hrecorded
      cases hrecorded
    · rw [hstep]
      exact nodup_append_attendedIn (judgedTo_of_applies idOrder ha) hs.attendedOnce hs.ended
    · intro now' o' hop
      obtain ⟨rfl, hobserve⟩ := LivenessCall.mk.inj (LivenessStep.judge.inj hop)
      obtain rfl := LivenessOp.observe.inj hobserve
      exact hiff.mpr fun hlimit => hundisturbed o r w rfl ha hlimit.1 hlimit.2
  · -- neither the counts nor the moves change
    obtain ⟨happlied, hstore, -⟩ :=
      LivenessStore.step_of_not_applies (H := H) idOrder ha
    have hobserves := observes_of_not_applies (H := H) idOrder ha
    have hsame : (h.step H idOrder (.judge ⟨now, .observe o⟩)).applied = h.applied := by
      simp only [step, happlied, Option.toList_none, List.nil_append]
    have hnot : ¬h.Reaches H idOrder now o := fun hreaches =>
      absurd (hsame.symm.trans hreaches.1).symm (List.cons_ne_self _ _)
    refine iff_of_true ⟨?_, ?_, ?_, ?_⟩ fun o' r w hop ha' => ?_
    · rw [hsame, hobserves.refused hsame]
      exact hs.counts
    · rw [hsame]
      exact hs.once
    · rw [(hobserves.quiet hnot).1]
      exact hs.attendedOnce
    · intro now' o' hop
      obtain ⟨rfl, hobserve⟩ := LivenessCall.mk.inj (LivenessStep.judge.inj hop)
      obtain rfl := LivenessOp.observe.inj hobserve
      exact hobserves
    · obtain rfl := LivenessOp.observe.inj hop
      exact absurd ⟨r, w, ha'⟩ ha

theorem sound_observe (hs : h.Sound) (hcounted : h.Counted H idOrder (.judge ⟨now, .observe o⟩)) :
    (h.step H idOrder (.judge ⟨now, .observe o⟩)).Sound := by
  by_cases ha : ∃ r w, h.base.Applies now o r w
  · obtain ⟨r, w, ha⟩ := ha
    have hjudged := judgedTo_of_applies (H := H) idOrder ha
    have hstep := step_of_applies (H := H) idOrder ha
    have hevents : (h.base.step H idOrder ⟨now, .observe o⟩).events =
        (h.base.events.insert? o.source (o.event now)).getD h.base.events := by
      rw [(ha.step (H := H) idOrder).1]
      exact ha.recordObservation.2.1
    obtain ⟨t, hattempt, htstate, htended⟩ := ha.live.attempt
    obtain ⟨-, ht, -⟩ := Store.activeAttempt_eq_some hattempt
    have hinvoked : h.base.store.AppliedInvoked (o.applied :: h.applied) := by
      intro p hp
      rcases List.mem_cons.mp hp with rfl | hp
      · exact ⟨t, ht, hs.running _ t ht htended htstate⟩
      · exact hs.invoked p hp
    refine ⟨hcounted.counts, ?_, ?_, ?_, hcounted.once, ?_, hcounted.attendedOnce⟩
    · rw [hstep]
      exact appliedInvoked_of_follow hjudged.follow hinvoked
    · rw [hstep]
      exact runsInvoked_of_follow hjudged.follow hs.running
    · rw [hstep]
      intro p hp
      dsimp only
      rw [hevents]
      rcases List.mem_cons.mp hp with rfl | hp
      · exact Table.isSome_get?_insert_getD_self _ _ _
      · exact Table.isSome_get?_insert_getD (hs.recorded p hp)
    · rw [hstep]
      exact ended_append_attendedIn hjudged hs.ended
  · obtain ⟨happlied, hstore, hevents⟩ :=
      LivenessStore.step_of_not_applies (H := H) idOrder ha
    have hsame : (h.step H idOrder (.judge ⟨now, .observe o⟩)).applied = h.applied := by
      simp only [step, happlied, Option.toList_none, List.nil_append]
    have hobserves := observes_of_not_applies (H := H) idOrder ha
    have hnot : ¬h.Reaches H idOrder now o := fun hreaches =>
      absurd (hsame.symm.trans hreaches.1).symm (List.cons_ne_self _ _)
    have hkept := hobserves.refused hsame
    refine ⟨hcounted.counts, ?_, ?_, ?_, hcounted.once, ?_, hcounted.attendedOnce⟩
    · rw [hsame, hkept]
      exact hs.invoked
    · rw [hkept]
      exact hs.running
    · rw [hsame]
      intro p hp
      have hrecorded := hs.recorded p hp
      change ((h.base.step H idOrder ⟨now, .observe o⟩).events.get? p.source).isSome = true
      rcases hevents with hevents | hevents <;> rw [hevents]
      · exact hrecorded
      · exact Table.isSome_get?_insert_getD hrecorded
    · rw [(hobserves.quiet hnot).1, hkept]
      exact hs.ended

theorem counted_iff (hs : h.Sound) (i : LivenessStep) :
    h.Counted H idOrder i ↔ h.Undisturbed i := by
  match i with
  | .call c => exact sound_call_iff idOrder hs c
  | .judge ⟨now, .observe o⟩ => exact counted_observe_iff idOrder hs
  | .judge ⟨now, .sweep observed inactivity limit⟩ =>
    exact iff_of_true (counted_sweep idOrder hs).1 fun o r w hop => by cases hop

theorem sound_step (hs : h.Sound) {i : LivenessStep} (hcounted : h.Counted H idOrder i) :
    (h.step H idOrder i).Sound := by
  match i with
  | .call c => exact sound_call idOrder hs hcounted
  | .judge ⟨now, .observe o⟩ => exact sound_observe idOrder hs hcounted
  | .judge ⟨now, .sweep observed inactivity limit⟩ => exact (counted_sweep idOrder hs).2

end Steps

end LivenessRecord

/-- In a run from a new database, observations count exactly in every step if and only if no
confirmation invokes a runtime with retries counted and every observation that reaches its limit
finds its run to be the last one of the worker. -/
theorem liveness_counted_iff (H : LivenessSource → OperationId) (idOrder : RunId → RunId → Bool)
    (settings : Settings) (steps : List LivenessStep) :
    Along (LivenessRecord.step H idOrder) (LivenessRecord.Counted H idOrder) (.init settings)
        steps ↔
      Along (LivenessRecord.step H idOrder) LivenessRecord.Undisturbed (.init settings) steps :=
  along_congr_of_invariant (fun _ i hs => LivenessRecord.counted_iff idOrder hs i)
    (fun _ _ hs hcounted => LivenessRecord.sound_step idOrder hs hcounted)
    (LivenessRecord.sound_init settings)

/-! ## Retries of an earlier attempt, and a limit that is passed over -/

namespace LivenessRecord

/-- A count that is not that of the record. -/
def miscounts (h : LivenessRecord) (runId : RunId) (attemptId : AttemptId) : Bool :=
  (h.base.store.runs.get? runId).any fun r =>
    (h.base.store.activeAttempt runId r).any fun e =>
      e.1 == attemptId && e.2.runtimeInvokedAt.isSome &&
        r.liveness.internalRetryCount != retriesSince h.applied runId attemptId

theorem not_countsExactly_of_miscounts {h : LivenessRecord} {runId : RunId} {attemptId : AttemptId}
    (hcount : h.miscounts runId attemptId = true) : ¬h.base.store.CountsExactly h.applied := by
  intro hcounts
  obtain ⟨r, hr, hattempt⟩ := (Option.any_eq_true ..).mp hcount
  obtain ⟨⟨id, t⟩, hactive, hok⟩ := (Option.any_eq_true ..).mp hattempt
  simp only [Bool.and_eq_true, beq_iff_eq, bne_iff_ne] at hok
  obtain ⟨⟨rfl, hinvoked⟩, hne⟩ := hok
  exact hne (hcounts runId r id t hr hactive hinvoked)

end LivenessRecord

/-- The first run is admitted on a worker with a model, and its attempt `4` is invoked. -/
def withModelRun : List Call :=
  [⟨1, .worker (.createProject 0)⟩,
   ⟨2, .worker (.createWorker { firstWorker with model := "gpt-5" })⟩] ++
    Store.withAdmittedRun.drop 2 ++
    [⟨10, .start (.markRunRuntimeInvoked (.uuid 3) 6 9)⟩]

/-- A retry of attempt `4`. -/
def firstRetry (retryLimit : ℤ) : LivenessStep :=
  .judge ⟨12, .observe
    { runId := .uuid 3, expectedAttemptId := 4, kind := .internalRetry,
      failureClass := "provider_rate_limited", runtime := "host-process", model := "gpt-5",
      sourceSequence := 1,
      sourceDigest := "0000000000000000000000000000000000000000000000000000000000000000",
      observedAt := none, retryLimit := retryLimit }⟩

/-- After the retry, the first attempt is fenced and a second is admitted. -/
def retriedAgain : List LivenessStep :=
  withModelRun.map .call ++ [firstRetry 3] ++ (Store.withSecondAdmission.drop 7).map .call

/-- Another run is queued for the worker while the first one runs. -/
def withQueuedSecond : List LivenessStep :=
  withModelRun.map .call ++ [.call ⟨11, .run (.createRun 1 0 "second" none true false none none)⟩]

/-- The confirmation of the second attempt starts with the retry of the first one. A retry that
reaches its limit does not move a run on while another run is queued for its worker. -/
theorem liveness_miscounted :
    ¬Along (LivenessRecord.step (fun _ => 0) fun _ _ => true)
      (LivenessRecord.Counted (fun _ => 0) fun _ _ => true) (.init .default) (retriedAgain ++
        [.call ⟨1000000003, .start (.confirmHostRunStart (Store.confirmFirstRun 8))⟩]) ∧
    ¬Along (LivenessRecord.step (fun _ => 0) fun _ _ => true)
      (LivenessRecord.Counted (fun _ => 0) fun _ _ => true) (.init .default) (withQueuedSecond ++
        [firstRetry 1]) := by
  constructor
  · intro halong
    have hcounted := ((along_append _).mp halong).2.1
    exact LivenessRecord.not_countsExactly_of_miscounts
      (by decide +kernel : LivenessRecord.miscounts _ (.uuid 3) 7 = true) hcounted.counts
  · intro halong
    have hobserves := ((along_append _).mp halong).2.1.observes _ _ rfl
    have hattended := (hobserves.attention (by
      unfold LivenessRecord.Reaches
      decide +kernel)).1
    revert hattended
    decide +kernel

end GlassHive
