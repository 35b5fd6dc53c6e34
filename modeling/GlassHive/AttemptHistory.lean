import GlassHive.Convergence
import GlassHive.GcRemovals
import GlassHive.LivenessRecord

/-!
# The history of attempts

An attempt is a permanent record. The attempts of a run are numbered from one in the order of their
claims, neither they nor the run are ever deleted, and the active attempt of a run is its last one.
The runtime of an attempt is invoked at most once.
-/

namespace GlassHive

open Relational Transition

namespace Store

/-- The attempts are those of recorded runs, numbered without a gap or a repetition, and the active
attempt of a run is its last one. -/
structure AttemptsAgree (s : Store) : Prop where
  owned : ∀ id t, s.attempts.get? id = some t → (s.runs.get? t.runId).isSome = true
  unique : ∀ id id' t t', s.attempts.get? id = some t → s.attempts.get? id' = some t' →
    t.runId = t'.runId → t.attemptNumber = t'.attemptNumber → id = id'
  filled : ∀ id t, s.attempts.get? id = some t → 1 ≤ t.attemptNumber ∧
    ∀ n, 1 ≤ n → n ≤ t.attemptNumber →
      ∃ id' t', s.attempts.get? id' = some t' ∧ t'.runId = t.runId ∧ t'.attemptNumber = n
  active : ∀ id r attemptId, s.runs.get? id = some r → r.activeAttemptId = some attemptId →
    ∃ t, s.attempts.get? attemptId = some t ∧ t.runId = id ∧
      t.attemptNumber = s.callbackAttemptNumber id

variable {s : Store} {c : Call}

/-- An attempt goes on from one, or is opened with the next number of its run. -/
theorem attempt_cases {id : AttemptId} {t' : Attempt}
    (ht' : (s.step c).attempts.get? id = some t') :
    (∃ t, s.attempts.get? id = some t ∧ t'.runId = t.runId ∧
      t'.attemptNumber = t.attemptNumber) ∨
    s.Opens c id t' ∧ id = s.nextId ∧ (∃ r, s.runs.get? t'.runId = some r) ∧
      t'.attemptNumber = s.callbackAttemptNumber t'.runId + 1 := by
  cases ht : s.attempts.get? id with
  | some t =>
    obtain ⟨t'', ht'', hfollows⟩ := (s.attempts_step c).kept id t ht
    obtain rfl := Option.some.inj (ht'.symm.trans ht'')
    exact Or.inl ⟨t, rfl, hfollows.runId, hfollows.attemptNumber⟩
  | none =>
    have hopens := (s.attempts_step c).fresh id t' ht ht'
    refine Or.inr ⟨hopens, ?_⟩
    unfold Opens at hopens
    split at hopens
    · obtain ⟨runId, r, hclaim, rfl, rfl⟩ := hopens
      exact ⟨rfl, ⟨r, (claimable_eq_some hclaim).1⟩, rfl⟩
    · exact hopens.elim

theorem AttemptsAgree.numbers (h : s.AttemptsAgree) {runId : RunId} {n : ℕ} (hn : 1 ≤ n)
    (hle : n ≤ s.callbackAttemptNumber runId) :
    ∃ id t, s.attempts.get? id = some t ∧ t.runId = runId ∧ t.attemptNumber = n := by
  have hlast : ¬s.callbackAttemptNumber runId ≤ n - 1 := by omega
  rw [callbackAttemptNumber_le] at hlast
  push Not at hlast
  obtain ⟨id, t, ht, rfl, hlt⟩ := hlast
  exact (h.filled id t ht).2 n hn (by omega)

/-- The attempts of a run that opens none are as many as before. -/
theorem callbackAttemptNumber_of_not_opens {runId : RunId}
    (h : ∀ id t, s.Opens c id t → t.runId ≠ runId) :
    (s.step c).callbackAttemptNumber runId = s.callbackAttemptNumber runId := by
  refine eq_of_forall_ge_iff fun n => ?_
  rw [callbackAttemptNumber_le, callbackAttemptNumber_le]
  constructor
  · intro hall id t ht hrun
    obtain ⟨t', ht', hfollows⟩ := (s.attempts_step c).kept id t ht
    exact hfollows.attemptNumber ▸ hall id t' ht' (hfollows.runId.trans hrun)
  · intro hall id t' ht' hrun
    rcases attempt_cases ht' with ⟨t, ht, hrun', hnumber⟩ | ⟨hopens, -⟩
    · exact hnumber ▸ hall id t ht (hrun'.symm.trans hrun)
    · exact absurd hrun (h id t' hopens)

section Claim

variable {workerId : WorkerId} {executorId : Option ExecutorId} {ttl : ℕ}

theorem runId_of_opens {id : AttemptId} {t : Attempt} {runId : RunId} {r : Run}
    (hop : c.op = .start (.claimNextQueuedRunParallel workerId executorId ttl))
    (hclaim : s.claimable c.now workerId executorId = some (runId, r)) (h : s.Opens c id t) :
    t.runId = runId := by
  simp only [Opens, hop, hclaim] at h
  obtain ⟨_, _, heq, -, rfl⟩ := h
  cases heq
  rfl

theorem not_opens {id : AttemptId} {t : Attempt} (h : ¬∃ workerId executorId ttl,
    c.op = .start (.claimNextQueuedRunParallel workerId executorId ttl)) : ¬s.Opens c id t := by
  intro hopens
  unfold Opens at hopens
  split at hopens
  · exact h ⟨_, _, _, ‹_›⟩
  · exact hopens

/-- A new attempt has the last number of its run. -/
theorem callbackAttemptNumber_of_opened {t : Attempt}
    (hattempts : ∀ id, (s.step c).attempts.get? id =
      if id = s.nextId then some t else s.attempts.get? id)
    (ht : t.attemptNumber = s.callbackAttemptNumber t.runId + 1) :
    (s.step c).callbackAttemptNumber t.runId = t.attemptNumber := by
  refine eq_of_forall_ge_iff fun n => ?_
  rw [callbackAttemptNumber_le]
  constructor
  · exact fun hall => hall s.nextId t (by rw [hattempts, if_pos rfl]) rfl
  · intro hle id u hu hrun
    rw [hattempts] at hu
    split at hu
    · exact Option.some.inj hu ▸ hle
    · have hlast := callbackAttemptNumber_le.mp le_rfl id u hu hrun
      omega

/-- A claim makes the attempt that it opens the active one. -/
theorem AttemptsAgree.active_claim (h : s.AttemptsAgree)
    (hop : c.op = .start (.claimNextQueuedRunParallel workerId executorId ttl)) {id : RunId}
    {r' : Run} {attemptId : AttemptId} (hr' : (s.step c).runs.get? id = some r')
    (hactive : r'.activeAttemptId = some attemptId) :
    ∃ t, (s.step c).attempts.get? attemptId = some t ∧ t.runId = id ∧
      t.attemptNumber = (s.step c).callbackAttemptNumber id := by
  have hstep : s.step c =
      (s.claimNextQueuedRunParallel c.now workerId executorId ttl).store := by rw [step, hop]; rfl
  rcases claimNextQueuedRunParallel_cases s c.now workerId executorId ttl with
    ⟨hsame, -⟩ | ⟨runId, r, attempts, hclaim, hins, -, hstore⟩
  · rw [hstep, hsame] at hr' ⊢
    exact h.active id r' attemptId hr' hactive
  · rw [hstore] at hstep
    have hattempts : ∀ id, (s.step c).attempts.get? id = if id = s.nextId then
        some (s.claimAttempt c.now runId (s.claimLease workerId runId))
        else s.attempts.get? id := by
      rw [hstep]
      exact Table.get?_insert hins
    have hrow : ∃ r, s.runs.get? id = some r ∧ r'.activeAttemptId =
        if id = runId then some s.nextId else r.activeAttemptId := by
      rw [hstep] at hr'
      simp only [claimRun, appendAttemptTraces_runs, updateWorkers_runs, updateRuns_runs,
        updateLeases_runs, drawId_runs] at hr'
      obtain ⟨q, hq, rfl⟩ := Table.get?_update_eq_some.mp hr'
      refine ⟨q, hq, ?_⟩
      by_cases hsame : id = runId <;> simp [hsame, claimedRun]
    obtain ⟨q, hq, hrow⟩ := hrow
    rw [hactive] at hrow
    split at hrow
    · rename_i hsame
      subst hsame
      obtain rfl := Option.some.inj hrow
      exact ⟨_, by rw [hattempts, if_pos rfl], rfl,
        (callbackAttemptNumber_of_opened hattempts rfl).symm⟩
    · rename_i hother
      obtain ⟨t, ht, hrun, hlast⟩ := h.active id q attemptId hq hrow.symm
      refine ⟨t, ?_, hrun, hlast.trans (callbackAttemptNumber_of_not_opens ?_).symm⟩
      · rw [hstep]
        exact Table.get?_insert_of_some hins ht
      · exact fun id' t' hopens hrun => hother (hrun.symm.trans (runId_of_opens hop hclaim hopens))

end Claim

theorem AttemptsAgree.step (h : s.AttemptsAgree) (c : Call) : (s.step c).AttemptsAgree where
  owned id t' ht' := by
    rcases attempt_cases ht' with ⟨t, ht, hrun, -⟩ | ⟨hopens, -, ⟨r, hr⟩, -⟩
    · obtain ⟨r, hr⟩ := Option.isSome_iff_exists.mp (h.owned id t ht)
      rw [hrun]
      rcases run_step (c := c) hr with ⟨r', hr', -⟩ | ⟨op, w, -, -, hfree⟩
      · rw [hr']
        rfl
      · exact absurd ⟨r, hr, rfl⟩ (hfree.runs.attempts id t ht)
    · rcases run_step (c := c) hr with ⟨r', hr', -⟩ | ⟨op, w, hop, -⟩
      · rw [hr']
        rfl
      · simp [Opens, hop] at hopens
  unique id id' t t' ht ht' hrun hnumber := by
    -- the number of a new attempt is above those there were
    have hnew : ∀ {id : AttemptId} {t u : Attempt}, s.attempts.get? id = some u →
        t.attemptNumber = s.callbackAttemptNumber t.runId + 1 → u.runId = t.runId →
        u.attemptNumber ≠ t.attemptNumber := by
      intro id t u hu hnext hsame heq
      have hle := callbackAttemptNumber_le.mp le_rfl id u hu hsame
      omega
    rcases attempt_cases ht with ⟨u, hu, hurun, hunumber⟩ | ⟨-, hid, -, hnext⟩ <;>
      rcases attempt_cases ht' with ⟨u', hu', hurun', hunumber'⟩ | ⟨-, hid', -, hnext'⟩
    · exact h.unique id id' u u' hu hu' (by rw [← hurun, hrun, hurun'])
        (by rw [← hunumber, hnumber, hunumber'])
    · exact absurd (hunumber.symm.trans hnumber)
        (hnew hu hnext' (hurun.symm.trans hrun))
    · exact absurd (hunumber'.symm.trans hnumber.symm)
        (hnew hu' hnext (hurun'.symm.trans hrun.symm))
    · rw [hid, hid']
  filled id t' ht' := by
    have hkept : ∀ {runId n}, (∃ id t, s.attempts.get? id = some t ∧ t.runId = runId ∧
        t.attemptNumber = n) → ∃ id t, (s.step c).attempts.get? id = some t ∧ t.runId = runId ∧
        t.attemptNumber = n := by
      rintro _ _ ⟨id, t, ht, rfl, rfl⟩
      obtain ⟨t', ht', hfollows⟩ := (s.attempts_step c).kept id t ht
      exact ⟨id, t', ht', hfollows.runId, hfollows.attemptNumber⟩
    rcases attempt_cases ht' with ⟨t, ht, hrun, hnumber⟩ | ⟨-, -, -, hnext⟩
    · rw [hrun, hnumber]
      exact ⟨(h.filled id t ht).1, fun n hn hle => hkept ((h.filled id t ht).2 n hn hle)⟩
    · refine ⟨by omega, fun n hn hle => ?_⟩
      rcases Nat.lt_or_ge (s.callbackAttemptNumber t'.runId) n with hlt | hle'
      · exact ⟨id, t', ht', rfl, by omega⟩
      · exact hkept (h.numbers hn hle')
  active id r' attemptId hr' hactive := by
    by_cases hclaim : ∃ workerId executorId ttl,
        c.op = .start (.claimNextQueuedRunParallel workerId executorId ttl)
    · obtain ⟨workerId, executorId, ttl, hop⟩ := hclaim
      exact h.active_claim hop hr' hactive
    have hrow : ∃ r, s.runs.get? id = some r ∧ r.activeAttemptId = some attemptId := by
      rcases s.runs_step c id r' hr' with ⟨-, _, _, _, _, _, rfl⟩ | ⟨r, hr, rfl | ⟨w, hw, rfl⟩⟩
      · cases hactive
      · exact ⟨r', hr, hactive⟩
      · rw [Run.triggered_activeAttemptId] at hactive
        rcases hw.keepsAttempt with (hnone | ⟨hsame, -⟩) | ⟨_, _, _, hop, -⟩ | ⟨-, hsame⟩
        · rw [hnone] at hactive
          cases hactive
        · exact ⟨r, hr, hsame.symm.trans hactive⟩
        · exact absurd ⟨_, _, _, hop⟩ hclaim
        · exact ⟨r, hr, hsame.symm.trans hactive⟩
    obtain ⟨r, hr, hactive⟩ := hrow
    obtain ⟨t, ht, hrun, hlast⟩ := h.active id r attemptId hr hactive
    obtain ⟨t', ht', hfollows⟩ := (s.attempts_step c).kept attemptId t ht
    refine ⟨t', ht', hfollows.runId.trans hrun, ?_⟩
    rw [hfollows.attemptNumber, hlast, callbackAttemptNumber_of_not_opens]
    exact fun _ _ hopens => absurd hopens (not_opens hclaim)

/-- In every store that transactions reach, the attempts agree with the runs. -/
theorem attemptsAgree_run (settings : Settings) (cs : List Call) :
    (run step (init settings) cs).AttemptsAgree := by
  have hinit : (init settings).AttemptsAgree := by
    constructor <;> simp [init]
  exact invariant_run (fun _ c h _ => h.step c) hinit
    (along_of_forall step (C := fun _ _ => True) (fun _ _ => trivial) _ cs)

/-! ## Claims -/

/-- The number of the attempt that a claim opens for the run. -/
def claimedNumber (runId : RunId) (s : Store) (c : Call) : Option ℕ :=
  match c.op with
  | .start (.claimNextQueuedRunParallel workerId executorId ttl) =>
    let claim := s.claimNextQueuedRunParallel c.now workerId executorId ttl
    if claim.value? = some runId then some (claim.store.callbackAttemptNumber runId) else none
  | _ => none

theorem claimedNumber_step (runId : RunId) (s : Store) (c : Call) :
    (claimedNumber runId s c = none ∧
      (s.step c).callbackAttemptNumber runId = s.callbackAttemptNumber runId) ∨
    claimedNumber runId s c = some (s.callbackAttemptNumber runId + 1) ∧
      (s.step c).callbackAttemptNumber runId = s.callbackAttemptNumber runId + 1 := by
  by_cases hclaim : ∃ workerId executorId ttl,
      c.op = .start (.claimNextQueuedRunParallel workerId executorId ttl)
  · obtain ⟨workerId, executorId, ttl, hop⟩ := hclaim
    have hstep : s.step c =
        (s.claimNextQueuedRunParallel c.now workerId executorId ttl).store := by rw [step, hop]; rfl
    rcases claimNextQueuedRunParallel_cases s c.now workerId executorId ttl with
      ⟨hsame, hvalue, -⟩ | ⟨id, r, attempts, hclaim, hins, hvalue, hstore⟩
    · exact Or.inl ⟨by simp [claimedNumber, hop, hvalue], by rw [hstep, hsame]⟩
    · by_cases hown : id = runId
      · subst hown
        have hnumber := callbackAttemptNumber_of_opened (s := s) (c := c)
          (t := s.claimAttempt c.now id (s.claimLease workerId id))
          (by rw [hstep, hstore]; exact Table.get?_insert hins) rfl
        refine Or.inr ⟨?_, hnumber⟩
        simp only [claimedNumber, hop, hvalue, if_true, ← hstep]
        exact congrArg some hnumber
      · refine Or.inl ⟨by simp [claimedNumber, hop, hvalue, hown], ?_⟩
        exact callbackAttemptNumber_of_not_opens fun _ _ hopens hrun =>
          hown ((runId_of_opens hop hclaim hopens).symm.trans hrun)
  · refine Or.inl ⟨?_, callbackAttemptNumber_of_not_opens fun _ _ h => absurd h (not_opens hclaim)⟩
    unfold claimedNumber
    split
    · exact absurd ⟨_, _, _, ‹_›⟩ hclaim
    · rfl

/-- The claims of a run open attempts with consecutive numbers, from the last one on. -/
theorem claims_numbered (s : Store) (cs : List Call) (runId : RunId) :
    outputs step (claimedNumber runId) s cs =
      List.range' (s.callbackAttemptNumber runId + 1)
        ((run step s cs).callbackAttemptNumber runId - s.callbackAttemptNumber runId) := by
  suffices h : ∃ k, (run step s cs).callbackAttemptNumber runId =
      s.callbackAttemptNumber runId + k ∧
      outputs step (claimedNumber runId) s cs =
        List.range' (s.callbackAttemptNumber runId + 1) k by
    obtain ⟨k, hlast, hnumbers⟩ := h
    rw [hlast, hnumbers, Nat.add_sub_cancel_left]
  induction cs generalizing s with
  | nil => exact ⟨0, rfl, rfl⟩
  | cons c cs ih =>
    obtain ⟨k, hlast, hnumbers⟩ := ih (s.step c)
    rcases claimedNumber_step runId s c with ⟨hnone, hsame⟩ | ⟨hsome, hnext⟩
    · rw [hsame] at hlast hnumbers
      exact ⟨k, hlast, by rw [outputs, hnone, hnumbers]; rfl⟩
    · rw [hnext] at hlast hnumbers
      refine ⟨k + 1, by rw [run_cons, hlast]; omega, ?_⟩
      rw [outputs, hsome, hnumbers]
      rfl

/-! ## Invocations -/

/-- When the runtime of an attempt was invoked. -/
def invokedAt (s : Store) (id : AttemptId) : Option Time :=
  (s.attempts.get? id).bind Attempt.runtimeInvokedAt

variable {id : AttemptId}

theorem AttemptsFollow.invokedAt {s' : Store} {I : AttemptId → Prop} {N : AttemptId → Attempt → Prop}
    (h : s.AttemptsFollow s' I N) (hI : ¬I id) (hN : ∀ t, N id t → t.runtimeInvokedAt = none) :
    s'.invokedAt id = s.invokedAt id := by
  unfold Store.invokedAt
  cases ht : s.attempts.get? id with
  | some t =>
    obtain ⟨t', ht', hfollows⟩ := h.kept id t ht
    rw [ht']
    exact hfollows.runtimeInvokedAt.resolve_right hI
  | none =>
    cases ht' : s'.attempts.get? id with
    | none => rfl
    | some t' => exact hN t' (h.fresh id t' ht ht')

end Store

end GlassHive
