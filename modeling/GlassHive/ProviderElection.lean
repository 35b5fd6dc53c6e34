import GlassHive.Elections
import GlassHive.Library.Transition

/-!
# One replacement run for a failed request

Beside the store stands a log of the elections that pollers won, of the runs they rebound the
request to, and of the response that was stored last. The columns of the request say which entries
the log can have, so that every claim is won once and used once, and only a live request is settled.
-/

namespace GlassHive

open Relational

/-- What a poller is elected for. -/
inductive ElectionKind
  | fallback
  | contextRecovery
  deriving DecidableEq, Repr

/-- An election that a poller wins after a run of the request failed. -/
structure Win where
  poller : ℕ
  kind : ElectionKind
  run : RunId
  deriving DecidableEq, Repr

/-- The run that a winner bound the request to. -/
structure Rebinding where
  win : Win
  newRun : RunId
  deriving DecidableEq, Repr

/-- The wins, the rebindings and the response that was stored last with its run. -/
structure ElectionLog where
  wins : List Win
  rebindings : List Rebinding
  stored : Option (RunId × String)

/-- What else happens to a request: it is attached to its first run, and while it is live it goes
between queued and running. -/
structure ProviderRequest.Progress (q q' : ProviderRequest) : Prop where
  state : q'.state = q.state ∨ q.live = true ∧ q'.live = true
  runId : q'.runId = q.runId ∨ q.live = true ∧ q.runId = none
  fallbackState : q'.fallbackState = q.fallbackState
  fallbackFrom : q'.fallbackFrom = q.fallbackFrom
  response : q'.response = q.response

/-- Whatever else happens to the store. -/
structure RequestEnvironment (requestId : RequestId) where
  apply : Store → Store
  progress : ∀ s q, s.requests.get? requestId = some q →
    ∃ q', (apply s).requests.get? requestId = some q' ∧ q.Progress q'

/-- A step on a request. A poller starts a replacement only for an election that it won. -/
inductive ElectionStep (requestId : RequestId)
  | claim (now : Time) (w : Win)
  | start (now : Time) (w : Win) (newRun : RunId) (sessionId : SessionId)
  | failStale (now claimedBefore : Time)
  | cancel (now : Time)
  | deadline (now : Time)
  | arbitrate (now : Time) (timeout : ℕ) (f : DeadlineFailure)
  | commit (now : Time) (expected : RunId) (state response : String)
  | elsewhere (e : RequestEnvironment requestId)

/-- The call answers with a row. -/
def Outcome.won (o : Outcome (Option ProviderRequest)) : Bool :=
  match o.result with
  | .ok (some _) => true
  | _ => false

namespace Store

/-- A poller claims an election. -/
def claimElection (s : Store) (now : Time) (requestId : RequestId) (w : Win) :
    Outcome (Option ProviderRequest) :=
  match w.kind with
  | .fallback => s.claimProviderRequestFallback now requestId w.run
  | .contextRecovery => s.claimProviderRequestContextRecovery now requestId w.run

/-- A poller starts the replacement that it was elected for. -/
def startElection (s : Store) (now : Time) (requestId : RequestId) (w : Win) (newRun : RunId)
    (sessionId : SessionId) : Outcome (Option ProviderRequest) :=
  match w.kind with
  | .fallback => s.startProviderRequestFallback now requestId w.run newRun sessionId
  | .contextRecovery => s.startProviderRequestContextRecovery now requestId w.run newRun sessionId

/-- The commit stores a response. -/
def storesResponse (s : Store) (requestId : RequestId) (expected : RunId)
    (state response : String) : Bool :=
  state == "completed" && response != "" &&
    (s.requests.get? requestId).any (·.committable expected state)

end Store

/-- A store with the log of a request. -/
structure Election where
  store : Store
  log : ElectionLog

namespace Election

/-- One step. -/
def step (requestId : RequestId) (e : Election) : ElectionStep requestId → Election
  | .claim now w =>
    let o := e.store.claimElection now requestId w
    ⟨o.store, if o.won then { e.log with wins := w :: e.log.wins } else e.log⟩
  | .start now w newRun sessionId =>
    if w ∈ e.log.wins then
      let o := e.store.startElection now requestId w newRun sessionId
      ⟨o.store, if o.won then { e.log with rebindings := ⟨w, newRun⟩ :: e.log.rebindings } else e.log⟩
    else e
  | .failStale now claimedBefore =>
    ⟨(e.store.failStaleProviderRequestFallback now requestId claimedBefore).store, e.log⟩
  | .cancel now => ⟨(e.store.claimProviderRequestCancel now requestId).store, e.log⟩
  | .deadline now => ⟨(e.store.claimProviderRequestDeadline now requestId).store, e.log⟩
  | .arbitrate now timeout f =>
    ⟨(e.store.arbitrateProviderRequestDeadline now requestId timeout f).store, e.log⟩
  | .commit now expected state response =>
    ⟨(e.store.commitProviderRequestTerminal now requestId expected state response).store,
      if e.store.storesResponse requestId expected state response then
        { e.log with stored := some (expected, response) }
      else e.log⟩
  | .elsewhere env => ⟨env.apply e.store, e.log⟩

end Election

/-! ## What a step does to the request and the log -/

/-- The two records agree in the columns of an election. -/
structure ProviderRequest.SameElection (q q' : ProviderRequest) : Prop where
  state : q'.state = q.state
  runId : q'.runId = q.runId
  fallbackState : q'.fallbackState = q.fallbackState
  fallbackFrom : q'.fallbackFrom = q.fallbackFrom
  response : q'.response = q.response

/-- A move of a request with its log. -/
inductive ElectionMove (l : ElectionLog) (q : ProviderRequest) :
    ElectionLog → ProviderRequest → Prop
  | same {q'} : q.SameElection q' → ElectionMove l q l q'
  | progress {q'} : q.Progress q' → ElectionMove l q l q'
  | claimFallback {q'} {w : Win} : w.kind = .fallback → q.live = true → q.fallbackState = "" →
      q.runId = some w.run → q'.state = q.state → q'.runId = q.runId →
      q'.fallbackState = "claimed" → q'.response = q.response →
      ElectionMove l q { l with wins := w :: l.wins } q'
  | claimRecovery {q'} {w : Win} : w.kind = .contextRecovery → q.live = true →
      q.fallbackState = "" → q.unrecovered = true → q.runId = some w.run → q'.state = q.state →
      q'.runId = q.runId → q'.fallbackState = "context_recovery_claimed" →
      q'.fallbackFrom = .contextRecovery w.run → q'.response = q.response →
      ElectionMove l q { l with wins := w :: l.wins } q'
  | startFallback {q'} {w : Win} {newRun : RunId} : w.kind = .fallback → w ∈ l.wins → q.live = true →
      q.fallbackState = "claimed" → q.runId = some w.run → q'.live = true →
      q'.runId = some newRun → q'.fallbackState = "started" →
      ElectionMove l q { l with rebindings := ⟨w, newRun⟩ :: l.rebindings } q'
  | startRecovery {q'} {w : Win} {newRun : RunId} : w.kind = .contextRecovery → w ∈ l.wins →
      q.live = true → q.fallbackState = "context_recovery_claimed" → q.runId = some w.run →
      q'.live = true → q'.runId = some newRun → q'.fallbackState = "" →
      q'.fallbackFrom = .contextRecovery w.run →
      ElectionMove l q { l with rebindings := ⟨w, newRun⟩ :: l.rebindings } q'
  | settle {q'} : (q.live = true ∨ q.state = "completed") → q'.state ≠ "completed" →
      q'.runId = q.runId → oneOf q'.fallbackState ["failed", "cancelled", "deadline_exceeded"] →
      ElectionMove l q l q'
  | commit {q'} : (q.live = true ∨ q.state = "completed") → q'.state ≠ "completed" →
      q'.runId = q.runId → q'.fallbackState = q.fallbackState →
      q'.fallbackFrom = q.fallbackFrom → ElectionMove l q l q'
  | complete {q'} {run : RunId} {response : String} : (q.live = true ∨ q.state = "completed") →
      q.runId = some run → q'.runId = q.runId → q'.fallbackState = q.fallbackState →
      q'.fallbackFrom = q.fallbackFrom → q'.response = response →
      ElectionMove l q { l with stored := some (run, response) } q'

section Moves

variable {requestId : RequestId} {e : Election} {q : ProviderRequest} {s : Store} {now : Time}

theorem sameElection_refl : q.SameElection q := ⟨rfl, rfl, rfl, rfl, rfl⟩

variable {f : ProviderRequest → ProviderRequest} {p : ProviderRequest → Bool} {l l' : ElectionLog}
  {sessionId : SessionId} {w : Win}

/-- A compare-and-set keeps the row, or it is won and changes it. -/
theorem changeRequest_moves (hq : s.requests.get? requestId = some q)
    (hmove : p q = true → ElectionMove l q l' (f q)) :
    ∃ q', (s.changeRequest requestId p f).store.requests.get? requestId = some q' ∧
      ElectionMove l q (if (s.changeRequest requestId p f).won then l' else l) q' := by
  obtain ⟨hrow, hresult⟩ := @Store.changeRequest_row s requestId q p f hq
  by_cases hp : p q = true
  · refine ⟨f q, by rw [hrow, if_pos hp], ?_⟩
    have hwon : (s.changeRequest requestId p f).won = true := by
      rw [Outcome.won, hresult, if_pos hp]
    rw [if_pos hwon]
    exact hmove hp
  · refine ⟨q, by rw [hrow, if_neg hp], ?_⟩
    have hlost : (s.changeRequest requestId p f).won = false := by
      rw [Outcome.won, hresult, if_neg hp]
    rw [hlost, if_neg Bool.false_ne_true]
    exact .same sameElection_refl

/-- A compare-and-set that ends a live request. -/
theorem settleRequest_moves (hq : s.requests.get? requestId = some q)
    (hlive : p q = true → q.live = true) (hstate : ∀ v, (f v).state ≠ "completed")
    (hrun : ∀ v, (f v).runId = v.runId)
    (hfallback : ∀ v, oneOf (f v).fallbackState ["failed", "cancelled", "deadline_exceeded"]) :
    ∃ q', (s.changeRequest requestId p f).store.requests.get? requestId = some q' ∧
      ElectionMove l q l q' := by
  obtain ⟨hrow, -⟩ := @Store.changeRequest_row s requestId q p f hq
  by_cases hp : p q = true
  · exact ⟨f q, by rw [hrow, if_pos hp],
      .settle (Or.inl (hlive hp)) (hstate q) (hrun q) (hfallback q)⟩
  · exact ⟨q, by rw [hrow, if_neg hp], .same sameElection_refl⟩

theorem rebindRequest_moves {runId : RunId} (hq : s.requests.get? requestId = some q)
    (hmove : p q = true → ElectionMove l q l' (f q)) :
    ∃ q', (s.rebindRequest requestId p sessionId runId f).store.requests.get? requestId = some q' ∧
      ElectionMove l q (if (s.rebindRequest requestId p sessionId runId f).won then l' else l)
        q' := by
  rcases @Store.rebindRequest_cases s requestId p f sessionId runId with
    ⟨hstore, error, hresult⟩ | heq
  · refine ⟨q, by rw [hstore, hq], ?_⟩
    have hlost : (s.rebindRequest requestId p sessionId runId f).won = false := by
      rw [Outcome.won, hresult]
    rw [hlost, if_neg Bool.false_ne_true]
    exact .same sameElection_refl
  · rw [heq]
    exact changeRequest_moves hq hmove

theorem not_completed_of_live (h : q.live = true) : q.state ≠ "completed" := by
  intro hcompleted
  simp [ProviderRequest.live, hcompleted] at h

theorem claimElection_moves (hq : s.requests.get? requestId = some q) :
    ∃ q', (s.claimElection now requestId w).store.requests.get? requestId = some q' ∧
      ElectionMove l q (if (s.claimElection now requestId w).won then
        { l with wins := w :: l.wins } else l) q' := by
  unfold Store.claimElection
  split
  · rename_i hkind
    refine changeRequest_moves hq fun hp => ?_
    simp only [Store.fallbackClaimable, Bool.and_eq_true, beq_iff_eq] at hp
    obtain ⟨⟨⟨hrun, hstate⟩, hlive⟩, -⟩ := hp
    exact .claimFallback hkind hlive hstate hrun rfl rfl rfl rfl
  · rename_i hkind
    refine changeRequest_moves hq fun hp => ?_
    simp only [ProviderRequest.recoveryClaimable, Bool.and_eq_true, beq_iff_eq] at hp
    obtain ⟨⟨⟨hrun, hstate⟩, hunrecovered⟩, hlive⟩ := hp
    exact .claimRecovery hkind hlive hstate hunrecovered hrun rfl rfl rfl rfl rfl

theorem startElection_moves {newRun : RunId} (hw : w ∈ l.wins)
    (hq : s.requests.get? requestId = some q) :
    ∃ q', (s.startElection now requestId w newRun sessionId).store.requests.get? requestId =
        some q' ∧
      ElectionMove l q (if (s.startElection now requestId w newRun sessionId).won then
        { l with rebindings := ⟨w, newRun⟩ :: l.rebindings } else l) q' := by
  unfold Store.startElection
  split
  · rename_i hkind
    refine rebindRequest_moves hq fun hp => ?_
    simp only [ProviderRequest.fallbackStartable, Bool.and_eq_true, beq_iff_eq] at hp
    obtain ⟨⟨hrun, hstate⟩, hlive⟩ := hp
    exact .startFallback hkind hw hlive hstate hrun rfl rfl rfl
  · rename_i hkind
    refine rebindRequest_moves hq fun hp => ?_
    simp only [ProviderRequest.recoveryStartable, Bool.and_eq_true, beq_iff_eq] at hp
    obtain ⟨⟨⟨hrun, hstate⟩, hfrom⟩, hlive⟩ := hp
    exact .startRecovery hkind hw hlive hstate hrun rfl rfl rfl hfrom

theorem commit_moves {expected : RunId} {state response : String}
    (hq : s.requests.get? requestId = some q) :
    ∃ q', (s.commitProviderRequestTerminal now requestId expected state
        response).store.requests.get? requestId = some q' ∧
      ElectionMove l q (if s.storesResponse requestId expected state response then
        { l with stored := some (expected, response) } else l) q' := by
  have hstores : s.storesResponse requestId expected state response =
      (state == "completed" && response != "" && q.committable expected state) := by
    rw [Store.storesResponse, hq]
    rfl
  rw [hstores]
  unfold Store.commitProviderRequestTerminal
  split
  · rename_i hstate
    refine ⟨q, hq, ?_⟩
    have hnot : (state == "completed") = false := by
      rw [← Bool.not_eq_true]
      intro hcompleted
      rw [beq_iff_eq.mp hcompleted] at hstate
      simp at hstate
    rw [hnot, Bool.false_and, Bool.false_and, if_neg Bool.false_ne_true]
    exact .same sameElection_refl
  rename_i hterminal
  split
  · rename_i hempty
    refine ⟨q, hq, ?_⟩
    simp only [Bool.and_eq_true, beq_iff_eq] at hempty
    rw [hempty.2, bne_self_eq_false, Bool.and_false, Bool.false_and, if_neg Bool.false_ne_true]
    exact .same sameElection_refl
  rename_i hresponse
  dsimp only
  rw [Outcome.store_commit, (Store.changeRequest_row hq).1]
  by_cases hp : q.committable expected state = true
  · refine ⟨_, rfl, ?_⟩
    rw [if_pos hp]
    have hopen : q.live = true ∨ q.state = "completed" := by
      simp only [ProviderRequest.committable, Bool.and_eq_true, Bool.or_eq_true, beq_iff_eq] at hp
      exact hp.2.imp id fun h => h.1.1
    have hrun : q.runId = some expected := by
      simp only [ProviderRequest.committable, Bool.and_eq_true, beq_iff_eq] at hp
      exact hp.1.1
    by_cases hcompleted : state = "completed"
    · subst hcompleted
      have hne : (response != "") = true := by
        simpa using hresponse
      rw [hne, hp, if_pos (by rfl)]
      exact .complete hopen hrun rfl rfl rfl (by simp)
    · rw [if_neg (by simp [hcompleted])]
      exact .commit hopen hcompleted rfl rfl rfl
  · refine ⟨q, by rw [if_neg hp], ?_⟩
    rw [Bool.not_eq_true] at hp
    rw [hp, Bool.and_false, if_neg Bool.false_ne_true]
    exact .same sameElection_refl

/-- Every step moves the request and its log. -/
theorem step_moves (hq : e.store.requests.get? requestId = some q)
    (i : ElectionStep requestId) :
    ∃ q', (e.step requestId i).store.requests.get? requestId = some q' ∧
      ElectionMove e.log q (e.step requestId i).log q' := by
  cases i with
  | claim => exact claimElection_moves hq
  | start now w =>
    by_cases hw : w ∈ e.log.wins
    · simp only [Election.step, if_pos hw]
      exact startElection_moves hw hq
    · simp only [Election.step, if_neg hw]
      exact ⟨q, hq, .same sameElection_refl⟩
  | failStale =>
    refine settleRequest_moves hq (fun hp => ?_) (fun _ => by simp) (fun _ => rfl) fun _ => rfl
    simp only [Bool.and_eq_true] at hp
    exact hp.1.2
  | cancel =>
    refine ⟨_, Store.claimProviderRequestCancel_row hq, ?_⟩
    split
    · rename_i hlive
      exact .settle (Or.inl hlive) (by simp) rfl rfl
    · exact .same sameElection_refl
  | deadline =>
    exact settleRequest_moves hq id (fun _ => by simp) (fun _ => rfl) fun _ => rfl
  | arbitrate now timeout f =>
    obtain ⟨q', hq', hrun, hfrom, hcases⟩ :=
      @Store.arbitrateProviderRequestDeadline_row e.store now requestId q timeout f hq
    refine ⟨q', hq', ?_⟩
    rcases hcases with ⟨hstate, hfallback, hresponse⟩ | ⟨hopen, hstate, hfallback⟩
    · exact .same ⟨hstate, hrun, hfallback, hfrom, hresponse⟩
    · exact .settle hopen (by rw [hstate]; simp) hrun (by rw [hfallback]; rfl)
  | commit => exact commit_moves hq
  | elsewhere env =>
    obtain ⟨q', hq', hprogress⟩ := env.progress e.store q hq
    exact ⟨q', hq', .progress hprogress⟩

end Moves

/-! ## What the columns say about the log -/

namespace ElectionLog

/-- The wins of a kind. -/
def won (l : ElectionLog) (kind : ElectionKind) : List Win :=
  l.wins.filter fun w => w.kind == kind

/-- The rebindings of a kind. -/
def reboundBy (l : ElectionLog) (kind : ElectionKind) : List Rebinding :=
  l.rebindings.filter fun b => b.win.kind == kind

/-- The log agrees with the request: claims are won once and used once. -/
structure Sound (l : ElectionLog) (q : ProviderRequest) : Prop where
  winners : ∀ b ∈ l.rebindings, b.win ∈ l.wins
  oneWin : ∀ kind, (l.won kind).length ≤ 1
  oneRebinding : ∀ kind, (l.reboundBy kind).length ≤ 1
  noFallback : q.fallbackState = "" ∨ q.fallbackState = "context_recovery_claimed" →
    l.won .fallback = []
  noRecovery : q.fallbackState = "" → q.unrecovered = true → l.won .contextRecovery = []
  claimed : q.fallbackState = "claimed" →
    l.reboundBy .fallback = [] ∧ ∃ w ∈ l.won .fallback, q.runId = some w.run
  recovering : q.fallbackState = "context_recovery_claimed" → l.reboundBy .contextRecovery = [] ∧
    ∃ w ∈ l.won .contextRecovery, q.runId = some w.run ∧
      q.fallbackFrom = .contextRecovery w.run
  stored : q.state = "completed" → ∃ run, q.runId = some run ∧ l.stored = some (run, q.response)

variable {l l' : ElectionLog} {q q' : ProviderRequest} {w : Win} {newRun : RunId}
  {kind : ElectionKind}

theorem won_cons (h : w.kind = kind) :
    ({ l with wins := w :: l.wins } : ElectionLog).won kind = w :: l.won kind := by
  simp [won, h]

theorem won_cons_of_ne (h : w.kind ≠ kind) :
    ({ l with wins := w :: l.wins } : ElectionLog).won kind = l.won kind := by
  simp [won, h]

theorem reboundBy_cons (h : w.kind = kind) :
    ({ l with rebindings := ⟨w, newRun⟩ :: l.rebindings } : ElectionLog).reboundBy kind =
      ⟨w, newRun⟩ :: l.reboundBy kind := by
  simp [reboundBy, h]

theorem reboundBy_cons_of_ne (h : w.kind ≠ kind) :
    ({ l with rebindings := ⟨w, newRun⟩ :: l.rebindings } : ElectionLog).reboundBy kind =
      l.reboundBy kind := by
  simp [reboundBy, h]

/-- Nobody rebinds the request for an election that nobody won. -/
theorem Sound.reboundBy_nil (h : l.Sound q) (hwon : l.won kind = []) : l.reboundBy kind = [] := by
  rw [reboundBy, List.filter_eq_nil_iff]
  intro b hb hkind
  have hmem : b.win ∈ l.won kind := List.mem_filter.mpr ⟨h.winners b hb, hkind⟩
  rw [hwon] at hmem
  cases hmem

/-- A sound log stays sound where the request keeps its election columns. -/
theorem Sound.congr {stored : Option (RunId × String)} (h : l.Sound q) (hfallback : q'.fallbackState = q.fallbackState)
    (hfrom : q'.fallbackFrom = q.fallbackFrom)
    (hrun : q'.runId = q.runId ∨ q.runId = none)
    (hstored : q'.state = "completed" →
      ∃ run, q'.runId = some run ∧ stored = some (run, q'.response)) :
    ({ l with stored := stored } : ElectionLog).Sound q' := by
  have hbound : ∀ run, q.runId = some run → q'.runId = some run := by
    intro run hq
    rcases hrun with hsame | hnone
    · rw [hsame, hq]
    · rw [hnone] at hq
      cases hq
  refine ⟨h.winners, h.oneWin, h.oneRebinding, fun hstate => ?_, fun hstate hun => ?_,
    fun hstate => ?_, fun hstate => ?_, hstored⟩
  · rw [hfallback] at hstate
    exact h.noFallback hstate
  · rw [hfallback] at hstate
    rw [ProviderRequest.unrecovered, hfrom] at hun
    exact h.noRecovery hstate hun
  · rw [hfallback] at hstate
    obtain ⟨hunused, w, hw, hq⟩ := h.claimed hstate
    exact ⟨hunused, w, hw, hbound _ hq⟩
  · rw [hfallback] at hstate
    obtain ⟨hunused, w, hw, hq, hmarker⟩ := h.recovering hstate
    exact ⟨hunused, w, hw, hbound _ hq, hfrom.trans hmarker⟩

/-- Once the election state is final, the columns say nothing more. -/
theorem Sound.final (h : l.Sound q)
    (hfinal : oneOf q'.fallbackState ["started", "failed", "cancelled", "deadline_exceeded"])
    (hstate : q'.state ≠ "completed") : l.Sound q' := by
  have hnot : q'.fallbackState ≠ "" ∧ q'.fallbackState ≠ "claimed" ∧
      q'.fallbackState ≠ "context_recovery_claimed" := by
    refine ⟨?_, ?_, ?_⟩ <;> intro heq <;> simp [heq] at hfinal
  exact ⟨h.winners, h.oneWin, h.oneRebinding,
    fun hq => (hq.elim hnot.1 hnot.2.2).elim, fun hq => (hnot.1 hq).elim,
    fun hq => (hnot.2.1 hq).elim, fun hq => (hnot.2.2 hq).elim, fun hq => (hstate hq).elim⟩

end ElectionLog

section Soundness

variable {l l' : ElectionLog} {q q' : ProviderRequest} {w : Win} {newRun : RunId}

theorem not_completed_of_live_of_eq (hlive : q.live = true) (hstate : q'.state = q.state) :
    q'.state ≠ "completed" := by
  rw [hstate]
  exact not_completed_of_live hlive

/-- A won claim leaves a sound log: before it nobody had won an election of its kind. -/
theorem sound_claimFallback (h : l.Sound q) (hkind : w.kind = .fallback) (hlive : q.live = true)
    (hfallback : q.fallbackState = "") (hrun : q.runId = some w.run) (hstate : q'.state = q.state)
    (hrun' : q'.runId = q.runId) (hfallback' : q'.fallbackState = "claimed") :
    ({ l with wins := w :: l.wins } : ElectionLog).Sound q' := by
  have hnone := h.noFallback (Or.inl hfallback)
  have hwon := ElectionLog.won_cons (l := l) hkind
  rw [hnone] at hwon
  refine ⟨fun b hb => List.mem_cons_of_mem _ (h.winners b hb), fun kind => ?_, h.oneRebinding,
    fun hq => ?_, fun hq => ?_, fun _ => ⟨h.reboundBy_nil hnone, w, ?_, hrun'.trans hrun⟩,
    fun hq => ?_, fun hq => ?_⟩
  · cases kind with
    | fallback =>
      rw [hwon]
      exact le_rfl
    | contextRecovery =>
      rw [ElectionLog.won_cons_of_ne (by rw [hkind]; simp)]
      exact h.oneWin .contextRecovery
  · simp [hfallback'] at hq
  · simp [hfallback'] at hq
  · rw [hwon]
    exact List.mem_singleton.mpr rfl
  · simp [hfallback'] at hq
  · exact absurd hq (not_completed_of_live_of_eq hlive hstate)

theorem sound_claimRecovery (h : l.Sound q) (hkind : w.kind = .contextRecovery)
    (hlive : q.live = true) (hfallback : q.fallbackState = "") (hunrecovered : q.unrecovered = true)
    (hrun : q.runId = some w.run) (hstate : q'.state = q.state) (hrun' : q'.runId = q.runId)
    (hfallback' : q'.fallbackState = "context_recovery_claimed")
    (hfrom : q'.fallbackFrom = .contextRecovery w.run) :
    ({ l with wins := w :: l.wins } : ElectionLog).Sound q' := by
  have hnone := h.noRecovery hfallback hunrecovered
  have hwon := ElectionLog.won_cons (l := l) hkind
  rw [hnone] at hwon
  have hother : ({ l with wins := w :: l.wins } : ElectionLog).won .fallback = l.won .fallback :=
    ElectionLog.won_cons_of_ne (by rw [hkind]; simp)
  refine ⟨fun b hb => List.mem_cons_of_mem _ (h.winners b hb), fun kind => ?_, h.oneRebinding,
    fun _ => ?_, fun hq => ?_, fun hq => ?_,
    fun _ => ⟨h.reboundBy_nil hnone, w, ?_, hrun'.trans hrun, hfrom⟩, fun hq => ?_⟩
  · cases kind with
    | fallback =>
      rw [hother]
      exact h.oneWin .fallback
    | contextRecovery =>
      rw [hwon]
      exact le_rfl
  · rw [hother]
    exact h.noFallback (Or.inl hfallback)
  · simp [hfallback'] at hq
  · simp [hfallback'] at hq
  · rw [hwon]
    exact List.mem_singleton.mpr rfl
  · exact absurd hq (not_completed_of_live_of_eq hlive hstate)

/-- A start uses up the claim of its winner. -/
theorem oneRebinding_cons (h : l.Sound q) (hunused : l.reboundBy w.kind = []) (kind : ElectionKind) :
    (({ l with rebindings := ⟨w, newRun⟩ :: l.rebindings } : ElectionLog).reboundBy kind).length ≤
      1 := by
  by_cases hkind : w.kind = kind
  · rw [ElectionLog.reboundBy_cons hkind, ← hkind, hunused]
    exact le_rfl
  · rw [ElectionLog.reboundBy_cons_of_ne hkind]
    exact h.oneRebinding kind

theorem winners_cons (h : l.Sound q) (hw : w ∈ l.wins) :
    ∀ b ∈ Rebinding.mk w newRun :: l.rebindings, b.win ∈ l.wins := by
  intro b hb
  rcases List.mem_cons.mp hb with rfl | hb
  · exact hw
  · exact h.winners b hb

/-- Every move keeps the log sound. -/
theorem sound_move (h : l.Sound q) (hmove : ElectionMove l q l' q') : l'.Sound q' := by
  cases hmove with
  | same hsame =>
    refine h.congr hsame.fallbackState hsame.fallbackFrom (Or.inl hsame.runId) fun hq => ?_
    rw [hsame.state] at hq
    rw [hsame.runId, hsame.response]
    exact h.stored hq
  | progress hprogress =>
    have hnone : q'.runId = q.runId ∨ q.runId = none := hprogress.runId.imp id And.right
    refine h.congr hprogress.fallbackState hprogress.fallbackFrom hnone fun hq => ?_
    rcases hprogress.state with hsame | ⟨-, hlive⟩
    · rw [hsame] at hq
      obtain ⟨run, hrun, hstored⟩ := h.stored hq
      rcases hnone with hsame' | hnone
      · exact ⟨run, hsame'.trans hrun, by rw [hprogress.response]; exact hstored⟩
      · rw [hrun] at hnone
        cases hnone
    · exact absurd hq (not_completed_of_live hlive)
  | claimFallback hkind hlive hfallback hrun hstate hrun' hfallback' _ =>
    exact sound_claimFallback h hkind hlive hfallback hrun hstate hrun' hfallback'
  | claimRecovery hkind hlive hfallback hun hrun hstate hrun' hfallback' hfrom _ =>
    exact sound_claimRecovery h hkind hlive hfallback hun hrun hstate hrun' hfallback' hfrom
  | startFallback hkind hw hlive hfallback hrun hlive' hrun' hfallback' =>
    have hunused := (h.claimed hfallback).1
    rw [← hkind] at hunused
    have hlog : ∀ v : ElectionLog, v.Sound q → v.Sound q' := fun v hv =>
      hv.final (by rw [hfallback']; rfl) (not_completed_of_live hlive')
    have hkept := hlog l h
    exact ⟨winners_cons h hw, h.oneWin, oneRebinding_cons h hunused, hkept.noFallback,
      hkept.noRecovery, fun hq => by simp [hfallback'] at hq, fun hq => by simp [hfallback'] at hq,
      hkept.stored⟩
  | startRecovery hkind hw hlive hfallback hrun hlive' hrun' hfallback' hfrom =>
    have hunused := (h.recovering hfallback).1
    rw [← hkind] at hunused
    refine ⟨winners_cons h hw, h.oneWin, oneRebinding_cons h hunused,
      fun _ => h.noFallback (Or.inr hfallback), fun _ hun => ?_, fun hq => ?_, fun hq => ?_,
      fun hq => absurd hq (not_completed_of_live hlive')⟩
    · simp [ProviderRequest.unrecovered, hfrom] at hun
    · simp [hfallback'] at hq
    · simp [hfallback'] at hq
  | settle _ hstate hrun hfinal =>
    refine h.final ?_ hstate
    rw [oneOf_eq_true] at hfinal ⊢
    exact List.mem_cons_of_mem _ hfinal
  | commit _ hstate hrun hfallback hfrom =>
    exact h.congr hfallback hfrom (Or.inl hrun) fun hq => absurd hq hstate
  | complete _ hrun hrun' hfallback hfrom hresponse =>
    exact h.congr hfallback hfrom (Or.inl hrun')
      fun _ => ⟨_, hrun'.trans hrun, by rw [hresponse]⟩

end Soundness

/-! ## Runs -/

/-- A request as it is created, or attached to its first run. -/
structure ProviderRequest.New (q : ProviderRequest) : Prop where
  live : q.live = true
  fallbackState : q.fallbackState = ""
  unrecovered : q.unrecovered = true

/-- The request is cancelled or failed by its deadline. -/
def ProviderRequest.Ended (q : ProviderRequest) : Prop :=
  q.state = "cancelled" ∨ q.state = "failed" ∧ q.fallbackState = "deadline_exceeded"

/-- A request on which no election was held. -/
def Election.begin (s : Store) : Election :=
  ⟨s, ⟨[], [], none⟩⟩

section Runs

variable {requestId : RequestId} {e : Election} {q q' : ProviderRequest} {l l' : ElectionLog}

theorem sound_begin (hnew : q.New) : (ElectionLog.mk [] [] none).Sound q := by
  refine ⟨?_, fun _ => Nat.zero_le _, fun _ => Nat.zero_le _, fun _ => rfl, fun _ _ => rfl,
    fun hq => ?_, fun hq => ?_, fun hq => absurd hq (not_completed_of_live hnew.live)⟩
  · intro b hb
    cases hb
  · simp [hnew.fallbackState] at hq
  · simp [hnew.fallbackState] at hq

/-- The request is there and agrees with the log, after any steps. -/
theorem sound_run (hq : e.store.requests.get? requestId = some q) (h : e.log.Sound q)
    (steps : List (ElectionStep requestId)) :
    ∃ q', (Transition.run (Election.step requestId) e steps).store.requests.get? requestId =
        some q' ∧ (Transition.run (Election.step requestId) e steps).log.Sound q' := by
  have hstep : ∀ (e : Election) (i : ElectionStep requestId),
      (∃ q, e.store.requests.get? requestId = some q ∧ e.log.Sound q) → True →
      ∃ q, (e.step requestId i).store.requests.get? requestId = some q ∧
        (e.step requestId i).log.Sound q := by
    rintro e i ⟨q, hq, h⟩ -
    obtain ⟨q', hq', hmove⟩ := step_moves hq i
    exact ⟨q', hq', sound_move h hmove⟩
  have halong := Transition.along_of_forall (Election.step requestId) (C := fun _ _ => True)
    (fun _ _ => trivial) e steps
  exact Transition.invariant_run hstep ⟨q, hq, h⟩ halong

/-- An ended request is neither live nor completed. -/
theorem not_open_of_ended (h : q.Ended) : ¬(q.live = true ∨ q.state = "completed") := by
  rintro (hlive | hcompleted)
  · rcases h with h | ⟨h, -⟩ <;> simp [ProviderRequest.live, h] at hlive
  · rcases h with h | ⟨h, -⟩ <;> simp [h] at hcompleted

/-- An ended request keeps its state and its run. -/
theorem ended_move (h : q.Ended) (hmove : ElectionMove l q l' q') :
    q'.state = q.state ∧ q'.runId = q.runId ∧ q'.Ended := by
  have hclosed := not_open_of_ended h
  have hended : q'.state = q.state → q'.fallbackState = q.fallbackState → q'.Ended := by
    intro hstate hfallback
    rw [ProviderRequest.Ended, hstate, hfallback]
    exact h
  cases hmove with
  | same hsame => exact ⟨hsame.state, hsame.runId, hended hsame.state hsame.fallbackState⟩
  | progress hprogress =>
    have hstate := hprogress.state.resolve_right fun hlive => hclosed (Or.inl hlive.1)
    have hrun := hprogress.runId.resolve_right fun hlive => hclosed (Or.inl hlive.1)
    exact ⟨hstate, hrun, hended hstate hprogress.fallbackState⟩
  | claimFallback _ hlive => exact absurd (Or.inl hlive) hclosed
  | claimRecovery _ hlive => exact absurd (Or.inl hlive) hclosed
  | startFallback _ _ hlive => exact absurd (Or.inl hlive) hclosed
  | startRecovery _ _ hlive => exact absurd (Or.inl hlive) hclosed
  | settle hopen => exact absurd hopen hclosed
  | commit hopen => exact absurd hopen hclosed
  | complete hopen => exact absurd hopen hclosed

theorem ended_run (hq : e.store.requests.get? requestId = some q) (h : q.Ended)
    (steps : List (ElectionStep requestId)) :
    ∃ q', (Transition.run (Election.step requestId) e steps).store.requests.get? requestId =
      some q' ∧ q'.state = q.state ∧ q'.runId = q.runId := by
  have hstep : ∀ (e : Election) (i : ElectionStep requestId),
      (∃ q', e.store.requests.get? requestId = some q' ∧ q'.Ended ∧ q'.state = q.state ∧
        q'.runId = q.runId) → True →
      ∃ q', (e.step requestId i).store.requests.get? requestId = some q' ∧ q'.Ended ∧
        q'.state = q.state ∧ q'.runId = q.runId := by
    rintro e i ⟨v, hv, hended, hstate, hrun⟩ -
    obtain ⟨v', hv', hmove⟩ := step_moves hv i
    obtain ⟨hstate', hrun', hended'⟩ := ended_move hended hmove
    exact ⟨v', hv', hended', hstate'.trans hstate, hrun'.trans hrun⟩
  have halong := Transition.along_of_forall (Election.step requestId) (C := fun _ _ => True)
    (fun _ _ => trivial) e steps
  obtain ⟨q', hq', -, hstate, hrun⟩ :=
    Transition.invariant_run hstep ⟨q, hq, h, rfl, rfl⟩ halong
  exact ⟨q', hq', hstate, hrun⟩

/-- A request that has a run is bound to another one only by a winner. -/
theorem rebinds_move (hmove : ElectionMove l q l' q') {run : RunId} (hrun : q.runId = some run) :
    q'.runId = some run ∨ ∃ b, l'.rebindings = b :: l.rebindings ∧ b.win.run = run ∧
      q'.runId = some b.newRun := by
  cases hmove with
  | same hsame => exact Or.inl (hsame.runId.trans hrun)
  | progress hprogress =>
    rcases hprogress.runId with hsame | ⟨-, hnone⟩
    · exact Or.inl (hsame.trans hrun)
    · rw [hrun] at hnone
      cases hnone
  | claimFallback _ _ _ _ _ hrun' => exact Or.inl (hrun'.trans hrun)
  | claimRecovery _ _ _ _ _ _ hrun' => exact Or.inl (hrun'.trans hrun)
  | startFallback _ _ _ _ hfrom _ hrun' =>
    rw [hrun] at hfrom
    exact Or.inr ⟨_, rfl, (Option.some.inj hfrom).symm, hrun'⟩
  | startRecovery _ _ _ _ hfrom _ hrun' =>
    rw [hrun] at hfrom
    exact Or.inr ⟨_, rfl, (Option.some.inj hfrom).symm, hrun'⟩
  | settle _ _ hrun' => exact Or.inl (hrun'.trans hrun)
  | commit _ _ hrun' => exact Or.inl (hrun'.trans hrun)
  | complete _ _ hrun' => exact Or.inl (hrun'.trans hrun)

/-- The winner of the claimed election can start its replacement. -/
theorem startElection_of_claimed (hq : e.store.requests.get? requestId = some q)
    (h : e.log.Sound q) (hlive : q.live = true)
    (hclaimed : q.fallbackState = "claimed" ∨ q.fallbackState = "context_recovery_claimed") :
    ∃ w ∈ e.log.wins, ∀ now newRun sessionId, (e.store.runs.get? newRun).isSome = true →
      (e.store.sessions.get? sessionId).isSome = true →
      ((e.step requestId (.start now w newRun sessionId)).store.requests.get? requestId).bind
        ProviderRequest.runId = some newRun := by
  have hrebind : ∀ (p : ProviderRequest → Bool) (now : Time) (newRun : RunId)
      (sessionId : SessionId) (fallbackState : String), p q = true →
      (e.store.runs.get? newRun).isSome = true →
      (e.store.sessions.get? sessionId).isSome = true →
      ((e.store.rebindRequest requestId p sessionId newRun
        (.rebound now sessionId newRun fallbackState)).store.requests.get? requestId).bind
          ProviderRequest.runId = some newRun := by
    intro p now newRun sessionId fallbackState hp hrun hsession
    rw [Option.isSome_iff_ne_none, ne_eq, ← Option.isNone_iff_eq_none, Bool.not_eq_true]
      at hrun hsession
    rw [Store.rebindRequest, hrun, hsession, Bool.or_self, Bool.and_false,
      if_neg Bool.false_ne_true, (Store.changeRequest_row hq).1, if_pos hp]
    rfl
  rcases hclaimed with hclaimed | hclaimed
  · obtain ⟨-, w, hw, hrun⟩ := h.claimed hclaimed
    obtain ⟨hmem, hkind⟩ := List.mem_filter.mp hw
    refine ⟨w, hmem, fun now newRun sessionId hnew hsession => ?_⟩
    simp only [Election.step, if_pos hmem, Store.startElection, beq_iff_eq.mp hkind]
    refine hrebind _ now newRun sessionId "started" ?_ hnew hsession
    simp [ProviderRequest.fallbackStartable, hrun, hclaimed, hlive]
  · obtain ⟨-, w, hw, hrun, hfrom⟩ := h.recovering hclaimed
    obtain ⟨hmem, hkind⟩ := List.mem_filter.mp hw
    refine ⟨w, hmem, fun now newRun sessionId hnew hsession => ?_⟩
    simp only [Election.step, if_pos hmem, Store.startElection, beq_iff_eq.mp hkind]
    refine hrebind _ now newRun sessionId "" ?_ hnew hsession
    simp [ProviderRequest.recoveryStartable, hrun, hclaimed, hlive, hfrom]

end Runs

/-- What holds of a request and its elections in every state. -/
structure ElectionSettled (requestId : RequestId) (e : Election) : Prop where
  /-- One fallback and one context recovery at most. -/
  once : ∀ kind, (e.log.reboundBy kind).length ≤ 1
  /-- The only winner of its election rebinds the request. -/
  byWinner : ∀ b ∈ e.log.rebindings,
    b.win ∈ e.log.wins ∧ ∀ w ∈ e.log.wins, w.kind = b.win.kind → w = b.win
  /-- Nothing else rebinds it. -/
  rebinds : ∀ (i : ElectionStep requestId) q q' run,
    e.store.requests.get? requestId = some q →
    (e.step requestId i).store.requests.get? requestId = some q' → q.runId = some run →
    q'.runId = some run ∨ ∃ b, (e.step requestId i).log.rebindings = b :: e.log.rebindings ∧
      b.win.run = run ∧ q'.runId = some b.newRun
  /-- What was cancelled or failed by its deadline stays so. -/
  frozen : ∀ q, e.store.requests.get? requestId = some q → q.Ended →
    ∀ steps : List (ElectionStep requestId), ∃ q',
      (Transition.run (Election.step requestId) e steps).store.requests.get? requestId = some q' ∧
        q'.state = q.state ∧ q'.runId = q.runId
  /-- The response of a completed request was stored for the run it is bound to. -/
  stored : ∀ q, e.store.requests.get? requestId = some q → q.state = "completed" →
    ∃ run, q.runId = some run ∧ e.log.stored = some (run, q.response)
  /-- A live request with a claimed election can be cancelled, failed by its deadline, and bound to
  the replacement of its winner. -/
  settles : ∀ q, e.store.requests.get? requestId = some q → q.live = true →
    (q.fallbackState = "claimed" ∨ q.fallbackState = "context_recovery_claimed") →
    (∀ now, ((e.step requestId (.cancel now)).store.requests.get? requestId).map
      ProviderRequest.state = some "cancelled") ∧
    (∀ now, ((e.step requestId (.deadline now)).store.requests.get? requestId).map
      ProviderRequest.state = some "failed") ∧
    ∃ w ∈ e.log.wins, ∀ now newRun sessionId, (e.store.runs.get? newRun).isSome = true →
      (e.store.sessions.get? sessionId).isSome = true →
      ((e.step requestId (.start now w newRun sessionId)).store.requests.get? requestId).bind
        ProviderRequest.runId = some newRun

/-- Whatever the pollers of a new request do, its elections settle. -/
theorem providerElection_settled (s : Store) (requestId : RequestId) (q : ProviderRequest)
    (hq : s.requests.get? requestId = some q) (hnew : q.New)
    (steps : List (ElectionStep requestId)) :
    ElectionSettled requestId
      (Transition.run (Election.step requestId) (.begin s) steps) := by
  obtain ⟨v, hv, h⟩ := sound_run (e := .begin s) hq (sound_begin hnew) steps
  generalize Transition.run (Election.step requestId) (.begin s) steps = e at hv h
  have hrow : ∀ q', e.store.requests.get? requestId = some q' → q' = v := by
    intro q' hq'
    rw [hv] at hq'
    exact (Option.some.inj hq').symm
  refine ⟨h.oneRebinding, fun b hb => ⟨h.winners b hb, fun w hw hkind => ?_⟩, ?_, ?_, ?_, ?_⟩
  · have hmem : w ∈ e.log.won b.win.kind := List.mem_filter.mpr ⟨hw, by simp [hkind]⟩
    have hmem' : b.win ∈ e.log.won b.win.kind :=
      List.mem_filter.mpr ⟨h.winners b hb, by simp⟩
    have hone : (e.log.won b.win.kind).length = 1 :=
      le_antisymm (h.oneWin b.win.kind) (List.length_pos_of_mem hmem)
    obtain ⟨only, honly⟩ := List.length_eq_one_iff.mp hone
    rw [honly, List.mem_singleton] at hmem hmem'
    exact hmem.trans hmem'.symm
  · intro i q₁ q' run hq₁ hq' hrun
    obtain ⟨v', hv', hmove⟩ := step_moves hq₁ i
    rw [hq'] at hv'
    obtain rfl := Option.some.inj hv'
    exact rebinds_move hmove hrun
  · intro q₁ hq₁ hended steps'
    exact ended_run hq₁ hended steps'
  · intro q₁ hq₁ hcompleted
    obtain rfl := hrow q₁ hq₁
    exact h.stored hcompleted
  · intro q₁ hq₁ hlive hclaimed
    obtain rfl := hrow q₁ hq₁
    refine ⟨fun now => ?_, fun now => ?_, startElection_of_claimed hv h hlive hclaimed⟩
    · simp only [Election.step, Store.claimProviderRequestCancel_row hv, if_pos hlive]
      rfl
    · simp only [Election.step, Store.claimProviderRequestDeadline,
        (Store.changeRequest_row hv).1, if_pos hlive]
      rfl

/-- A store with a request that runs. -/
def requestedStore : Store :=
  { Store.init .default with
    requests := (Table.empty.insert? 0
      { tenantId := 0, ownerId := 0, sessionId := 0, runId := some (.uuid 1), state := "running",
        stateless := false, response := "", fallbackState := "", fallbackFrom := .none,
        responseTimeout := 600, responseDeadlineAt := none,
        replayDecision := ⟨1, "reserved", ""⟩, createdAt := 0, updatedAt := 0 }).getD .empty }

/-- Of two pollers that claim the fallback of a run, the first is elected. -/
theorem providerElection_settled_claimed :
    let e := Transition.run (Election.step 0) (.begin requestedStore)
      [.claim 1 ⟨1, .fallback, .uuid 1⟩, .claim 2 ⟨2, .fallback, .uuid 1⟩]
    e.log.wins = [⟨1, .fallback, .uuid 1⟩] ∧ ElectionSettled 0 e :=
  ⟨by decide, providerElection_settled requestedStore 0 _ rfl ⟨by decide, rfl, rfl⟩ _⟩

end GlassHive
