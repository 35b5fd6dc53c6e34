import GlassHive.Requests

/-!
# Elections of a replacement run

When the run of a provider request fails, the pollers of the request elect one of them to start a
fallback run, or a run with a compacted context. A poller claims the election by a compare-and-set
on the request and starts the replacement only when it has won the claim.
-/

namespace GlassHive

open Relational

namespace ProviderRequest

/-- The request is neither answered nor settled. -/
def live (q : ProviderRequest) : Bool :=
  oneOf q.state ["queued", "running"]

/-- No context recovery was claimed before. -/
def unrecovered (q : ProviderRequest) : Bool :=
  match q.fallbackFrom with
  | .contextRecovery _ => false
  | _ => true

/-- What `claim_provider_request_context_recovery` requires. -/
def recoveryClaimable (expected : RunId) (q : ProviderRequest) : Bool :=
  q.runId == some expected && q.fallbackState == "" && q.unrecovered && q.live

/-- What `start_provider_request_fallback` requires. -/
def fallbackStartable (expected : RunId) (q : ProviderRequest) : Bool :=
  q.runId == some expected && q.fallbackState == "claimed" && q.live

/-- What `start_provider_request_context_recovery` requires. -/
def recoveryStartable (expected : RunId) (q : ProviderRequest) : Bool :=
  q.runId == some expected && q.fallbackState == "context_recovery_claimed" &&
    q.fallbackFrom == .contextRecovery expected && q.live

/-- A request whose replacement run starts. -/
def rebound (now : Time) (sessionId : SessionId) (runId : RunId) (fallbackState : String)
    (q : ProviderRequest) : ProviderRequest :=
  { q with
    sessionId := sessionId, runId := some runId, state := "queued",
    fallbackState := fallbackState, response := "", updatedAt := now }

/-- What `commit_provider_request_terminal` requires. -/
def committable (expected : RunId) (state : String) (q : ProviderRequest) : Bool :=
  q.runId == some expected && !oneOf q.fallbackState ["claimed", "context_recovery_claimed"] &&
    (q.live || (q.state == "completed" && state == "completed" && q.response == ""))

end ProviderRequest

namespace Store

/-- A compare-and-set on a request, with the row that it leaves when it changed one. -/
def changeRequest (s : Store) (requestId : RequestId) (p : ProviderRequest → Bool)
    (f : ProviderRequest → ProviderRequest) : Outcome (Option ProviderRequest) :=
  .commit (s.updateRequests (fun id q => id == requestId && p q) f)
    (((s.requests.get? requestId).filter p).map f)

/-- The same where the row is bound to a session and a run, which have to be there. -/
def rebindRequest (s : Store) (requestId : RequestId) (p : ProviderRequest → Bool)
    (sessionId : SessionId) (runId : RunId) (f : ProviderRequest → ProviderRequest) :
    Outcome (Option ProviderRequest) :=
  if (s.requests.get? requestId).any p &&
      ((s.sessions.get? sessionId).isNone || (s.runs.get? runId).isNone) then
    .raise s (.integrity "provider_requests")
  else s.changeRequest requestId p f

/-- The provider liveness holds the route of the run. -/
def routeLocked (s : Store) (runId : RunId) : Bool :=
  (s.runs.get? runId).any fun r => r.liveness.routeLocked

/-- What `claim_provider_request_fallback` requires. -/
def fallbackClaimable (s : Store) (expected : RunId) (q : ProviderRequest) : Bool :=
  q.runId == some expected && q.fallbackState == "" && q.live && !s.routeLocked expected

/-- `claim_provider_request_fallback`. -/
def claimProviderRequestFallback (s : Store) (now : Time) (requestId : RequestId)
    (expected : RunId) : Outcome (Option ProviderRequest) :=
  s.changeRequest requestId (s.fallbackClaimable expected) fun q =>
    { q with fallbackState := "claimed", fallbackFrom := .run expected, updatedAt := now }

/-- `claim_provider_request_context_recovery`. -/
def claimProviderRequestContextRecovery (s : Store) (now : Time) (requestId : RequestId)
    (expected : RunId) : Outcome (Option ProviderRequest) :=
  s.changeRequest requestId (·.recoveryClaimable expected) fun q =>
    { q with
      fallbackState := "context_recovery_claimed", fallbackFrom := .contextRecovery expected,
      updatedAt := now }

/-- `start_provider_request_fallback`. -/
def startProviderRequestFallback (s : Store) (now : Time) (requestId : RequestId)
    (expected fallback : RunId) (sessionId : SessionId) : Outcome (Option ProviderRequest) :=
  s.rebindRequest requestId (·.fallbackStartable expected) sessionId fallback
    (.rebound now sessionId fallback "started")

/-- `start_provider_request_context_recovery`. -/
def startProviderRequestContextRecovery (s : Store) (now : Time) (requestId : RequestId)
    (expected recovery : RunId) (sessionId : SessionId) : Outcome (Option ProviderRequest) :=
  s.rebindRequest requestId (·.recoveryStartable expected) sessionId recovery
    (.rebound now sessionId recovery "")

/-- `fail_stale_provider_request_fallback`. -/
def failStaleProviderRequestFallback (s : Store) (now : Time) (requestId : RequestId)
    (claimedBefore : Time) : Outcome (Option ProviderRequest) :=
  s.changeRequest requestId
    (fun q => q.fallbackState == "claimed" && q.live && decide (q.updatedAt ≤ claimedBefore))
    fun q => { q with state := "failed", fallbackState := "failed", updatedAt := now }

/-- `claim_provider_request_deadline`. -/
def claimProviderRequestDeadline (s : Store) (now : Time) (requestId : RequestId) :
    Outcome (Option ProviderRequest) :=
  s.changeRequest requestId (·.live) fun q =>
    { q with state := "failed", fallbackState := "deadline_exceeded", updatedAt := now }

/-- `commit_provider_request_terminal`, without the activity that it records. -/
def commitProviderRequestTerminal (s : Store) (now : Time) (requestId : RequestId)
    (expected : RunId) (state response : String) : Outcome (Option ProviderRequest) :=
  if !oneOf state ["completed", "failed", "cancelled"] then
    .raise s (.valueError "Invalid provider terminal state")
  else if state == "completed" && response == "" then
    .raise s (.valueError "Completed provider request requires a saved response")
  else
    let s' := (s.changeRequest requestId (·.committable expected state) fun q =>
      { q with
        state := state, response := if state == "completed" then response else "",
        updatedAt := now }).store
    .commit s' (s'.requests.get? requestId)

/-! ## The row that the transactions leave -/

section Rows

variable {s : Store} {now : Time} {requestId : RequestId} {q : ProviderRequest}
  {p : ProviderRequest → Bool} {f : ProviderRequest → ProviderRequest}

/-- The row is there and the compare-and-set tells whether it changed it. -/
theorem changeRequest_row (hq : s.requests.get? requestId = some q) :
    (s.changeRequest requestId p f).store.requests.get? requestId =
        some (if p q then f q else q) ∧
      (s.changeRequest requestId p f).result = .ok (if p q then some (f q) else none) := by
  constructor
  · rw [changeRequest, Outcome.store_commit, updateRequests_requests, Table.get?_update, hq]
    simp
  · rw [changeRequest, Outcome.result_commit, hq]
    by_cases hp : p q = true
    · simp [hp]
    · simp [hp]

theorem rebindRequest_cases {sessionId : SessionId} {runId : RunId} :
    ((s.rebindRequest requestId p sessionId runId f).store = s ∧
      ∃ e, (s.rebindRequest requestId p sessionId runId f).result = .error e) ∨
    s.rebindRequest requestId p sessionId runId f = s.changeRequest requestId p f := by
  unfold rebindRequest
  split
  · exact Or.inl ⟨rfl, _, rfl⟩
  · exact Or.inr rfl

theorem claimProviderRequestCancel_row (hq : s.requests.get? requestId = some q) :
    (s.claimProviderRequestCancel now requestId).store.requests.get? requestId =
      some (if q.live then
        { q with state := "cancelled", fallbackState := "cancelled", updatedAt := now } else q) := by
  rcases claimProviderRequestCancel_cases s now requestId with ⟨h, hdead⟩ | ⟨v, hv, hlive, h⟩
  · rw [h, hq, if_neg]
    exact fun hlive => hdead ⟨q, hq, hlive⟩
  · rw [hq] at hv
    obtain rfl := Option.some.inj hv
    have hlive' : q.live = true := hlive
    have hrow : (s.cancelRequest now requestId).requests.get? requestId = some
        { q with state := "cancelled", fallbackState := "cancelled", updatedAt := now } := by
      rw [cancelRequest, updateRequests_requests, Table.get?_update, hq, Option.map_some,
        if_pos (by rw [beq_self_eq_true, hlive]; rfl)]
    rw [h, if_pos hlive']
    split
    · exact hrow
    · exact hrow

/-- The deadline is recorded, and an overdue request fails. -/
theorem arbitrateProviderRequestDeadline_row {timeout : ℕ} {f : DeadlineFailure}
    (hq : s.requests.get? requestId = some q) :
    ∃ q', (s.arbitrateProviderRequestDeadline now requestId timeout f).store.requests.get?
        requestId = some q' ∧ q'.runId = q.runId ∧ q'.fallbackFrom = q.fallbackFrom ∧
      ((q'.state = q.state ∧ q'.fallbackState = q.fallbackState ∧ q'.response = q.response) ∨
        ((q.live = true ∨ q.state = "completed") ∧ q'.state = "failed" ∧
          q'.fallbackState = "deadline_exceeded")) := by
  have hrecorded : ∃ v, (s.recordDeadline now requestId timeout q).requests.get? requestId =
      some v ∧ v.runId = q.runId ∧ v.fallbackFrom = q.fallbackFrom ∧ v.state = q.state ∧
        v.fallbackState = q.fallbackState ∧ v.response = q.response := by
    unfold recordDeadline
    split
    · rw [updateRequests_requests, Table.get?_update, hq, Option.map_some,
        if_pos (beq_self_eq_true requestId)]
      exact ⟨_, rfl, rfl, rfl, rfl, rfl, rfl⟩
    · exact ⟨q, hq, rfl, rfl, rfl, rfl, rfl⟩
  obtain ⟨v, hv, hrun, hfrom, hstate, hfallback, hresponse⟩ := hrecorded
  unfold arbitrateProviderRequestDeadline
  rw [hq]
  dsimp only
  split
  · exact ⟨v, hv, hrun, hfrom, Or.inl ⟨hstate, hfallback, hresponse⟩⟩
  rename_i hdue
  have hopen : q.live = true ∨ q.state = "completed" := by
    rw [Bool.not_eq_true', Bool.not_eq_false] at hdue
    obtain ⟨deadline, -, hdue⟩ := (Option.any_eq_true _ _).mp hdue
    rcases (Bool.or_eq_true _ _).mp hdue with hlate | hlive
    · exact Or.inr (beq_iff_eq.mp (Bool.and_eq_true_iff.mp hlate).1)
    · exact Or.inl (Bool.and_eq_true_iff.mp (Bool.and_eq_true_iff.mp hlive).1).1
  have hfailed : ((s.recordDeadline now requestId timeout q).failRequest now
      requestId).requests.get? requestId = some { v with
        state := "failed", fallbackState := "deadline_exceeded", response := "",
        updatedAt := now } := by
    rw [failRequest, updateRequests_requests, Table.get?_update, hv, Option.map_some,
      if_pos (beq_self_eq_true requestId)]
  split
  · exact ⟨_, hfailed, hrun, hfrom, Or.inr ⟨hopen, rfl, rfl⟩⟩
  · exact ⟨_, hfailed, hrun, hfrom, Or.inr ⟨hopen, rfl, rfl⟩⟩

end Rows

end Store

end GlassHive
