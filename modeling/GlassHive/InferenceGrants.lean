import GlassHive.InferenceBroker
import GlassHive.Library.Fallible
import GlassHive.Library.Holdings
import GlassHive.Library.Transition

/-!
# Grants of an inference broker client

`issue`, `bind_run` and `revoke_active` on one client, interleaved. A step is one section under the
lock, the sending of a request, what comes of it, or the verification of a payload; the clock, the
nonce, the reply and what the body of `bind_run` raises are its input.

The client holds its grants in memory only. Beside it stand records of what it received, sent and
accepted, and of the grants for which it attempted a revocation.
-/

namespace GlassHive

open Relational Transition
open Fallible (isOk_of_eq_ok eq_ok_of_isOk)

/-- What `issue` and `bind_run` are given. -/
structure GrantRequest where
  tenantId : Text
  ownerId : Text
  workerId : Text
  runId : Text
  authMethod : Text
  models : List Text
  deriving DecidableEq, Repr

/-- What `revoke_active` is given. -/
structure RevokeRequest where
  tenantId : Text
  ownerId : Text
  workerId : Text
  runId : Option Text := none
  deriving DecidableEq, Repr

inductive BrokerCall
  | issue (r : GrantRequest)
  | bindRun (r : GrantRequest)
  | revokeActive (r : RevokeRequest)
  deriving DecidableEq, Repr

/-- What a step reads from outside. -/
structure BrokerInput where
  now : ℕ := 0
  nonce : Text := []
  reply : BrokerReply := .ok (200, [])
  bodyError : Option BrokerException := none

/-- How far a call is: `bind_run` is `issue`, the body, and `revoke_active`. -/
inductive CallPhase
  /-- The request for a grant is sent. -/
  | posted (r : GrantRequest) (scope : GrantScope) (binds : Bool)
  | received (r : GrantRequest) (scope : GrantScope) (binds : Bool) (payload : BrokerFields)
  | verified (r : GrantRequest) (binds : Bool) (grant : InferenceBrokerGrant) (verifiedAt : ℕ)
  | body (r : GrantRequest)
  /-- `revoke_active`, before its section under the lock. -/
  | taking (r : RevokeRequest) (bodyError : Option BrokerException)
  | revoking (r : RevokeRequest) (bodyError : Option BrokerException)
      (grants : List InferenceBrokerGrant) (failures : List InferenceBrokerError)
  /-- The request that revokes the first of the grants is sent. -/
  | confirming (r : RevokeRequest) (bodyError : Option BrokerException)
      (grant : InferenceBrokerGrant) (grants : List InferenceBrokerGrant)
      (failures : List InferenceBrokerError)
  | done (result : Except BrokerException (Option InferenceBrokerGrant))

structure BrokerClient where
  config : Option InferenceBrokerConfig
  active : Table (Text × Text) InferenceBrokerGrant := .empty
  calls : List CallPhase := []
  /-- The tokens in the replies to requests for a grant, with the calls that received them. -/
  received : List (ℕ × Text) := []
  sent : List BrokerRequest := []
  /-- The grants that were recorded as active, with the times of their verification. -/
  accepted : List (ℕ × InferenceBrokerGrant) := []
  /-- The grants that `_revoke_grant` was called for, with the requests to revoke. -/
  attempted : List (RevokeRequest × InferenceBrokerGrant) := []
  /-- The grants whose revocation was not confirmed, with the calls that attempted it. -/
  unconfirmed : List (ℕ × InferenceBrokerGrant) := []
  /-- The grants that a revocation had left when an exception of another class ended it, with the
  calls. -/
  dropped : List (ℕ × InferenceBrokerGrant) := []

/-! ## The requests of a call -/

/-- The route of an authentication method. -/
def brokerRoute (authMethod : Text) : Option Text :=
  let method := Text.lower (Text.strip authMethod)
  if method = "api_key".toList then some "personal_api_key".toList
  else if method = "enterprise_route".toList then some "enterprise_route".toList
  else none

/-- The request of `issue`, with the run that it is for. -/
def issueRequest (config : Option InferenceBrokerConfig) (r : GrantRequest) (now : ℕ)
    (nonce : Text) : Except BrokerException (GrantScope × IssuerAssertion) :=
  match brokerRoute r.authMethod with
  | none =>
    brokerError "Only OpenAI API keys and enterprise routes use the inference broker"
      "unsupported_route"
  | some route => do
    let models ← normalizedModels (r.models.map .str)
    let scope : GrantScope := { workerId := r.workerId, runId := r.runId, route, models }
    let assertion ← issuerAssertion config r.tenantId r.ownerId scope .issue now nonce
    return (scope, assertion)

/-- `_revoke_grant`, from the reply on. -/
def revocationResult (reply : BrokerReply) (grant : InferenceBrokerGrant) :
    Except BrokerException Unit := do
  let payload ← postResult reply
  if confirmsRevocation payload grant then return ()
  else
    brokerError "GlassHive inference broker did not confirm grant revocation" "revoke_failed"

/-- The result of `revoke_active`, and of `bind_run` with what its body raised. -/
def revokedResult (bodyError : Option BrokerException) (failures : List InferenceBrokerError) :
    Except BrokerException (Option InferenceBrokerGrant) :=
  match bodyError with
  | some e => .error e
  | none =>
    if failures.isEmpty then .ok none
    else
      brokerError ("GlassHive could not confirm inference grant revocation; the worker was " ++
        "stopped and the grant will expire") "revoke_failed"

/-- The grants that a revocation takes. -/
def RevokeRequest.covers (r : RevokeRequest) (key : Text × Text) : Bool :=
  key.1 == r.workerId && (r.runId.isNone || r.runId == some key.2)

/-- The revocation with which `bind_run` ends. -/
def GrantRequest.revocation (r : GrantRequest) : RevokeRequest :=
  { tenantId := r.tenantId, ownerId := r.ownerId, workerId := r.workerId, runId := some r.runId }

namespace BrokerClient

/-- A call enters a phase. -/
@[simps]
def enter (s : BrokerClient) (i : ℕ) (phase : CallPhase) : BrokerClient :=
  { s with calls := s.calls.set i phase }

/-! ## Steps -/

/-- `issue`, up to its request. -/
def startIssue (s : BrokerClient) (r : GrantRequest) (binds : Bool) (input : BrokerInput) :
    BrokerClient :=
  match issueRequest s.config r input.now input.nonce with
  | .error e => { s with calls := s.calls ++ [.done (.error e)] }
  | .ok (scope, assertion) =>
    { s with
      calls := s.calls ++ [.posted r scope binds]
      sent := { path := "/grants", assertion, grantToken := none } :: s.sent }

/-- A call begins, up to its first request or its section under the lock. -/
def start (s : BrokerClient) (input : BrokerInput) : BrokerCall → BrokerClient
  | .issue r => s.startIssue r false input
  | .bindRun r => s.startIssue r true input
  | .revokeActive r => { s with calls := s.calls ++ [.taking r none] }

/-- What becomes of the revocation of one grant. -/
def endRevocation (s : BrokerClient) (i : ℕ) (r : RevokeRequest)
    (bodyError : Option BrokerException) (grant : InferenceBrokerGrant)
    (grants : List InferenceBrokerGrant) (failures : List InferenceBrokerError)
    (result : Except BrokerException Unit) : BrokerClient :=
  match result with
  | .ok () => s.enter i (.revoking r bodyError grants failures)
  | .error (.broker e) =>
    { s.enter i (.revoking r bodyError grants (failures ++ [e])) with
      unconfirmed := (i, grant) :: s.unconfirmed }
  | .error (.other name) =>
    -- only the typed failure is caught, so the other grants are not revoked
    { s.enter i (.done (.error (.other name))) with
      unconfirmed := (i, grant) :: s.unconfirmed
      dropped := grants.map (fun g => (i, g)) ++ s.dropped }

/-- A call goes on. -/
def advance (codec : GrantCodec) (s : BrokerClient) (i : ℕ) (input : BrokerInput) :
    BrokerClient :=
  match s.calls[i]? with
  | none => s
  | some (.done _) => s
  | some (.posted r scope binds) =>
    match postResult input.reply with
    | .error e => s.enter i (.done (.error e))
    | .ok payload =>
      { s.enter i (.received r scope binds payload) with
        received := (i, (payload.get "grantToken").textOrEmpty) :: s.received }
  | some (.received r scope binds payload) =>
    match s.config with
    | none => s.enter i (.done (.error (.other "AssertionError")))
    | some config =>
      match verifiedGrant codec config r.tenantId r.ownerId scope payload input.now with
      | .error e => s.enter i (.done (.error e))
      | .ok grant => s.enter i (.verified r binds grant input.now)
  | some (.verified r binds grant verifiedAt) =>
    match s.active.insert? (r.workerId, r.runId) grant with
    | none =>
      s.enter i (.done (brokerError "This worker run already has an active inference grant"
        "grant_conflict"))
    | some active =>
      { s.enter i (if binds then .body r else .done (.ok (some grant))) with
        active
        accepted := (verifiedAt, grant) :: s.accepted }
  | some (.body r) => s.enter i (.taking r.revocation input.bodyError)
  | some (.taking r bodyError) =>
    { s.enter i (.revoking r bodyError
        ((s.active.select fun key _ => r.covers key).map Prod.snd) []) with
      active := s.active.delete fun key _ => r.covers key }
  | some (.revoking _ bodyError [] failures) =>
    s.enter i (.done (revokedResult bodyError failures))
  | some (.revoking r bodyError (grant :: grants) failures) =>
    let s := { s with attempted := (r, grant) :: s.attempted }
    match issuerAssertion s.config r.tenantId r.ownerId grant.scope .revoke input.now
      input.nonce with
    | .error e => s.endRevocation i r bodyError grant grants failures (.error e)
    | .ok assertion =>
      { s.enter i (.confirming r bodyError grant grants failures) with
        sent := { path := "/grants/revoke", assertion, grantToken := some grant.token } ::
          s.sent }
  | some (.confirming r bodyError grant grants failures) =>
    s.endRevocation i r bodyError grant grants failures (revocationResult input.reply grant)

inductive Step
  | start (call : BrokerCall) (input : BrokerInput)
  | advance (call : ℕ) (input : BrokerInput)

def step (codec : GrantCodec) (s : BrokerClient) : Step → BrokerClient
  | .start call input => s.start input call
  | .advance call input => s.advance codec call input

/-- A client before its first call. -/
def init (config : Option InferenceBrokerConfig) : BrokerClient :=
  { config }

/-! ## What is kept -/

end BrokerClient

/-- The names of the run are those of a scope. -/
def GrantScope.Assertable (scope : GrantScope) : Prop :=
  (normalizedScope scope.workerId "worker").isOk = true ∧
    (normalizedScope scope.runId "run").isOk = true

/-- The key under which a grant is recorded. -/
def InferenceBrokerGrant.key (grant : InferenceBrokerGrant) : Text × Text :=
  (grant.scope.workerId, grant.scope.runId)

variable {config : Option InferenceBrokerConfig} {scope : GrantScope}
  {ownerId tenantId nonce : Text} {now : ℕ} {assertion : IssuerAssertion}

theorem assertable_of_issuerAssertion {action : GrantAction}
    (h : issuerAssertion config tenantId ownerId scope action now nonce = .ok assertion) :
    scope.Assertable := by
  unfold issuerAssertion at h
  split at h
  · obtain ⟨userId, -, h⟩ := eq_ok_of_bind h
    obtain ⟨workerId, hworker, h⟩ := eq_ok_of_bind h
    obtain ⟨runId, hrun, -⟩ := eq_ok_of_bind h
    exact ⟨isOk_of_eq_ok hworker, isOk_of_eq_ok hrun⟩
  · cases h

/-- An owner with one binding can be asserted for every run with the names of a scope. -/
theorem issuerAssertion_of_assertable (hscope : scope.Assertable)
    (howner : (principalForOwner config tenantId ownerId).isOk = true) (action : GrantAction)
    (now : ℕ) (nonce : Text) :
    ∃ assertion,
      issuerAssertion config tenantId ownerId scope action now nonce = .ok assertion := by
  obtain ⟨userId, huser⟩ := eq_ok_of_isOk howner
  obtain ⟨workerId, hworker⟩ := eq_ok_of_isOk hscope.1
  obtain ⟨runId, hrun⟩ := eq_ok_of_isOk hscope.2
  unfold issuerAssertion
  cases config with
  | none => cases huser
  | some => simp [huser, hworker, hrun, bind, Except.bind, pure, Except.pure]

theorem issueRequest_eq_ok {r : GrantRequest}
    (h : issueRequest config r now nonce = .ok (scope, assertion)) :
    scope.workerId = r.workerId ∧ scope.runId = r.runId ∧ scope.Assertable := by
  unfold issueRequest at h
  split at h
  · cases h
  obtain ⟨models, -, h⟩ := eq_ok_of_bind h
  obtain ⟨assertion', hassertion, h⟩ := eq_ok_of_bind h
  obtain ⟨rfl, -⟩ := Prod.mk.inj (Except.ok.inj h)
  exact ⟨rfl, rfl, assertable_of_issuerAssertion hassertion⟩

namespace CallPhase

/-- The grants that a call has taken and has not attempted to revoke yet. -/
def held : CallPhase → List InferenceBrokerGrant
  | .revoking _ _ grants _ => grants
  | .confirming _ _ _ grants _ => grants
  | _ => []

/-- What a call knows of its grant until it is recorded, and that it returns a recorded one. -/
def Sound (accepted : List (ℕ × InferenceBrokerGrant)) : CallPhase → Prop
  | .posted r scope _ =>
    scope.workerId = r.workerId ∧ scope.runId = r.runId ∧ scope.Assertable
  | .received r scope _ _ =>
    scope.workerId = r.workerId ∧ scope.runId = r.runId ∧ scope.Assertable
  | .verified r _ grant verifiedAt =>
    grant.key = (r.workerId, r.runId) ∧ grant.scope.Assertable ∧
      grant.expiresAt ≤ verifiedAt + 630
  | .done (.ok (some grant)) => grant ∈ accepted.map Prod.snd
  | _ => True

theorem Sound.cons {accepted : List (ℕ × InferenceBrokerGrant)} {phase : CallPhase}
    (h : phase.Sound accepted) (a : ℕ × InferenceBrokerGrant) : phase.Sound (a :: accepted) := by
  unfold Sound at h ⊢
  split at h
  · exact h
  · exact h
  · exact h
  · exact List.mem_cons_of_mem _ h
  · trivial

theorem sound_revokedResult (accepted : List (ℕ × InferenceBrokerGrant))
    (bodyError : Option BrokerException) (failures : List InferenceBrokerError) :
    (CallPhase.done (revokedResult bodyError failures)).Sound accepted := by
  unfold revokedResult
  split
  · trivial
  · split <;> trivial

/-- The call has returned or raised. -/
def isDone : CallPhase → Bool
  | .done _ => true
  | _ => false

theorem held_of_isDone {phase : CallPhase} (h : phase.isDone = true) : phase.held = [] := by
  unfold isDone at h
  split at h
  · rfl
  · cases h

/-- The call has failed to revoke a grant, and will raise. -/
def Failed : CallPhase → Prop
  | .revoking _ _ _ failures => failures ≠ []
  | .confirming _ _ _ _ failures => failures ≠ []
  | .done (.error _) => True
  | _ => False

end CallPhase

namespace BrokerClient

variable {s : BrokerClient}

/-- A request that revokes the grant is sent. -/
def RevokeSent (s : BrokerClient) (grant : InferenceBrokerGrant) : Prop :=
  ∃ q ∈ s.sent, q.path = "/grants/revoke" ∧ q.grantToken = some grant.token

/-- What every step keeps. -/
structure Sound (s : BrokerClient) : Prop where
  conserved : ∀ grant, (s.accepted.map Prod.snd).count grant =
    (s.active.entries.map Prod.snd).count grant +
      (Threads.held CallPhase.held s.calls).count grant +
      (s.attempted.map Prod.snd).count grant + (s.dropped.map Prod.snd).count grant
  keyed : ∀ key grant, s.active.get? key = some grant → grant.key = key
  accepted : ∀ a ∈ s.accepted, a.2.scope.Assertable ∧ a.2.expiresAt ≤ a.1 + 630
  attempted : ∀ a ∈ s.attempted, (principalForOwner s.config a.1.tenantId a.1.ownerId).isOk = true →
    s.RevokeSent a.2
  calls : ∀ (i : ℕ) (phase : CallPhase), s.calls[i]? = some phase →
    phase.Sound s.accepted
  failed : ∀ u, u ∈ s.unconfirmed ∨ u ∈ s.dropped → ∃ phase : CallPhase,
    s.calls[u.1]? = some phase ∧ phase.Failed

theorem sound_init (config : Option InferenceBrokerConfig) : (init config).Sound where
  conserved _ := rfl
  keyed _ _ h := by simp [init] at h
  accepted _ h := by cases h
  attempted _ h := by cases h
  calls i phase h := by simp [init] at h
  failed _ h := by simp [init] at h

theorem Sound.holdings (hs : s.Sound) : Holdings.Conserved CallPhase.held s.active s.calls
    (s.accepted.map Prod.snd) (s.attempted.map Prod.snd) (s.dropped.map Prod.snd) :=
  hs.conserved

variable {bodyError : Option BrokerException} {grant : InferenceBrokerGrant}
  {failures : List InferenceBrokerError} {grants : List InferenceBrokerGrant} {r : RevokeRequest}
  {i : ℕ} {p q : CallPhase}

/-- A call that fails is still failed, or another one moves. -/
theorem Sound.failed_set (hs : s.Sound) (hp : s.calls[i]? = some p) (hfailed : p.Failed → q.Failed)
    {u : ℕ × InferenceBrokerGrant} (hu : u ∈ s.unconfirmed ∨ u ∈ s.dropped) :
    ∃ phase : CallPhase, (s.calls.set i q)[u.1]? = some phase ∧ phase.Failed := by
  obtain ⟨phase, hphase, hphaseFailed⟩ := hs.failed u hu
  refine Threads.exists_set ⟨phase, hphase, hphaseFailed⟩ fun hi => hfailed ?_
  rw [← hi, hp] at hphase
  exact Option.some.inj hphase ▸ hphaseFailed

/-- A call that goes on with the grants that it holds. -/
theorem Sound.enter (hs : s.Sound) (hp : s.calls[i]? = some p) (hheld : q.held = p.held)
    (hq : q.Sound s.accepted) (hfailed : p.Failed → q.Failed) : (s.enter i q).Sound where
  conserved := hs.holdings.keep hp hheld
  keyed := hs.keyed
  accepted := hs.accepted
  attempted := hs.attempted
  calls := Threads.forall_set hs.calls hq
  failed _ hu := hs.failed_set hp hfailed hu

/-- A call that begins. -/
theorem Sound.begin (hs : s.Sound) (hheld : q.held = []) (hq : q.Sound s.accepted) :
    BrokerClient.Sound { s with calls := s.calls ++ [q] } where
  conserved := hs.holdings.begin hheld
  keyed := hs.keyed
  accepted := hs.accepted
  attempted := hs.attempted
  calls := Threads.forall_append hs.calls hq
  failed u hu := by
    obtain ⟨phase, hphase, hphaseFailed⟩ := hs.failed u hu
    exact ⟨phase, Threads.getElem?_append hphase, hphaseFailed⟩

/-! ### Steps -/

theorem sound_startIssue (hs : s.Sound) (r : GrantRequest) (binds : Bool) (input : BrokerInput) :
    (s.startIssue r binds input).Sound := by
  unfold startIssue
  split
  · exact hs.begin rfl trivial
  · rename_i scope assertion hrequest
    have hbegun : BrokerClient.Sound { s with calls := s.calls ++ [.posted r scope binds] } :=
      hs.begin rfl (issueRequest_eq_ok hrequest)
    exact { hbegun with
      attempted := fun a ha howner => by
        obtain ⟨q, hq, hsent⟩ := hs.attempted a ha howner
        exact ⟨q, List.mem_cons_of_mem _ hq, hsent⟩ }

theorem sound_start (hs : s.Sound) (input : BrokerInput) (call : BrokerCall) :
    (s.start input call).Sound := by
  cases call with
  | issue r => exact sound_startIssue hs r false input
  | bindRun r => exact sound_startIssue hs r true input
  | revokeActive => exact hs.begin rfl trivial

/-- A verified grant is recorded under the key of its own run. -/
theorem sound_record (hs : s.Sound) {r : GrantRequest} {binds : Bool} {verifiedAt : ℕ}
    {active : Table (Text × Text) InferenceBrokerGrant}
    (hp : s.calls[i]? = some (.verified r binds grant verifiedAt))
    (hactive : s.active.insert? (r.workerId, r.runId) grant = some active) :
    BrokerClient.Sound { s.enter i (if binds then .body r else .done (.ok (some grant))) with
      active
      accepted := (verifiedAt, grant) :: s.accepted } := by
  obtain ⟨hkey, hscope, hexpires⟩ := hs.calls i _ hp
  generalize hq : (if binds then CallPhase.body r else .done (.ok (some grant))) = q
  have hheld : q.held = [] := by
    cases binds <;> rw [← hq] <;> rfl
  have hsound : q.Sound ((verifiedAt, grant) :: s.accepted) := by
    cases binds
    · rw [← hq]
      exact List.mem_cons_self
    · rw [← hq]
      trivial
  exact {
    conserved := hs.holdings.record hp hheld hactive
    keyed := fun key g hg => by
      rw [Table.get?_insert hactive] at hg
      split at hg
      · rename_i hkeys
        rw [← Option.some.inj hg, hkeys, hkey]
      · exact hs.keyed key g hg
    accepted := fun a ha => by
      rcases List.mem_cons.mp ha with rfl | ha
      · exact ⟨hscope, hexpires⟩
      · exact hs.accepted a ha
    attempted := hs.attempted
    calls := Threads.forall_set (fun j phase hphase => (hs.calls j phase hphase).cons _) hsound
    failed := fun _ hu => hs.failed_set hp False.elim hu }

/-- What a revocation takes is no longer recorded, and held by the call. -/
theorem sound_take (hs : s.Sound) (hp : s.calls[i]? = some (.taking r bodyError)) :
    BrokerClient.Sound { s.enter i (.revoking r bodyError
        ((s.active.select fun key _ => r.covers key).map Prod.snd) []) with
      active := s.active.delete fun key _ => r.covers key } where
  conserved := hs.holdings.take hp rfl rfl
  keyed key grant h := hs.keyed key grant (Table.get?_delete_eq_some.mp h).1
  accepted := hs.accepted
  attempted := hs.attempted
  calls := Threads.forall_set hs.calls trivial
  failed _ hu := hs.failed_set hp False.elim hu

/-- A call lets go of the grants that it still holds. -/
theorem Sound.loses (hs : s.Sound) (hp : s.calls[i]? = some (.revoking r bodyError grants failures))
    (grant : InferenceBrokerGrant) (e : BrokerException) :
    BrokerClient.Sound { s.enter i (.done (.error e)) with
      unconfirmed := (i, grant) :: s.unconfirmed
      dropped := grants.map (fun g => (i, g)) ++ s.dropped } where
  conserved := by
    simpa [CallPhase.held, Function.comp_def, Holdings.Conserved] using
      hs.holdings.lose hp (q := .done (.error e)) rfl
  keyed := hs.keyed
  accepted := hs.accepted
  attempted := hs.attempted
  calls := Threads.forall_set hs.calls trivial
  failed u hu := by
    have hold : u.1 = i ∨ u ∈ s.unconfirmed ∨ u ∈ s.dropped := by
      simp only [List.mem_cons, List.mem_append, List.mem_map] at hu
      rcases hu with (rfl | hu) | ⟨g, -, rfl⟩ | hu
      · exact Or.inl rfl
      · exact Or.inr (Or.inl hu)
      · exact Or.inl rfl
      · exact Or.inr (Or.inr hu)
    rcases hold with hi | hold
    · rw [hi]
      exact ⟨_, Threads.getElem?_set_self hp, trivial⟩
    · exact hs.failed_set hp (q := .done (.error e)) (fun _ => trivial) hold

/-- The end of the revocation of one grant, in a call that keeps the others. -/
theorem sound_endRevocation (hp : s.calls[i]? = some p)
    (henter : ∀ q : CallPhase, q.held = grants → q.Sound s.accepted → (failures ≠ [] → q.Failed) → (s.enter i q).Sound)
    (result : Except BrokerException Unit) :
    (s.endRevocation i r bodyError grant grants failures result).Sound := by
  unfold endRevocation
  split
  · exact henter _ rfl trivial id
  · rename_i e
    have hfailed : failures ++ [e] ≠ [] := by simp
    have hentered := henter (.revoking r bodyError grants (failures ++ [e])) rfl trivial
      fun _ => hfailed
    refine { hentered with failed := fun u hu => ?_ }
    rcases hu with hu | hu
    · rcases List.mem_cons.mp hu with rfl | hu
      · exact ⟨_, Threads.getElem?_set_self hp, hfailed⟩
      · exact hentered.failed u (Or.inl hu)
    · exact hentered.failed u (Or.inr hu)
  · have hentered := henter (.revoking r bodyError grants failures) rfl trivial id
    simpa using hentered.loses (Threads.getElem?_set_self hp) grant _

/-- The attempt to revoke one of the grants that a call holds. -/
theorem sound_attempt (hs : s.Sound) {sent : List BrokerRequest}
    (hp : s.calls[i]? = some (.revoking r bodyError (grant :: grants) failures))
    (hsent : ∀ q ∈ s.sent, q ∈ sent)
    (hrevoke : (principalForOwner s.config r.tenantId r.ownerId).isOk = true → ∃ q ∈ sent, q.path = "/grants/revoke" ∧ q.grantToken = some grant.token)
    (hheld : q.held = grants) (hq : q.Sound s.accepted) (hfailed : failures ≠ [] → q.Failed) :
    BrokerClient.Sound { s.enter i q with attempted := (r, grant) :: s.attempted, sent } where
  conserved := by
    have hholds : (CallPhase.revoking r bodyError (grant :: grants) failures).held =
        grant :: q.held := by
      rw [hheld]
      rfl
    exact hs.holdings.release hp hholds
  keyed := hs.keyed
  accepted := hs.accepted
  attempted a ha howner := by
    rcases List.mem_cons.mp ha with rfl | ha
    · exact hrevoke howner
    · obtain ⟨q, hq, hold⟩ := hs.attempted a ha howner
      exact ⟨q, hsent q hq, hold⟩
  calls := Threads.forall_set hs.calls hq
  failed _ hu := hs.failed_set hp hfailed hu

theorem sound_revoke (hs : s.Sound)
    (hp : s.calls[i]? = some (.revoking r bodyError (grant :: grants) failures))
    (codec : GrantCodec) (input : BrokerInput) : (s.advance codec i input).Sound := by
  have hscope : grant.scope.Assertable := by
    obtain ⟨a, ha, rfl⟩ := List.mem_map.mp (hs.holdings.mem_acquired hp List.mem_cons_self)
    exact (hs.accepted a ha).1
  unfold advance
  rw [hp]
  dsimp only
  split
  · rename_i e hassertion
    -- the request is not sent, because the owner of the revocation has no single binding
    refine sound_endRevocation (s := { s with attempted := (r, grant) :: s.attempted }) hp
      (fun q hheld hq hfailed => ?_) _
    refine sound_attempt hs hp (fun q hq => hq) (fun howner => ?_) hheld hq hfailed
    obtain ⟨assertion, hok⟩ := issuerAssertion_of_assertable hscope howner .revoke input.now
      input.nonce
    rw [hok] at hassertion
    cases hassertion
  · exact sound_attempt hs hp (fun q hq => List.mem_cons_of_mem _ hq)
      (fun _ => ⟨_, List.mem_cons_self, rfl, rfl⟩) rfl trivial id

theorem sound_advance (hs : s.Sound) (codec : GrantCodec) (i : ℕ) (input : BrokerInput) :
    (s.advance codec i input).Sound := by
  cases hp : s.calls[i]? with
  | none => simpa only [advance, hp] using hs
  | some p =>
    cases p with
    | done => simpa only [advance, hp] using hs
    | posted r scope binds =>
      simp only [advance, hp]
      split
      · exact hs.enter hp rfl trivial False.elim
      · rename_i payload _
        have hscope : (CallPhase.posted r scope binds).Sound s.accepted := hs.calls i _ hp
        have hentered : (s.enter i (.received r scope binds payload)).Sound :=
          hs.enter hp rfl hscope False.elim
        exact { hentered with }
    | received =>
      simp only [advance, hp]
      split
      · exact hs.enter hp rfl trivial False.elim
      split
      · exact hs.enter hp rfl trivial False.elim
      · rename_i grant hgrant
        obtain ⟨hworker, hrun, hscope⟩ := hs.calls i _ hp
        obtain ⟨hgrantScope, -, hexpires⟩ := verifiedGrant_eq_ok hgrant
        refine hs.enter hp rfl ⟨?_, ?_, hexpires⟩ False.elim
        · rw [InferenceBrokerGrant.key, hgrantScope, hworker, hrun]
        · rwa [hgrantScope]
    | verified =>
      simp only [advance, hp]
      split
      · exact hs.enter hp rfl trivial False.elim
      · rename_i active hactive
        exact sound_record hs hp hactive
    | body =>
      simp only [advance, hp]
      exact hs.enter hp rfl trivial False.elim
    | taking =>
      simp only [advance, hp]
      exact sound_take hs hp
    | revoking r bodyError grants failures =>
      cases grants with
      | nil =>
        simp only [advance, hp]
        refine hs.enter hp rfl (CallPhase.sound_revokedResult _ _ _) fun hfailed => ?_
        have hne : failures.isEmpty = false := by simpa [CallPhase.Failed] using hfailed
        cases bodyError with
        | some => exact trivial
        | none =>
          simp only [revokedResult, hne]
          exact trivial
      | cons => exact sound_revoke hs hp codec input
    | confirming =>
      simp only [advance, hp]
      refine sound_endRevocation hp (fun q hheld hq hfailed => ?_) _
      exact hs.enter hp hheld hq hfailed

theorem sound_step (codec : GrantCodec) (s : BrokerClient) (c : Step) (hs : s.Sound) :
    (s.step codec c).Sound := by
  cases c with
  | start call input => exact sound_start hs input call
  | advance call input => exact sound_advance hs codec call input

theorem sound_run (codec : GrantCodec) (config : Option InferenceBrokerConfig)
    (steps : List Step) : (run (step codec) (init config) steps).Sound :=
  invariant_run (C := fun _ _ => True) (fun s c hs _ => sound_step codec s c hs)
    (sound_init config) (along_of_forall _ (fun _ _ => trivial) _ _)

/-! ## Where the grants are -/

/-- What holds of the grants of a client after every run. -/
structure Accounted (s : BrokerClient) : Prop where
  /-- Every accepted grant is recorded as active, held by a call that is to revoke it, handed to a
  revocation, or dropped; and this as often as it was accepted. -/
  conserved : (s.accepted.map Prod.snd).Perm (s.active.entries.map Prod.snd ++
    Threads.held CallPhase.held s.calls ++ s.attempted.map Prod.snd ++ s.dropped.map Prod.snd)
  /-- None is held once every call has returned or raised. -/
  atRest : s.calls.all CallPhase.isDone = true → Threads.held CallPhase.held s.calls = []
  /-- What `issue` returned was accepted. -/
  issued : ∀ (i : ℕ) (grant : InferenceBrokerGrant),
    s.calls[i]? = some (.done (.ok (some grant))) → grant ∈ s.accepted.map Prod.snd
  /-- A grant is recorded for its own worker and run. -/
  keyed : ∀ key grant, s.active.get? key = some grant → grant.key = key
  /-- A revocation for an owner with one binding sends a request with the token. -/
  attempted : ∀ a ∈ s.attempted,
    (principalForOwner s.config a.1.tenantId a.1.ownerId).isOk = true → s.RevokeSent a.2
  /-- A call that left a revocation unconfirmed, or a grant without one, does not return. -/
  raises : ∀ u, u ∈ s.unconfirmed ∨ u ∈ s.dropped → ∀ result,
    s.calls[u.1]? ≠ some (.done (.ok result))
  /-- An accepted grant expires. -/
  expires : ∀ a ∈ s.accepted, a.2.expiresAt ≤ a.1 + 630

/-- After every interleaving of calls, with any replies and failures, the accepted grants are
accounted for. -/
theorem grants_accounted (codec : GrantCodec) (config : Option InferenceBrokerConfig)
    (steps : List Step) : (run (step codec) (init config) steps).Accounted := by
  have hs := sound_run codec config steps
  refine ⟨hs.holdings.perm, fun hdone => ?_, fun i grant hdone => hs.calls i _ hdone, hs.keyed, hs.attempted,
    fun u hu result hdone => ?_, fun a ha => (hs.accepted a ha).2⟩
  · rw [Threads.held, List.flatMap_eq_nil_iff]
    intro phase hphase
    exact CallPhase.held_of_isDone (List.all_eq_true.mp hdone phase hphase)
  · obtain ⟨phase, hphase, hfailed⟩ := hs.failed u hu
    rw [hdone] at hphase
    obtain rfl := Option.some.inj hphase
    exact hfailed.elim

/-! ## What is not kept -/

/-- A grant that an ended call received is recorded, or a request that revokes it is sent; and one
whose revocation was not confirmed is recorded. -/
def Unleaked (s : BrokerClient) : Prop :=
  (∀ e ∈ s.received, e.2 ≠ [] → (s.calls[e.1]?.any CallPhase.isDone) = true →
    (∃ row ∈ s.active.entries, row.2.token = e.2) ∨
      ∃ q ∈ s.sent, q.path = "/grants/revoke" ∧ q.grantToken = some e.2) ∧
  ∀ u ∈ s.unconfirmed, ∃ row ∈ s.active.entries, row.2 = u.2

instance (s : BrokerClient) : Decidable s.Unleaked := by
  unfold Unleaked
  infer_instance

section Leaks

private def tenantOwner : InferenceBrokerConfig where
  issuerUrl := []
  proxyBaseUrl := []
  secret := []
  brokerTenantId := "t".toList
  ownerBindings := [⟨"t".toList, "o".toList, "u".toList⟩]

private def grantName : Text :=
  "ghcb_infer_".toList ++ List.replicate 64 'a'

private def signedClaims : BrokerFields :=
  [("sig", .str ['s']), ("aud", .str grantAudience), ("tenant_id", .str ['t']),
    ("user_id", .str ['u']), ("worker_id", .str ['w']), ("run_id", .str ['r']),
    ("provider", .str "openai".toList), ("route", .str "personal_api_key".toList),
    ("adapter", .str adapterId), ("models", .array [.str ['m']] []),
    ("grant_id", .str grantName), ("iat", .int 0), ("exp", .int 600)]

/-- One token does not decode; the others decode to the claims of one grant. -/
private def oneGrantCodec : GrantCodec where
  loads token := if token = ['x'] then .ok none else .ok (some (.object signedClaims []))
  sign _ _ := .ok ['s']
  parseInt _ := none
  timestamp _ := .ok (some 600)

private def grantReply (token : Text) : BrokerInput where
  reply := .ok (200,
    [("grantToken", .str token), ("grantId", .str grantName), ("provider", .str "openai".toList),
      ("route", .str "personal_api_key".toList), ("expiresAt", .str ['e']),
      ("adapter", .object
        [("id", .str adapterId), ("auth", .str "bearer_grant".toList),
          ("paths", .array [.str "/responses".toList] []), ("supportsStreaming", .bool true),
          ("baseUrl", .str "/openai/v1".toList)] [])])

private def runGrant : GrantRequest where
  tenantId := ['t']
  ownerId := ['o']
  workerId := ['w']
  runId := ['r']
  authMethod := "api_key".toList
  models := [['m']]

/-- `issue`, with the token that the broker replies. -/
private def issueSteps (call : ℕ) (token : Text) : List Step :=
  [.start (.issue runGrant) {}, .advance call (grantReply token), .advance call {},
    .advance call {}]

private def revokeSteps (call : ℕ) (ownerId : Text) : List Step :=
  [.start (.revokeActive ⟨['t'], ownerId, ['w'], none⟩) {}, .advance call {}, .advance call {},
    .advance call {}, .advance call {}]

/-- A grant is lost when its reply fails the verification, when the run has a grant, and when the
owner of the revocation has no binding; and one whose revocation is not confirmed is not recorded
again. -/
theorem grants_leak :
    ¬(run (step oneGrantCodec) (init (some tenantOwner)) (issueSteps 0 ['x'])).Unleaked ∧
    ¬(run (step oneGrantCodec) (init (some tenantOwner))
      (issueSteps 0 ['a'] ++ issueSteps 1 ['b'])).Unleaked ∧
    ¬(run (step oneGrantCodec) (init (some tenantOwner))
      (issueSteps 0 ['a'] ++ revokeSteps 1 ['z'])).Unleaked ∧
    ¬(run (step oneGrantCodec) (init (some tenantOwner))
      (issueSteps 0 ['a'] ++ revokeSteps 1 ['o'])).Unleaked := by
  decide +kernel

end Leaks

end BrokerClient

end GlassHive
