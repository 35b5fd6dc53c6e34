import GlassHive.CapabilityBroker
import GlassHive.InferenceGrants

/-!
# Grants of a capability broker client

`issue`, `bind_run` and `revoke_active` on one client, interleaved. A step is one section under the
lock, the sending of a request, what comes of it, or the verification of a payload; the clock, the
nonce, the reply and what the body of `bind_run` raises are its input.

Beside the grants of the client stand records of what it received, sent and recorded, and of the
grants for which it attempted a revocation.
-/

namespace GlassHive

open Relational Transition
open Fallible (isOk_of_eq_ok eq_ok_of_isOk)

/-- What `issue` and `bind_run` are given. -/
structure CapabilityRequest where
  tenantId : Text
  ownerId : Text
  workerId : Text
  runId : Text
  executionMode : Text
  deriving DecidableEq, Repr

inductive CapabilityCall
  | issue (r : CapabilityRequest)
  | bindRun (r : CapabilityRequest)
  | revokeActive (r : RevokeRequest)
  deriving DecidableEq, Repr

/-- What a step reads from outside. -/
structure CapabilityInput where
  now : ℕ := 0
  nonce : Text := []
  reply : CapabilityReply := .ok (200, [])
  bodyError : Option CapabilityException := none

/-- The revocation with which `bind_run` ends. -/
def CapabilityRequest.revocation (r : CapabilityRequest) : RevokeRequest :=
  { tenantId := r.tenantId, ownerId := r.ownerId, workerId := r.workerId, runId := some r.runId }

/-- How far a call is: `bind_run` is `issue`, the body, and `revoke_active`. -/
inductive CapabilityPhase
  /-- The request for a grant is sent. -/
  | posted (r : CapabilityRequest) (mode : Text) (binds : Bool)
  | received (r : CapabilityRequest) (mode : Text) (binds : Bool) (payload : BrokerFields)
  | verified (r : CapabilityRequest) (binds : Bool) (issued : IssuedCapability)
      (ref : CapabilityGrantRef)
  | body (r : CapabilityRequest)
  /-- `revoke_active`, before its section under the lock. -/
  | taking (r : RevokeRequest) (bodyError : Option CapabilityException)
  | revoking (r : RevokeRequest) (bodyError : Option CapabilityException)
      (refs : List CapabilityGrantRef) (failures : List CapabilityBrokerError)
  /-- The request that revokes the first of the grants is sent. -/
  | confirming (r : RevokeRequest) (bodyError : Option CapabilityException)
      (ref : CapabilityGrantRef) (refs : List CapabilityGrantRef)
      (failures : List CapabilityBrokerError)
  | done (result : Except CapabilityException (Option IssuedCapability))

structure CapabilityClient where
  config : Option CapabilityBrokerConfig
  active : Table (Text × Text) CapabilityGrantRef := .empty
  calls : List CapabilityPhase := []
  /-- The ids of the grants in the replies to requests for one, with the calls that received
  them. -/
  received : List (ℕ × Text) := []
  sent : List CapabilityHttpRequest := []
  /-- The grants that were recorded as active. -/
  recorded : List CapabilityGrantRef := []
  /-- The grants that `_revoke_ref` was called for, with the requests to revoke. -/
  attempted : List (RevokeRequest × CapabilityGrantRef) := []
  /-- The grants whose revocation was not confirmed, with the calls that attempted it. -/
  unconfirmed : List (ℕ × CapabilityGrantRef) := []
  /-- The grants that a revocation had left when an exception of another class ended it, with the
  calls. -/
  dropped : List (ℕ × CapabilityGrantRef) := []

/-! ## The requests of a call -/

/-- The request of `issue`, with the mode that it is for. -/
def capabilityIssueRequest (config : Option CapabilityBrokerConfig) (r : CapabilityRequest)
    (now : ℕ) (nonce : Text) : Except CapabilityException (Text × CapabilityAssertion) := do
  let mode ← capabilityMode r.executionMode
  let assertion ← capabilityAssertion config r.tenantId r.ownerId .grant mode r.workerId r.runId
    now nonce
  return (mode, assertion)

/-- `_revoke_ref`, from the reply on. -/
def capabilityRevocationResult (reply : CapabilityReply) (ref : CapabilityGrantRef) :
    Except CapabilityException Unit := do
  let payload ← capabilityPostResult reply
  if confirmsCapabilityRevocation payload ref then return ()
  else
    capabilityError "GlassHive capability broker did not confirm grant revocation"
      "revoke_failed"

/-- The result of `revoke_active`, and of `bind_run` with what its body raised. -/
def capabilityRevokedResult (bodyError : Option CapabilityException)
    (failures : List CapabilityBrokerError) :
    Except CapabilityException (Option IssuedCapability) :=
  match bodyError with
  | some e => .error e
  | none =>
    if failures.isEmpty then .ok none
    else
      capabilityError ("GlassHive could not confirm capability grant revocation; the worker " ++
        "was stopped and the grant will expire") "revoke_failed"

namespace CapabilityClient

/-- A call enters a phase. -/
@[simps]
def enter (s : CapabilityClient) (i : ℕ) (phase : CapabilityPhase) : CapabilityClient :=
  { s with calls := s.calls.set i phase }

/-- A call begins in a phase. -/
@[simps]
def begin (s : CapabilityClient) (phase : CapabilityPhase) : CapabilityClient :=
  { s with calls := s.calls ++ [phase] }

/-! ## Steps -/

/-- `revoke_active`, up to its section under the lock. -/
def revocationPhase (s : CapabilityClient) (r : RevokeRequest)
    (bodyError : Option CapabilityException) : CapabilityPhase :=
  if s.config.isNone then .done (capabilityRevokedResult bodyError []) else .taking r bodyError

/-- What `issue` goes on with when it has nothing to record. -/
def issuedPhase (r : CapabilityRequest) (binds : Bool) (issued : IssuedCapability) :
    CapabilityPhase :=
  if binds then .body r else .done (.ok (some issued))

/-- `issue`, up to its request. -/
def startIssue (s : CapabilityClient) (r : CapabilityRequest) (binds : Bool)
    (input : CapabilityInput) : CapabilityClient :=
  if s.config.isNone then s.begin (issuedPhase r binds unconfiguredCapability)
  else match capabilityIssueRequest s.config r input.now input.nonce with
  | .error e => s.begin (.done (.error e))
  | .ok (mode, assertion) =>
    { s.begin (.posted r mode binds) with
      sent := { path := "/grant", assertion, revokes := none } :: s.sent }

/-- A call begins, up to its first request or its section under the lock. -/
def start (s : CapabilityClient) (input : CapabilityInput) : CapabilityCall → CapabilityClient
  | .issue r => s.startIssue r false input
  | .bindRun r => s.startIssue r true input
  | .revokeActive r => s.begin (s.revocationPhase r none)

/-- What becomes of the revocation of one grant. -/
def endRevocation (s : CapabilityClient) (i : ℕ) (r : RevokeRequest)
    (bodyError : Option CapabilityException) (ref : CapabilityGrantRef)
    (refs : List CapabilityGrantRef) (failures : List CapabilityBrokerError)
    (result : Except CapabilityException Unit) : CapabilityClient :=
  match result with
  | .ok () => s.enter i (.revoking r bodyError refs failures)
  | .error (.broker e) =>
    { s.enter i (.revoking r bodyError refs (failures ++ [e])) with
      unconfirmed := (i, ref) :: s.unconfirmed }
  | .error (.other name) =>
    -- only the typed failure is caught, so the other grants are not revoked
    { s.enter i (.done (.error (.other name))) with
      unconfirmed := (i, ref) :: s.unconfirmed
      dropped := refs.map (fun g => (i, g)) ++ s.dropped }

/-- The id of the grant in a reply. -/
def grantIdOf (payload : BrokerFields) : Text :=
  BrokerValue.textOrEmpty ((payload.get "grantRef").fieldsOrEmpty.get "grant_id")

/-- A call goes on. -/
def advance (codec : CapabilityCodec) (s : CapabilityClient) (i : ℕ) (input : CapabilityInput) :
    CapabilityClient :=
  match s.calls[i]? with
  | none => s
  | some (.done _) => s
  | some (.posted r mode binds) =>
    match capabilityPostResult input.reply with
    | .error e => s.enter i (.done (.error e))
    | .ok payload =>
      { s.enter i (.received r mode binds payload) with
        received := (i, grantIdOf payload) :: s.received }
  | some (.received r mode binds payload) =>
    match s.config with
    | none => s.enter i (.done (.error (.other "AssertionError")))
    | some config =>
      match verifiedCapability codec config r.tenantId r.ownerId r.workerId r.runId mode payload
        input.now with
      | .error e => s.enter i (.done (.error e))
      | .ok issued =>
        match issued.ref with
        | none => s.enter i (issuedPhase r binds issued)
        | some ref => s.enter i (.verified r binds issued ref)
  | some (.verified r binds issued ref) =>
    match s.active.insert? (r.workerId, r.runId) ref with
    | none =>
      s.enter i (.done (capabilityError
        "This worker run already has an active connected capability grant" "grant_conflict"))
    | some active =>
      { s.enter i (issuedPhase r binds issued) with
        active
        recorded := ref :: s.recorded }
  | some (.body r) => s.enter i (s.revocationPhase r.revocation input.bodyError)
  | some (.taking r bodyError) =>
    { s.enter i (.revoking r bodyError
        ((s.active.select fun key _ => r.covers key).map Prod.snd) []) with
      active := s.active.delete fun key _ => r.covers key }
  | some (.revoking _ bodyError [] failures) =>
    s.enter i (.done (capabilityRevokedResult bodyError failures))
  | some (.revoking r bodyError (ref :: refs) failures) =>
    let s := { s with attempted := (r, ref) :: s.attempted }
    match capabilityAssertion s.config r.tenantId r.ownerId .revoke ref.executionMode ref.workerId
      ref.runId input.now input.nonce with
    | .error e => s.endRevocation i r bodyError ref refs failures (.error e)
    | .ok assertion =>
      { s.enter i (.confirming r bodyError ref refs failures) with
        sent := { path := "/revoke", assertion, revokes := some (ref.grantId, ref.renewableUntil) }
          :: s.sent }
  | some (.confirming r bodyError ref refs failures) =>
    s.endRevocation i r bodyError ref refs failures
      (capabilityRevocationResult input.reply ref)

inductive Step
  | start (call : CapabilityCall) (input : CapabilityInput)
  | advance (call : ℕ) (input : CapabilityInput)

def step (codec : CapabilityCodec) (s : CapabilityClient) : Step → CapabilityClient
  | .start call input => s.start input call
  | .advance call input => s.advance codec call input

/-- A client before its first call. -/
def init (config : Option CapabilityBrokerConfig) : CapabilityClient :=
  { config }

end CapabilityClient

/-! ## What is kept -/

/-- The names of a run are those of a scope. -/
def AssertableRun (workerId runId : Text) : Prop :=
  (capabilityScope workerId "worker").isOk = true ∧ (capabilityScope runId "run").isOk = true

variable {config : Option CapabilityBrokerConfig} {ownerId tenantId runId workerId nonce : Text}
  {now : ℕ} {assertion : CapabilityAssertion}

theorem assertableRun_of_assertion {executionMode : Text} {action : CapabilityAction}
    (h : capabilityAssertion config tenantId ownerId action executionMode workerId runId now nonce = .ok assertion) :
    AssertableRun workerId runId := by
  unfold capabilityAssertion at h
  split at h
  · simp only [Fallible.bind_eq_ok] at h
    obtain ⟨user, -, worker, hworker, run, hrun, -⟩ := h
    exact ⟨isOk_of_eq_ok hworker, isOk_of_eq_ok hrun⟩
  · simp at h

/-- An owner with a binding can be asserted for every run with the names of a scope. -/
theorem assertion_of_assertableRun (hrun : AssertableRun workerId runId)
    (howner : (bindingForOwner config tenantId ownerId).isOk = true) (action : CapabilityAction)
    (executionMode : Text) (now : ℕ) (nonce : Text) :
    ∃ assertion, capabilityAssertion config tenantId ownerId action executionMode workerId runId
      now nonce = .ok assertion := by
  obtain ⟨binding, hbinding⟩ := eq_ok_of_isOk howner
  obtain ⟨worker, hworker⟩ := eq_ok_of_isOk hrun.1
  obtain ⟨run, hrun⟩ := eq_ok_of_isOk hrun.2
  unfold capabilityAssertion
  cases config with
  | none => simp [bindingForOwner, capabilityError] at hbinding
  | some => simp [hbinding, hworker, hrun, bind, Except.bind, pure, Except.pure]

theorem assertableRun_of_issueRequest {r : CapabilityRequest} {mode : Text}
    (h : capabilityIssueRequest config r now nonce = .ok (mode, assertion)) :
    AssertableRun r.workerId r.runId := by
  simp only [capabilityIssueRequest, Fallible.bind_eq_ok] at h
  obtain ⟨mode, -, assertion, hassertion, -⟩ := h
  exact assertableRun_of_assertion hassertion

namespace CapabilityPhase

/-- The grants that a call has taken and has not attempted to revoke yet. -/
def held : CapabilityPhase → List CapabilityGrantRef
  | .revoking _ _ refs _ => refs
  | .confirming _ _ _ refs _ => refs
  | _ => []

/-- What a call knows of its run and of its grant until it is recorded, and that what it returns is
recorded. -/
def Sound (recorded : List CapabilityGrantRef) : CapabilityPhase → Prop
  | .posted r _ _ => AssertableRun r.workerId r.runId
  | .received r _ _ _ => AssertableRun r.workerId r.runId
  | .verified r _ issued ref =>
    ref.key = (r.workerId, r.runId) ∧ AssertableRun r.workerId r.runId ∧ issued.ref = some ref
  | .done (.ok (some issued)) => ∀ ref, issued.ref = some ref → ref ∈ recorded
  | _ => True

variable {phase : CapabilityPhase}

theorem Sound.cons {recorded : List CapabilityGrantRef} (h : phase.Sound recorded)
    (ref : CapabilityGrantRef) : phase.Sound (ref :: recorded) := by
  unfold Sound at h ⊢
  split at h
  · exact h
  · exact h
  · exact h
  · exact fun g hg => List.mem_cons_of_mem ref (h g hg)
  · trivial

theorem sound_revokedResult (recorded : List CapabilityGrantRef)
    (bodyError : Option CapabilityException) (failures : List CapabilityBrokerError) :
    (CapabilityPhase.done (capabilityRevokedResult bodyError failures)).Sound recorded := by
  unfold capabilityRevokedResult
  split
  · trivial
  · split <;> trivial

/-- The call has returned or raised. -/
def isDone : CapabilityPhase → Bool
  | .done _ => true
  | _ => false

theorem held_of_isDone (h : phase.isDone = true) : phase.held = [] := by
  cases phase <;> simp [isDone, held] at h ⊢

/-- The call has failed to revoke a grant, and will raise. -/
def Failed : CapabilityPhase → Prop
  | .revoking _ _ _ failures => failures ≠ []
  | .confirming _ _ _ _ failures => failures ≠ []
  | .done (.error _) => True
  | _ => False

end CapabilityPhase

namespace CapabilityClient

variable {s : CapabilityClient}

/-- A request that revokes the grant is sent. -/
def RevokeSent (s : CapabilityClient) (ref : CapabilityGrantRef) : Prop :=
  ∃ q ∈ s.sent, q.path = "/revoke" ∧ q.revokes = some (ref.grantId, ref.renewableUntil)

/-- What every step keeps. -/
structure Sound (s : CapabilityClient) : Prop where
  conserved : Holdings.Conserved CapabilityPhase.held s.active s.calls s.recorded
    (s.attempted.map Prod.snd) (s.dropped.map Prod.snd)
  keyed : ∀ key ref, s.active.get? key = some ref → ref.key = key
  recorded : ∀ ref ∈ s.recorded, AssertableRun ref.workerId ref.runId
  attempted : ∀ a ∈ s.attempted,
    (bindingForOwner s.config a.1.tenantId a.1.ownerId).isOk = true → s.RevokeSent a.2
  requests : (s.sent.filterMap (·.revokes)).Sublist
    (s.attempted.map fun a => (a.2.grantId, a.2.renewableUntil))
  calls : ∀ (i : ℕ) (phase : CapabilityPhase), s.calls[i]? = some phase → phase.Sound s.recorded
  failed : ∀ u, u ∈ s.unconfirmed ∨ u ∈ s.dropped → ∃ phase : CapabilityPhase,
    s.calls[u.1]? = some phase ∧ phase.Failed

theorem sound_init (config : Option CapabilityBrokerConfig) : (init config).Sound where
  conserved := Holdings.conserved_empty
  keyed _ _ h := by simp [init] at h
  recorded _ h := by simp [init] at h
  attempted _ h := by simp [init] at h
  requests := List.Sublist.refl []
  calls i phase h := by simp [init] at h
  failed _ h := by simp [init] at h

variable {bodyError : Option CapabilityException} {failures : List CapabilityBrokerError}
  {ref : CapabilityGrantRef} {refs : List CapabilityGrantRef} {r : RevokeRequest} {i : ℕ}
  {q p : CapabilityPhase} {issued : IssuedCapability} {binds : Bool}

/-- A call that fails is still failed, or another one moves. -/
theorem Sound.failed_set (hs : s.Sound) (hp : s.calls[i]? = some p) (hfailed : p.Failed → q.Failed)
    {u : ℕ × CapabilityGrantRef} (hu : u ∈ s.unconfirmed ∨ u ∈ s.dropped) :
    ∃ phase : CapabilityPhase, (s.calls.set i q)[u.1]? = some phase ∧ phase.Failed := by
  obtain ⟨phase, hphase, hphaseFailed⟩ := hs.failed u hu
  refine Threads.exists_set ⟨phase, hphase, hphaseFailed⟩ fun hi => hfailed ?_
  rw [← hi, hp] at hphase
  exact Option.some.inj hphase ▸ hphaseFailed

/-- A call that goes on with the grants that it holds. -/
theorem Sound.enter (hs : s.Sound) (hp : s.calls[i]? = some p) (hheld : q.held = p.held)
    (hq : q.Sound s.recorded) (hfailed : p.Failed → q.Failed) : (s.enter i q).Sound where
  conserved := hs.conserved.keep hp hheld
  keyed := hs.keyed
  recorded := hs.recorded
  attempted := hs.attempted
  requests := hs.requests
  calls := Threads.forall_set hs.calls hq
  failed _ hu := hs.failed_set hp hfailed hu

/-- A call that begins. -/
theorem Sound.begin (hs : s.Sound) (hheld : q.held = []) (hq : q.Sound s.recorded) :
    (s.begin q).Sound where
  conserved := hs.conserved.begin hheld
  keyed := hs.keyed
  recorded := hs.recorded
  attempted := hs.attempted
  requests := hs.requests
  calls := Threads.forall_append hs.calls hq
  failed u hu := by
    obtain ⟨phase, hphase, hphaseFailed⟩ := hs.failed u hu
    exact ⟨phase, Threads.getElem?_append hphase, hphaseFailed⟩

/-! ### Steps -/

theorem held_issuedPhase (r : CapabilityRequest) (binds : Bool) (issued : IssuedCapability) :
    (issuedPhase r binds issued).held = [] := by
  unfold issuedPhase
  split <;> rfl

theorem sound_issuedPhase (r : CapabilityRequest) (binds : Bool)
    {recorded : List CapabilityGrantRef} (h : ∀ ref, issued.ref = some ref → ref ∈ recorded) :
    (issuedPhase r binds issued).Sound recorded := by
  unfold issuedPhase
  split
  · trivial
  · exact h

theorem held_revocationPhase (r : RevokeRequest) (bodyError : Option CapabilityException) :
    (s.revocationPhase r bodyError).held = [] := by
  unfold revocationPhase
  split <;> rfl

theorem sound_revocationPhase (r : RevokeRequest) (bodyError : Option CapabilityException)
    (recorded : List CapabilityGrantRef) : (s.revocationPhase r bodyError).Sound recorded := by
  unfold revocationPhase
  split
  · exact CapabilityPhase.sound_revokedResult recorded bodyError []
  · trivial

theorem sound_startIssue (hs : s.Sound) (r : CapabilityRequest) (binds : Bool)
    (input : CapabilityInput) : (s.startIssue r binds input).Sound := by
  unfold startIssue
  split
  · refine hs.begin (held_issuedPhase r binds _) (sound_issuedPhase r binds fun ref h => ?_)
    simp [unconfiguredCapability] at h
  · split
    · exact hs.begin rfl trivial
    · rename_i mode assertion hrequest
      have hbegun : (s.begin (.posted r mode binds)).Sound :=
        hs.begin rfl (assertableRun_of_issueRequest hrequest)
      exact { hbegun with
        attempted := fun a ha howner => by
          obtain ⟨q, hq, hsent⟩ := hs.attempted a ha howner
          exact ⟨q, List.mem_cons_of_mem _ hq, hsent⟩ }

theorem sound_start (hs : s.Sound) (input : CapabilityInput) (call : CapabilityCall) :
    (s.start input call).Sound := by
  cases call with
  | issue r => exact sound_startIssue hs r false input
  | bindRun r => exact sound_startIssue hs r true input
  | revokeActive r =>
    exact hs.begin (held_revocationPhase r none) (sound_revocationPhase r none _)

/-- A verified grant is recorded under the key of its own run. -/
theorem sound_record (hs : s.Sound) {r : CapabilityRequest}
    {active : Table (Text × Text) CapabilityGrantRef}
    (hp : s.calls[i]? = some (.verified r binds issued ref))
    (hactive : s.active.insert? (r.workerId, r.runId) ref = some active) :
    CapabilityClient.Sound { s.enter i (issuedPhase r binds issued) with
      active
      recorded := ref :: s.recorded } := by
  obtain ⟨hkey, hrun, hissued⟩ := hs.calls i _ hp
  have hsound : (issuedPhase r binds issued).Sound (ref :: s.recorded) := by
    refine sound_issuedPhase r binds fun g hg => ?_
    rw [hissued] at hg
    exact Option.some.inj hg ▸ List.mem_cons_self
  have hassertable : AssertableRun ref.workerId ref.runId := by
    obtain ⟨hworker, hrunId⟩ := Prod.mk.inj hkey
    rwa [hworker, hrunId]
  exact {
    conserved := hs.conserved.record hp (held_issuedPhase r binds issued) hactive
    keyed := fun key g hg => by
      rw [Table.get?_insert hactive] at hg
      split at hg
      · rename_i hkeys
        rw [← Option.some.inj hg, hkeys, hkey]
      · exact hs.keyed key g hg
    recorded := fun g hg => by
      rcases List.mem_cons.mp hg with rfl | hg
      · exact hassertable
      · exact hs.recorded g hg
    attempted := hs.attempted
    requests := hs.requests
    calls := Threads.forall_set (fun j phase hphase => (hs.calls j phase hphase).cons ref) hsound
    failed := fun _ hu => hs.failed_set hp False.elim hu }

/-- What a revocation takes is no longer recorded, and held by the call. -/
theorem sound_take (hs : s.Sound) (hp : s.calls[i]? = some (.taking r bodyError)) :
    CapabilityClient.Sound { s.enter i (.revoking r bodyError
        ((s.active.select fun key _ => r.covers key).map Prod.snd) []) with
      active := s.active.delete fun key _ => r.covers key } where
  conserved := hs.conserved.take hp rfl rfl
  keyed key ref h := hs.keyed key ref (Table.get?_delete_eq_some.mp h).1
  recorded := hs.recorded
  attempted := hs.attempted
  requests := hs.requests
  calls := Threads.forall_set hs.calls trivial
  failed _ hu := hs.failed_set hp False.elim hu

/-- A call lets go of the grants that it still holds. -/
theorem Sound.loses (hs : s.Sound) (hp : s.calls[i]? = some (.revoking r bodyError refs failures))
    (ref : CapabilityGrantRef) (e : CapabilityException) :
    CapabilityClient.Sound { s.enter i (.done (.error e)) with
      unconfirmed := (i, ref) :: s.unconfirmed
      dropped := refs.map (fun g => (i, g)) ++ s.dropped } where
  conserved := by
    simpa [CapabilityPhase.held, Function.comp_def] using
      hs.conserved.lose hp (q := .done (.error e)) rfl
  keyed := hs.keyed
  recorded := hs.recorded
  attempted := hs.attempted
  requests := hs.requests
  calls := Threads.forall_set hs.calls trivial
  failed u hu := by
    have hold : u.1 = i ∨ u ∈ s.unconfirmed ∨ u ∈ s.dropped := by
      simp only [List.mem_cons, List.mem_append, List.mem_map] at hu
      rcases hu with (rfl | hu) | ⟨g, -, rfl⟩ | hu
      · exact Or.inl rfl
      · exact Or.inr (Or.inl hu)
      · exact Or.inl rfl
      · exact Or.inr (Or.inr hu)
    rcases hold with hi | hold
    · rw [hi]
      exact ⟨_, Threads.getElem?_set_self hp, trivial⟩
    · exact hs.failed_set hp (q := .done (.error e)) (fun _ => trivial) hold

/-- The end of the revocation of one grant, in a call that keeps the others. -/
theorem sound_endRevocation (hp : s.calls[i]? = some p)
    (henter : ∀ q : CapabilityPhase, q.held = refs → q.Sound s.recorded → (failures ≠ [] → q.Failed) → (s.enter i q).Sound)
    (result : Except CapabilityException Unit) :
    (s.endRevocation i r bodyError ref refs failures result).Sound := by
  unfold endRevocation
  split
  · exact henter _ rfl trivial id
  · rename_i e
    have hfailed : failures ++ [e] ≠ [] := by simp
    have hentered := henter (.revoking r bodyError refs (failures ++ [e])) rfl trivial
      fun _ => hfailed
    refine { hentered with failed := fun u hu => ?_ }
    rcases hu with hu | hu
    · rcases List.mem_cons.mp hu with rfl | hu
      · exact ⟨_, Threads.getElem?_set_self hp, hfailed⟩
      · exact hentered.failed u (Or.inl hu)
    · exact hentered.failed u (Or.inr hu)
  · have hentered := henter (.revoking r bodyError refs failures) rfl trivial id
    simpa using hentered.loses (Threads.getElem?_set_self hp) ref _

/-- The attempt to revoke one of the grants that a call holds. -/
theorem sound_attempt (hs : s.Sound) {sent : List CapabilityHttpRequest}
    (hp : s.calls[i]? = some (.revoking r bodyError (ref :: refs) failures))
    (hsent : ∀ q ∈ s.sent, q ∈ sent)
    (hrequests : (sent.filterMap (·.revokes)).Sublist ((ref.grantId, ref.renewableUntil) :: s.attempted.map fun a => (a.2.grantId, a.2.renewableUntil)))
    (hrevoke : (bindingForOwner s.config r.tenantId r.ownerId).isOk = true → ∃ q ∈ sent, q.path = "/revoke" ∧ q.revokes = some (ref.grantId, ref.renewableUntil))
    (hheld : q.held = refs) (hq : q.Sound s.recorded) (hfailed : failures ≠ [] → q.Failed) :
    CapabilityClient.Sound
      { s.enter i q with attempted := (r, ref) :: s.attempted, sent } where
  conserved := by
    have hholds : (CapabilityPhase.revoking r bodyError (ref :: refs) failures).held =
        ref :: q.held := by
      rw [hheld]
      rfl
    exact hs.conserved.release hp hholds
  keyed := hs.keyed
  recorded := hs.recorded
  attempted a ha howner := by
    rcases List.mem_cons.mp ha with rfl | ha
    · exact hrevoke howner
    · obtain ⟨q, hq, hold⟩ := hs.attempted a ha howner
      exact ⟨q, hsent q hq, hold⟩
  requests := hrequests
  calls := Threads.forall_set hs.calls hq
  failed _ hu := hs.failed_set hp hfailed hu

theorem sound_revoke (hs : s.Sound)
    (hp : s.calls[i]? = some (.revoking r bodyError (ref :: refs) failures))
    (codec : CapabilityCodec) (input : CapabilityInput) : (s.advance codec i input).Sound := by
  have hrun : AssertableRun ref.workerId ref.runId :=
    hs.recorded ref (hs.conserved.mem_acquired hp List.mem_cons_self)
  unfold advance
  rw [hp]
  dsimp only
  split
  · rename_i e hassertion
    -- the request is not sent, because the owner of the revocation has no binding
    refine sound_endRevocation (s := { s with attempted := (r, ref) :: s.attempted }) hp
      (fun q hheld hq hfailed => ?_) _
    refine sound_attempt hs hp (fun q hq => hq) (hs.requests.cons _) (fun howner => ?_) hheld hq
      hfailed
    obtain ⟨assertion, hok⟩ := assertion_of_assertableRun hrun howner .revoke ref.executionMode
      input.now input.nonce
    rw [hok] at hassertion
    simp at hassertion
  · refine sound_attempt hs hp (fun q hq => List.mem_cons_of_mem _ hq) ?_
      (fun _ => ⟨_, List.mem_cons_self, rfl, rfl⟩) rfl trivial id
    exact hs.requests.cons_cons (ref.grantId, ref.renewableUntil)

theorem sound_received (hs : s.Sound) {r : CapabilityRequest} {mode : Text} {payload : BrokerFields}
    (hp : s.calls[i]? = some (.received r mode binds payload)) (codec : CapabilityCodec)
    (input : CapabilityInput) : (s.advance codec i input).Sound := by
  have hrun : AssertableRun r.workerId r.runId := hs.calls i _ hp
  simp only [advance, hp]
  split
  · exact hs.enter hp rfl trivial False.elim
  · split
    · exact hs.enter hp rfl trivial False.elim
    · rename_i issued hissued
      split
      · rename_i hnone
        refine hs.enter hp (held_issuedPhase r binds issued)
          (sound_issuedPhase r binds fun ref href => ?_) False.elim
        rw [hnone] at href
        simp at href
      · rename_i ref href
        obtain ⟨hkey, -⟩ := verifiedCapability_eq_ok hissued ref href
        exact hs.enter hp rfl ⟨hkey, hrun, href⟩ False.elim

theorem sound_advance (hs : s.Sound) (codec : CapabilityCodec) (i : ℕ) (input : CapabilityInput) :
    (s.advance codec i input).Sound := by
  cases hp : s.calls[i]? with
  | none => simpa only [advance, hp] using hs
  | some p =>
    cases p with
    | done => simpa only [advance, hp] using hs
    | posted r mode binds =>
      simp only [advance, hp]
      split
      · exact hs.enter hp rfl trivial False.elim
      · rename_i payload _
        have hrun : (CapabilityPhase.posted r mode binds).Sound s.recorded := hs.calls i _ hp
        have hentered : (s.enter i (.received r mode binds payload)).Sound :=
          hs.enter hp rfl hrun False.elim
        exact { hentered with }
    | received => exact sound_received hs hp codec input
    | verified =>
      simp only [advance, hp]
      split
      · exact hs.enter hp rfl trivial False.elim
      · rename_i active hactive
        exact sound_record hs hp hactive
    | body =>
      simp only [advance, hp]
      exact hs.enter hp (held_revocationPhase _ _) (sound_revocationPhase _ _ _) False.elim
    | taking =>
      simp only [advance, hp]
      exact sound_take hs hp
    | revoking r bodyError refs failures =>
      cases refs with
      | nil =>
        simp only [advance, hp]
        refine hs.enter hp rfl (CapabilityPhase.sound_revokedResult _ _ _) fun hfailed => ?_
        have hne : failures.isEmpty = false := by simpa [CapabilityPhase.Failed] using hfailed
        cases bodyError with
        | some => exact trivial
        | none =>
          simp only [capabilityRevokedResult, hne]
          exact trivial
      | cons => exact sound_revoke hs hp codec input
    | confirming =>
      simp only [advance, hp]
      refine sound_endRevocation hp (fun q hheld hq hfailed => ?_) _
      exact hs.enter hp hheld hq hfailed

theorem sound_step (codec : CapabilityCodec) (s : CapabilityClient) (c : Step) (hs : s.Sound) :
    (s.step codec c).Sound := by
  cases c with
  | start call input => exact sound_start hs input call
  | advance call input => exact sound_advance hs codec call input

theorem sound_run (codec : CapabilityCodec) (config : Option CapabilityBrokerConfig)
    (steps : List Step) : (run (step codec) (init config) steps).Sound :=
  invariant_run (C := fun _ _ => True) (fun s c hs _ => sound_step codec s c hs)
    (sound_init config) (along_of_forall _ (fun _ _ => trivial) _ _)

/-! ## Where the grants are -/

/-- What holds of the grants of a client after every run. -/
structure Accounted (s : CapabilityClient) : Prop where
  /-- Every recorded grant is active, held by a call that is to revoke it, handed to a revocation,
  or dropped; and this as often as it was recorded. -/
  conserved : s.recorded.Perm (s.active.entries.map Prod.snd ++
    Threads.held CapabilityPhase.held s.calls ++ s.attempted.map Prod.snd ++
    s.dropped.map Prod.snd)
  /-- None is held once every call has returned or raised. -/
  atRest : s.calls.all CapabilityPhase.isDone = true →
    Threads.held CapabilityPhase.held s.calls = []
  /-- What `issue` returned was recorded. -/
  issued : ∀ (i : ℕ) (issued : IssuedCapability) (ref : CapabilityGrantRef),
    s.calls[i]? = some (.done (.ok (some issued))) → issued.ref = some ref → ref ∈ s.recorded
  /-- A grant is active for its own worker and run. -/
  keyed : ∀ key ref, s.active.get? key = some ref → ref.key = key
  /-- A revocation for an owner with a binding sends a request with the id. -/
  attempted : ∀ a ∈ s.attempted,
    (bindingForOwner s.config a.1.tenantId a.1.ownerId).isOk = true → s.RevokeSent a.2
  /-- Grants that were recorded under different ids are revoked once at most. -/
  revokedOnce : (s.recorded.map CapabilityGrantRef.grantId).Nodup →
    ((s.sent.filterMap (·.revokes)).map Prod.fst).Nodup
  /-- A call that left a revocation unconfirmed, or a grant without one, does not return. -/
  raises : ∀ u, u ∈ s.unconfirmed ∨ u ∈ s.dropped → ∀ result,
    s.calls[u.1]? ≠ some (.done (.ok result))

theorem Sound.revokedOnce (hs : s.Sound)
    (h : (s.recorded.map CapabilityGrantRef.grantId).Nodup) :
    ((s.sent.filterMap (·.revokes)).map Prod.fst).Nodup := by
  have hperm := (hs.conserved.perm.map CapabilityGrantRef.grantId).nodup_iff.mp h
  have hattempted : (s.attempted.map fun a => a.2.grantId).Nodup := by
    simp only [List.map_append, List.map_map] at hperm
    exact hperm.of_append_left.of_append_right
  have hsublist := hs.requests.map Prod.fst
  rw [List.map_map] at hsublist
  exact hsublist.nodup hattempted

/-- After every interleaving of calls, with any replies and failures, the recorded grants are
accounted for. -/
theorem capabilityGrants_accounted (codec : CapabilityCodec)
    (config : Option CapabilityBrokerConfig) (steps : List Step) :
    (run (step codec) (init config) steps).Accounted := by
  have hs := sound_run codec config steps
  refine ⟨hs.conserved.perm, fun hdone => ?_, fun i issued ref hdone => hs.calls i _ hdone ref,
    hs.keyed, hs.attempted, hs.revokedOnce, fun u hu result hdone => ?_⟩
  · rw [Threads.held, List.flatMap_eq_nil_iff]
    intro phase hphase
    exact CapabilityPhase.held_of_isDone (List.all_eq_true.mp hdone phase hphase)
  · obtain ⟨phase, hphase, hfailed⟩ := hs.failed u hu
    rw [hdone] at hphase
    obtain rfl := Option.some.inj hphase
    exact hfailed.elim

/-! ## What is not kept -/

/-- A grant that an ended call received is recorded, or a request that revokes it is sent; and one
whose revocation was not confirmed is recorded. -/
def Unleaked (s : CapabilityClient) : Prop :=
  (∀ e ∈ s.received, e.2 ≠ [] → (s.calls[e.1]?.any CapabilityPhase.isDone) = true →
    (∃ row ∈ s.active.entries, row.2.grantId = e.2) ∨
      ∃ q ∈ s.sent, q.path = "/revoke" ∧ q.revokes.map Prod.fst = some e.2) ∧
  ∀ u ∈ s.unconfirmed, ∃ row ∈ s.active.entries, row.2 = u.2

instance (s : CapabilityClient) : Decidable s.Unleaked := by
  unfold Unleaked
  infer_instance

section Leaks

private def connectedOwner : CapabilityBrokerConfig where
  issuerUrl := []
  secret := []
  brokerTenantId := ['t']
  ownerBindings := [⟨⟨['t'], ['o'], ['u']⟩, "operator_verified".toList⟩]

private def smallBundles : CapabilityCodec where
  parseInt _ := none
  stableJsonWidth _ := .ok 2

private def capabilityReply (grantId runId : Text) : CapabilityInput where
  reply := .ok (200,
    [("bootstrapBundle", .object [] []),
      ("capabilityStatus", .object [("status", .str "ready".toList)] []),
      ("grantRef", .object
        [("grant_id", .str grantId), ("tenant_id", .str ['t']), ("user_id", .str ['u']),
          ("worker_id", .str ['w']), ("run_id", .str runId),
          ("execution_mode", .str "docker".toList), ("exp", .int 600),
          ("renewable_until", .int 900)] [])])

/-- `issue`, with the grant that the broker replies. -/
private def issueCapability (call : ℕ) (grantId runId : Text) : List Step :=
  [.start (.issue ⟨['t'], ['o'], ['w'], ['r'], []⟩) {},
    .advance call (capabilityReply grantId runId), .advance call {}, .advance call {}]

private def revokeCapability (call : ℕ) : List Step :=
  [.start (.revokeActive ⟨['t'], ['o'], ['w'], none⟩) {}, .advance call {}, .advance call {},
    .advance call {}, .advance call {}]

/-- A grant is lost when its reply is for another run and when the run has a grant; and one whose
revocation is not confirmed is not recorded again. -/
theorem capabilityGrants_leak :
    ¬(run (step smallBundles) (init (some connectedOwner))
      (issueCapability 0 ['a'] ['x'])).Unleaked ∧
    ¬(run (step smallBundles) (init (some connectedOwner))
      (issueCapability 0 ['a'] ['r'] ++ issueCapability 1 ['b'] ['r'])).Unleaked ∧
    ¬(run (step smallBundles) (init (some connectedOwner))
      (issueCapability 0 ['a'] ['r'] ++ revokeCapability 1)).Unleaked := by
  decide +kernel

end Leaks

end CapabilityClient

end GlassHive
