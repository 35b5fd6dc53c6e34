import GlassHive.MissionAccounts
import GlassHive.Library.Table
import GlassHive.Library.Threads
import GlassHive.Library.Transition

/-!
# The routes of a mission binder

`MissionProviderAccountBinder`: routes are registered under one lock, and actions on the running
worker borrow them. The calls of a binder and the heartbeats of its leases are threads. A step is
one section under a lock, one call of the control plane or of the home, or the body of a `with`
statement, and its input is what these return or raise.
-/

namespace GlassHive

open Relational Transition

/-! ## Threads -/

/-- A reserved route, with the lease once it is there. -/
structure RouteBinding where
  request : RouteRequest
  token : ℕ
  leaseId : Text := []
  deriving Repr

/-- Why a route is closed: `bind_unbound_route` ends, the lease was refused, the preparation failed,
the heartbeat could not be started, the mission ends, or the lease is lost. -/
inductive CloseReason
  | unbound | refused | unprepared | startFailed | exit | abort
  deriving DecidableEq, Repr

/-- How far the closing is: `_begin_close_active_route` marks the route and waits for its readers,
`release_bound_credentials` removes the credentials, the lease is released, and
`_finalize_close_active_route` removes the route. -/
inductive CloseStage
  | mark | wait
  | check | lock
  | attempt (n : ℕ)
  | quarantine (e : RouteError)
  | lease | finalize
  deriving DecidableEq, Repr

inductive RoutePhase
  | marking (c : RouteCaller)
  | looking (c : RouteCaller)
  | verifying (c : RouteCaller) (token : Option ℕ) (leaseId : Text)
  | borrowing (c : RouteCaller) (token : Option ℕ) (leaseId : Text)
  | projecting (workerId : Text) (token : ℕ)
  /-- The body of a call that has no route. -/
  | plainBody
  | reserving (r : RouteRequest)
  | unboundBody (b : RouteBinding)
  | acquiring (b : RouteBinding)
  | leased (b : RouteBinding)
  | preparing (b : RouteBinding)
  | quarantining (b : RouteBinding)
  | returning (b : RouteBinding)
  | resolving (b : RouteBinding) (environment : List (Text × Text))
  | publishing (b : RouteBinding) (bound : MissionWorker)
  | starting (b : RouteBinding)
  | body (b : RouteBinding)
  | closing (b : RouteBinding) (reason : CloseReason) (stage : CloseStage)
      (raised : Option RouteError)
  /-- The heartbeat of a lease waits, renews, or has lost the lease. -/
  | beating (b : RouteBinding)
  | renewing (b : RouteBinding)
  | lost (b : RouteBinding)
  | done (result : Except RouteError Unit)
  deriving Repr

/-- The registry and the threads of a binder. Tokens of routes are numbers; `locked`, `removed`,
`stopped` and `lost` are the tokens of the bindings whose `binding_release_lock` is held and whose
`binding_released`, `lease_stop` and `lease_lost` are set. The other lists are records: of the calls
with the routes that they reserved and leased, of the leases whose release was attempted, and of the
projections with the routes as they were. -/
structure MissionBinder where
  hasStore : Bool := true
  active : Table Text ActiveRoute := .empty
  nextToken : ℕ := 0
  calls : List RoutePhase := []
  locked : List ℕ := []
  removed : List ℕ := []
  stopped : List ℕ := []
  lost : List ℕ := []
  reserved : List (ℕ × ℕ) := []
  acquired : List (ℕ × ℕ) := []
  releases : List ℕ := []
  projected : List (RouteCaller × ActiveRoute) := []

/-! ## How a call begins -/

/-- `_preferred_fallback`, and the body for its worker. -/
def preferredFallback (input : RouteInput) : RoutePhase :=
  if input.deploymentManaged then .plainBody
  else .done (.error (.runtime ("Work AI is not set up for this workspace. Reconnect the " ++
    "personal account or ask an administrator to finish provider setup.")))

/-- What a call without other work makes of its body. -/
def bodyResult : Option RouteError → Except RouteError Unit
  | some e => .error e
  | none => .ok ()

/-- How `project_active_route` begins. -/
def projectPhase (c : RouteCaller) : RoutePhase :=
  match c.worker.selection with
  | .error e => .done (.error e)
  | .ok none => .plainBody
  | .ok (some _) =>
    if (profileProviders (Text.strip c.runtimeName)).isNone || (Text.strip c.runId).isEmpty then
      .done (.error (.runtime "Desktop actions require the exact active provider account lease"))
    else if c.worker.owner.isEmpty || c.worker.id.isEmpty then
      .done (.error (.runtime
        "Desktop actions require an authenticated provider account owner"))
    else .looking c

/-- How `mark_active_route_ready` begins. -/
def markPhase (c : RouteCaller) : RoutePhase :=
  match c.worker.selection with
  | .error e => .done (.error e)
  | .ok _ => .marking c

/-- How a call begins. -/
def RouteCall.phase (hasStore : Bool) (input : RouteInput) : RouteCall → RoutePhase
  | .bind r =>
    match bindPreflight hasStore r input with
    | .error e => .done (.error e)
    | .ok .plain => .plainBody
    | .ok .fallback => preferredFallback input
    | .ok (.reserve r) => .reserving r
  | .bindUnbound worker runtimeName runId accountId =>
    .reserving { worker, runtimeName, runId, accountId, kind := .unbound }
  | .project c => projectPhase c
  | .markReady c => markPhase c

namespace RouteBinding

def workerId (b : RouteBinding) : Text :=
  b.request.worker.id

/-- Where a call goes with its reserved route: `bind` acquires a lease. -/
def reservedPhase (b : RouteBinding) : RoutePhase :=
  match b.request.kind with
  | .native => .acquiring b
  | .unbound => .unboundBody b

/-- The row is the route of the binding. -/
def owns (b : RouteBinding) (workerId : Text) (route : ActiveRoute) : Bool :=
  workerId == b.workerId && route.token == b.token

/-- The worker with the fields that the binding adds. -/
def boundWorker (b : RouteBinding) (environment : List (Text × Text)) (mountHost : Option Text) :
    MissionWorker :=
  { b.request.worker with environment := some environment, mountHost }

end RouteBinding

/-! ## What a closing goes on with -/

/-- The stage behind the readers. -/
def CloseReason.afterWait : CloseReason → CloseStage
  | .startFailed | .exit | .abort => .check
  | .unbound | .refused | .unprepared => .finalize

/-- The stage behind the credentials. -/
def CloseReason.afterCleanup : CloseReason → CloseStage
  | .abort => .finalize
  | _ => .lease

/-- What is raised in the end when the credentials are not removed. -/
def cleanupRaised (reason : CloseReason) (raised : Option RouteError) (e : RouteError) :
    Option RouteError :=
  match reason, raised with
  | .exit, some e => some e
  | .exit, none =>
    some (.runtime ("GlassHive could not remove the provider credential mount; the account was " ++
      "quarantined"))
  | _, _ => some e

/-- What is raised in the end when the lease is not released. -/
def leaseRaised (reason : CloseReason) (raised : Option RouteError) (e : RouteError) :
    Option RouteError :=
  match reason, raised with
  | .exit, some e' => if e.isControlPlane then some e' else some e
  | .exit, none =>
    if e.isControlPlane then
      some (.runtime "GlassHive could not release the provider account mission lease")
    else some e
  | _, _ => some e

/-- `_PROVIDER_CLEANUP_ATTEMPTS`. -/
def providerCleanupAttempts : ℕ := 2

namespace MissionBinder

/-! ## Sections under the lock of the registry -/

/-- A thread enters a phase. -/
@[simps]
def enter (s : MissionBinder) (i : ℕ) (phase : RoutePhase) : MissionBinder :=
  { s with calls := s.calls.set i phase }

/-- The route of a binding is registered. -/
def registered (s : MissionBinder) (b : RouteBinding) : Bool :=
  s.active.any b.owns

/-- A change of the route of a binding. -/
@[simps]
def updateRoute (s : MissionBinder) (b : RouteBinding) (f : ActiveRoute → ActiveRoute) :
    MissionBinder :=
  { s with active := s.active.update b.owns fun _ => f }

/-- The route that `_reserve_active_route` registers. -/
def newRoute (s : MissionBinder) (r : RouteRequest) : ActiveRoute where
  token := s.nextToken
  worker := r.worker
  runId := r.runId
  runtimeName := r.runtimeName
  accountId := r.accountId
  tenantId := r.worker.tenant
  ownerId := r.worker.owner
  routeKind := r.kind

/-- `_reserve_active_route`. -/
def reserve (s : MissionBinder) (i : ℕ) (r : RouteRequest) : MissionBinder :=
  if r.worker.id.isEmpty then
    s.enter i (.done (.error (.runtime "Provider account routes require an exact worker")))
  else match s.active.insert? r.worker.id (s.newRoute r) with
  | none =>
    s.enter i (.done (.error (.runtime
      "This worker already has an active provider account route")))
  | some active =>
    let b : RouteBinding := { request := r, token := s.nextToken }
    { s.enter i b.reservedPhase with
      active
      nextToken := s.nextToken + 1
      reserved := (i, s.nextToken) :: s.reserved }

/-- `_update_active_route`, and where the thread goes then. -/
def publish (s : MissionBinder) (i : ℕ) (b : RouteBinding) (f : ActiveRoute → ActiveRoute)
    (next : RoutePhase) : MissionBinder :=
  if s.registered b then (s.updateRoute b f).enter i next
  else s.enter i (.done (.error (.runtime "The provider account route is no longer active")))

/-- `mark_active_route_ready`. -/
def markReady (s : MissionBinder) (i : ℕ) (c : RouteCaller) : MissionBinder :=
  if s.active.any fun workerId route => workerId == c.worker.id && route.marksReady c
  then
    { s.enter i (.done (.ok ())) with
      active := s.active.update (fun workerId _ => workerId == c.worker.id) fun _ route =>
        { route with worker := c.worker, ready := true } }
  else s.enter i (.done (.error (.runtime
    "The provider account route is no longer available for this worker run")))

/-- The first section of `project_active_route`. -/
def look (s : MissionBinder) (c : RouteCaller) : RoutePhase :=
  match s.active.get? c.worker.id with
  | none => .borrowing c none []
  | some route =>
    match route.routeKind with
    | .native => .verifying c (some route.token) route.leaseId
    | .unbound => .borrowing c (some route.token) route.leaseId

/-- The second section of `project_active_route`. -/
def borrow (s : MissionBinder) (i : ℕ) (c : RouteCaller) (token : Option ℕ)
    (leaseId : Text) : MissionBinder :=
  match s.active.get? c.worker.id with
  | some route =>
    if route.lends c token leaseId then
      { s.enter i (.projecting c.worker.id route.token) with
        active := s.active.update (fun workerId _ => workerId == c.worker.id) fun _ route =>
          { route with readers := route.readers + 1 }
        projected := (c, route) :: s.projected }
    else s.enter i notReady
  | none => s.enter i notReady
where
  notReady : RoutePhase := .done (.error (.runtime
    "Desktop actions require the ready provider route for this worker run"))

/-- The end of a projection. -/
def giveBack (s : MissionBinder) (i : ℕ) (workerId : Text) (token : ℕ)
    (result : Except RouteError Unit) : MissionBinder :=
  { s.enter i (.done result) with
    active := s.active.update (fun id route => id == workerId && route.token == token)
      fun _ route => { route with readers := route.readers - 1 } }

/-! ## Closing a route -/

/-- What the end of a closing returns or raises. -/
def endClose (s : MissionBinder) (b : RouteBinding) (reason : CloseReason)
    (raised : Option RouteError) (input : RouteInput) : RoutePhase :=
  match raised, reason with
  | none, .exit =>
    if b.token ∈ s.lost then
      .done (.error (.runtime ("Provider account lease renewal failed; GlassHive stopped the " ++
        "bound worker and requires reconnection")))
    else .done (.ok ())
  | none, _ => .done (.ok ())
  | some (.controlPlane message conflict), .refused =>
    if b.request.preferred then preferredFallback input
    else if conflict then
      .done (.error (.runtime "Selected provider account is already in use"))
    else .done (.error (.runtime message))
  | some e, _ => .done (.error e)

/-- One step of a closing. -/
def close (s : MissionBinder) (i : ℕ) (b : RouteBinding) (reason : CloseReason)
    (stage : CloseStage) (raised : Option RouteError) (input : RouteInput) : MissionBinder :=
  match stage with
  | .mark =>
    (s.updateRoute b fun route => { route with closing := true }).enter i
      (.closing b reason (if s.registered b then .wait else reason.afterWait) raised)
  | .wait =>
    if s.active.any fun workerId route => b.owns workerId route && decide (0 < route.readers) then s
    else s.enter i (.closing b reason (reason.afterWait) raised)
  | .check =>
    if b.request.docker then
      s.enter i (.closing b reason
        (if b.token ∈ s.removed then reason.afterCleanup else .lock) raised)
    else if reason = .abort ∧ b.request.hasAbort then
      s.enter i (.closing b reason .finalize (match input.abort with
        | .ok () => raised
        | .error e => some e))
    else s.enter i (.closing b reason (reason.afterCleanup) raised)
  | .lock =>
    if b.token ∈ s.locked then s
    else if b.token ∈ s.removed then s.enter i (.closing b reason (reason.afterCleanup) raised)
    else
      { s.enter i (.closing b reason (.attempt 0) raised) with locked := b.token :: s.locked }
  | .attempt n =>
    match input.cleanup with
    | .ok () =>
      { s.enter i (.closing b reason (reason.afterCleanup) raised) with
        removed := b.token :: s.removed
        locked := s.locked.erase b.token }
    | .error e =>
      if e.isException ∧ n + 1 < providerCleanupAttempts then
        s.enter i (.closing b reason (.attempt (n + 1)) raised)
      else s.enter i (.closing b reason (.quarantine e) raised)
  | .quarantine e =>
    let e' := match input.status with
      | .ok () => e
      | .error e' => if e'.isStatusFailure then e else e'
    { s.enter i (.closing b reason (reason.afterCleanup) (cleanupRaised reason raised e')) with
      locked := s.locked.erase b.token }
  | .lease =>
    { s.enter i (.closing b reason .finalize (match input.release with
        | .ok () => raised
        | .error e => leaseRaised reason raised e)) with
      releases := b.token :: s.releases
      stopped := if reason = .exit then b.token :: s.stopped else s.stopped }
  | .finalize =>
    { s.enter i (s.endClose b reason raised input) with active := s.active.delete b.owns }

/-! ## Steps -/

/-- A thread goes on. -/
def advance (s : MissionBinder) (i : ℕ) (input : RouteInput) : MissionBinder :=
  match s.calls[i]? with
  | none => s
  | some (.done _) => s
  | some (.marking c) => s.markReady i c
  | some (.looking c) => s.enter i (s.look c)
  | some (.verifying c token leaseId) =>
    match verifyLease s.hasStore c leaseId input.lease with
    | .error e => s.enter i (.done (.error e))
    | .ok () => s.enter i (.borrowing c token leaseId)
  | some (.borrowing c token leaseId) => s.borrow i c token leaseId
  | some (.projecting workerId token) => s.giveBack i workerId token (bodyResult input.bodyError)
  | some .plainBody => s.enter i (.done (bodyResult input.bodyError))
  | some (.reserving r) => s.reserve i r
  | some (.unboundBody b) => s.enter i (.closing b .unbound .mark input.bodyError)
  | some (.acquiring b) =>
    match input.acquire with
    | .error e => s.enter i (.closing b .refused .mark (some e))
    | .ok leaseId =>
      { s.enter i (.leased { b with leaseId }) with acquired := (i, b.token) :: s.acquired }
  | some (.leased b) =>
    s.publish i b (fun route => { route with leaseId := b.leaseId }) (.preparing b)
  | some (.preparing b) =>
    match input.prepare with
    | .error _ => s.enter i (if b.request.docker then .quarantining b else .returning b)
    | .ok environment =>
      s.enter i (if b.request.docker then .resolving b environment
        else .publishing b (b.boundWorker environment none))
  | some (.quarantining b) =>
    match input.status with
    | .ok () => s.enter i (.returning b)
    | .error e =>
      -- another exception leaves the handler before the lease is released and the route is closed
      s.enter i (if e.isStatusFailure then .returning b else .done (.error e))
  | some (.returning b) =>
    { s.enter i (.closing b .unprepared .mark (some (match input.release with
        | .ok () => .runtime ("GlassHive could not safely reconcile stale provider credentials; " ++
            "check the connection")
        | .error e => e))) with
      releases := b.token :: s.releases }
  | some (.resolving b environment) =>
    match input.resolve with
    -- no handler is around the resolution of the home
    | .error e => s.enter i (.done (.error e))
    | .ok mountHost => s.enter i (.publishing b (b.boundWorker environment (some mountHost)))
  | some (.publishing b bound) =>
    s.publish i b (fun route => { route with worker := bound, leaseId := b.leaseId }) (.starting b)
  | some (.starting b) =>
    match input.threadStart with
    | .error e => s.enter i (.closing b .startFailed .mark (some e))
    | .ok () => { s with calls := s.calls.set i (.body b) ++ [.beating b] }
  | some (.body b) => s.enter i (.closing b .exit .mark input.bodyError)
  | some (.closing b reason stage raised) => s.close i b reason stage raised input
  | some (.beating b) =>
    s.enter i (if b.token ∈ s.stopped then .done (.ok ()) else .renewing b)
  | some (.renewing b) =>
    match input.renew with
    | .ok () => s.enter i (.beating b)
    | .error e =>
      if e.isRenewalFailure then { s.enter i (.lost b) with lost := b.token :: s.lost }
      else s.enter i (.done (.error e))
  | some (.lost b) =>
    match input.status with
    | .ok () => s.enter i (.closing b .abort .mark none)
    | .error e =>
      s.enter i (if e.isRenewalFailure then .closing b .abort .mark none else .done (.error e))

inductive Step
  | start (call : RouteCall) (input : RouteInput)
  | advance (call : ℕ) (input : RouteInput)

def step (s : MissionBinder) : Step → MissionBinder
  | .start call input => { s with calls := s.calls ++ [call.phase s.hasStore input] }
  | .advance call input => s.advance call input

/-- A binder before its first call. -/
def init (hasStore : Bool) : MissionBinder :=
  { hasStore }

end MissionBinder

end GlassHive
