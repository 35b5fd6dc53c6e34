import GlassHive.Library.Text

/-!
# Provider accounts of missions

A mission binds the account that its worker selects by a route in a registry and a lease of the
control plane. What a binding checks before it reserves a route, and what an action of the running
worker must match to borrow one, does not depend on other calls.
-/

namespace GlassHive

/-! ## Data -/

/-- An exception, as far as the handlers tell it apart from others: `RuntimeErrorBase`,
`ControlPlaneError` or its subclass for conflicts, `OSError`, `sqlite3.OperationalError`, another
`Exception`, another `BaseException`. -/
inductive RouteError
  | runtime (message : String)
  | controlPlane (message : String) (conflict : Bool)
  | os (name : String)
  | operational
  | exception (name : String)
  | base (name : String)
  deriving DecidableEq, Repr

namespace RouteError

/-- An `Exception`. -/
def isException : RouteError → Bool
  | .base _ => false
  | _ => true

def isControlPlane : RouteError → Bool
  | .controlPlane _ _ => true
  | _ => false

/-- What is caught where a status is updated in a quarantine. -/
def isStatusFailure : RouteError → Bool
  | .controlPlane _ _ | .os _ => true
  | _ => false

/-- What is caught where a lease is renewed. -/
def isRenewalFailure : RouteError → Bool
  | .controlPlane _ _ | .os _ | .operational => true
  | _ => false

end RouteError

inductive SelectionPolicy
  | personalPreferred | personalRequired
  deriving DecidableEq, Repr

structure MissionProviderAccountSelection where
  policy : SelectionPolicy
  accountId : Text
  deriving DecidableEq, Repr

/-- A worker as its runtime sees it, with what `mission_provider_account_selection` makes of its
bootstrap bundle and with the private fields that a binding adds. -/
structure MissionWorker where
  workerId : Text
  tenantId : Text := []
  ownerId : Text := []
  executionMode : Text := []
  selection : Except RouteError (Option MissionProviderAccountSelection) := .ok none
  environment : Option (List (Text × Text)) := none
  mountHost : Option Text := none
  deriving Repr

/-- `str(value or default).strip()`. -/
def stripOr (default value : Text) : Text :=
  Text.strip (if value.isEmpty then default else value)

namespace MissionWorker

def id (w : MissionWorker) : Text :=
  Text.strip w.workerId

def tenant (w : MissionWorker) : Text :=
  let t := stripOr "local".toList w.tenantId
  if t.isEmpty then "local".toList else t

def owner (w : MissionWorker) : Text :=
  Text.strip w.ownerId

end MissionWorker

inductive RouteKind
  | native | unbound
  deriving DecidableEq, Repr

/-- A row of `_active_bindings`. -/
structure ActiveRoute where
  token : ℕ
  worker : MissionWorker
  runId : Text
  runtimeName : Text
  accountId : Text
  tenantId : Text
  ownerId : Text
  routeKind : RouteKind
  leaseId : Text := []
  readers : ℕ := 0
  ready : Bool := false
  closing : Bool := false
  deriving Repr

/-- What `active_provider_lease` returns. -/
structure MissionLease where
  leaseId : Text
  tenantId : Text
  ownerId : Text
  workerId : Text
  runId : Text
  deriving DecidableEq, Repr

/-- What `get_provider_account` returns. -/
structure MissionAccount where
  provider : Text
  status : Text
  deriving DecidableEq, Repr

/-- What `project_active_route` and `mark_active_route_ready` are given. -/
structure RouteCaller where
  worker : MissionWorker
  runtimeName : Text
  runId : Text
  deriving Repr

/-- The account that the worker of a caller selects. -/
def RouteCaller.accountId (c : RouteCaller) : Text :=
  match c.worker.selection with
  | .ok (some selection) => selection.accountId
  | _ => []

/-- What `bind` is given: of its callbacks only whether they are there. -/
structure BindRequest where
  worker : MissionWorker
  runtimeName : Text
  runId : Text
  leasePurpose : Text := "mission".toList
  allowPreferredFallback : Bool := true
  hasRelease : Bool := true
  hasAbort : Bool := true
  hasReconcile : Bool := true
  deriving Repr

inductive RouteCall
  | bind (r : BindRequest)
  | bindUnbound (worker : MissionWorker) (runtimeName runId accountId : Text)
  | project (c : RouteCaller)
  | markReady (c : RouteCaller)
  deriving Repr

/-- What a step reads from outside. `cleanup` is `release_binding` and then `tighten_permissions`,
`acquire` what leads to the lease, and `prepare` what leads to the environment. -/
structure RouteInput where
  securityMode : Text := []
  isolationMode : Text := []
  account : Except RouteError (Option MissionAccount) := .ok none
  deploymentManaged : Bool := false
  acquire : Except RouteError Text := .ok []
  prepare : Except RouteError (List (Text × Text)) := .ok []
  resolve : Except RouteError Text := .ok []
  threadStart : Except RouteError Unit := .ok ()
  renew : Except RouteError Unit := .ok ()
  status : Except RouteError Unit := .ok ()
  cleanup : Except RouteError Unit := .ok ()
  abort : Except RouteError Unit := .ok ()
  release : Except RouteError Unit := .ok ()
  lease : Except RouteError (Option MissionLease) := .ok none
  bodyError : Option RouteError := none

/-- What a route is reserved for. -/
structure RouteRequest where
  worker : MissionWorker
  runtimeName : Text
  runId : Text
  accountId : Text
  kind : RouteKind
  docker : Bool := false
  preferred : Bool := false
  hasAbort : Bool := false
  deriving Repr

/-! ## Before a route is reserved -/

/-- The providers of a profile of `_PROFILE_PROVIDERS`. -/
def profileProviders (runtimeName : Text) : Option (List Text) :=
  if runtimeName = "codex-cli".toList then some ["codex".toList, "openai".toList]
  else if runtimeName = "claude-code".toList then some ["claude".toList, "anthropic".toList]
  else none

/-- What `bind` goes on with: the worker as it is, the fallback to the account of the deployment, or
a route. -/
inductive Preflight
  | plain
  | fallback
  | reserve (r : RouteRequest)

/-- The fallback where it is preferred. -/
def orFallback (preferred : Bool) (message : String) : Except RouteError Preflight :=
  if preferred then .ok .fallback else .error (.runtime message)

/-- `bind`, from the account on. -/
def bindAccount (r : BindRequest) (selection : MissionProviderAccountSelection)
    (docker preferred : Bool) (providers : List Text) (account : Option MissionAccount) :
    Except RouteError Preflight :=
  match account with
  | none => orFallback preferred "Selected provider account is not available for this user"
  | some account =>
    if !(providers.contains (Text.lower (Text.strip account.provider))) then
      .error (.runtime "Selected provider account does not match this worker profile")
    else if Text.lower (Text.strip account.status) ≠ "ready".toList then
      orFallback preferred
        "Selected provider account is not ready; reconnect or verify it before running"
    else .ok (.reserve {
      worker := r.worker, runtimeName := r.runtimeName, runId := r.runId
      accountId := selection.accountId, kind := .native, docker, preferred
      hasAbort := r.hasAbort })

/-- `bind`, up to `_reserve_active_route`. -/
def bindPreflight (hasStore : Bool) (r : BindRequest) (input : RouteInput) :
    Except RouteError Preflight := do
  if r.leasePurpose ≠ "mission".toList ∧ r.leasePurpose ≠ "interactive".toList then
    .error (.runtime "Provider account lease purpose is invalid")
  else
  match ← r.worker.selection with
  | none => return .plain
  | some selection =>
    let mode := Text.lower (stripOr "docker".toList r.worker.executionMode)
    let docker := mode == "docker".toList
    let isolated := docker &&
      Text.lower (Text.strip input.isolationMode) == "per_worker_container".toList
    let preferred := selection.policy == .personalPreferred && r.allowPreferredFallback
    if isolated && !(r.hasRelease && r.hasReconcile) then
      .error (.runtime ("The reviewed provider-account container substrate cannot prove " ++
        "credential mount reconciliation"))
    else if Text.lower (Text.strip input.securityMode) == "multi_user".toList && !isolated then
      .error (.runtime ("Personal subscription workers are disabled in multi-user deployments " ++
        "until GlassHive can place each account and worker behind a dedicated OS or container " ++
        "boundary"))
    else if !hasStore then
      orFallback preferred ("Mission provider accounts are unavailable because the " ++
        "control-plane store is not configured")
    else match profileProviders r.runtimeName with
    | none =>
      orFallback preferred ("Personal provider accounts are supported only for Codex and Claude " ++
        "mission workers")
    | some providers =>
      if !(mode == "host".toList || isolated) then
        orFallback preferred ("Personal provider account missions require a host-native worker " ++
          "or the reviewed per-worker container substrate")
      else if r.worker.owner.isEmpty || r.worker.id.isEmpty then
        .error (.runtime ("Mission provider account binding requires an authenticated owner and " ++
          "worker"))
      else bindAccount r selection docker preferred providers (← input.account)

/-! ## The conditions of a caller -/

namespace ActiveRoute

/-- The condition of `mark_active_route_ready`. -/
def marksReady (route : ActiveRoute) (c : RouteCaller) : Bool :=
  !route.closing && route.runId == c.runId && route.runtimeName == c.runtimeName &&
    route.accountId == c.accountId && route.tenantId == c.worker.tenant &&
    route.ownerId == c.worker.owner

/-- The condition under which `project_active_route` borrows the route. -/
def lends (route : ActiveRoute) (c : RouteCaller) (token : Option ℕ) (leaseId : Text) : Bool :=
  some route.token == token && !route.closing && route.ready &&
    route.runId == Text.strip c.runId && route.runtimeName == Text.strip c.runtimeName &&
    route.accountId == c.accountId && route.tenantId == c.worker.tenant &&
    route.ownerId == c.worker.owner &&
    (route.routeKind != .native || route.leaseId == leaseId)

end ActiveRoute

/-- The errors of `project_active_route` on the lease of a native route. -/
def verifyLease (hasStore : Bool) (c : RouteCaller) (leaseId : Text)
    (lease : Except RouteError (Option MissionLease)) : Except RouteError Unit :=
  if !hasStore then
    .error (.runtime "Desktop actions cannot verify the active provider account lease")
  else match lease with
  | .error e => .error e
  | .ok none =>
    .error (.runtime "Desktop actions require the exact active provider account lease")
  | .ok (some lease) =>
    if Text.strip lease.tenantId ≠ c.worker.tenant ∨ Text.strip lease.ownerId ≠ c.worker.owner ∨
        Text.strip lease.workerId ≠ c.worker.id ∨ Text.strip lease.runId ≠ Text.strip c.runId then
      .error (.runtime "The active provider account lease does not own this worker run")
    else if leaseId.isEmpty ∨ lease.leaseId ≠ leaseId then
      .error (.runtime "Desktop actions require the exact active provider account lease")
    else .ok ()

end GlassHive
