import GlassHive.States
import GlassHive.Library.Json
import GlassHive.Library.Ledger

/-!
# Rows of the durable store

One structure for the columns of each table of `store.py` and `control_plane.py`, without the
primary key, which is the key of the table. A nullable column, and a text column whose empty value
means "none", is an `Option`. Identifiers are drawn from one counter, which stands for `uuid4`.
Times are microseconds.
-/

namespace GlassHive

open Relational

/-- An instant in microseconds. -/
abbrev Time := ℕ

abbrev WorkerId := ℕ
abbrev ProjectId := ℕ
abbrev AttemptId := ℕ
abbrev LeaseId := ℕ
abbrev ScheduleId := ℕ
abbrev DefinitionId := ℕ
abbrev OccurrenceId := ℕ
abbrev SessionId := ℕ
abbrev RequestId := ℕ
abbrev CallbackId := ℕ
abbrev WorkRef := ℕ
abbrev RowId := ℕ

/-- A run identifier: generated, derived from the schedule it dispatches, or chosen by the caller. -/
inductive RunId
  | uuid (n : ℕ)
  | schedule (id : ScheduleId)
  | given (n : ℕ)
  deriving DecidableEq, Repr

/-- A tenant or an owner of a tenant. -/
abbrev TenantId := ℕ
abbrev OwnerId := ℕ

/-- The process that holds a lease or a claim. -/
abbrev ExecutorId := ℕ

/-- The key a caller repeats when it retries a request, and the digest of the request. -/
abbrev IdempotencyKey := ℕ
abbrev RequestDigest := ℕ

/-- The key of a logical turn, and the stable key of a visible message. -/
abbrev AdvancementKey := ℕ
abbrev MessageKey := ℕ

/-- A bearer value handed to the holder of a claim. -/
abbrev Token := ℕ

/-- An operation or stop identity. -/
abbrev OperationId := ℕ

/-! ## Workers -/

/-- The claim columns that a runtime proof digests, which stand for the digest. -/
structure ControlProof where
  operationId : Option OperationId
  kind : Option OperationKind
  scope : OperationScope
  targetRunId : Option RunId
  targetStartedAt : Option Time
  containerId : Option RowId
  sessionFingerprint : Option RowId
  deriving DecidableEq, Repr

/-- The compute release columns that `COMPUTE_OPERATION_CLEAR_FIELDS` clears. -/
structure ComputeRelease where
  token : Option Token
  owner : Option ExecutorId
  claimedAt : Option Time
  expiresAt : Option Time
  kind : Option OperationKind
  scope : OperationScope
  containerId : Option RowId
  sessionFingerprint : Option RowId
  targetRunId : Option RunId
  targetStartedAt : Option Time
  terminalRunId : Option RunId
  replacementRunId : Option RunId
  runtimeConfirmedAt : Option Time
  runtimeProofDigest : Option ControlProof
  operationId : Option OperationId
  deriving DecidableEq, Repr

/-- `COMPUTE_OPERATION_CLEAR_FIELDS`. -/
def ComputeRelease.clear : ComputeRelease where
  token := none
  owner := none
  claimedAt := none
  expiresAt := none
  kind := none
  scope := .computeOnly
  containerId := none
  sessionFingerprint := none
  targetRunId := none
  targetStartedAt := none
  terminalRunId := none
  replacementRunId := none
  runtimeConfirmedAt := none
  runtimeProofDigest := none
  operationId := none

/-- `WORK_STOP_FIELD_NAMES`. -/
structure WorkStop where
  id : Option OperationId
  requestedAt : Option Time
  settledAt : Option Time
  outcome : String
  deriving DecidableEq, Repr

/-- No stop was requested. -/
def WorkStop.clear : WorkStop where
  id := none
  requestedAt := none
  settledAt := none
  outcome := ""

/-- A capability of a copied workspace that its owner has to review again. `rest` holds the fields
that are only compared. -/
structure ReviewItem where
  actionId : String
  resolution : String
  reference : Option RowId
  scopes : List String
  label : String
  rest : JsonFields
  deriving DecidableEq, Repr

/-- `workers.duplication_report_json`. -/
structure DuplicationReport where
  items : List ReviewItem
  waived : List String
  deriving DecidableEq, Repr

/-- A row of `workers`. A duplication report that is no object is `none`. -/
structure Worker where
  projectId : ProjectId
  tenantId : TenantId
  ownerId : OwnerId
  profile : String
  executionMode : String
  trustedRunLane : String
  workspaceKind : WorkspaceKind
  runtime : String
  model : String
  bootstrapBundle : Option JsonValue
  duplicationReport : Option DuplicationReport
  parallelCleanRoom : Bool
  state : WorkerState
  computeReleasedAt : Option Time
  release : ComputeRelease
  releaseEpoch : ℕ
  workStop : WorkStop
  pid : Option ℕ
  lastRunId : Option RunId
  lastError : String
  stateDir : String
  workspaceDir : String
  workspaceRoot : String
  createdAt : Time
  updatedAt : Time
  deriving Repr

/-- A row of `workspace_gc_tombstones`. -/
structure Tombstone where
  projectId : ProjectId
  tenantId : TenantId
  ownerId : OwnerId
  profile : String
  executionMode : String
  originalState : WorkerState
  originalUpdatedAt : Time
  stateDir : String
  workspaceDir : String
  workspaceRoot : String
  managedStorageRoot : String
  phase : TombstonePhase
  claimToken : Option Token
  claimExpiresAt : Time
  cleanupAttempts : ℕ
  lastError : String
  claimedAt : Time
  metadataDeletedAt : Option Time
  completedAt : Option Time
  updatedAt : Time
  deriving Repr

/-! ## Runs and attempts -/

/-- The identity of a queue callback, which `_queue_callback_id` digests. -/
structure QueueCallbackId where
  kind : String
  runId : RunId
  generation : ℕ
  deadline : Time
  deriving DecidableEq, Repr

/-- The queue wait columns of a run, `_queue_defaults`. -/
structure QueueWait where
  firstQueuedAt : Time
  deadlineAt : Time
  blockerClass : String
  nextStatusAt : Option Time
  episode : ℕ
  isOpen : Bool
  generation : ℕ
  startedAt : Time
  closedAt : Option Time
  durationSeconds : Option ℕ
  transitionEmitted : Bool
  statusSequence : ℕ
  callbackState : String
  terminalCallbackId : Option QueueCallbackId
  deriving DecidableEq, Repr

/-- `_FAILURE_FIELD_NAMES`. -/
structure Failure where
  failureClass : String
  retryable : Bool
  structured : Bool
  userMessage : String
  recommendedRecovery : String
  diagnosticSummary : String
  deriving DecidableEq, Repr

/-- No failure evidence. -/
def Failure.clear : Failure where
  failureClass := ""
  retryable := false
  structured := false
  userMessage := ""
  recommendedRecovery := ""
  diagnosticSummary := ""

/-- The retry columns of a run. -/
structure Retry where
  retryAfter : Option Time
  attempts : ℕ
  capacityCount : ℕ
  lastClass : String
  deriving DecidableEq, Repr

def Retry.clear : Retry where
  retryAfter := none
  attempts := 0
  capacityCount := 0
  lastClass := ""

/-- `_TOKEN_USAGE_FIELD_NAMES`. -/
structure TokenUsage where
  inputTokens : ℕ
  outputTokens : ℕ
  cacheReadInputTokens : ℕ
  cacheCreationInputTokens : ℕ
  deriving DecidableEq, Repr

/-- The native session columns of a run. -/
structure NativeSession where
  sessionId : String
  capabilities : String
  childSummary : String
  deriving DecidableEq, Repr

/-- The provider liveness columns of a run. -/
structure Liveness where
  mode : String
  startedAt : Option Time
  meaningfulProgressAt : Option Time
  meaningfulProgressSequence : ℕ
  internalRetryCount : ℕ
  lastInternalRetryClass : String
  routeLocked : Bool
  deriving DecidableEq, Repr

/-- `CAPACITY_RESOURCE_KEYS`. -/
structure Resources where
  childProcesses : ℕ
  threads : ℕ
  memoryBytes : ℕ
  diskBytes : ℕ
  deriving DecidableEq, Repr

namespace Resources

/-- Componentwise combination. -/
def map₂ (f : ℕ → ℕ → ℕ) (a b : Resources) : Resources where
  childProcesses := f a.childProcesses b.childProcesses
  threads := f a.threads b.threads
  memoryBytes := f a.memoryBytes b.memoryBytes
  diskBytes := f a.diskBytes b.diskBytes

def zero : Resources :=
  ⟨0, 0, 0, 0⟩

end Resources

/-- The capacity columns shared by runs and attempts. An absent vector is the empty object. -/
structure Capacity where
  capacityClass : String
  available : Option Resources
  required : Option Resources
  shortage : Option Resources
  reservation : Option Resources
  nextRetryAt : Option Time
  deriving DecidableEq, Repr

/-- The column defaults. -/
def Capacity.default : Capacity where
  capacityClass := ""
  available := none
  required := none
  shortage := none
  reservation := none
  nextRetryAt := none

/-- The provider route columns of a run. -/
structure ProviderRoute where
  profile : String
  runtime : String
  model : String
  decision : String
  fromProfile : String
  fromRuntime : String
  fromModel : String
  failureClass : String
  cooldownUntil : Option Time
  deriving DecidableEq, Repr

def ProviderRoute.default : ProviderRoute where
  profile := ""
  runtime := ""
  model := ""
  decision := ""
  fromProfile := ""
  fromRuntime := ""
  fromModel := ""
  failureClass := ""
  cooldownUntil := none

/-- A row of `runs`. -/
structure Run where
  workerId : WorkerId
  projectId : ProjectId
  tenantId : TenantId
  instruction : String
  state : RunState
  queuedAt : Time
  queueWait : QueueWait
  claimedAt : Option Time
  admittedAt : Option Time
  startedAt : Option Time
  runtimeInvokedAt : Option Time
  activeAttemptId : Option AttemptId
  endedAt : Option Time
  outputText : String
  errorText : String
  terminalResultRevision : ℕ
  failure : Failure
  runtimeBundle : Option JsonValue
  retry : Retry
  usage : TokenUsage
  native : NativeSession
  liveness : Liveness
  capacity : Capacity
  route : ProviderRoute
  continuationContract : String
  continuationContext : String
  deriving Repr

/-- A row of `run_attempts`. -/
structure Attempt where
  runId : RunId
  attemptNumber : ℕ
  state : AttemptState
  claimedAt : Time
  admittedAt : Option Time
  runtimeInvokedAt : Option Time
  healthLastFailedAt : Option Time
  healthGeneration : Option ℕ
  endedAt : Option Time
  leaseId : Option LeaseId
  capacity : Capacity
  terminalReason : String
  deriving Repr

/-- `host_run_leases.startup_identity_kind`. -/
inductive IdentityKind
  | hostProcess | dockerSession | inProcess
  deriving DecidableEq, Repr

/-- `host_run_leases.process_start_identity`. The Docker form names its container, session and
run in front of the rest. -/
inductive StartIdentity
  | text (s : String)
  | docker (containerId sessionId : RowId) (runId : RunId) (rest : String)
  deriving DecidableEq, Repr

/-- `host_run_leases.startup_session_id`. -/
inductive StartupSession
  | id (n : RowId)
  | inProcess
  deriving DecidableEq, Repr

/-- `host_run_leases.lane`. -/
inductive Lane
  | conversation | mission
  deriving DecidableEq, Repr

/-- A row of `capacity_attempts`, keyed by its run and sequence number. -/
structure CapacityAttempt where
  attemptId : Option AttemptId
  capacity : Capacity
  observedAt : Time
  deriving Repr

/-- A row of `host_run_leases`. -/
structure Lease where
  runtimeFamily : String
  lane : Lane
  tenantId : TenantId
  ownerId : OwnerId
  workerId : WorkerId
  runId : RunId
  executorId : ExecutorId
  pid : Option ℕ
  processGroup : Option ℕ
  processStartIdentity : Option StartIdentity
  startupToken : Option Token
  startupState : StartupState
  startupConfirmedAt : Option Time
  startupIdentityKind : Option IdentityKind
  startupContainerId : Option RowId
  startupSessionId : Option StartupSession
  mutationScope : Option String
  attemptId : Option AttemptId
  reserved : Resources
  status : LeaseStatus
  acquiredAt : Time
  heartbeatAt : Time
  expiresAt : Time
  reconciledAt : Option Time
  releasedAt : Option Time
  releaseReason : String
  deriving Repr

/-! ## Schedules -/

/-- A row of `scheduled_runs`. -/
structure ScheduledRun where
  projectId : ProjectId
  workerId : WorkerId
  tenantId : TenantId
  ownerId : OwnerId
  instruction : String
  runAt : Time
  state : ScheduleState
  queuedRunId : Option RunId
  lastError : String
  createdAt : Time
  updatedAt : Time
  deriving Repr

/-- A row of `recurring_schedule_definitions`. -/
structure RecurringDefinition where
  projectId : ProjectId
  workerId : WorkerId
  tenantId : TenantId
  ownerId : OwnerId
  instruction : String
  nativeScheduler : Bool
  overlapPolicy : OverlapPolicy
  enabled : Bool
  active : Bool
  nextRunAt : Time
  retiredAt : Option Time
  createdAt : Time
  updatedAt : Time
  deriving Repr

/-- `recurring_schedule_occurrences.idempotency_key`: what is digested for it. -/
inductive OccurrenceKey
  | recurrence (definitionId : DefinitionId) (scheduledFor : Time)
  | manual (definitionId : DefinitionId) (idempotencyToken : String)
  deriving DecidableEq, Repr

/-- `recurring_schedule_occurrences.claimant`: the native dispatcher of a scheduled run, or the name
that a caller gave. -/
inductive Claimant
  | native (scheduleId : ScheduleId)
  | named (name : String)
  deriving DecidableEq, Repr

/-- A row of `recurring_schedule_occurrences`. -/
structure Occurrence where
  definitionId : DefinitionId
  tenantId : TenantId
  ownerId : OwnerId
  scheduledFor : Time
  detectedAt : Time
  scheduledRunId : ScheduleId
  idempotencyKey : OccurrenceKey
  state : OccurrenceState
  outcome : String
  claimant : Option Claimant
  claimedAt : Option Time
  claimExpiresAt : Option Time
  attemptCount : ℕ
  terminalAt : Option Time
  createdAt : Time
  deriving Repr

/-- A row of `schedule_principal_authority`, keyed by tenant and owner. -/
structure PrincipalAuthority where
  enabled : Bool
  authorityEpoch : ℕ
  updatedAt : Time
  deriving Repr

/-! ## Delegations and provider requests -/

/-- A row of `delegations`. -/
structure Delegation where
  tenantId : TenantId
  ownerId : OwnerId
  idempotencyKey : IdempotencyKey
  requestDigest : RequestDigest
  originRef : String
  title : String
  originSurface : String
  projectId : ProjectId
  workerId : WorkerId
  initialRunId : RunId
  currentRunId : RunId
  dismissedAt : Option Time
  createdAt : Time
  updatedAt : Time
  deriving Repr

/-- `provider_requests.replay_decision_json`: the fields that the store reads, and the text of the
others. -/
structure ReplayDecision where
  admissionSequence : ℕ
  admissionState : String
  rest : String
  deriving DecidableEq, Repr

/-- `provider_sessions.context_manifest_json`. A number that is missing counts as zero, and `rest`
holds the fields that the store only merges. -/
structure SessionManifest where
  messages : ℕ
  acceptedAdvancementKeys : List AdvancementKey
  acceptedVisibleMessageKeys : List MessageKey
  historyCursorAuthority : Option String
  lastRequestId : Option RequestId
  lastAcceptedRequestId : Option RequestId
  lastAcceptedAdvancementKey : Option AdvancementKey
  lastAcceptedReplayDecision : Option ReplayDecision
  lastAcceptedAdmissionSequence : ℕ
  admissionSequence : ℕ
  contextGeneration : ℕ
  ownerMainContextVersion : ℕ
  rest : List (String × String)
  deriving Repr

/-- A row of `provider_sessions`. -/
structure ProviderSession where
  tenantId : TenantId
  ownerId : OwnerId
  projectId : ProjectId
  workerId : WorkerId
  historyCount : ℕ
  contextManifest : SessionManifest
  createdAt : Time
  updatedAt : Time
  deriving Repr

/-- A row of `provider_session_visible_admissions`, keyed by its session and message. -/
structure VisibleAdmission where
  advancementKey : AdvancementKey
  acceptedAt : Time
  deriving Repr

/-- `provider_requests.fallback_from_run_id`: empty, the run that failed, or the marker of a
context recovery with the run it recovers. -/
inductive FallbackOrigin
  | none
  | run (id : RunId)
  | contextRecovery (id : RunId)
  deriving DecidableEq, Repr

/-- A row of `provider_requests`. -/
structure ProviderRequest where
  tenantId : TenantId
  ownerId : OwnerId
  sessionId : SessionId
  runId : Option RunId
  state : String
  stateless : Bool
  response : String
  fallbackState : String
  fallbackFrom : FallbackOrigin
  responseTimeout : ℕ
  responseDeadlineAt : Option Time
  replayDecision : ReplayDecision
  createdAt : Time
  updatedAt : Time
  deriving Repr

/-! ## Records that follow a worker or a run -/

/-- A row of `projects`. -/
structure Project where
  tenantId : TenantId
  createdAt : Time
  deriving Repr

/-- What a lifecycle operation is identified by in its events and effects. -/
inductive OperationToken
  | operation (id : OperationId)
  | terminate (worker : WorkerId) (updatedAt : Time)
  deriving DecidableEq, Repr

/-- The columns a lifecycle event or effect identity digests. -/
structure LifecycleKey where
  operation : OperationToken
  epoch : ℕ
  operationKind : OperationKind
  name : String
  workerId : WorkerId
  runId : Option RunId
  deriving DecidableEq, Repr

/-- The primary key of `events`. -/
inductive EventId
  | added (n : ℕ)
  | started (startupToken : Token)
  | requeued (startupToken : Token)
  | queueTimeout (runId : RunId) (generation : ℕ) (deadline : Time)
  | lifecycle (key : LifecycleKey)
  deriving DecidableEq, Repr

/-- A row of `events`. -/
structure EventRow where
  projectId : ProjectId
  workerId : WorkerId
  runId : Option RunId
  eventType : String
  message : String
  createdAt : Time
  deriving Repr

/-- The columns of `lifecycle_operation_effects` that say whom an effect is about. -/
structure EffectBinding where
  workerId : WorkerId
  runId : Option RunId
  deriving Repr

/-- A row of `lifecycle_operation_effects`. -/
abbrev LifecycleEffect := LedgerRow EffectBinding

/-- What a capability grant is projected into: a generation of a container or a lease of the host. -/
inductive GrantProjection
  | container (generationId : Text)
  | host (startupLeaseId : Text)
  deriving DecidableEq, Repr

/-- The columns of `capability_grant_revocations` whose digest is the primary key. -/
structure RevocationBinding where
  authorizationRef : Text
  originRef : Text
  workRef : WorkRef
  workerId : WorkerId
  runId : RunId
  grantId : Text
  projection : GrantProjection
  deriving DecidableEq, Repr

/-- A row of `capability_grant_revocations`. -/
abbrev Revocation := LedgerRow RevocationBinding

/-- A row of `run_action_uses`. -/
structure RunActionUse where
  action : String
  projectId : ProjectId
  workerId : WorkerId
  sourceRunId : RunId
  newRunId : Option RunId
  status : String
  resultCode : String
  updatedAt : Time
  deriving Repr

/-- What a `work_trace_events` row records. -/
inductive TraceEvent
  | origin
  | runtimeInvoked (attempt : AttemptId) (invokedAt : Time)
  | attempt (attempt : AttemptId) (number : ℕ) (state : AttemptState) (claimedAt : Time)
      (admittedAt invokedAt endedAt : Option Time) (reason : String) (lease : Option LeaseId)
  | capacity (sequence : ℕ)
  | artifact (output error : String) (observedAt : Time) (terminal : Bool)
  | callback (runSequence : ℕ)
  deriving DecidableEq, Repr

/-- A row of `work_trace_events`, keyed by its run and sequence number. -/
structure WorkTraceEvent where
  workRef : WorkRef
  event : TraceEvent
  createdAt : Time
  deriving Repr

/-- A row of `provider_account_leases`. -/
structure AccountLease where
  accountId : RowId
  tenantId : TenantId
  ownerId : OwnerId
  lane : String
  workerId : WorkerId
  runId : RunId
  acquiredAt : Time
  heartbeatAt : Time
  expiresAt : Time
  releasedAt : Option Time
  deriving Repr

/-- `provider_accounts.provider`. -/
inductive Provider
  | codex | claude | openai | anthropic | custom
  deriving DecidableEq, Repr

/-- `provider_accounts.status`. -/
inductive AccountStatus
  | disconnected | connecting | ready | actionRequired | unavailable | error
  deriving DecidableEq, Repr

/-- `provider_accounts.recovery_code`. -/
inductive RecoveryCode
  | none | credentialCleanupFailed
  deriving DecidableEq, Repr

/-- A row of `provider_accounts`. -/
structure ProviderAccount where
  tenantId : TenantId
  ownerId : OwnerId
  provider : Provider
  label : String
  isDefault : Bool
  status : AccountStatus
  reconnectReason : String
  recoveryCode : RecoveryCode
  createdAt : Time
  updatedAt : Time
  deriving Repr

/-! ## Capability library -/

/-- A pinned dependency of a manifest. -/
structure LibraryDependency where
  stableId : String
  version : String
  contentHash : String
  scopes : List String
  deriving DecidableEq, Repr

/-- The `health_probe` of a manifest. -/
structure HealthProbe where
  requiredFiles : List String
  requiredBundleKeys : List String
  requiredMcpServers : List String
  deriving DecidableEq, Repr

/-- The bundle of an activation: the three keys that a validated bundle may have. `files` is a list,
or a value that counts as false. -/
structure ActivationBundle where
  claudeProjectMcp : Option JsonFields
  codexConfigAppend : Option String
  files : Option JsonValue
  deriving DecidableEq, Repr

/-- A manifest as `validate_library_manifest` normalizes it, which leaves it as it is when it is
validated again. `activation` is the bundle of each profile, and `rest` holds the fields that are
only compared. -/
structure Manifest where
  stableId : String
  version : String
  contentHash : String
  provenance : String
  supportedProfiles : List String
  requestedScopes : List String
  dependencies : List LibraryDependency
  healthProbe : HealthProbe
  activation : List (String × ActivationBundle)
  rest : JsonFields
  deriving DecidableEq, Repr

/-- `control_plane_library.status`. -/
inductive LibraryStatus
  | available | disabled | removed
  deriving DecidableEq, Repr

/-- A row of `control_plane_library`. -/
structure LibraryItem where
  stableId : String
  version : String
  contentHash : String
  provenance : String
  supportedProfiles : List String
  scopes : List String
  manifest : Manifest
  status : LibraryStatus
  createdAt : Time
  updatedAt : Time
  deriving Repr

/-- An entry of `installation_plan_json`. -/
structure InstalledItem where
  libraryId : RowId
  stableId : String
  version : String
  contentHash : String
  scopes : List String
  deriving DecidableEq, Repr

/-- A row of `workspace_capability_grants`. The rows of the table are in the order of their row
numbers. -/
structure CapabilityGrant where
  tenantId : TenantId
  ownerId : OwnerId
  workerId : WorkerId
  libraryId : Option RowId
  accountId : Option RowId
  scopes : List String
  priorBundle : JsonValue
  appliedBundle : JsonValue
  installationPlan : List InstalledItem
  createdAt : Time
  revokedAt : Option Time
  deriving Repr

/-- What `_library_confirmation_snapshot` digests, which stands for the snapshot. -/
structure LibrarySnapshot where
  libraryId : RowId
  supportedProfiles : List String
  allowedScopes : List String
  manifest : Manifest
  deriving DecidableEq, Repr

/-- An entry of `library_plan_snapshot`. -/
structure PlannedSnapshot where
  snapshot : LibrarySnapshot
  scopes : List String
  deriving DecidableEq, Repr

/-- The `account_snapshot` of a reviewed account. -/
structure AccountSnapshot where
  accountId : RowId
  provider : Provider
  label : String
  status : AccountStatus
  updatedAt : Time
  deriving DecidableEq, Repr

/-- `control_plane_pending_changes.change_type`. -/
inductive ChangeType
  | workspaceGrant | libraryEnable | libraryUpgrade | connectionWrite | workspaceProviderAccount
  | workspaceDuplicationReapprovalWaiver
  | other (text : String)
  deriving DecidableEq, Repr

/-- `WORKSPACE_ACCOUNT_POLICIES`. -/
inductive AccountPolicy
  | legacy | personalPreferred | personalRequired
  deriving DecidableEq, Repr

/-- `control_plane_pending_changes.payload_json`: the fields that a confirmation reads. A policy
outside `WORKSPACE_ACCOUNT_POLICIES` is `none`. -/
structure ChangePayload where
  libraryId : Option RowId
  connectionId : Option RowId
  accountId : Option RowId
  scopes : List String
  librarySnapshot : Option LibrarySnapshot
  libraryPlanSnapshot : Option (List PlannedSnapshot)
  replacesGrantId : Option RowId
  policy : Option AccountPolicy
  accountSnapshot : Option AccountSnapshot
  actionId : String
  reviewSnapshot : Option ReviewItem
  deriving Repr

/-- A row of `control_plane_pending_changes`. The digest of the confirmation token is the token. -/
structure PendingChange where
  tenantId : TenantId
  ownerId : OwnerId
  changeType : ChangeType
  targetId : WorkerId
  payload : ChangePayload
  confirmationHash : Token
  status : String
  expiresAt : Time
  resolvedAt : Option Time
  createdAt : Time
  deriving Repr

/-- A row of `workspace_template_instantiations` or `workspace_duplications`. -/
structure WorkspaceCopy where
  status : String
  sourceWorkerId : Option WorkerId
  projectId : Option ProjectId
  workerId : Option WorkerId
  deriving Repr

/-- A row of `active_work_action_uses`. -/
structure ActiveWorkAction where
  tenantId : TenantId
  ownerId : OwnerId
  workRef : WorkRef
  idempotencyKey : IdempotencyKey
  sourceRunId : Option RunId
  effectPhase : String
  lifecycleOperationId : Option OperationId
  lifecycleOperationKind : Option OperationKind
  lifecycleTargetRunId : Option RunId
  executorId : Option ExecutorId
  leaseExpiresAt : Option Time
  action : String
  payloadDigest : RequestDigest
  sourceContext : String
  status : String
  response : String
  lastError : String
  createdAt : Time
  updatedAt : Time
  deriving Repr

/-- The foreign key columns of a row that only refers to workers and runs. -/
structure Reference where
  projectId : Option ProjectId
  workerId : Option WorkerId
  runIds : List RunId
  parent : Option RowId
  deriving Repr

end GlassHive
