import GlassHive.System

/-!
# Provider accounts

A provider account is used by one lease at a time. The control plane decides its leases, the store
decides the states of runs, and both share the database: an interactive lease is refused while a run
of the workspace or of the account is queued or running.
-/

namespace GlassHive

open Relational

/-- The arguments of `create_provider_account`, with the limit of the environment. -/
structure NewAccount where
  tenantId : TenantId
  ownerId : OwnerId
  provider : Provider
  label : String
  makeDefault : Bool
  status : AccountStatus
  limit : ℕ

/-- The arguments of `acquire_provider_lease`. -/
structure AcquireAccount where
  accountId : RowId
  tenantId : TenantId
  ownerId : OwnerId
  lane : String
  workerId : WorkerId
  runId : RunId
  ttl : ℕ
  allowedStatuses : List AccountStatus
  requiredRecoveryCode : Option RecoveryCode

/-- The row belongs to the principal. -/
def ProviderAccount.ownedBy (a : ProviderAccount) (tenantId : TenantId) (ownerId : OwnerId) :
    Bool :=
  a.tenantId == tenantId && a.ownerId == ownerId

namespace AccountLease

/-- The lease is neither released nor expired. -/
def live (l : AccountLease) (now : Time) : Bool :=
  l.releasedAt.isNone && decide (now < l.expiresAt)

/-- The lease belongs to the principal. -/
def ownedBy (l : AccountLease) (tenantId : TenantId) (ownerId : OwnerId) : Bool :=
  l.tenantId == tenantId && l.ownerId == ownerId

end AccountLease

/-- The expiry of an account lease: between fifteen seconds and a day from now. -/
def accountExpiry (now : Time) (ttl : ℕ) : Time :=
  now + max 15 (min ttl (24 * 60 * 60)) * 1000000

/-- The lane as it is stored. -/
def normalizedLane (lane : String) : String :=
  String.ofList ((if lane == "" then "default" else lane).toList.take 80)

/-- The lane is that of an interactive setup. -/
def interactiveLane (lane : String) : Bool :=
  ":interactive".toList.isSuffixOf lane.toList

namespace Store

/-- `UPDATE provider_accounts`. -/
@[simps]
def updateAccounts (s : Store) (p : RowId → ProviderAccount → Bool)
    (f : ProviderAccount → ProviderAccount) : Store :=
  { s with accounts := s.accounts.update p fun _ => f }

/-- `UPDATE provider_account_leases`. -/
@[simps]
def updateAccountLeases (s : Store) (p : RowId → AccountLease → Bool)
    (f : AccountLease → AccountLease) : Store :=
  { s with accountLeases := s.accountLeases.update p fun _ => f }

/-- The account of a principal. -/
def ownedAccount (s : Store) (accountId : RowId) (tenantId : TenantId) (ownerId : OwnerId) :
    Option ProviderAccount :=
  (s.accounts.get? accountId).filter fun a => a.ownedBy tenantId ownerId

/-! ## Accounts -/

/-- `create_provider_account`. -/
def createProviderAccount (s : Store) (now : Time) (a : NewAccount) : Outcome (Option RowId) :=
  let owned := s.accounts.select fun _ r => r.ownedBy a.tenantId a.ownerId
  if a.limit ≤ (owned.filter fun e => e.2.status != .disconnected).length then
    .raise s (.controlPlaneConflict "Provider account limit reached for this user")
  else
    let sibling : RowId → ProviderAccount → Bool :=
      fun _ r => r.ownedBy a.tenantId a.ownerId && r.provider == a.provider
    let makeDefault := a.makeDefault || !(s.accounts.any fun id r => sibling id r && r.isDefault)
    let s' := if makeDefault then
        s.updateAccounts sibling fun r => { r with isDefault := false, updatedAt := now }
      else s
    match s'.accounts.insert? s.nextId
      { tenantId := a.tenantId, ownerId := a.ownerId, provider := a.provider, label := a.label,
        isDefault := makeDefault, status := a.status, reconnectReason := "", recoveryCode := .none,
        createdAt := now, updatedAt := now } with
    | none => .raise s (.integrity "provider_accounts.account_id")
    | some accounts => .commit { s'.drawId with accounts := accounts } (some s.nextId)

/-- `update_provider_account_status`. -/
def updateProviderAccountStatus (s : Store) (now : Time) (accountId : RowId) (tenantId : TenantId)
    (ownerId : OwnerId) (status : AccountStatus) (reconnectReason : String)
    (recoveryCode : Option RecoveryCode) : Outcome Unit :=
  if (s.ownedAccount accountId tenantId ownerId).isNone then
    .raise s (.controlPlane "Provider account not found for this user")
  else
    .commit (s.updateAccounts (fun id r => id == accountId && r.ownedBy tenantId ownerId)
      fun r => { r with
        status := status, reconnectReason := reconnectReason,
        recoveryCode := recoveryCode.getD r.recoveryCode, updatedAt := now }) ()

/-- `disconnect_provider_account`. -/
def disconnectProviderAccount (s : Store) (now : Time) (accountId : RowId) (tenantId : TenantId)
    (ownerId : OwnerId) (reconnectReason : String) : Outcome Unit :=
  if (s.ownedAccount accountId tenantId ownerId).isNone then
    .raise s (.controlPlane "Provider account not found for this user")
  else
    .commit
      (s
        |>.updateAccountLeases
            (fun _ l => l.accountId == accountId && l.ownedBy tenantId ownerId &&
              l.releasedAt.isNone)
            (fun l => { l with releasedAt := some now })
        |>.updateAccounts (fun id r => id == accountId && r.ownedBy tenantId ownerId)
            (fun r => { r with
              status := .disconnected, reconnectReason := reconnectReason, recoveryCode := .none,
              isDefault := false, updatedAt := now })) ()

/-- `forget_provider_account`. The leases of the account go with its row. -/
def forgetProviderAccount (s : Store) (now : Time) (accountId : RowId) (tenantId : TenantId)
    (ownerId : OwnerId) : Outcome Unit :=
  match s.ownedAccount accountId tenantId ownerId with
  | none => .raise s (.controlPlane "Provider account not found for this user")
  | some account =>
    if account.status != .disconnected then
      .raise s (.controlPlaneConflict "Disconnect the provider account before forgetting it")
    else if s.accountLeases.any fun _ l => l.accountId == accountId && l.live now then
      .raise s (.controlPlaneConflict "Provider account is still in use")
    else
      let grants := s.capabilityGrants.delete fun _ g =>
        g.accountId == some accountId && g.tenantId == tenantId && g.ownerId == ownerId
      if grants.any fun _ g => g.accountId == some accountId then
        .raise s (.integrity "workspace_capability_grants.account_id")
      else
        .commit { s with
          capabilityGrants := grants
          accounts := s.accounts.delete fun id r => id == accountId && r.ownedBy tenantId ownerId
          accountLeases := s.accountLeases.delete fun _ l => l.accountId == accountId } ()

/-! ## Leases -/

/-- A run of the workspace, or one fenced to the account, is queued or running. -/
def accountWorkActive (s : Store) (workerId : WorkerId) (accountId : RowId) : Bool :=
  (s.runs.any fun _ r => r.workerId == workerId && oneOf r.state [.queued, .running]) ||
    s.accountFences.any fun runId id => id == accountId &&
      (s.runs.get? runId).any fun r => oneOf r.state [.queued, .running]

/-- The check that refuses a lease, if any. -/
def accountRefusal (s : Store) (now : Time) (a : AcquireAccount) : Option StoreError :=
  if a.allowedStatuses.isEmpty then
    some (.controlPlane "Provider lease allowed statuses are invalid")
  else match s.ownedAccount a.accountId a.tenantId a.ownerId with
  | none => some (.controlPlane "Provider account not found for this user")
  | some account =>
    if interactiveLane (normalizedLane a.lane) && s.accountWorkActive a.workerId a.accountId then
      some (.controlPlaneConflict "Provider account work is starting or running")
    else if s.accountLeases.any fun _ l => l.accountId == a.accountId && l.live now then
      some (.controlPlaneConflict "Provider account is already in use")
    else if !oneOf account.status a.allowedStatuses then
      some (.controlPlaneConflict "Provider account is not ready for mission use")
    else if a.requiredRecoveryCode.any (· != account.recoveryCode) then
      some (.controlPlaneConflict
        "Provider account recovery state changed; refresh and try again")
    else none

/-- The row that an acquisition inserts. -/
def acquiredAccountLease (now : Time) (a : AcquireAccount) : AccountLease where
  accountId := a.accountId
  tenantId := a.tenantId
  ownerId := a.ownerId
  lane := normalizedLane a.lane
  workerId := a.workerId
  runId := a.runId
  acquiredAt := now
  heartbeatAt := now
  expiresAt := accountExpiry now a.ttl
  releasedAt := none

/-- `acquire_provider_lease`. -/
def acquireProviderLease (s : Store) (now : Time) (a : AcquireAccount) : Outcome (Option RowId) :=
  match s.accountRefusal now a with
  | some e => .raise s e
  | none =>
    match s.accountLeases.insert? s.nextId (acquiredAccountLease now a) with
    | none => .raise s (.integrity "provider_account_leases.lease_id")
    | some leases => .commit { s.drawId with accountLeases := leases } (some s.nextId)

/-- `heartbeat_provider_lease`. -/
def heartbeatProviderLease (s : Store) (now : Time) (leaseId : RowId) (tenantId : TenantId)
    (ownerId : OwnerId) (ttl : ℕ) : Outcome Unit :=
  let held : RowId → AccountLease → Bool := fun id l =>
    id == leaseId && l.ownedBy tenantId ownerId && l.live now
  if !s.accountLeases.any held then
    .raise s (.controlPlane "Provider account mission lease is no longer active")
  else
    .commit (s.updateAccountLeases held fun l =>
      { l with heartbeatAt := now, expiresAt := accountExpiry now ttl }) ()

/-- `release_provider_lease`. An expired lease may still be released. -/
def releaseProviderLease (s : Store) (now : Time) (leaseId : RowId) (tenantId : TenantId)
    (ownerId : OwnerId) : Outcome Unit :=
  let held : RowId → AccountLease → Bool := fun id l =>
    id == leaseId && l.ownedBy tenantId ownerId && l.releasedAt.isNone
  if !s.accountLeases.any held then
    .raise s (.controlPlane "Provider account lease not found for this user")
  else
    .commit (s.updateAccountLeases held fun l => { l with releasedAt := some now }) ()

end Store

end GlassHive
