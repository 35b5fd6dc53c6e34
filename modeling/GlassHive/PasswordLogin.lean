import GlassHive.Library.CodePoints
import GlassHive.Library.Eviction
import GlassHive.Library.Fallible
import GlassHive.Library.Table
import GlassHive.Library.Threads
import GlassHive.Library.Transition
import Mathlib.Data.List.Lex

/-!
# Login with a local password

An attempt to log in reads the clock, then the credential, then what its source has failed, checks
the password against what it has read, and decides in a transaction that reads both again. Several
attempts are between these steps at a time, and the changes of an administrator come between them.

`Gateway` stands for the configuration, for the normal forms of names and passwords, for SHA-256,
HMAC and Argon2id. Times are microseconds.
-/

namespace GlassHive.AuthGateway

open Relational

/-! ## Configuration -/

/-- The configuration, and the functions of the libraries. -/
structure Gateway where
  oidcIssuer : Points
  oidcMode : Bool
  localPasswordLogin : Bool
  localAllowedEmailDomains : List Points
  sessionTtl : ℤ
  normalizeSubject : Points → Option Points
  normalizeEmail : Points → Option Points
  normalizePassword : Points → Bool → Option Points
  sourceKey : Points → Points
  hashSecret : Points → Points
  passwordMatches : Points → Points → Bool
  dummyPhc : Points

def seconds (n : ℤ) : ℤ :=
  n * 1000000

def localAccountMaxFailures : ℕ := 5

def localSourceMaxFailures : ℕ := 20

def localFailureWindow : ℤ := seconds (15 * 60)

def localLockBase : ℤ := seconds 30

def localLockMax : ℤ := seconds (15 * 60)

def localSourceLock : ℤ := seconds (5 * 60)

def localThrottleRetention : ℤ := seconds (24 * 60 * 60)

def localThrottleMaxSources : ℕ := 10000

/-! ## Tables -/

/-- A row of `auth_principals`, under its `user_id`. -/
structure Principal where
  issuer : Points
  subject : Points
  email : Points
  displayName : Points
  role : Points
  disabledAt : Option ℤ
  createdAt : ℤ
  updatedAt : ℤ
  deriving DecidableEq

/-- A row of `auth_local_credentials`, under its `principal_id`. -/
structure Credential where
  loginEmail : Points
  passwordPhc : Points
  passwordVersion : ℕ
  failedAttempts : ℕ
  lockedUntil : Option ℤ
  lastFailedAt : Option ℤ
  disabledAt : Option ℤ
  passwordChangedAt : ℤ
  createdAt : ℤ
  updatedAt : ℤ
  deriving DecidableEq

/-- A row of `auth_local_source_attempts`, under its `source_hash`. -/
structure SourceAttempts where
  failedAttempts : ℕ
  windowStarted : ℤ
  lockedUntil : Option ℤ
  lastFailedAt : ℤ
  deriving DecidableEq

/-- A row of `auth_sessions` or of `auth_local_sessions`, under its `session_hash`. -/
structure Session where
  principalId : Points
  csrfHash : Points
  expiresAt : ℤ
  revokedAt : Option ℤ
  createdAt : ℤ
  lastSeenAt : ℤ

structure AuthStore where
  principals : Table Points Principal
  credentials : Table Points Credential := .empty
  sourceAttempts : Table Points SourceAttempts := .empty
  sessions : Table Points Session := .empty
  localSessions : Table Points Session := .empty

/-- `_throttle_locked`, of the lock of a row. -/
def throttleLocked (lockedUntil : Option ℤ) (now : ℤ) : Bool :=
  match lockedUntil with
  | none => false
  | some t => now < t

/-! ## Failures -/

/-- How long an account is locked after so many failures, from the fifth on. -/
def lockSeconds (failures : ℕ) : ℤ :=
  min localLockMax (localLockBase * 2 ^ min 8 (failures - localAccountMaxFailures))

/-- The row of a credential with one more failure. -/
def failedCredential (now : ℤ) (c : Credential) : Credential :=
  let lastFailedAt := c.lastFailedAt.getD 0
  let failures :=
    if lastFailedAt = 0 ∨ localFailureWindow < now - lastFailedAt then 1 else c.failedAttempts + 1
  { c with
    failedAttempts := failures
    lockedUntil :=
      if localAccountMaxFailures ≤ failures then some (now + lockSeconds failures) else none
    lastFailedAt := some now
    updatedAt := now }

/-- `_record_account_failure`. -/
def recordAccountFailure (s : AuthStore) (principalId : Points) (now : ℤ) : AuthStore :=
  { s with
    credentials := s.credentials.update (fun pid _ => pid = principalId) fun _ c =>
      failedCredential now c }

/-- The row of a source with one more failure. -/
def failedSource (row : Option SourceAttempts) (now : ℤ) : SourceAttempts :=
  let (failures, windowStarted) := match row with
    | none => (1, now)
    | some r =>
      if localFailureWindow < now - r.windowStarted then (1, now)
      else (r.failedAttempts + 1, r.windowStarted)
  { failedAttempts := failures
    windowStarted
    lockedUntil := if localSourceMaxFailures ≤ failures then some (now + localSourceLock) else none
    lastFailedAt := now }

/-- `ORDER BY last_failed_at, source_hash`. -/
def failedBefore (a b : Points × SourceAttempts) : Prop :=
  a.2.lastFailedAt < b.2.lastFailedAt ∨ a.2.lastFailedAt = b.2.lastFailedAt ∧ a.1 ≤ b.1

instance : DecidableRel failedBefore := fun a b =>
  inferInstanceAs (Decidable (_ ∨ _ ∧ a.1 ≤ b.1))

/-- The sources with one more failure of one of them. -/
def countedSources (s : AuthStore) (sourceHash : Points) (now : ℤ) : Table Points SourceAttempts :=
  s.sourceAttempts.put sourceHash (failedSource (s.sourceAttempts.get? sourceHash) now)

/-- The sources that have failed in the time that is kept. -/
def recentSources (sources : Table Points SourceAttempts) (now : ℤ) :
    Table Points SourceAttempts :=
  sources.delete fun _ r => r.lastFailedAt < now - localThrottleRetention

/-- The sources beyond the number that is kept, those that have not failed for longest. -/
def excessSources (sources : Table Points SourceAttempts) : List Points :=
  (Eviction.evicted failedBefore localThrottleMaxSources sources.entries).map Prod.fst

/-- `_record_source_failure`. -/
def recordSourceFailure (s : AuthStore) (sourceHash : Points) (now : ℤ) : AuthStore :=
  let recent := recentSources (countedSources s sourceHash now) now
  let excess := excessSources recent
  { s with sourceAttempts := recent.delete fun hash _ => excess.contains hash }

/-! ## Attempts -/

/-- The row of an email among the principals of the issuer, with its principal. -/
def localCredential (g : Gateway) (s : AuthStore) (email : Points) :
    Option (Points × Credential × Principal) :=
  s.credentials.entries.findSome? fun e =>
    if e.2.loginEmail = email then
      match s.principals.get? e.1 with
      | some p => if p.issuer = g.oidcIssuer then some (e.1, e.2, p) else none
      | none => none
    else none

inductive AuthError
  | disabled
  | signInFailed
  | signInBusy
  | accountUnavailable
  | integrity
  | rejected
  deriving DecidableEq, Repr

/-- A session as it is returned. -/
structure NewSession where
  token : Points
  csrfToken : Points
  expiresAt : ℤ
  deriving DecidableEq

/-- `_create_session_in_connection`, for a local password. -/
def createLocalSession (g : Gateway) (s : AuthStore) (principalId token csrfToken : Points)
    (now : ℤ) : Except AuthError (AuthStore × NewSession) :=
  match s.principals.get? principalId with
  | none => .error .accountUnavailable
  | some p =>
    if p.disabledAt.isSome then .error .accountUnavailable
    else
      let expiresAt := now + g.sessionTtl
      match s.localSessions.insert? (g.hashSecret token)
        { principalId, csrfHash := g.hashSecret csrfToken, expiresAt, revokedAt := none,
          createdAt := now, lastSeenAt := now } with
      | none => .error .integrity
      | some localSessions => .ok ({ s with localSessions }, ⟨token, csrfToken, expiresAt⟩)

/-- `local_domain_allowed`. -/
def localDomainAllowed (g : Gateway) (email : Points) : Bool :=
  let domain := (email.reverse.takeWhile (· ≠ 64)).reverse
  g.localAllowedEmailDomains.isEmpty || g.localAllowedEmailDomains.any fun allowed =>
    domain == allowed || (46 :: allowed).isSuffixOf domain

/-- `_password_phc_needs_rehash`. -/
def passwordPhcNeedsRehash (phc : Points) : Bool :=
  !((Points.ofString "$argon2id$v=19$").isPrefixOf phc &&
    phc.tails.any (Points.ofString "m=19456,t=2,p=1$").isPrefixOf)

/-- What an attempt has been called with. -/
structure LoginRequest where
  email : Points
  password : Points
  validPasswordShape : Bool
  sourceHash : Points
  deriving DecidableEq

/-- Where an attempt is, with its reading of the clock and with what it has read. -/
inductive Phase
  | begun (now : ℤ)
  | read (now : ℤ) (credential : Option (Points × Credential × Principal))
  | admitted (now : ℤ) (credential : Option (Points × Credential × Principal))
  | checked (now : ℤ) (credential : Option (Points × Credential × Principal)) (verified : Bool)
  | ended (result : Except AuthError NewSession)
  deriving DecidableEq

structure Attempt where
  request : LoginRequest
  phase : Phase
  deriving DecidableEq

/-- What a step of an attempt is given: whether the password service is busy, a new hash of the
password, new secrets, and the time. -/
structure StepEnv where
  busy : Bool
  newPhc : Option Points
  token : Points
  csrfToken : Points
  now : ℤ

/-- The first statements of `authenticate_local_password`. -/
def beginAttempt (g : Gateway) (loginEmail password source : Points) (now : ℤ) : Attempt :=
  let email := (g.normalizeEmail loginEmail).getD (Points.ofString "invalid@example.invalid")
  let shaped := g.normalizePassword password false
  { request :=
      { email
        password := shaped.getD (Points.ofString "synthetic unavailable credential")
        validPasswordShape := shaped.isSome
        sourceHash := g.sourceKey source }
    phase := if g.localPasswordLogin then .begun now else .ended (.error .disabled) }

/-- The hash that the password is checked against. -/
def verifiedPhc (g : Gateway) (credential : Option (Points × Credential × Principal)) : Points :=
  match credential with
  | none => g.dummyPhc
  | some (_, c, _) => c.passwordPhc

/-- The lock of a source. -/
def sourceLockedUntil (s : AuthStore) (sourceHash : Points) : Option ℤ :=
  (s.sourceAttempts.get? sourceHash).bind (·.lockedUntil)

/-- The transaction of an attempt lets it in. -/
def allowed (g : Gateway) (s : AuthStore) (r : LoginRequest) (now : ℤ)
    (credential current : Option (Points × Credential × Principal)) (verified : Bool) : Bool :=
  match current with
  | none => false
  | some (_, c, p) =>
    localDomainAllowed g r.email && r.validPasswordShape && verified &&
      c.passwordPhc == verifiedPhc g credential && c.disabledAt.isNone && p.disabledAt.isNone &&
      !throttleLocked c.lockedUntil now && !throttleLocked (sourceLockedUntil s r.sourceHash) now

/-- `current_matches_verified`, with the account whose failure is recorded. -/
def failingAccount (credential current : Option (Points × Credential × Principal)) :
    Option (Points × Credential) :=
  match current, credential with
  | some (pid, c, _), some (_, c₀, _) =>
    if c.passwordPhc = c₀.passwordPhc ∧ c.passwordVersion = c₀.passwordVersion then some (pid, c)
    else none
  | _, _ => none

/-- The failures that a refused attempt records. -/
def recordFailures (s : AuthStore) (sourceHash : Points) (now : ℤ)
    (account : Option (Points × Credential)) : AuthStore :=
  let s := match account with
    | none => s
    | some (pid, _) => recordAccountFailure s pid now
  recordSourceFailure s sourceHash now

/-- The row of a credential without its failures. -/
def unlockedCredential (now : ℤ) (c : Credential) : Credential :=
  { c with failedAttempts := 0, lockedUntil := none, lastFailedAt := none, updatedAt := now }

/-- The row of a credential after a success, with a new hash when the old one is not up to date. -/
def succeededCredential (now : ℤ) (newPhc : Option Points) (c : Credential) : Credential :=
  let c := match newPhc with
    | none => c
    | some phc =>
      { c with
        passwordPhc := phc
        passwordVersion := c.passwordVersion + 1
        passwordChangedAt := now }
  unlockedCredential now c

/-- The transaction of an attempt, once it is let in. -/
def logIn (g : Gateway) (s : AuthStore) (principalId verifiedPhc : Points) (now : ℤ)
    (env : StepEnv) : Except AuthError (AuthStore × NewSession) :=
  let newPhc := if passwordPhcNeedsRehash verifiedPhc then env.newPhc else none
  if passwordPhcNeedsRehash verifiedPhc && env.newPhc.isNone then .error .signInFailed
  else
    let s := { s with
      credentials := s.credentials.update (fun pid _ => pid = principalId) fun _ c =>
        succeededCredential now newPhc c }
    createLocalSession g s principalId env.token env.csrfToken env.now

/-- The transaction of an attempt: the store, and the result. -/
def authenticate (g : Gateway) (s : AuthStore) (r : LoginRequest) (now : ℤ)
    (credential : Option (Points × Credential × Principal)) (verified : Bool) (env : StepEnv) :
    AuthStore × Except AuthError NewSession :=
  let current := localCredential g s r.email
  if allowed g s r now credential current verified then
    match current with
    | none => (s, .error .signInFailed)
    | some (pid, _, _) =>
      match logIn g s pid (verifiedPhc g credential) now env with
      | .error e => (s, .error e)
      | .ok (s, session) => (s, .ok session)
  else
    (recordFailures s r.sourceHash now (failingAccount credential current), .error .signInFailed)

/-- The next step of an attempt. -/
def advance (g : Gateway) (s : AuthStore) (a : Attempt) (env : StepEnv) : AuthStore × Phase :=
  match a.phase with
  | .begun now => (s, .read now (localCredential g s a.request.email))
  | .read now credential =>
    if throttleLocked (sourceLockedUntil s a.request.sourceHash) now then
      (s, .ended (.error .signInFailed))
    else (s, .admitted now credential)
  | .admitted now credential =>
    if env.busy then (s, .ended (.error .signInBusy))
    else (s, .checked now credential
      (g.passwordMatches a.request.password (verifiedPhc g credential)))
  | .checked now credential verified =>
    let (s, result) := authenticate g s a.request now credential verified env
    (s, .ended result)
  | .ended result => (s, .ended result)

/-! ## Administration -/

/-- The local sessions of a principal, revoked. -/
def revokeLocalSessions (s : AuthStore) (principalId : Points) (now : ℤ) : AuthStore :=
  { s with
    localSessions := s.localSessions.update
      (fun _ row => row.principalId = principalId ∧ row.revokedAt = none) fun _ row =>
        { row with revokedAt := some now } }

/-- `_local_principal_row`. -/
def localPrincipal (g : Gateway) (s : AuthStore) (subject : Points) :
    Except AuthError (Points × Principal) :=
  match g.normalizeSubject subject with
  | none => .error .rejected
  | some subject =>
    match s.principals.entries.find? fun e =>
      e.2.issuer = g.oidcIssuer ∧ e.2.subject = subject ∧ e.2.disabledAt = none with
    | none => .error .rejected
    | some e => .ok e

/-- The row that a provision leaves. -/
def provisionedCredential (old : Option Credential) (email phc : Points) (now : ℤ) : Credential :=
  match old with
  | none =>
    { loginEmail := email, passwordPhc := phc, passwordVersion := 1, failedAttempts := 0,
      lockedUntil := none, lastFailedAt := none, disabledAt := none, passwordChangedAt := now,
      createdAt := now, updatedAt := now }
  | some c =>
    { c with
      loginEmail := email
      passwordPhc := phc
      passwordVersion := c.passwordVersion + 1
      failedAttempts := 0
      lockedUntil := none
      lastFailedAt := none
      passwordChangedAt := now
      updatedAt := now }

/-- `provision_local_password`, with a new hash of the password unless the service is busy. -/
def provisionLocalPassword (g : Gateway) (s : AuthStore) (subject loginEmail password : Points)
    (newPhc : Option Points) (now : ℤ) : Except AuthError (AuthStore × Points × Principal) := do
  if !g.oidcMode || g.oidcIssuer.isEmpty then .error .rejected
  else match g.normalizeSubject subject, g.normalizeEmail loginEmail,
      g.normalizePassword password true, newPhc with
  | some subject, some email, some _, some phc =>
    if !localDomainAllowed g email then .error .rejected
    else
      let (pid, p) ← localPrincipal g s subject
      if s.credentials.any fun other c => other ≠ pid ∧ c.loginEmail = email then
        .error .integrity
      else
        let row := provisionedCredential (s.credentials.get? pid) email phc now
        let s := { s with credentials := s.credentials.put pid row }
        return (revokeLocalSessions s pid now, pid, p)
  | _, _, _, _ => .error .rejected

/-- `unlock_local_password`. -/
def unlockLocalPassword (g : Gateway) (s : AuthStore) (subject : Points) (now : ℤ) :
    Except AuthError (AuthStore × Points × Principal) := do
  let (pid, p) ← localPrincipal g s subject
  match s.credentials.get? pid with
  | none => .error .rejected
  | some _ =>
    return ({ s with
      credentials := s.credentials.update (fun other _ => other = pid) fun _ c =>
        unlockedCredential now c }, pid, p)

/-- The row of a credential that is disabled, or no longer. -/
def disabledCredential (disabled : Bool) (now : ℤ) (c : Credential) : Credential :=
  { c with disabledAt := if disabled then some now else none, updatedAt := now }

/-- `set_local_password_disabled`. -/
def setLocalPasswordDisabled (g : Gateway) (s : AuthStore) (subject : Points) (disabled : Bool)
    (now : ℤ) : Except AuthError (AuthStore × Points × Principal) := do
  let (pid, p) ← localPrincipal g s subject
  match s.credentials.get? pid with
  | none => .error .rejected
  | some _ =>
    let s := { s with
      credentials := s.credentials.update (fun other _ => other = pid) fun _ c =>
        disabledCredential disabled now c }
    return (if disabled then revokeLocalSessions s pid now else s, pid, p)

/-- `set_principal_disabled`. -/
def setPrincipalDisabled (s : AuthStore) (principalId : Points) (disabled : Bool) (now : ℤ) :
    Except AuthError (AuthStore × Points × Principal) :=
  let userId := Points.strip principalId
  if userId.isEmpty then .error .rejected
  else match s.principals.get? userId with
  | none => .error .rejected
  | some p =>
    let disabledAt := if disabled then some now else none
    let s := { s with
      principals := s.principals.update (fun pid _ => pid = userId) fun _ p =>
        { p with disabledAt, updatedAt := now } }
    let s := if disabled then
        revokeLocalSessions
          { s with
            sessions := s.sessions.update
              (fun _ row => row.principalId = userId ∧ row.revokedAt = none) fun _ row =>
                { row with revokedAt := some now } } userId now
      else s
    .ok (s, userId, { p with disabledAt, updatedAt := now })

/-! ## Sessions -/

inductive AuthMethod
  | oidc
  | localPassword
  deriving DecidableEq, Repr

structure ResolvedSession where
  userId : Points
  principal : Principal
  expiresAt : ℤ
  csrfHash : Points
  authMethod : AuthMethod

/-- The row of a session that is open, with its principal. -/
def openSession (s : AuthStore) (table : Table Points Session) (sessionHash : Points) (now : ℤ) :
    Option (Session × Principal) :=
  match table.get? sessionHash with
  | none => none
  | some row =>
    match s.principals.get? row.principalId with
    | none => none
    | some p =>
      if row.revokedAt = none ∧ now < row.expiresAt ∧ p.disabledAt = none then some (row, p)
      else none

/-- The sessions with one that has been seen. -/
def seen (table : Table Points Session) (sessionHash : Points) (now : ℤ) : Table Points Session :=
  table.update (fun hash _ => hash = sessionHash) fun _ row => { row with lastSeenAt := now }

/-- `resolve_session`. -/
def resolveSession (g : Gateway) (s : AuthStore) (token : Points) (now : ℤ) :
    AuthStore × Option ResolvedSession :=
  if token.isEmpty then (s, none)
  else
    let sessionHash := g.hashSecret token
    match openSession s s.sessions sessionHash now with
    | some (row, p) =>
      ({ s with sessions := seen s.sessions sessionHash now },
        some ⟨row.principalId, p, row.expiresAt, row.csrfHash, .oidc⟩)
    | none =>
      if !g.localPasswordLogin then (s, none)
      else match openSession s s.localSessions sessionHash now with
      | none => (s, none)
      | some (row, p) =>
        if p.issuer = g.oidcIssuer then
          ({ s with localSessions := seen s.localSessions sessionHash now },
            some ⟨row.principalId, p, row.expiresAt, row.csrfHash, .localPassword⟩)
        else (s, none)

end GlassHive.AuthGateway
