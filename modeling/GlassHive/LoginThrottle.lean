import GlassHive.PasswordLogin

/-!
# Throttled logins

An attempt decides with the reading of the clock that it took before it checked the password. No
session comes from an attempt under a lock or with a password that is no longer current, and the
sessions that an administrator ends stay ended. But a refused attempt writes the locks anew from its
own reading: one that began earlier, or after the window of its source, writes a lock that ends
earlier than the one that is there, or none.
-/

namespace GlassHive.AuthGateway

open Relational Transition

/-! ## Events -/

inductive AuthEvent
  | start (loginEmail password source : Points) (now : ℤ)
  | advance (i : ℕ) (env : StepEnv)
  | provision (subject loginEmail password : Points) (newPhc : Option Points) (now : ℤ)
  | unlock (subject : Points) (now : ℤ)
  | setPasswordDisabled (subject : Points) (disabled : Bool) (now : ℤ)
  | setPrincipalDisabled (principalId : Points) (disabled : Bool) (now : ℤ)
  | resolve (token : Points) (now : ℤ)

/-- A hash of a password that an event derives. -/
def AuthEvent.derives : AuthEvent → Option Points
  | .advance _ env => env.newPhc
  | .provision _ _ _ newPhc _ => newPhc
  | _ => none

/-- The store and the attempts, with the hashes that have been derived, and the local sessions that
were there when their principal, its credential or its password was disabled or replaced. -/
structure AuthSystem where
  store : AuthStore
  attempts : List Attempt := []
  derived : List Points
  ended : List Points := []

/-- The local sessions of a principal. -/
def localSessionsOf (s : AuthStore) (principalId : Points) : List Points :=
  (s.localSessions.select fun _ row => row.principalId = principalId).map Prod.fst

/-- A change by an administrator: the store, and the principal that it disables or whose password it
replaces or disables. -/
def administer (g : Gateway) (s : AuthStore) : AuthEvent → Option (AuthStore × Option Points)
  | .provision subject loginEmail password newPhc now =>
    (provisionLocalPassword g s subject loginEmail password newPhc now).toOption.map fun r =>
      (r.1, some r.2.1)
  | .unlock subject now =>
    (unlockLocalPassword g s subject now).toOption.map fun r => (r.1, none)
  | .setPasswordDisabled subject disabled now =>
    (setLocalPasswordDisabled g s subject disabled now).toOption.map fun r =>
      (r.1, if disabled then some r.2.1 else none)
  | .setPrincipalDisabled principalId disabled now =>
    (setPrincipalDisabled s principalId disabled now).toOption.map fun r =>
      (r.1, if disabled then some r.2.1 else none)
  | _ => none

/-- The store and the attempts after an event, and the principal whose sessions it ends. -/
def perform (g : Gateway) (s : AuthSystem) :
    AuthEvent → AuthStore × List Attempt × Option Points
  | .start loginEmail password source now =>
    (s.store, s.attempts ++ [beginAttempt g loginEmail password source now], none)
  | .advance i env =>
    match s.attempts[i]? with
    | none => (s.store, s.attempts, none)
    | some a =>
      ((advance g s.store a env).1,
        s.attempts.set i { a with phase := (advance g s.store a env).2 }, none)
  | .resolve token now => ((resolveSession g s.store token now).1, s.attempts, none)
  | e =>
    match administer g s.store e with
    | none => (s.store, s.attempts, none)
    | some (store, pid) => (store, s.attempts, pid)

def step (g : Gateway) (s : AuthSystem) (e : AuthEvent) : AuthSystem :=
  let (store, attempts, ends) := perform g s e
  { store
    attempts
    derived := e.derives.toList ++ s.derived
    ended := ends.toList.flatMap (localSessionsOf store) ++ s.ended }

/-! ## What is to hold -/

/-- A hash is derived with new salt. -/
def Fresh (s : AuthSystem) (e : AuthEvent) : Prop :=
  ∀ phc, e.derives = some phc → phc ∉ s.derived

/-- An attempt is let in for a principal under no lock, with the password that the credential has
had since the attempt read it, and neither the credential nor the principal is disabled. -/
structure Admits (g : Gateway) (s : AuthStore) (r : LoginRequest) (now : ℤ)
    (credential : Option (Points × Credential × Principal)) (pid : Points) (c : Credential)
    (p : Principal) : Prop where
  current : localCredential g s r.email = some (pid, c, p)
  unchanged : ∃ c₀ p₀, credential = some (pid, c₀, p₀) ∧ c.passwordPhc = c₀.passwordPhc ∧
    c.passwordVersion = c₀.passwordVersion
  password : g.passwordMatches r.password c.passwordPhc = true
  enabled : c.disabledAt = none
  principal : p.disabledAt = none
  account : throttleLocked c.lockedUntil now = false
  source : throttleLocked (sourceLockedUntil s r.sourceHash) now = false

/-- A new local session comes from an attempt that is let in for its principal. -/
def Guarded (g : Gateway) (s : AuthSystem) (e : AuthEvent) : Prop :=
  ∀ hash row, (step g s e).store.localSessions.get? hash = some row →
    s.store.localSessions.get? hash = none →
      ∃ i env a now credential verified c p, e = .advance i env ∧ s.attempts[i]? = some a ∧
        a.phase = .checked now credential verified ∧
        Admits g s.store a.request now credential row.principalId c p

/-- No session that was ended is resolved as a local session. -/
def Ended (g : Gateway) (s : AuthSystem) : Prop :=
  ∀ token now r, g.hashSecret token ∈ s.ended →
    (resolveSession g s.store token now).2 = some r → r.authMethod = .oidc

/-- The locks that are in force last as long as before, or longer. -/
structure LocksKept (s s' : AuthStore) (now : ℤ) : Prop where
  account : ∀ pid c lock, s.credentials.get? pid = some c → c.lockedUntil = some lock →
    now < lock → ∃ c' lock', s'.credentials.get? pid = some c' ∧ c'.lockedUntil = some lock' ∧
      lock ≤ lock'
  source : ∀ hash r lock, s.sourceAttempts.get? hash = some r → r.lockedUntil = some lock →
    now < lock → ∃ r' lock', s'.sourceAttempts.get? hash = some r' ∧
      r'.lockedUntil = some lock' ∧ lock ≤ lock'

/-- An event is the transaction of an attempt that is refused. -/
def Refuses (g : Gateway) (s : AuthSystem) (e : AuthEvent) (r : LoginRequest) (now : ℤ)
    (account : Option (Points × Credential)) : Prop :=
  ∃ i env a credential verified, e = .advance i env ∧ s.attempts[i]? = some a ∧ a.request = r ∧
    a.phase = .checked now credential verified ∧
    allowed g s.store r now credential (localCredential g s.store r.email) verified = false ∧
    account = failingAccount credential (localCredential g s.store r.email)

/-- A recorded failure keeps the locks that are in force at the reading of the attempt. -/
def KeepsLocks (g : Gateway) (s : AuthSystem) (e : AuthEvent) : Prop :=
  ∀ r now account, Refuses g s e r now account → LocksKept s.store (step g s e).store now

/-- How many sources come after one, once a failure is counted. -/
def laterSources (s : AuthStore) (sourceHash : Points) (now : ℤ) (hash : Points) : ℕ :=
  match (countedSources s sourceHash now).get? hash with
  | none => 0
  | some r => (Eviction.after failedBefore (countedSources s sourceHash now).entries
      (hash, r)).length

/-- A reading of the clock is not too early for the locks that are in force, nor after the window of
the source, and the sources whose locks are in force are among those that are kept. -/
structure InTime (s : AuthStore) (sourceHash : Points) (now : ℤ)
    (account : Option (Points × Credential)) : Prop where
  account : ∀ pid c lock, account = some (pid, c) → c.lockedUntil = some lock → now < lock →
    ∃ t, c.lastFailedAt = some t ∧ t ≠ 0 ∧
      t - now ≤ lockSeconds (c.failedAttempts + 1) - lockSeconds c.failedAttempts
  source : ∀ r lock, s.sourceAttempts.get? sourceHash = some r → r.lockedUntil = some lock →
    now < lock → now - r.windowStarted ≤ localFailureWindow ∧ r.lastFailedAt ≤ now
  room : ∀ hash r lock, s.sourceAttempts.get? hash = some r → r.lockedUntil = some lock →
    now < lock → laterSources s sourceHash now hash < localThrottleMaxSources

/-- So it is when an attempt is refused. -/
def Unraced (g : Gateway) (s : AuthSystem) (e : AuthEvent) : Prop :=
  ∀ r now account, Refuses g s e r now account → InTime s.store r.sourceHash now account

/-! ## Locks -/

/-- A lock is counted from the last failure. -/
def Credential.LockSound (c : Credential) : Prop :=
  ∀ lock, c.lockedUntil = some lock → localAccountMaxFailures ≤ c.failedAttempts ∧
    ∃ t, c.lastFailedAt = some t ∧ lock = t + lockSeconds c.failedAttempts

def SourceAttempts.LockSound (r : SourceAttempts) : Prop :=
  ∀ lock, r.lockedUntil = some lock → localSourceMaxFailures ≤ r.failedAttempts ∧
    lock = r.lastFailedAt + localSourceLock

theorem lockSeconds_le (failures : ℕ) : lockSeconds failures ≤ localFailureWindow :=
  min_le_left _ _

theorem lockSound_of_none {c : Credential} (h : c.lockedUntil = none) : c.LockSound := by
  intro lock hlock
  simp [h] at hlock

theorem lockedUntil_failedCredential (now : ℤ) (c : Credential) :
    (failedCredential now c).lockedUntil =
      if localAccountMaxFailures ≤ (failedCredential now c).failedAttempts then
        some (now + lockSeconds (failedCredential now c).failedAttempts)
      else none := rfl

theorem lockedUntil_failedSource (row : Option SourceAttempts) (now : ℤ) :
    (failedSource row now).lockedUntil =
      if localSourceMaxFailures ≤ (failedSource row now).failedAttempts then
        some (now + localSourceLock)
      else none := rfl

theorem lockSound_failedCredential (now : ℤ) (c : Credential) :
    (failedCredential now c).LockSound := by
  intro lock hlock
  rw [lockedUntil_failedCredential] at hlock
  split at hlock
  · rename_i hmany
    exact ⟨hmany, now, rfl, (Option.some.inj hlock).symm⟩
  · simp at hlock

theorem lockSound_failedSource (row : Option SourceAttempts) (now : ℤ) :
    (failedSource row now).LockSound := by
  intro lock hlock
  rw [lockedUntil_failedSource] at hlock
  split at hlock
  · rename_i hmany
    exact ⟨hmany, (Option.some.inj hlock).symm⟩
  · simp at hlock

/-- The lock of an account with one more failure. -/
theorem failedCredential_keeps_iff {c : Credential} (hc : c.LockSound) {now lock : ℤ}
    (hlock : c.lockedUntil = some lock) (hforce : now < lock) :
    (∃ lock', (failedCredential now c).lockedUntil = some lock' ∧ lock ≤ lock') ↔
      ∃ t, c.lastFailedAt = some t ∧ t ≠ 0 ∧
        t - now ≤ lockSeconds (c.failedAttempts + 1) - lockSeconds c.failedAttempts := by
  obtain ⟨hmany, t, hfailed, rfl⟩ := hc lock hlock
  have hwindow : ¬localFailureWindow < now - t := by
    have hlong := lockSeconds_le c.failedAttempts
    omega
  have hmore : localAccountMaxFailures ≤ c.failedAttempts + 1 := by omega
  by_cases hzero : t = 0
  · -- a failure at the instant 0 counts as none
    simp [failedCredential, hfailed, hzero, localAccountMaxFailures]
  · have hcount : ¬(t = 0 ∨ localFailureWindow < now - t) := by simp [hzero, hwindow]
    simp only [failedCredential, hfailed, Option.getD_some, if_neg hcount, if_pos hmore,
      Option.some.injEq, exists_eq_left']
    constructor
    · intro hkept
      exact ⟨hzero, by omega⟩
    · rintro ⟨-, hearly⟩
      omega

/-- The lock of a source with one more failure. -/
theorem failedSource_keeps_iff {r : SourceAttempts} (hr : r.LockSound) {now lock : ℤ}
    (hlock : r.lockedUntil = some lock) :
    (∃ lock', (failedSource (some r) now).lockedUntil = some lock' ∧ lock ≤ lock') ↔
      now - r.windowStarted ≤ localFailureWindow ∧ r.lastFailedAt ≤ now := by
  obtain ⟨hmany, rfl⟩ := hr lock hlock
  have hmore : localSourceMaxFailures ≤ r.failedAttempts + 1 := by omega
  by_cases hwindow : localFailureWindow < now - r.windowStarted
  · have hlate : ¬now - r.windowStarted ≤ localFailureWindow := by omega
    simp [failedSource, hwindow, localSourceMaxFailures, hlate]
  · simp only [failedSource, if_neg hwindow, if_pos hmore, Option.some.injEq, exists_eq_left']
    omega

/-! ## Which sources go -/

theorem failedBefore_total : Std.Total failedBefore := by
  refine ⟨fun a b => ?_⟩
  rcases lt_trichotomy a.2.lastFailedAt b.2.lastFailedAt with h | h | h
  · exact Or.inl (Or.inl h)
  · rcases le_total a.1 b.1 with hle | hle
    · exact Or.inl (Or.inr ⟨h, hle⟩)
    · exact Or.inr (Or.inr ⟨h.symm, hle⟩)
  · exact Or.inr (Or.inl h)

theorem failedBefore_trans : IsTrans (Points × SourceAttempts) failedBefore := by
  refine ⟨fun a b c hab hbc => ?_⟩
  rcases hab with hab | ⟨hab, hle⟩
  · rcases hbc with hbc | ⟨hbc, -⟩
    · exact Or.inl (hab.trans hbc)
    · exact Or.inl (hbc ▸ hab)
  · rcases hbc with hbc | ⟨hbc, hle'⟩
    · exact Or.inl (hab ▸ hbc)
    · exact Or.inr ⟨hab.trans hbc, le_trans hle hle'⟩

theorem fst_eq_of_failedBefore {a b : Points × SourceAttempts} (hab : failedBefore a b)
    (hba : failedBefore b a) : a.1 = b.1 := by
  rcases hab with hab | ⟨hab, hle⟩
  · rcases hba with hba | ⟨hba, -⟩ <;> omega
  · rcases hba with hba | ⟨-, hle'⟩
    · omega
    · exact le_antisymm hle hle'

section Sources

variable {s : AuthStore} {sourceHash hash : Points} {now lock : ℤ} {r : SourceAttempts}

theorem get?_countedSources :
    (countedSources s sourceHash now).get? hash =
      if hash = sourceHash then
        some (failedSource (s.sourceAttempts.get? sourceHash) now)
      else s.sourceAttempts.get? hash := by
  rw [countedSources, Table.get?_put]

/-- Of the sources that are kept, one goes exactly when as many as are kept come after it. -/
theorem mem_excessSources_iff {sources : Table Points SourceAttempts}
    (hr : sources.get? hash = some r) :
    hash ∈ excessSources sources ↔
      localThrottleMaxSources ≤ (Eviction.after failedBefore sources.entries (hash, r)).length := by
  have htotal := failedBefore_total
  have htrans := failedBefore_trans
  have hmem := Table.mem_of_get? hr
  have hunique : ∀ b ∈ sources.entries, failedBefore (hash, r) b → failedBefore b (hash, r) →
      b = (hash, r) := by
    rintro ⟨hash', r'⟩ hb hab hba
    obtain rfl : hash = hash' := fst_eq_of_failedBefore hab hba
    rw [Option.some.inj ((Table.get?_of_mem hb).symm.trans hr)]
  rw [← Eviction.mem_evicted_iff (List.Nodup.of_map _ sources.nodup) hmem hunique, excessSources,
    List.mem_map]
  constructor
  · rintro ⟨⟨hash', r'⟩, hgoes, rfl⟩
    have hin : (hash', r') ∈ sources.entries :=
      (List.perm_insertionSort failedBefore sources.entries).subset (List.mem_of_mem_take hgoes)
    obtain rfl := Option.some.inj ((Table.get?_of_mem hin).symm.trans hr)
    exact hgoes
  · exact fun hgoes => ⟨(hash, r), hgoes, rfl⟩

/-- A source that has failed for long comes before one that has failed lately. -/
theorem length_after_recentSources (sources : Table Points SourceAttempts)
    (hlate : now - localThrottleRetention ≤ r.lastFailedAt) :
    (Eviction.after failedBefore (recentSources sources now).entries (hash, r)).length =
      (Eviction.after failedBefore sources.entries (hash, r)).length := by
  simp only [Eviction.after, recentSources, Table.delete, List.filter_filter]
  congr 1
  refine List.filter_congr fun e _ => ?_
  by_cases hold : e.2.lastFailedAt < now - localThrottleRetention
  · have hearlier : e.2.lastFailedAt < r.lastFailedAt := by omega
    have hbefore : failedBefore e (hash, r) := Or.inl hearlier
    simp [hbefore]
  · simp [hold]

/-- A source that is locked, or that fails now, is kept when it has room. -/
theorem get?_recordSourceFailure (hr : (countedSources s sourceHash now).get? hash = some r)
    (hlate : now - localThrottleRetention ≤ r.lastFailedAt) :
    (recordSourceFailure s sourceHash now).sourceAttempts.get? hash =
      if laterSources s sourceHash now hash < localThrottleMaxSources then some r else none := by
  have hrecent : (recentSources (countedSources s sourceHash now) now).get? hash = some r :=
    Table.get?_delete_eq_some.mpr ⟨hr, by simpa using hlate⟩
  have hexcess := mem_excessSources_iff hrecent
  rw [length_after_recentSources _ hlate] at hexcess
  have hlater : laterSources s sourceHash now hash = (Eviction.after failedBefore
      (countedSources s sourceHash now).entries (hash, r)).length := by
    rw [laterSources, hr]
  rw [hlater, recordSourceFailure, Table.get?_delete, hrecent]
  by_cases hgoes : hash ∈ excessSources (recentSources (countedSources s sourceHash now) now)
  · rw [if_neg (not_lt.mpr (hexcess.mp hgoes))]
    simp [hgoes]
  · rw [if_pos (not_le.mp fun h => hgoes (hexcess.mpr h))]
    simp [hgoes]

end Sources

/-! ## A recorded failure -/

/-- Every lock is counted from the failure that it was written for. -/
structure LocksSound (s : AuthStore) : Prop where
  account : ∀ pid c, s.credentials.get? pid = some c → c.LockSound
  source : ∀ hash r, s.sourceAttempts.get? hash = some r → r.LockSound

section Failures

variable {s : AuthStore} {sourceHash hash pid : Points} {now lock : ℤ} {r : SourceAttempts}
  {c : Credential} {account : Option (Points × Credential)}

theorem credentials_recordFailures :
    (recordFailures s sourceHash now account).credentials.get? pid =
      (s.credentials.get? pid).map fun c =>
        if account.map Prod.fst = some pid then failedCredential now c else c := by
  rcases account with _ | ⟨failing, c⟩
  · simp [recordFailures, recordSourceFailure]
  · have hsame : failing = pid ↔ pid = failing := eq_comm
    simp [recordFailures, recordSourceFailure, recordAccountFailure, Table.get?_update, hsame]

theorem sourceAttempts_recordFailures :
    (recordFailures s sourceHash now account).sourceAttempts =
      (recordSourceFailure s sourceHash now).sourceAttempts := by
  rcases account with _ | ⟨failing, c⟩ <;> rfl

/-- A lock in force was written lately. -/
theorem lastFailedAt_of_locked (hr : r.LockSound) (hlock : r.lockedUntil = some lock)
    (hforce : now < lock) : now - localThrottleRetention ≤ r.lastFailedAt := by
  obtain ⟨-, rfl⟩ := hr lock hlock
  have hday : localSourceLock ≤ localThrottleRetention := by decide
  omega

/-- A failure keeps the lock of its source when the reading is in time, and there is room. -/
theorem own_source_kept_iff (hs : LocksSound s) (hr : s.sourceAttempts.get? sourceHash = some r)
    (hlock : r.lockedUntil = some lock) :
    (∃ r' lock', (recordSourceFailure s sourceHash now).sourceAttempts.get? sourceHash = some r' ∧
        r'.lockedUntil = some lock' ∧ lock ≤ lock') ↔
      (now - r.windowStarted ≤ localFailureWindow ∧ r.lastFailedAt ≤ now) ∧
        laterSources s sourceHash now sourceHash < localThrottleMaxSources := by
  have hcounted : (countedSources s sourceHash now).get? sourceHash =
      some (failedSource (some r) now) := by
    rw [get?_countedSources, if_pos rfl, hr]
  have hlate : now - localThrottleRetention ≤ (failedSource (some r) now).lastFailedAt := by
    have hday : 0 ≤ localThrottleRetention := by decide
    change now - localThrottleRetention ≤ now
    omega
  rw [get?_recordSourceFailure hcounted hlate,
    ← failedSource_keeps_iff (hs.source sourceHash r hr) hlock]
  split
  · rename_i hroom
    simp [hroom]
  · rename_i hroom
    simp [hroom]

theorem other_source_kept_iff (hs : LocksSound s) (hne : hash ≠ sourceHash)
    (hr : s.sourceAttempts.get? hash = some r) (hlock : r.lockedUntil = some lock)
    (hforce : now < lock) :
    (∃ r' lock', (recordSourceFailure s sourceHash now).sourceAttempts.get? hash = some r' ∧
        r'.lockedUntil = some lock' ∧ lock ≤ lock') ↔
      laterSources s sourceHash now hash < localThrottleMaxSources := by
  have hcounted : (countedSources s sourceHash now).get? hash = some r := by
    rw [get?_countedSources, if_neg hne, hr]
  rw [get?_recordSourceFailure hcounted
    (lastFailedAt_of_locked (hs.source hash r hr) hlock hforce)]
  split
  · rename_i hroom
    simp [hroom, hlock]
  · rename_i hroom
    simp [hroom]

/-- A recorded failure keeps the locks in force exactly when its reading is in time. -/
theorem locksKept_recordFailures_iff (hs : LocksSound s)
    (haccount : ∀ pid c, account = some (pid, c) → s.credentials.get? pid = some c) :
    LocksKept s (recordFailures s sourceHash now account) now ↔
      InTime s sourceHash now account := by
  constructor
  · intro hkept
    have hsource := hkept.source
    rw [sourceAttempts_recordFailures] at hsource
    refine ⟨fun pid c lock hpid hlock hforce => ?_, fun r lock hr hlock hforce => ?_,
      fun hash r lock hr hlock hforce => ?_⟩
    · have hc := haccount pid c hpid
      obtain ⟨c', lock', hc', hlock', hle⟩ := hkept.account pid c lock hc hlock hforce
      rw [credentials_recordFailures, hc, hpid] at hc'
      obtain rfl : failedCredential now c = c' := by simpa using hc'
      exact (failedCredential_keeps_iff (hs.account pid c hc) hlock hforce).mp ⟨lock', hlock', hle⟩
    · exact ((own_source_kept_iff hs hr hlock).mp (hsource sourceHash r lock hr hlock hforce)).1
    · have hrow := hsource hash r lock hr hlock hforce
      by_cases hown : hash = sourceHash
      · subst hown
        exact ((own_source_kept_iff hs hr hlock).mp hrow).2
      · exact (other_source_kept_iff hs hown hr hlock hforce).mp hrow
  · intro hintime
    refine ⟨fun pid c lock hc hlock hforce => ?_, ?_⟩
    · by_cases hpid : account.map Prod.fst = some pid
      · obtain ⟨⟨failing, c₀⟩, rfl, rfl⟩ := Option.map_eq_some_iff.mp hpid
        obtain rfl := Option.some.inj (hc.symm.trans (haccount failing c₀ rfl))
        obtain ⟨lock', hlock', hle⟩ :=
          (failedCredential_keeps_iff (hs.account failing c hc) hlock hforce).mpr
            (hintime.account failing c lock rfl hlock hforce)
        refine ⟨failedCredential now c, lock', ?_, hlock', hle⟩
        rw [credentials_recordFailures, hc]
        simp
      · refine ⟨c, lock, ?_, hlock, le_rfl⟩
        rw [credentials_recordFailures, hc]
        simp [hpid]
    · rw [sourceAttempts_recordFailures]
      intro hash r lock hr hlock hforce
      have hroom := hintime.room hash r lock hr hlock hforce
      by_cases hown : hash = sourceHash
      · subst hown
        exact (own_source_kept_iff hs hr hlock).mpr
          ⟨hintime.source r lock hr hlock hforce, hroom⟩
      · exact (other_source_kept_iff hs hown hr hlock hforce).mpr hroom

end Failures

/-! ## What a step does to the tables -/

/-- Every hash of a password is the old one under its old version, but for one that is new. -/
def Rehashed (old new : Table Points Credential) (phc : Option Points) : Prop :=
  ∃ owner, ∀ pid c', new.get? pid = some c' →
    (∃ c, old.get? pid = some c ∧ c'.passwordPhc = c.passwordPhc ∧
      c'.passwordVersion = c.passwordVersion) ∨ (pid = owner ∧ phc = some c'.passwordPhc)

/-- Sessions stay, with their principals, and revoked ones stay revoked. -/
def SessionsStay (old new : Table Points Session) : Prop :=
  ∀ hash row, old.get? hash = some row → ∃ row', new.get? hash = some row' ∧
    row'.principalId = row.principalId ∧ (row.revokedAt ≠ none → row'.revokedAt ≠ none)

/-- What every step keeps. -/
structure Follows (s s' : AuthStore) (phc : Option Points) : Prop where
  rehashed : Rehashed s.credentials s'.credentials phc
  sessions : SessionsStay s.localSessions s'.localSessions
  locks : LocksSound s → LocksSound s'

section Follows

variable {g : Gateway} {s s' : AuthStore} {pid : Points} {now : ℤ} {phc : Option Points}

theorem rehashed_refl (t : Table Points Credential) (phc : Option Points) : Rehashed t t phc :=
  ⟨[], fun _ c hc => Or.inl ⟨c, hc, rfl, rfl⟩⟩

theorem sessionsStay_refl (t : Table Points Session) : SessionsStay t t :=
  fun _ row hrow => ⟨row, hrow, rfl, id⟩

theorem follows_refl (s : AuthStore) (phc : Option Points) : Follows s s phc :=
  ⟨rehashed_refl _ phc, sessionsStay_refl _, id⟩

variable {account : Option (Points × Credential)} {f : Points → Credential → Credential}
  {p : Points → Credential → Bool} {session : NewSession} {t : Table Points Session}
  {hash sourceHash subject token verified : Points} {r : Points × Principal} {row : Session}
  {env : StepEnv} {disabled : Bool}

theorem rehashed_update {t : Table Points Credential} (phc : Option Points)
    (hf : ∀ pid c, (f pid c).passwordPhc = c.passwordPhc ∧ (f pid c).passwordVersion = c.passwordVersion)
    :
    Rehashed t (t.update p f) phc := by
  refine ⟨[], fun pid c' hc' => Or.inl ?_⟩
  obtain ⟨c, hc, rfl⟩ := Table.get?_update_eq_some.mp hc'
  refine ⟨c, hc, ?_⟩
  split
  · exact hf pid c
  · exact ⟨rfl, rfl⟩

theorem sessionsStay_update {p : Points → Session → Bool} {f : Points → Session → Session}
    (hf : ∀ hash row, (f hash row).principalId = row.principalId ∧
      (row.revokedAt ≠ none → (f hash row).revokedAt ≠ none)) : SessionsStay t (t.update p f) := by
  intro hash row hrow
  refine ⟨if p hash row then f hash row else row, ?_, ?_⟩
  · rw [Table.get?_update, hrow, Option.map_some]
  · split
    · exact hf hash row
    · exact ⟨rfl, id⟩

theorem sessionsStay_insert {t' : Table Points Session} (h : t.insert? hash row = some t') :
    SessionsStay t t' := by
  intro other row' hrow'
  refine ⟨row', ?_, rfl, id⟩
  obtain ⟨habsent, -⟩ := Table.insert?_eq_some h
  rw [Table.get?_insert h, if_neg, hrow']
  rintro rfl
  rw [habsent] at hrow'
  simp at hrow'

theorem sessionsStay_revoke (s : AuthStore) (pid : Points) (now : ℤ) :
    SessionsStay s.localSessions (revokeLocalSessions s pid now).localSessions :=
  sessionsStay_update fun _ _ => ⟨rfl, fun _ => by simp⟩

theorem LocksSound.update (hs : LocksSound s) (hf : ∀ pid c, c.LockSound → (f pid c).LockSound)
    (hcredentials : s'.credentials = s.credentials.update p f)
    (hsources : s'.sourceAttempts = s.sourceAttempts) : LocksSound s' := by
  refine ⟨fun pid c' hc' => ?_, fun hash r hr => hs.source hash r (by rwa [← hsources])⟩
  rw [hcredentials] at hc'
  obtain ⟨c, hc, rfl⟩ := Table.get?_update_eq_some.mp hc'
  split
  · exact hf pid c (hs.account pid c hc)
  · exact hs.account pid c hc

theorem LocksSound.of_eq (hs : LocksSound s) (hcredentials : s'.credentials = s.credentials)
    (hsources : s'.sourceAttempts = s.sourceAttempts) : LocksSound s' :=
  ⟨fun pid c hc => hs.account pid c (by rwa [← hcredentials]),
    fun hash r hr => hs.source hash r (by rwa [← hsources])⟩

/-- A change of the credentials that leaves their hashes. -/
theorem follows_update (hcredentials : s'.credentials = s.credentials.update p f)
    (hsources : s'.sourceAttempts = s.sourceAttempts)
    (hsessions : SessionsStay s.localSessions s'.localSessions)
    (hf : ∀ pid c, (f pid c).passwordPhc = c.passwordPhc ∧ (f pid c).passwordVersion = c.passwordVersion ∧ (c.LockSound → (f pid c).LockSound))
    :
    Follows s s' phc := by
  refine ⟨?_, hsessions, fun hs => hs.update (fun pid c => (hf pid c).2.2) hcredentials hsources⟩
  rw [hcredentials]
  exact rehashed_update phc fun pid c => ⟨(hf pid c).1, (hf pid c).2.1⟩

theorem locksSound_recordFailures (hs : LocksSound s) :
    LocksSound (recordFailures s sourceHash now account) := by
  refine ⟨fun pid c' hc' => ?_, fun hash r hr => ?_⟩
  · rw [credentials_recordFailures] at hc'
    obtain ⟨c, hc, rfl⟩ := Option.map_eq_some_iff.mp hc'
    split
    · exact lockSound_failedCredential now c
    · exact hs.account pid c hc
  · rw [sourceAttempts_recordFailures] at hr
    simp only [recordSourceFailure, Table.get?_delete_eq_some, recentSources] at hr
    obtain ⟨⟨hcounted, -⟩, -⟩ := hr
    rw [get?_countedSources] at hcounted
    split at hcounted
    · obtain rfl := Option.some.inj hcounted
      exact lockSound_failedSource _ now
    · exact hs.source hash r hcounted

theorem localSessions_recordFailures :
    (recordFailures s sourceHash now account).localSessions = s.localSessions := by
  rcases account with _ | ⟨pid, c⟩ <;> rfl

theorem follows_recordFailures : Follows s (recordFailures s sourceHash now account) phc := by
  refine ⟨⟨[], fun pid c' hc' => Or.inl ?_⟩, ?_, fun hs => locksSound_recordFailures hs⟩
  · rw [credentials_recordFailures] at hc'
    obtain ⟨c, hc, rfl⟩ := Option.map_eq_some_iff.mp hc'
    refine ⟨c, hc, ?_⟩
    split <;> exact ⟨rfl, rfl⟩
  · rw [localSessions_recordFailures]
    exact sessionsStay_refl _

/-! ## Logging in -/

theorem createLocalSession_eq_ok {csrfToken : Points}
    (h : createLocalSession g s pid token csrfToken now = .ok (s', session)) :
    ∃ row localSessions, row.principalId = pid ∧
      s.localSessions.insert? (g.hashSecret token) row = some localSessions ∧
      s' = { s with localSessions } := by
  unfold createLocalSession at h
  split at h
  · simp at h
  · split at h
    · simp at h
    · dsimp only at h
      split at h
      · simp at h
      · rename_i localSessions hinsert
        exact ⟨_, localSessions, rfl, hinsert, (Prod.mk.inj (Except.ok.inj h)).1.symm⟩

theorem passwordPhc_succeededCredential (now : ℤ) (newPhc : Option Points) (c : Credential) :
    ((succeededCredential now newPhc c).passwordPhc = c.passwordPhc ∧
      (succeededCredential now newPhc c).passwordVersion = c.passwordVersion) ∨
      newPhc = some (succeededCredential now newPhc c).passwordPhc := by
  rcases newPhc with _ | phc
  · exact Or.inl ⟨rfl, rfl⟩
  · exact Or.inr rfl

/-- The tables after an attempt has been let in. -/
theorem logIn_eq_ok (h : logIn g s pid verified now env = .ok (s', session)) :
    ∃ newPhc row localSessions, (newPhc = none ∨ newPhc = env.newPhc) ∧ row.principalId = pid ∧
      s.localSessions.insert? (g.hashSecret env.token) row = some localSessions ∧
      s' = { s with
        localSessions
        credentials := s.credentials.update (fun other _ => other = pid) fun _ c =>
          succeededCredential now newPhc c } := by
  unfold logIn at h
  dsimp only at h
  split at h
  · simp at h
  · obtain ⟨row, localSessions, hrow, hinsert, rfl⟩ := createLocalSession_eq_ok h
    refine ⟨_, row, localSessions, ?_, hrow, hinsert, rfl⟩
    split
    · exact Or.inr rfl
    · exact Or.inl rfl

theorem follows_logIn (h : logIn g s pid verified now env = .ok (s', session)) :
    Follows s s' env.newPhc := by
  obtain ⟨newPhc, row, localSessions, hnew, -, hinsert, rfl⟩ := logIn_eq_ok h
  refine ⟨⟨pid, fun other c' hc' => ?_⟩, sessionsStay_insert hinsert, fun hs => ?_⟩
  · obtain ⟨c, hc, rfl⟩ := Table.get?_update_eq_some.mp hc'
    split
    · rename_i hother
      rcases passwordPhc_succeededCredential now newPhc c with hsame | hphc
      · exact Or.inl ⟨c, hc, hsame⟩
      · refine Or.inr ⟨by simpa using hother, ?_⟩
        rcases hnew with rfl | rfl
        · simp at hphc
        · exact hphc
    · exact Or.inl ⟨c, hc, rfl, rfl⟩
  · refine ⟨fun other c' hc' => ?_, hs.source⟩
    obtain ⟨c, hc, rfl⟩ := Table.get?_update_eq_some.mp hc'
    split
    · exact lockSound_of_none rfl
    · exact hs.account other c hc

/-- A transaction of an attempt leaves the store, records a failure, or lets the attempt in. -/
theorem authenticate_cases (g : Gateway) (s : AuthStore) (r : LoginRequest) (now : ℤ)
    (credential : Option (Points × Credential × Principal)) (verified : Bool) (env : StepEnv) :
    (∃ e, authenticate g s r now credential verified env = (s, .error e) ∧
        allowed g s r now credential (localCredential g s r.email) verified = true) ∨
      (authenticate g s r now credential verified env =
          (recordFailures s r.sourceHash now
            (failingAccount credential (localCredential g s r.email)), .error .signInFailed) ∧
        allowed g s r now credential (localCredential g s r.email) verified = false) ∨
      ∃ pid c p s' session, localCredential g s r.email = some (pid, c, p) ∧
        allowed g s r now credential (some (pid, c, p)) verified = true ∧
        logIn g s pid (verifiedPhc g credential) now env = .ok (s', session) ∧
        authenticate g s r now credential verified env = (s', .ok session) := by
  unfold authenticate
  dsimp only
  cases hallowed : allowed g s r now credential (localCredential g s r.email) verified with
  | false => exact Or.inr (Or.inl ⟨by simp, rfl⟩)
  | true =>
    rw [if_pos rfl]
    rcases hcurrent : localCredential g s r.email with _ | ⟨pid, c, p⟩
    · exact Or.inl ⟨_, rfl, rfl⟩
    · dsimp only
      rcases hlogin : logIn g s pid (verifiedPhc g credential) now env with e | ⟨s', session⟩
      · exact Or.inl ⟨e, rfl, rfl⟩
      · exact Or.inr (Or.inr ⟨pid, c, p, s', session, rfl, by rw [← hcurrent, hallowed], hlogin,
          rfl⟩)

theorem follows_authenticate (r : LoginRequest)
    (credential : Option (Points × Credential × Principal)) (verified : Bool) (env : StepEnv) :
    Follows s (authenticate g s r now credential verified env).1 env.newPhc := by
  rcases authenticate_cases g s r now credential verified env with
    ⟨e, h, -⟩ | ⟨h, -⟩ | ⟨pid, c, p, s', session, -, -, hlogin, h⟩
  · rw [h]
    exact follows_refl s _
  · rw [h]
    exact follows_recordFailures
  · rw [h]
    exact follows_logIn hlogin

theorem follows_advance (a : Attempt) (env : StepEnv) :
    Follows s (advance g s a env).1 env.newPhc := by
  unfold advance
  split
  · exact follows_refl s _
  · split <;> exact follows_refl s _
  · split <;> exact follows_refl s _
  · exact follows_authenticate _ _ _ _
  · exact follows_refl s _

/-! ## Administration -/

theorem absent_update (p : Points → Session → Bool) (f : Points → Session → Session)
    (h : t.get? hash = none) : (t.update p f).get? hash = none := by
  rw [Table.get?_update, h, Option.map_none]

/-- A local session of a principal whose sessions are revoked is revoked. -/
theorem revoked_revokeLocalSessions (h : hash ∈ localSessionsOf (revokeLocalSessions s pid now) pid) :
    ∃ row, (revokeLocalSessions s pid now).localSessions.get? hash = some row ∧
      row.revokedAt ≠ none := by
  obtain ⟨⟨hash', row⟩, hrow, rfl⟩ := List.mem_map.mp h
  obtain ⟨hget, hpid⟩ := Table.mem_select.mp hrow
  refine ⟨row, hget, ?_⟩
  obtain ⟨old, hold, rfl⟩ := Table.get?_update_eq_some.mp hget
  split
  · simp
  · rename_i hopen
    rw [if_neg hopen] at hpid
    simpa [of_decide_eq_true hpid] using hopen

/-- What a change by an administrator does. -/
structure Administers (s s' : AuthStore) (phc ends : Option Points) : Prop where
  follows : Follows s s' phc
  absent : ∀ hash, s.localSessions.get? hash = none → s'.localSessions.get? hash = none
  ended : ∀ pid hash, ends = some pid → hash ∈ localSessionsOf s' pid →
    ∃ row, s'.localSessions.get? hash = some row ∧ row.revokedAt ≠ none

theorem administers_provision {loginEmail password : Points}
    (h : provisionLocalPassword g s subject loginEmail password phc now = .ok (s', r)) :
    Administers s s' phc (some r.1) := by
  unfold provisionLocalPassword at h
  split at h
  · simp at h
  · split at h
    · rename_i phc _ _ _
      split at h
      · simp at h
      · obtain ⟨⟨pid, p⟩, -, h⟩ := Fallible.bind_eq_ok.mp h
        dsimp only at h
        split at h
        · simp at h
        · obtain ⟨rfl, rfl⟩ := Prod.mk.inj (Except.ok.inj h)
          refine ⟨⟨⟨pid, fun other c' hc' => ?_⟩, sessionsStay_revoke _ _ _, fun hs => ?_⟩,
            fun hash => absent_update _ _, fun other hash hpid hhash => ?_⟩
          · rw [revokeLocalSessions, Table.get?_put] at hc'
            split at hc'
            · obtain rfl := Option.some.inj hc'
              refine Or.inr ⟨by assumption, ?_⟩
              rcases s.credentials.get? pid with _ | c <;> rfl
            · exact Or.inl ⟨c', hc', rfl, rfl⟩
          · refine ⟨fun other c' hc' => ?_, hs.source⟩
            rw [revokeLocalSessions, Table.get?_put] at hc'
            split at hc'
            · obtain rfl := Option.some.inj hc'
              rcases s.credentials.get? pid with _ | c <;> exact lockSound_of_none rfl
            · exact hs.account other c' hc'
          · obtain rfl := Option.some.inj hpid
            exact revoked_revokeLocalSessions hhash
    · simp at h

theorem administers_unlock (h : unlockLocalPassword g s subject now = .ok (s', r)) :
    Administers s s' phc none := by
  unfold unlockLocalPassword at h
  obtain ⟨⟨pid, p⟩, -, h⟩ := Fallible.bind_eq_ok.mp h
  dsimp only at h
  split at h
  · simp at h
  · obtain ⟨rfl, rfl⟩ := Prod.mk.inj (Except.ok.inj h)
    refine ⟨?_, fun hash hnone => hnone, by simp⟩
    exact follows_update (p := fun other _ => other = pid)
      (f := fun _ c => unlockedCredential now c) rfl rfl (sessionsStay_refl _)
      fun _ _ => ⟨rfl, rfl, fun _ => lockSound_of_none rfl⟩

theorem administers_setPassword
    (h : setLocalPasswordDisabled g s subject disabled now = .ok (s', r)) :
    Administers s s' phc (if disabled then some r.1 else none) := by
  unfold setLocalPasswordDisabled at h
  obtain ⟨⟨pid, p⟩, -, h⟩ := Fallible.bind_eq_ok.mp h
  dsimp only at h
  split at h
  · simp at h
  · cases disabled with
    | false =>
      obtain ⟨rfl, rfl⟩ := Prod.mk.inj (Except.ok.inj h)
      refine ⟨?_, fun hash hnone => hnone, by simp⟩
      exact follows_update (p := fun other _ => other = pid)
        (f := fun _ c => disabledCredential false now c) rfl rfl (sessionsStay_refl _)
        fun _ _ => ⟨rfl, rfl, id⟩
    | true =>
      obtain ⟨rfl, rfl⟩ := Prod.mk.inj (Except.ok.inj h)
      refine ⟨?_, fun hash => absent_update _ _, fun other hash hpid hhash => ?_⟩
      · exact follows_update (p := fun other _ => other = pid)
          (f := fun _ c => disabledCredential true now c) rfl rfl (sessionsStay_revoke _ _ _)
          fun _ _ => ⟨rfl, rfl, id⟩
      · obtain rfl := Option.some.inj hpid
        exact revoked_revokeLocalSessions hhash

theorem administers_setPrincipal {principalId : Points}
    (h : setPrincipalDisabled s principalId disabled now = .ok (s', r)) :
    Administers s s' phc (if disabled then some r.1 else none) := by
  unfold setPrincipalDisabled at h
  dsimp only at h
  split at h
  · simp at h
  · split at h
    · simp at h
    · cases disabled with
      | false =>
        obtain ⟨rfl, rfl⟩ := Prod.mk.inj (Except.ok.inj h)
        refine ⟨⟨rehashed_refl _ _, sessionsStay_refl _, fun hs => hs.of_eq rfl rfl⟩,
          fun hash hnone => hnone, by simp⟩
      | true =>
        obtain ⟨rfl, rfl⟩ := Prod.mk.inj (Except.ok.inj h)
        refine ⟨⟨rehashed_refl _ _, sessionsStay_revoke _ _ _, fun hs => hs.of_eq rfl rfl⟩,
          fun hash => absent_update _ _, fun other hash hpid hhash => ?_⟩
        obtain rfl := Option.some.inj hpid
        exact revoked_revokeLocalSessions hhash

theorem toOption_map_eq_some {α β : Type} {x : Except AuthError α} {f : α → β} {b : β}
    (h : x.toOption.map f = some b) : ∃ a, x = .ok a ∧ f a = b := by
  rcases x with e | a
  · simp [Except.toOption] at h
  · exact ⟨a, rfl, by simpa [Except.toOption] using h⟩

theorem administers_of_eq_some {e : AuthEvent} {ends : Option Points}
    (h : administer g s e = some (s', ends)) : Administers s s' e.derives ends := by
  cases e with
  | provision =>
    obtain ⟨⟨store, r⟩, hr, heq⟩ := toOption_map_eq_some h
    obtain ⟨rfl, rfl⟩ := Prod.mk.inj heq
    exact administers_provision hr
  | unlock =>
    obtain ⟨⟨store, r⟩, hr, heq⟩ := toOption_map_eq_some h
    obtain ⟨rfl, rfl⟩ := Prod.mk.inj heq
    exact administers_unlock hr
  | setPasswordDisabled =>
    obtain ⟨⟨store, r⟩, hr, heq⟩ := toOption_map_eq_some h
    obtain ⟨rfl, rfl⟩ := Prod.mk.inj heq
    exact administers_setPassword hr
  | setPrincipalDisabled =>
    obtain ⟨⟨store, r⟩, hr, heq⟩ := toOption_map_eq_some h
    obtain ⟨rfl, rfl⟩ := Prod.mk.inj heq
    exact administers_setPrincipal hr
  | start => simp [administer] at h
  | advance => simp [administer] at h
  | resolve => simp [administer] at h

/-! ## Sessions -/

theorem resolveSession_cases (token : Points) :
    (resolveSession g s token now).1 = s ∨
      (∃ sessions, (resolveSession g s token now).1 = { s with sessions }) ∨
      (resolveSession g s token now).1 =
        { s with localSessions := seen s.localSessions (g.hashSecret token) now } := by
  unfold resolveSession
  dsimp only
  split
  · exact Or.inl rfl
  · split
    · exact Or.inr (Or.inl ⟨_, rfl⟩)
    · split
      · exact Or.inl rfl
      · split
        · exact Or.inl rfl
        · split
          · exact Or.inr (Or.inr rfl)
          · exact Or.inl rfl

theorem follows_resolveSession (token : Points) :
    Follows s (resolveSession g s token now).1 phc := by
  rcases resolveSession_cases (g := g) (s := s) token with h | ⟨sessions, h⟩ | h
  · rw [h]
    exact follows_refl s _
  · rw [h]
    exact ⟨rehashed_refl _ _, sessionsStay_refl _, fun hs => hs.of_eq rfl rfl⟩
  · rw [h]
    exact ⟨rehashed_refl _ _, sessionsStay_update fun _ _ => ⟨rfl, id⟩,
      fun hs => hs.of_eq rfl rfl⟩

theorem absent_resolveSession (token : Points) (hnone : s.localSessions.get? hash = none) :
    (resolveSession g s token now).1.localSessions.get? hash = none := by
  rcases resolveSession_cases (g := g) (s := s) token with h | ⟨sessions, h⟩ | h
  · rwa [h]
  · rwa [h]
  · rw [h]
    exact absent_update _ _ hnone

theorem openSession_eq_some {table : Table Points Session} {p : Principal}
    (h : openSession s table hash now = some (row, p)) :
    table.get? hash = some row ∧ row.revokedAt = none := by
  unfold openSession at h
  split at h
  · simp at h
  · rename_i row' hrow
    split at h
    · simp at h
    · split at h
      · rename_i hopen
        obtain ⟨rfl, -⟩ := Prod.mk.inj (Option.some.inj h)
        exact ⟨hrow, hopen.1⟩
      · simp at h

/-- What is resolved as a local session is a row that is not revoked. -/
theorem localSession_of_resolveSession {r : ResolvedSession}
    (h : (resolveSession g s token now).2 = some r) :
    r.authMethod = .oidc ∨ ∃ row, s.localSessions.get? (g.hashSecret token) = some row ∧
      row.revokedAt = none := by
  unfold resolveSession at h
  dsimp only at h
  split at h
  · simp at h
  · split at h
    · obtain rfl := Option.some.inj h
      exact Or.inl rfl
    · split at h
      · simp at h
      · split at h
        · simp at h
        · rename_i row p hopen
          exact Or.inr ⟨row, openSession_eq_some hopen⟩

end Follows

/-! ## Events, and what has been read -/

/-- The credential that an attempt has read. -/
def Phase.credential : Phase → Option (Points × Credential × Principal)
  | .begun _ | .ended _ => none
  | .read _ credential | .admitted _ credential | .checked _ credential _ => credential

/-- The credential that an attempt has read is still the row with its hash, if there is one, and the
password has been checked against it. -/
structure AttemptSound (g : Gateway) (derived : List Points) (credentials : Table Points Credential)
    (a : Attempt) : Prop where
  known : ∀ pid₀ c₀ p₀, a.phase.credential = some (pid₀, c₀, p₀) → c₀.passwordPhc ∈ derived ∧
    ∀ pid c, credentials.get? pid = some c → c.passwordPhc = c₀.passwordPhc →
      pid = pid₀ ∧ c.passwordVersion = c₀.passwordVersion
  checked : ∀ now credential verified, a.phase = .checked now credential verified →
    verified = g.passwordMatches a.request.password (verifiedPhc g credential)

/-- Every hash is derived once. -/
structure HashesSound (g : Gateway) (s : AuthSystem) : Prop where
  dummy : g.dummyPhc ∈ s.derived
  current : ∀ pid c, s.store.credentials.get? pid = some c →
    c.passwordPhc ∈ s.derived ∧ c.passwordPhc ≠ g.dummyPhc
  distinct : ∀ pid pid' c c', s.store.credentials.get? pid = some c →
    s.store.credentials.get? pid' = some c' → c.passwordPhc = c'.passwordPhc → pid = pid'
  attempts : ∀ (i : ℕ) (a : Attempt), s.attempts[i]? = some a →
    AttemptSound g s.derived s.store.credentials a

section Events

variable {g : Gateway} {s : AuthSystem} {e : AuthEvent} {pid : Points} {now : ℤ} {c : Credential}
  {p : Principal} {verified : Bool} {derived : List Points} {new old : Table Points Credential}
  {phc : Option Points} {a : Attempt}

/-- An event begins an attempt, does nothing, moves an attempt, resolves a session, or is a change
by an administrator. -/
theorem perform_cases (g : Gateway) (s : AuthSystem) (e : AuthEvent) :
    (∃ a, perform g s e = (s.store, s.attempts ++ [a], none) ∧ a.phase.credential = none ∧
        ∀ now credential verified, a.phase ≠ .checked now credential verified) ∨
      perform g s e = (s.store, s.attempts, none) ∨
      (∃ i env a, e = .advance i env ∧ s.attempts[i]? = some a ∧
        perform g s e = ((advance g s.store a env).1,
          s.attempts.set i { a with phase := (advance g s.store a env).2 }, none)) ∨
      (∃ token now, perform g s e = ((resolveSession g s.store token now).1, s.attempts, none)) ∨
      ∃ store ends, administer g s.store e = some (store, ends) ∧
        perform g s e = (store, s.attempts, ends) := by
  unfold perform
  split
  · rename_i loginEmail password source now
    refine Or.inl ⟨_, rfl, ?_⟩
    unfold beginAttempt
    dsimp only
    split <;> simp [Phase.credential]
  · rename_i i env
    split
    · exact Or.inr (Or.inl rfl)
    · rename_i a ha
      exact Or.inr (Or.inr (Or.inl ⟨i, env, a, rfl, ha, rfl⟩))
  · exact Or.inr (Or.inr (Or.inr (Or.inl ⟨_, _, rfl⟩)))
  · split
    · exact Or.inr (Or.inl rfl)
    · rename_i store ends hadminister
      exact Or.inr (Or.inr (Or.inr (Or.inr ⟨store, ends, hadminister, rfl⟩)))

theorem follows_perform (g : Gateway) (s : AuthSystem) (e : AuthEvent) :
    Follows s.store (perform g s e).1 e.derives := by
  rcases perform_cases g s e with ⟨a, h, -⟩ | h | ⟨i, env, a, rfl, -, h⟩ | ⟨token, now, h⟩ |
    ⟨store, ends, hadminister, h⟩
  · rw [h]
    exact follows_refl _ _
  · rw [h]
    exact follows_refl _ _
  · rw [h]
    exact follows_advance _ _
  · rw [h]
    exact follows_resolveSession _
  · rw [h]
    exact (administers_of_eq_some hadminister).follows

theorem store_step : (step g s e).store = (perform g s e).1 := rfl

theorem localCredential_eq_some {store : AuthStore} {email : Points}
    (h : localCredential g store email = some (pid, c, p)) :
    store.credentials.get? pid = some c := by
  obtain ⟨e, he, heq⟩ := List.exists_of_findSome?_eq_some h
  split at heq
  · split at heq
    · split at heq
      · obtain ⟨rfl, hrest⟩ := Prod.mk.inj (Option.some.inj heq)
        obtain ⟨rfl, -⟩ := Prod.mk.inj hrest
        exact Table.get?_of_mem he
      · simp at heq
    · simp at heq
  · simp at heq

/-- An attempt goes on with what it has read, and reads the credential first. -/
theorem phase_advance (store : AuthStore) (a : Attempt) (env : StepEnv)
    {known : Points × Credential × Principal}
    (h : (advance g store a env).2.credential = some known) :
    a.phase.credential = some known ∨ (localCredential g store a.request.email = some known ∧
      (advance g store a env).1 = store) := by
  unfold advance at h ⊢
  split at h
  · exact Or.inr ⟨h, rfl⟩
  · rename_i hphase
    rw [hphase]
    split at h
    · simp [Phase.credential] at h
    · exact Or.inl h
  · rename_i hphase
    rw [hphase]
    split at h
    · simp [Phase.credential] at h
    · exact Or.inl h
  · simp [Phase.credential] at h
  · simp [Phase.credential] at h

variable {credential : Option (Points × Credential × Principal)}

theorem checked_advance (store : AuthStore) (a : Attempt) (env : StepEnv)
    (h : (advance g store a env).2 = .checked now credential verified) :
    verified = g.passwordMatches a.request.password (verifiedPhc g credential) := by
  unfold advance at h
  split at h
  · simp at h
  · split at h <;> simp at h
  · split at h
    · simp at h
    · obtain ⟨-, rfl, rfl⟩ := Phase.checked.inj h
      rfl
  · simp at h
  · simp at h

theorem attemptSound_follows (hnew : Rehashed old new phc)
    (hfresh : ∀ h, phc = some h → h ∉ derived) (ha : AttemptSound g derived old a) :
    AttemptSound g (phc.toList ++ derived) new a := by
  refine ⟨fun pid₀ c₀ p₀ hread => ?_, ha.checked⟩
  obtain ⟨hderived, hold⟩ := ha.known pid₀ c₀ p₀ hread
  refine ⟨List.mem_append_right _ hderived, fun pid c' hc' hphc => ?_⟩
  obtain ⟨owner, hrows⟩ := hnew
  rcases hrows pid c' hc' with ⟨c, hc, hsame, hversion⟩ | ⟨-, hderives⟩
  · rw [hversion]
    exact hold pid c hc (hsame.symm.trans hphc)
  · exact absurd (hphc ▸ hderived) (hfresh _ hderives)

theorem hashesSound_tables (hnew : Rehashed old new phc) (hfresh : ∀ h, phc = some h → h ∉ derived)
    (hdummy : g.dummyPhc ∈ derived) (hcurrent : ∀ pid c, old.get? pid = some c →
      c.passwordPhc ∈ derived ∧ c.passwordPhc ≠ g.dummyPhc)
    (hdistinct : ∀ pid pid' c c', old.get? pid = some c → old.get? pid' = some c' →
      c.passwordPhc = c'.passwordPhc → pid = pid') :
    (∀ pid c, new.get? pid = some c →
      c.passwordPhc ∈ phc.toList ++ derived ∧ c.passwordPhc ≠ g.dummyPhc) ∧
    ∀ pid pid' c c', new.get? pid = some c → new.get? pid' = some c' →
      c.passwordPhc = c'.passwordPhc → pid = pid' := by
  obtain ⟨owner, hrows⟩ := hnew
  constructor
  · intro pid c' hc'
    rcases hrows pid c' hc' with ⟨c, hc, hsame, -⟩ | ⟨-, hderives⟩
    · rw [hsame]
      exact ⟨List.mem_append_right _ (hcurrent pid c hc).1, (hcurrent pid c hc).2⟩
    · refine ⟨by simp [hderives], fun heq => hfresh _ hderives ?_⟩
      rwa [heq]
  · intro pid₁ pid₂ c₁ c₂ hc₁ hc₂ hphc
    rcases hrows pid₁ c₁ hc₁ with ⟨d₁, hd₁, hsame₁, -⟩ | ⟨rfl, hderives₁⟩
    · rcases hrows pid₂ c₂ hc₂ with ⟨d₂, hd₂, hsame₂, -⟩ | ⟨-, hderives₂⟩
      · exact hdistinct pid₁ pid₂ d₁ d₂ hd₁ hd₂ (by rw [← hsame₁, ← hsame₂, hphc])
      · refine absurd ?_ (hfresh _ hderives₂)
        rw [← hphc, hsame₁]
        exact (hcurrent pid₁ d₁ hd₁).1
    · rcases hrows pid₂ c₂ hc₂ with ⟨d₂, hd₂, hsame₂, -⟩ | ⟨rfl, -⟩
      · refine absurd ?_ (hfresh _ hderives₁)
        rw [hphc, hsame₂]
        exact (hcurrent pid₂ d₂ hd₂).1
      · rfl

/-- Every attempt after an event is sound, once those before it are. -/
theorem attemptSound_perform (hs : HashesSound g s) (hfresh : Fresh s e) :
    ∀ (i : ℕ) (a : Attempt), (perform g s e).2.1[i]? = some a →
      AttemptSound g (e.derives.toList ++ s.derived) (perform g s e).1.credentials a := by
  have hfollows := follows_perform g s e
  have hold : ∀ (i : ℕ) (a : Attempt), s.attempts[i]? = some a →
      AttemptSound g (e.derives.toList ++ s.derived) (perform g s e).1.credentials a :=
    fun i a ha => attemptSound_follows hfollows.rehashed hfresh (hs.attempts i a ha)
  rcases perform_cases g s e with ⟨a, h, hread, hchecked⟩ | h | ⟨i, env, a, rfl, ha, h⟩ |
    ⟨token, now, h⟩ | ⟨store, ends, -, h⟩
  · rw [h] at hold ⊢
    refine Threads.forall_append hold ⟨fun pid₀ c₀ p₀ hknown => ?_, fun now c v hphase => ?_⟩
    · rw [hread] at hknown
      simp at hknown
    · exact absurd hphase (hchecked now c v)
  · rw [h] at hold ⊢
    exact hold
  · rw [h] at hold ⊢
    refine Threads.forall_set hold ⟨fun pid₀ c₀ p₀ hread => ?_, fun now c v hphase => ?_⟩
    · rcases phase_advance s.store a env hread with hread | ⟨hread, hstore⟩
      · exact (hold i a ha).known pid₀ c₀ p₀ hread
      · have hrow := localCredential_eq_some hread
        refine ⟨List.mem_append_right _ (hs.current pid₀ c₀ hrow).1, fun pid c hc hphc => ?_⟩
        dsimp only at hc
        rw [hstore] at hc
        obtain rfl := hs.distinct pid pid₀ c c₀ hc hrow hphc
        exact ⟨rfl, by rw [Option.some.inj (hc.symm.trans hrow)]⟩
    · exact checked_advance s.store a env hphase
  · rw [h] at hold ⊢
    exact hold
  · rw [h] at hold ⊢
    exact hold

theorem hashesSound_step (hs : HashesSound g s) (hfresh : Fresh s e) :
    HashesSound g (step g s e) := by
  obtain ⟨hcurrent, hdistinct⟩ := hashesSound_tables (follows_perform g s e).rehashed hfresh
    hs.dummy hs.current hs.distinct
  exact ⟨List.mem_append_right _ hs.dummy, hcurrent, hdistinct, attemptSound_perform hs hfresh⟩

/-! ## Sessions that are new -/

/-- What lets an attempt in. -/
theorem admits_of_allowed (hs : HashesSound g s) {i : ℕ} (ha : s.attempts[i]? = some a)
    (hphase : a.phase = .checked now credential verified)
    (hcurrent : localCredential g s.store a.request.email = some (pid, c, p))
    (hallowed : allowed g s.store a.request now credential (some (pid, c, p)) verified = true) :
    Admits g s.store a.request now credential pid c p := by
  have hattempt := hs.attempts i a ha
  have hrow := localCredential_eq_some hcurrent
  simp only [allowed, Bool.and_eq_true, beq_iff_eq, Option.isNone_iff_eq_none,
    Bool.not_eq_true'] at hallowed
  obtain ⟨⟨⟨⟨⟨⟨⟨-, -⟩, rfl⟩, hphc⟩, henabled⟩, hprincipal⟩, haccount⟩, hsource⟩ := hallowed
  have hpassword := hattempt.checked now credential true hphase
  refine ⟨hcurrent, ?_, by rw [hphc, ← hpassword], henabled, hprincipal, haccount, hsource⟩
  rcases credential with _ | ⟨pid₀, c₀, p₀⟩
  · -- without a credential the password has been checked against a hash that is nobody's
    exact absurd hphc (hs.current pid c hrow).2
  · have hread : a.phase.credential = some (pid₀, c₀, p₀) := by rw [hphase]; rfl
    obtain ⟨rfl, hversion⟩ := (hattempt.known pid₀ c₀ p₀ hread).2 pid c hrow hphc
    exact ⟨c₀, p₀, rfl, hphc, hversion⟩

theorem guarded_step (hs : HashesSound g s) : Guarded g s e := by
  intro hash row hrow hnone
  rw [store_step] at hrow
  have hsame : ∀ store : AuthStore, store.localSessions = s.store.localSessions →
      store.localSessions.get? hash ≠ some row := by
    intro store hstore h
    rw [hstore, hnone] at h
    simp at h
  rcases perform_cases g s e with ⟨a, h, -⟩ | h | ⟨i, env, a, rfl, ha, h⟩ | ⟨token, now, h⟩ |
    ⟨store, ends, hadminister, h⟩
  · rw [h] at hrow
    exact absurd hrow (hsame _ rfl)
  · rw [h] at hrow
    exact absurd hrow (hsame _ rfl)
  · rw [h] at hrow
    dsimp only at hrow
    unfold advance at hrow
    split at hrow
    · exact absurd hrow (hsame _ rfl)
    · split at hrow <;> exact absurd hrow (hsame _ rfl)
    · split at hrow <;> exact absurd hrow (hsame _ rfl)
    · rename_i now credential verified hphase
      refine ⟨i, env, a, now, credential, verified, ?_⟩
      rcases authenticate_cases g s.store a.request now credential verified env with
        ⟨e, h, -⟩ | ⟨h, -⟩ | ⟨pid, c, p, s', session, hcurrent, hallowed, hlogin, h⟩
      · rw [h] at hrow
        exact absurd hrow (hsame _ rfl)
      · rw [h] at hrow
        exact absurd hrow (hsame _ localSessions_recordFailures)
      · rw [h] at hrow
        obtain ⟨newPhc, row', localSessions, -, rfl, hinsert, rfl⟩ := logIn_eq_ok hlogin
        rw [Table.get?_insert hinsert] at hrow
        split at hrow
        · obtain rfl := Option.some.inj hrow
          exact ⟨c, p, rfl, ha, hphase, admits_of_allowed hs ha hphase hcurrent hallowed⟩
        · rw [hnone] at hrow
          simp at hrow
    · exact absurd hrow (hsame _ rfl)
  · rw [h] at hrow
    rw [absent_resolveSession token hnone] at hrow
    simp at hrow
  · rw [h] at hrow
    have habsent := (administers_of_eq_some hadminister).absent hash hnone
    rw [habsent] at hrow
    simp at hrow

/-! ## Sessions that are ended -/

/-- A session that was ended is a row that is revoked. -/
def EndedSound (s : AuthSystem) : Prop :=
  ∀ hash ∈ s.ended, ∃ row, s.store.localSessions.get? hash = some row ∧ row.revokedAt ≠ none

theorem ended_of_endedSound (hs : EndedSound s) : Ended g s := by
  intro token now r hended hresolved
  obtain ⟨row, hrow, hrevoked⟩ := hs _ hended
  rcases localSession_of_resolveSession hresolved with hoidc | ⟨row', hrow', hopen⟩
  · exact hoidc
  · obtain rfl := Option.some.inj (hrow.symm.trans hrow')
    exact absurd hopen hrevoked

/-- The sessions that an event ends are revoked by it. -/
theorem revoked_perform {hash : Points} (hends : (perform g s e).2.2 = some pid)
    (hhash : hash ∈ localSessionsOf (perform g s e).1 pid) :
    ∃ row, (perform g s e).1.localSessions.get? hash = some row ∧ row.revokedAt ≠ none := by
  rcases perform_cases g s e with ⟨a, h, -⟩ | h | ⟨i, env, a, -, -, h⟩ | ⟨token, now, h⟩ |
    ⟨store, ends, hadminister, h⟩
  · simp [h] at hends
  · simp [h] at hends
  · simp [h] at hends
  · simp [h] at hends
  · rw [h] at hends hhash ⊢
    exact (administers_of_eq_some hadminister).ended pid hash hends hhash

theorem endedSound_step (hs : EndedSound s) : EndedSound (step g s e) := by
  intro hash hhash
  rcases List.mem_append.mp hhash with hnew | hold
  · obtain ⟨pid, hends, hmem⟩ := List.mem_flatMap.mp hnew
    exact revoked_perform (Option.mem_toList.mp hends) hmem
  · obtain ⟨row, hrow, hrevoked⟩ := hs hash hold
    obtain ⟨row', hrow', -, hstays⟩ := (follows_perform g s e).sessions hash row hrow
    exact ⟨row', hrow', hstays hrevoked⟩

/-! ## Locks that are kept -/

theorem store_of_refuses {r : LoginRequest} {account : Option (Points × Credential)}
    (h : Refuses g s e r now account) :
    (step g s e).store = recordFailures s.store r.sourceHash now account ∧
      ∀ pid c, account = some (pid, c) → s.store.credentials.get? pid = some c := by
  obtain ⟨i, env, a, credential, verified, rfl, ha, rfl, hphase, hrefused, rfl⟩ := h
  constructor
  · rw [store_step]
    simp only [perform, ha, advance, hphase, authenticate, hrefused]
    rfl
  · intro pid c haccount
    unfold failingAccount at haccount
    split at haccount
    · rename_i pid' c' p' _ c₀ p₀ hcurrent
      split at haccount
      · obtain ⟨rfl, rfl⟩ := Prod.mk.inj (Option.some.inj haccount)
        exact localCredential_eq_some hcurrent
      · simp at haccount
    · simp at haccount

theorem keepsLocks_iff (hs : LocksSound s.store) : KeepsLocks g s e ↔ Unraced g s e := by
  refine forall_congr' fun r => forall_congr' fun now => forall_congr' fun account =>
    imp_congr_right fun hrefuses => ?_
  obtain ⟨hstore, haccount⟩ := store_of_refuses hrefuses
  rw [hstore]
  exact locksKept_recordFailures_iff hs haccount

end Events

/-! ## Whole runs -/

/-- The gateway before its first event. -/
def initial (g : Gateway) (principals : Table Points Principal) : AuthSystem where
  store := { principals }
  derived := [g.dummyPhc]

section Runs

variable (g : Gateway) (principals : Table Points Principal)

theorem locksSound_initial : LocksSound (initial g principals).store :=
  ⟨fun pid c hc => by simp [initial] at hc, fun hash r hr => by simp [initial] at hr⟩

theorem hashesSound_initial : HashesSound g (initial g principals) where
  dummy := by simp [initial]
  current pid c hc := by simp [initial] at hc
  distinct pid pid' c c' hc := by simp [initial] at hc
  attempts i a ha := by simp [initial] at ha

/-- In every run the new sessions are those of attempts that are let in, and the sessions that were
ended stay ended; and the locks are kept exactly when every failure is recorded in time. -/
theorem logins_throttled_iff (events : List AuthEvent)
    (hfresh : Along (step g) Fresh (initial g principals) events) :
    Along (step g) (Guarded g) (initial g principals) events ∧
      (∀ pre, pre <+: events → Ended g (run (step g) (initial g principals) pre)) ∧
      (Along (step g) (KeepsLocks g) (initial g principals) events ↔
        Along (step g) (Unraced g) (initial g principals) events) := by
  refine ⟨?_, fun pre hpre => ?_, ?_⟩
  · exact along_of_invariant (fun s e hs hnew => hashesSound_step hs hnew)
      (fun s e hs _ => guarded_step hs) (hashesSound_initial g principals) hfresh
  · have hended : EndedSound (run (step g) (initial g principals) pre) :=
      invariant_prefix (C := Fresh) (fun s e hs _ => endedSound_step hs)
        (fun hash hhash => by simp [initial] at hhash) hfresh hpre
    exact ended_of_endedSound hended
  · exact along_congr_of_invariant (I := fun s : AuthSystem => LocksSound s.store)
      (fun s e hs => keepsLocks_iff hs) (fun s e hs _ => (follows_perform g s e).locks hs)
      (locksSound_initial g principals)

end Runs

/-! ## A lock that is lost -/

def sampleGateway : Gateway where
  oidcIssuer := Points.ofString "https://login.example.org"
  oidcMode := true
  localPasswordLogin := true
  localAllowedEmailDomains := []
  sessionTtl := seconds 43200
  normalizeSubject t := some t
  normalizeEmail t := some t
  normalizePassword t _ := some t
  sourceKey _ :=
    Points.ofString "cf8a06e7097b541718fbddadce547210bf89772431a08458c8565c54b09bcf36"
  hashSecret t := t
  passwordMatches _ _ := false
  dummyPhc := Points.ofString "$argon2id$v=19$m=19456,t=2,p=1$c2FsdHNhbHRzYWx0c2E$aGFzaA"

def sampleStep : StepEnv where
  busy := false
  newPhc := none
  token := []
  csrfToken := []
  now := 0

def sampleRequest : LoginRequest where
  email := Points.ofString "mia@example.org"
  password := Points.ofString "wrong"
  validPasswordShape := true
  sourceHash := sampleGateway.sourceKey (Points.ofString "10.0.0.1")

/-- An attempt begins, and goes on until its transaction. -/
def attemptUntil (i : ℕ) (now : ℤ) : List AuthEvent :=
  .start (Points.ofString "mia@example.org") (Points.ofString "wrong") (Points.ofString "10.0.0.1")
    now :: List.replicate 3 (.advance i sampleStep)

/-- Nineteen failures, and two attempts more: the first one begins in the window of the failures,
the second one reads the source before the first one locks it. -/
def racingEvents : List AuthEvent :=
  (List.range 19).flatMap (fun i => attemptUntil i (seconds 1000) ++ [.advance i sampleStep]) ++
    (attemptUntil 19 (seconds 1890) ++ attemptUntil 20 (seconds 1905) ++ [.advance 19 sampleStep])

/-- The state that they leave. -/
def raced : AuthSystem :=
  run (step sampleGateway) (initial sampleGateway .empty) racingEvents

theorem logins_throttled_iff_racing :
    Along (step sampleGateway) Fresh (initial sampleGateway .empty) racingEvents ∧
      (Along (step sampleGateway) (KeepsLocks sampleGateway) (initial sampleGateway .empty)
          racingEvents ↔
        Along (step sampleGateway) (Unraced sampleGateway) (initial sampleGateway .empty)
          racingEvents) := by
  have hfresh : Along (step sampleGateway) Fresh (initial sampleGateway .empty) racingEvents := by
    have hnone : ∀ e ∈ racingEvents, e.derives = none := by decide +kernel
    refine along_of_forall_mem _ (fun e he s phc hphc => ?_) _
    simp [hnone e he] at hphc
  exact ⟨hfresh, (logins_throttled_iff sampleGateway .empty racingEvents hfresh).2.2⟩

/-- The failure of the second attempt removes the lock. -/
theorem lock_lost :
    ¬Along (step sampleGateway) (KeepsLocks sampleGateway) (initial sampleGateway .empty)
      (racingEvents ++ [.advance 20 sampleStep]) := by
  intro h
  have hlast : KeepsLocks sampleGateway raced (.advance 20 sampleStep) :=
    ((along_append _).mp h).2.1
  have hattempt : raced.attempts[20]? =
      some ⟨sampleRequest, .checked (seconds 1905) none false⟩ := by
    decide +kernel
  have hlocked : raced.store.sourceAttempts.get? sampleRequest.sourceHash =
      some ⟨20, seconds 1000, some (seconds 2190), seconds 1890⟩ := by
    decide +kernel
  have hunlocked : (step sampleGateway raced (.advance 20 sampleStep)).store.sourceAttempts.get?
      sampleRequest.sourceHash = some ⟨1, seconds 1905, none, seconds 1905⟩ := by
    decide +kernel
  have hrefused : allowed sampleGateway raced.store sampleRequest (seconds 1905) none
      (localCredential sampleGateway raced.store sampleRequest.email) false = false := by
    decide +kernel
  have hkept := hlast sampleRequest (seconds 1905) _
    ⟨20, sampleStep, _, none, false, rfl, hattempt, rfl, rfl, hrefused, rfl⟩
  obtain ⟨r, lock, hr, hlock, -⟩ := hkept.source _ _ _ hlocked rfl (by decide)
  rw [hunlocked] at hr
  obtain rfl := Option.some.inj hr
  simp at hlock

end GlassHive.AuthGateway
