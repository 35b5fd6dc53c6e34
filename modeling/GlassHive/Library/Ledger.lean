import GlassHive.Library.Table
import GlassHive.Library.Text

/-!
# Ledgers of leased effects

A ledger holds the effects that are still to be carried out. An executor claims a row for a time
under an epoch that grows with every claim. It settles or reschedules the row under that epoch, and
another executor takes the row over once the claim has expired. A row may wait armed until it is
activated.

A log of the claims and of those that their executors ended says who holds what: `LedgerLog.Agrees`
ties it to the rows.
-/

namespace Relational

/-! ## Rows -/

/-- The state of a row. -/
inductive LedgerStatus
  | armed
  | pending
  | applying
  | applied
  deriving DecidableEq, Repr

/-- A row with what it is about and who holds it. -/
structure LedgerRow (β : Type) where
  binding : β
  status : LedgerStatus
  leaseOwner : Text := []
  leaseEpoch : ℕ := 0
  leaseExpiresAt : Option ℕ := none
  nextAttemptAt : Option ℕ := none
  attempts : ℕ := 0
  lastErrorCode : String := ""
  createdAt : ℕ
  updatedAt : ℕ
  appliedAt : Option ℕ := none
  deriving Repr

/-- The rows of a ledger. -/
abbrev Ledger (κ β : Type) := Table κ (LedgerRow β)

variable {κ β : Type}

namespace LedgerRow

/-- A row is due, or the claim on it has expired. -/
def claimable (now : ℕ) (r : LedgerRow β) : Bool :=
  (r.status == .pending && r.nextAttemptAt.all fun t => t ≤ now) ||
    (r.status == .applying && r.leaseExpiresAt.any fun t => t ≤ now)

/-- A row is claimed by an owner under an epoch. -/
def heldBy (owner : Text) (epoch : ℕ) (r : LedgerRow β) : Bool :=
  r.status == .applying && r.leaseOwner == owner && r.leaseEpoch == epoch

/-- Claim a row. -/
@[simps]
def claimed (owner : Text) (expiresAt now : ℕ) (r : LedgerRow β) : LedgerRow β :=
  { r with
    status := .applying
    leaseOwner := owner
    leaseEpoch := r.leaseEpoch + 1
    leaseExpiresAt := some expiresAt
    nextAttemptAt := none
    attempts := r.attempts + 1
    updatedAt := now }

/-- Settle a row. -/
@[simps]
def settled (now : ℕ) (r : LedgerRow β) : LedgerRow β :=
  { r with
    status := .applied
    leaseOwner := []
    leaseExpiresAt := none
    nextAttemptAt := none
    lastErrorCode := ""
    updatedAt := now
    appliedAt := some now }

/-- Put a row back for another attempt. -/
@[simps]
def rescheduled (retryAt : Option ℕ) (code : String) (now : ℕ) (r : LedgerRow β) : LedgerRow β :=
  { r with
    status := .pending
    leaseOwner := []
    leaseExpiresAt := none
    nextAttemptAt := retryAt
    lastErrorCode := code
    updatedAt := now }

/-- Activate a row. -/
@[simps]
def activated (now : ℕ) (r : LedgerRow β) : LedgerRow β :=
  { r with status := .pending, updatedAt := now }

theorem claimable_cases {now : ℕ} {r : LedgerRow β} (h : r.claimable now = true) :
    r.status = .pending ∨
      r.status = .applying ∧ ∃ t, r.leaseExpiresAt = some t ∧ t ≤ now := by
  simp only [claimable, Bool.or_eq_true, Bool.and_eq_true, beq_iff_eq, Option.any_eq_true,
    decide_eq_true_eq] at h
  rcases h with h | h
  · exact Or.inl h.1
  · exact Or.inr h

theorem heldBy_iff {owner : Text} {epoch : ℕ} {r : LedgerRow β} :
    r.heldBy owner epoch = true ↔
      r.status = .applying ∧ r.leaseOwner = owner ∧ r.leaseEpoch = epoch := by
  simp [heldBy, and_assoc]

/-- What one transaction may do to a row. `finishes` says under which claims it settles or
reschedules the row, `activates` whether it may activate the row. -/
structure Moves (finishes : Text → ℕ → Prop) (activates : Prop) (r r' : LedgerRow β) : Prop where
  epoch : r.leaseEpoch ≤ r'.leaseEpoch
  applied : r.status = .applied → r' = r
  armed : r.status = .armed → r' ≠ r → activates ∧ r'.status = .pending
  forward : r.status ≠ .armed → r'.status ≠ .armed
  left : r.status = .applying → r'.status ≠ .applying → finishes r.leaseOwner r.leaseEpoch
  settled : r'.status = .applied → r' ≠ r → r.status = .applying
  current : ∀ owner epoch, finishes owner epoch → r' ≠ r → r.heldBy owner epoch = true

theorem moves_refl {finishes : Text → ℕ → Prop} {activates : Prop} (r : LedgerRow β) :
    Moves finishes activates r r where
  epoch := le_rfl
  applied _ := rfl
  armed _ h := absurd rfl h
  forward h := h
  left h h' := absurd h h'
  settled _ h := absurd rfl h
  current _ _ _ h := absurd rfl h

end LedgerRow

/-- What one transaction may do to a ledger. -/
def LedgerMoves (finishes : κ → Text → ℕ → Prop) (activates : κ → LedgerRow β → Prop)
    [DecidableEq κ] (t t' : Ledger κ β) : Prop :=
  ∀ k r, t.get? k = some r →
    ∃ r', t'.get? k = some r' ∧ r.Moves (finishes k) (activates k r) r'

namespace Ledger

variable [DecidableEq κ]

/-! ## Transactions -/

/-- Put a row into the ledger, unless there is one under its key. -/
def enqueue (t : Ledger κ β) (k : κ) (r : LedgerRow β) : Ledger κ β :=
  (t.insert? k r).getD t

/-- Activate the armed rows that satisfy a predicate. -/
def activate (t : Ledger κ β) (p : κ → LedgerRow β → Bool) (now : ℕ) : Ledger κ β :=
  t.update (fun k r => p k r && r.status == .armed) fun _ r => r.activated now

/-- The claimable row that was created first, and of those of one time the one with the lowest
rank. -/
def nextClaimable (t : Ledger κ β) (p : κ → LedgerRow β → Bool) (rank : κ → ℕ) (now : ℕ) :
    Option κ :=
  (Table.earliest
    (fun a b => a.2.createdAt < b.2.createdAt ||
      a.2.createdAt == b.2.createdAt && rank a.1 < rank b.1)
    ((t.select fun k r => r.claimable now && p k r).map fun e => (e.1, e))).map Prod.fst

/-- Claim the next row. -/
def claimNext (t : Ledger κ β) (p : κ → LedgerRow β → Bool) (rank : κ → ℕ) (owner : Text)
    (expiresAt now : ℕ) : Ledger κ β × Option (κ × LedgerRow β) :=
  match nextClaimable t p rank now with
  | none => (t, none)
  | some k =>
    let t' := t.update (fun k' r => k' == k && r.claimable now) fun _ r =>
      r.claimed owner expiresAt now
    (t', (t'.get? k).map fun r => (k, r))

/-- End the claim of an owner under its epoch. -/
def finish (t : Ledger κ β) (k : κ) (owner : Text) (epoch : ℕ)
    (f : LedgerRow β → LedgerRow β) : Ledger κ β × Option (LedgerRow β) :=
  if (t.get? k).any fun r => r.heldBy owner epoch then
    let t' := t.update (fun k' r => k' == k && r.heldBy owner epoch) fun _ r => f r
    (t', t'.get? k)
  else (t, none)

/-- Settle a row. -/
def markApplied (t : Ledger κ β) (k : κ) (owner : Text) (epoch now : ℕ) :
    Ledger κ β × Option (LedgerRow β) :=
  finish t k owner epoch fun r => r.settled now

/-- Put a row back for another attempt. -/
def retry (t : Ledger κ β) (k : κ) (owner : Text) (epoch : ℕ) (retryAt : Option ℕ) (code : String)
    (now : ℕ) : Ledger κ β × Option (LedgerRow β) :=
  finish t k owner epoch fun r => r.rescheduled retryAt code now

variable {t t' : Ledger κ β} {k : κ} {r : LedgerRow β} {owner : Text} {epoch now : ℕ}

theorem get?_enqueue {j : κ} {q : LedgerRow β} (h : t.get? k = some q) :
    (enqueue t j r).get? k = some q := by
  rw [enqueue, Table.get?_insert_getD]
  by_cases hk : k = j
  · subst hk
    simp [h]
  · simp [hk, h]

theorem get?_activate {p : κ → LedgerRow β → Bool} (hr : t.get? k = some r) :
    (activate t p now).get? k =
      some (if (p k r && r.status == .armed) = true then r.activated now else r) := by
  rw [activate, Table.get?_update, hr]
  rfl

/-- The next row is in the ledger and can be claimed. -/
theorem nextClaimable_eq_some {p : κ → LedgerRow β → Bool} {rank : κ → ℕ}
    (h : nextClaimable t p rank now = some k) :
    ∃ r, t.get? k = some r ∧ r.claimable now = true := by
  obtain ⟨⟨k', e⟩, he, rfl⟩ := Option.map_eq_some_iff.mp h
  obtain ⟨⟨k, r⟩, hmem, heq⟩ := List.mem_map.mp (Table.mem_of_earliest he)
  obtain ⟨rfl, -⟩ := Prod.mk.inj heq
  obtain ⟨hget, hp⟩ := Table.mem_select.mp hmem
  rw [Bool.and_eq_true] at hp
  exact ⟨r, hget, hp.1⟩

/-- A claim takes one claimable row and leaves the others. -/
theorem claimNext_cases (t : Ledger κ β) (p : κ → LedgerRow β → Bool) (rank : κ → ℕ) (owner : Text)
    (expiresAt now : ℕ) :
    claimNext t p rank owner expiresAt now = (t, none) ∨
      ∃ k r, t.get? k = some r ∧ r.claimable now = true ∧
        (claimNext t p rank owner expiresAt now).2 = some (k, r.claimed owner expiresAt now) ∧
        ∀ j, (claimNext t p rank owner expiresAt now).1.get? j =
          if j = k then some (r.claimed owner expiresAt now) else t.get? j := by
  unfold claimNext
  cases hnext : nextClaimable t p rank now with
  | none => exact Or.inl rfl
  | some k =>
    obtain ⟨r, hr, hclaimable⟩ := nextClaimable_eq_some hnext
    have hother : ∀ j, (t.update (fun k' r => k' == k && r.claimable now) fun _ r =>
        r.claimed owner expiresAt now).get? j =
          if j = k then some (r.claimed owner expiresAt now) else t.get? j := by
      intro j
      rw [Table.get?_update]
      by_cases hj : j = k
      · subst hj
        simp [hr, hclaimable]
      · simp [hj]
    exact Or.inr ⟨k, r, hr, hclaimable, by simp [hother], hother⟩

/-- Only the current claim on a row is ended, and it is the only row that changes. -/
theorem finish_cases (t : Ledger κ β) (k : κ) (owner : Text) (epoch : ℕ)
    (f : LedgerRow β → LedgerRow β) :
    finish t k owner epoch f = (t, none) ∨
      ∃ r, t.get? k = some r ∧ r.heldBy owner epoch = true ∧
        (finish t k owner epoch f).2 = some (f r) ∧
        ∀ j, (finish t k owner epoch f).1.get? j = if j = k then some (f r) else t.get? j := by
  unfold finish
  split
  · rename_i hany
    obtain ⟨r, hr, hheld⟩ := (Option.any_eq_true ..).mp hany
    have hother : ∀ j, (t.update (fun k' r => k' == k && r.heldBy owner epoch) fun _ r =>
        f r).get? j = if j = k then some (f r) else t.get? j := by
      intro j
      rw [Table.get?_update]
      by_cases hj : j = k
      · subst hj
        rw [if_pos rfl, hr, Option.map_some, if_pos (by simp [hheld])]
      · simp [hj]
    exact Or.inr ⟨r, hr, hheld, by simp [hother], hother⟩
  · exact Or.inl rfl

/-! ## What a transaction does to the rows -/

section Moves

variable {finishes : κ → Text → ℕ → Prop} {activates : κ → LedgerRow β → Prop}

theorem moves_of_eq (h : t' = t) : LedgerMoves finishes activates t t' :=
  fun _ r hr => ⟨r, h ▸ hr, LedgerRow.moves_refl r⟩

/-- An activation moves armed rows only. -/
theorem moves_activate {p : κ → LedgerRow β → Bool}
    (hp : ∀ k r, p k r = true → activates k r)
    (hfinishes : ∀ k owner epoch, ¬finishes k owner epoch) :
    LedgerMoves finishes activates t (activate t p now) := by
  intro k r hr
  by_cases hmatch : (p k r && r.status == .armed) = true
  · refine ⟨r.activated now, by rw [get?_activate hr, if_pos hmatch], ?_⟩
    simp only [Bool.and_eq_true, beq_iff_eq] at hmatch
    obtain ⟨hpk, harmed⟩ := hmatch
    exact {
      epoch := le_rfl
      applied := by simp [harmed]
      armed := fun _ _ => ⟨hp k r hpk, rfl⟩
      forward := by simp
      left := by simp [harmed]
      settled := by simp
      current := fun owner epoch h => absurd h (hfinishes k owner epoch) }
  · exact ⟨r, by rw [get?_activate hr, if_neg hmatch], LedgerRow.moves_refl r⟩

/-- A claim moves a row that is due or whose claim has expired. -/
theorem moves_claimNext (p : κ → LedgerRow β → Bool) (rank : κ → ℕ) (expiresAt : ℕ)
    (hfinishes : ∀ k owner epoch, ¬finishes k owner epoch) :
    LedgerMoves finishes activates t (claimNext t p rank owner expiresAt now).1 := by
  rcases claimNext_cases t p rank owner expiresAt now with h | ⟨k, r, hr, hclaimable, -, hget⟩
  · exact moves_of_eq (by rw [h])
  · intro j q hq
    by_cases hj : j = k
    · subst hj
      rw [hr, Option.some.injEq] at hq
      subst hq
      refine ⟨_, by rw [hget, if_pos rfl], ?_⟩
      have hstatus : r.status ≠ .armed ∧ r.status ≠ .applied := by
        rcases LedgerRow.claimable_cases hclaimable with h | ⟨h, -⟩ <;> simp [h]
      exact {
        epoch := by simp
        applied := fun h => absurd h hstatus.2
        armed := fun h => absurd h hstatus.1
        forward := by simp
        left := by simp
        settled := by simp
        current := fun owner epoch h => absurd h (hfinishes j owner epoch) }
    · exact ⟨q, by rw [hget, if_neg hj, hq], LedgerRow.moves_refl q⟩

/-- An end of a claim moves a row of its current holder. -/
theorem moves_finish {f : LedgerRow β → LedgerRow β} (hepoch : ∀ r, (f r).leaseEpoch = r.leaseEpoch)
    (hstatus : ∀ r, (f r).status ≠ .armed) (hfinish : finishes k owner epoch)
    (honly : ∀ j o e, finishes j o e → j = k ∧ o = owner ∧ e = epoch) :
    LedgerMoves finishes activates t (finish t k owner epoch f).1 := by
  rcases finish_cases t k owner epoch f with h | ⟨r, hr, hheld, -, hget⟩
  · exact moves_of_eq (by rw [h])
  · intro j q hq
    by_cases hj : j = k
    · subst hj
      rw [hr, Option.some.injEq] at hq
      subst hq
      obtain ⟨happlying, rfl, rfl⟩ := LedgerRow.heldBy_iff.mp hheld
      refine ⟨f r, by rw [hget, if_pos rfl], ?_⟩
      exact {
        epoch := (hepoch r).ge
        applied := by simp [happlying]
        armed := by simp [happlying]
        forward := fun _ => hstatus r
        left := fun _ _ => hfinish
        settled := fun _ _ => happlying
        current := by
          rintro o e h -
          obtain ⟨-, rfl, rfl⟩ := honly j o e h
          exact hheld }
    · exact ⟨q, by rw [hget, if_neg hj, hq], LedgerRow.moves_refl q⟩

end Moves

end Ledger

/-! ## The log of claims -/

/-- A claim that was granted. -/
structure LedgerClaim (κ : Type) where
  key : κ
  owner : Text
  epoch : ℕ
  expiresAt : ℕ
  deriving DecidableEq, Repr

/-- The claims granted so far, in order, and those that their executors ended. -/
structure LedgerLog (κ : Type) where
  claims : List (LedgerClaim κ) := []
  ended : List (κ × Text × ℕ) := []

namespace LedgerLog

variable {log : LedgerLog κ} {c d : LedgerClaim κ}

/-- The executor of a claim has not ended it. -/
def Open (log : LedgerLog κ) (c : LedgerClaim κ) : Prop :=
  (c.key, c.owner, c.epoch) ∉ log.ended

/-- An executor holds a claim that has not expired. -/
def Holds (log : LedgerLog κ) (now : ℕ) (c : LedgerClaim κ) : Prop :=
  c ∈ log.claims ∧ log.Open c ∧ now < c.expiresAt

/-- The epochs of the claims on a row increase, and at most one of them is held. -/
structure Exact (log : LedgerLog κ) (now : ℕ) : Prop where
  increasing : log.claims.Pairwise fun c d => c.key = d.key → c.epoch < d.epoch
  exclusive : ∀ c d, log.Holds now c → log.Holds now d → c.key = d.key → c = d

/-- Record a claim. -/
def granted (log : LedgerLog κ) (owner : Text) (expiresAt : ℕ) :
    Option (κ × LedgerRow β) → LedgerLog κ
  | none => log
  | some (k, r) => { log with claims := log.claims ++ [⟨k, owner, r.leaseEpoch, expiresAt⟩] }

/-- Record the end of a claim. -/
def finished (log : LedgerLog κ) (k : κ) (owner : Text) (epoch : ℕ) :
    Option (LedgerRow β) → LedgerLog κ
  | none => log
  | some _ => { log with ended := log.ended ++ [(k, owner, epoch)] }

variable [DecidableEq κ]

/-- The rows know the claims: no claim is ahead of its row, and one that is open and has not expired
is the current claim on its row. -/
structure Agrees (log : LedgerLog κ) (t : Ledger κ β) (now : ℕ) : Prop where
  increasing : log.claims.Pairwise fun c d => c.key = d.key → c.epoch < d.epoch
  row : ∀ c ∈ log.claims, ∃ r, t.get? c.key = some r ∧ c.epoch ≤ r.leaseEpoch ∧
    (log.Open c → now < c.expiresAt →
      r.heldBy c.owner c.epoch = true ∧ r.leaseExpiresAt = some c.expiresAt)

variable {t t' : Ledger κ β} {k : κ} {r : LedgerRow β} {owner : Text} {epoch now : ℕ}

theorem agrees_empty : (({} : LedgerLog κ)).Agrees t now where
  increasing := List.Pairwise.nil
  row := by simp

/-- Of two claims on a row, at most one is current. -/
theorem Agrees.exact (h : log.Agrees t now) : log.Exact now where
  increasing := h.increasing
  exclusive := by
    rintro c d ⟨hc, hcopen, hclive⟩ ⟨hd, hdopen, hdlive⟩ hkey
    obtain ⟨r, hr, -, hcurrent⟩ := h.row c hc
    obtain ⟨r', hr', -, hcurrent'⟩ := h.row d hd
    rw [← hkey, hr, Option.some.injEq] at hr'
    subst hr'
    obtain ⟨hheld, -⟩ := hcurrent hcopen hclive
    obtain ⟨hheld', -⟩ := hcurrent' hdopen hdlive
    have hepoch : c.epoch = d.epoch :=
      (LedgerRow.heldBy_iff.mp hheld).2.2.symm.trans (LedgerRow.heldBy_iff.mp hheld').2.2
    by_contra hne
    have hlt : c.epoch < d.epoch ∨ d.epoch < c.epoch := by
      obtain ⟨i, hi, rfl⟩ := List.getElem_of_mem hc
      obtain ⟨j, hj, rfl⟩ := List.getElem_of_mem hd
      have hpairs := List.pairwise_iff_getElem.mp h.increasing
      rcases Nat.lt_trichotomy i j with hij | rfl | hij
      · exact Or.inl (hpairs i j hi hj hij hkey)
      · exact absurd rfl hne
      · exact Or.inr (hpairs j i hj hi hij hkey.symm)
    omega

/-- Time alone takes no claim away that is held. -/
theorem Agrees.advance (h : log.Agrees t now) {later : ℕ} (hle : now ≤ later) :
    log.Agrees t later where
  increasing := h.increasing
  row c hc := by
    obtain ⟨r, hr, hepoch, hcurrent⟩ := h.row c hc
    exact ⟨r, hr, hepoch, fun hopen hlive => hcurrent hopen (hle.trans_lt hlive)⟩

/-- A transaction that leaves the claimed rows. -/
theorem Agrees.of_kept (h : log.Agrees t now)
    (hkept : ∀ k r, t.get? k = some r → ∃ r', t'.get? k = some r' ∧
      r'.leaseEpoch = r.leaseEpoch ∧ (r.status = .applying → r' = r)) : log.Agrees t' now where
  increasing := h.increasing
  row c hc := by
    obtain ⟨r, hr, hepoch, hcurrent⟩ := h.row c hc
    obtain ⟨r', hr', hepoch', hsame⟩ := hkept c.key r hr
    refine ⟨r', hr', hepoch'.symm ▸ hepoch, fun hopen hlive => ?_⟩
    have hheld := hcurrent hopen hlive
    rw [hsame (LedgerRow.heldBy_iff.mp hheld.1).1]
    exact hheld

theorem Agrees.activate (h : log.Agrees t now) (p : κ → LedgerRow β → Bool) (at' : ℕ) :
    log.Agrees (Ledger.activate t p at') now := by
  refine h.of_kept fun k r hr => ?_
  by_cases hmatch : (p k r && r.status == .armed) = true
  · refine ⟨r.activated at', by rw [Ledger.get?_activate hr, if_pos hmatch], rfl, ?_⟩
    simp only [Bool.and_eq_true, beq_iff_eq] at hmatch
    simp [hmatch.2]
  · exact ⟨r, by rw [Ledger.get?_activate hr, if_neg hmatch], rfl, fun _ => rfl⟩

/-- A claim outdates the claims on its row, which have all ended or expired. -/
theorem Agrees.claimNext (h : log.Agrees t now) (p : κ → LedgerRow β → Bool) (rank : κ → ℕ)
    (owner : Text) (expiresAt : ℕ) :
    (log.granted owner expiresAt (Ledger.claimNext t p rank owner expiresAt now).2).Agrees
      (Ledger.claimNext t p rank owner expiresAt now).1 now := by
  rcases Ledger.claimNext_cases t p rank owner expiresAt now with
    heq | ⟨k, r, hr, hclaimable, hresult, hget⟩
  · rw [heq]
    exact h
  · rw [hresult]
    constructor
    · refine List.pairwise_append.mpr ⟨h.increasing, List.pairwise_singleton _ _, ?_⟩
      intro c hc d hd hkey
      rw [List.mem_singleton.mp hd] at hkey ⊢
      obtain ⟨q, hq, hepoch, -⟩ := h.row c hc
      rw [show c.key = k from hkey, hr, Option.some.injEq] at hq
      subst hq
      exact Nat.lt_succ_of_le hepoch
    · intro c hc
      rcases List.mem_append.mp hc with hc | hc
      · obtain ⟨q, hq, hepoch, hcurrent⟩ := h.row c hc
        by_cases hkey : c.key = k
        · rw [hkey, hr, Option.some.injEq] at hq
          subst hq
          refine ⟨_, by rw [hget, if_pos hkey], Nat.le_succ_of_le hepoch, fun hopen hlive => ?_⟩
          obtain ⟨hheld, hexpires⟩ := hcurrent hopen hlive
          rcases LedgerRow.claimable_cases hclaimable with hpending | ⟨-, t, ht, hle⟩
          · rw [(LedgerRow.heldBy_iff.mp hheld).1] at hpending
            cases hpending
          · rw [hexpires, Option.some.injEq] at ht
            omega
        · exact ⟨q, by rw [hget, if_neg hkey, hq], hepoch, hcurrent⟩
      · rw [List.mem_singleton.mp hc]
        exact ⟨_, by rw [hget, if_pos rfl], le_rfl, fun _ _ => by simp [LedgerRow.heldBy]⟩

/-- The end of a claim. -/
theorem Agrees.finish (h : log.Agrees t now) (k : κ) (owner : Text) (epoch : ℕ)
    {f : LedgerRow β → LedgerRow β} (hepoch : ∀ r, (f r).leaseEpoch = r.leaseEpoch) :
    (log.finished k owner epoch (Ledger.finish t k owner epoch f).2).Agrees
      (Ledger.finish t k owner epoch f).1 now := by
  rcases Ledger.finish_cases t k owner epoch f with heq | ⟨r, hr, hheld, hresult, hget⟩
  · rw [heq]
    exact h
  · rw [hresult]
    refine ⟨h.increasing, fun c hc => ?_⟩
    obtain ⟨q, hq, hle, hcurrent⟩ := h.row c hc
    have hopen : (log.finished k owner epoch (some (f r))).Open c →
        log.Open c ∧ (c.key, c.owner, c.epoch) ≠ (k, owner, epoch) := by
      intro hopen
      simpa [LedgerLog.Open, finished] using hopen
    by_cases hkey : c.key = k
    · rw [hkey, hr, Option.some.injEq] at hq
      subst hq
      refine ⟨f r, by rw [hget, if_pos hkey], (hepoch r).symm ▸ hle, fun hafter hlive => ?_⟩
      -- the claim was the current one, which has just ended
      obtain ⟨hbefore, hother⟩ := hopen hafter
      obtain ⟨-, howner, hsame⟩ := LedgerRow.heldBy_iff.mp (hcurrent hbefore hlive).1
      obtain ⟨-, howner', hsame'⟩ := LedgerRow.heldBy_iff.mp hheld
      exact absurd (by rw [hkey, ← howner, ← hsame, howner', hsame']) hother
    · exact ⟨q, by rw [hget, if_neg hkey, hq], hle,
        fun hafter hlive => hcurrent (hopen hafter).1 hlive⟩

end LedgerLog

end Relational
