import GlassHive.DeliveryMoves
import Mathlib.Logic.Relation

/-!
# Every accepted callback can be delivered

The ledger has a row for every callback of a run, and the rows of the ledger keep the runs they
refer to. Under this invariant no statement of a delivery operation fails: the sequence numbers are
new, and the rows that the trigger refers to are there. A callback without a run has no ledger.
-/

namespace GlassHive

open Relational

variable {η : Type} [DecidableEq η]

namespace DeliveryStore

variable {H : Digests η} {d d' : DeliveryStore η} {name : CallbackName η} {c : Callback η}
  {f : Callback η → Callback η}

/-! ## Statements -/

/-- The statements that transactions are made of. -/
inductive Statement (H : Digests η) : DeliveryStore η → DeliveryStore η → Prop
  | update {d d' : DeliveryStore η} (name : CallbackName η) (f : Callback η → Callback η)
      (h : d.updateCallback H name f = .ok d') : Statement H d d'
  | trace {d d' : DeliveryStore η} (name : CallbackName η)
      (h : d.appendCallbackTrace name = .ok d') : Statement H d d'
  | insert {d d' : DeliveryStore η} (name : CallbackName η) (c : Callback η)
      (h : d.insertOutbox H name c = .ok d') : Statement H d d'
  | draw (d : DeliveryStore η) : Statement H d { d with store := d.store.drawId }
  | call {d d' : DeliveryStore η} (c : Call) (h : d.call c = .ok d') : Statement H d d'

/-- The database after some statements. -/
abbrev Commits (H : Digests η) : DeliveryStore η → DeliveryStore η → Prop :=
  Relation.ReflTransGen (Statement H)

/-- A statement of a settlement: it leaves the runs and their attempts alone, and adds no
callback. -/
structure Quiet (H : Digests η) (d d' : DeliveryStore η) : Prop where
  statement : Statement H d d'
  runs : d'.store.runs = d.store.runs
  attempts : d'.store.attempts = d.store.attempts
  absent : ∀ name, d.outbox.get? name = none → d'.outbox.get? name = none

/-- The database after some statements of settlements. -/
abbrev Quiets (H : Digests η) : DeliveryStore η → DeliveryStore η → Prop :=
  Relation.ReflTransGen (Quiet H)

theorem quiet_update (h : d.updateCallback H name f = .ok d') : Quiet H d d' where
  statement := .update name f h
  runs := (settles_updateCallback h).runs
  attempts := by rcases updateCallback_cases h with ⟨-, rfl⟩ | ⟨_, -, -, -, rfl⟩ <;> rfl
  absent k hk := by rw [(settles_updateCallback h).row, hk, Option.map_none]

theorem quiet_trace (h : d.appendCallbackTrace name = .ok d') : Quiet H d d' where
  statement := .trace name h
  runs := (outbox_appendCallbackTrace h).2
  attempts := by
    rcases appendCallbackTrace_cases h with rfl | ⟨_, _, _, _, _, -, -, -, -, rfl⟩ <;> rfl
  absent k hk := by rw [(outbox_appendCallbackTrace h).1, hk]

theorem quiet_draw (H : Digests η) (d : DeliveryStore η) :
    Quiet H d { d with store := d.store.drawId } :=
  ⟨.draw d, rfl, rfl, fun _ h => h⟩

theorem Quiets.commits (h : Quiets H d d') : Commits H d d' :=
  Relation.ReflTransGen.mono (fun _ _ hquiet => hquiet.statement) _ _ h

theorem Quiets.runs (h : Quiets H d d') : d'.store.runs = d.store.runs := by
  induction h with
  | refl => rfl
  | tail _ hquiet ih => exact hquiet.runs.trans ih

theorem Quiets.attempts (h : Quiets H d d') : d'.store.attempts = d.store.attempts := by
  induction h with
  | refl => rfl
  | tail _ hquiet ih => exact hquiet.attempts.trans ih

theorem Quiets.absent (h : Quiets H d d') (hnone : d.outbox.get? name = none) :
    d'.outbox.get? name = none := by
  induction h with
  | refl => exact hnone
  | tail _ hquiet ih => exact hquiet.absent name ih

variable {out : Option (Callback η)} {now : Time} {attempts generation : ℤ} {token : TokenText}
  {i : CallbackIntent η} {call : DeliveryCall η} {c' : Callback η}

theorem quiets_settleCallback (h : d.settleCallback H name f = .ok (d', out)) : Quiets H d d' := by
  obtain ⟨d₁, h₁, h⟩ := bind_eq_ok.mp h
  obtain ⟨d₂, h₂, h⟩ := bind_eq_ok.mp h
  obtain ⟨rfl, -⟩ := Prod.mk.inj (Except.ok.inj h)
  exact .tail (.single (quiet_update h₁)) (quiet_trace h₂)

theorem quiets_leaseCallback (h : d.leaseCallback H now name = .ok (d', out)) : Quiets H d d' :=
  .head (quiet_draw H d) (quiets_settleCallback h)

theorem quiets_supersedeTerminalCallback {reason : String}
    (h : d.supersedeTerminalCallback H now name reason attempts = .ok (d', out)) :
    Quiets H d d' := by
  rw [supersedeTerminalCallback] at h
  split at h
  · cases h
  split at h
  · exact quiets_settleCallback h
  · obtain ⟨d₁, h₁, h⟩ := bind_eq_ok.mp h
    obtain ⟨rfl, -⟩ := Prod.mk.inj (Except.ok.inj h)
    exact .single (quiet_trace h₁)

theorem quiets_foldlM {f : DeliveryStore η → CallbackName η → Except StoreError (DeliveryStore η)}
    (hf : ∀ d name d', f d name = .ok d' → Quiet H d d') {names : List (CallbackName η)}
    (h : names.foldlM f d = .ok d') : Quiets H d d' := by
  induction names generalizing d with
  | nil =>
    rw [List.foldlM_nil] at h
    rw [Except.ok.inj h]
  | cons name names ih =>
    rw [List.foldlM_cons] at h
    obtain ⟨d₁, h₁, h⟩ := bind_eq_ok.mp h
    exact .head (hf d name d₁ h₁) (ih h)

theorem quiets_settleHeldCallback {status : CallbackStatus} {payload : CallbackPayload η}
    {lastError : String}
    (h : d.settleHeldCallback H now status name token generation attempts payload lastError = .ok (d', out)) :
    Quiets H d d' := by
  rw [settleHeldCallback] at h
  split at h
  · rw [(Prod.mk.inj (Except.ok.inj h)).1]
  · exact quiets_settleCallback h

theorem commits_insertCallbackIntent (h : d.insertCallbackIntent H now i = .ok (d', out)) :
    Commits H d d' := by
  obtain ⟨p, -, h⟩ := bind_eq_ok.mp h
  obtain ⟨d₁, h₁, h⟩ := bind_eq_ok.mp h
  split at h
  · cases h
  · obtain ⟨_, -, h⟩ := bind_eq_ok.mp h
    obtain ⟨d₂, h₂, h⟩ := bind_eq_ok.mp h
    obtain ⟨rfl, -⟩ := Prod.mk.inj (Except.ok.inj h)
    exact .tail (.single (.insert _ _ h₁)) (.trace _ h₂)

/-- A transaction is one of the store, or inserts a callback, or is made of quiet statements. -/
theorem quiets_perform (h : d.perform H call = .ok d') :
    (∃ op, call.op = .store op ∧ d.call ⟨call.now, op⟩ = .ok d') ∨
      (∃ i out, call.op = .insertCallbackIntent i ∧
        d.insertCallbackIntent H call.now i = .ok (d', out)) ∨ Quiets H d d' := by
  obtain ⟨now, op⟩ := call
  cases op with
  | store op => exact Or.inl ⟨op, rfl, h⟩
  | insertCallbackIntent i =>
    obtain ⟨⟨d₁, out⟩, h₁, rfl⟩ := map_eq_ok.mp h
    exact Or.inr (Or.inl ⟨i, out, rfl, h₁⟩)
  | callbackDeliveryIsCurrent =>
    obtain ⟨⟨d₁, out⟩, h₁, rfl⟩ := map_eq_ok.mp h
    refine Or.inr (Or.inr ?_)
    rw [callbackDeliveryIsCurrent] at h₁
    split at h₁
    · rw [(Prod.mk.inj (Except.ok.inj h₁)).1]
    split at h₁
    · rw [(Prod.mk.inj (Except.ok.inj h₁)).1]
    · obtain ⟨⟨d₂, row⟩, h₂, h₁⟩ := bind_eq_ok.mp h₁
      obtain ⟨rfl, -⟩ := Prod.mk.inj (Except.ok.inj h₁)
      exact quiets_supersedeTerminalCallback h₂
  | expireCallbackDeliveryLease =>
    obtain ⟨⟨d₁, out⟩, h₁, rfl⟩ := map_eq_ok.mp h
    refine Or.inr (Or.inr ?_)
    rw [expireCallbackDeliveryLease] at h₁
    split at h₁
    · rw [(Prod.mk.inj (Except.ok.inj h₁)).1]
    · obtain ⟨⟨d₂, row⟩, h₂, h₁⟩ := bind_eq_ok.mp h₁
      obtain ⟨rfl, -⟩ := Prod.mk.inj (Except.ok.inj h₁)
      exact quiets_settleCallback h₂
  | markCallbackHttpAccepted =>
    obtain ⟨⟨d₁, out⟩, h₁, rfl⟩ := map_eq_ok.mp h
    refine Or.inr (Or.inr ?_)
    rw [markCallbackHttpAccepted] at h₁
    split at h₁
    · rw [(Prod.mk.inj (Except.ok.inj h₁)).1]
    split at h₁
    · exact quiets_settleCallback h₁
    · exact quiets_supersedeTerminalCallback h₁
  | claimPendingCallback =>
    obtain ⟨⟨d₁, out⟩, h₁, rfl⟩ := map_eq_ok.mp h
    refine Or.inr (Or.inr ?_)
    rw [claimPendingCallback] at h₁
    split at h₁
    · rw [(Prod.mk.inj (Except.ok.inj h₁)).1]
    split at h₁
    · rw [(Prod.mk.inj (Except.ok.inj h₁)).1]
    split at h₁
    · exact quiets_leaseCallback h₁
    · obtain ⟨⟨d₂, row⟩, h₂, h₁⟩ := bind_eq_ok.mp h₁
      obtain ⟨rfl, -⟩ := Prod.mk.inj (Except.ok.inj h₁)
      exact quiets_supersedeTerminalCallback h₂
  | claimTerminalCallbackRecovery =>
    obtain ⟨⟨d₁, out⟩, h₁, rfl⟩ := map_eq_ok.mp h
    refine Or.inr (Or.inr ?_)
    rw [claimTerminalCallbackRecovery] at h₁
    split at h₁
    · rw [(Prod.mk.inj (Except.ok.inj h₁)).1]
    split at h₁
    · rw [(Prod.mk.inj (Except.ok.inj h₁)).1]
    split at h₁
    · exact quiets_leaseCallback h₁
    · rw [(Prod.mk.inj (Except.ok.inj h₁)).1]
  | markCallbackPending name token generation =>
    obtain ⟨⟨d₁, out⟩, h₁, rfl⟩ := map_eq_ok.mp h
    refine Or.inr (Or.inr ?_)
    cases generation with
    | none => cases h₁
    | some => exact quiets_settleHeldCallback h₁
  | markCallbackDeadLettered =>
    obtain ⟨⟨d₁, out⟩, h₁, rfl⟩ := map_eq_ok.mp h
    refine Or.inr (Or.inr ?_)
    unfold markCallbackDeadLettered at h₁
    split at h₁
    · exact quiets_settleHeldCallback h₁
    · obtain ⟨d₂, h₂, h₁⟩ := bind_eq_ok.mp h₁
      obtain ⟨rfl, -⟩ := Prod.mk.inj (Except.ok.inj h₁)
      exact .single (quiet_update h₂)
  | markCallbackReceiverSuperseded =>
    obtain ⟨⟨d₁, out⟩, h₁, rfl⟩ := map_eq_ok.mp h
    refine Or.inr (Or.inr ?_)
    rw [markCallbackReceiverSuperseded] at h₁
    split at h₁
    · rw [(Prod.mk.inj (Except.ok.inj h₁)).1]
    split at h₁
    · exact quiets_supersedeTerminalCallback h₁
    · rw [(Prod.mk.inj (Except.ok.inj h₁)).1]
  | reclaimStaleDeliveringCallbacks =>
    obtain ⟨⟨d₁, n⟩, h₁, rfl⟩ := map_eq_ok.mp h
    refine Or.inr (Or.inr ?_)
    obtain ⟨d₂, h₂, h₁⟩ := bind_eq_ok.mp h₁
    obtain ⟨d₃, h₃, h₁⟩ := bind_eq_ok.mp h₁
    obtain ⟨rfl, -⟩ := Prod.mk.inj (Except.ok.inj h₁)
    exact (quiets_foldlM (fun d name d' h => quiet_update h) h₂).trans
      (quiets_foldlM (fun d name d' h => quiet_trace h) h₃)

/-- Every transaction is made of the statements. -/
theorem commits_perform (h : d.perform H call = .ok d') : Commits H d d' := by
  rcases quiets_perform h with ⟨op, -, hcall⟩ | ⟨i, out, -, hinsert⟩ | hquiets
  · exact .single (.call _ hcall)
  · exact commits_insertCallbackIntent hinsert
  · exact hquiets.commits

/-- What every statement keeps holds along runs. -/
theorem invariant_run_of_statement {Inv : DeliveryStore η → Prop}
    (hstatement : ∀ d d', Inv d → Statement H d d' → Inv d') (hd : Inv d)
    (calls : List (DeliveryCall η)) : Inv (Transition.run (step H) d calls) := by
  refine Transition.invariant_run (C := fun _ _ => True) (fun d call hd _ => ?_) hd
    (Transition.along_of_forall _ (fun _ _ => trivial) d calls)
  rw [step]
  split
  · rename_i d' h
    have hcommits := commits_perform h
    clear h
    induction hcommits with
    | refl => exact hd
    | tail _ hs ih => exact hstatement _ _ ih hs
  · exact hd

/-! ## The ledger and its rows -/

/-- Every callback of a run has a row in the ledger of the run, and every run with a ledger is
there. -/
structure Linked (d : DeliveryStore η) : Prop where
  recorded : ∀ name c runId, d.outbox.get? name = some c → c.runId = some runId →
    ∃ n e, d.ledger.get? (runId, n) = some e ∧ e.callbackId = name
  live : ∀ k e, d.ledger.get? k = some e → (d.store.runs.get? k.1).isSome = true

theorem linked_init (settings : Settings) (delivery : DeliverySettings) :
    (init settings delivery : DeliveryStore η).Linked where
  recorded _ _ _ h _ := by cases h
  live _ _ h := by cases h

theorem runId_of_sameAuthority (h : c.sameAuthority c' = true) : c'.runId = c.runId := by
  simp only [Callback.sameAuthority, Bool.and_eq_true, beq_iff_eq] at h
  exact h.1.1.1.1.1.1.2.symm

/-- A ledger keeps the rows it has. -/
theorem get?_record_of_some {k : RunId × ℕ} {e : LedgerEvent η} (he : d.ledger.get? k = some e) :
    (record H d.ledger name c).get? k = some e := by
  rw [get?_record]
  split
  · exact he
  · rw [if_neg, he]
    rintro rfl
    rw [get?_nextRunSequence] at he
    cases he

/-- The callback is recorded under its run. -/
theorem exists_record {runId : RunId} (hrun : c.runId = some runId) :
    ∃ n e, (record H d.ledger name c).get? (runId, n) = some e ∧ e.callbackId = name := by
  refine ⟨nextRunSequence d.ledger runId, ledgerRow H d.ledger name runId c, ?_, rfl⟩
  rw [get?_record, hrun]
  exact if_pos rfl

theorem live_record
    (hlive : ∀ k e, d.ledger.get? k = some e → (d.store.runs.get? k.1).isSome = true)
    (hdangling : d.dangling name c = false) (k : RunId × ℕ) (e : LedgerEvent η)
    (he : (record H d.ledger name c).get? k = some e) :
    (d.store.runs.get? k.1).isSome = true := by
  rw [get?_record] at he
  split at he
  · exact hlive k e he
  · rename_i runId hrun
    split at he
    · rename_i hk
      rw [dangling, hrun, Option.any_some, Bool.or_eq_false_iff] at hdangling
      rw [hk]
      simpa using hdangling.1
    · exact hlive k e he

/-- Every statement keeps the ledger and its rows linked. -/
theorem linked_statement (hd : d.Linked) (h : Statement H d d') : d'.Linked := by
  cases h with
  | update name f h =>
    rcases updateCallback_cases h with ⟨-, rfl⟩ | ⟨c, hc, hsame, hdangling, rfl⟩
    · exact hd
    · refine ⟨fun k r runId hr hrun => ?_, live_record hd.live hdangling⟩
      obtain ⟨r₀, hr₀, rfl⟩ := Table.get?_update_eq_some.mp hr
      split at hrun
      · rename_i hk
        rw [beq_iff_eq] at hk
        rw [hk] at hr₀ ⊢
        obtain rfl := Option.some.inj (hc.symm.trans hr₀)
        exact exists_record hrun
      · obtain ⟨n, e, he, hname⟩ := hd.recorded k r₀ runId hr₀ hrun
        exact ⟨n, e, get?_record_of_some he, hname⟩
  | trace name h =>
    rcases appendCallbackTrace_cases h with rfl | ⟨_, _, _, _, _, -, -, -, -, rfl⟩
    · exact hd
    · exact ⟨hd.recorded, hd.live⟩
  | insert name c h =>
    rw [insertOutbox] at h
    split at h
    · obtain rfl := Except.ok.inj h
      exact hd
    rename_i outbox hins
    split at h
    · cases h
    rw [traceOutbox_eq] at h
    split at h
    · cases h
    rename_i hdangling
    obtain rfl := Except.ok.inj h
    rw [Bool.not_eq_true] at hdangling
    refine ⟨fun k r runId hr hrun => ?_,
      live_record (d := { d with outbox := outbox }) hd.live hdangling⟩
    rw [Table.get?_insert hins] at hr
    split at hr
    · rename_i hk
      rw [hk]
      obtain rfl := Option.some.inj hr
      exact exists_record hrun
    · obtain ⟨n, e, he, hname⟩ := hd.recorded k r runId hr hrun
      exact ⟨n, e, get?_record_of_some he, hname⟩
  | draw => exact ⟨hd.recorded, hd.live⟩
  | call c h =>
    obtain ⟨rfl, hlive⟩ := call_eq_ok h
    exact ⟨hd.recorded, hlive⟩

/-! ## Statements that commit -/

theorem dangling_eq_false (hd : d.Linked) (hc : d.outbox.get? name = some c)
    (hrun : c'.runId = c.runId) : d.dangling name c' = false := by
  rw [dangling, hrun]
  cases hid : c.runId with
  | none => rfl
  | some runId =>
    obtain ⟨n, e, he, -⟩ := hd.recorded name c runId hc hid
    have hlive := hd.live _ _ he
    simp_all

theorem updateCallback_commits (H : Digests η) (name : CallbackName η) (hd : d.Linked)
    (hsame : ∀ c : Callback η, c.sameAuthority (f c) = true) :
    ∃ d', d.updateCallback H name f = .ok d' := by
  cases hc : d.outbox.get? name with
  | none => exact ⟨d, by rw [updateCallback, hc]⟩
  | some c =>
    rw [updateCallback_eq hc (hsame c),
      dangling_eq_false hd hc (runId_of_sameAuthority (hsame c))]
    exact ⟨_, rfl⟩

theorem appendCallbackTrace_commits (name : CallbackName η) (hd : d.Linked) :
    ∃ d', d.appendCallbackTrace name = .ok d' := by
  rw [appendCallbackTrace]
  split
  · exact ⟨_, rfl⟩
  · rename_i c runId hrow
    obtain ⟨c', hc, hmap⟩ := Option.bind_eq_some_iff.mp hrow
    obtain ⟨runId', hrun, hpair⟩ := Option.map_eq_some_iff.mp hmap
    obtain ⟨rfl, rfl⟩ := Prod.mk.inj hpair
    split
    · exact ⟨_, rfl⟩
    split
    · rename_i hlast
      obtain ⟨n, e, he, hname⟩ := hd.recorded name c' runId' hc hrun
      have hother := Table.first_eq_none.mp hlast _ e he
      simp [hname] at hother
    · exact ⟨_, rfl⟩

/-- The settlement of a stored callback commits. -/
theorem settleCallback_commits (H : Digests η) (hd : d.Linked) (hc : d.outbox.get? name = some c)
    (hsame : ∀ c : Callback η, c.sameAuthority (f c) = true) :
    ∃ d', d.settleCallback H name f = .ok (d', some (f c)) ∧
      d'.outbox.get? name = some (f c) := by
  obtain ⟨d₁, h₁⟩ := updateCallback_commits H name hd hsame
  obtain ⟨d₂, h₂⟩ := appendCallbackTrace_commits name
    (linked_statement hd (.update name f h₁))
  have hsettle : d.settleCallback H name f = .ok (d₂, d₂.outbox.get? name) :=
    bind_eq_ok.mpr ⟨d₁, h₁, bind_eq_ok.mpr ⟨d₂, h₂, rfl⟩⟩
  have hrow : d₂.outbox.get? name = some (f c) := by
    rw [(settles_settleCallback hsettle).get? hc, if_pos rfl]
  exact ⟨d₂, by rw [hsettle, hrow], hrow⟩

theorem foldlM_commits {f : DeliveryStore η → CallbackName η → Except StoreError (DeliveryStore η)}
    (hf : ∀ d name d', f d name = .ok d' → Statement H d d')
    (hok : ∀ d name, d.Linked → ∃ d', f d name = .ok d') (names : List (CallbackName η))
    (hd : d.Linked) : ∃ d', names.foldlM f d = .ok d' ∧ d'.Linked := by
  induction names generalizing d with
  | nil => exact ⟨d, rfl, hd⟩
  | cons name names ih =>
    obtain ⟨d₁, h₁⟩ := hok d name hd
    obtain ⟨d', h', hd'⟩ := ih (linked_statement hd (hf d name d₁ h₁))
    exact ⟨d', by rw [List.foldlM_cons]; exact bind_eq_ok.mpr ⟨d₁, h₁, h'⟩, hd'⟩

section Rows

variable (now : Time) (attempts : ℤ) (payload : CallbackPayload η) (text : String)

theorem sameAuthority_leasedRow (token : Token) (expiresAt : Time) (c : Callback η) :
    c.sameAuthority (leasedRow now token expiresAt c) = true := by
  simp [Callback.sameAuthority, leasedRow]

theorem sameAuthority_settledRow (status : CallbackStatus) (c : Callback η) :
    c.sameAuthority (settledRow status now attempts payload text c) = true := by
  simp [Callback.sameAuthority, settledRow]

theorem sameAuthority_acceptedRow (c : Callback η) :
    c.sameAuthority (acceptedRow now attempts payload c) = true := by
  simp [Callback.sameAuthority, acceptedRow, settledRow]

theorem sameAuthority_supersededRow (c : Callback η) :
    c.sameAuthority (supersededRow now text attempts c) = true := by
  simp [Callback.sameAuthority, supersededRow]

theorem sameAuthority_reclaimedRow (c : Callback η) :
    c.sameAuthority (reclaimedRow now c) = true := by
  simp [Callback.sameAuthority, reclaimedRow]

end Rows

theorem leaseCallback_commits (H : Digests η) (now : Time) (hd : d.Linked) (hc : d.outbox.get? name = some c) :
    ∃ d' token expiresAt,
      d.leaseCallback H now name = .ok (d', some (leasedRow now token expiresAt c)) ∧
        d'.outbox.get? name = some (leasedRow now token expiresAt c) := by
  obtain ⟨d', h, hrow⟩ := settleCallback_commits H
    (d := { d with store := d.store.drawId })
    (f := leasedRow now d.store.nextId (now + d.settings.leaseTime))
    (linked_statement hd (.draw (H := H) d)) hc (sameAuthority_leasedRow now _ _)
  exact ⟨d', _, _, h, hrow⟩

theorem supersedeTerminalCallback_commits (H : Digests η) (now : Time) (reason : String)
    (attempts : ℤ) (hd : d.Linked) (hc : d.outbox.get? name = some c)
    (hopen : c.status = .pending ∨ c.status = .delivering) :
    ∃ d', d.supersedeTerminalCallback H now name reason attempts =
        .ok (d', some (supersededRow now reason attempts c)) ∧
      d'.outbox.get? name = some (supersededRow now reason attempts c) := by
  have hmem : oneOf c.status [CallbackStatus.pending, .delivering] = true := by
    rcases hopen with h | h <;> rw [h] <;> rfl
  rw [supersedeTerminalCallback, hc]
  simp only [hmem, if_true]
  exact settleCallback_commits H hd hc (sameAuthority_supersededRow now attempts reason)

/-- A lease that a sender holds settles its callback. -/
theorem settleHeldCallback_commits (H : Digests η) (now : Time) (status : CallbackStatus)
    (attempts : ℤ) (payload : CallbackPayload η) (lastError : String) (hd : d.Linked)
    (hheld : d.held name token generation = some c) :
    ∃ d', d.settleHeldCallback H now status name token generation attempts payload lastError =
        .ok (d', some (settledRow status now attempts payload (lastChars 2000 lastError) c)) ∧
      d'.outbox.get? name =
        some (settledRow status now attempts payload (lastChars 2000 lastError) c) := by
  rw [settleHeldCallback, hheld]
  exact settleCallback_commits H hd (held_eq_some.mp hheld).1
    (sameAuthority_settledRow now attempts payload _ status)

/-! ## Delivery -/

/-- The delivery operations apply to a callback whenever its status allows them. A callback that is
not the current result of its run is superseded where it would be delivered. -/
structure Deliverable (H : Digests η) (d : DeliveryStore η) (name : CallbackName η)
    (c : Callback η) : Prop where
  claim : ∀ now, c.status = .pending → ∃ d',
    (d.store.terminalCallbackIsCurrent H name c = true ∧ ∃ token expiresAt,
      d.claimPendingCallback H now name = .ok (d', some (leasedRow now token expiresAt c)) ∧
        d'.outbox.get? name = some (leasedRow now token expiresAt c)) ∨
    (d.store.terminalCallbackIsCurrent H name c = false ∧
      d.claimPendingCallback H now name = .ok (d', none) ∧
        d'.outbox.get? name = some (supersededRow now "terminal_result_superseded" 0 c))
  httpAccepted : ∀ now token generation attempts payload, heldBy token generation c = true →
    ∃ d' c', d.markCallbackHttpAccepted H now name token generation attempts payload =
        .ok (d', some c') ∧ d'.outbox.get? name = some c' ∧
      c' = if d.store.terminalCallbackIsCurrent H name c then acceptedRow now attempts payload c
        else supersededRow now "terminal_result_superseded" attempts c
  pending : ∀ now token generation attempts payload lastError,
    heldBy token generation c = true → ∃ d' c',
      d.markCallbackPending H now name (some token) (some generation) attempts payload lastError =
        .ok (d', some c') ∧ d'.outbox.get? name = some c' ∧
      c' = settledRow .pending now attempts payload (lastChars 2000 lastError) c
  deadLettered : ∀ now token generation attempts payload lastError,
    heldBy token generation c = true → ∃ d' c',
      d.markCallbackDeadLettered H now name (some token) (some generation) attempts payload
        lastError = .ok (d', some c') ∧ d'.outbox.get? name = some c' ∧
      c' = settledRow .deadLettered now attempts payload (lastChars 2000 lastError) c
  reclaim : ∀ now staleBefore limit, ∃ d' n,
    d.reclaimStaleDeliveringCallbacks H now staleBefore limit = .ok (d', n) ∧
      d'.outbox.get? name =
        some (if name ∈ d.staleCallbacks now staleBefore limit then reclaimedRow now c else c)

theorem deliverable_of_linked (hd : d.Linked) (hc : d.outbox.get? name = some c) :
    Deliverable H d name c where
  claim now hpending := by
    rw [claimPendingCallback, hc]
    simp only [hpending, bne_self_eq_false, Bool.false_eq_true, if_false]
    cases hcurrent : d.store.terminalCallbackIsCurrent H name c with
    | true =>
      obtain ⟨d', token, expiresAt, h, hrow⟩ := leaseCallback_commits H now hd hc
      exact ⟨d', Or.inl ⟨rfl, token, expiresAt, h, hrow⟩⟩
    | false =>
      obtain ⟨d', h, hrow⟩ := supersedeTerminalCallback_commits H now "terminal_result_superseded"
        0 hd hc (Or.inl hpending)
      exact ⟨d', Or.inr ⟨rfl, bind_eq_ok.mpr ⟨_, h, rfl⟩, hrow⟩⟩
  httpAccepted now token generation attempts payload hby := by
    rw [markCallbackHttpAccepted, held_eq_some.mpr ⟨hc, hby⟩]
    cases hcurrent : d.store.terminalCallbackIsCurrent H name c with
    | true =>
      obtain ⟨d', h, hrow⟩ := settleCallback_commits H hd hc
        (sameAuthority_acceptedRow now attempts payload)
      exact ⟨d', _, by simpa [hcurrent] using h, hrow, rfl⟩
    | false =>
      obtain ⟨d', h, hrow⟩ := supersedeTerminalCallback_commits H now "terminal_result_superseded"
        attempts hd hc (Or.inr (heldBy_eq_true.mp hby).1)
      exact ⟨d', _, by simpa [hcurrent] using h, hrow, rfl⟩
  pending now token generation attempts payload lastError hby := by
    obtain ⟨d', h, hrow⟩ := settleHeldCallback_commits H now .pending attempts payload lastError hd
      (held_eq_some.mpr ⟨hc, hby⟩)
    exact ⟨d', _, h, hrow, rfl⟩
  deadLettered now token generation attempts payload lastError hby := by
    obtain ⟨d', h, hrow⟩ := settleHeldCallback_commits H now .deadLettered attempts payload lastError hd
      (held_eq_some.mpr ⟨hc, hby⟩)
    exact ⟨d', _, h, hrow, rfl⟩
  reclaim now staleBefore limit := by
    obtain ⟨d₁, h₁, hd₁⟩ := foldlM_commits (H := H)
      (f := fun d name => d.updateCallback H name (reclaimedRow now))
      (fun d name d' h => .update name _ h)
      (fun d name hd => updateCallback_commits H name hd (sameAuthority_reclaimedRow now))
      (d.staleCallbacks now staleBefore limit) hd
    obtain ⟨d₂, h₂, -⟩ := foldlM_commits (H := H) (f := appendCallbackTrace)
      (fun d name d' h => .trace name h) (fun d name hd => appendCallbackTrace_commits name hd)
      (d.staleCallbacks now staleBefore limit) hd₁
    have h : d.reclaimStaleDeliveringCallbacks H now staleBefore limit =
        .ok (d₂, (d.staleCallbacks now staleBefore limit).length) :=
      bind_eq_ok.mpr ⟨d₁, h₁, bind_eq_ok.mpr ⟨d₂, h₂, rfl⟩⟩
    refine ⟨d₂, _, h, ?_⟩
    rw [(outbox_reclaimStaleDeliveringCallbacks h).2, hc, Option.map_some]

/-- A prepared intent keeps its identity. -/
theorem callbackId_of_prepareCallbackIntent {s : Store} {p : PreparedIntent η}
    (h : s.prepareCallbackIntent H i = .ok p) : i.callbackId = some p.callbackId := by
  rw [Store.prepareCallbackIntent] at h
  split at h
  · cases h
  · cases h
  rename_i name workerId hname hworker
  split at h
  · cases h
  rw [hname]
  split at h
  · simp only [Store.prepareWorkerCallback, bind_eq_ok] at h
    obtain ⟨_, -, _, -, _, -, _, -, h⟩ := h
    rw [← Except.ok.inj h]
  · rw [Store.prepareRunCallback] at h
    split at h
    · cases h
    simp only [bind_eq_ok] at h
    obtain ⟨_, -, _, -, _, -, _, -, _, -, _, -, _, -, h⟩ := h
    rw [← Except.ok.inj h]

/-- A stored callback stays. -/
theorem stored_run (H : Digests η) (calls : List (DeliveryCall η)) (hc : d.outbox.get? name = some c) :
    ∃ c', (Transition.run (step H) d calls).outbox.get? name = some c' := by
  induction calls generalizing d c with
  | nil => exact ⟨c, hc⟩
  | cons call calls ih =>
    obtain ⟨c', hc', -⟩ := rowsFollow_step.row name c hc
    exact ih hc'

/-- Every callback intent that a reachable store accepts is stored, and stays deliverable whatever
happens later. -/
theorem insertCallbackIntent_deliverable (H : Digests η) (settings : Settings)
    (delivery : DeliverySettings) (calls later : List (DeliveryCall η)) (now : Time)
    (i : CallbackIntent η) {out : Option (Callback η)}
    (h : (Transition.run (step H) (init settings delivery) calls).insertCallbackIntent H now i =
      .ok (d', out)) :
    ∃ name c, i.callbackId = some name ∧
      (Transition.run (step H) d' later).outbox.get? name = some c ∧
      Deliverable H (Transition.run (step H) d' later) name c := by
  have hlinked := invariant_run_of_statement (H := H) (fun _ _ => linked_statement)
    (linked_init settings delivery) calls
  have hd' : d'.Linked := by
    have hcommits := commits_insertCallbackIntent h
    clear h
    induction hcommits with
    | refl => exact hlinked
    | tail _ hs ih => exact linked_statement ih hs
  obtain ⟨-, p, hp, hrow⟩ := outbox_insertCallbackIntent h
  have hstored : ∃ c, d'.outbox.get? p.callbackId = some c := by
    rw [hrow, if_pos rfl]
    cases (Transition.run (step H) (init settings delivery) calls).outbox.get? p.callbackId with
    | none => exact ⟨_, rfl⟩
    | some c => exact ⟨c, rfl⟩
  obtain ⟨c, hc⟩ := hstored
  obtain ⟨c', hc'⟩ := stored_run H later hc
  exact ⟨p.callbackId, c', callbackId_of_prepareCallbackIntent hp, hc',
    deliverable_of_linked
      (invariant_run_of_statement (H := H) (fun _ _ => linked_statement) hd' later) hc'⟩

/-- Digests for callbacks that are never digested. -/
def noDigests : Digests Unit where
  result _ := ()
  terminalId _ := ()
  name _ := ()
  payload _ := ()
  authority _ := ()
  event _ := ()
  acceptedRunInput _ _ := none

/-- A callback of worker `1` that no run caused. -/
def resumedIntent : CallbackIntent Unit where
  callbackId := some (.text "cb_resumed")
  projectId := 0
  workerId := some 1
  tenantId := 0
  runId := none
  attemptNumber := .null
  eventType := "worker.resumed_by_alias"
  url := "https://callback"
  payload := .object
    { callbackId := none, event := "", workerId := none, runId := none, attemptNumber := .null,
      resultState := none, resultEndedAt := none, resultRevision := .null, resultDigest := .empty,
      callbackTs := none, runInput := none, originRef := none, workRef := none, rest := "" }
  resultRevision := .null
  resultDigest := .empty

/-- A project `0` with a worker `1`. -/
def workerCalls : List (DeliveryCall Unit) :=
  withWorker.map fun c => ⟨c.now, .store c.op⟩

theorem insertCallbackIntent_deliverable_resumed : ∃ d' out,
    (Transition.run (step noDigests) (init Settings.default DeliverySettings.default)
      workerCalls).insertCallbackIntent noDigests 3 resumedIntent = .ok (d', out) ∧
    ∃ name c, resumedIntent.callbackId = some name ∧
      (Transition.run (step noDigests) d'
        [⟨4, .claimPendingCallback name⟩]).outbox.get? name = some c ∧
      Deliverable noDigests
        (Transition.run (step noDigests) d' [⟨4, .claimPendingCallback name⟩]) name c := by
  have hok : ((Transition.run (step noDigests) (init Settings.default DeliverySettings.default)
      workerCalls).insertCallbackIntent noDigests 3 resumedIntent).isOk = true := by decide
  cases h : (Transition.run (step noDigests) (init Settings.default DeliverySettings.default)
      workerCalls).insertCallbackIntent noDigests 3 resumedIntent with
  | error e =>
    rw [h] at hok
    cases hok
  | ok r =>
    obtain ⟨name, c, hname, hc, hdeliverable⟩ := insertCallbackIntent_deliverable noDigests
      Settings.default DeliverySettings.default workerCalls
      [⟨4, .claimPendingCallback (.text "cb_resumed")⟩] 3 resumedIntent h
    obtain rfl := Option.some.inj hname
    exact ⟨r.1, r.2, rfl, _, c, rfl, hc, hdeliverable⟩

end DeliveryStore

end GlassHive
