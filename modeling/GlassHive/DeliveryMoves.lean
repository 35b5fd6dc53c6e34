import GlassHive.Delivery

/-!
# What a transaction does to a callback

Every delivery operation settles at most one row, and the reclaim settles the stale ones. The step
lemma says which row each operation may leave in place of another; the delivery lease protocol and
the delivery of every callback are read off it.
-/

namespace GlassHive

open Relational

variable {η : Type} [DecidableEq η]

namespace DeliveryStore

variable {H : Digests η} {d d' : DeliveryStore η} {name : CallbackName η} {c : Callback η}
  {f : Callback η → Callback η} {out : Option (Callback η)} {now staleBefore : Time} {α β : Type}
  {token : TokenText} {generation : ℤ} {limit : ℕ} {names : List (CallbackName η)}

theorem bind_eq_ok {x : Except StoreError α} {f : α → Except StoreError β} {b : β} :
    (x >>= f) = .ok b ↔ ∃ a, x = .ok a ∧ f a = .ok b := by
  cases x with
  | error => exact ⟨fun h => (nomatch h), fun ⟨_, h, _⟩ => (nomatch h)⟩
  | ok a =>
    constructor
    · exact fun h => ⟨a, rfl, h⟩
    · rintro ⟨_, h, hb⟩
      cases h
      exact hb

theorem map_eq_ok {x : Except StoreError α} {f : α → β} {b : β} :
    x.map f = .ok b ↔ ∃ a, x = .ok a ∧ f a = b := by
  cases x with
  | error => exact ⟨fun h => (nomatch h), fun ⟨_, h, _⟩ => (nomatch h)⟩
  | ok a =>
    constructor
    · exact fun h => ⟨a, rfl, Except.ok.inj h⟩
    · rintro ⟨_, h, rfl⟩
      cases h
      rfl

/-! ## One row -/

/-- The outbox with one row changed, over the same runs. -/
structure Settles (d : DeliveryStore η) (name : CallbackName η) (f : Callback η → Callback η)
    (d' : DeliveryStore η) : Prop where
  row : ∀ k, d'.outbox.get? k = (d.outbox.get? k).map fun c => if k = name then f c else c
  runs : d'.store.runs = d.store.runs

theorem Settles.get? (h : d.Settles name f d') {k : CallbackName η} (hc : d.outbox.get? k = some c) :
    d'.outbox.get? k = some (if k = name then f c else c) := by
  rw [h.row, hc, Option.map_some]

theorem settles_updateCallback (h : d.updateCallback H name f = .ok d') : d.Settles name f d' := by
  rcases updateCallback_cases h with ⟨hnone, rfl⟩ | ⟨c, hc, -, -, rfl⟩
  · refine ⟨fun k => ?_, rfl⟩
    by_cases hk : k = name
    · rw [hk, hnone, Option.map_none]
    · simp [hk]
  · refine ⟨fun k => ?_, rfl⟩
    simp only [Table.get?_update, beq_iff_eq]

theorem outbox_appendCallbackTrace (h : d.appendCallbackTrace name = .ok d') :
    d'.outbox = d.outbox ∧ d'.store.runs = d.store.runs := by
  rcases appendCallbackTrace_cases h with rfl | ⟨_, _, _, _, _, -, -, -, -, rfl⟩ <;>
    exact ⟨rfl, rfl⟩

theorem settles_settleCallback (h : d.settleCallback H name f = .ok (d', out)) :
    d.Settles name f d' := by
  obtain ⟨d₁, h₁, h⟩ := bind_eq_ok.mp h
  obtain ⟨d₂, h₂, h⟩ := bind_eq_ok.mp h
  obtain ⟨rfl, -⟩ := Prod.mk.inj (Except.ok.inj h)
  obtain ⟨houtbox, hruns⟩ := outbox_appendCallbackTrace h₂
  have hsettles := settles_updateCallback h₁
  exact ⟨fun k => by rw [houtbox, hsettles.row], hruns.trans hsettles.runs⟩

theorem settles_leaseCallback (h : d.leaseCallback H now name = .ok (d', out)) :
    d.Settles name (leasedRow now d.store.nextId (now + d.settings.leaseTime)) d' := by
  have hsettles := settles_settleCallback h
  exact ⟨hsettles.row, hsettles.runs⟩

/-- A superseded callback was open. -/
theorem settles_supersedeTerminalCallback {reason : String} {attempts : ℤ}
    (hc : d.outbox.get? name = some c) (hopen : c.status = .pending ∨ c.status = .delivering)
    (h : d.supersedeTerminalCallback H now name reason attempts = .ok (d', out)) :
    d.Settles name (supersededRow now reason attempts) d' := by
  rw [supersedeTerminalCallback, hc] at h
  simp only [oneOf_eq_true, List.mem_cons, List.not_mem_nil, or_false, hopen, if_true] at h
  exact settles_settleCallback h

theorem held_eq_some :
    d.held name token generation = some c ↔
      d.outbox.get? name = some c ∧ heldBy token generation c = true := by
  rw [held, Option.filter_eq_some_iff]

omit [DecidableEq η] in
theorem heldBy_eq_true : heldBy token generation c = true ↔
    c.status = .delivering ∧ token.isToken c.deliveryLeaseToken = true ∧
      c.deliveryGeneration = generation := by
  simp only [heldBy, Bool.and_eq_true, beq_iff_eq, and_assoc]

/-! ## The stale callbacks -/

theorem mem_staleCallbacks (h : name ∈ d.staleCallbacks now staleBefore limit) :
    ∃ c, d.outbox.get? name = some c ∧ stale now staleBefore c = true := by
  obtain ⟨⟨k, c⟩, hmem, rfl⟩ := List.mem_map.mp h
  have hselect := (List.mergeSort_perm _ _).subset (List.mem_of_mem_take hmem)
  exact ⟨c, Table.mem_select.mp hselect⟩

omit [DecidableEq η] in
/-- A row is reclaimed once, however often its name is listed. -/
theorem reclaimedRow_reclaimedRow (now : Time) (c : Callback η) :
    reclaimedRow now (reclaimedRow now c) = reclaimedRow now c := by
  simp only [reclaimedRow]
  split <;> simp_all

theorem outbox_reclaimUpdates
    (h : names.foldlM (fun d name => d.updateCallback H name (reclaimedRow now)) d = .ok d') :
    d'.store.runs = d.store.runs ∧ ∀ k, d'.outbox.get? k =
      (d.outbox.get? k).map fun c => if k ∈ names then reclaimedRow now c else c := by
  induction names generalizing d with
  | nil =>
    rw [List.foldlM_nil] at h
    obtain rfl := Except.ok.inj h
    exact ⟨rfl, fun k => by simp⟩
  | cons name names ih =>
    rw [List.foldlM_cons] at h
    obtain ⟨d₁, h₁, h⟩ := bind_eq_ok.mp h
    have hsettles := settles_updateCallback h₁
    obtain ⟨hruns, hrow⟩ := ih h
    refine ⟨hruns.trans hsettles.runs, fun k => ?_⟩
    rw [hrow, hsettles.row, Option.map_map]
    congr 1
    funext c
    simp only [Function.comp_apply, List.mem_cons]
    by_cases hk : k = name <;> by_cases hmem : k ∈ names <;>
      simp [hk, hmem, reclaimedRow_reclaimedRow]

theorem outbox_reclaimTraces (h : names.foldlM appendCallbackTrace d = .ok d') :
    d'.outbox = d.outbox ∧ d'.store.runs = d.store.runs := by
  induction names generalizing d with
  | nil =>
    rw [List.foldlM_nil] at h
    obtain rfl := Except.ok.inj h
    exact ⟨rfl, rfl⟩
  | cons name names ih =>
    rw [List.foldlM_cons] at h
    obtain ⟨d₁, h₁, h⟩ := bind_eq_ok.mp h
    obtain ⟨houtbox, hruns⟩ := outbox_appendCallbackTrace h₁
    obtain ⟨houtbox', hruns'⟩ := ih h
    exact ⟨houtbox'.trans houtbox, hruns'.trans hruns⟩

theorem outbox_reclaimStaleDeliveringCallbacks {n : ℕ}
    (h : d.reclaimStaleDeliveringCallbacks H now staleBefore limit = .ok (d', n)) :
    d'.store.runs = d.store.runs ∧ ∀ k, d'.outbox.get? k = (d.outbox.get? k).map fun c =>
      if k ∈ d.staleCallbacks now staleBefore limit then reclaimedRow now c else c := by
  obtain ⟨d₁, h₁, h⟩ := bind_eq_ok.mp h
  obtain ⟨d₂, h₂, h⟩ := bind_eq_ok.mp h
  obtain ⟨rfl, -⟩ := Prod.mk.inj (Except.ok.inj h)
  obtain ⟨hruns, hrow⟩ := outbox_reclaimUpdates h₁
  obtain ⟨houtbox, hruns'⟩ := outbox_reclaimTraces h₂
  exact ⟨hruns'.trans hruns, fun k => by rw [houtbox, hrow]⟩

/-! ## New callbacks -/

theorem outbox_insertOutbox (h : d.insertOutbox H name c = .ok d') :
    d'.store = d.store ∧ ∀ k, d'.outbox.get? k =
      (d.outbox.get? k).or (if k = name then some c else none) := by
  rw [insertOutbox] at h
  split at h
  · rename_i hins
    obtain rfl := Except.ok.inj h
    refine ⟨rfl, fun k => ?_⟩
    split
    · rename_i hk
      cases hget : d.outbox.get? k with
      | some => rfl
      | none =>
        rw [hk] at hget
        rw [← Table.insert?_isSome (r := c), hins] at hget
        cases hget
    · rw [Option.or_none]
  · rename_i outbox hins
    split at h
    · cases h
    · rw [traceOutbox_eq] at h
      split at h
      · cases h
      · obtain rfl := Except.ok.inj h
        refine ⟨rfl, fun k => ?_⟩
        rw [Table.get?_insert hins]
        split
        · rename_i hk
          rw [hk, (Table.insert?_eq_some hins).1]
          rfl
        · rw [Option.or_none]

/-- An intent that is accepted is stored under its name, unless its row is there. -/
theorem outbox_insertCallbackIntent {i : CallbackIntent η}
    (h : d.insertCallbackIntent H now i = .ok (d', out)) :
    d'.store.runs = d.store.runs ∧ ∃ p, d.store.prepareCallbackIntent H i = .ok p ∧
      ∀ k, d'.outbox.get? k = (d.outbox.get? k).or (if k = p.callbackId then
        some (p.row (d.store.callbackCreatedAt now p.runId)) else none) := by
  obtain ⟨p, hp, h⟩ := bind_eq_ok.mp h
  obtain ⟨d₁, h₁, h⟩ := bind_eq_ok.mp h
  obtain ⟨hstore, hrow⟩ := outbox_insertOutbox h₁
  split at h
  · cases h
  · obtain ⟨_, -, h⟩ := bind_eq_ok.mp h
    obtain ⟨d₂, h₂, h⟩ := bind_eq_ok.mp h
    obtain ⟨rfl, -⟩ := Prod.mk.inj (Except.ok.inj h)
    obtain ⟨houtbox, hruns⟩ := outbox_appendCallbackTrace h₂
    refine ⟨hruns.trans (by rw [hstore]), p, hp, fun k => ?_⟩
    rw [houtbox, hrow]

theorem call_eq_ok {c : Call} (h : d.call c = .ok d') :
    d' = { d with store := d.store.step c } ∧
      ∀ k e, d.ledger.get? k = some e → ((d.store.step c).runs.get? k.1).isSome = true := by
  rw [call] at h
  split at h
  · cases h
  · rename_i hrefers
    rw [Bool.or_eq_true, not_or, Bool.not_eq_true, Bool.not_eq_true, Table.any_eq_false,
      Table.any_eq_false] at hrefers
    refine ⟨(Except.ok.inj h).symm, fun k e he => ?_⟩
    have hsome := hrefers.2 k e he
    rwa [Option.isNone_eq_false_iff] at hsome

end DeliveryStore

/-! ## The step lemma -/

open DeliveryStore

/-- The operation may leave the row `c'` in place of the row `c` of a callback. -/
def DeliveryCall.Changes (call : DeliveryCall η) (name : CallbackName η) (c c' : Callback η) :
    Prop :=
  match call.op with
  | .store _ | .insertCallbackIntent _ => False
  | .callbackDeliveryIsCurrent n token generation =>
    n = name ∧ heldBy token generation c = true ∧
      c' = supersededRow call.now "terminal_result_superseded" 0 c
  | .expireCallbackDeliveryLease n token generation =>
    n = name ∧ heldBy token generation c = true ∧ c' = expiredRow (call.now - 1000000) c
  | .markCallbackHttpAccepted n token generation attempts payload =>
    n = name ∧ heldBy token generation c = true ∧
      (c' = acceptedRow call.now attempts payload c ∨
        c' = supersededRow call.now "terminal_result_superseded" attempts c)
  | .claimPendingCallback n =>
    n = name ∧ c.status = .pending ∧
      ((∃ token expiresAt, c' = leasedRow call.now token expiresAt c) ∨
        c' = supersededRow call.now "terminal_result_superseded" 0 c)
  | .claimTerminalCallbackRecovery _ _ =>
    c.status = .deadLettered ∧ ∃ token expiresAt, c' = leasedRow call.now token expiresAt c
  | .markCallbackPending n token generation attempts payload lastError =>
    n = name ∧ (∃ g, generation = some g ∧ heldBy (token.getD .other) g c = true) ∧
      c' = settledRow .pending call.now attempts payload (lastChars 2000 lastError) c
  | .markCallbackDeadLettered n token generation attempts payload lastError =>
    n = name ∧
      ((∃ t g, token = some t ∧ generation = some g ∧ heldBy t g c = true ∧
          c' = settledRow .deadLettered call.now attempts payload (lastChars 2000 lastError) c) ∨
        (token = none ∨ generation = none) ∧
          c' = deadLetteredRow call.now attempts payload (lastChars 2000 lastError) c)
  | .markCallbackReceiverSuperseded n token generation attempts _ =>
    n = name ∧ heldBy token generation c = true ∧
      c' = supersededRow call.now "receiver_result_superseded" attempts c
  | .reclaimStaleDeliveringCallbacks staleBefore _ =>
    stale call.now staleBefore c = true ∧ c' = reclaimedRow call.now c

namespace DeliveryStore

variable {H : Digests η} {d d' : DeliveryStore η} {call : DeliveryCall η} {name : CallbackName η}
  {c : Callback η}

/-- The rows of the callbacks after a transaction. -/
structure RowsFollow (d : DeliveryStore η) (call : DeliveryCall η) (d' : DeliveryStore η) :
    Prop where
  row : ∀ name c, d.outbox.get? name = some c → ∃ c', d'.outbox.get? name = some c' ∧
    (c' = c ∨ call.Changes name c c')
  fresh : ∀ name c', d.outbox.get? name = none → d'.outbox.get? name = some c' →
    ∃ (p : PreparedIntent η) (createdAt : Time), c' = p.row createdAt

theorem rowsFollow_refl : d.RowsFollow call d where
  row _ c hc := ⟨c, hc, Or.inl rfl⟩
  fresh _ c' hnone hc' := by
    rw [hnone] at hc'
    cases hc'

/-- A transaction that settles one row follows when the operation may leave that row. -/
theorem rowsFollow_of_settles {f : Callback η → Callback η} (h : d.Settles name f d')
    (hchanges : ∀ c, d.outbox.get? name = some c → call.Changes name c (f c)) :
    d.RowsFollow call d' where
  row k c hc := by
    refine ⟨_, h.get? hc, ?_⟩
    split
    · rename_i hk
      exact Or.inr (hk ▸ hchanges c (hk ▸ hc))
    · exact Or.inl rfl
  fresh k c' hnone hc' := by
    rw [h.row, hnone] at hc'
    cases hc'

variable {out : Option (Callback η)} {now : Time} {token : TokenText} {generation attempts : ℤ}

theorem rowsFollow_claimPendingCallback (h : d.claimPendingCallback H now name = .ok (d', out)) :
    d.RowsFollow ⟨now, .claimPendingCallback name⟩ d' := by
  rw [claimPendingCallback] at h
  split at h
  · obtain ⟨rfl, -⟩ := Prod.mk.inj (Except.ok.inj h)
    exact rowsFollow_refl
  rename_i c hc
  split at h
  · obtain ⟨rfl, -⟩ := Prod.mk.inj (Except.ok.inj h)
    exact rowsFollow_refl
  rename_i hpending
  rw [bne_iff_ne, ne_eq, not_not] at hpending
  have hrow : ∀ c', d.outbox.get? name = some c' → c'.status = .pending := fun c' hc' => by
    rw [← Option.some.inj (hc.symm.trans hc')]
    exact hpending
  split at h
  · exact rowsFollow_of_settles (settles_leaseCallback h) fun c' hc' =>
      ⟨rfl, hrow c' hc', Or.inl ⟨_, _, rfl⟩⟩
  · obtain ⟨⟨d₁, row⟩, h₁, h⟩ := bind_eq_ok.mp h
    obtain ⟨rfl, -⟩ := Prod.mk.inj (Except.ok.inj h)
    exact rowsFollow_of_settles (settles_supersedeTerminalCallback hc (Or.inl hpending) h₁)
      fun c' hc' => ⟨rfl, hrow c' hc', Or.inr rfl⟩

theorem rowsFollow_claimTerminalCallbackRecovery {v : Recovery η}
    (h : d.claimTerminalCallbackRecovery H now name v = .ok (d', out)) :
    d.RowsFollow ⟨now, .claimTerminalCallbackRecovery name v⟩ d' := by
  rw [claimTerminalCallbackRecovery] at h
  split at h
  · obtain ⟨rfl, -⟩ := Prod.mk.inj (Except.ok.inj h)
    exact rowsFollow_refl
  rename_i n _
  split at h
  · obtain ⟨rfl, -⟩ := Prod.mk.inj (Except.ok.inj h)
    exact rowsFollow_refl
  rename_i c hc
  split at h
  · rename_i hguard
    simp only [Bool.and_eq_true, beq_iff_eq] at hguard
    refine rowsFollow_of_settles (settles_leaseCallback h) fun c' hc' => ?_
    rw [← Option.some.inj (hc.symm.trans hc')]
    exact ⟨hguard.1.1, _, _, rfl⟩
  · obtain ⟨rfl, -⟩ := Prod.mk.inj (Except.ok.inj h)
    exact rowsFollow_refl

/-- The row of a callback that a sender holds. -/
theorem heldBy_of_held {c' : Callback η} (hheld : d.held name token generation = some c)
    (hc' : d.outbox.get? name = some c') : heldBy token generation c' = true := by
  obtain ⟨hc, hby⟩ := held_eq_some.mp hheld
  rwa [← Option.some.inj (hc.symm.trans hc')]

theorem settles_supersede_of_held {reason : String} (hheld : d.held name token generation = some c)
    (h : d.supersedeTerminalCallback H now name reason attempts = .ok (d', out)) :
    d.Settles name (supersededRow now reason attempts) d' := by
  obtain ⟨hc, hby⟩ := held_eq_some.mp hheld
  exact settles_supersedeTerminalCallback hc (Or.inr (heldBy_eq_true.mp hby).1) h

/-- A settlement under a lease. -/
theorem settles_settleHeldCallback {status : CallbackStatus} {payload : CallbackPayload η}
    {lastError : String}
    (h : d.settleHeldCallback H now status name token generation attempts payload lastError = .ok (d', out)) :
    d' = d ∨ (∃ c, d.held name token generation = some c) ∧
      d.Settles name (settledRow status now attempts payload (lastChars 2000 lastError)) d' := by
  rw [settleHeldCallback] at h
  split at h
  · exact Or.inl (Prod.mk.inj (Except.ok.inj h)).1.symm
  · rename_i c hheld
    exact Or.inr ⟨⟨c, hheld⟩, settles_settleCallback h⟩

theorem rowsFollow_reclaim {staleBefore : Time} {limit n : ℕ}
    (h : d.reclaimStaleDeliveringCallbacks H now staleBefore limit = .ok (d', n)) :
    d.RowsFollow ⟨now, .reclaimStaleDeliveringCallbacks staleBefore limit⟩ d' := by
  obtain ⟨-, hrow⟩ := outbox_reclaimStaleDeliveringCallbacks h
  refine ⟨fun k c hc => ⟨_, by rw [hrow, hc, Option.map_some], ?_⟩, fun k c' hnone hc' => ?_⟩
  · split
    · rename_i hmem
      obtain ⟨c', hc', hstale⟩ := mem_staleCallbacks hmem
      rw [← Option.some.inj (hc.symm.trans hc')] at hstale
      exact Or.inr ⟨hstale, rfl⟩
    · exact Or.inl rfl
  · rw [hrow, hnone] at hc'
    cases hc'

/-- What one transaction does to the rows of the callbacks. -/
theorem rowsFollow_perform (h : d.perform H call = .ok d') : d.RowsFollow call d' := by
  obtain ⟨now, op⟩ := call
  cases op with
  | store op =>
    obtain ⟨rfl, -⟩ := call_eq_ok h
    have hrefl : d.RowsFollow ⟨now, .store op⟩ d := rowsFollow_refl
    exact ⟨hrefl.row, hrefl.fresh⟩
  | insertCallbackIntent =>
    obtain ⟨⟨d₁, out⟩, h₁, rfl⟩ := map_eq_ok.mp h
    obtain ⟨-, p, -, hrow⟩ := outbox_insertCallbackIntent h₁
    refine ⟨fun k c hc => ⟨c, by rw [hrow, hc, Option.some_or], Or.inl rfl⟩,
      fun k c' hnone hc' => ?_⟩
    dsimp only at hc'
    rw [hrow, hnone, Option.none_or] at hc'
    split at hc'
    · obtain rfl := Option.some.inj hc'
      exact ⟨p, _, rfl⟩
    · cases hc'
  | callbackDeliveryIsCurrent =>
    obtain ⟨⟨d₁, out⟩, h₁, rfl⟩ := map_eq_ok.mp h
    rw [callbackDeliveryIsCurrent] at h₁
    split at h₁
    · obtain ⟨rfl, -⟩ := Prod.mk.inj (Except.ok.inj h₁)
      exact rowsFollow_refl
    rename_i c hheld
    split at h₁
    · obtain ⟨rfl, -⟩ := Prod.mk.inj (Except.ok.inj h₁)
      exact rowsFollow_refl
    · obtain ⟨⟨d₂, row⟩, h₂, h₁⟩ := bind_eq_ok.mp h₁
      obtain ⟨rfl, -⟩ := Prod.mk.inj (Except.ok.inj h₁)
      exact rowsFollow_of_settles (settles_supersede_of_held hheld h₂) fun c' hc' =>
        ⟨rfl, heldBy_of_held hheld hc', rfl⟩
  | expireCallbackDeliveryLease =>
    obtain ⟨⟨d₁, out⟩, h₁, rfl⟩ := map_eq_ok.mp h
    rw [expireCallbackDeliveryLease] at h₁
    split at h₁
    · obtain ⟨rfl, -⟩ := Prod.mk.inj (Except.ok.inj h₁)
      exact rowsFollow_refl
    · rename_i c hheld
      obtain ⟨⟨d₂, row⟩, h₂, h₁⟩ := bind_eq_ok.mp h₁
      obtain ⟨rfl, -⟩ := Prod.mk.inj (Except.ok.inj h₁)
      exact rowsFollow_of_settles (settles_settleCallback h₂) fun c' hc' =>
        ⟨rfl, heldBy_of_held hheld hc', rfl⟩
  | markCallbackHttpAccepted =>
    obtain ⟨⟨d₁, out⟩, h₁, rfl⟩ := map_eq_ok.mp h
    rw [markCallbackHttpAccepted] at h₁
    split at h₁
    · obtain ⟨rfl, -⟩ := Prod.mk.inj (Except.ok.inj h₁)
      exact rowsFollow_refl
    rename_i c hheld
    split at h₁
    · exact rowsFollow_of_settles (settles_settleCallback h₁) fun c' hc' =>
        ⟨rfl, heldBy_of_held hheld hc', Or.inl rfl⟩
    · exact rowsFollow_of_settles (settles_supersede_of_held hheld h₁) fun c' hc' =>
        ⟨rfl, heldBy_of_held hheld hc', Or.inr rfl⟩
  | claimPendingCallback =>
    obtain ⟨⟨d₁, out⟩, h₁, rfl⟩ := map_eq_ok.mp h
    exact rowsFollow_claimPendingCallback h₁
  | claimTerminalCallbackRecovery =>
    obtain ⟨⟨d₁, out⟩, h₁, rfl⟩ := map_eq_ok.mp h
    exact rowsFollow_claimTerminalCallbackRecovery h₁
  | markCallbackPending name token generation =>
    obtain ⟨⟨d₁, out⟩, h₁, rfl⟩ := map_eq_ok.mp h
    cases generation with
    | none => cases h₁
    | some g =>
      rcases settles_settleHeldCallback h₁ with rfl | ⟨⟨c, hheld⟩, hsettles⟩
      · exact rowsFollow_refl
      · exact rowsFollow_of_settles hsettles fun c' hc' =>
          ⟨rfl, ⟨g, rfl, heldBy_of_held hheld hc'⟩, rfl⟩
  | markCallbackDeadLettered name token generation =>
    obtain ⟨⟨d₁, out⟩, h₁, rfl⟩ := map_eq_ok.mp h
    unfold markCallbackDeadLettered at h₁
    split at h₁
    · rename_i t g
      rcases settles_settleHeldCallback h₁ with rfl | ⟨⟨c, hheld⟩, hsettles⟩
      · exact rowsFollow_refl
      · exact rowsFollow_of_settles hsettles fun c' hc' =>
          ⟨rfl, Or.inl ⟨t, g, rfl, rfl, heldBy_of_held hheld hc', rfl⟩⟩
    · rename_i hnone
      obtain ⟨d₂, h₂, h₁⟩ := bind_eq_ok.mp h₁
      obtain ⟨rfl, -⟩ := Prod.mk.inj (Except.ok.inj h₁)
      refine rowsFollow_of_settles (settles_updateCallback h₂) fun c' hc' =>
        ⟨rfl, Or.inr ⟨?_, rfl⟩⟩
      cases token with
      | none => exact Or.inl rfl
      | some t =>
        cases generation with
        | none => exact Or.inr rfl
        | some g => exact (hnone t g rfl rfl).elim
  | markCallbackReceiverSuperseded =>
    obtain ⟨⟨d₁, out⟩, h₁, rfl⟩ := map_eq_ok.mp h
    rw [markCallbackReceiverSuperseded] at h₁
    split at h₁
    · obtain ⟨rfl, -⟩ := Prod.mk.inj (Except.ok.inj h₁)
      exact rowsFollow_refl
    rename_i c hheld
    split at h₁
    · exact rowsFollow_of_settles (settles_supersede_of_held hheld h₁) fun c' hc' =>
        ⟨rfl, heldBy_of_held hheld hc', rfl⟩
    · obtain ⟨rfl, -⟩ := Prod.mk.inj (Except.ok.inj h₁)
      exact rowsFollow_refl
  | reclaimStaleDeliveringCallbacks =>
    obtain ⟨⟨d₁, n⟩, h₁, rfl⟩ := map_eq_ok.mp h
    exact rowsFollow_reclaim h₁

/-- What one step does to the rows of the callbacks. -/
theorem rowsFollow_step : d.RowsFollow call (d.step H call) := by
  rw [step]
  split
  · rename_i h
    exact rowsFollow_perform h
  · exact rowsFollow_refl

end DeliveryStore

end GlassHive
