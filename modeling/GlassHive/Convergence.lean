import GlassHive.AttemptMoves
import GlassHive.Delivered
import GlassHive.Receiver

/-!
# Terminal results converge

A receiver keeps the highest revision that was delivered to it. What makes that independent of the
order of the deliveries is the sender: two terminal callbacks of a run with one revision are one
callback. The revision names the result of the run, and a run that has ended opens no attempt, so
that the attempt number in the identity of a callback stays the same too.
-/

namespace GlassHive

open Relational

variable {η : Type} [DecidableEq η]

/-! ## Attempt numbers of a run -/

namespace Store

variable {s s' : Store} {runId : RunId}

theorem callbackAttemptNumber_le {n : ℕ} : s.callbackAttemptNumber runId ≤ n ↔
    ∀ id t, s.attempts.get? id = some t → t.runId = runId → t.attemptNumber ≤ n := by
  constructor
  · intro hle id t ht hrun
    have hmem : (id, t) ∈ s.attempts.select fun _ a => a.runId == runId :=
      Table.mem_select.mpr ⟨ht, by simpa using hrun⟩
    exact (le_foldl_max (fun e : AttemptId × Attempt => e.2.attemptNumber) 0 hmem).trans hle
  · intro hall
    rw [callbackAttemptNumber]
    refine foldl_max_le (fun e : AttemptId × Attempt => e.2.attemptNumber) (Nat.zero_le n) ?_
    rintro ⟨id, t⟩ hmem
    obtain ⟨ht, hrun⟩ := Table.mem_select.mp hmem
    exact hall id t ht (by simpa using hrun)

/-- A run that is not queued opens no attempt. -/
theorem callbackAttemptNumber_step {c : Call} {r : Run} (hr : s.runs.get? runId = some r)
    (hstate : r.state ≠ .queued) :
    (s.step c).callbackAttemptNumber runId = s.callbackAttemptNumber runId := by
  have hstep := s.attempts_step c
  refine eq_of_forall_ge_iff fun n => ?_
  rw [callbackAttemptNumber_le, callbackAttemptNumber_le]
  constructor
  · intro hall id t ht hrun
    obtain ⟨t', ht', hfollows⟩ := hstep.kept id t ht
    rw [← hfollows.attemptNumber]
    exact hall id t' ht' (hfollows.runId.trans hrun)
  · intro hall id t' ht' hrun
    cases ht : s.attempts.get? id with
    | some t =>
      obtain ⟨t₂, ht₂, hfollows⟩ := hstep.kept id t ht
      obtain rfl := Option.some.inj (ht'.symm.trans ht₂)
      rw [hfollows.attemptNumber]
      exact hall id t ht (hfollows.runId.symm.trans hrun)
    | none =>
      have hopens := hstep.fresh id t' ht ht'
      rw [Opens] at hopens
      split at hopens
      · obtain ⟨runId', r', hclaim, -, rfl⟩ := hopens
        obtain ⟨hr', hdue⟩ := claimable_eq_some hclaim
        obtain rfl : runId' = runId := hrun
        obtain rfl := Option.some.inj (hr.symm.trans hr')
        simp only [due, Bool.and_eq_true, beq_iff_eq] at hdue
        exact absurd hdue.1.2 hstate
      · exact hopens.elim

end Store

/-! ## What identifies a callback -/

/-- The columns that a terminal identity digests, and the event. -/
structure Callback.SameResult (c c' : Callback η) : Prop where
  runId : c'.runId = c.runId
  attemptNumber : c'.attemptNumber = c.attemptNumber
  eventType : c'.eventType = c.eventType
  resultRevision : c'.resultRevision = c.resultRevision
  resultDigest : c'.resultDigest = c.resultDigest

namespace Callback

variable {c c' c'' : Callback η}

omit [DecidableEq η] in
theorem sameResult_refl : c.SameResult c :=
  ⟨rfl, rfl, rfl, rfl, rfl⟩

omit [DecidableEq η] in
theorem SameResult.trans (h : c.SameResult c') (h' : c'.SameResult c'') : c.SameResult c'' :=
  ⟨h'.1.trans h.1, h'.2.trans h.2, h'.3.trans h.3, h'.4.trans h.4, h'.5.trans h.5⟩

omit [DecidableEq η] in
theorem sameResult_expiredRow {expiredAt : Time} :
    c.SameResult (DeliveryStore.expiredRow expiredAt c) :=
  ⟨rfl, rfl, rfl, rfl, rfl⟩

end Callback

open DeliveryStore in
omit [DecidableEq η] in
/-- No operation changes what identifies a callback. -/
theorem DeliveryCall.Changes.sameResult {call : DeliveryCall η} {name : CallbackName η}
    {c c' : Callback η} (h : call.Changes name c c') : c.SameResult c' := by
  obtain ⟨now, op⟩ := call
  cases op with
  | store => exact h.elim
  | insertCallbackIntent => exact h.elim
  | callbackDeliveryIsCurrent => obtain ⟨-, -, rfl⟩ := h; exact ⟨rfl, rfl, rfl, rfl, rfl⟩
  | expireCallbackDeliveryLease => obtain ⟨-, -, rfl⟩ := h; exact Callback.sameResult_expiredRow
  | markCallbackHttpAccepted =>
    obtain ⟨-, -, rfl | rfl⟩ := h <;> exact ⟨rfl, rfl, rfl, rfl, rfl⟩
  | claimPendingCallback =>
    obtain ⟨-, -, ⟨_, _, rfl⟩ | rfl⟩ := h <;> exact ⟨rfl, rfl, rfl, rfl, rfl⟩
  | claimTerminalCallbackRecovery =>
    obtain ⟨-, _, _, rfl⟩ := h
    exact ⟨rfl, rfl, rfl, rfl, rfl⟩
  | markCallbackPending => obtain ⟨-, -, rfl⟩ := h; exact ⟨rfl, rfl, rfl, rfl, rfl⟩
  | markCallbackDeadLettered =>
    obtain ⟨-, ⟨_, _, -, -, -, rfl⟩ | ⟨-, rfl⟩⟩ := h <;> exact ⟨rfl, rfl, rfl, rfl, rfl⟩
  | markCallbackReceiverSuperseded => obtain ⟨-, -, rfl⟩ := h; exact ⟨rfl, rfl, rfl, rfl, rfl⟩
  | reclaimStaleDeliveringCallbacks => obtain ⟨-, rfl⟩ := h; exact ⟨rfl, rfl, rfl, rfl, rfl⟩

/-- A run has one wire state. -/
theorem terminalCallbackWireState_unique {state a b : RunState} {event event' : String}
    (h : terminalCallbackWireState state event = some a)
    (h' : terminalCallbackWireState state event' = some b) : a = b := by
  have hwire : ∀ {event : String} {a : RunState}, terminalCallbackWireState state event = some a →
      a = if state = .interrupted then .cancelled else state := by
    intro event a h
    rw [terminalCallbackWireState] at h
    split at h
    · rename_i hinterrupted
      simp only [Bool.and_eq_true, beq_iff_eq] at hinterrupted
      rw [if_pos hinterrupted.1, Option.some.inj h]
    · split at h
      · rename_i hterminal
        simp only [Bool.and_eq_true, oneOf_eq_true] at hterminal
        rw [← Option.some.inj h, if_neg]
        rintro rfl
        exact absurd hterminal.1 (by decide)
      · cases h
  rw [hwire h, hwire h']

/-! ## The sender -/

namespace DeliveryStore

variable {H : Digests η} {d d' : DeliveryStore η} {call : DeliveryCall η} {name : CallbackName η}
  {c c' : Callback η} {runId : RunId} {s : Store} {r : Run} {state : RunState} {endedAt now : Time}
  {i : CallbackIntent η} {out : Option (Callback η)}

/-- A terminal callback of a run. -/
structure IsTerminal (d : DeliveryStore η) (runId : RunId) (name : CallbackName η)
    (c : Callback η) : Prop where
  get : d.outbox.get? name = some c
  terminal : name.isTerminal = true
  run : c.runId = some runId

/-- The terminal callbacks of a run are named by its results: the one of its current result digests
that result, and two of them never have one revision. -/
structure Named (H : Digests η) (d : DeliveryStore η) : Prop where
  current : ∀ runId name c r, d.IsTerminal runId name c → d.store.runs.get? runId = some r →
    c.resultRevision ≤ r.terminalResultRevision ∧
    (r.state ∈ RunState.terminal → c.resultRevision = r.terminalResultRevision →
      ∃ state endedAt, terminalCallbackWireState r.state c.eventType = some state ∧
        r.endedAt = some endedAt ∧
        name = .terminal (H.terminalId (d.store.terminalIdentity H runId r state endedAt)))
  unique : ∀ runId name c name' c', d.IsTerminal runId name c → d.IsTerminal runId name' c' →
    c.resultRevision = c'.resultRevision → name = name'

theorem named_init (settings : Settings) (delivery : DeliverySettings) :
    (init settings delivery : DeliveryStore η).Named H where
  current _ _ _ _ h _ := nomatch h.get
  unique _ _ _ _ _ h _ _ := nomatch h.get

/-- Terminal callbacks that are there after a transaction other than their insertion. -/
theorem IsTerminal.before (hrows : d.RowsFollow call d') (h : d'.IsTerminal runId name c')
    (hold : (d.outbox.get? name).isSome = true) :
    ∃ c, d.IsTerminal runId name c ∧ c.SameResult c' := by
  obtain ⟨c, hc⟩ := Option.isSome_iff_exists.mp hold
  obtain ⟨c₂, hc₂, hsame⟩ := hrows.row name c hc
  obtain rfl := Option.some.inj (h.get.symm.trans hc₂)
  have hresult : c.SameResult c' := by
    rcases hsame with rfl | hchanges
    · exact Callback.sameResult_refl
    · exact hchanges.sameResult
  exact ⟨c, ⟨hc, h.terminal, hresult.runId ▸ h.run⟩, hresult⟩

omit [DecidableEq η] in
theorem terminalIdentity_congr {s' : Store}
    (h : s'.callbackAttemptNumber runId = s.callbackAttemptNumber runId) :
    s'.terminalIdentity H runId r state endedAt = s.terminalIdentity H runId r state endedAt := by
  rw [Store.terminalIdentity, Store.terminalIdentity, h]

omit [DecidableEq η] in
/-- A row of the same result has the same identity. -/
theorem terminalIdentity_of_terminalResult {r' : Run}
    (hresult : r'.terminalResult = r.terminalResult)
    (hrevision : r'.terminalResultRevision = r.terminalResultRevision) :
    s.terminalIdentity H runId r' state endedAt = s.terminalIdentity H runId r state endedAt := by
  rw [Store.terminalIdentity, Store.terminalIdentity, hrevision, Run.terminalResultDigest,
    Run.terminalResultDigest, hresult]

/-- A transaction of the store keeps the names: a run that stays at its revision has stayed
terminal. -/
theorem named_call {c : Call} (hd : d.Named H) (hlinked : d.Linked) (h : d.call c = .ok d') :
    d'.Named H := by
  obtain ⟨rfl, -⟩ := call_eq_ok h
  refine ⟨fun runId name cb r' hcb hr' => ?_, fun runId name cb name' cb' h h' =>
    hd.unique runId name cb name' cb' ⟨h.get, h.terminal, h.run⟩ ⟨h'.get, h'.terminal, h'.run⟩⟩
  have hcb₀ : d.IsTerminal runId name cb := ⟨hcb.get, hcb.terminal, hcb.run⟩
  obtain ⟨n, e, he, -⟩ := hlinked.recorded name cb runId hcb.get hcb.run
  obtain ⟨r, hr⟩ := Option.isSome_iff_exists.mp (hlinked.live _ e he)
  have hrevises : r.Revises r' := Store.revises_afterEvent (e := .call c) hr hr'
  obtain ⟨hle, hcurrent⟩ := hd.current runId name cb r hcb₀ hr
  refine ⟨hle.trans hrevises.le, fun hterminal' hrevision => ?_⟩
  have hstays : r'.terminalResultRevision = r.terminalResultRevision :=
    le_antisymm (hrevision ▸ hle) hrevises.le
  have hterminal : r.state ∈ RunState.terminal := by
    by_contra hlive
    exact absurd hstays (hrevises.entered hlive hterminal').ne'
  have hresult := hrevises.same hterminal hterminal' hstays
  obtain ⟨state, endedAt, hwire, hended, hname⟩ := hcurrent hterminal (hrevision.trans hstays)
  have hattempts : (d.store.step c).callbackAttemptNumber runId =
      d.store.callbackAttemptNumber runId :=
    Store.callbackAttemptNumber_step hr fun hqueued => absurd hterminal (by rw [hqueued]; decide)
  have hstate : r'.state = r.state := congrArg TerminalResult.state hresult
  have hended' : r'.endedAt = r.endedAt := congrArg TerminalResult.endedAt hresult
  refine ⟨state, endedAt, hstate ▸ hwire, hended'.trans hended, ?_⟩
  rw [hname, terminalIdentity_congr hattempts, terminalIdentity_of_terminalResult hresult hstays]

theorem named_of_quiets (hd : d.Named H) (hrows : d.RowsFollow call d') (h : Quiets H d d') :
    d'.Named H := by
  have hbefore : ∀ {runId name c'}, d'.IsTerminal runId name c' →
      ∃ c, d.IsTerminal runId name c ∧ c.SameResult c' := by
    intro runId name c' hc'
    refine hc'.before hrows ?_
    by_contra hnone
    rw [Bool.not_eq_true, Option.isSome_eq_false_iff, Option.isNone_iff_eq_none] at hnone
    exact absurd (hc'.get.symm.trans (h.absent hnone)) (Option.some_ne_none c')
  refine ⟨fun runId name c' r hc' hr => ?_, fun runId name c' name₂ c₂' hc' hc₂' hrevision => ?_⟩
  · obtain ⟨c, hc, hsame⟩ := hbefore hc'
    rw [h.runs] at hr
    have hattempts : d'.store.callbackAttemptNumber runId = d.store.callbackAttemptNumber runId := by
      rw [Store.callbackAttemptNumber, Store.callbackAttemptNumber, h.attempts]
    simp only [hsame.resultRevision, hsame.eventType, terminalIdentity_congr hattempts]
    exact hd.current runId name c r hc hr
  · obtain ⟨c, hc, hsame⟩ := hbefore hc'
    obtain ⟨c₂, hc₂, hsame₂⟩ := hbefore hc₂'
    rw [hsame.resultRevision, hsame₂.resultRevision] at hrevision
    exact hd.unique runId name c name₂ c₂ hc hc₂ hrevision

/-- What a prepared terminal callback of a run binds it to. -/
theorem terminal_of_prepareCallbackIntent {p : PreparedIntent η}
    (h : s.prepareCallbackIntent H i = .ok p) (hterminal : p.callbackId.isTerminal = true)
    (hrun : p.runId = some runId) :
    ∃ r state endedAt, s.runs.get? runId = some r ∧ r.state ∈ RunState.terminal ∧
      terminalCallbackWireState r.state p.eventType = some state ∧ r.endedAt = some endedAt ∧
      p.callbackId = .terminal (H.terminalId (s.terminalIdentity H runId r state endedAt)) ∧
      p.resultRevision = r.terminalResultRevision := by
  rw [Store.prepareCallbackIntent] at h
  split at h
  · cases h
  · cases h
  rename_i name workerId _ _
  split at h
  · cases h
  split at h
  · simp only [Store.prepareWorkerCallback, bind_eq_ok] at h
    obtain ⟨_, -, _, -, _, -, _, -, h⟩ := h
    rw [← Except.ok.inj h] at hrun
    cases hrun
  rename_i runId' _
  rw [Store.prepareRunCallback] at h
  split at h
  · cases h
  rename_i r hr
  simp only [bind_eq_ok] at h
  obtain ⟨_, -, _, -, _, -, _, hresult, _, -, _, -, _, -, h⟩ := h
  obtain rfl := (Except.ok.inj h).symm
  obtain rfl : runId' = runId := Option.some.inj hrun
  have hname : name.isTerminal = true := hterminal
  rw [Store.resultPayload, if_pos hname, Store.exactResult] at hresult
  split at hresult
  · rename_i state endedAt hwire hended
    split at hresult
    · rename_i hexact
      simp only [Bool.and_eq_true, beq_iff_eq, oneOf_eq_true] at hexact
      exact ⟨r, state, endedAt, hr, hexact.1.1.1.1.1.1.1.1, hwire, hended,
        hexact.1.1.1.1.1.1.2, by rw [if_pos hname]⟩
    · cases hresult
  · cases hresult

theorem attempts_insertCallbackIntent (h : d.insertCallbackIntent H now i = .ok (d', out)) :
    d'.store.attempts = d.store.attempts := by
  obtain ⟨p, -, h⟩ := bind_eq_ok.mp h
  obtain ⟨d₁, h₁, h⟩ := bind_eq_ok.mp h
  split at h
  · cases h
  · obtain ⟨_, -, h⟩ := bind_eq_ok.mp h
    obtain ⟨d₂, h₂, h⟩ := bind_eq_ok.mp h
    obtain ⟨rfl, -⟩ := Prod.mk.inj (Except.ok.inj h)
    rw [(quiet_trace (H := H) h₂).attempts, (outbox_insertOutbox h₁).1]

/-- A new terminal callback is the one of the current result of its run. -/
theorem named_insertCallbackIntent (hd : d.Named H)
    (h : d.insertCallbackIntent H now i = .ok (d', out)) : d'.Named H := by
  obtain ⟨hruns, p, hp, hrow⟩ := outbox_insertCallbackIntent h
  have hattempts : ∀ runId, d'.store.callbackAttemptNumber runId =
      d.store.callbackAttemptNumber runId := fun runId => by
    rw [Store.callbackAttemptNumber, Store.callbackAttemptNumber, attempts_insertCallbackIntent h]
  -- a terminal callback was there, or it is the prepared one
  have hcases : ∀ {runId name c}, d'.IsTerminal runId name c → d.IsTerminal runId name c ∨
      d.outbox.get? name = none ∧ name = p.callbackId ∧ p.runId = some runId ∧
        p.resultRevision = c.resultRevision ∧ p.eventType = c.eventType := by
    intro runId name c hc
    have hget := hc.get
    rw [hrow] at hget
    cases hold : d.outbox.get? name with
    | some =>
      rw [hold, Option.some_or] at hget
      exact Or.inl ⟨by rw [hold, hget], hc.terminal, hc.run⟩
    | none =>
      rw [hold, Option.none_or] at hget
      split at hget
      · rename_i hname
        obtain rfl := Option.some.inj hget
        exact Or.inr ⟨rfl, hname, hc.run, rfl, rfl⟩
      · cases hget
  refine ⟨fun runId name c r hc hr => ?_, fun runId name c name' c' hc hc' hrevision => ?_⟩
  · rw [hruns] at hr
    simp only [terminalIdentity_congr (hattempts runId)]
    rcases hcases hc with hold | ⟨-, rfl, hrun, hrevision, hevent⟩
    · exact hd.current runId name c r hold hr
    · obtain ⟨r₀, state, endedAt, hr₀, -, hwire, hended, hname, hrev⟩ :=
        terminal_of_prepareCallbackIntent hp hc.terminal hrun
      obtain rfl := Option.some.inj (hr.symm.trans hr₀)
      rw [← hrevision, hrev, ← hevent]
      exact ⟨le_rfl, fun _ _ => ⟨state, endedAt, hwire, hended, hname⟩⟩
  · -- the callback of the current revision that was there has the prepared name
    have hnew : ∀ {name₁ c₁}, d.IsTerminal runId name₁ c₁ → p.callbackId.isTerminal = true →
        p.runId = some runId → c₁.resultRevision = p.resultRevision → name₁ = p.callbackId := by
      intro name₁ c₁ hc₁ hterminal hrun hrevision
      obtain ⟨r₀, state, endedAt, hr₀, hended₀, hwire, hended, hname, hrev⟩ :=
        terminal_of_prepareCallbackIntent hp hterminal hrun
      obtain ⟨-, hcurrent⟩ := hd.current runId name₁ c₁ r₀ hc₁ hr₀
      obtain ⟨state₁, endedAt₁, hwire₁, hended₁, hname₁⟩ := hcurrent hended₀ (hrevision.trans hrev)
      rw [hname₁, hname, terminalCallbackWireState_unique hwire₁ hwire,
        Option.some.inj (hended₁.symm.trans hended)]
    rcases hcases hc with hold | ⟨-, rfl, hrun, hrev, -⟩
    · rcases hcases hc' with hold' | ⟨-, rfl, hrun', hrev', -⟩
      · exact hd.unique runId name c name' c' hold hold' hrevision
      · exact hnew hold hc'.terminal hrun' (hrevision.trans hrev'.symm)
    · rcases hcases hc' with hold' | ⟨-, rfl, -⟩
      · exact (hnew hold' hc.terminal hrun (hrevision.symm.trans hrev.symm)).symm
      · rfl

theorem named_step (hd : d.Named H) (hlinked : d.Linked) : (d.step H call).Named H := by
  rw [step]
  split
  · rename_i d' h
    rcases quiets_perform h with ⟨op, -, hcall⟩ | ⟨i, out, -, hinsert⟩ | hquiets
    · exact named_call hd hlinked hcall
    · exact named_insertCallbackIntent hd hinsert
    · exact named_of_quiets hd (rowsFollow_perform h) hquiets
  · exact hd

theorem named_run (H : Digests η) (settings : Settings) (delivery : DeliverySettings)
    (calls : List (DeliveryCall η)) :
    (Transition.run (step H) (init settings delivery) calls).Named H := by
  have hall : ∀ (d : DeliveryStore η), d.Named H → d.Linked → (calls : List (DeliveryCall η)) →
      (Transition.run (step H) d calls).Named H := by
    intro d hd hlinked calls
    induction calls generalizing d with
    | nil => exact hd
    | cons call calls ih =>
      exact ih _ (named_step hd hlinked)
        (invariant_run_of_statement (H := H) (fun _ _ => linked_statement) hlinked [call])
  exact hall _ (named_init settings delivery) (linked_init settings delivery) calls

/-- A callback keeps what identifies it. -/
theorem sameResult_run (H : Digests η) (calls : List (DeliveryCall η))
    (hc : d.outbox.get? name = some c) :
    ∃ c', (Transition.run (step H) d calls).outbox.get? name = some c' ∧ c.SameResult c' := by
  induction calls generalizing d c with
  | nil => exact ⟨c, hc, Callback.sameResult_refl⟩
  | cons call calls ih =>
    have hstep : d.RowsFollow call (d.step H call) := rowsFollow_step
    obtain ⟨c', hc', hsame⟩ := hstep.row name c hc
    obtain ⟨c'', hc'', hsame'⟩ := ih hc'
    refine ⟨c'', hc'', ?_⟩
    rcases hsame with rfl | hchanges
    · exact hsame'
    · exact hchanges.sameResult.trans hsame'

end DeliveryStore

/-! ## What a sender posts -/

/-- `exact_payload_identity`: the check of the sender on the payload that it posts for a row. -/
def exactPayloadIdentity (name : CallbackName η) (c : Callback η) (p : CallbackPayload η) : Bool :=
  p.callbackId == some name &&
    p.attemptNumber == (if 0 < c.attemptNumber then .int c.attemptNumber else .null) &&
    (if 0 < c.resultRevision then p.resultRevision == .int c.resultRevision
      else p.resultRevision.absent && !p.resultRevision.isBool) &&
    p.callbackTs.any (0 < ·) && p.event == c.eventType && p.workerId == some c.workerId &&
    p.runId == c.runId && p.resultDigest == c.resultDigest

/-- What is posted for a row: its payload, under a timestamp of its own and with capabilities. -/
def Callback.Posts (name : CallbackName η) (c : Callback η) (p : CallbackPayload η) : Prop :=
  exactPayloadIdentity name c c.payload = true ∧
    ∃ (ts : ℚ) (rest : String), p = { c.payload with callbackTs := some ts, rest := rest }

/-- A payload that the sender may have posted for a terminal callback of a run, at some moment of
its history. -/
def Sends (H : Digests η) (d : DeliveryStore η) (calls : List (DeliveryCall η)) (runId : RunId)
    (p : CallbackPayload η) : Prop :=
  ∃ pre, pre <+: calls ∧ ∃ name c,
    (Transition.run (DeliveryStore.step H) d pre).IsTerminal runId name c ∧ c.Posts name p

/-- The payload that carries an identity. -/
def CallbackPayload.carrying (p : CallbackPayload η) (name : CallbackName η) (eventType : String)
    (i : TerminalIdentity η) : CallbackPayload η :=
  { p with
    callbackId := some name, event := eventType, runId := some i.runId,
    attemptNumber := if 0 < i.attemptNumber then .int i.attemptNumber else .null,
    resultState := some i.state, resultEndedAt := some i.endedAt,
    resultRevision := .int i.resultRevision, resultDigest := i.resultDigest }

section Receipts

variable {H : Digests η} {s : Store} {name : CallbackName η} {c : Callback η} {runId : RunId}
  {p : CallbackPayload η} {i : TerminalIdentity η}

/-- An identity that a receiver takes from a payload. -/
theorem receivedIdentity_eq_ok (h : receivedIdentity H p = .ok i) :
    p.runId = some i.runId ∧ p.callbackId = some (.terminal (H.terminalId i)) ∧
      p.resultRevision = .int i.resultRevision ∧ 1 ≤ i.resultRevision ∧
      p.resultDigest = i.resultDigest := by
  obtain ⟨n, -, h⟩ := DeliveryStore.bind_eq_ok.mp h
  split at h
  · rename_i runId state endedAt revision hrun _ _ hrevision
    dsimp only at h
    split at h
    · rename_i hexact
      obtain rfl := (Except.ok.inj h).symm
      simp only [Bool.and_eq_true, beq_iff_eq, decide_eq_true_eq] at hexact
      have hpos : 1 ≤ revision := hexact.1.1.2
      have hnat : 1 ≤ revision.toNat := by omega
      exact ⟨hrun, hexact.2, by rw [hrevision, Int.toNat_of_nonneg (by omega)], hnat, rfl⟩
    · cases h
  · cases h

/-- What a receiver takes from a posted payload is the row that it was posted for. -/
theorem receivedIdentity_of_posts (hposts : c.Posts name p) (hrun : c.runId = some runId)
    (h : receivedIdentity H p = .ok i) :
    i.runId = runId ∧ name = .terminal (H.terminalId i) ∧ c.resultRevision = i.resultRevision ∧
      c.resultDigest = i.resultDigest := by
  obtain ⟨hexact, ts, rest, rfl⟩ := hposts
  obtain ⟨hid, hname, hrevision, hpos, hdigest⟩ := receivedIdentity_eq_ok h
  simp only [exactPayloadIdentity, Bool.and_eq_true, beq_iff_eq] at hexact hid hname hrevision hdigest
  obtain ⟨⟨⟨⟨⟨⟨⟨hcname, -⟩, hcrevision⟩, -⟩, -⟩, -⟩, hcrun⟩, hcdigest⟩ := hexact
  refine ⟨Option.some.inj (hid.symm.trans (hcrun.trans hrun)),
    Option.some.inj (hcname.symm.trans hname), ?_, hcdigest.symm.trans hdigest⟩
  rw [hrevision] at hcrevision
  split at hcrevision
  · rw [beq_iff_eq, JsonInt.int.injEq] at hcrevision
    omega
  · -- a payload without a revision carries no identity
    simp only [JsonInt.absent, JsonInt.eqInt, Bool.and_eq_true, Bool.or_eq_true, beq_iff_eq,
      reduceCtorEq, false_or] at hcrevision
    omega

/-- A receiver takes an exact identity from a payload that carries it. -/
theorem receivedIdentity_carrying {eventType : String} (hrevision : 1 ≤ i.resultRevision)
    (hdigest : i.resultDigest.isExact = true) (hevent : callbackTerminalState eventType = some i.state)
    (hstate : oneOf i.state [RunState.completed, .failed, .cancelled] = true)
    (p : CallbackPayload η) :
    receivedIdentity H (p.carrying (.terminal (H.terminalId i)) eventType i) = .ok i := by
  have hattempt : receivedAttemptNumber
      (if 0 < i.attemptNumber then .int i.attemptNumber else .null) = .ok i.attemptNumber := by
    split
    · rename_i hpos
      rw [receivedAttemptNumber, if_pos (by exact_mod_cast hpos), Int.toNat_natCast]
    · rw [receivedAttemptNumber]
      congr 1
      omega
  refine DeliveryStore.bind_eq_ok.mpr ⟨i.attemptNumber, hattempt, ?_⟩
  simp [CallbackPayload.carrying, hevent, hstate, hdigest]
  omega

/-- The state that the receiver expects with the event of an ended run is its wire state. -/
theorem callbackTerminalState_eq : ∀ state ∈ RunState.terminal,
    callbackTerminalState ("run." ++ state.text) =
      terminalCallbackWireState state ("run." ++ state.text) := by
  decide

theorem wireState_mem : ∀ state ∈ RunState.terminal,
    (terminalCallbackWireState state ("run." ++ state.text)).all
      (oneOf · [.completed, .failed, .cancelled]) = true := by
  decide

/-- A terminal callback that is current carries an identity that a receiver accepts. -/
theorem receivedIdentity_of_current (hcurrent : s.terminalCallbackIsCurrent H name c = true)
    (hterminal : name.isTerminal = true) (p : CallbackPayload η) :
    ∃ i : TerminalIdentity η, c.runId = some i.runId ∧ c.attemptNumber = i.attemptNumber ∧
      c.resultRevision = i.resultRevision ∧ c.resultDigest = i.resultDigest ∧
      receivedIdentity H (p.carrying name c.eventType i) = .ok i := by
  rw [Store.terminalCallbackIsCurrent, hterminal] at hcurrent
  simp only [Bool.not_true, Bool.false_eq_true, if_false] at hcurrent
  split at hcurrent
  · cases hcurrent
  rename_i hrevision
  split at hcurrent
  · cases hcurrent
  rename_i runId hrun
  split at hcurrent
  · cases hcurrent
  rename_i r hr
  split at hcurrent
  · rename_i state endedAt hwire hended
    simp only [Bool.and_eq_true, beq_iff_eq, oneOf_eq_true] at hcurrent
    obtain ⟨⟨⟨⟨⟨hstate, hevent⟩, hattempt⟩, hrev⟩, hdigest⟩, hname⟩ := hcurrent
    refine ⟨s.terminalIdentity H runId r state endedAt, hrun, hattempt, hrev, hdigest, ?_⟩
    have hexpected : callbackTerminalState c.eventType = some state := by
      rw [hevent, callbackTerminalState_eq _ hstate, ← hevent, hwire]
    have hmem : oneOf state [RunState.completed, .failed, .cancelled] = true := by
      have hall := wireState_mem _ hstate
      rwa [← hevent, hwire, Option.all_some] at hall
    simp only [Bool.or_eq_true, decide_eq_true_eq, not_or, not_lt] at hrevision
    have hpos : 1 ≤ r.terminalResultRevision := hrev ▸ hrevision.1
    rw [hname]
    exact receivedIdentity_carrying hpos rfl hexpected hmem p
  · cases hcurrent

end Receipts

/-! ## Convergence -/

section Convergence

open ReceiverStore

variable {H : Digests η} {d : DeliveryStore η}

/-- The stored result as its callback, its revision and its digest. -/
def TerminalCallbackResult.identity (c : TerminalCallbackResult η) :
    CallbackName η × ℕ × DigestText η :=
  (c.callbackId, c.resultRevision, c.resultDigest)

/-- A receiver that has the given payloads for a scope and a run delivered. -/
def Delivered (es : List (ResultDelivery η)) (receiverScope : String) (p : CallbackPayload η) :
    Prop :=
  ∃ e ∈ es, e.receiverScope = receiverScope ∧ e.payload = some p

/-- The results of the terminal callbacks of a sender, which is `d` and makes `calls`, converge at
its receivers. -/
structure TerminalResultsConverge (H : Digests η) (d : DeliveryStore η)
    (calls : List (DeliveryCall η)) : Prop where
  monotone : ∀ (q : ReceiverStore η) (e : ResultDelivery η) key c, q.results.get? key = some c →
    ∃ c', (q.deliver H e).results.get? key = some c' ∧ c.resultRevision ≤ c'.resultRevision
  highest : ∀ (es : List (ResultDelivery η)) receiverScope runId,
    match (Transition.run (deliver H) init es).results.get? (receiverScope, runId) with
    | none => ∀ e ∈ es, offered H receiverScope runId e = none
    | some c => (∃ e ∈ es, offered H receiverScope runId e = some c) ∧
        ∀ e ∈ es, ∀ c', offered H receiverScope runId e = some c' →
          c'.resultRevision ≤ c.resultRevision
  conflict : ∀ (q : ReceiverStore η) now receiverScope p i c, scopeIsValid receiverScope = true →
    receivedIdentity H p = .ok i → q.results.get? (receiverScope, i.runId) = some c →
    c.resultRevision = i.resultRevision → c.resultDigest ≠ i.resultDigest →
    ∃ q' receipt, q.acceptTerminalCallbackResult H now receiverScope (some p) = .ok (q', receipt) ∧
      receipt.callbackStatus = .conflict ∧ q'.results = q.results
  order : ∀ (es es' : List (ResultDelivery η)) receiverScope receiverScope' runId,
    scopeIsValid receiverScope = true → scopeIsValid receiverScope' = true →
    (∀ p, Delivered es receiverScope p → p.runId = some runId → Sends H d calls runId p) →
    (∀ p, Delivered es receiverScope p ↔ Delivered es' receiverScope' p) →
    ((Transition.run (deliver H) init es).results.get? (receiverScope, runId)).map
        TerminalCallbackResult.identity =
      ((Transition.run (deliver H) init es').results.get? (receiverScope', runId)).map
        TerminalCallbackResult.identity
  identity : ∀ name c p,
    (Transition.run (DeliveryStore.step H) d calls).store.terminalCallbackIsCurrent H name c = true →
    name.isTerminal = true → ∃ i : TerminalIdentity η, c.runId = some i.runId ∧
      c.attemptNumber = i.attemptNumber ∧ c.resultRevision = i.resultRevision ∧
      c.resultDigest = i.resultDigest ∧
      receivedIdentity H (CallbackPayload.carrying p name c.eventType i) = .ok i

theorem receiverStatus_conflict {c row : TerminalCallbackResult η}
    (hrevision : c.resultRevision = row.resultRevision) (hdigest : c.resultDigest ≠ row.resultDigest) :
    receiverStatus (some c) row = .conflict := by
  have hne : (row.resultDigest == c.resultDigest) = false := by
    rw [beq_eq_false_iff_ne]
    exact hdigest.symm
  rw [receiverStatus]
  simp [hrevision, hne]

/-- A result that a receiver stores under another digest is a conflict. -/
theorem conflict_of_digest_ne {q : ReceiverStore η} {now : Time} {receiverScope : String}
    {p : CallbackPayload η} {i : TerminalIdentity η} {c : TerminalCallbackResult η}
    (hscope : scopeIsValid receiverScope = true) (hi : receivedIdentity H p = .ok i)
    (hc : q.results.get? (receiverScope, i.runId) = some c)
    (hrevision : c.resultRevision = i.resultRevision) (hdigest : c.resultDigest ≠ i.resultDigest) :
    ∃ q' receipt, q.acceptTerminalCallbackResult H now receiverScope (some p) = .ok (q', receipt) ∧
      receipt.callbackStatus = .conflict ∧ q'.results = q.results := by
  obtain ⟨q', receipt, hok, hstatus, hkept, -⟩ := compareAndSet_eq H q now receiverScope p i
  have hconflict : receipt.callbackStatus = .conflict := by
    rw [hstatus, hc]
    exact receiverStatus_conflict hrevision hdigest
  refine ⟨q', receipt, ?_, hconflict, hkept (by rw [hconflict]; exact fun h => nomatch h)⟩
  unfold acceptTerminalCallbackResult
  rw [hscope]
  exact DeliveryStore.bind_eq_ok.mpr ⟨i, hi, hok⟩

/-- Two payloads that were sent for a run under one revision are of one callback. -/
theorem eq_of_sends {settings : Settings} {delivery : DeliverySettings}
    {calls : List (DeliveryCall η)} {runId : RunId} {p p' : CallbackPayload η}
    {i i' : TerminalIdentity η}
    (hp : Sends H (DeliveryStore.init settings delivery) calls runId p)
    (hp' : Sends H (DeliveryStore.init settings delivery) calls runId p')
    (hi : receivedIdentity H p = .ok i) (hi' : receivedIdentity H p' = .ok i')
    (hrevision : i.resultRevision = i'.resultRevision) :
    H.terminalId i = H.terminalId i' ∧ i.resultDigest = i'.resultDigest := by
  obtain ⟨pre, ⟨post, rfl⟩, name, c, hc, hposts⟩ := hp
  obtain ⟨pre', ⟨post', hpre'⟩, name', c', hc', hposts'⟩ := hp'
  obtain ⟨-, hname, hcrevision, hcdigest⟩ := receivedIdentity_of_posts hposts hc.run hi
  obtain ⟨-, hname', hcrevision', hcdigest'⟩ := receivedIdentity_of_posts hposts' hc'.run hi'
  obtain ⟨f, hf, hsame⟩ := DeliveryStore.sameResult_run H post hc.get
  obtain ⟨f', hf', hsame'⟩ := DeliveryStore.sameResult_run H post' hc'.get
  rw [← Transition.run_append] at hf hf'
  rw [hpre'] at hf'
  have hunique := (DeliveryStore.named_run H settings delivery (pre ++ post)).unique runId name f
    name' f' ⟨hf, hc.terminal, hsame.runId.trans hc.run⟩
    ⟨hf', hc'.terminal, hsame'.runId.trans hc'.run⟩ (by
      rw [hsame.resultRevision, hsame'.resultRevision, hcrevision, hcrevision', hrevision])
  subst hunique
  obtain rfl := Option.some.inj (hf.symm.trans hf')
  refine ⟨CallbackName.terminal.inj (hname.symm.trans hname'), ?_⟩
  rw [← hcdigest, ← hcdigest', ← hsame.resultDigest, hsame'.resultDigest]

/-- Terminal results converge, whatever a sender does and however its callbacks are delivered. -/
theorem terminalResults_converge (H : Digests η) (settings : Settings) (delivery : DeliverySettings)
    (calls : List (DeliveryCall η)) :
    TerminalResultsConverge H (DeliveryStore.init settings delivery) calls where
  monotone q e key c hc := by
    obtain ⟨receiverScope, runId⟩ := key
    rw [results_deliver]
    cases offered H receiverScope runId e with
    | none => exact ⟨c, hc, le_rfl⟩
    | some row => exact rank_le_offer hc
  highest es receiverScope runId := by
    rw [results_deliveries]
    split
    · rename_i hnone
      obtain ⟨-, hnil⟩ := foldl_offer_eq_none.mp hnone
      rw [List.filterMap_eq_nil_iff] at hnil
      exact hnil
    · rename_i c hc
      obtain ⟨hfrom, hle, -⟩ := foldl_offer_eq_some hc
      refine ⟨List.mem_filterMap.mp (hfrom.resolve_left fun h => nomatch h), ?_⟩
      exact fun e he c' hc' => hle c' (List.mem_filterMap.mpr ⟨e, he, hc'⟩)
  conflict q now receiverScope p i c := conflict_of_digest_ne
  order es es' receiverScope receiverScope' runId hscope hscope' hsends hsame := by
    -- the identities that the deliveries offer are those of the payloads
    have hoffers : ∀ {es : List (ResultDelivery η)} {scope}, scopeIsValid scope = true →
        ∀ b, b ∈ (es.filterMap (offered H scope runId)).map TerminalCallbackResult.identity ↔
          ∃ p i, Delivered es scope p ∧ receivedIdentity H p = .ok i ∧ i.runId = runId ∧
            b = (.terminal (H.terminalId i), i.resultRevision, i.resultDigest) := by
      intro es scope hvalid b
      simp only [List.mem_map, List.mem_filterMap, offered_eq_some]
      constructor
      · rintro ⟨_, ⟨e, he, p, i, hp, hi, -, hto, hrun, rfl⟩, rfl⟩
        exact ⟨p, i, ⟨e, he, hto, hp⟩, hi, hrun, rfl⟩
      · rintro ⟨p, i, ⟨e, he, hto, hp⟩, hi, hrun, rfl⟩
        exact ⟨_, ⟨e, he, p, i, hp, hi, hvalid, hto, hrun, rfl⟩, rfl⟩
    rw [results_deliveries, results_deliveries]
    refine foldl_offer_congr TerminalCallbackResult.identity (fun b => ?_)
      (fun a b h => congrArg (·.2.1) h) fun a ha b hb hrank => ?_
    · rw [hoffers hscope, hoffers hscope']
      simp only [hsame]
    · obtain ⟨e, he, ha⟩ := List.mem_filterMap.mp ha
      obtain ⟨e', he', hb⟩ := List.mem_filterMap.mp hb
      obtain ⟨p, i, hp, hi, -, hto, hrun, rfl⟩ := offered_eq_some.mp ha
      obtain ⟨p', i', hp', hi', -, hto', hrun', rfl⟩ := offered_eq_some.mp hb
      obtain ⟨hname, hdigest⟩ := eq_of_sends
        (hsends p ⟨e, he, hto, hp⟩ (hrun ▸ (receivedIdentity_eq_ok hi).1))
        (hsends p' ⟨e', he', hto', hp'⟩ (hrun' ▸ (receivedIdentity_eq_ok hi').1)) hi hi' hrank
      change i.resultRevision = i'.resultRevision at hrank
      simp only [TerminalCallbackResult.identity, resultRow, hname, hrank, hdigest]
  identity name c p := fun hcurrent hterminal => receivedIdentity_of_current hcurrent hterminal p

/-- A worker callback is current for its sender, and no receiver of terminal results takes it. -/
theorem resumed_isCurrent_refused :
    ((Transition.run (DeliveryStore.step DeliveryStore.noDigests)
        (DeliveryStore.init Settings.default DeliverySettings.default)
        (DeliveryStore.workerCalls ++
          [⟨3, .insertCallbackIntent DeliveryStore.resumedIntent⟩])).outbox.get?
        (.text "cb_resumed")).any (fun c =>
      (Transition.run (DeliveryStore.step DeliveryStore.noDigests)
        (DeliveryStore.init Settings.default DeliverySettings.default)
        (DeliveryStore.workerCalls ++
          [⟨3, .insertCallbackIntent DeliveryStore.resumedIntent⟩])).store.terminalCallbackIsCurrent
          DeliveryStore.noDigests (.text "cb_resumed") c) = true ∧
      ∀ p : CallbackPayload Unit, p.callbackId = some (.text "cb_resumed") →
        ∀ i, receivedIdentity DeliveryStore.noDigests p ≠ .ok i := by
  refine ⟨by decide, fun p hp i hi => ?_⟩
  have hname := (receivedIdentity_eq_ok hi).2.1
  rw [hp] at hname
  cases hname

end Convergence

end GlassHive
