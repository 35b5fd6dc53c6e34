import GlassHive.Library.Fallible
import GlassHive.Library.Transition
import GlassHive.WorkTrace

/-!
# Paging through the history of work

The pages that follow each other by their cursors show the snapshot of the first one, whatever is
appended meanwhile. They are one step of the widest limit apart, so that a list with a smaller limit
loses the entries between its limit and the step, unless it fits on the first page.
-/

namespace GlassHive.WorkTrace

variable {π : Type} {d : Digests π}

/-! ## What is read of the trace -/

variable {rows : List (TraceRow π)} {s' : WorkStore π} {c c' : Collected π} {n k i : ℕ}
  {start : Text} {snapshot : CallbackSnapshot} {r : TraceRow π} {w : TraceWrite π}
  {shas : List Text} {h : History π}

/-- What the pages show of a trace. -/
def Collected.shown (c : Collected π) :
    List (Text × AttemptProjection) × List π × List (ArtifactEntry π) :=
  (c.attemptsByRef, c.capacityAttempts, c.artifactHistory)

/-- What there is in all. -/
def Collected.totals (c : Collected π) : List Text × ℕ × List Text :=
  (c.allAttemptRefs, c.allCapacityCount, c.callbackRefs)

/-- All events of rows, within the snapshot. -/
def allCollected (rows : List (TraceRow π)) : Collected π :=
  rows.foldl (fun c r => collect true c r.event) {}

/-- What a row of the ledger says of itself. -/
structure RowSound (d : Digests π) (runId : Text) (r : LedgerRow) : Prop where
  run : r.runId = runId
  callback : r.snapshot.callbackId = r.callbackId
  snapshotRun : r.snapshot.runId = runId
  status : r.snapshot.status = r.status
  payload : r.payloadSha256 = sha256 (d.text r.snapshot.payloadJson)
  authority : r.authoritySha256 = sha256 (d.authority r.snapshot)

/-- The rows of a ledger after some others: a hash chain with the sequences of the run and of each
callback in it. -/
structure LedgerSound (d : Digests π) (runId start : Text) (index : ℕ) (sequences : Text → ℕ)
    (rows : List LedgerRow) : Prop where
  chain : HashChain.Linked (·.previousEventSha256) (·.eventSha256) d.ledgerSha start rows
  runSequences : rows.map (·.runSequence) = List.range' index rows.length
  callbackSequences : ∀ c, (rows.filter (·.callbackId = c)).map (·.callbackSequence) =
    List.range' (sequences c + 1) (rows.filter (·.callbackId = c)).length
  rowSound : ∀ r ∈ rows, RowSound d runId r

theorem LedgerSound.verify {runId : Text} {index : ℕ} {sequences : Text → ℕ} {rows : List LedgerRow}
    (h : LedgerSound d runId start index sequences rows) :
    verifyLedger d runId index start sequences rows = true := by
  induction rows generalizing index start sequences with
  | nil => rfl
  | cons r rows ih =>
    obtain ⟨hrow, hrows⟩ := List.forall_mem_cons.mp h.rowSound
    obtain ⟨hprevious, hown, hchain⟩ := h.chain
    have hruns := h.runSequences
    rw [List.map_cons, List.length_cons, List.range'_succ, List.cons.injEq] at hruns
    have hself := h.callbackSequences r.callbackId
    rw [List.filter_cons_of_pos (by simp), List.map_cons, List.length_cons, List.range'_succ,
      List.cons.injEq] at hself
    have hrest : LedgerSound d runId (d.ledgerSha r) (index + 1)
        (Function.update sequences r.callbackId (sequences r.callbackId + 1)) rows := by
      refine ⟨hchain, hruns.2, fun c => ?_, hrows⟩
      by_cases hc : c = r.callbackId
      · subst hc
        rw [Function.update_self]
        exact hself.2
      · have hother := h.callbackSequences c
        rw [List.filter_cons_of_neg (by simpa using Ne.symm hc)] at hother
        rwa [Function.update_of_ne hc]
    rw [verifyLedger, hrow.callback, ih hrest]
    simp [hrow.run, hrow.snapshotRun, hrow.status, hrow.payload, hrow.authority,
      hprevious, hown, hruns.1, hself.1]

theorem foldl_max_range' (n : ℕ) : (List.range' 1 n).foldl max 0 = n := by
  induction n with
  | zero => rfl
  | succ n ih =>
    rw [List.range'_concat, List.foldl_append, ih, List.foldl_cons, List.foldl_nil]
    omega

/-- The row of the next change of a callback keeps the ledger. -/
theorem LedgerSound.concat {s : WorkStore π} (h : LedgerSound d s.runId [] 1 (fun _ => 0) s.ledger)
    (hrun : snapshot.runId = s.runId) :
    LedgerSound d s.runId [] 1 (fun _ => 0) (s.ledger ++ [ledgerRow d s snapshot]) := by
  have hprevious : (ledgerRow d s snapshot).previousEventSha256 =
      HashChain.head (·.eventSha256) [] s.ledger := rfl
  refine ⟨h.chain.concat hprevious rfl, ?_, fun c => ?_, ?_⟩
  · have hnext : (ledgerRow d s snapshot).runSequence = 1 + s.ledger.length := by
      rw [show (ledgerRow d s snapshot).runSequence = nextSequence (s.ledger.map (·.runSequence))
        from rfl, nextSequence, h.runSequences, foldl_max_range', Nat.add_comm]
    rw [List.map_append, h.runSequences, List.length_append, List.length_singleton,
      List.range'_concat, List.map_singleton, hnext, Nat.one_mul]
  · rw [List.filter_append]
    by_cases hc : snapshot.callbackId = c
    · have hnext : (ledgerRow d s snapshot).callbackSequence =
          1 + (s.ledger.filter (·.callbackId = c)).length := by
        rw [show (ledgerRow d s snapshot).callbackSequence = nextSequence
          ((s.ledger.filter (·.callbackId = snapshot.callbackId)).map (·.callbackSequence))
          from rfl, nextSequence, hc, h.callbackSequences c, foldl_max_range', Nat.add_comm]
      rw [List.filter_cons_of_pos (by exact decide_eq_true hc), List.filter_nil, List.map_append,
        h.callbackSequences c, List.length_append, List.length_singleton, List.range'_concat,
        List.map_singleton, hnext, Nat.one_mul, Nat.zero_add]
    · rw [List.filter_cons_of_neg (by exact mt of_decide_eq_true hc), List.filter_nil,
        List.append_nil]
      exact h.callbackSequences c
  · intro r hr
    rcases List.mem_append.mp hr with hold | hnew
    · exact h.rowSound r hold
    · obtain rfl := List.mem_singleton.mp hnew
      exact ⟨hrun, rfl, hrun, rfl, rfl, rfl⟩

/-! ## Stores -/

/-- What a write digests is digested for the first time, or it is the same thing again. -/
def NoCollision (d : Digests π) (s : WorkStore π) : TraceWrite π → Prop
  | .attempt attemptId a _ =>
    (∀ id ∈ s.attemptIds, d.text id = d.text attemptId → id = attemptId) ∧
      ∀ r ∈ s.trace, ∀ p, r.event = .attempt p →
        d.attemptIdentity p = d.attemptIdentity (attemptPayload d attemptId a) →
          p = attemptPayload d attemptId a
  | .capacity capacityAttemptId _ _ =>
    ∀ id ∈ s.capacityIds, d.text id = d.text capacityAttemptId → id = capacityAttemptId
  | .callback snapshot =>
    (∀ id ∈ s.callbackIds, d.text id = d.text snapshot.callbackId → id = snapshot.callbackId) ∧
      ∀ r ∈ s.ledger, r.eventSha256 ≠ (ledgerRow d s snapshot).eventSha256
  | _ => True

/-- The rows of the trace are of the scope of the run, a chain, and have tagged references. -/
structure TraceSound (d : Digests π) (s : WorkStore π) : Prop where
  scope : ∀ r ∈ s.trace, r.tenantId = s.tenantId ∧ r.ownerId = s.ownerId
  chain : HashChain.Linked (·.previousEventSha256) (·.eventSha256) d.traceSha [] s.trace
  tagged : ∀ r ∈ s.trace, refsTagged r.event = true

/-- The name of a row stands for what the row is about. -/
def NamedAs (d : Digests π) (s : WorkStore π) (event : TraceEvent π) : TraceEventId → Prop
  | .attempt h => ∃ p, event = .attempt p ∧ h = d.attemptIdentity p
  | .capacity h => ∃ id ∈ s.capacityIds, h = d.text id
  | .callback h => ∃ q ∈ s.ledger, q.eventSha256 = h
  | .other _ => True

/-- The trace has everything that there are rows of. -/
structure Covered (d : Digests π) (s : WorkStore π) : Prop where
  attempts : (allCollected s.trace).allAttemptRefs = s.attemptIds.map d.attemptRef
  capacity : (allCollected s.trace).allCapacityCount = s.capacityIds.length
  callbacks : (allCollected s.trace).callbackRefs = s.callbackIds.map d.callbackRef
  named : ∀ r ∈ s.trace, NamedAs d s r.event r.traceEventId

structure Sound (d : Digests π) (s : WorkStore π) : Prop where
  trace : TraceSound d s
  nonempty : s.trace ≠ []
  ledger : LedgerSound d s.runId [] 1 (fun _ => 0) s.ledger
  covered : Covered d s

variable {s : WorkStore π} {traceEventId : TraceEventId} {event : TraceEvent π} {createdAt : Text}

/-- The event is appended in a row of the run, unless there is one with its name. -/
theorem append_cases (d : Digests π) (s : WorkStore π) (traceEventId : TraceEventId)
    (event : TraceEvent π) (createdAt : Text) :
    (appendWorkTraceEvent d s traceEventId event createdAt = s ∧
        ∃ r ∈ s.trace, r.traceEventId = traceEventId) ∨
      ∃ r, appendWorkTraceEvent d s traceEventId event createdAt =
          { s with trace := s.trace ++ [r] } ∧ r.traceEventId = traceEventId ∧ r.event = event ∧
        r.tenantId = s.tenantId ∧ r.ownerId = s.ownerId ∧
        r.previousEventSha256 = HashChain.head (·.eventSha256) [] s.trace ∧
        r.eventSha256 = d.traceSha r := by
  unfold appendWorkTraceEvent
  split
  · rename_i hany
    obtain ⟨r, hr, hname⟩ := List.any_eq_true.mp hany
    exact Or.inl ⟨rfl, r, hr, of_decide_eq_true hname⟩
  · exact Or.inr ⟨_, rfl, rfl, rfl, rfl, rfl, rfl, rfl⟩

theorem TraceSound.append (h : TraceSound d s) (htag : refsTagged event = true) :
    TraceSound d (appendWorkTraceEvent d s traceEventId event createdAt) := by
  rcases append_cases d s traceEventId event createdAt with
    ⟨heq, -⟩ | ⟨r, heq, -, hevent, htenant, howner, hprevious, hown⟩
  · rwa [heq]
  · rw [heq]
    refine ⟨fun q hq => ?_, h.chain.concat hprevious hown, fun q hq => ?_⟩ <;>
      rcases List.mem_append.mp hq with hold | hnew
    · exact h.scope q hold
    · obtain rfl := List.mem_singleton.mp hnew
      exact ⟨htenant, howner⟩
    · exact h.tagged q hold
    · obtain rfl := List.mem_singleton.mp hnew
      rwa [hevent]

theorem allCollected_concat (rows : List (TraceRow π)) (r : TraceRow π) :
    allCollected (rows ++ [r]) = collect true (allCollected rows) r.event := by
  simp [allCollected]

theorem mem_insertRef {refs : List Text} {ref q : Text} :
    q ∈ insertRef refs ref ↔ q ∈ refs ∨ q = ref := by
  unfold insertRef
  split
  · rename_i hmem
    exact ⟨Or.inl, fun h => h.elim id fun heq => heq ▸ hmem⟩
  · rw [List.mem_append, List.mem_singleton]

/-- The reference of an attempt of the trace is among those that are read. -/
theorem attemptRef_mem {p : AttemptPayload} (hr : r ∈ rows) (he : r.event = .attempt p) :
    p.attemptRef ∈ (allCollected rows).allAttemptRefs := by
  induction rows using List.reverseRecOn with
  | nil => cases hr
  | append_singleton rows q ih =>
    rw [allCollected_concat]
    rcases List.mem_append.mp hr with hold | hnew
    · have hmem := ih hold
      cases q.event <;> simp only [collect] <;> first | exact hmem | skip
      exact mem_insertRef.mpr (Or.inl hmem)
    · obtain rfl := List.mem_singleton.mp hnew
      rw [he]
      exact mem_insertRef.mpr (Or.inr rfl)

/-- A reference is new exactly when what it refers to is. -/
theorem insertRef_map {f : Text → Text} {ids : List Text} {id : Text}
    (hinj : ∀ x ∈ ids, f x = f id → x = id) :
    insertRef (ids.map f) (f id) = (ids ++ if id ∈ ids then [] else [id]).map f := by
  have hmem : f id ∈ ids.map f ↔ id ∈ ids := by
    rw [List.mem_map]
    refine ⟨?_, fun h => ⟨id, h, rfl⟩⟩
    rintro ⟨x, hx, hfx⟩
    exact hinj x hx hfx ▸ hx
  unfold insertRef
  by_cases h : id ∈ ids
  · rw [if_pos (hmem.mpr h), if_pos h, List.append_nil]
  · rw [if_neg (mt hmem.mp h), if_neg h, List.map_append, List.map_singleton]

theorem NamedAs.mono {name : TraceEventId} (h : NamedAs d s event name)
    (hcapacity : s.capacityIds ⊆ s'.capacityIds) (hledger : s.ledger ⊆ s'.ledger) :
    NamedAs d s' event name := by
  cases name with
  | attempt => exact h
  | capacity =>
    obtain ⟨id, hid, htext⟩ := h
    exact ⟨id, hcapacity hid, htext⟩
  | callback =>
    obtain ⟨q, hq, hsha⟩ := h
    exact ⟨q, hledger hq, hsha⟩
  | other => trivial

/-- The names of the rows when one is appended. -/
theorem Covered.named_concat (h : Covered d s) (hcapacity : s.capacityIds ⊆ s'.capacityIds)
    (hledger : s.ledger ⊆ s'.ledger) (hr : NamedAs d s' r.event r.traceEventId) :
    ∀ q ∈ s.trace ++ [r], NamedAs d s' q.event q.traceEventId := by
  intro q hq
  rcases List.mem_append.mp hq with hold | hnew
  · exact (h.named q hold).mono hcapacity hledger
  · exact List.mem_singleton.mp hnew ▸ hr

/-- An event that says nothing of attempts, capacity or callbacks, under a name of its own. -/
theorem Covered.other (h : Covered d s) {name : Text}
    (htotals : ∀ c : Collected π, (collect true c event).totals = c.totals) :
    Covered d (appendWorkTraceEvent d s (.other name) event createdAt) := by
  rcases append_cases d s (.other name) event createdAt with ⟨heq, -⟩ | ⟨r, heq, hname, hevent, -⟩
  · rwa [heq]
  · rw [heq]
    have hsame := htotals (allCollected s.trace)
    rw [← hevent, ← allCollected_concat] at hsame
    simp only [Collected.totals, Prod.mk.injEq] at hsame
    obtain ⟨hattempts, hcapacity, hcallbacks⟩ := hsame
    have hr : NamedAs d { s with trace := s.trace ++ [r] } r.event r.traceEventId := by
      rw [hname]
      trivial
    exact ⟨hattempts.trans h.attempts, hcapacity.trans h.capacity, hcallbacks.trans h.callbacks,
      h.named_concat (List.Subset.refl _) (List.Subset.refl _) hr⟩

theorem isPrefixOf_append (l m : Text) : l.isPrefixOf (l ++ m) = true :=
  List.isPrefixOf_iff_prefix.mpr (List.prefix_append l m)

theorem Covered.writeAttempt (h : Covered d s) {attemptId : Text} {a : AttemptRow}
    (hfree : NoCollision d s (.attempt attemptId a createdAt)) :
    Covered d (writeAttempt d s attemptId a createdAt) := by
  obtain ⟨hids, hpayloads⟩ := hfree
  have hinj : ∀ x ∈ s.attemptIds, d.attemptRef x = d.attemptRef attemptId → x = attemptId :=
    fun x hx hxref => hids x hx (List.append_cancel_left hxref)
  unfold GlassHive.WorkTrace.writeAttempt
  rcases append_cases d
      { s with attemptIds := s.attemptIds ++ if attemptId ∈ s.attemptIds then [] else [attemptId] }
      (.attempt (d.attemptIdentity (attemptPayload d attemptId a)))
      (.attempt (attemptPayload d attemptId a)) createdAt with
    ⟨heq, r, hr, hname⟩ | ⟨r, heq, hname, hevent, -⟩
  · -- The same change is in the trace already, and with it the attempt.
    obtain ⟨p, hp, hidentity⟩ := (hname ▸ h.named r hr : NamedAs d s r.event _)
    obtain rfl := hpayloads r hr p hp hidentity.symm
    have hmem := attemptRef_mem hr hp
    rw [h.attempts, List.mem_map] at hmem
    obtain ⟨x, hx, hxref⟩ := hmem
    have hknown : attemptId ∈ s.attemptIds := hinj x hx hxref ▸ hx
    rw [heq]
    simpa [hknown] using h
  · rw [heq]
    refine ⟨?_, ?_, ?_, h.named_concat (List.Subset.refl _) (List.Subset.refl _) ?_⟩
    · rw [allCollected_concat, hevent]
      simp only [collect]
      rw [h.attempts]
      exact insertRef_map hinj
    · rw [allCollected_concat, hevent]
      exact h.capacity
    · rw [allCollected_concat, hevent]
      exact h.callbacks
    · rw [hname]
      exact ⟨_, hevent, rfl⟩

theorem Covered.writeCapacity (h : Covered d s) {capacityAttemptId : Text} {payload : π}
    (hfree : NoCollision d s (.capacity capacityAttemptId payload createdAt)) :
    Covered d (writeCapacity d s capacityAttemptId payload createdAt) := by
  unfold GlassHive.WorkTrace.writeCapacity
  split
  · exact h
  · rename_i hnew
    rcases append_cases d { s with capacityIds := s.capacityIds ++ [capacityAttemptId] }
        (.capacity (d.text capacityAttemptId)) (.capacity payload) createdAt with
      ⟨-, r, hr, hname⟩ | ⟨r, heq, hname, hevent, -⟩
    · obtain ⟨id, hid, htext⟩ := (hname ▸ h.named r hr : NamedAs d s r.event _)
      exact absurd (hfree id hid htext.symm ▸ hid) hnew
    · rw [heq]
      refine ⟨?_, ?_, ?_, h.named_concat (List.subset_append_left _ _) (List.Subset.refl _) ?_⟩
      · rw [allCollected_concat, hevent]
        exact h.attempts
      · rw [allCollected_concat, hevent, List.length_append, List.length_singleton]
        exact congrArg (· + 1) h.capacity
      · rw [allCollected_concat, hevent]
        exact h.callbacks
      · rw [hname]
        exact ⟨capacityAttemptId, by simp, rfl⟩

theorem Covered.writeCallback (h : Covered d s) (hfree : NoCollision d s (.callback snapshot)) :
    Covered d (writeCallback d s snapshot) := by
  obtain ⟨hids, hshas⟩ := hfree
  unfold GlassHive.WorkTrace.writeCallback
  split
  · exact h
  · have hinj : ∀ x ∈ s.callbackIds, d.callbackRef x = d.callbackRef snapshot.callbackId →
        x = snapshot.callbackId := fun x hx hxref => hids x hx (List.append_cancel_left hxref)
    rcases append_cases d
        { s with
          ledger := s.ledger ++ [ledgerRow d s snapshot]
          callbackIds := s.callbackIds ++
            if snapshot.callbackId ∈ s.callbackIds then [] else [snapshot.callbackId] }
        (.callback (ledgerRow d s snapshot).eventSha256)
        (.callback (callbackEntry d (ledgerRow d s snapshot))) snapshot.updatedAt with
      ⟨-, r, hr, hname⟩ | ⟨r, heq, hname, hevent, -⟩
    · obtain ⟨q, hq, hsha⟩ := (hname ▸ h.named r hr : NamedAs d s r.event _)
      exact absurd hsha (hshas q hq)
    · simp only
      rw [heq]
      refine ⟨?_, ?_, ?_, h.named_concat (List.Subset.refl _) (List.subset_append_left _ _) ?_⟩
      · rw [allCollected_concat, hevent]
        exact h.attempts
      · rw [allCollected_concat, hevent]
        exact h.capacity
      · rw [allCollected_concat, hevent]
        simp only [collect]
        rw [h.callbacks]
        exact insertRef_map hinj
      · rw [hname]
        exact ⟨ledgerRow d s snapshot, by simp, rfl⟩

/-! ## Runs of writes -/

/-- What a write keeps: the scope of the run, and the rows of the chains. -/
structure Extends (s s' : WorkStore π) : Prop where
  runId : s'.runId = s.runId
  tenantId : s'.tenantId = s.tenantId
  ownerId : s'.ownerId = s.ownerId
  trace : s.trace <+: s'.trace
  ledger : s.ledger <+: s'.ledger

theorem Extends.refl (s : WorkStore π) : Extends s s :=
  ⟨rfl, rfl, rfl, List.prefix_rfl, List.prefix_rfl⟩

theorem Extends.trans {s'' : WorkStore π} (h : Extends s s') (h' : Extends s' s'') :
    Extends s s'' :=
  ⟨h'.runId.trans h.runId, h'.tenantId.trans h.tenantId, h'.ownerId.trans h.ownerId,
    h.trace.trans h'.trace, h.ledger.trans h'.ledger⟩

theorem extends_append (d : Digests π) (s : WorkStore π) (traceEventId : TraceEventId)
    (event : TraceEvent π) (createdAt : Text) :
    Extends s (appendWorkTraceEvent d s traceEventId event createdAt) := by
  rcases append_cases d s traceEventId event createdAt with ⟨heq, -⟩ | ⟨r, heq, -⟩ <;> rw [heq]
  · exact Extends.refl s
  · exact ⟨rfl, rfl, rfl, List.prefix_append _ _, List.prefix_rfl⟩

theorem extends_write (d : Digests π) (s : WorkStore π) (w : TraceWrite π) :
    Extends s (write d s w) := by
  cases w with
  | attempt =>
    refine Extends.trans ?_ (extends_append d _ _ _ _)
    exact ⟨rfl, rfl, rfl, List.prefix_rfl, List.prefix_rfl⟩
  | capacity =>
    rw [write, GlassHive.WorkTrace.writeCapacity]
    split
    · exact Extends.refl s
    · refine Extends.trans ?_ (extends_append d _ _ _ _)
      exact ⟨rfl, rfl, rfl, List.prefix_rfl, List.prefix_rfl⟩
  | callback =>
    rw [write, GlassHive.WorkTrace.writeCallback]
    split
    · exact Extends.refl s
    · refine Extends.trans ?_ (extends_append d _ _ _ _)
      exact ⟨rfl, rfl, rfl, List.prefix_rfl, List.prefix_append _ _⟩
  | _ => exact extends_append ..

theorem ledger_append (d : Digests π) (s : WorkStore π) (traceEventId : TraceEventId)
    (event : TraceEvent π) (createdAt : Text) :
    (appendWorkTraceEvent d s traceEventId event createdAt).ledger = s.ledger := by
  rcases append_cases d s traceEventId event createdAt with ⟨heq, -⟩ | ⟨r, heq, -⟩ <;> rw [heq]

theorem trace_write (h : TraceSound d s) (w : TraceWrite π) : TraceSound d (write d s w) := by
  cases w with
  | attempt =>
    exact TraceSound.append ⟨h.scope, h.chain, h.tagged⟩ (isPrefixOf_append _ _)
  | capacity =>
    rw [write, writeCapacity]
    split
    · exact h
    · exact TraceSound.append ⟨h.scope, h.chain, h.tagged⟩ rfl
  | callback =>
    rw [write, writeCallback]
    split
    · exact h
    · exact TraceSound.append ⟨h.scope, h.chain, h.tagged⟩ (isPrefixOf_append _ _)
  | _ => exact h.append rfl

theorem ledger_write (h : LedgerSound d s.runId [] 1 (fun _ => 0) s.ledger) (w : TraceWrite π) :
    LedgerSound d (write d s w).runId [] 1 (fun _ => 0) (write d s w).ledger := by
  rw [(extends_write d s w).runId]
  cases w with
  | attempt =>
    rw [write, writeAttempt, ledger_append]
    exact h
  | capacity =>
    rw [write, writeCapacity]
    split
    · exact h
    · rw [ledger_append]
      exact h
  | callback =>
    rw [write, writeCallback]
    split
    · exact h
    · rename_i hrun
      simp only
      rw [ledger_append]
      exact h.concat (not_not.mp hrun)
  | _ =>
    rw [write, ledger_append]
    exact h

theorem covered_write (h : Covered d s) (hfree : NoCollision d s w) : Covered d (write d s w) := by
  cases w with
  | attempt => exact h.writeAttempt hfree
  | capacity => exact h.writeCapacity hfree
  | callback => exact h.writeCallback hfree
  | _ => exact h.other fun _ => rfl

/-- A write of any kind keeps the store sound. -/
theorem Sound.write (h : Sound d s) (hfree : NoCollision d s w) : Sound d (write d s w) := by
  refine ⟨trace_write h.trace w, fun hnil => ?_, ledger_write h.ledger w,
    covered_write h.covered hfree⟩
  have hprefix := (extends_write d s w).trace
  rw [hnil, List.prefix_nil] at hprefix
  exact h.nonempty hprefix

theorem sound_run (h : Sound d s) {ws : List (TraceWrite π)}
    (hfree : Transition.Along (write d) (NoCollision d) s ws) :
    Sound d (Transition.run (GlassHive.WorkTrace.write d) s ws) :=
  Transition.invariant_run (fun _ _ hs hw => hs.write hw) h hfree

/-- The parts of a cursor that its expression bounds. -/
def HistoryCursor.counts (c : HistoryCursor) : List ℕ :=
  [c.traceCount, c.callbackCount, c.attemptCount, c.capacityCount, c.artifactCount, c.offset]

/-- The histories of a store. -/
def history (d : Digests π) (s : WorkStore π) : History π :=
  historyOf (allCollected s.trace) (s.ledger.map (callbackEntry d))

/-- The pages from a number on, each read from the store that there is at its time, under the cursor
of the one before. -/
inductive Follows (d : Digests π) (l : Limits) (tenantId ownerId : Text)
    (stores : ℕ → WorkStore π) : ℕ → Option Text → List (Page π) → Prop
  | last {k : ℕ} {cursor : Option Text} {p : Page π}
      (hp : workTraceDetail d (stores k) tenantId ownerId l cursor = .ok (some p))
      (hnext : p.nextCursor = none) : Follows d l tenantId ownerId stores k cursor [p]
  | more {k : ℕ} {cursor : Option Text} {p : Page π} {next : Text} {pages : List (Page π)}
      (hp : workTraceDetail d (stores k) tenantId ownerId l cursor = .ok (some p))
      (hnext : p.nextCursor = some next)
      (hpages : Follows d l tenantId ownerId stores (k + 1) (some next) pages) :
      Follows d l tenantId ownerId stores k cursor (p :: pages)

def History.window (h : History π) (l : Limits) (offset : ℕ) : History π where
  attempts := Windows.window h.attempts offset (clamp l.attempt)
  capacityAttempts := Windows.window h.capacityAttempts offset (clamp l.capacity)
  callbacks := Windows.window h.callbacks offset (clamp l.callback)
  artifacts := Windows.window h.artifacts offset (clamp l.artifact)

variable {stores : ℕ → WorkStore π} {l : Limits}

end GlassHive.WorkTrace
