import GlassHive.Sessions
import GlassHive.Library.Absorption
import GlassHive.Library.Transition
import Mathlib.Data.List.Pairwise

/-!
# Accepted turns in any order

What a session shows of its accepted turns is a maximum, a table in which the first writer wins and
the pointers of the highest admission sequence. Turns with different sequences and disjoint messages
commute on it, and a turn that is accepted again changes nothing. The order still matters for a turn
whose key the session remembers from an earlier acceptance that the session does not show: the other
turns can push the key out of the bounded memory, and then the turn is accepted after all.
-/

namespace GlassHive

open Relational Absorption Transition

/-- The pointers to the last accepted request. -/
structure Pointers where
  lastRequestId : Option RequestId
  lastAcceptedRequestId : Option RequestId
  lastAcceptedAdvancementKey : Option AdvancementKey
  lastDecision : Option ReplayDecision
  deriving DecidableEq, Repr

/-- The pointers of a manifest. -/
def SessionManifest.pointers (m : SessionManifest) : Pointers :=
  ⟨m.lastRequestId, m.lastAcceptedRequestId, m.lastAcceptedAdvancementKey,
    m.lastAcceptedReplayDecision⟩

/-- What a session shows of its accepted turns. -/
@[ext]
structure Acceptance where
  historyCount : ℕ
  owner : MessageKey → Option AdvancementKey
  pointers : Pointers
  lastSequence : ℕ

/-- A call with its clock. -/
structure AdvanceCall where
  now : Time
  turn : AdvanceHistory

namespace AdvanceHistory

/-- The admission sequence of the decision that the caller hands over. -/
def sequence (a : AdvanceHistory) : ℕ :=
  (a.manifest.lastAcceptedReplayDecision.map ReplayDecision.admissionSequence).getD 0

/-- The pointers to a turn. -/
def pointers (a : AdvanceHistory) : Pointers :=
  ⟨some a.requestId, some a.requestId, a.advancementKey, a.manifest.lastAcceptedReplayDecision⟩

/-- Two turns do not overlap. -/
structure Apart (a b : AdvanceHistory) : Prop where
  keys : a.advancementKey ≠ b.advancementKey
  sequences : a.sequence ≠ b.sequence
  messages : ∀ m, m ∈ a.manifest.acceptedVisibleMessageKeys →
    m ∉ b.manifest.acceptedVisibleMessageKeys

instance : Std.Symm Apart where
  symm _ _ h := ⟨h.keys.symm, h.sequences.symm, fun m hb ha => h.messages m ha hb⟩

/-- The key of the turn is in a list. -/
def keyIn (a : AdvanceHistory) (keys : List AdvancementKey) : Bool :=
  a.advancementKey.any keys.contains

end AdvanceHistory

/-- The effect of an accepted turn. -/
def Acceptance.absorb (o : Acceptance) (a : AdvanceHistory) : Acceptance where
  historyCount := max o.historyCount a.historyCount
  owner m := o.owner m <|>
    if m ∈ a.manifest.acceptedVisibleMessageKeys then a.advancementKey else none
  pointers := if a.sequence < o.lastSequence then o.pointers else a.pointers
  lastSequence := max o.lastSequence a.sequence

section Absorb

variable {o : Acceptance} {a b : AdvanceHistory} {S l : List AdvanceHistory}

theorem keyIn_iff {keys : List AdvancementKey} :
    a.keyIn keys = true ↔ ∃ key ∈ keys, a.advancementKey = some key := by
  unfold AdvanceHistory.keyIn
  cases a.advancementKey <;> simp

theorem AdvanceHistory.Apart.eq_of_key (h : S.Pairwise Apart) (ha : a ∈ S) (hb : b ∈ S)
    (hkey : a.advancementKey = b.advancementKey) : a = b := by
  by_contra hne
  exact (h.forall ha hb hne).keys hkey

theorem pointers_idem (last : ℕ) (p q : Pointers) (n : ℕ) :
    (if n < max last n then if n < last then p else q else q) = if n < last then p else q := by
  by_cases h : n < last
  · rw [if_pos (by omega)]
  · rw [if_neg (by omega), if_neg h]

theorem absorb_idem : (o.absorb a).absorb a = o.absorb a := by
  ext m
  · simp [Acceptance.absorb]
  · simp only [Acceptance.absorb]
    cases o.owner m <;> simp
  · exact pointers_idem o.lastSequence o.pointers a.pointers a.sequence
  · simp [Acceptance.absorb]

/-- Of two turns with different sequences the pointers follow the higher, in either order. -/
theorem pointers_comm (last : ℕ) (p : Pointers) (h : a.sequence ≠ b.sequence) :
    (if b.sequence < max last a.sequence then
      if a.sequence < last then p else a.pointers else b.pointers) =
    if a.sequence < max last b.sequence then
      if b.sequence < last then p else b.pointers else a.pointers := by
  by_cases ha : a.sequence < last
  · by_cases hb : b.sequence < last
    · rw [if_pos (by omega), if_pos ha, if_pos (by omega), if_pos hb]
    · rw [if_neg (by omega), if_pos (by omega), if_neg hb]
  · by_cases hb : b.sequence < last
    · rw [if_pos (by omega), if_neg ha, if_neg (by omega)]
    · rcases Nat.lt_or_gt_of_ne h with hab | hab
      · rw [if_neg (by omega), if_pos (by omega), if_neg hb]
      · rw [if_pos (by omega), if_neg ha, if_neg (by omega)]

/-- Turns that do not overlap are accepted in either order. -/
theorem absorb_comm (h : a.Apart b) : (o.absorb a).absorb b = (o.absorb b).absorb a := by
  ext m
  · simp only [Acceptance.absorb]
    omega
  · simp only [Acceptance.absorb]
    by_cases hm : m ∈ a.manifest.acceptedVisibleMessageKeys
    · cases o.owner m <;> simp [hm, h.messages m hm]
    · cases o.owner m <;> simp [hm]
  · exact pointers_comm o.lastSequence o.pointers h.sequences
  · simp only [Acceptance.absorb]
    omega

theorem absorbs_turns (h : S.Pairwise AdvanceHistory.Apart) :
    Absorbs Acceptance.absorb (· ∈ S) where
  comm o a b ha hb := by
    by_cases hab : a = b
    · rw [hab]
    · exact absorb_comm (h.forall ha hb hab)
  idem _ _ _ := absorb_idem

end Absorb

/-! ## What a call does to the acceptance -/

namespace Store

/-- What a session shows of its accepted turns. -/
def acceptance (s : Store) (sessionId : SessionId) (c : ProviderSession) : Acceptance where
  historyCount := c.historyCount
  owner m := (s.visibleAdmissions.get? (sessionId, m)).map VisibleAdmission.advancementKey
  pointers := c.contextManifest.pointers
  lastSequence := c.contextManifest.lastSequence

/-- The turn is one of a completed request of the session, handed over with its decision. -/
structure Acceptable (s : Store) (sessionId : SessionId) (a : AdvanceHistory) : Prop where
  key : a.advancementKey.isSome = true
  forward : a.expectedHistoryCount ≤ a.historyCount
  positive : 0 < a.sequence
  request : ∃ q, s.acceptedRequest sessionId a.requestId = some q ∧
    q.replayDecision.admissionSequence = a.sequence

/-- One call on a session. -/
def stepAdvance (sessionId : SessionId) (s : Store) (call : AdvanceCall) : Store :=
  (s.advanceProviderSessionHistory call.now sessionId call.turn).store

end Store

section Steps

variable {s : Store} {now : Time} {sessionId : SessionId} {a b : AdvanceHistory}
  {c : ProviderSession} {key : AdvancementKey}

theorem effectiveTarget_eq (h : a.expectedHistoryCount ≤ a.historyCount) :
    c.effectiveTarget a = max c.historyCount a.historyCount := by
  unfold ProviderSession.effectiveTarget
  split <;> omega

theorem get?_admitVisible (messageKeys : List MessageKey) (m : MessageKey) :
    ((s.admitVisible now sessionId key messageKeys).visibleAdmissions.get? (sessionId, m)).map
        VisibleAdmission.advancementKey =
      ((s.visibleAdmissions.get? (sessionId, m)).map VisibleAdmission.advancementKey <|>
        if m ∈ messageKeys then some key else none) := by
  unfold Store.admitVisible
  dsimp only
  generalize s.visibleAdmissions = t
  induction messageKeys generalizing t with
  | nil => simp
  | cons k messageKeys ih =>
    rw [List.foldl_cons, ih, Table.get?_insert_getD]
    cases t.get? (sessionId, m) with
    | some => simp
    | none => by_cases hm : m = k <;> simp [hm]

theorem lastSequence_advanced {m incoming : SessionManifest} {requestId : RequestId} {target : ℕ}
    {decision : ReplayDecision} (hpos : 0 < decision.admissionSequence)
    (hincoming : ∀ d, incoming.lastAcceptedReplayDecision = some d →
      d.admissionSequence = decision.admissionSequence) :
    (m.advanced incoming key requestId target decision).lastSequence =
      max m.lastSequence decision.admissionSequence := by
  have hne : decision.admissionSequence ≠ 0 := by omega
  unfold SessionManifest.advanced SessionManifest.pointed
  rw [if_neg hne]
  split
  · have hle : (m.lastAcceptedReplayDecision.map ReplayDecision.admissionSequence).getD 0 ≤
        m.lastSequence := le_max_right _ _
    simp only [SessionManifest.lastSequence] at hle ⊢
    omega
  · cases h : incoming.lastAcceptedReplayDecision with
    | none => simp [SessionManifest.lastSequence]
    | some d => simp [SessionManifest.lastSequence, hincoming d h]

theorem acceptedAdvancementKeys_advanced {m incoming : SessionManifest} {requestId : RequestId}
    {target : ℕ} {decision : ReplayDecision} :
    (m.advanced incoming key requestId target decision).acceptedAdvancementKeys =
      lastEntries rememberedKeys (m.acceptedAdvancementKeys ++ [key]) := by
  unfold SessionManifest.advanced SessionManifest.pointed
  split
  · simp only [SessionManifest.merged]
  · split <;> simp only [SessionManifest.merged]

theorem pointers_advanced {m : SessionManifest} {target : ℕ} {decision : ReplayDecision}
    (hkey : a.advancementKey = some key) (hpos : 0 < a.sequence)
    (hdecision : decision.admissionSequence = a.sequence) :
    (m.advanced a.manifest key a.requestId target decision).pointers =
      if a.sequence < m.lastSequence then m.pointers else a.pointers := by
  have hne : a.sequence ≠ 0 := by omega
  obtain ⟨d, hd⟩ : ∃ d, a.manifest.lastAcceptedReplayDecision = some d := by
    refine Option.ne_none_iff_exists'.mp fun hnone => hne ?_
    simp [AdvanceHistory.sequence, hnone]
  unfold SessionManifest.advanced SessionManifest.pointed
  rw [hdecision, if_neg hne]
  split
  · rfl
  · simp [SessionManifest.pointers, AdvanceHistory.pointers, hkey, hd]

theorem acceptedRequest_acceptDecision (s : Store) (now : Time) (requestId id : RequestId) :
    (s.acceptDecision now requestId).acceptedRequest sessionId id =
      (s.acceptedRequest sessionId id).map fun q =>
        if id = requestId then
          { q with
            replayDecision := { q.replayDecision with admissionState := "accepted" }
            updatedAt := now }
        else q := by
  unfold Store.acceptDecision Store.acceptedRequest
  simp only [Store.updateRequests_requests, Table.get?_update]
  cases s.requests.get? id with
  | none => rfl
  | some =>
    by_cases hid : id = requestId
    · simp [hid, Option.filter]
    · simp [hid, Option.filter]

/-- A call keeps the turns of completed requests. -/
theorem acceptable_advance (h : s.Acceptable sessionId b) :
    (s.advanceProviderSessionHistory now sessionId a).store.Acceptable sessionId b := by
  obtain ⟨q, hq, hsequence⟩ := h.request
  refine ⟨h.key, h.forward, h.positive, ?_⟩
  have hkeep : ∀ t : Store, t.requests = s.requests →
      ∃ q, (t.acceptDecision now a.requestId).acceptedRequest sessionId b.requestId = some q ∧
        q.replayDecision.admissionSequence = b.sequence := by
    intro t ht
    have hqt : t.acceptedRequest sessionId b.requestId = some q := by
      unfold Store.acceptedRequest at hq ⊢
      rw [ht]
      exact hq
    rw [acceptedRequest_acceptDecision, hqt]
    refine ⟨_, rfl, ?_⟩
    split <;> exact hsequence
  unfold Store.advanceProviderSessionHistory
  cases a.advancementKey with
  | none => exact ⟨q, hq, hsequence⟩
  | some =>
    dsimp only
    split
    · exact ⟨q, hq, hsequence⟩
    · split
      · split
        · exact hkeep s rfl
        · exact hkeep _ rfl
      · exact ⟨q, hq, hsequence⟩

/-- A turn whose key the session remembers changes nothing that the session shows. -/
theorem advance_remembered (hc : s.sessions.get? sessionId = some c)
    (hok : s.Acceptable sessionId a)
    (hin : a.keyIn c.contextManifest.acceptedAdvancementKeys = true) :
    (s.advanceProviderSessionHistory now sessionId a).store = s.acceptDecision now a.requestId := by
  obtain ⟨q, hq, -⟩ := hok.request
  obtain ⟨key, hmem, hkey⟩ := keyIn_iff.mp hin
  have hforward : ¬a.historyCount < a.expectedHistoryCount := not_lt.mpr hok.forward
  unfold Store.advanceProviderSessionHistory
  simp [hkey, hq, hc, hmem, hforward]

/-- Any other turn is absorbed, and its key becomes the last that the session remembers. -/
theorem advance_new (hc : s.sessions.get? sessionId = some c) (hok : s.Acceptable sessionId a)
    (hin : a.keyIn c.contextManifest.acceptedAdvancementKeys = false)
    (hkey : a.advancementKey = some key) :
    ∃ c', (s.advanceProviderSessionHistory now sessionId a).store.sessions.get? sessionId =
        some c' ∧
      c'.contextManifest.acceptedAdvancementKeys =
        lastEntries rememberedKeys (c.contextManifest.acceptedAdvancementKeys ++ [key]) ∧
      (s.advanceProviderSessionHistory now sessionId a).store.acceptance sessionId c' =
        (s.acceptance sessionId c).absorb a := by
  obtain ⟨q, hq, hsequence⟩ := hok.request
  have hpos := hok.positive
  have hnew : ¬key ∈ c.contextManifest.acceptedAdvancementKeys := by
    intro hmem
    rw [keyIn_iff.mpr ⟨key, hmem, hkey⟩] at hin
    cases hin
  have hstep : (s.advanceProviderSessionHistory now sessionId a).store =
      (((s.admitVisible now sessionId key a.manifest.acceptedVisibleMessageKeys).updateSessions
        (fun id _ => id == sessionId)
          (fun _ => c.advanced now a key q.replayDecision)).acceptDecision now a.requestId) := by
    have hforward : ¬a.historyCount < a.expectedHistoryCount := not_lt.mpr hok.forward
    unfold Store.advanceProviderSessionHistory
    simp [hkey, hq, hc, hnew, hforward]
  rw [hstep]
  refine ⟨c.advanced now a key q.replayDecision, ?_, ?_, ?_⟩
  · simp [Store.acceptDecision, Store.admitVisible, Table.get?_update, hc]
  · exact acceptedAdvancementKeys_advanced
  · ext1
    · exact effectiveTarget_eq hok.forward
    · funext m
      have hadmit := @get?_admitVisible s now sessionId key
        a.manifest.acceptedVisibleMessageKeys m
      rw [← hkey] at hadmit
      exact hadmit
    · exact pointers_advanced hkey hpos hsequence
    · have hincoming : ∀ d, a.manifest.lastAcceptedReplayDecision = some d →
          d.admissionSequence = q.replayDecision.admissionSequence := by
        intro d hd
        rw [hsequence]
        simp [AdvanceHistory.sequence, hd]
      rw [← hsequence] at hpos
      have hlast := @lastSequence_advanced key c.contextManifest a.manifest a.requestId
        (c.effectiveTarget a) q.replayDecision hpos hincoming
      rw [hsequence] at hlast
      exact hlast

end Steps

/-! ## Runs of calls -/

theorem suffix_lastEntries {α : Type} {xs ys : List α} {n : ℕ} (h : xs <:+ ys)
    (hn : xs.length ≤ n) : xs <:+ lastEntries n ys := by
  have hle := h.length_le
  unfold lastEntries
  refine List.suffix_of_suffix_length_le h (List.drop_suffix _ _) ?_
  rw [List.length_drop]
  omega

theorem length_lastEntries_le {α : Type} (n : ℕ) (xs : List α) :
    (lastEntries n xs).length ≤ n := by
  unfold lastEntries
  rw [List.length_drop]
  omega

/-- The keys of the accepted turns that a session remembers. -/
abbrev ProviderSession.remembered (c : ProviderSession) : List AdvancementKey :=
  c.contextManifest.acceptedAdvancementKeys

/-- The turns of a set whose keys are not among the last `r` that a session remembers. -/
def ProviderSession.others (c : ProviderSession) (S : List AdvanceHistory) (r : ℕ) :
    List AdvanceHistory :=
  S.filter fun b => !b.keyIn (lastEntries r c.remembered)

/-- A session cannot forget the key of a turn while it accepts the turns of a set: the key is among
the last that it remembers, and there is room for the other turns behind them. -/
def ProviderSession.Keeps (c : ProviderSession) (S : List AdvanceHistory) (a : AdvanceHistory) :
    Prop :=
  ∃ r, a.keyIn (lastEntries r c.remembered) = true ∧ r + (c.others S r).length ≤ rememberedKeys

/-- A set of turns that do not overlap, of completed requests of one session. A turn whose key the
session remembers is one that it already shows, or its key stays remembered. -/
structure Turns (s : Store) (sessionId : SessionId) (c : ProviderSession)
    (S : List AdvanceHistory) : Prop where
  session : s.sessions.get? sessionId = some c
  apart : S.Pairwise AdvanceHistory.Apart
  acceptable : ∀ a ∈ S, s.Acceptable sessionId a
  settled : ∀ a ∈ S, a.keyIn c.remembered = true →
    (s.acceptance sessionId c).absorb a = s.acceptance sessionId c ∨ c.Keeps S a

/-- What a run of calls has reached: the turns that the session did not remember when it began are
absorbed. -/
structure Reached (o : Acceptance) (sessionId : SessionId) (c₀ : ProviderSession)
    (S done : List AdvanceHistory) (s : Store) (c : ProviderSession) : Prop where
  session : s.sessions.get? sessionId = some c
  acceptable : ∀ a ∈ S, s.Acceptable sessionId a
  drawn : ∀ a ∈ done, a ∈ S
  shown : s.acceptance sessionId c = done.foldl Acceptance.absorb o
  known : ∀ a ∈ S, a.keyIn c.remembered = true → a.keyIn c₀.remembered = true ∨ a ∈ done
  kept : ∀ r, r + (c₀.others S r).length ≤ rememberedKeys →
    ∃ added, lastEntries r c₀.remembered ++ added <:+ c.remembered ∧ added.Nodup ∧
      ∀ key ∈ added, ∃ a ∈ c₀.others S r, a.advancementKey = some key

section Runs

variable {s s₀ : Store} {sessionId : SessionId} {c c₀ : ProviderSession}
  {S done : List AdvanceHistory} {o : Acceptance} {a : AdvanceHistory} {key : AdvancementKey}

theorem Turns.reached (h : Turns s₀ sessionId c₀ S) :
    Reached (s₀.acceptance sessionId c₀) sessionId c₀ S [] s₀ c₀ where
  session := h.session
  acceptable := h.acceptable
  drawn a ha := by cases ha
  shown := rfl
  known _ _ hin := Or.inl hin
  kept r _ := by
    refine ⟨[], ?_, List.nodup_nil, by simp⟩
    rw [List.append_nil]
    exact List.drop_suffix _ _

/-- A key that the session keeps is remembered all along. -/
theorem Reached.remembers (h : Reached o sessionId c₀ S done s c) (hkeeps : c₀.Keeps S a) :
    a.keyIn c.remembered = true := by
  obtain ⟨r, hin, hroom⟩ := hkeeps
  obtain ⟨added, hsuffix, -, -⟩ := h.kept r hroom
  obtain ⟨key, hmem, hkey⟩ := keyIn_iff.mp hin
  exact keyIn_iff.mpr ⟨key, hsuffix.subset (List.mem_append_left _ hmem), hkey⟩

/-- The keys that are added to a window stay distinct and within the turns that it lacks, so they
fit behind it. -/
theorem Reached.kept_append (h : Reached o sessionId c₀ S done s c) (ha : a ∈ S)
    (hnew : a.keyIn c.remembered = false) (hkey : a.advancementKey = some key) {r : ℕ}
    (hroom : r + (c₀.others S r).length ≤ rememberedKeys) :
    ∃ added, lastEntries r c₀.remembered ++ added <:+
        lastEntries rememberedKeys (c.remembered ++ [key]) ∧ added.Nodup ∧
      ∀ key ∈ added, ∃ a ∈ c₀.others S r, a.advancementKey = some key := by
  obtain ⟨added, hsuffix, hnodup, hothers⟩ := h.kept r hroom
  have hlacks : key ∉ lastEntries r c₀.remembered ++ added := by
    intro hmem
    rw [keyIn_iff.mpr ⟨key, hsuffix.subset hmem, hkey⟩] at hnew
    cases hnew
  rw [List.mem_append, not_or] at hlacks
  have hother : a ∈ c₀.others S r := by
    refine List.mem_filter.mpr ⟨ha, ?_⟩
    cases hin : a.keyIn (lastEntries r c₀.remembered) with
    | false => rfl
    | true =>
      obtain ⟨key', hmem, hkey'⟩ := keyIn_iff.mp hin
      rw [hkey, Option.some.injEq] at hkey'
      rw [← hkey'] at hmem
      exact absurd hmem hlacks.1
  have hnodup' : (added ++ [key]).Nodup := by
    rw [List.nodup_append]
    refine ⟨hnodup, by simp, ?_⟩
    rintro k hk k' hk' rfl
    rw [List.mem_singleton] at hk'
    rw [hk'] at hk
    exact hlacks.2 hk
  have hothers' : ∀ k ∈ added ++ [key], ∃ b ∈ c₀.others S r, b.advancementKey = some k := by
    intro k hk
    rcases List.mem_append.mp hk with hk | hk
    · exact hothers k hk
    · rw [List.mem_singleton] at hk
      exact ⟨a, hother, by rw [hk, hkey]⟩
  have hlength : (added ++ [key]).length ≤ (c₀.others S r).length := by
    have hsub : added ++ [key] ⊆ (c₀.others S r).filterMap AdvanceHistory.advancementKey := by
      intro k hk
      obtain ⟨b, hb, hbk⟩ := hothers' k hk
      exact List.mem_filterMap.mpr ⟨b, hb, hbk⟩
    exact (List.subperm_of_subset hnodup' hsub).length_le.trans (List.length_filterMap_le _ _)
  refine ⟨added ++ [key], suffix_lastEntries ?_ ?_, hnodup', hothers'⟩
  · obtain ⟨before, hbefore⟩ := hsuffix
    exact ⟨before, by rw [← hbefore]; simp⟩
  · have hwindow := length_lastEntries_le r c₀.remembered
    rw [List.length_append]
    omega

/-- The turn of a call, unless the session remembered it when the run began. -/
def ProviderSession.fresh (c : ProviderSession) (l : List AdvanceHistory) :
    List AdvanceHistory :=
  l.filter fun a => !a.keyIn c.remembered

/-- The turns that a call adds are absorbed. -/
theorem Reached.step_shown (hturns : Turns s₀ sessionId c₀ S)
    (h : Reached (s₀.acceptance sessionId c₀) sessionId c₀ S done s c) (ha : a ∈ S)
    (hnew : a.keyIn c.remembered = false) :
    (s.acceptance sessionId c).absorb a =
      (done ++ c₀.fresh [a]).foldl Acceptance.absorb (s₀.acceptance sessionId c₀) := by
  rw [h.shown, List.foldl_append]
  unfold ProviderSession.fresh
  cases hin : a.keyIn c₀.remembered with
  | false => simp [hin]
  | true =>
    -- the session has forgotten the key, so it shows the turn already
    have hshown : (s₀.acceptance sessionId c₀).absorb a = s₀.acceptance sessionId c₀ := by
      refine (hturns.settled a ha hin).resolve_right fun hkeeps => ?_
      rw [h.remembers hkeeps] at hnew
      cases hnew
    rw [← (absorbs_turns hturns.apart).foldl_comm h.drawn ha, hshown]
    simp [hin]

theorem Reached.step (hturns : Turns s₀ sessionId c₀ S)
    (h : Reached (s₀.acceptance sessionId c₀) sessionId c₀ S done s c) {call : AdvanceCall}
    (ha : call.turn ∈ S) :
    ∃ c', Reached (s₀.acceptance sessionId c₀) sessionId c₀ S (done ++ c₀.fresh [call.turn])
      (s.stepAdvance sessionId call) c' := by
  obtain ⟨now, a⟩ := call
  have hok : s.Acceptable sessionId a := h.acceptable a ha
  have hdrawn : ∀ b ∈ done ++ c₀.fresh [a], b ∈ S := by
    intro b hb
    rcases List.mem_append.mp hb with hb | hb
    · exact h.drawn b hb
    · rw [List.mem_singleton.mp (List.mem_filter.mp hb).1]
      exact ha
  have hacceptable : ∀ b ∈ S, (s.stepAdvance sessionId ⟨now, a⟩).Acceptable sessionId b :=
    fun b hb => acceptable_advance (h.acceptable b hb)
  cases hin : a.keyIn c.remembered with
  | true =>
    have hstep : s.stepAdvance sessionId ⟨now, a⟩ = s.acceptDecision now a.requestId :=
      advance_remembered h.session hok hin
    refine ⟨c, ?_, hacceptable, hdrawn, ?_, ?_, h.kept⟩
    · rw [hstep]
      exact h.session
    · rw [hstep]
      have habsorbed : ∀ b ∈ c₀.fresh [a], b ∈ done := by
        intro b hb
        obtain ⟨hb, hfresh⟩ := List.mem_filter.mp hb
        rw [List.mem_singleton] at hb
        rw [hb] at hfresh ⊢
        exact (h.known a ha hin).resolve_left (by simpa using hfresh)
      rw [(absorbs_turns hturns.apart).foldl_append h.drawn habsorbed]
      exact h.shown
    · intro b hb hb'
      exact (h.known b hb hb').imp_right (List.mem_append_left _)
  | false =>
    obtain ⟨key, hkey⟩ := Option.isSome_iff_exists.mp hok.key
    obtain ⟨c', hc', hkeys, hshown⟩ := @advance_new s now sessionId a c key h.session hok hin hkey
    refine ⟨c', hc', hacceptable, hdrawn, ?_, ?_, ?_⟩
    · exact hshown.trans (h.step_shown hturns ha hin)
    · intro b hb hb'
      obtain ⟨key', hmem, hkey'⟩ := keyIn_iff.mp hb'
      rw [ProviderSession.remembered, hkeys] at hmem
      rcases List.mem_append.mp (List.mem_of_mem_drop hmem) with hmem | hmem
      · exact (h.known b hb (keyIn_iff.mpr ⟨key', hmem, hkey'⟩)).imp_right
          (List.mem_append_left _)
      · rw [List.mem_singleton] at hmem
        have hba : b = a := AdvanceHistory.Apart.eq_of_key hturns.apart hb ha
          (by rw [hkey', hmem, hkey])
        cases hold : b.keyIn c₀.remembered with
        | true => exact Or.inl rfl
        | false =>
          refine Or.inr (List.mem_append_right _ (List.mem_filter.mpr ⟨?_, ?_⟩))
          · simpa using hba
          · rw [hold]
            rfl
    · intro r hroom
      have hremembered : c'.remembered = lastEntries rememberedKeys (c.remembered ++ [key]) := hkeys
      rw [hremembered]
      exact h.kept_append ha hin hkey hroom

end Runs

/-! ## Any order -/

/-- A list of calls for the turns of a set, in some order and with repetitions. -/
def Covers (S : List AdvanceHistory) (l : List AdvanceCall) : Prop :=
  ∀ a, a ∈ l.map AdvanceCall.turn ↔ a ∈ S

section Order

variable {s : Store} {sessionId : SessionId} {c : ProviderSession} {S : List AdvanceHistory}
  {l l' : List AdvanceCall}

theorem Covers.mem (h : Covers S l) : ∀ call ∈ l, call.turn ∈ S :=
  fun call hcall => (h call.turn).mp (List.mem_map_of_mem hcall)

end Order

/-! ## A session with a full memory -/

end GlassHive
