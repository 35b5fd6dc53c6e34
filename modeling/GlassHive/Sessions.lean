import GlassHive.Store

/-!
# Accepted turns of a provider session

A completed request is accepted once: the session advances its history, remembers the key of the
turn, admits the visible messages of the turn and points at the accepted request with the highest
admission sequence.
-/

namespace GlassHive

open Relational

/-- The arguments of `advance_provider_session_history`. A key that is not given is blank there, and
`manifest` is the context manifest that the caller built. -/
structure AdvanceHistory where
  requestId : RequestId
  advancementKey : Option AdvancementKey
  expectedHistoryCount : ℕ
  historyCount : ℕ
  manifest : SessionManifest

/-- The `advance_status` of a reply. -/
inductive AdvanceStatus
  | alreadyAdvanced
  | advanced
  | reconciledStale
  deriving DecidableEq, Repr

/-- The keys of the last accepted turns that a session remembers. -/
def rememberedKeys : ℕ := 128

/-- The visible message keys that a manifest keeps. -/
def keptMessageKeys : ℕ := 512

/-- The last entries of a list. -/
def lastEntries {α : Type} (n : ℕ) (xs : List α) : List α :=
  xs.drop (xs.length - n)

namespace SessionManifest

/-- The highest admission sequence that was accepted, by the manifest and its last decision. -/
def lastSequence (m : SessionManifest) : ℕ :=
  max m.lastAcceptedAdmissionSequence
    ((m.lastAcceptedReplayDecision.map ReplayDecision.admissionSequence).getD 0)

/-- The manifest after a turn, with the pointers of the turn. -/
def merged (m incoming : SessionManifest) (key : AdvancementKey) (requestId : RequestId)
    (target : ℕ) : SessionManifest where
  messages := target
  acceptedAdvancementKeys := lastEntries rememberedKeys (m.acceptedAdvancementKeys ++ [key])
  acceptedVisibleMessageKeys := lastEntries keptMessageKeys
    (m.acceptedVisibleMessageKeys ++ incoming.acceptedVisibleMessageKeys).eraseDups
  historyCursorAuthority := some "stable_message_keys_v1"
  lastRequestId := m.lastRequestId <|> incoming.lastRequestId
  lastAcceptedRequestId := some requestId
  lastAcceptedAdvancementKey := some key
  lastAcceptedReplayDecision :=
    m.lastAcceptedReplayDecision <|> incoming.lastAcceptedReplayDecision
  lastAcceptedAdmissionSequence := m.lastAcceptedAdmissionSequence
  admissionSequence := max m.admissionSequence incoming.admissionSequence
  contextGeneration := max m.contextGeneration incoming.contextGeneration
  ownerMainContextVersion := max m.ownerMainContextVersion incoming.ownerMainContextVersion
  rest := m.rest ++ incoming.rest.filter fun e => !(m.rest.any fun e' => e'.1 == e.1)

/-- The pointers of a manifest follow the highest admission sequence. A request without a sequence
leaves those that the merge wrote. -/
def pointed (m merged incoming : SessionManifest) (key : AdvancementKey) (requestId : RequestId)
    (decision : ReplayDecision) : SessionManifest :=
  if decision.admissionSequence = 0 then merged
  else if decision.admissionSequence < m.lastSequence then
    { merged with
      lastRequestId := m.lastRequestId
      lastAcceptedRequestId := m.lastAcceptedRequestId
      lastAcceptedAdvancementKey := m.lastAcceptedAdvancementKey
      lastAcceptedReplayDecision := m.lastAcceptedReplayDecision }
  else
    { merged with
      lastRequestId := some requestId
      lastAcceptedRequestId := some requestId
      lastAcceptedAdvancementKey := some key
      lastAcceptedReplayDecision :=
        some (incoming.lastAcceptedReplayDecision.getD decision) }

/-- The manifest of a session that accepts a turn. -/
def advanced (m incoming : SessionManifest) (key : AdvancementKey) (requestId : RequestId)
    (target : ℕ) (decision : ReplayDecision) : SessionManifest :=
  { m.pointed (m.merged incoming key requestId target) incoming key requestId decision with
    lastAcceptedAdmissionSequence := max m.lastSequence decision.admissionSequence }

end SessionManifest

/-- The history count that a turn leaves. -/
def ProviderSession.effectiveTarget (c : ProviderSession) (a : AdvanceHistory) : ℕ :=
  if c.historyCount = a.expectedHistoryCount then a.historyCount
  else max c.historyCount a.historyCount

/-- The row of a session that accepts a turn. -/
def ProviderSession.advanced (c : ProviderSession) (now : Time) (a : AdvanceHistory)
    (key : AdvancementKey) (decision : ReplayDecision) : ProviderSession :=
  { c with
    historyCount := c.effectiveTarget a
    contextManifest := c.contextManifest.advanced a.manifest key a.requestId (c.effectiveTarget a)
      decision
    updatedAt := now }

namespace Store

/-- The completed request of a session that is to be accepted. -/
def acceptedRequest (s : Store) (sessionId : SessionId) (requestId : RequestId) :
    Option ProviderRequest :=
  (s.requests.get? requestId).filter fun q => q.sessionId == sessionId && q.state == "completed"

/-- The decision of a request is accepted. -/
def acceptDecision (s : Store) (now : Time) (requestId : RequestId) : Store :=
  s.updateRequests (fun id _ => id == requestId) fun q => { q with
    replayDecision := { q.replayDecision with admissionState := "accepted" }, updatedAt := now }

/-- The visible messages of a turn are admitted, unless another turn admitted them. -/
def admitVisible (s : Store) (now : Time) (sessionId : SessionId) (key : AdvancementKey)
    (messageKeys : List MessageKey) : Store :=
  { s with
    visibleAdmissions := messageKeys.foldl
      (fun t m => (t.insert? (sessionId, m) { advancementKey := key, acceptedAt := now }).getD t)
      s.visibleAdmissions }

/-- `advance_provider_session_history`. -/
def advanceProviderSessionHistory (s : Store) (now : Time) (sessionId : SessionId)
    (a : AdvanceHistory) : Outcome (ProviderSession × AdvanceStatus) :=
  match a.advancementKey with
  | none => .raise s (.valueError "Provider session advancement requires an advancement key")
  | some key =>
    if a.historyCount < a.expectedHistoryCount then
      .raise s (.valueError "Provider session history cannot move backwards")
    else match s.acceptedRequest sessionId a.requestId, s.sessions.get? sessionId with
    | some q, some c =>
      if c.contextManifest.acceptedAdvancementKeys.contains key then
        .commit (s.acceptDecision now a.requestId) (c, .alreadyAdvanced)
      else
        let c' := c.advanced now a key q.replayDecision
        .commit
          (((s.admitVisible now sessionId key a.manifest.acceptedVisibleMessageKeys).updateSessions
            (fun id _ => id == sessionId) (fun _ => c')).acceptDecision now a.requestId)
          (c', if c.historyCount = a.expectedHistoryCount then .advanced else .reconciledStale)
    | _, _ =>
      .raise s (.valueError
        "Provider session advancement requires an accepted matching request")

end Store

end GlassHive
