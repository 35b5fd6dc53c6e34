import GlassHive.NativeInput

/-!
# Replies to native input

Of the replies under one identifier the first is accepted, and it is the only one that is ever sent
on, to a request of its own content. Since it stays there, a request that uses the identifier again
with another content is listed but cannot be answered.
-/

namespace GlassHive

open Relational Transition

variable {valid : Option JsonValue → Option JsonFields → Bool}

/-! ## One file access of a call -/

/-- What a call knows between its file accesses. -/
def RespondPhase.Sound (a : NativeAnswer) : RespondPhase → Prop
  | .readContext => True
  | .readRequest _ => a.action ∈ nativeActions
  | .findResponse _ reply => reply.requestId = a.requestId ∧ reply.response.action ∈ nativeActions
  | .link reply => reply.requestId = a.requestId ∧ reply.response.action ∈ nativeActions
  | .readResponse reply => reply.requestId = a.requestId ∧ reply.response.action ∈ nativeActions
  | .done _ => True

section RespondStep

variable {files : NativeFiles} {a : NativeAnswer} {phase : RespondPhase}

/-- A file access links the reply of its call or leaves the files as they are. -/
theorem respondStep_cases (valid : Option JsonValue → Option JsonFields → Bool)
    (files : NativeFiles) (a : NativeAnswer) (phase : RespondPhase) :
    (∃ reply responses, phase = .link reply ∧
      files.responses.insert? a.requestId reply = some responses ∧
      respondStep valid files a phase = ({ files with responses }, .done (.ok .accepted))) ∨
    (respondStep valid files a phase).1 = files ∧
      ((respondStep valid files a phase).2 = .done (.ok .accepted) →
        phase = .done (.ok .accepted)) := by
  cases phase with
  | readContext =>
    right
    simp only [respondStep]
    split
    · simp
    · split
      · simp
      · split <;> simp
  | readRequest =>
    right
    simp only [respondStep]
    split
    · simp
    · split <;> simp
  | findResponse =>
    right
    simp only [respondStep]
    split
    · simp
    · split
      · simp
      · split <;> simp
  | link reply =>
    cases hinsert : files.responses.insert? a.requestId reply with
    | some responses =>
      exact Or.inl ⟨reply, responses, rfl, hinsert, by simp [respondStep, hinsert]⟩
    | none => exact Or.inr (by simp [respondStep, hinsert])
  | readResponse =>
    right
    simp only [respondStep]
    split
    · simp
    · split <;> simp
  | done => exact Or.inr ⟨rfl, fun h => h⟩

theorem respondStep_sound (h : phase.Sound a) : (respondStep valid files a phase).2.Sound a := by
  cases phase with
  | readContext =>
    simp only [respondStep]
    split
    · trivial
    · rename_i haction
      split
      · trivial
      · split
        · trivial
        · exact not_not.mp haction
  | readRequest =>
    simp only [respondStep]
    split
    · trivial
    · split
      · trivial
      · exact ⟨rfl, h⟩
  | findResponse =>
    simp only [respondStep]
    split
    · exact h
    · split
      · trivial
      · split
        · trivial
        · exact h
  | link =>
    simp only [respondStep]
    split
    · exact h
    · trivial
  | readResponse =>
    simp only [respondStep]
    split
    · trivial
    · split <;> trivial
  | done => trivial

end RespondStep

namespace NativeWorld

variable {w : NativeWorld} {r : NativeRelay} {publication : NativeWrite}

/-! ## What every run keeps -/

/-- The relay works in the context of its file, and no request that it waits for has been sent an
answer. -/
structure RelayConsistent (w : NativeWorld) (r : NativeRelay) : Prop where
  token : ∃ context, w.files.context = some context ∧
    context.contextToken = r.context.contextToken
  writing : ∀ item, r.writing = some (.request item) → item.contextToken = r.context.contextToken
  context : ∀ context, r.writing = some (.context context) →
    context.contextToken = r.context.contextToken
  live : ∀ requestId l, r.live requestId = some l → l.item.requestId = requestId ∧
    l.item.contextToken = r.context.contextToken ∧ l.issue < w.issued ∧
    ∀ x ∈ w.relayed, x.issue ≠ l.issue
  separate : ∀ requestId requestId' l l', r.live requestId = some l →
    r.live requestId' = some l' → l.issue = l'.issue → requestId = requestId'

/-- The response files are the accepted replies, one for an identifier, and every answer that was
sent is one of them. -/
structure Consistent (w : NativeWorld) : Prop where
  response : ∀ requestId reply, w.files.responses.get? requestId = some reply →
    reply.requestId = requestId ∧ reply.response.action ∈ nativeActions
  kept : ∀ reply ∈ w.accepted, w.files.responses.get? reply.requestId = some reply
  known : ∀ requestId reply, w.files.responses.get? requestId = some reply → reply ∈ w.accepted
  distinct : w.accepted.Pairwise fun a b => a.requestId ≠ b.requestId
  request : ∀ requestId item, w.files.requests.get? requestId = some item →
    item.contextToken < w.fresh
  context : ∀ context, w.files.context = some context → context.contextToken < w.fresh
  call : ∀ n a phase, w.calls n = some (a, phase) → phase.Sound a
  issued : ∀ x ∈ w.relayed, x.issue < w.issued
  once : (w.relayed.map RelayedAnswer.issue).Nodup
  sent : ∀ x ∈ w.relayed, ∃ reply ∈ w.accepted, reply.requestId = x.item.requestId ∧
    reply.requestFingerprint = x.item.requestFingerprint ∧ reply.response = x.response
  relay : ∀ r, w.relay = some r → w.RelayConsistent r

theorem consistent_init : Consistent {} where
  response := by simp
  kept := by simp
  known := by simp
  distinct := List.Pairwise.nil
  request := by simp
  context := by simp
  call := by simp
  issued := by simp
  once := List.nodup_nil
  sent := by simp
  relay := by simp

/-- What a step of the relay or another may do, by the part that it touches. -/
theorem step_cases (w : NativeWorld) (i : NativeStep) :
    (step valid w i = w ∧ (∀ call, i = .advance call → w.calls call = none) ∧
      (i = .write → ∀ r, w.relay = some r → r.writing = none)) ∨
    (∃ workerId runId, i = .launch workerId runId ∧ step valid w i = w.launch workerId runId) ∨
    (∃ call a, i = .respond call a ∧
      step valid w i = { w with calls := Function.update w.calls call (some (a, .readContext)) }) ∨
    (∃ call a phase, i = .advance call ∧ w.calls call = some (a, phase) ∧
      step valid w i = w.advance valid call a phase) ∨
    (∃ r publication, i = .write ∧ w.relay = some r ∧ r.writing = some publication ∧
      step valid w i = { w with
        files := publish w.files publication, relay := some { r with writing := none } }) ∨
    ∃ r, w.relay = some r ∧ r.writing = none ∧ i ≠ .write ∧ (∀ call, i ≠ .advance call) ∧
      step valid w i = w.relayStep r i := by
  cases i with
  | launch workerId runId => exact Or.inr (Or.inl ⟨workerId, runId, rfl, rfl⟩)
  | respond call a => exact Or.inr (Or.inr (Or.inl ⟨call, a, rfl, rfl⟩))
  | advance call =>
    cases hcall : w.calls call with
    | none => exact Or.inl ⟨by simp [step, hcall], by simp [hcall], by simp⟩
    | some c =>
      exact Or.inr (Or.inr (Or.inr (Or.inl ⟨call, c.1, c.2, rfl, hcall, by simp [step, hcall]⟩)))
  | write =>
    cases hrelay : w.relay with
    | none => exact Or.inl ⟨by simp [step, hrelay], by simp, by simp⟩
    | some r =>
      cases hwriting : r.writing with
      | none => exact Or.inl ⟨by simp [step, hrelay, hwriting], by simp, by simp [hwriting]⟩
      | some publication =>
        exact Or.inr (Or.inr (Or.inr (Or.inr (Or.inl ⟨r, publication, rfl, rfl, hwriting,
          by simp [step, hrelay, hwriting]⟩))))
  | _ =>
    cases hrelay : w.relay with
    | none => exact Or.inl ⟨by simp [step, hrelay], by simp, by simp⟩
    | some r =>
      cases hwriting : r.writing with
      | some =>
        exact Or.inl ⟨by simp [step, hrelay, hwriting], by simp, by simp⟩
      | none =>
        exact Or.inr (Or.inr (Or.inr (Or.inr (Or.inr ⟨r, rfl, hwriting, by simp, by simp,
          by simp [step, hrelay, hwriting]⟩))))

/-- Between its publications the relay writes no file and no reply is accepted. -/
theorem relayStep_files (w : NativeWorld) (r : NativeRelay) (i : NativeStep) :
    (w.relayStep r i).files = w.files ∧ (w.relayStep r i).accepted = w.accepted ∧
      (w.relayStep r i).calls = w.calls ∧ (w.relayStep r i).fresh = w.fresh := by
  unfold relayStep
  split
  · split <;> simp
  · split <;> simp
  · split <;> simp [closeRequest]
  · split
    · split <;> simp [closeRequest]
    · simp
  · simp
  · simp

/-! ## One step -/

/-- A step that changes neither the responses nor the log of replies keeps them in agreement, and
what the other parts of the invariant ask is left. -/
theorem Consistent.of_eq (h : w.Consistent) {w' : NativeWorld}
    (hresponses : w'.files.responses = w.files.responses) (haccepted : w'.accepted = w.accepted)
    (hrequest : ∀ requestId item, w'.files.requests.get? requestId = some item →
      item.contextToken < w'.fresh)
    (hcontext : ∀ context, w'.files.context = some context → context.contextToken < w'.fresh)
    (hcall : ∀ n a phase, w'.calls n = some (a, phase) → phase.Sound a)
    (hissued : ∀ x ∈ w'.relayed, x.issue < w'.issued)
    (honce : (w'.relayed.map RelayedAnswer.issue).Nodup)
    (hsent : ∀ x ∈ w'.relayed, ∃ reply ∈ w.accepted, reply.requestId = x.item.requestId ∧
      reply.requestFingerprint = x.item.requestFingerprint ∧ reply.response = x.response)
    (hrelay : ∀ r, w'.relay = some r → w'.RelayConsistent r) : w'.Consistent where
  response := by rw [hresponses]; exact h.response
  kept := by rw [hresponses, haccepted]; exact h.kept
  known := by rw [hresponses, haccepted]; exact h.known
  distinct := by rw [haccepted]; exact h.distinct
  request := hrequest
  context := hcontext
  call := hcall
  issued := hissued
  once := honce
  sent := by rw [haccepted]; exact hsent
  relay := hrelay

theorem Consistent.launch (h : w.Consistent) (workerId : WorkerId) (runId : RunId) :
    (w.launch workerId runId).Consistent := by
  refine h.of_eq rfl rfl ?_ ?_ h.call h.issued h.once h.sent ?_
  · intro requestId item hitem
    have := h.request requestId item hitem
    simp only [NativeWorld.launch]
    omega
  · rintro context hcontext
    simp only [NativeWorld.launch, Option.some.injEq] at hcontext ⊢
    subst hcontext
    simp
  · rintro r hr
    simp only [NativeWorld.launch, Option.some.injEq] at hr
    subst hr
    exact {
      token := ⟨_, rfl, rfl⟩
      writing := by simp
      context := by simp
      live := by simp
      separate := by simp }

theorem Consistent.call_update (h : w.Consistent) {call : ℕ} {a : NativeAnswer}
    {phase : RespondPhase} (hphase : phase.Sound a) :
    { w with calls := Function.update w.calls call (some (a, phase)) }.Consistent := by
  refine h.of_eq rfl rfl h.request h.context ?_ h.issued h.once h.sent
    fun r hr => { h.relay r hr with }
  intro n b other hother
  by_cases hn : n = call
  · subst hn
    simp only [Function.update_self, Option.some.injEq, Prod.mk.injEq] at hother
    obtain ⟨rfl, rfl⟩ := hother
    exact hphase
  · simp only [Function.update_of_ne hn] at hother
    exact h.call n b other hother

/-- The first reply under an identifier. -/
theorem Consistent.link (h : w.Consistent) {reply : NativeReply}
    {responses : Table Text NativeReply}
    (hinsert : w.files.responses.insert? reply.requestId reply = some responses)
    (haction : reply.response.action ∈ nativeActions) :
    { w with
      files := { w.files with responses }
      accepted := w.accepted ++ [reply] }.Consistent := by
  have hget := Table.get?_insert hinsert
  have hnone := (Table.insert?_eq_some hinsert).1
  have hother : ∀ b ∈ w.accepted, b.requestId ≠ reply.requestId := by
    intro b hb heq
    have := h.kept b hb
    rw [heq, hnone] at this
    simp at this
  exact {
    response := by
      intro requestId found hfound
      rw [hget] at hfound
      split at hfound
      · rename_i hid
        cases hfound
        exact ⟨hid.symm, haction⟩
      · exact h.response requestId found hfound
    kept := by
      intro b hb
      rw [hget]
      rcases List.mem_append.mp hb with hb | hb
      · rw [if_neg (hother b hb)]
        exact h.kept b hb
      · rw [List.mem_singleton.mp hb, if_pos rfl]
    known := by
      intro requestId found hfound
      rw [hget] at hfound
      split at hfound
      · cases hfound
        exact List.mem_append_right _ (List.mem_singleton_self _)
      · exact List.mem_append_left _ (h.known requestId found hfound)
    distinct := by
      refine List.pairwise_append.mpr ⟨h.distinct, List.pairwise_singleton _ _, ?_⟩
      intro b hb c hc
      rw [List.mem_singleton.mp hc]
      exact hother b hb
    request := h.request
    context := h.context
    call := h.call
    issued := h.issued
    once := h.once
    sent := by
      intro x hx
      obtain ⟨b, hb, hsame⟩ := h.sent x hx
      exact ⟨b, List.mem_append_left _ hb, hsame⟩
    relay := fun r hr => { h.relay r hr with } }

theorem Consistent.advance (h : w.Consistent) {call : ℕ} {a : NativeAnswer} {phase : RespondPhase}
    (hcall : w.calls call = some (a, phase)) : (w.advance valid call a phase).Consistent := by
  have hsound := h.call call a phase hcall
  have hnext : (respondStep valid w.files a phase).2.Sound a := respondStep_sound hsound
  rcases respondStep_cases valid w.files a phase with
    ⟨reply, responses, rfl, hinsert, hstep⟩ | ⟨hfiles, haccepted⟩
  · obtain ⟨hid, haction⟩ := hsound
    rw [← hid] at hinsert
    have := @Consistent.call_update _ (h.link hinsert haction) call a _ hnext
    simpa only [NativeWorld.advance, hstep] using this
  · have hsame : w.advance valid call a phase =
        { w with
          calls := Function.update w.calls call
            (some (a, (respondStep valid w.files a phase).2)) } := by
      unfold NativeWorld.advance
      dsimp only
      rw [hfiles]
      split
      · rename_i hphase
        have := haccepted hphase
        simp at this
      · rfl
    rw [hsame]
    exact h.call_update hnext

theorem Consistent.write (h : w.Consistent) (hr : w.relay = some r)
    (hwriting : r.writing = some publication) :
    { w with
      files := publish w.files publication
      relay := some { r with writing := none } }.Consistent := by
  have hrelay := h.relay r hr
  obtain ⟨current, hcurrent, htoken⟩ := hrelay.token
  have hbound := h.context current hcurrent
  have hdone : ∀ files : NativeFiles, (∃ context, files.context = some context ∧
      context.contextToken = r.context.contextToken) →
      ∀ q, some { r with writing := none } = some q →
        { w with files := files, relay := some { r with writing := none } }.RelayConsistent q := by
    rintro files hfile q hq
    cases hq
    exact {
      token := hfile
      writing := by simp
      context := by simp
      live := hrelay.live
      separate := hrelay.separate }
  cases publication with
  | context context =>
    have hsame := hrelay.context context hwriting
    refine h.of_eq rfl rfl h.request ?_ h.call h.issued h.once h.sent
      (hdone _ ⟨context, rfl, hsame⟩)
    intro other hother
    simp only [publish, Option.some.injEq] at hother
    subst hother
    dsimp only
    omega
  | request item =>
    have hsame := hrelay.writing item hwriting
    refine h.of_eq rfl rfl ?_ h.context h.call h.issued h.once h.sent
      (hdone _ ⟨current, hcurrent, htoken⟩)
    intro requestId other hother
    simp only [publish, Table.get?_put] at hother ⊢
    split at hother
    · cases hother
      omega
    · exact h.request requestId other hother

/-- A request that the relay closes is not waited for any more. -/
theorem Consistent.closeRequest (h : w.Consistent) (hr : w.relay = some r) {requestId : Text}
    {l : LiveRequest} (hl : r.live requestId = some l) (state : NativeState) :
    (w.closeRequest r l requestId state).Consistent ∧
      ∀ q, (w.closeRequest r l requestId state).relay = some q →
        ∀ id l', q.live id = some l' → l'.issue ≠ l.issue := by
  have hrelay := h.relay r hr
  have hlive : ∀ id l', Function.update r.live requestId none id = some l' →
      id ≠ requestId ∧ r.live id = some l' := by
    intro id l' hl'
    by_cases hid : id = requestId
    · subst hid
      simp at hl'
    · rw [Function.update_of_ne hid] at hl'
      exact ⟨hid, hl'⟩
  constructor
  · refine h.of_eq rfl rfl h.request h.context h.call h.issued h.once h.sent ?_
    rintro q hq
    cases hq
    exact {
      token := hrelay.token
      writing := by
        rintro item hitem
        cases hitem
        exact (hrelay.live requestId l hl).2.1
      context := by simp
      live := fun id l' hl' => hrelay.live id l' (hlive id l' hl').2
      separate := fun id id' l l' h1 h2 =>
        hrelay.separate id id' l l' (hlive id l h1).2 (hlive id' l' h2).2 }
  · rintro q hq id l' hl' hissue
    cases hq
    obtain ⟨hne, hold⟩ := hlive id l' hl'
    exact hne (hrelay.separate id requestId l' l hold hl hissue)

theorem Consistent.relayStep (h : w.Consistent) (hr : w.relay = some r) (i : NativeStep) :
    (w.relayStep r i).Consistent := by
  have hrelay := h.relay r hr
  unfold NativeWorld.relayStep
  split
  · split
    · exact h
    · refine h.of_eq rfl rfl h.request h.context h.call h.issued h.once h.sent ?_
      rintro q hq
      cases hq
      exact ⟨hrelay.token, by simp, by simp, hrelay.live, hrelay.separate⟩
  · rename_i requestId request createdAt
    split
    · exact h
    · refine h.of_eq rfl rfl h.request h.context h.call
        (fun x hx => Nat.lt_succ_of_lt (h.issued x hx)) h.once h.sent ?_
      rintro q hq
      cases hq
      have hnew : ∀ id l, Function.update r.live requestId
          (some ⟨nativeItem r.context requestId request createdAt, w.issued⟩) id = some l →
          id = requestId ∧ l = ⟨nativeItem r.context requestId request createdAt, w.issued⟩ ∨
            id ≠ requestId ∧ r.live id = some l := by
        intro id l hl
        by_cases hid : id = requestId
        · subst hid
          rw [Function.update_self, Option.some.injEq] at hl
          exact Or.inl ⟨rfl, hl.symm⟩
        · rw [Function.update_of_ne hid] at hl
          exact Or.inr ⟨hid, hl⟩
      exact {
        token := hrelay.token
        writing := by
          rintro item hitem
          cases hitem
          rfl
        context := by simp
        live := by
          intro id l hl
          rcases hnew id l hl with ⟨rfl, rfl⟩ | ⟨-, hold⟩
          · exact ⟨rfl, rfl, Nat.lt_succ_self _, fun x hx => (h.issued x hx).ne⟩
          · obtain ⟨hid, htoken, hissue, hunsent⟩ := hrelay.live id l hold
            exact ⟨hid, htoken, Nat.lt_succ_of_lt hissue, hunsent⟩
        separate := by
          intro id id' l l' hl hl' hissue
          rcases hnew id l hl with ⟨rfl, rfl⟩ | ⟨-, hold⟩
          · rcases hnew id' l' hl' with ⟨rfl, -⟩ | ⟨-, hold'⟩
            · rfl
            · have := (hrelay.live id' l' hold').2.2.1
              dsimp only at hissue
              omega
          · rcases hnew id' l' hl' with ⟨rfl, rfl⟩ | ⟨-, hold'⟩
            · have := (hrelay.live id l hold).2.2.1
              dsimp only at hissue
              omega
            · exact hrelay.separate id id' l l' hold hold' hissue }
  · split
    · exact h
    · rename_i l hl
      exact (h.closeRequest hr hl .cancelled).1
  · rename_i requestId
    split
    · rename_i l reply hl hreply
      split
      · exact h
      · rename_i hmatch
        obtain ⟨hfingerprint, -⟩ := not_or.mp hmatch
        obtain ⟨hclosed, hother⟩ := h.closeRequest hr hl .answered
        obtain ⟨hid, -, hissue, hunsent⟩ := hrelay.live requestId l hl
        refine hclosed.of_eq rfl rfl hclosed.request hclosed.context hclosed.call ?_ ?_ ?_ ?_
        · intro x hx
          rcases List.mem_append.mp hx with hx | hx
          · exact h.issued x hx
          · rw [List.mem_singleton.mp hx]
            exact hissue
        · rw [List.map_append, List.nodup_append]
          refine ⟨h.once, List.nodup_singleton _, ?_⟩
          intro n hn m hm
          obtain ⟨x, hx, rfl⟩ := List.mem_map.mp hn
          rw [List.map_singleton, List.mem_singleton] at hm
          rw [hm]
          exact hunsent x hx
        · intro x hx
          rcases List.mem_append.mp hx with hx | hx
          · exact h.sent x hx
          · rw [List.mem_singleton.mp hx]
            exact ⟨reply, h.known requestId reply hreply,
              (h.response requestId reply hreply).1.trans hid.symm, not_not.mp hfingerprint, rfl⟩
        · rintro q hq
          have hq' := hclosed.relay q hq
          refine { hq' with live := fun id l' hl' => ?_ }
          obtain ⟨hid', htoken', hissue', hunsent'⟩ := hq'.live id l' hl'
          refine ⟨hid', htoken', hissue', fun x hx => ?_⟩
          rcases List.mem_append.mp hx with hx | hx
          · exact hunsent' x hx
          · rw [List.mem_singleton.mp hx]
            exact (hother q hq id l' hl').symm
    · exact h
  · refine h.of_eq rfl rfl h.request h.context h.call h.issued h.once h.sent ?_
    rintro q hq
    cases hq
    exact ⟨hrelay.token, by simp, by simp, hrelay.live, hrelay.separate⟩
  · exact h

/-- One step keeps the invariant. -/
theorem Consistent.step (h : w.Consistent) (i : NativeStep) : (step valid w i).Consistent := by
  rcases @step_cases valid w i with ⟨heq, -⟩ | ⟨workerId, runId, -, heq⟩ | ⟨call, a, -, heq⟩ |
    ⟨call, a, phase, -, hcall, heq⟩ | ⟨r, publication, -, hr, hwriting, heq⟩ |
    ⟨r, hr, -, -, -, heq⟩
  · rw [heq]
    exact h
  · rw [heq]
    exact h.launch workerId runId
  · rw [heq]
    exact h.call_update trivial
  · rw [heq]
    exact h.advance hcall
  · rw [heq]
    exact h.write hr hwriting
  · rw [heq]
    exact h.relayStep hr i

/-! ## Identifiers that are used again -/

/-- No response of another content lies under the identifier of a listed request. -/
def Unblocked (w : NativeWorld) : Prop :=
  ∀ requestId item, w.files.Listed requestId item →
    ∀ found, w.files.responses.get? requestId = some found → found.Matches item

/-- The relay opens a request only where no response of another content lies, and a call links its
reply only while no request of another content is listed there. -/
def Timely (w : NativeWorld) : NativeStep → Prop
  | .write => ∀ r item, w.relay = some r → r.writing = some (.request item) →
      item.state = .pending →
        ∀ found, w.files.responses.get? item.requestId = some found → found.Matches item
  | .advance call => ∀ a reply, w.calls call = some (a, .link reply) →
      w.files.responses.get? a.requestId = none →
        ∀ item, w.files.Listed a.requestId item → reply.Matches item
  | _ => True

theorem unblocked_init : Unblocked {} := by
  rintro requestId item ⟨context, hcontext, -⟩
  simp at hcontext

/-- A new token lists no request of before. -/
theorem unblocked_launch (h : w.Consistent) (workerId : WorkerId) (runId : RunId) :
    (w.launch workerId runId).Unblocked := by
  rintro requestId item ⟨context, hcontext, hitem, htoken, -⟩
  have hbound := h.request requestId item hitem
  simp only [launch, Option.some.injEq] at hcontext
  rw [htoken, ← hcontext] at hbound
  exact absurd hbound (lt_irrefl _)

theorem unblocked_advance_iff (hfree : w.Unblocked) {call : ℕ} {a : NativeAnswer}
    {phase : RespondPhase} (hcall : w.calls call = some (a, phase)) :
    (w.advance valid call a phase).Unblocked ↔ w.Timely (.advance call) := by
  rcases respondStep_cases valid w.files a phase with
    ⟨reply, responses, rfl, hinsert, hstep⟩ | ⟨hfiles, haccepted⟩
  · have hget := Table.get?_insert hinsert
    have hnone := (Table.insert?_eq_some hinsert).1
    have hadvanced : (w.advance valid call a (.link reply)).files =
        { w.files with responses } := congrArg Prod.fst hstep
    unfold Unblocked
    rw [hadvanced]
    constructor
    · rintro hafter b other hother - item hlisted
      rw [hcall, Option.some.injEq] at hother
      cases hother
      exact hafter a.requestId item hlisted reply (by rw [hget, if_pos rfl])
    · rintro htimely requestId item hlisted found hfound
      rw [hget] at hfound
      split at hfound
      · rename_i hid
        cases hfound
        subst hid
        exact htimely a reply hcall hnone item hlisted
      · exact hfree requestId item hlisted found hfound
  · have hadvanced : (w.advance valid call a phase).files = w.files := hfiles
    unfold Unblocked
    rw [hadvanced]
    refine iff_of_true hfree ?_
    rintro b reply hother hnone - -
    rw [hcall, Option.some.injEq] at hother
    cases hother
    -- a link that finds no response is the other case
    obtain ⟨responses, hinsert⟩ := Option.isSome_iff_exists.mp
      ((Table.insert?_isSome (r := reply)).mpr hnone)
    have := haccepted (by simp [respondStep, hinsert])
    simp at this

theorem unblocked_write_iff (h : w.Consistent) (hfree : w.Unblocked) (hr : w.relay = some r)
    (hwriting : r.writing = some publication) :
    { w with
      files := publish w.files publication
      relay := some { r with writing := none } }.Unblocked ↔ w.Timely .write := by
  have hrelay := h.relay r hr
  obtain ⟨current, hcurrent, htoken⟩ := hrelay.token
  cases publication with
  | context context =>
    have hsame := hrelay.context context hwriting
    constructor
    · rintro - r' item hr' hitem
      rw [hr, Option.some.injEq] at hr'
      subst hr'
      simp [hwriting] at hitem
    · rintro - requestId item ⟨context', hcontext, hitem, hlisted⟩
      simp only [publish, Option.some.injEq] at hcontext
      subst hcontext
      refine hfree requestId item ⟨current, hcurrent, hitem, ?_, hlisted.2⟩
      rw [hlisted.1, hsame, htoken]
  | request item =>
    have hsame := hrelay.writing item hwriting
    constructor
    · rintro hafter r' item' hr' hitem' hpending found hfound
      rw [hr, Option.some.injEq] at hr'
      subst hr'
      rw [hwriting, Option.some.injEq, NativeWrite.request.injEq] at hitem'
      subst hitem'
      refine hafter item.requestId item ⟨current, hcurrent, ?_, ?_, hpending⟩ found hfound
      · simp [publish]
      · rw [hsame, htoken]
    · rintro htimely requestId other ⟨context, hcontext, hother, hlisted⟩ found hfound
      simp only [publish, Table.get?_put] at hother
      split at hother
      · rename_i hid
        cases hother
        subst hid
        exact htimely r item hr hwriting hlisted.2 found hfound
      · exact hfree requestId other ⟨context, hcontext, hother, hlisted⟩ found hfound

/-- One step blocks a listed request exactly when it is not timely. -/
theorem unblocked_step_iff (h : w.Consistent) (hfree : w.Unblocked) (i : NativeStep) :
    (step valid w i).Unblocked ↔ w.Timely i := by
  rcases @step_cases valid w i with ⟨heq, hcalls, hidle⟩ | ⟨workerId, runId, rfl, heq⟩ |
    ⟨call, a, rfl, heq⟩ | ⟨call, a, phase, rfl, hcall, heq⟩ |
    ⟨r, publication, rfl, hr, hwriting, heq⟩ | ⟨r, hr, hwriting, hwrite, hadvance, heq⟩
  · rw [heq]
    refine iff_of_true hfree ?_
    cases i with
    | write =>
      rintro r item hr hwriting
      simp [hidle rfl r hr] at hwriting
    | advance call =>
      rintro a reply hcall
      simp [hcalls call rfl] at hcall
    | _ => trivial
  · rw [heq]
    exact iff_of_true (unblocked_launch h workerId runId) trivial
  · rw [heq]
    exact iff_of_true hfree trivial
  · rw [heq]
    exact unblocked_advance_iff hfree hcall
  · rw [heq]
    exact unblocked_write_iff h hfree hr hwriting
  · rw [heq]
    refine iff_of_true ?_ ?_
    · unfold Unblocked
      rw [(relayStep_files w r i).1]
      exact hfree
    · cases i with
      | write => exact absurd rfl hwrite
      | advance call => exact absurd rfl (hadvance call)
      | _ => trivial

/-! ## Runs -/

/-- At most one reply of an identifier is accepted, and every answer that was sent on is the
accepted reply of its identifier and content, sent once for each issue of the request. -/
structure RepliedOnce (w : NativeWorld) : Prop where
  first : w.accepted.Pairwise fun a b => a.requestId ≠ b.requestId
  once : (w.relayed.map RelayedAnswer.issue).Nodup
  sent : ∀ x ∈ w.relayed, ∃ reply ∈ w.accepted, reply.requestId = x.item.requestId ∧
    reply.requestFingerprint = x.item.requestFingerprint ∧ reply.response = x.response

/-- A file access of a call that comes after the first reply changes no file and accepts nothing. -/
def LaterRejected (w : NativeWorld) (i : NativeStep) (w' : NativeWorld) : Prop :=
  ∀ call a phase found, i = .advance call → w.calls call = some (a, phase) →
    w.files.responses.get? a.requestId = some found → phase ≠ .done (.ok .accepted) →
      w'.files = w.files ∧ w'.accepted = w.accepted ∧
        w'.calls call ≠ some (a, .done (.ok .accepted))

/-- Every listed request can be answered. -/
def Open (valid : Option JsonValue → Option JsonFields → Bool) (w : NativeWorld) : Prop :=
  ∀ requestId item, w.files.Listed requestId item → w.files.Answerable valid requestId

theorem consistent_run (is : List NativeStep) : (run (step valid) {} is).Consistent := by
  have hstep : ∀ (w : NativeWorld) (i : NativeStep), w.Consistent → True →
      (w.step valid i).Consistent := fun _ i h _ => h.step i
  exact invariant_run hstep consistent_init (along_of_forall _ (fun _ _ => trivial) _ is)

theorem Consistent.repliedOnce (h : w.Consistent) : w.RepliedOnce :=
  ⟨h.distinct, h.once, h.sent⟩

theorem Consistent.open_iff (h : w.Consistent) : w.Open valid ↔ w.Unblocked := by
  constructor
  · intro hopen requestId item hlisted
    exact (answerable_iff hlisted (h.response requestId)).mp (hopen requestId item hlisted)
  · intro hfree requestId item hlisted
    exact (answerable_iff hlisted (h.response requestId)).mpr (hfree requestId item hlisted)

theorem laterRejected_step (w : NativeWorld) (i : NativeStep) :
    w.LaterRejected i (step valid w i) := by
  rintro call a phase found rfl hcall hfound hphase
  have hstep : step valid w (.advance call) = w.advance valid call a phase := by
    simp [step, hcall]
  rw [hstep]
  rcases respondStep_cases valid w.files a phase with
    ⟨reply, responses, -, hinsert, -⟩ | ⟨hfiles, haccepted⟩
  · rw [(Table.insert?_eq_some hinsert).1] at hfound
    cases hfound
  · have hunaccepted : (respondStep valid w.files a phase).2 ≠ .done (.ok .accepted) :=
      fun hnext => hphase (haccepted hnext)
    refine ⟨hfiles, ?_, ?_⟩
    · unfold advance
      dsimp only
      split
      · rename_i hnext
        exact absurd hnext hunaccepted
      · rfl
    · simpa [advance] using hunaccepted

end NativeWorld

/-- Native input is answered at most once and never stuck exactly when the steps are timely. In
every run the first reply under an identifier is the only one accepted, later ones change nothing,
and only it is sent on, to requests of its own content and once for each. Every listed request can
be answered as long as no identifier is used again over a reply of another content. -/
theorem native_input_answered_iff (valid : Option JsonValue → Option JsonFields → Bool)
    (is : List NativeStep) :
    ((∀ pre, pre <+: is → (run (NativeWorld.step valid) {} pre).RepliedOnce ∧
        (run (NativeWorld.step valid) {} pre).Open valid) ∧
      Along (NativeWorld.step valid) (fun w i => w.LaterRejected i (w.step valid i)) {} is) ↔
    Along (NativeWorld.step valid) NativeWorld.Timely {} is := by
  have hstep : ∀ (w : NativeWorld) (i : NativeStep), w.Consistent → (w.step valid i).Consistent :=
    fun _ i h => h.step i
  have hiff : ∀ (w : NativeWorld) (i : NativeStep), w.Consistent → w.Unblocked →
      ((w.step valid i).Unblocked ↔ w.Timely i) :=
    fun _ i h hfree => NativeWorld.unblocked_step_iff h hfree i
  rw [← forall_prefix_iff_along hstep hiff NativeWorld.consistent_init NativeWorld.unblocked_init]
  constructor
  · rintro ⟨hall, -⟩ pre hpre
    exact (NativeWorld.consistent_run pre).open_iff.mp (hall pre hpre).2
  · intro hfree
    refine ⟨fun pre hpre => ⟨(NativeWorld.consistent_run pre).repliedOnce, ?_⟩,
      along_of_forall _ (fun w i => NativeWorld.laterRejected_step w i) _ _⟩
    exact (NativeWorld.consistent_run pre).open_iff.mpr (hfree pre hpre)

/-! ## An identifier used again -/

/-- A question of the native process. -/
def question (message : String) : JsonFields :=
  [("message", .str message), ("subtype", .str "elicitation")]

/-- The context in which it asks. -/
def reusedContext : NativeContext :=
  { workerId := 1, runId := .given 0, contextToken := 0, nativeTurnId := some 1,
    nativeSessionActive := some false }

/-- The owner declines the first question, the relay sends that on, and the process asks another one
under the same identifier. -/
def reusedRun : List NativeStep :=
  let answer : NativeAnswer :=
    { workerId := 1, runId := .given 0, requestId := ['a'],
      requestFingerprint := ⟨reusedContext, ['a'], question "First?"⟩, action := "decline",
      content := none }
  [.launch 1 (.given 0), .write, .request ['a'] (question "First?") 1, .write,
    .respond 0 answer, .advance 0, .advance 0, .advance 0, .advance 0, .poll ['a'], .write,
    .request ['a'] (question "Second?") 2, .write]

/-- The second question is listed, and no call of `respond` can answer it. -/
theorem native_input_stuck :
    ∃ item, (run (NativeWorld.step fun _ _ => true) {} reusedRun).files.Listed ['a'] item ∧
      ¬(run (NativeWorld.step fun _ _ => true) {} reusedRun).files.Answerable (fun _ _ => true)
        ['a'] := by
  have hlisted : (run (NativeWorld.step fun _ _ => true) {} reusedRun).files.Listed ['a']
      (nativeItem reusedContext ['a'] (question "Second?") 2) :=
    ⟨reusedContext, by decide +kernel, by decide +kernel, rfl, rfl⟩
  have hfound : (run (NativeWorld.step fun _ _ => true) {} reusedRun).files.responses.get? ['a'] =
      some ⟨['a'], ⟨reusedContext, ['a'], question "First?"⟩, 0, ⟨"decline", none⟩⟩ := by
    decide +kernel
  refine ⟨_, hlisted, fun hanswer => ?_⟩
  have hmatches := (answerable_iff hlisted ((NativeWorld.consistent_run _).response ['a'])).mp
    hanswer _ hfound
  exact absurd hmatches.1 (by decide +kernel)

end GlassHive
