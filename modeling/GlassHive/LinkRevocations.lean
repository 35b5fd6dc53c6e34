import GlassHive.SignedLinks

/-!
# Revoked workers

A revocation of a worker is a row that every later call looks up, and a deletion of the references
of the worker by a pattern on their scopes. The row is never deleted. The pattern holds the text of
the worker as it is, so that its wildcards, and the letters of ASCII in the other case, let it match
the scopes of other workers.
-/

namespace GlassHive.SignedLinks

open Relational Transition RunActions

/-! ## Calls -/

inductive LinkCall
  | signParams (scope : LinkScope) (ttlSeconds expiresAt : Option ℤ)
  | signToken (scope : LinkScope) (ttlSeconds : Option ℤ)
  | createRef (token targetUrl : Points)
  | verifyLink (scope : LinkScope) (expiresAt supplied : Points)
  | verifyToken (token : Points)
  | resolveRef (refId : Points)
  | revoke (workerId : Points)

inductive LinkResult
  | params (p : Option LinkParams)
  | token (t : Points)
  | ref (r : Option (Points × Payload))
  | verified (ok : Bool)
  | payload (p : Option Payload)
  | resolved (r : Except String (Option LinkResolution))
  | revoked (count : ℕ)

/-- A call of the runtime: the store that it leaves, and its result. -/
def perform (codec : LinkCodec) (env : LinkEnv) (s : LinkStore) :
    LinkCall → Except String (LinkStore × LinkResult)
  | .signParams scope ttlSeconds expiresAt =>
    (signLinkParams codec env s scope ttlSeconds expiresAt).map fun p => (s, .params p)
  | .signToken scope ttlSeconds =>
    (signLinkToken codec .runtime env s scope ttlSeconds).map fun t => (s, .token t)
  | .createRef token targetUrl =>
    (createSignedLinkRef codec .runtime env s token targetUrl).map fun r => (r.1, .ref r.2)
  | .verifyLink scope expiresAt supplied =>
    (verifySignedLink codec env s scope expiresAt supplied).map fun ok => (s, .verified ok)
  | .verifyToken token =>
    (verifySignedLinkToken codec .runtime env s token).map fun p => (s, .payload p)
  | .resolveRef refId =>
    (resolveSignedLinkRef codec .runtime env s refId).map fun r => (r.1, .resolved r.2)
  | .revoke workerId =>
    (revokeSignedLinkRefsForWorker codec .runtime env s workerId).map fun r => (r.1, .revoked r.2)

/-- The worker of a payload. -/
def workerOf (codec : LinkCodec) (payload : Payload) : Points :=
  Points.strip (textOf codec payload "worker_id")

/-- The worker that a call has signed, verified or resolved something for. -/
def served (codec : LinkCodec) : LinkCall → LinkResult → Option Points
  | .signParams scope _ _, .params (some _) => some (Points.strip scope.workerId)
  | .signToken scope _, .token (_ :: _) => some (Points.strip scope.workerId)
  | .createRef _ _, .ref (some (_, payload)) => some (workerOf codec payload)
  | .verifyLink scope _ _, .verified true => some (Points.strip scope.workerId)
  | .verifyToken _, .payload (some payload) => some (workerOf codec payload)
  | .resolveRef _, .resolved (.ok (some r)) => some (workerOf codec r.payload)
  | _, _ => none

/-- The worker that a call has revoked. -/
def LinkCall.revokes : LinkCall → Option Points
  | .revoke workerId =>
    if (Points.strip workerId).isEmpty then none else some (Points.strip workerId)
  | _ => none

/-- The store, and the calls that have returned with their results, the last one first. -/
structure LinkSystem where
  store : LinkStore
  log : List (LinkCall × LinkResult) := []

/-- A call that raises leaves the store as it is. -/
def step (codec : LinkCodec) (s : LinkSystem) (c : LinkEnv × LinkCall) : LinkSystem :=
  match perform codec c.1 s.store c.2 with
  | .error _ => s
  | .ok (store, result) => { store, log := (c.2, result) :: s.log }

/-! ## What calls leave -/

/-- What a call that revokes nobody may do to the store. -/
inductive Moves (codec : LinkCodec) (env : LinkEnv) (s : LinkStore) : LinkStore → Prop
  | same : Moves codec env s s
  | opened {opened : LinkStore} (h : linkRefConn codec .runtime env s = .ok opened) :
      Moves codec env s (dropExpired env.now opened)
  | inserted {opened : LinkStore} {payload : Payload} {token targetUrl : Points}
      {refs : Table Points LinkRef} (h : linkRefConn codec .runtime env s = .ok opened)
      (hrefs : (dropExpired env.now opened).refs.insert? (Points.ofString "ghr_" ++ env.uuid)
        (newRef codec env payload token targetUrl) = some refs)
      (hverified : verifySignedLinkToken codec .runtime env s token = .ok (some payload)) :
      Moves codec env s { dropExpired env.now opened with refs }

/-- How a reference comes to be returned. -/
inductive Creates (codec : LinkCodec) (env : LinkEnv) (s : LinkStore) (payload : Payload)
    (token targetUrl : Points) : LinkStore → Points → Prop
  | reused {opened : LinkStore} {refId : Points} (h : linkRefConn codec .runtime env s = .ok opened)
      (hreused : reusedRef codec .runtime env (dropExpired env.now opened) payload targetUrl =
        .ok (some refId)) :
      Creates codec env s payload token targetUrl (dropExpired env.now opened) refId
  | inserted {opened : LinkStore} {refs : Table Points LinkRef}
      (h : linkRefConn codec .runtime env s = .ok opened)
      (hrefs : (dropExpired env.now opened).refs.insert? (Points.ofString "ghr_" ++ env.uuid)
        (newRef codec env payload token targetUrl) = some refs) :
      Creates codec env s payload token targetUrl { dropExpired env.now opened with refs }
        (Points.ofString "ghr_" ++ env.uuid)

section Moves

variable {codec : LinkCodec} {env : LinkEnv} {s s' : LinkStore} {side : Side}
  {token targetUrl refId workerId : Points} {r : Option (Points × Payload)}

theorem linkRefConn_revocations (h : linkRefConn codec side env s = .ok s') :
    s'.revocations = s.revocations := by
  unfold linkRefConn at h
  split at h
  · simp at h
  · obtain rfl := Except.ok.inj h
    rfl

/-- What a creation that returns does. -/
theorem create_cases (h : createSignedLinkRef codec .runtime env s token targetUrl = .ok (s', r)) :
    (r = none ∧ s' = s) ∨ ∃ refId payload, r = some (refId, payload) ∧
      verifySignedLinkToken codec .runtime env s token = .ok (some payload) ∧
      Creates codec env s payload token targetUrl s' refId := by
  unfold createSignedLinkRef at h
  obtain ⟨verified, hverified, h⟩ := Fallible.bind_eq_ok.mp h
  cases verified with
  | none =>
    obtain ⟨rfl, rfl⟩ := Prod.mk.inj (Except.ok.inj h)
    exact .inl ⟨rfl, rfl⟩
  | some payload =>
    right
    obtain ⟨opened, hopened, h⟩ := Fallible.bind_eq_ok.mp h
    obtain ⟨reused, hreused, h⟩ := Fallible.bind_eq_ok.mp h
    cases reused with
    | some refId =>
      obtain ⟨rfl, rfl⟩ := Prod.mk.inj (Except.ok.inj h)
      exact ⟨refId, payload, rfl, hverified, .reused hopened hreused⟩
    | none =>
      dsimp only at h
      split at h
      · cases h
      · split at h
        · cases h
        · rename_i refs hrefs
          obtain ⟨rfl, rfl⟩ := Prod.mk.inj (Except.ok.inj h)
          exact ⟨_, payload, rfl, hverified, .inserted hopened hrefs⟩

theorem Creates.moves {payload : Payload} (h : Creates codec env s payload token targetUrl s' refId)
    (hverified : verifySignedLinkToken codec .runtime env s token = .ok (some payload)) :
    Moves codec env s s' := by
  cases h with
  | reused h => exact .opened h
  | inserted h hrefs => exact .inserted h hrefs hverified

theorem moves_of_create (h : createSignedLinkRef codec .runtime env s token targetUrl = .ok (s', r)) :
    Moves codec env s s' := by
  rcases create_cases h with ⟨-, rfl⟩ | ⟨refId, payload, -, hverified, hcreates⟩
  · exact .same
  · exact hcreates.moves hverified

theorem moves_of_resolve {r : Except String (Option LinkResolution)}
    (h : resolveSignedLinkRef codec .runtime env s refId = .ok (s', r)) : Moves codec env s s' := by
  unfold resolveSignedLinkRef at h
  dsimp only at h
  split at h
  · obtain ⟨rfl, -⟩ := Prod.mk.inj (Except.ok.inj h)
    exact .same
  · obtain ⟨opened, hopened, h⟩ := Fallible.map_eq_ok.mp h
    split at h <;>
    · obtain ⟨rfl, -⟩ := Prod.mk.inj h
      exact .opened hopened

/-- What a revocation that returns does. -/
theorem revoke_eq_ok {count : ℕ}
    (h : revokeSignedLinkRefsForWorker codec side env s workerId = .ok (s', count))
    (hw : Points.strip workerId ≠ []) :
    ∃ opened, linkRefConn codec side env s = .ok opened ∧
      (Points.utf8 (Points.strip workerId)).isSome = true ∧
      ((revocationPattern (Points.strip workerId)).length ≤ maxLikePatternLength ∨
        opened.refs.entries = []) ∧
      s'.refs = opened.refs.delete
        (fun _ row => Like.like (revocationPattern (Points.strip workerId)) row.scopeKey) ∧
      s'.revocations = (s.revocations.insert? (Points.strip workerId) env.now).getD
        s.revocations := by
  unfold revokeSignedLinkRefsForWorker at h
  dsimp only at h
  rw [if_neg (by simpa using hw)] at h
  obtain ⟨opened, hopened, h⟩ := Fallible.bind_eq_ok.mp h
  have hrevocations := linkRefConn_revocations hopened
  split at h
  · simp at h
  · rename_i hutf8
    split at h
    · simp at h
    · rename_i hlength
      obtain ⟨rfl, -⟩ := Prod.mk.inj (Except.ok.inj h)
      have hsome : (Points.utf8 (Points.strip workerId)).isSome = true := by
        rw [Option.isSome_iff_ne_none]
        simpa using hutf8
      refine ⟨opened, hopened, hsome, ?_, rfl, by rw [hrevocations]⟩
      by_cases hempty : opened.refs.entries = []
      · exact Or.inr hempty
      · exact Or.inl (not_lt.mp fun hlong => hlength ⟨hlong, hempty⟩)

theorem revoke_blank (hw : Points.strip workerId = []) :
    revokeSignedLinkRefsForWorker codec side env s workerId = .ok (s, 0) := by
  unfold revokeSignedLinkRefsForWorker
  rw [hw]
  rfl

/-- A call that returns moves the store, or revokes a worker. -/
theorem perform_cases {call : LinkCall} {result : LinkResult}
    (h : perform codec env s call = .ok (s', result)) :
    (call.revokes = none ∧ Moves codec env s s') ∨
      ∃ w opened, call.revokes = some w ∧ linkRefConn codec .runtime env s = .ok opened ∧
        s'.refs = opened.refs.delete
          (fun _ row => Like.like (revocationPattern w) row.scopeKey) ∧
        s'.revocations = (s.revocations.insert? w env.now).getD s.revocations := by
  cases call with
  | createRef =>
    obtain ⟨r, hr, heq⟩ := Fallible.map_eq_ok.mp h
    obtain ⟨rfl, -⟩ := Prod.mk.inj heq
    exact .inl ⟨rfl, moves_of_create hr⟩
  | resolveRef =>
    obtain ⟨r, hr, heq⟩ := Fallible.map_eq_ok.mp h
    obtain ⟨rfl, -⟩ := Prod.mk.inj heq
    exact .inl ⟨rfl, moves_of_resolve hr⟩
  | revoke workerId =>
    obtain ⟨r, hr, heq⟩ := Fallible.map_eq_ok.mp h
    obtain ⟨rfl, -⟩ := Prod.mk.inj heq
    by_cases hblank : Points.strip workerId = []
    · rw [revoke_blank hblank] at hr
      obtain rfl := Except.ok.inj hr
      exact .inl ⟨if_pos (by simpa using hblank), .same⟩
    · obtain ⟨opened, hopened, -, -, hrefs, hrevocations⟩ := revoke_eq_ok hr hblank
      exact .inr ⟨_, opened, if_neg (by simpa using hblank), hopened, hrefs, hrevocations⟩
  | signParams | signToken | verifyLink | verifyToken =>
    obtain ⟨_, -, heq⟩ := Fallible.map_eq_ok.mp h
    exact .inl ⟨rfl, (Prod.mk.inj heq).1 ▸ .same⟩

theorem Moves.revocations (h : Moves codec env s s') : s'.revocations = s.revocations := by
  cases h with
  | same => rfl
  | opened h | inserted h =>
    have hrevocations := linkRefConn_revocations h
    exact hrevocations

theorem step_cases (s : LinkSystem) (c : LinkEnv × LinkCall) :
    Moves codec c.1 s.store (step codec s c).store ∨
      ∃ w opened, c.2.revokes = some w ∧ linkRefConn codec .runtime c.1 s.store = .ok opened ∧
        (step codec s c).store.refs = opened.refs.delete
          fun _ row => Like.like (revocationPattern w) row.scopeKey := by
  unfold step
  split
  · exact .inl .same
  · rename_i hperform
    rcases perform_cases hperform with ⟨-, hmoves⟩ | ⟨w, opened, hw, hopened, hrefs, -⟩
    · exact .inl hmoves
    · exact .inr ⟨w, opened, hw, hopened, hrefs⟩

end Moves

/-! ## Permanence -/

/-- Nothing was signed, verified or resolved for a worker after it was revoked. -/
def Permanent (codec : LinkCodec) (log : List (LinkCall × LinkResult)) : Prop :=
  log.Pairwise fun later earlier => ∀ w, earlier.1.revokes = some w →
    served codec later.1 later.2 ≠ some w

/-- What a call does to the revocations, and whom it serves. -/
structure KeepsRevocations (codec : LinkCodec) (s : LinkStore) (call : LinkCall) (s' : LinkStore)
    (result : LinkResult) : Prop where
  kept : ∀ w, (s.revocations.get? w).isSome = true → (s'.revocations.get? w).isSome = true
  refused : ∀ w, w ≠ [] → (s.revocations.get? w).isSome = true →
    served codec call result ≠ some w
  revoked : ∀ w, call.revokes = some w → (s'.revocations.get? w).isSome = true

section Permanence

variable {codec : LinkCodec} {env : LinkEnv} {s s' : LinkStore} {w workerId refId : Points}
  {scope : LinkScope} {call : LinkCall} {ttlSeconds : Option ℤ} {side : Side} {result : LinkResult}

/-- Nobody who is not blocked is revoked. -/
theorem get?_of_blocked (h : blocked env s workerId = .ok false) (hw : Points.strip workerId ≠ []) :
    s.revocations.get? (Points.strip workerId) = none := by
  unfold blocked at h
  dsimp only at h
  rw [if_neg (by simpa using hw)] at h
  split at h
  · simp at h
  · have hneither := Except.ok.inj h
    rw [Bool.or_eq_false_iff] at hneither
    simpa using hneither.2

theorem ne_of_blocked (h : blocked env s workerId = .ok false) (hw : w ≠ [])
    (hrevoked : (s.revocations.get? w).isSome = true) : Points.strip workerId ≠ w := by
  rintro rfl
  rw [get?_of_blocked h hw] at hrevoked
  simp at hrevoked

theorem blocked_of_signLinkParams {expiresAt : Option ℤ} {p : LinkParams}
    (h : signLinkParams codec env s scope ttlSeconds expiresAt = .ok (some p)) :
    blocked env s scope.workerId = .ok false := by
  unfold signLinkParams at h
  split at h
  · simp [pure, Except.pure] at h
  · exact (Fallible.guard_eq_ok h (by simp [pure, Except.pure])).1

theorem blocked_of_signLinkToken {c : ℕ} {t : Points}
    (h : signLinkToken codec side env s scope ttlSeconds = .ok (c :: t)) :
    blocked env s scope.workerId = .ok false := by
  unfold signLinkToken at h
  split at h
  · simp [pure, Except.pure] at h
  · exact (Fallible.guard_eq_ok h (by simp [pure, Except.pure])).1

theorem blocked_of_verifySignedLink {expiresAt supplied : Points}
    (h : verifySignedLink codec env s scope expiresAt supplied = .ok true) :
    blocked env s scope.workerId = .ok false := by
  unfold verifySignedLink at h
  split at h
  · simp [pure, Except.pure] at h
  · exact (Fallible.guard_eq_ok h (by simp [pure, Except.pure])).1

theorem blocked_of_verifySignedLinkToken {token : Points} {payload : Payload}
    (h : verifySignedLinkToken codec side env s token = .ok (some payload)) :
    decodeSignedLinkToken codec side env token false = .ok (some payload) ∧
      blocked env s (textOf codec payload "worker_id") = .ok false := by
  unfold verifySignedLinkToken at h
  obtain ⟨decoded, hdecoded, h⟩ := Fallible.bind_eq_ok.mp h
  cases decoded with
  | none => simp [pure, Except.pure] at h
  | some p =>
    obtain ⟨hb, h⟩ := Fallible.guard_eq_ok h (by simp [pure, Except.pure])
    obtain rfl : p = payload := by simpa [pure, Except.pure] using h
    exact ⟨hdecoded, hb⟩

theorem resolvedRow_eq_ok {row : LinkRef} {r : LinkResolution}
    (h : resolvedRow codec .runtime env s refId row = .ok (some r)) :
    blocked env s (textOf codec r.payload "worker_id") = .ok false := by
  unfold resolvedRow at h
  obtain ⟨decoded, -, h⟩ := Fallible.bind_eq_ok.mp h
  cases decoded with
  | none => simp [pure, Except.pure] at h
  | some verified =>
    obtain ⟨payload, hpayload, h⟩ := Fallible.bind_eq_ok.mp h
    obtain rfl : verified = payload := Except.ok.inj hpayload
    obtain ⟨hb, h⟩ := Fallible.guard_eq_ok h (by simp [pure, Except.pure])
    obtain rfl := Option.some.inj (Except.ok.inj h)
    exact hb

theorem blocked_congr (h : s'.revocations = s.revocations) (workerId : Points) :
    blocked env s' workerId = blocked env s workerId := by
  rw [blocked, blocked, h]

theorem blocked_of_resolve {resolution : LinkResolution}
    (h : resolveSignedLinkRef codec .runtime env s refId = .ok (s', .ok (some resolution))) :
    blocked env s (textOf codec resolution.payload "worker_id") = .ok false := by
  unfold resolveSignedLinkRef at h
  dsimp only at h
  split at h
  · cases h
  · obtain ⟨opened, hopened, h⟩ := Fallible.map_eq_ok.mp h
    have hrevocations := linkRefConn_revocations hopened
    have hsame : (dropExpired env.now opened).revocations = s.revocations := hrevocations
    split at h
    · cases h
    · rw [← blocked_congr hsame]
      exact resolvedRow_eq_ok (Prod.mk.inj h).2

/-- A call serves nobody who is blocked. -/
theorem blocked_of_served (h : perform codec env s call = .ok (s', result))
    (hw : served codec call result = some w) :
    ∃ workerId, Points.strip workerId = w ∧ blocked env s workerId = .ok false := by
  cases call with
  | signParams =>
    obtain ⟨p, hp, heq⟩ := Fallible.map_eq_ok.mp h
    obtain ⟨-, rfl⟩ := Prod.mk.inj heq
    cases p with
    | none => cases hw
    | some => exact ⟨_, Option.some.inj hw, blocked_of_signLinkParams hp⟩
  | signToken =>
    obtain ⟨t, ht, heq⟩ := Fallible.map_eq_ok.mp h
    obtain ⟨-, rfl⟩ := Prod.mk.inj heq
    cases t with
    | nil => cases hw
    | cons => exact ⟨_, Option.some.inj hw, blocked_of_signLinkToken ht⟩
  | createRef =>
    obtain ⟨⟨store, ref⟩, hr, heq⟩ := Fallible.map_eq_ok.mp h
    obtain ⟨-, rfl⟩ := Prod.mk.inj heq
    rcases create_cases hr with ⟨rfl, -⟩ | ⟨refId, payload, rfl, hverified, -⟩
    · cases hw
    · exact ⟨_, Option.some.inj hw, (blocked_of_verifySignedLinkToken hverified).2⟩
  | verifyLink =>
    obtain ⟨ok, hok, heq⟩ := Fallible.map_eq_ok.mp h
    obtain ⟨-, rfl⟩ := Prod.mk.inj heq
    cases ok with
    | false => cases hw
    | true => exact ⟨_, Option.some.inj hw, blocked_of_verifySignedLink hok⟩
  | verifyToken =>
    obtain ⟨p, hp, heq⟩ := Fallible.map_eq_ok.mp h
    obtain ⟨-, rfl⟩ := Prod.mk.inj heq
    cases p with
    | none => cases hw
    | some => exact ⟨_, Option.some.inj hw, (blocked_of_verifySignedLinkToken hp).2⟩
  | resolveRef =>
    obtain ⟨⟨store, resolution⟩, hr, heq⟩ := Fallible.map_eq_ok.mp h
    obtain ⟨-, rfl⟩ := Prod.mk.inj heq
    rcases resolution with name | _ | answer
    · cases hw
    · cases hw
    · exact ⟨_, Option.some.inj hw, blocked_of_resolve hr⟩
  | revoke =>
    obtain ⟨r, -, heq⟩ := Fallible.map_eq_ok.mp h
    obtain ⟨-, rfl⟩ := Prod.mk.inj heq
    cases hw

/-- No call forgets a revocation, and none serves a worker that is revoked. -/
theorem perform_keepsRevocations (h : perform codec env s call = .ok (s', result)) :
    KeepsRevocations codec s call s' result where
  kept w hw := by
    rcases perform_cases h with ⟨-, hmoves⟩ | ⟨_, _, -, -, -, hrevocations⟩
    · rwa [hmoves.revocations]
    · rw [hrevocations]
      exact Table.isSome_get?_insert_getD hw
  refused w hw hrevoked hserves := by
    obtain ⟨workerId, hworker, hblocked⟩ := blocked_of_served h hserves
    exact ne_of_blocked hblocked hw hrevoked hworker
  revoked w hw := by
    rcases perform_cases h with ⟨hnone, -⟩ | ⟨w', _, hw', -, -, hrevocations⟩
    · rw [hnone] at hw
      cases hw
    · obtain rfl := Option.some.inj (hw'.symm.trans hw)
      rw [hrevocations]
      exact Table.isSome_get?_insert_getD_self s.revocations w' env.now

/-- The log is permanent so far, and every worker that it revokes is revoked in the store. -/
def Keeps (codec : LinkCodec) (s : LinkSystem) : Prop :=
  Permanent codec s.log ∧ ∀ e ∈ s.log, ∀ w, e.1.revokes = some w →
    (s.store.revocations.get? w).isSome = true

theorem ne_nil_of_revokes (h : call.revokes = some w) : w ≠ [] := by
  unfold LinkCall.revokes at h
  split at h
  · split at h
    · simp at h
    · rename_i hne
      obtain rfl := Option.some.inj h
      simpa using hne
  · simp at h

theorem keeps_step (s : LinkSystem) (c : LinkEnv × LinkCall) (hs : Keeps codec s) :
    Keeps codec (step codec s c) := by
  unfold step
  split
  · exact hs
  · rename_i store result hperform
    obtain ⟨hlog, hstore⟩ := hs
    have hkeeps := perform_keepsRevocations hperform
    refine ⟨List.pairwise_cons.mpr ⟨fun e he w hw => ?_, hlog⟩, fun e he w hw => ?_⟩
    · exact hkeeps.refused w (ne_nil_of_revokes hw) (hstore e he w hw)
    · rcases List.mem_cons.mp he with rfl | hold
      · exact hkeeps.revoked w hw
      · exact hkeeps.kept w (hstore e hold w hw)

/-- After a worker was revoked, nothing is signed, verified or resolved for it. -/
theorem permanent_run (codec : LinkCodec) (store : LinkStore) (calls : List (LinkEnv × LinkCall)) :
    Permanent codec (run (step codec) { store } calls).log := by
  have hinit : Keeps codec { store } := ⟨List.Pairwise.nil, fun e he => by simp at he⟩
  have hrun : Keeps codec (run (step codec) { store } calls) :=
    invariant_run (C := fun _ _ => True) (fun s c hs _ => keeps_step s c hs) hinit
      (along_of_forall _ (fun _ _ => trivial) _ _)
  exact hrun.1

end Permanence

/-! ## Whose references there are -/

/-- The payload of a token, whoever signed it. -/
def tokenPayload (codec : LinkCodec) (token : Points) : Option Payload :=
  match tokenParts token with
  | none => none
  | some (encoded, _) =>
    match codec.decodePayload encoded with
    | .ok (some (.obj payload)) => some payload
    | _ => none

/-- The scope of a row is missing, or the one of its token. -/
def LinkRef.WellFormed (codec : LinkCodec) (row : LinkRef) : Prop :=
  row.scopeKey = [] ∨ ∃ payload, tokenPayload codec row.token = some payload ∧
    row.scopeKey = SignedLinks.scopeKey codec payload row.targetUrl

/-- Every row is as the module writes it, or as it was before there were scopes. -/
def LinkStore.WellFormed (codec : LinkCodec) (s : LinkStore) : Prop :=
  ∀ refId row, s.refs.get? refId = some row → row.WellFormed codec

/-- A row of another worker, whose text in JSON the one of the revoked worker matches as a
pattern. -/
def LinkRef.Alike (codec : LinkCodec) (workerId : Points) (row : LinkRef) : Prop :=
  row.scopeKey ≠ [] ∧ ∃ payload, tokenPayload codec row.token = some payload ∧
    workerOf codec payload ≠ workerId ∧
    Like.like (AsciiJson.body workerId ++ [34, 37])
      (AsciiJson.body (textOf codec payload "worker_id") ++ [34, 125]) = true

/-- The worker that a row belongs to. -/
def LinkRef.worker (codec : LinkCodec) (row : LinkRef) : Option Points :=
  (tokenPayload codec row.token).map (workerOf codec)

/-- A revocation deletes no reference of another worker and blocks none. -/
def Exact (codec : LinkCodec) (s : LinkSystem) (c : LinkEnv × LinkCall) : Prop :=
  ∀ w, c.2.revokes = some w →
    (∀ refId row, s.store.refs.get? refId = some row → row.worker codec ≠ some w →
      ((step codec s c).store.refs.get? refId).isSome = true) ∧
    ∀ env workerId, Points.strip workerId ≠ w →
      blocked env (step codec s c).store workerId = blocked env s.store workerId

/-- Once legacy rows have got their scopes, no row of another worker is matched by the text of the
one that is revoked. -/
def Apart (codec : LinkCodec) (s : LinkSystem) (c : LinkEnv × LinkCall) : Prop :=
  ∀ w, c.2.revokes = some w → (Points.utf8 w).isSome = true →
    (revocationPattern w).length ≤ maxLikePatternLength →
    ∀ opened, linkRefConn codec .runtime c.1 s.store = .ok opened →
      ∀ refId row, opened.refs.get? refId = some row → ¬row.Alike codec w

section Scopes

variable {codec : LinkCodec} {env : LinkEnv} {side : Side} {token : Points} {row : LinkRef}

theorem tokenPayload_of_signed {signed : Payload × ℤ}
    (h : signedPayload codec env token = .ok (some signed)) :
    tokenPayload codec token = some signed.1 := by
  unfold signedPayload at h
  unfold tokenPayload
  split at h
  · simp at h
  · split at h
    · simp at h
    · rename_i encoded supplied hparts
      split at h
      · simp at h
      · obtain ⟨expected, -, h⟩ := Fallible.bind_eq_ok.mp h
        obtain ⟨same, -, h⟩ := Fallible.bind_eq_ok.mp h
        split at h
        · simp [pure, Except.pure] at h
        · obtain ⟨decoded, hdecoded, h⟩ := Fallible.bind_eq_ok.mp h
          split at h
          · rename_i payload
            split at h
            · simp [pure, Except.pure] at h
            · obtain ⟨expiresAt, -, h⟩ := Fallible.bind_eq_ok.mp h
              obtain ⟨n, -, rfl⟩ := Option.map_eq_some_iff.mp (Except.ok.inj h)
              simp only [hparts, hdecoded]
          · simp [pure, Except.pure] at h

theorem tokenPayload_of_decode {allowExpired : Bool} {payload : Payload}
    (h : decodeSignedLinkToken codec side env token allowExpired = .ok (some payload)) :
    tokenPayload codec token = some payload := by
  unfold decodeSignedLinkToken at h
  obtain ⟨signed, hsigned, h⟩ := Fallible.bind_eq_ok.mp h
  cases signed with
  | none => simp [pure, Except.pure] at h
  | some signed =>
    have hpayload : signed.1 = payload := by
      dsimp only at h
      split at h
      · simp [pure, Except.pure] at h
      · simpa [pure, Except.pure] using h
    rw [← hpayload]
    exact tokenPayload_of_signed hsigned

/-- The name of the field is matched nowhere inside a string. -/
theorem clear_workerId : AsciiJson.Clear (Points.ofString "worker_id") := by
  have hid : AsciiJson.Clear (Points.ofString "id") :=
    (AsciiJson.clear_nil.cons (by decide) (by decide) (by decide)).cons (by decide) (by decide)
      (by decide)
  have hrid : AsciiJson.Clear (Points.ofString "r_id") :=
    (hid.underscore (by decide) (by decide)).cons (by decide) (by decide) (by decide)
  have hkerid : AsciiJson.Clear (Points.ofString "ker_id") :=
    (hrid.cons (by decide) (by decide) (by decide)).cons (by decide) (by decide) (by decide)
  exact ((hkerid.cons (by decide) (by decide) (by decide)).cons (by decide) (by decide)
    (by decide)).cons (by decide) (by decide) (by decide)

/-- No other field has a name that starts like it. -/
theorem differs_workerId {kind owner path target tenant : Points} :
    ∀ f ∈ [(Points.ofString "kind", kind), (Points.ofString "owner_id", owner),
      (Points.ofString "path", path), (Points.ofString "target_url", target),
      (Points.ofString "tenant_id", tenant)], AsciiJson.Differs 119 f.1 := by
  intro f hf
  simp only [List.mem_cons, List.not_mem_nil, or_false] at hf
  rcases hf with rfl | rfl | rfl | rfl | rfl <;>
    exact AsciiJson.differs_of_head (by rfl) (by rfl)

/-- The pattern of a worker matches the scope of a payload if and only if it matches at the worker
of the scope. -/
theorem like_scopeKey (workerId : Points) (payload : Payload) (targetUrl : Points) :
    Like.like (revocationPattern workerId) (scopeKey codec payload targetUrl) =
      Like.like (AsciiJson.body workerId ++ [34, 37])
        (AsciiJson.body (textOf codec payload "worker_id") ++ [34, 125]) :=
  AsciiJson.like_dumps clear_workerId (by decide) (by decide) (by decide) differs_workerId _ _

theorem like_nil_scope (workerId : Points) :
    Like.like (revocationPattern workerId) [] = false := by
  simp [revocationPattern, Like.like, AsciiJson.fieldPattern]

/-- The scope of a well-formed row is matched if and only if it has one and the worker of its token
is. -/
theorem like_wellFormed (h : row.WellFormed codec) {w : Points}
    (hworker : row.worker codec ≠ some w) :
    Like.like (revocationPattern w) row.scopeKey = true ↔ row.Alike codec w := by
  rcases h with hnone | ⟨payload, hpayload, hscope⟩
  · rw [hnone, like_nil_scope]
    simp [LinkRef.Alike, hnone]
  · have hne : row.scopeKey ≠ [] := by
      rw [hscope]
      simp [scopeKey, AsciiJson.dumps]
    have hother : workerOf codec payload ≠ w := by
      intro hw
      rw [LinkRef.worker, hpayload, Option.map_some, hw] at hworker
      exact hworker rfl
    rw [hscope, like_scopeKey]
    constructor
    · intro hlike
      exact ⟨hne, payload, hpayload, hother, hlike⟩
    · rintro ⟨-, payload', hpayload', -, hlike⟩
      rw [hpayload] at hpayload'
      obtain rfl := Option.some.inj hpayload'
      exact hlike

/-! ## Rows stay well-formed -/

theorem token_migratedRow (row : LinkRef) : (migratedRow codec side env row).token = row.token := by
  unfold migratedRow
  split <;> rfl

theorem targetUrl_migratedRow (row : LinkRef) :
    (migratedRow codec side env row).targetUrl = row.targetUrl := by
  unfold migratedRow
  split <;> rfl

theorem wellFormed_migratedRow (h : row.WellFormed codec) :
    (migratedRow codec side env row).WellFormed codec := by
  unfold migratedRow
  split
  · rename_i payload hdecode
    have hpayload := tokenPayload_of_decode hdecode
    rcases h with hnone | ⟨payload', hpayload', hscope⟩
    · exact Or.inr ⟨payload, hpayload, by simp [hnone]⟩
    · have hne : row.scopeKey ≠ [] := by
        rw [hscope]
        simp [scopeKey, AsciiJson.dumps]
      have hempty : row.scopeKey.isEmpty = false := by simpa using hne
      refine Or.inr ⟨payload', hpayload', ?_⟩
      simp only [hempty, Bool.false_eq_true, if_false]
      exact hscope
  · exact h

end Scopes

section WellFormed

variable {codec : LinkCodec} {env : LinkEnv} {side : Side} {s s' : LinkStore} {workerId : Points}

/-- A row of an opened store is the one that was there, or what it has become. -/
theorem linkRefConn_refs (h : linkRefConn codec side env s = .ok s') (refId : Points) :
    s'.refs.get? refId = (s.refs.get? refId).map fun row =>
      if row.isLegacy then migratedRow codec side env row else row := by
  unfold linkRefConn at h
  split at h
  · simp at h
  · obtain rfl := Except.ok.inj h
    exact Table.get?_update s.refs _ _ refId

theorem LinkStore.WellFormed.opens (hs : s.WellFormed codec)
    (h : linkRefConn codec side env s = .ok s') : s'.WellFormed codec := by
  intro refId row hrow
  rw [linkRefConn_refs h] at hrow
  obtain ⟨old, hold, rfl⟩ := Option.map_eq_some_iff.mp hrow
  split
  · exact wellFormed_migratedRow (hs refId old hold)
  · exact hs refId old hold

theorem LinkStore.WellFormed.moves (hs : s.WellFormed codec) (h : Moves codec env s s') :
    s'.WellFormed codec := by
  have hlive : ∀ {opened : LinkStore}, linkRefConn codec .runtime env s = .ok opened →
      (dropExpired env.now opened).WellFormed codec := fun hopened refId row hrow =>
    hs.opens hopened refId row (Table.get?_delete_eq_some.mp hrow).1
  cases h with
  | same => exact hs
  | opened hopened => exact hlive hopened
  | inserted hopened hrefs hverified =>
    intro refId row hrow
    rw [Table.get?_insert hrefs] at hrow
    split at hrow
    · obtain rfl := Option.some.inj hrow
      exact .inr ⟨_, tokenPayload_of_decode (blocked_of_verifySignedLinkToken hverified).1, rfl⟩
    · exact hlive hopened refId row hrow

theorem wellFormed_step {s : LinkSystem} (c : LinkEnv × LinkCall) (hs : s.store.WellFormed codec) :
    (step codec s c).store.WellFormed codec := by
  rcases step_cases s c with hmoves | ⟨w, opened, -, hopened, hrefs⟩
  · exact hs.moves hmoves
  · intro refId row hrow
    rw [hrefs, Table.get?_delete_eq_some] at hrow
    exact hs.opens hopened refId row hrow.1

/-! ## Exactness -/

theorem strip_of_revokes {w : Points} (h : (LinkCall.revoke workerId).revokes = some w) :
    Points.strip workerId = w ∧ w ≠ [] := by
  refine ⟨?_, ne_nil_of_revokes h⟩
  unfold LinkCall.revokes at h
  dsimp only at h
  split at h
  · simp at h
  · exact Option.some.inj h

/-- A revocation raises unless its arguments are in order and the store can be opened. -/
theorem revoke_of_opened {opened : LinkStore}
    (hutf8 : (Points.utf8 (Points.strip workerId)).isSome = true)
    (hlength : (revocationPattern (Points.strip workerId)).length ≤ maxLikePatternLength)
    (hopened : linkRefConn codec side env s = .ok opened) :
    ∃ r, revokeSignedLinkRefsForWorker codec side env s workerId = .ok r := by
  unfold revokeSignedLinkRefsForWorker
  dsimp only
  split
  · exact ⟨_, rfl⟩
  · have hnone : (Points.utf8 (Points.strip workerId)).isNone = false := by
      simpa using hutf8
    rw [hopened]
    simp only [bind, Except.bind, hnone, Bool.false_eq_true, if_false]
    rw [if_neg fun h => absurd h.1 (by omega)]
    exact ⟨_, rfl⟩

/-- A worker whose revocation was not asked for is blocked as before. -/
theorem blocked_of_insert {w : Points} (hw : Points.strip workerId ≠ w) {time : ℤ}
    (h : s'.revocations = (s.revocations.insert? w time).getD s.revocations) (env : LinkEnv) :
    blocked env s' workerId = blocked env s workerId := by
  have hget : s'.revocations.get? (Points.strip workerId) =
      s.revocations.get? (Points.strip workerId) := by
    rw [h, Table.get?_insert_getD]
    cases s.revocations.get? (Points.strip workerId) <;> simp [hw]
  rw [blocked, blocked, hget]

theorem worker_opened {row : LinkRef} :
    (if row.isLegacy then migratedRow codec side env row else row).worker codec =
      row.worker codec := by
  split
  · rw [LinkRef.worker, LinkRef.worker, token_migratedRow]
  · rfl

/-- A revocation is exact if and only if it finds no row of another worker that its text matches. -/
theorem exact_iff_apart {s : LinkSystem} (hs : s.store.WellFormed codec)
    (c : LinkEnv × LinkCall) : Exact codec s c ↔ Apart codec s c := by
  constructor
  · intro hexact w hw hutf8 hlength opened hopened refId row hrow halike
    obtain ⟨env, call⟩ := c
    cases call with
    | revoke workerId =>
      obtain ⟨rfl, hne⟩ := strip_of_revokes hw
      obtain ⟨r, hr⟩ := revoke_of_opened hutf8 hlength hopened
      obtain ⟨opened', hopened', -, -, hrefs, -⟩ := revoke_eq_ok hr hne
      obtain rfl := Except.ok.inj (hopened.symm.trans hopened')
      have hstep : (step codec s (env, .revoke workerId)).store = r.1 := by
        simp [step, perform, hr, Except.map]
      obtain ⟨old, hold, hmigrated⟩ := Option.map_eq_some_iff.mp
        ((linkRefConn_refs hopened refId).symm.trans hrow)
      have hworker : row.worker codec ≠ some (Points.strip workerId) := by
        obtain ⟨-, payload, hpayload, hother, -⟩ := halike
        rw [LinkRef.worker, hpayload]
        exact fun h => hother (Option.some.inj h)
      have hkept := (hexact _ hw).1 refId old hold (by rwa [← worker_opened, hmigrated])
      have hlike := (like_wellFormed ((hs.opens hopened) refId row hrow) hworker).mpr halike
      rw [hstep, hrefs] at hkept
      obtain ⟨kept, hkept⟩ := Option.isSome_iff_exists.mp hkept
      obtain ⟨hget, hmiss⟩ := Table.get?_delete_eq_some.mp hkept
      obtain rfl := Option.some.inj (hrow.symm.trans hget)
      rw [hlike] at hmiss
      simp at hmiss
    | _ => simp [LinkCall.revokes] at hw
  · intro hapart w hw
    obtain ⟨env, call⟩ := c
    cases call with
    | revoke workerId =>
      obtain ⟨rfl, hne⟩ := strip_of_revokes hw
      cases hr : revokeSignedLinkRefsForWorker codec .runtime env s.store workerId with
      | error =>
        have hstep : step codec s (env, .revoke workerId) = s := by
          simp [step, perform, hr, Except.map]
        rw [hstep]
        exact ⟨fun refId row hrow _ => by rw [hrow]; rfl, fun _ _ _ => rfl⟩
      | ok r =>
        have hstep : (step codec s (env, .revoke workerId)).store = r.1 := by
          simp [step, perform, hr, Except.map]
        obtain ⟨opened, hopened, hutf8, hlength, hrefs, hrevocations⟩ := revoke_eq_ok hr hne
        rw [hstep]
        refine ⟨fun refId old hold hworker => ?_, fun env' workerId' hother =>
          blocked_of_insert hother hrevocations env'⟩
        have hrow := linkRefConn_refs hopened refId
        rw [hold, Option.map_some] at hrow
        generalize hmigrated : (if old.isLegacy then migratedRow codec .runtime env old else old) =
          row at hrow
        have hsame : row.worker codec ≠ some (Points.strip workerId) := by
          rwa [← hmigrated, worker_opened]
        have hfits : (revocationPattern (Points.strip workerId)).length ≤
            maxLikePatternLength := by
          rcases hlength with hfits | hempty
          · exact hfits
          · rw [Table.get?, hempty] at hrow
            simp at hrow
        have hmiss : ¬Like.like (revocationPattern (Points.strip workerId)) row.scopeKey = true :=
          fun hlike => hapart _ hw hutf8 hfits opened hopened refId row hrow
            ((like_wellFormed ((hs.opens hopened) refId row hrow) hsame).mp hlike)
        have hkept : (opened.refs.delete fun _ row =>
            Like.like (revocationPattern (Points.strip workerId)) row.scopeKey).get? refId =
              some row :=
          Table.get?_delete_eq_some.mpr ⟨hrow, by simpa using hmiss⟩
        rw [hrefs, hkept]
        rfl
    | _ => simp [LinkCall.revokes] at hw

/-- In every run from a well-formed store, what was revoked stays revoked; and the revocations are
exact if and only if none of them finds a row of another worker that its text matches. -/
theorem revocations_exact_iff (codec : LinkCodec) {store : LinkStore}
    (hstore : store.WellFormed codec) (calls : List (LinkEnv × LinkCall)) :
    Permanent codec (run (step codec) { store } calls).log ∧
      (Along (step codec) (Exact codec) { store } calls ↔
        Along (step codec) (Apart codec) { store } calls) := by
  refine ⟨permanent_run codec store calls, ?_⟩
  exact along_congr_of_invariant (I := fun s => s.store.WellFormed codec)
    (fun s c hs => exact_iff_apart hs c) (fun s c hs _ => wellFormed_step c hs) hstore

end WellFormed

/-! ## A link of another worker -/

/-- The codec on one payload. -/
def sampleCodec (payload : Payload) (encoded signature : Points) : LinkCodec where
  toInterpreter := cpython
  hmac _ _ := signature
  encodePayload _ := encoded
  decodePayload t := .ok (if t = encoded then some (.obj payload) else none)
  payloadJson payload := Json.dumps (.obj payload)
  loads t := .ok (if t = Json.dumps (.obj payload) then some (.obj payload) else none)
  parseInt _ := none
  truncate _ := .error "ValueError"

def sampleEnv : LinkEnv where
  now := 1000
  secret := Points.ofString "k"
  signedLinkTtl := []
  linkRefTtl := []
  maxWatchSession := []
  terminated _ := false
  uuid := Points.ofString "6fa459eaee8a3ca4894edb77"

def sampleScope : LinkScope where
  kind := Points.ofString "worker_view"
  workerId := Points.ofString "axb"
  tenantId := []
  ownerId := []
  path := Points.ofString "/"

/-- The payload of a link of the worker `axb`, in the order of its text. -/
def samplePayload : Payload :=
  [(Points.ofString "exp", .int 1900), (Points.ofString "iat", .int 1000),
   (Points.ofString "kind", .str (Points.ofString "worker_view")),
   (Points.ofString "owner_id", .str []), (Points.ofString "path", .str (Points.ofString "/")),
   (Points.ofString "tenant_id", .str []), (Points.ofString "v", .int 1),
   (Points.ofString "worker_id", .str (Points.ofString "axb"))]

def sampleEncoded : Points :=
  Points.ofString ("eyJleHAiOjE5MDAsImlhdCI6MTAwMCwia2luZCI6Indvcmtlcl92aWV3Iiwib3duZXJf" ++
    "aWQiOiIiLCJwYXRoIjoiLyIsInRlbmFudF9pZCI6IiIsInYiOjEsIndvcmtlcl9pZCI6ImF4YiJ9")

def sampleSignature : Points :=
  Points.ofString "811ace6ec5417f6d7c1f42c775e3b7fd396bf70c6d1f1bf49e62762c559997f3"

def axbCodec : LinkCodec :=
  sampleCodec samplePayload sampleEncoded sampleSignature

def axbToken : Points :=
  sampleEncoded ++ 46 :: sampleSignature

/-- A reference to a link of the worker `axb` is created. -/
def withLink : LinkSystem :=
  step axbCodec { store := {} } (sampleEnv, .createRef axbToken [])

def sampleRef : Points :=
  Points.ofString "ghr_6fa459eaee8a3ca4894edb77"

theorem revocations_exact_iff_axb :
    LinkStore.WellFormed axbCodec {} ∧
      (Along (step axbCodec) (Exact axbCodec) { store := {} }
        [(sampleEnv, .createRef axbToken []), (sampleEnv, .revoke (Points.ofString "a_b"))] ↔
      Along (step axbCodec) (Apart axbCodec) { store := {} }
        [(sampleEnv, .createRef axbToken []), (sampleEnv, .revoke (Points.ofString "a_b"))]) := by
  have hempty : LinkStore.WellFormed axbCodec {} := fun refId row h => by
    simp [Table.get?, Table.empty] at h
  exact ⟨hempty, (revocations_exact_iff axbCodec hempty _).2⟩

/-- The reference of the worker `axb` is deleted when the worker `a_b` is revoked. -/
theorem revoke_underscore :
    ¬Along (step axbCodec) (Exact axbCodec) { store := {} }
      [(sampleEnv, .createRef axbToken []), (sampleEnv, .revoke (Points.ofString "a_b"))] := by
  have hstored : (withLink.store.refs.get? sampleRef).bind (·.worker axbCodec) =
      some (Points.ofString "axb") := by
    unfold withLink axbCodec axbToken sampleEncoded sampleSignature
    repeat rw [Points.ofString_append]
    repeat rw [Points.ofString_ofList]
    decide +kernel
  have hdeleted : ((step axbCodec withLink (sampleEnv, .revoke (Points.ofString "a_b"))).store.refs
      |>.get? sampleRef) = none := by
    unfold withLink axbCodec axbToken sampleEncoded sampleSignature
    repeat rw [Points.ofString_append]
    repeat rw [Points.ofString_ofList]
    decide +kernel
  have hrevokes : (LinkCall.revoke (Points.ofString "a_b")).revokes =
      some (Points.ofString "a_b") := by
    decide +kernel
  have hother : some (Points.ofString "axb") ≠ some (Points.ofString "a_b") := by
    decide +kernel
  intro h
  rw [along_cons, ← withLink, along_cons] at h
  obtain ⟨row, hrow, hworker⟩ := Option.bind_eq_some_iff.mp hstored
  have hkept := (h.2.1 _ hrevokes).1 sampleRef row hrow (hworker ▸ hother)
  rw [hdeleted] at hkept
  simp at hkept

end GlassHive.SignedLinks
