import GlassHive.Library.Fallible
import GlassHive.Library.Joined
import GlassHive.Library.Table
import GlassHive.Library.Text
import GlassHive.Library.Transition

/-!
# Revocations of capability grants

The row of a binding is found under a digest of its values, joined in the order of their names but
without them, and the table holds one row for a grant and a container generation. Two bindings whose
values join alike share one row, and of two with the same grant and generation, as are all host
bindings of a grant, the second one gets none.
-/

namespace GlassHive.GrantRevocations

open Relational

/-! ## Bindings -/

inductive BindingKey
  | authorizationRef
  | containerGenerationId
  | grantId
  | hostStartupLeaseId
  | originRef
  | runId
  | workRef
  | workerId
  | other (name : Text)
  deriving DecidableEq

def BindingKey.name : BindingKey → Text
  | .authorizationRef => "authorizationRef".toList
  | .containerGenerationId => "containerGenerationId".toList
  | .grantId => "grantId".toList
  | .hostStartupLeaseId => "hostStartupLeaseId".toList
  | .originRef => "originRef".toList
  | .runId => "runId".toList
  | .workRef => "workRef".toList
  | .workerId => "workerId".toList
  | .other name => name

/-- A binding as the caller passes it. -/
abbrev RawBinding := Table BindingKey Text

/-- The keys of a container binding, in the order of their names. -/
def expected : List BindingKey :=
  [.authorizationRef, .containerGenerationId, .grantId, .originRef, .runId, .workRef, .workerId]

/-- The keys of a host binding, in the order of their names. -/
def hostExpected : List BindingKey :=
  [.authorizationRef, .grantId, .hostStartupLeaseId, .originRef, .runId, .workRef, .workerId]

/-- The keys that the binding has to have: those of a container binding or those of a host binding,
and no others. -/
def bindingKeys (binding : RawBinding) : Option (List BindingKey) :=
  let keys := binding.entries.map Prod.fst
  if keys ⊆ expected ∧ expected ⊆ keys then some expected
  else if keys ⊆ hostExpected ∧ hostExpected ⊆ keys then some hostExpected
  else none

/-- The value under a key, without white space at its ends. -/
def normalized (binding : RawBinding) (key : BindingKey) : Text :=
  Text.strip ((binding.get? key).getD [])

/-! ## Rows -/

inductive RevocationStatus
  | armed
  | pending
  | applied
  | failed
  deriving DecidableEq

/-- What a row says of its binding. -/
structure Grant where
  authorizationRef : Text
  originRef : Text
  workRef : Text
  workerId : Text
  runId : Text
  grantId : Text
  containerGenerationId : Text
  hostStartupLeaseId : Text
  deriving DecidableEq

structure Revocation where
  grant : Grant
  status : RevocationStatus
  leaseOwner : Text
  leaseEpoch : ℕ
  leaseExpiresAt : Option Text
  nextAttemptAt : Option Text
  attempts : ℕ
  lastErrorCode : Text
  createdAt : Text
  updatedAt : Text
  appliedAt : Option Text
  deriving DecidableEq

/-- The revocations, with the workers and the runs that they may refer to. -/
structure RevocationStore where
  workerIds : List Text
  runIds : List Text
  revocations : Table Text Revocation

inductive EnqueueError
  | value (message : String)
  | integrity
  | runtime (message : String)
  deriving DecidableEq

/-- A binding with its keys and its values. -/
structure Binding where
  keys : List BindingKey
  value : BindingKey → Text

/-- The value under a key that only one kind of binding has. -/
def Binding.getOrEmpty (b : Binding) (key : BindingKey) : Text :=
  if key ∈ b.keys then b.value key else []

def Binding.grant (b : Binding) : Grant where
  authorizationRef := b.value .authorizationRef
  originRef := b.value .originRef
  workRef := b.value .workRef
  workerId := b.value .workerId
  runId := b.value .runId
  grantId := b.value .grantId
  containerGenerationId := b.getOrEmpty .containerGenerationId
  hostStartupLeaseId := b.getOrEmpty .hostStartupLeaseId

/-- The values in the order of their names. -/
def Binding.values (b : Binding) : List Text :=
  b.keys.map b.value

def bindingTag : Text := "glasshive.capability-revocation.v1".toList

def nul : Char := Char.ofNat 0

def Binding.material (b : Binding) : Text :=
  [nul].intercalate (bindingTag :: b.values)

def exactBinding : EnqueueError := .value "Capability revocation requires an exact binding"

/-- The binding with its values normalised, when it has the right keys and each value has from one
to 256 characters. -/
def parseBinding (binding : RawBinding) : Except EnqueueError Binding :=
  match bindingKeys binding with
  | none => .error exactBinding
  | some keys =>
    if keys.any fun key =>
        normalized binding key = [] ∨ 256 < (normalized binding key).length then
      .error exactBinding
    else .ok { keys, value := normalized binding }

def revocationId (sha256 : Text → Text) (b : Binding) : Text :=
  "cgr_".toList ++ sha256 b.material

def newRevocation (b : Binding) (now : Text) : Revocation where
  grant := b.grant
  status := .armed
  leaseOwner := []
  leaseEpoch := 0
  leaseExpiresAt := none
  nextAttemptAt := none
  attempts := 0
  lastErrorCode := []
  createdAt := now
  updatedAt := now
  appliedAt := none

/-- Another row has the grant and the container generation. -/
def pairTaken (t : Table Text Revocation) (b : Binding) : Bool :=
  t.any fun _ row => row.grant.grantId = b.grant.grantId ∧
    row.grant.containerGenerationId = b.grant.containerGenerationId

/-- `INSERT OR IGNORE`: nothing is inserted on a conflict of the primary key or of the grant and the
container generation; a row that is inserted has to refer to a worker and to a run. -/
def insertOrIgnore (sha256 : Text → Text) (s : RevocationStore) (b : Binding) (now : Text) :
    Except EnqueueError (Table Text Revocation) :=
  if pairTaken s.revocations b then .ok s.revocations
  else
    match s.revocations.insert? (revocationId sha256 b) (newRevocation b now) with
    | none => .ok s.revocations
    | some t => if b.grant.workerId ∈ s.workerIds ∧ b.grant.runId ∈ s.runIds then .ok t
      else .error .integrity

def enqueueCapabilityGrantRevocation (sha256 : Text → Text) (s : RevocationStore)
    (binding : RawBinding) (now : Text) : Except EnqueueError (RevocationStore × Revocation) := do
  let b ← parseBinding binding
  let t ← insertOrIgnore sha256 s b now
  match t.get? (revocationId sha256 b) with
  | none => .error (.runtime "Capability revocation persistence failed")
  | some row => .ok ({ s with revocations := t }, row)

/-! ## Parsed bindings -/

variable {sha256 : Text → Text}

variable {b c : Binding} {calls : List Call} {raw : RawBinding} {s : RevocationStore} {call : Call}
  {t : Table Text Revocation} {now : Text}

theorem bindingKeys_cases {keys : List BindingKey} (h : bindingKeys raw = some keys) :
    keys = expected ∨ keys = hostExpected := by
  unfold bindingKeys at h
  simp only at h
  split at h
  · exact Or.inl (Option.some.inj h).symm
  · split at h
    · exact Or.inr (Option.some.inj h).symm
    · cases h

/-- A binding that is accepted has the keys of one of the kinds, and no value is empty. -/
theorem parseBinding_eq_ok (h : parseBinding raw = .ok b) :
    (b.keys = expected ∨ b.keys = hostExpected) ∧ ∀ key ∈ b.keys, b.value key ≠ [] := by
  unfold parseBinding at h
  split at h
  · cases h
  · rename_i keys hkeys
    split at h
    · cases h
    · rename_i hany
      obtain rfl := Except.ok.inj h
      refine ⟨bindingKeys_cases hkeys, fun key hkey hempty => hany ?_⟩
      simp only [List.any_eq_true, decide_eq_true_eq]
      exact ⟨key, hkey, Or.inl hempty⟩

/-- What a row says of a binding determines the binding. -/
theorem values_of_grant_eq {raw' : RawBinding} (hb : parseBinding raw = .ok b)
    (hc : parseBinding raw' = .ok c) (h : b.grant = c.grant) : b.values = c.values := by
  obtain ⟨hbkeys, hbne⟩ := parseBinding_eq_ok hb
  obtain ⟨hckeys, hcne⟩ := parseBinding_eq_ok hc
  simp only [Binding.grant, Grant.mk.injEq, Binding.getOrEmpty] at h
  obtain ⟨hauth, horigin, hwork, hworker, hrun, hgrant, hgeneration, hstartup⟩ := h
  -- A binding of the other kind has nothing where this one has a value.
  rcases hbkeys with hbk | hbk <;> rcases hckeys with hck | hck <;>
    simp only [hbk, hck, expected, hostExpected, List.mem_cons, List.not_mem_nil, reduceCtorEq,
      or_false, or_true, if_true, if_false] at hgeneration hstartup hbne hcne
  · simp [Binding.values, expected, *]
  · exact absurd hgeneration (hbne _ (by simp))
  · exact absurd hgeneration.symm (hcne _ (by simp))
  · simp [Binding.values, hostExpected, *]

/-- The pieces that a binding leaves of itself in what is digested. -/
def Binding.pieces (b : Binding) : List Text :=
  Joined.pieces nul b.values

theorem material_eq_iff : b.material = c.material ↔ b.pieces = c.pieces := by
  rw [Binding.material, Binding.material, Joined.intercalate_eq_iff, Joined.pieces, Joined.pieces,
    List.flatMap_cons, List.flatMap_cons, List.append_cancel_left_eq]
  rfl

/-! ## What a call does -/

/-- The binding is accepted, and the worker and the run that it names are there. -/
def Accepts (s : RevocationStore) (raw : RawBinding) (b : Binding) : Prop :=
  parseBinding raw = .ok b ∧ b.grant.workerId ∈ s.workerIds ∧ b.grant.runId ∈ s.runIds

/-- A call with a binding at a reading of the clock. -/
abbrev Call := RawBinding × Text

/-- A call that fails leaves the store as it was. -/
def step (sha256 : Text → Text) (s : RevocationStore) (call : Call) : RevocationStore :=
  match enqueueCapabilityGrantRevocation sha256 s call.1 call.2 with
  | .ok (s', _) => s'
  | .error _ => s

/-- The row of the binding carries it. -/
def Carries (sha256 : Text → Text) (s : RevocationStore) (b : Binding) : Prop :=
  ∃ row, s.revocations.get? (revocationId sha256 b) = some row ∧ row.grant = b.grant

/-- The values leave the same pieces, or the bindings are of one grant and one container generation,
which a host binding has empty. -/
def Clash (b c : Binding) : Prop :=
  b.pieces = c.pieces ∨ b.grant.grantId = c.grant.grantId ∧
    b.grant.containerGenerationId = c.grant.containerGenerationId

/-- The bindings that the calls of a run bring and the store accepts. -/
def Brought (s : RevocationStore) (calls : List Call) (b : Binding) : Prop :=
  ∃ call ∈ calls, Accepts s call.1 b

/-- No two of the texts that are digested for the bindings of a run have one digest. -/
def CollisionFree (sha256 : Text → Text) (s : RevocationStore) (calls : List Call) : Prop :=
  ∀ b c, Brought s calls b → Brought s calls c → sha256 b.material = sha256 c.material →
    b.material = c.material

theorem pairTaken_eq_true :
    pairTaken t b = true ↔ ∃ id row, t.get? id = some row ∧
      row.grant.grantId = b.grant.grantId ∧
        row.grant.containerGenerationId = b.grant.containerGenerationId := by
  simp [pairTaken]

theorem enqueue_eq_ok_iff {s' : RevocationStore} {row : Revocation} :
    enqueueCapabilityGrantRevocation sha256 s raw now = .ok (s', row) ↔
      ∃ b t, parseBinding raw = .ok b ∧ insertOrIgnore sha256 s b now = .ok t ∧
        t.get? (revocationId sha256 b) = some row ∧ s' = { s with revocations := t } := by
  simp only [enqueueCapabilityGrantRevocation, Fallible.bind_eq_ok]
  refine exists_congr fun b => ?_
  rw [← exists_and_left]
  refine exists_congr fun t => and_congr_right fun _ => and_congr_right fun _ => ?_
  cases t.get? (revocationId sha256 b) <;> simp [eq_comm, and_comm]

/-- The statement inserts nothing on a conflict, and otherwise the row of a binding that is
accepted. -/
theorem insertOrIgnore_eq_ok (h : insertOrIgnore sha256 s b now = .ok t) :
    t = s.revocations ∨ pairTaken s.revocations b = false ∧
      s.revocations.insert? (revocationId sha256 b) (newRevocation b now) = some t ∧
        b.grant.workerId ∈ s.workerIds ∧ b.grant.runId ∈ s.runIds := by
  unfold insertOrIgnore at h
  split at h
  · exact Or.inl (Except.ok.inj h).symm
  · rename_i htaken
    split at h
    · exact Or.inl (Except.ok.inj h).symm
    · rename_i t' hinsert
      split at h
      · rename_i hrefs
        obtain rfl := Except.ok.inj h
        exact Or.inr ⟨Bool.eq_false_iff.mpr htaken, hinsert, hrefs⟩
      · cases h

/-- A call leaves the store as it was, or inserts the row of its binding. -/
theorem step_cases (sha256 : Text → Text) (s : RevocationStore) (call : Call) :
    step sha256 s call = s ∨ ∃ b t, Accepts s call.1 b ∧ pairTaken s.revocations b = false ∧
      s.revocations.insert? (revocationId sha256 b) (newRevocation b call.2) = some t ∧
        step sha256 s call = { s with revocations := t } := by
  unfold step
  cases henqueue : enqueueCapabilityGrantRevocation sha256 s call.1 call.2 with
  | error => exact Or.inl rfl
  | ok =>
    obtain ⟨b, t, hparse, hinsert, -, hs'⟩ := enqueue_eq_ok_iff.mp henqueue
    rcases insertOrIgnore_eq_ok hinsert with rfl | ⟨htaken, hnew, hrefs⟩
    · exact Or.inl hs'
    · exact Or.inr ⟨b, t, ⟨hparse, hrefs⟩, htaken, hnew, hs'⟩

/-- The row of a call that is accepted and meets no conflict. -/
theorem carries_step (h : Accepts s call.1 b) (htaken : pairTaken s.revocations b = false)
    (hfree : s.revocations.get? (revocationId sha256 b) = none) :
    Carries sha256 (step sha256 s call) b := by
  obtain ⟨t, ht⟩ := Option.isSome_iff_exists.mp
    ((s.revocations.insert?_isSome (r := newRevocation b call.2)).mpr hfree)
  have hget : t.get? (revocationId sha256 b) = some (newRevocation b call.2) := by
    rw [Table.get?_insert ht, if_pos rfl]
  have hok : enqueueCapabilityGrantRevocation sha256 s call.1 call.2 =
      .ok ({ s with revocations := t }, newRevocation b call.2) := by
    refine enqueue_eq_ok_iff.mpr ⟨b, t, h.1, ?_, hget, rfl⟩
    rw [insertOrIgnore, htaken, ht]
    exact if_pos h.2
  rw [step, hok]
  exact ⟨_, hget, rfl⟩

/-- A row that is there stays. -/
theorem Carries.step (h : Carries sha256 s b) (call : Call) :
    Carries sha256 (step sha256 s call) b := by
  obtain ⟨row, hrow, hgrant⟩ := h
  rcases step_cases sha256 s call with heq | ⟨c, t, -, -, hinsert, heq⟩
  · rw [heq]
    exact ⟨row, hrow, hgrant⟩
  · rw [heq]
    refine ⟨row, ?_, hgrant⟩
    rw [Table.get?_insert hinsert, if_neg, hrow]
    rintro hid
    have hnone := Table.insert?_isSome.mp (Option.isSome_of_eq_some hinsert)
    rw [← hid, hrow] at hnone
    cases hnone

/-! ## Runs -/

/-- The rows carry bindings of a set under their own keys, and no two of them are of one grant and
one container generation. -/
structure Inv (sha256 : Text → Text) (start : RevocationStore) (S : Binding → Prop)
    (s : RevocationStore) : Prop where
  workers : s.workerIds = start.workerIds
  runs : s.runIds = start.runIds
  carried : ∀ id row, s.revocations.get? id = some row →
    ∃ b, S b ∧ id = revocationId sha256 b ∧ row.grant = b.grant
  unique : ∀ id id' row row', s.revocations.get? id = some row →
    s.revocations.get? id' = some row' → row.grant.grantId = row'.grant.grantId →
      row.grant.containerGenerationId = row'.grant.containerGenerationId → id = id'

variable {start s : RevocationStore} {S : Binding → Prop}

theorem Inv.accepts (h : Inv sha256 start S s) :
    Accepts s raw b ↔ Accepts start raw b := by
  rw [Accepts, Accepts, h.workers, h.runs]

theorem Inv.step (h : Inv sha256 start S s) (hS : ∀ b, Accepts start call.1 b → S b) :
    Inv sha256 start S (step sha256 s call) := by
  rcases step_cases sha256 s call with heq | ⟨b, t, haccepts, htaken, hinsert, heq⟩
  · rw [heq]
    exact h
  · have hget : ∀ id row, t.get? id = some row →
        id = revocationId sha256 b ∧ row.grant = b.grant ∨ s.revocations.get? id = some row := by
      intro id row hrow
      rw [Table.get?_insert hinsert] at hrow
      split at hrow
      · rename_i hid
        exact Or.inl ⟨hid, Option.some.inj hrow ▸ rfl⟩
      · exact Or.inr hrow
    have hother : ∀ id row, s.revocations.get? id = some row →
        row.grant.grantId = b.grant.grantId →
          row.grant.containerGenerationId ≠ b.grant.containerGenerationId := by
      intro id row hrow hgrant hgeneration
      rw [pairTaken_eq_true.mpr ⟨id, row, hrow, hgrant, hgeneration⟩] at htaken
      cases htaken
    rw [heq]
    refine ⟨h.workers, h.runs, fun id row hrow => ?_, fun id id' row row' hrow hrow' hg hc => ?_⟩
    · rcases hget id row hrow with ⟨hid, hgrant⟩ | hold
      · exact ⟨b, hS b (h.accepts.mp haccepts), hid, hgrant⟩
      · exact h.carried id row hold
    · rcases hget id row hrow with ⟨hid, hgrant⟩ | hold <;>
        rcases hget id' row' hrow' with ⟨hid', hgrant'⟩ | hold'
      · rw [hid, hid']
      · rw [hgrant] at hg hc
        exact absurd hc.symm (hother id' row' hold' hg.symm)
      · rw [hgrant'] at hg hc
        exact absurd hc (hother id row hold hg)
      · exact h.unique id id' row row' hold hold' hg hc

theorem material_of_grant_eq (hb : Brought start calls b) (hc : Brought start calls c)
    (h : b.grant = c.grant) : b.material = c.material := by
  obtain ⟨call, -, hparse, -⟩ := hb
  obtain ⟨call', -, hparse', -⟩ := hc
  rw [Binding.material, Binding.material, values_of_grant_eq hparse hparse' h]

theorem material_of_revocationId_eq (hfree : CollisionFree sha256 start calls)
    (hb : Brought start calls b) (hc : Brought start calls c)
    (h : revocationId sha256 b = revocationId sha256 c) : b.material = c.material :=
  hfree b c hb hc (List.append_cancel_left h)

/-- Where no two different bindings clash, a call leaves the row of its own. -/
theorem carries_own (hfree : CollisionFree sha256 start calls)
    (hclash : ∀ b c, Brought start calls b → Brought start calls c → b.grant ≠ c.grant → ¬ Clash b c)
    (hinv : Inv sha256 start (Brought start calls) s) (hcall : call ∈ calls)
    (hb : Accepts start call.1 b) : Carries sha256 (step sha256 s call) b := by
  have hbrought : Brought start calls b := ⟨call, hcall, hb⟩
  -- A row in the way is one of the same binding.
  have hsame : ∀ id row, s.revocations.get? id = some row →
      (row.grant = b.grant → id = revocationId sha256 b) ∧
        ((id = revocationId sha256 b ∨ row.grant.grantId = b.grant.grantId ∧
          row.grant.containerGenerationId = b.grant.containerGenerationId) →
            row.grant = b.grant) := by
    intro id row hrow
    obtain ⟨c, hc, rfl, hgrant⟩ := hinv.carried id row hrow
    rw [hgrant]
    refine ⟨fun h => ?_, fun h => ?_⟩
    · rw [revocationId, material_of_grant_eq hc hbrought h, revocationId]
    · by_contra hne
      refine hclash c b hc hbrought hne (h.imp (fun hid => ?_) id)
      exact material_eq_iff.mp (material_of_revocationId_eq hfree hc hbrought hid)
  by_cases htaken : pairTaken s.revocations b = true
  · obtain ⟨id, row, hrow, hpair⟩ := pairTaken_eq_true.mp htaken
    have hgrant := (hsame id row hrow).2 (Or.inr hpair)
    exact Carries.step ⟨row, (hsame id row hrow).1 hgrant ▸ hrow, hgrant⟩ call
  · cases hget : s.revocations.get? (revocationId sha256 b) with
    | none => exact carries_step (hinv.accepts.mpr hb) (Bool.eq_false_iff.mpr htaken) hget
    | some row => exact Carries.step ⟨row, hget, (hsame _ row hget).2 (Or.inl rfl)⟩ call

theorem inv_run (hempty : start.revocations = .empty) {pre : List Call} (hpre : pre ⊆ calls) :
    Inv sha256 start (Brought start calls) (Transition.run (step sha256) start pre) := by
  have hstart : Inv sha256 start (Brought start calls) start := by
    refine ⟨rfl, rfl, fun id row hrow => ?_, fun id id' row row' hrow => ?_⟩ <;>
      rw [hempty, Table.get?_empty] at hrow <;> cases hrow
  exact Transition.invariant_run (C := fun _ call => call ∈ calls)
    (fun _ call hs hcall => hs.step fun b hb => ⟨call, hcall, hb⟩) hstart
    (Transition.along_of_forall_mem _ (fun call hcall _ => hpre hcall) start)

theorem carries_run (h : Carries sha256 s b) (calls : List Call) :
    Carries sha256 (Transition.run (step sha256) s calls) b := by
  induction calls generalizing s with
  | nil => exact h
  | cons call calls ih => exact ih (h.step call)

/-- After any calls, every binding that was accepted has a row that carries it exactly when no two
different ones of them clash. -/
theorem bindings_carried_iff (sha256 : Text → Text) (workerIds runIds : List Text)
    (calls : List Call) (hfree : CollisionFree sha256 ⟨workerIds, runIds, .empty⟩ calls) :
    (∀ b, Brought ⟨workerIds, runIds, .empty⟩ calls b →
      Carries sha256 (Transition.run (step sha256) ⟨workerIds, runIds, .empty⟩ calls) b) ↔
        ∀ b c, Brought ⟨workerIds, runIds, .empty⟩ calls b →
          Brought ⟨workerIds, runIds, .empty⟩ calls c → b.grant ≠ c.grant → ¬ Clash b c := by
  constructor
  · intro hall b c hb hc hne hclash
    obtain ⟨row, hrow, hgrant⟩ := hall b hb
    obtain ⟨row', hrow', hgrant'⟩ := hall c hc
    have hinv : Inv sha256 ⟨workerIds, runIds, .empty⟩ (Brought ⟨workerIds, runIds, .empty⟩ calls)
        (Transition.run (step sha256) ⟨workerIds, runIds, .empty⟩ calls) :=
      inv_run rfl (List.Subset.refl calls)
    have hid : revocationId sha256 b = revocationId sha256 c := by
      rcases hclash with hpieces | ⟨hgrantId, hgeneration⟩
      · rw [revocationId, material_eq_iff.mpr hpieces, revocationId]
      · refine hinv.unique _ _ row row' hrow hrow' ?_ ?_
        · rw [hgrant, hgrant', hgrantId]
        · rw [hgrant, hgrant', hgeneration]
    rw [hid, hrow'] at hrow
    have hrows : row' = row := Option.some.inj hrow
    exact hne (by rw [← hgrant, ← hgrant', hrows])
  · intro hclash b ⟨call, hcall, hb⟩
    obtain ⟨pre, post, rfl⟩ := List.append_of_mem hcall
    rw [Transition.run_append, Transition.run_cons]
    exact carries_run (carries_own hfree hclash (inv_run rfl (List.subset_append_left pre _))
      (List.mem_append_right pre List.mem_cons_self) hb) post

/-! ## Bindings of one worker -/

def sampleStore : RevocationStore where
  workerIds := [['k']]
  runIds := [['r']]
  revocations := .empty

def containerSample : RawBinding where
  entries := [(.authorizationRef, ['a']), (.originRef, ['o']), (.workRef, ['w']),
    (.workerId, ['k']), (.runId, ['r']), (.grantId, ['h']), (.containerGenerationId, ['g'])]
  nodup := by decide

def hostSample (grantId hostStartupLeaseId : Text) : RawBinding where
  entries := [(.authorizationRef, ['a']), (.originRef, ['o']), (.workRef, ['w']),
    (.workerId, ['k']), (.runId, ['r']), (.grantId, grantId),
    (.hostStartupLeaseId, hostStartupLeaseId)]
  nodup := by simp

/-- What is digested of the samples: of a container binding, and of a host binding with the startup
lease `l`. -/
def sampleMaterial (generation grant : Char) : Text :=
  [nul].intercalate (bindingTag ::
    [['a'], [generation], [grant], ['o'], ['r'], ['w'], ['k']])

/-- SHA-256 on what is digested here; it is not computed elsewhere. -/
def sampleDigest (material : Text) : Text :=
  if material = sampleMaterial 'g' 'h' then
    "dc86487dace5431c".toList ++ "c61fc0b3f921e79a".toList ++ "432f8797465c41bf".toList ++
      "261691dfb54a5972".toList
  else if material = sampleMaterial 'g' 'l' then
    "f1c9e174f7ac43bf".toList ++ "96dc7fc45a315433".toList ++ "7693a1002f27bbbb".toList ++
      "ec61b36ac239a056".toList
  else 'x' :: material

theorem sampleDigest_injective : Function.Injective sampleDigest := by
  intro m m' h
  unfold sampleDigest at h
  split_ifs at h <;> simp_all

theorem bindings_carried_sample :
    CollisionFree sampleDigest sampleStore
        [(containerSample, ['1']), (hostSample ['g'] ['l'], ['2'])] ∧
      ((∀ b, Brought sampleStore [(containerSample, ['1']), (hostSample ['g'] ['l'], ['2'])] b →
        Carries sampleDigest (Transition.run (step sampleDigest) sampleStore
          [(containerSample, ['1']), (hostSample ['g'] ['l'], ['2'])]) b) ↔
        ∀ b c, Brought sampleStore [(containerSample, ['1']), (hostSample ['g'] ['l'], ['2'])] b →
          Brought sampleStore [(containerSample, ['1']), (hostSample ['g'] ['l'], ['2'])] c →
            b.grant ≠ c.grant → ¬ Clash b c) := by
  have hfree : CollisionFree sampleDigest sampleStore
      [(containerSample, ['1']), (hostSample ['g'] ['l'], ['2'])] :=
    fun b c _ _ h => sampleDigest_injective h
  exact ⟨hfree, bindings_carried_iff sampleDigest _ _ _ hfree⟩

/-- The rows of the table, by what they say of their bindings. -/
def carriedGrants (s : RevocationStore) : List (Text × Text × Text) :=
  s.revocations.entries.map fun e =>
    (e.2.grant.grantId, e.2.grant.containerGenerationId, e.2.grant.hostStartupLeaseId)

/-- All of these bindings are accepted. But a host binding whose grant is the container generation
of another binding, and whose startup lease is its grant, finds the row of that one; and of two host
bindings of one grant the second one is refused. -/
theorem binding_lost :
    (∀ raw ∈ [containerSample, hostSample ['g'] ['h'], hostSample ['g'] ['l']],
        (parseBinding raw).toBool = true) ∧
      carriedGrants (Transition.run (step sampleDigest) sampleStore
        [(containerSample, ['1']), (hostSample ['g'] ['h'], ['2'])]) = [(['h'], ['g'], [])] ∧
      carriedGrants (Transition.run (step sampleDigest) sampleStore
        [(hostSample ['g'] ['h'], ['1']), (hostSample ['g'] ['l'], ['2'])]) =
          [(['g'], [], ['h'])] := by
  decide +kernel

end GlassHive.GrantRevocations
