import GlassHive.Sessions
import GlassHive.Library.Transition

/-!
# The main context of an owner's agent

Accepted turns are appended to one bounded context. A turn that was delivered before, or of which a
newer revision was accepted, is recognised by the turns that the context still holds, so that it is
appended again once the context has dropped them. The version and the context itself follow the
history of what was accepted in any case.
-/

namespace GlassHive

/-- The arguments of `append_provider_main_context_turn` for one owner and agent, with the instant
of the call. `rest` holds the other fields of the turn. -/
structure AppendTurn where
  continuityDomainId : String
  requestId : String
  logicalTurnId : Text
  logicalTurnRevision : ℤ
  rest : String
  now : Time

namespace AppendTurn

/-- The logical turn that a call names; a blank text names none. -/
def logicalTurn (a : AppendTurn) : Option Text :=
  if a.logicalTurnId.strip = [] then none else some a.logicalTurnId.strip

/-- The revision of the logical turn; a missing one counts as zero in the arguments. -/
def revision (a : AppendTurn) : ℤ :=
  max 1 (if a.logicalTurnRevision = 0 then 1 else a.logicalTurnRevision)

end AppendTurn

/-- A turn of a context. -/
structure AcceptedTurn where
  requestId : String
  logicalTurn : Option Text
  revision : ℤ
  rest : String
  version : ℕ
  acceptedAt : Time

/-- A row of `provider_main_contexts`. -/
structure MainContext where
  continuityDomainId : String
  version : ℕ
  turns : List AcceptedTurn
  createdAt : Time
  updatedAt : Time

namespace AppendTurn

/-- The turn that a call appends. -/
def accepted (a : AppendTurn) (version : ℕ) : AcceptedTurn where
  requestId := a.requestId
  logicalTurn := a.logicalTurn
  revision := a.revision
  rest := a.rest
  version := version
  acceptedAt := a.now

/-- A turn shows that a call is stale: it is of the same logical turn, in this revision or a newer
one. -/
def staleAfter (a : AppendTurn) (e : AcceptedTurn) : Bool :=
  a.logicalTurn.isSome && e.logicalTurn == a.logicalTurn && decide (a.revision ≤ e.revision)

/-- Some of the turns shows that a call was delivered before, or is stale. -/
def recognised (a : AppendTurn) (turns : List AcceptedTurn) : Bool :=
  turns.any (fun e => e.requestId == a.requestId) || turns.any a.staleAfter

/-- The turns without the older revisions of the turn of a call. -/
def unreplaced (a : AppendTurn) (turns : List AcceptedTurn) : List AcceptedTurn :=
  if a.logicalTurn.isSome then turns.filter fun e => e.logicalTurn != a.logicalTurn else turns

end AppendTurn

namespace MainContext

/-- The turns of a context that may not be there yet. -/
def turnsOf (existing : Option MainContext) : List AcceptedTurn :=
  (existing.map turns).getD []

def versionOf (existing : Option MainContext) : ℕ :=
  (existing.map version).getD 0

/-- The turns that a context keeps. -/
def window (maxTurns : ℤ) : ℕ :=
  (max 1 maxTurns).toNat

/-- The context belongs to another continuity domain than the call. -/
def foreign (existing : Option MainContext) (a : AppendTurn) : Bool :=
  existing.any fun c => c.continuityDomainId != a.continuityDomainId

/-- `append_provider_main_context_turn`, with the row that it returns. -/
def appendTurn (existing : Option MainContext) (maxTurns : ℤ) (a : AppendTurn) :
    Except StoreError (Option MainContext) :=
  if foreign existing a then
    .error (.valueError "Main context continuity domain does not match the owner agent")
  else if a.recognised (turnsOf existing) then .ok existing
  else .ok (some
    { continuityDomainId := a.continuityDomainId
      version := versionOf existing + 1
      turns := lastEntries (window maxTurns)
        (a.unreplaced (turnsOf existing) ++ [a.accepted (versionOf existing + 1)])
      createdAt := (existing.map createdAt).getD a.now
      updatedAt := a.now })

end MainContext

/-! ## The history of a context -/

/-- A context with all the turns that were ever appended to it, in order. -/
structure MainHistory where
  context : Option MainContext
  accepted : List AcceptedTurn

namespace MainHistory

open MainContext Transition

/-- Nothing was appended. -/
def init : MainHistory :=
  ⟨none, []⟩

/-- A call, with the turn that it appends when it is neither refused nor recognised. -/
def step (maxTurns : ℤ) (h : MainHistory) (a : AppendTurn) : MainHistory :=
  match appendTurn h.context maxTurns a with
  | .error _ => h
  | .ok context =>
    ⟨context, if a.recognised (turnsOf h.context) then h.accepted
      else h.accepted ++ [a.accepted (versionOf context)]⟩

/-- The accepted turns without those that a later revision replaced. -/
def current : List AcceptedTurn → List AcceptedTurn
  | [] => []
  | e :: l =>
    if e.logicalTurn.isSome && l.any fun e' => e'.logicalTurn == e.logicalTurn then current l
    else e :: current l

/-- One turn may follow another in the history: it is not of the same request, and of one logical
turn only a newer revision follows. -/
def Follows (e e' : AcceptedTurn) : Prop :=
  e.requestId ≠ e'.requestId ∧
    (e.logicalTurn.isSome = true → e.logicalTurn = e'.logicalTurn → e.revision < e'.revision)

/-- The version counts the accepted turns, and the context holds the last of those that are
current. -/
structure Bounded (n : ℕ) (h : MainHistory) : Prop where
  version : versionOf h.context = h.accepted.length
  turns : turnsOf h.context = lastEntries n (current h.accepted)

/-- Every request is appended once, and no revision after a newer or equal one. -/
structure ExactlyOnce (n : ℕ) (h : MainHistory) : Prop extends h.Bounded n where
  order : h.accepted.Pairwise Follows

/-- A call that was delivered before, or is stale, is recognised by the turns that the context still
holds, or is refused. -/
def Remembered (h : MainHistory) (a : AppendTurn) : Prop :=
  foreign h.context a = false → a.recognised h.accepted = true →
    a.recognised (turnsOf h.context) = true

/-! ## The turns that are current -/

section Current

variable {a : AppendTurn} {l : List AcceptedTurn} {e : AcceptedTurn}

theorem current_cons (e : AcceptedTurn) (l : List AcceptedTurn) :
    current (e :: l) = if e.logicalTurn.isSome && l.any fun e' => e'.logicalTurn == e.logicalTurn
      then current l else e :: current l := rfl

theorem unreplaced_cons (a : AppendTurn) (e : AcceptedTurn) (l : List AcceptedTurn) :
    a.unreplaced (e :: l) = if a.logicalTurn.isSome && e.logicalTurn == a.logicalTurn
      then a.unreplaced l else e :: a.unreplaced l := by
  unfold AppendTurn.unreplaced
  by_cases hsome : a.logicalTurn.isSome = true
  · by_cases hsame : e.logicalTurn = a.logicalTurn
    · simp [hsome, hsame]
    · simp [hsome, hsame]
  · simp [hsome]

/-- A turn replaces the older revisions of its logical turn, and is itself current. -/
theorem current_append (a : AppendTurn) (version : ℕ) (l : List AcceptedTurn) :
    current (l ++ [a.accepted version]) = a.unreplaced (current l) ++ [a.accepted version] := by
  induction l with
  | nil => simp [current, AppendTurn.unreplaced]
  | cons e l ih =>
    rw [List.cons_append, current_cons, current_cons, ih, List.any_append]
    have hlast : ([a.accepted version].any fun e' => e'.logicalTurn == e.logicalTurn) =
        (a.logicalTurn == e.logicalTurn) := by
      simp [AppendTurn.accepted]
    rw [hlast]
    by_cases hlater :
        (e.logicalTurn.isSome && l.any fun e' => e'.logicalTurn == e.logicalTurn) = true
    · obtain ⟨hsome, hany⟩ := Bool.and_eq_true_iff.mp hlater
      rw [if_pos hlater, hsome, hany]
      rfl
    rw [if_neg hlater, unreplaced_cons]
    by_cases hsame : a.logicalTurn = e.logicalTurn
    · by_cases hsome : e.logicalTurn.isSome = true
      · -- the turn of the call replaces this one
        rw [if_pos (by simp [hsome, hsame]), if_pos (by simp [hsome, hsame])]
      · rw [if_neg (by simp [hsome]), if_neg (by simp [hsome, hsame]), List.cons_append]
    · have hother : e.logicalTurn ≠ a.logicalTurn := fun h => hsame h.symm
      have hsame' : (a.logicalTurn == e.logicalTurn) = false := beq_eq_false_iff_ne.mpr hsame
      rw [hsame', Bool.or_false, if_neg hlater, if_neg (by simp [hother]), List.cons_append]

theorem mem_of_mem_current (h : e ∈ current l) : e ∈ l := by
  induction l with
  | nil => cases h
  | cons x l ih =>
    rw [current_cons] at h
    split at h
    · exact List.mem_cons_of_mem x (ih h)
    · rcases List.mem_cons.mp h with rfl | h
      · exact List.mem_cons_self
      · exact List.mem_cons_of_mem x (ih h)

/-- Of a logical turn at most one revision is current. -/
theorem countP_current_le (id : Text) (l : List AcceptedTurn) :
    (current l).countP (fun e => e.logicalTurn == some id) ≤ 1 := by
  induction l with
  | nil => simp [current]
  | cons x l ih =>
    rw [current_cons]
    split
    · exact ih
    · rename_i hlater
      by_cases hid : x.logicalTurn = some id
      · have hnone : (current l).countP (fun e => e.logicalTurn == some id) = 0 := by
          rw [List.countP_eq_zero]
          intro e he hsame
          refine hlater ?_
          rw [hid, Option.isSome_some, Bool.true_and, List.any_eq_true]
          exact ⟨e, mem_of_mem_current he, hsame⟩
        rw [List.countP_cons, hnone, hid]
        simp
      · rw [List.countP_cons_of_neg (by simpa using hid)]
        exact ih

theorem unreplaced_append (a : AppendTurn) (l l' : List AcceptedTurn) :
    a.unreplaced (l ++ l') = a.unreplaced l ++ a.unreplaced l' := by
  unfold AppendTurn.unreplaced
  split
  · exact List.filter_append l l'
  · rfl

/-- A call replaces at most one of the current turns that a context holds. -/
theorem length_le_unreplaced {w : List AcceptedTurn} (h : w.Sublist (current l)) :
    w.length ≤ (a.unreplaced w).length + 1 := by
  unfold AppendTurn.unreplaced
  split
  · rename_i hsome
    obtain ⟨id, hid⟩ := Option.isSome_iff_exists.mp hsome
    have hcount : w.countP (fun e => e.logicalTurn == some id) ≤ 1 :=
      (h.countP_le).trans (countP_current_le id l)
    have hsplit := List.length_eq_countP_add_countP (fun e => e.logicalTurn == some id) (l := w)
    rw [hid, ← List.countP_eq_length_filter]
    have hsame : w.countP (fun e => e.logicalTurn != some id) =
        w.countP (fun e => decide ¬(e.logicalTurn == some id) = true) := by
      refine List.countP_congr fun e _ => ?_
      simp
    omega
  · omega

theorem lastEntries_append_of_le {α : Type} {n : ℕ} {xs ys : List α} (h : n ≤ ys.length) :
    lastEntries n (xs ++ ys) = lastEntries n ys := by
  unfold lastEntries
  rw [List.length_append, List.drop_append, List.drop_of_length_le (by omega), List.nil_append]
  congr 1
  omega

/-- What precedes the last entries of a list is empty, or there are as many of them as asked for. -/
theorem append_lastEntries {α : Type} (n : ℕ) (xs : List α) :
    ∃ pre, xs = pre ++ lastEntries n xs ∧ (pre = [] ∨ (lastEntries n xs).length = n) := by
  refine ⟨xs.take (xs.length - n), (List.take_append_drop _ xs).symm, ?_⟩
  unfold lastEntries
  rw [List.length_drop]
  rcases Nat.le_total xs.length n with hle | hle
  · left
    rw [Nat.sub_eq_zero_of_le hle, List.take_zero]
  · right
    omega

/-- The last of the current turns are found from the last of those before. -/
theorem lastEntries_unreplaced (n : ℕ) (e : AcceptedTurn) :
    lastEntries n (a.unreplaced (lastEntries n (current l)) ++ [e]) =
      lastEntries n (a.unreplaced (current l) ++ [e]) := by
  obtain ⟨pre, hsplit, hpre⟩ := append_lastEntries n (current l)
  have hsub : (lastEntries n (current l)).Sublist (current l) := List.drop_sublist _ _
  have hlength := length_le_unreplaced (a := a) hsub
  generalize lastEntries n (current l) = w at *
  rw [hsplit, unreplaced_append, List.append_assoc]
  rcases hpre with rfl | hfull
  · unfold AppendTurn.unreplaced
    split <;> rfl
  · refine (lastEntries_append_of_le ?_).symm
    rw [List.length_append, List.length_singleton]
    omega

end Current

/-! ## Calls -/

section Calls

variable {maxTurns : ℤ} {h : MainHistory} {a : AppendTurn}

/-- A call is refused or recognised, and changes nothing, or it appends its turn. -/
theorem step_cases (maxTurns : ℤ) (h : MainHistory) (a : AppendTurn) :
    (foreign h.context a = true ∨ a.recognised (turnsOf h.context) = true) ∧
        h.step maxTurns a = h ∨
      foreign h.context a = false ∧ a.recognised (turnsOf h.context) = false ∧
        ∃ c, h.step maxTurns a =
            ⟨some c, h.accepted ++ [a.accepted (versionOf h.context + 1)]⟩ ∧
          c.version = versionOf h.context + 1 ∧
          c.turns = lastEntries (window maxTurns) (a.unreplaced (turnsOf h.context) ++
            [a.accepted (versionOf h.context + 1)]) := by
  unfold step appendTurn
  by_cases hforeign : foreign h.context a = true
  · left
    rw [if_pos hforeign]
    exact ⟨Or.inl hforeign, rfl⟩
  by_cases hseen : a.recognised (turnsOf h.context) = true
  · left
    rw [if_neg hforeign, if_pos hseen]
    refine ⟨Or.inr hseen, ?_⟩
    simp only [if_pos hseen]
  · right
    rw [if_neg hforeign, if_neg hseen]
    simp only [if_neg hseen]
    exact ⟨Bool.eq_false_iff.mpr hforeign, Bool.eq_false_iff.mpr hseen, _, rfl, rfl, rfl⟩

theorem bounded_init (n : ℕ) : init.Bounded n where
  version := rfl
  turns := by simp [init, turnsOf, current, lastEntries]

/-- The version and the context follow the history, whatever is delivered. -/
theorem bounded_step (hb : h.Bounded (window maxTurns)) (a : AppendTurn) :
    (h.step maxTurns a).Bounded (window maxTurns) := by
  rcases step_cases maxTurns h a with ⟨-, hsame⟩ | ⟨-, -, c, hstep, hversion, hturns⟩
  · rw [hsame]
    exact hb
  · rw [hstep]
    constructor
    · rw [List.length_append, List.length_singleton, ← hb.version]
      exact hversion
    · rw [current_append, ← lastEntries_unreplaced, ← hb.turns]
      exact hturns

/-- The turn of a call may follow every turn of a list exactly when none of them shows the call. -/
theorem forall_follows_iff (version : ℕ) (l : List AcceptedTurn) :
    (∀ e ∈ l, Follows e (a.accepted version)) ↔ a.recognised l = false := by
  have hfollows : ∀ e, Follows e (a.accepted version) ↔
      ¬(e.requestId == a.requestId) = true ∧ ¬a.staleAfter e = true := by
    intro e
    have hturn : (a.accepted version).logicalTurn = a.logicalTurn := rfl
    have hrevision : (a.accepted version).revision = a.revision := rfl
    unfold Follows AppendTurn.staleAfter
    rw [hturn, hrevision, beq_iff_eq, Bool.and_eq_true, Bool.and_eq_true, beq_iff_eq,
      decide_eq_true_eq]
    refine and_congr Iff.rfl ⟨?_, ?_⟩
    · rintro hnewer ⟨⟨hsome, hsame⟩, hle⟩
      rw [← hsame] at hsome
      have hlt := hnewer hsome hsame
      omega
    · intro hstale hsome hsame
      by_contra hle
      rw [hsame] at hsome
      exact hstale ⟨⟨hsome, hsame⟩, by omega⟩
  rw [AppendTurn.recognised, Bool.or_eq_false_iff, List.any_eq_false, List.any_eq_false,
    ← forall₂_and]
  exact forall₂_congr fun e _ => hfollows e

/-- A call keeps the history of exactly one append exactly when it is remembered. -/
theorem exactlyOnce_step_iff (hb : h.Bounded (window maxTurns))
    (h1 : h.ExactlyOnce (window maxTurns)) (a : AppendTurn) :
    (h.step maxTurns a).ExactlyOnce (window maxTurns) ↔ h.Remembered a := by
  rcases step_cases maxTurns h a with ⟨hno, hsame⟩ | ⟨hdomain, hseen, c, hstep, -, -⟩
  · rw [hsame]
    refine ⟨fun _ hdomain _ => hno.resolve_left ?_, fun _ => h1⟩
    rw [hdomain]
    exact Bool.false_ne_true
  · have hnext := bounded_step hb a
    have hremembered : h.Remembered a ↔ a.recognised h.accepted = false := by
      unfold Remembered
      rw [hdomain, hseen]
      simp
    rw [hremembered, ← forall_follows_iff (versionOf h.context + 1)]
    rw [hstep] at hnext ⊢
    constructor
    · intro hafter e he
      have horder := hafter.order
      rw [List.pairwise_append] at horder
      exact horder.2.2 e he _ (List.mem_singleton_self _)
    · intro hfollows
      refine ⟨hnext, List.pairwise_append.mpr ⟨h1.order, List.pairwise_singleton _ _, ?_⟩⟩
      intro e he e' he'
      rw [List.mem_singleton.mp he']
      exact hfollows e he

theorem ExactlyOnce.nodup {n : ℕ} (h1 : h.ExactlyOnce n) :
    (h.accepted.map AcceptedTurn.requestId).Nodup := by
  refine List.pairwise_map.mpr (h1.order.imp ?_)
  intro e e' hfollows
  exact hfollows.1

end Calls

/-! ## Sequences of calls -/

/-- Over any sequence of calls, with any redeliveries and any order of revisions, every turn is
appended exactly once if and only if every call that comes too late is still remembered. -/
theorem mainContext_appends_once_iff (maxTurns : ℤ) (calls : List AppendTurn) :
    (∀ pre, pre <+: calls →
        (run (step maxTurns) init pre).ExactlyOnce (window maxTurns)) ↔
      Along (step maxTurns) Remembered init calls :=
  forall_prefix_iff_along (I := Bounded (window maxTurns)) (P := ExactlyOnce (window maxTurns))
    (fun _ a hb => bounded_step hb a) (fun _ a hb h1 => exactlyOnce_step_iff hb h1 a)
    (bounded_init _) ⟨bounded_init _, List.Pairwise.nil⟩

/-- A delivery of a turn of its own. -/
def deliverTurn (requestId : String) : AppendTurn where
  continuityDomainId := "main"
  requestId := requestId
  logicalTurnId := []
  logicalTurnRevision := 0
  rest := ""
  now := 0

/-- The first of four turns is delivered again when a context of three has dropped it. -/
def redelivered : List AppendTurn :=
  ["a", "b", "c", "d", "a"].map deliverTurn

/-- It is appended again. -/
theorem mainContext_appends_again :
    ¬(run (step 3) init redelivered).ExactlyOnce (window 3) := by
  intro h1
  have hids : (run (step 3) init redelivered).accepted.map AcceptedTurn.requestId =
      ["a", "b", "c", "d", "a"] := by
    decide
  have hnodup := h1.nodup
  rw [hids] at hnodup
  exact absurd hnodup (by decide)

end MainHistory

end GlassHive
