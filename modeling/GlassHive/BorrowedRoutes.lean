import GlassHive.RouteRegistry

/-!
# Borrowed routes

What every step of a mission binder keeps of its registry, of the readers of a route and of the
removal of its credentials; and what is kept besides while no preparation fails outside its
handlers.
-/

namespace GlassHive

open Relational Transition

/-! ## What a thread holds -/

namespace CloseStage

/-- The route is marked as closing. -/
def isMarked : CloseStage → Bool
  | .mark => false
  | _ => true

/-- The readers of the route are gone. -/
def isClosed : CloseStage → Bool
  | .mark | .wait => false
  | _ => true

/-- The cleanup lock is held. -/
def isLocked : CloseStage → Bool
  | .attempt _ | .quarantine _ => true
  | _ => false

end CloseStage

namespace RoutePhase

/-- The binding that a thread works for. -/
def binding? : RoutePhase → Option RouteBinding
  | .unboundBody b | .acquiring b | .leased b | .preparing b | .quarantining b | .returning b
  | .resolving b _ | .publishing b _ | .starting b | .body b | .closing b _ _ _ | .beating b
  | .renewing b | .lost b => some b
  | _ => none

/-- The route that a projection reads. -/
def reads : RoutePhase → List ℕ
  | .projecting _ token => [token]
  | _ => []

/-- The cleanup lock that a thread holds. -/
def locks : RoutePhase → List ℕ
  | .closing b _ stage _ => if stage.isLocked then [b.token] else []
  | _ => []

/-- The route that the thread has marked as closing. -/
def marked : RoutePhase → Option ℕ
  | .closing b _ stage _ => if stage.isMarked then some b.token else none
  | _ => none

/-- The route whose readers the thread has waited for. -/
def closed : RoutePhase → Option ℕ
  | .closing b _ stage _ => if stage.isClosed then some b.token else none
  | _ => none

/-- The route whose credentials the thread is removing. -/
def removes : RoutePhase → Option ℕ
  | .closing b _ (.attempt _) _ => some b.token
  | _ => none

/-- The thread is to publish a worker with its route. -/
def publishes : RoutePhase → Bool
  | .publishing _ _ => true
  | _ => false

/-- A thread that goes on with the same route, marks, readers and locks. -/
structure Goes (p q : RoutePhase) : Prop where
  binding : ∀ b, q.binding? = some b →
    ∃ b', p.binding? = some b' ∧ b'.token = b.token ∧ b'.workerId = b.workerId
  unread : p.reads = [] ∧ q.reads = []
  marked : ∀ t, q.marked = some t → p.marked = some t
  closed : ∀ t, q.closed = some t → p.closed = some t
  locks : q.locks = p.locks
  removes : ∀ t, q.removes = some t → p.removes = some t
  published : ∀ b bound, q = .publishing b bound → bound.id = b.workerId

/-- A thread that has no route and reads none. -/
structure Bare (q : RoutePhase) : Prop where
  binding : q.binding? = none
  reads : q.reads = []
  marked : q.marked = none
  closed : q.closed = none
  locks : q.locks = []
  removes : q.removes = none

theorem bare_done (result : Except RouteError Unit) : (done result).Bare :=
  ⟨rfl, rfl, rfl, rfl, rfl, rfl⟩

theorem bare_preferredFallback (input : RouteInput) : (preferredFallback input).Bare := by
  unfold preferredFallback
  split <;> exact ⟨rfl, rfl, rfl, rfl, rfl, rfl⟩

variable {q p : RoutePhase}

/-- A thread that lets go of its route, or never had one. -/
theorem Goes.ends (hp : p.reads = []) (hlocks : p.locks = []) (hq : q.Bare) : p.Goes q where
  binding b hb := by
    rw [hq.binding] at hb
    cases hb
  unread := ⟨hp, hq.reads⟩
  marked t ht := by
    rw [hq.marked] at ht
    cases ht
  closed t ht := by
    rw [hq.closed] at ht
    cases ht
  locks := hq.locks.trans hlocks.symm
  removes t ht := by
    rw [hq.removes] at ht
    cases ht
  published b bound heq := by
    have hbinding := hq.binding
    rw [heq] at hbinding
    cases hbinding

/-- A thread that goes on without marking its route. -/
theorem Goes.continues {b b' : RouteBinding} (hp : p.binding? = some b) (hq : q.binding? = some b')
    (htoken : b.token = b'.token) (hworker : b.workerId = b'.workerId)
    (hreads : p.reads = [] ∧ q.reads = []) (hmarked : q.marked = none) (hclosed : q.closed = none)
    (hlocks : q.locks = p.locks) (hremoves : q.removes = none)
    (hpublished : ∀ b bound, q = .publishing b bound → bound.id = b.workerId) : p.Goes q where
  binding b'' hb := by
    rw [hq] at hb
    obtain rfl := Option.some.inj hb
    exact ⟨b, hp, htoken, hworker⟩
  unread := hreads
  marked t ht := by
    rw [hmarked] at ht
    cases ht
  closed t ht := by
    rw [hclosed] at ht
    cases ht
  locks := hlocks
  removes t ht := by
    rw [hremoves] at ht
    cases ht
  published := hpublished

/-- A thread that keeps its route, without reading, marking or publishing it. -/
theorem Goes.onward
    (h : (q.binding?.map fun b => (b.token, b.workerId), p.reads, q.reads, q.marked, q.closed,
        q.locks, q.removes, q.publishes) =
      (p.binding?.map fun b => (b.token, b.workerId), [], [], none, none, p.locks, none, false)) :
    p.Goes q := by
  simp only [Prod.mk.injEq] at h
  obtain ⟨hbinding, hreads, hreads', hmarked, hclosed, hlocks, hremoves, hpublishes⟩ := h
  refine ⟨fun b hb => ?_, ⟨hreads, hreads'⟩, by simp [hmarked], by simp [hclosed], hlocks,
    by simp [hremoves], fun b bound h => ?_⟩
  · rw [hb, Option.map_some, eq_comm, Option.map_eq_some_iff] at hbinding
    obtain ⟨b', hb', heq⟩ := hbinding
    exact ⟨b', hb', Prod.mk.inj heq⟩
  · rw [h] at hpublishes
    cases hpublishes

theorem reservedPhase_holds (b : RouteBinding) :
    b.reservedPhase.binding? = some b ∧ b.reservedPhase.reads = [] ∧
      b.reservedPhase.marked = none ∧ b.reservedPhase.closed = none ∧
      b.reservedPhase.locks = [] ∧ b.reservedPhase.removes = none := by
  unfold RouteBinding.reservedPhase
  split <;> exact ⟨rfl, rfl, rfl, rfl, rfl, rfl⟩

theorem reservedPhase_ne_publishing (b b' : RouteBinding) (bound : MissionWorker) :
    b.reservedPhase ≠ .publishing b' bound := by
  unfold RouteBinding.reservedPhase
  split <;> exact fun h => by cases h

end RoutePhase

namespace MissionBinder

/-! ## Registries -/

/-- Every row of the second registry comes from one of the first, under the same worker. -/
def RowsFollow (a a' : Table Text ActiveRoute) : Prop :=
  ∀ w r', a'.get? w = some r' → ∃ r, a.get? w = some r ∧ r'.token = r.token ∧
    (r.closing = true → r'.closing = true)

theorem rowsFollow_refl (a : Table Text ActiveRoute) : RowsFollow a a :=
  fun _ r h => ⟨r, h, rfl, id⟩

variable {a : Table Text ActiveRoute} {next : ℕ} {p : RoutePhase}

theorem rowsFollow_update {p : Text → ActiveRoute → Bool} {f : Text → ActiveRoute → ActiveRoute}
    (htoken : ∀ w r, (f w r).token = r.token)
    (hclosing : ∀ w r, r.closing = true → (f w r).closing = true) :
    RowsFollow a (a.update p f) := by
  intro w r' h
  obtain ⟨r, hr, rfl⟩ := Table.get?_update_eq_some.mp h
  refine ⟨r, hr, ?_⟩
  split
  · exact ⟨htoken w r, hclosing w r⟩
  · exact ⟨rfl, id⟩

theorem rowsFollow_delete (a : Table Text ActiveRoute) (p : Text → ActiveRoute → Bool) :
    RowsFollow a (a.delete p) :=
  fun _ r h => ⟨r, (Table.get?_delete_eq_some.mp h).1, rfl, id⟩

/-- What a registry holds for a thread. -/
structure ThreadSound (a : Table Text ActiveRoute) (next : ℕ) (p : RoutePhase) : Prop where
  token : ∀ b, p.binding? = some b → b.token < next
  worker : ∀ b, p.binding? = some b → ∀ w r, a.get? w = some r → r.token = b.token →
    w = b.workerId
  placed : ∀ workerId t, p = .projecting workerId t → ∀ w r, a.get? w = some r → r.token = t →
    w = workerId
  marked : ∀ t, p.marked = some t → ∀ w r, a.get? w = some r → r.token = t → r.closing = true
  published : ∀ b bound, p = .publishing b bound → bound.id = b.workerId

theorem ThreadSound.follow {a' : Table Text ActiveRoute} (h : ThreadSound a next p)
    (hfollow : RowsFollow a a') : ThreadSound a' next p where
  token := h.token
  worker b hb w r' hr' htoken := by
    obtain ⟨r, hr, hsame, -⟩ := hfollow w r' hr'
    exact h.worker b hb w r hr (hsame.symm.trans htoken)
  placed workerId t hp w r' hr' htoken := by
    obtain ⟨r, hr, hsame, -⟩ := hfollow w r' hr'
    exact h.placed workerId t hp w r hr (hsame.symm.trans htoken)
  marked t ht w r' hr' htoken := by
    obtain ⟨r, hr, hsame, hclosing⟩ := hfollow w r' hr'
    exact hclosing (h.marked t ht w r hr (hsame.symm.trans htoken))
  published := h.published

theorem ThreadSound.goes {q : RoutePhase} (h : ThreadSound a next p) (hgoes : p.Goes q) :
    ThreadSound a next q where
  token b hb := by
    obtain ⟨b', hb', htoken, -⟩ := hgoes.binding b hb
    exact htoken ▸ h.token b' hb'
  worker b hb w r hr htoken := by
    obtain ⟨b', hb', hsame, hworker⟩ := hgoes.binding b hb
    rw [← hworker]
    exact h.worker b' hb' w r hr (htoken.trans hsame.symm)
  placed workerId t hq := by
    have hunread := hgoes.unread.2
    rw [hq] at hunread
    cases hunread
  marked t ht := h.marked t (hgoes.marked t ht)
  published := hgoes.published

theorem threadSound_of_bare (hp : p.Bare) : ThreadSound a next p where
  token b hb := by
    rw [hp.binding] at hb
    cases hb
  worker b hb := by
    rw [hp.binding] at hb
    cases hb
  placed workerId t hprojecting := by
    have hreads := hp.reads
    rw [hprojecting] at hreads
    cases hreads
  marked t ht := by
    rw [hp.marked] at ht
    cases ht
  published b bound heq := by
    have hbinding := hp.binding
    rw [heq] at hbinding
    cases hbinding

/-! ## What every step keeps -/

end MissionBinder

/-- The route is ready, not closing and that of the caller. -/
structure ActiveRoute.LentTo (route : ActiveRoute) (c : RouteCaller) : Prop where
  ready : route.ready = true
  closing : route.closing = false
  worker : route.worker.id = c.worker.id
  run : route.runId = Text.strip c.runId
  runtime : route.runtimeName = Text.strip c.runtimeName
  account : route.accountId = c.accountId
  tenant : route.tenantId = c.worker.tenant
  owner : route.ownerId = c.worker.owner

namespace MissionBinder

structure Sound (s : MissionBinder) : Prop where
  keyed : ∀ w r, s.active.get? w = some r → r.worker.id = w
  projected : ∀ e ∈ s.projected, e.2.LentTo e.1
  fresh : ∀ w r, s.active.get? w = some r → r.token < s.nextToken
  unique : ∀ w w' r r', s.active.get? w = some r → s.active.get? w' = some r' →
    r.token = r'.token → w = w'
  threads : ∀ (i : ℕ) (p : RoutePhase), s.calls[i]? = some p → ThreadSound s.active s.nextToken p
  readers : ∀ w r, s.active.get? w = some r →
    (Threads.held RoutePhase.reads s.calls).count r.token = r.readers
  unread : ∀ t, (∀ w r, s.active.get? w = some r → r.token ≠ t) →
    (Threads.held RoutePhase.reads s.calls).count t = 0
  closed : ∀ (i : ℕ) (p : RoutePhase), s.calls[i]? = some p → ∀ t, p.closed = some t →
    ∀ w r, s.active.get? w = some r → r.token = t → r.readers = 0
  locks : ∀ t, (Threads.held RoutePhase.locks s.calls).count t = s.locked.count t
  lockedOnce : s.locked.Nodup
  removes : ∀ (i : ℕ) (p : RoutePhase), s.calls[i]? = some p → ∀ t, p.removes = some t →
    t ∉ s.removed
  removedOnce : s.removed.Nodup

theorem sound_init (hasStore : Bool) : (init hasStore).Sound where
  keyed w r h := by simp [init] at h
  projected e h := by cases h
  fresh w r h := by simp [init] at h
  unique w w' r r' h := by simp [init] at h
  threads i p h := by simp [init] at h
  readers w r h := by simp [init] at h
  unread _ _ := rfl
  closed i p h := by simp [init] at h
  locks _ := rfl
  lockedOnce := List.nodup_nil
  removes i p h := by simp [init] at h
  removedOnce := List.nodup_nil

section Moves

variable {s : MissionBinder} {i t : ℕ} {p q : RoutePhase} {a : Table Text ActiveRoute}

/-- The move of a thread that reads what it read, with what it does to the cleanup locks. -/
theorem Sound.enters (hs : s.Sound) (hp : s.calls[i]? = some p)
    (hq : ThreadSound s.active s.nextToken q) (hreads : q.reads = p.reads)
    (hclosed : ∀ t, q.closed = some t → ∀ w r, s.active.get? w = some r → r.token = t →
      r.readers = 0) {locked removed : List ℕ}
    (hlocks : ∀ t, q.locks.count t + s.locked.count t = p.locks.count t + locked.count t)
    (honce : locked.Nodup)
    (hothers : ∀ (j : ℕ) (u : RoutePhase), j ≠ i → s.calls[j]? = some u → ∀ t,
      u.removes = some t → t ∉ removed)
    (hremoves : ∀ t, q.removes = some t → t ∉ removed) (hremoved : removed.Nodup) :
    MissionBinder.Sound { s.enter i q with locked, removed } where
  keyed := hs.keyed
  projected := hs.projected
  fresh := hs.fresh
  unique := hs.unique
  threads := Threads.forall_set hs.threads hq
  readers w r hr := by
    rw [enter_calls, Threads.count_held_set_of_eq hp hreads]
    exact hs.readers w r hr
  unread t ht := by
    rw [enter_calls, Threads.count_held_set_of_eq hp hreads]
    exact hs.unread t ht
  closed := Threads.forall_set hs.closed hclosed
  locks t := by
    have hcount := Threads.count_held_set RoutePhase.locks hp (q := q) t
    have hbefore := hs.locks t
    have hsame := hlocks t
    simp only [enter_calls]
    omega
  lockedOnce := honce
  removes j u hu t ht := by
    by_cases hj : i = j
    · subst hj
      rw [enter_calls, Threads.getElem?_set_self hp] at hu
      rw [← Option.some.inj hu] at ht
      exact hremoves t ht
    · rw [enter_calls, List.getElem?_set_ne hj] at hu
      exact hothers j u (Ne.symm hj) hu t ht
  removedOnce := hremoved

/-- A move that leaves the cleanup locks. -/
theorem Sound.moves (hs : s.Sound) (hp : s.calls[i]? = some p)
    (hq : ThreadSound s.active s.nextToken q) (hreads : q.reads = p.reads)
    (hclosed : ∀ t, q.closed = some t → ∀ w r, s.active.get? w = some r → r.token = t →
      r.readers = 0)
    (hlocks : q.locks = p.locks) (hremoves : ∀ t, q.removes = some t → t ∉ s.removed) :
    (s.enter i q).Sound :=
  hs.enters hp hq hreads hclosed (fun t => by rw [hlocks]) hs.lockedOnce
    (fun j u _ hu => hs.removes j u hu) hremoves hs.removedOnce

theorem Sound.goes (hs : s.Sound) (hp : s.calls[i]? = some p) (hgoes : p.Goes q) :
    (s.enter i q).Sound :=
  hs.moves hp ((hs.threads i p hp).goes hgoes) (hgoes.unread.2.trans hgoes.unread.1.symm)
    (fun t ht => hs.closed i p hp t (hgoes.closed t ht)) hgoes.locks
    (fun t ht => hs.removes i p hp t (hgoes.removes t ht))

theorem Sound.ends (hs : s.Sound) (hp : s.calls[i]? = some p) (hreads : p.reads = [])
    (hlocks : p.locks = []) (hq : q.Bare) : (s.enter i q).Sound :=
  hs.goes hp (.ends hreads hlocks hq)

/-- A new thread. -/
theorem Sound.begins (hs : s.Sound) (hq : ThreadSound s.active s.nextToken q)
    (hreads : q.reads = []) (hclosed : q.closed = none) (hlocks : q.locks = [])
    (hremoves : q.removes = none) :
    MissionBinder.Sound { s with calls := s.calls ++ [q] } where
  keyed := hs.keyed
  projected := hs.projected
  fresh := hs.fresh
  unique := hs.unique
  threads := Threads.forall_append hs.threads hq
  readers w r hr := by simpa [hreads] using hs.readers w r hr
  unread t ht := by simpa [hreads] using hs.unread t ht
  closed := Threads.forall_append hs.closed fun t ht => by
    rw [hclosed] at ht
    cases ht
  locks t := by simpa [hlocks] using hs.locks t
  lockedOnce := hs.lockedOnce
  removes := Threads.forall_append hs.removes fun t ht => by
    rw [hremoves] at ht
    cases ht
  removedOnce := hs.removedOnce

theorem Sound.fresh_follow (hs : s.Sound) (hfollow : RowsFollow s.active a) :
    ∀ w r, a.get? w = some r → r.token < s.nextToken := by
  intro w r' h
  obtain ⟨r, hr, hsame, -⟩ := hfollow w r' h
  exact hsame ▸ hs.fresh w r hr

theorem Sound.unique_follow (hs : s.Sound) (hfollow : RowsFollow s.active a) :
    ∀ w w' r r', a.get? w = some r → a.get? w' = some r' →
      r.token = r'.token → w = w' := by
  intro w w' r₁ r₂ h₁ h₂ heq
  obtain ⟨r, hr, hsame, -⟩ := hfollow w r₁ h₁
  obtain ⟨r', hr', hsame', -⟩ := hfollow w' r₂ h₂
  exact hs.unique w w' r r' hr hr' (by rw [← hsame, ← hsame', heq])

/-- A change of rows that keeps tokens, readers and marks. -/
theorem Sound.updates (hs : s.Sound) {f : Text → ActiveRoute → ActiveRoute}
    (p : Text → ActiveRoute → Bool)
    (hkeyed : ∀ w r, p w r = true → r.worker.id = w → (f w r).worker.id = w)
    (htoken : ∀ w r, (f w r).token = r.token)
    (hreaders : ∀ w r, (f w r).readers = r.readers)
    (hclosing : ∀ w r, r.closing = true → (f w r).closing = true) :
    MissionBinder.Sound { s with active := s.active.update p f } := by
  have hfollow : RowsFollow s.active (s.active.update p f) := rowsFollow_update htoken hclosing
  have hrow : ∀ {w r'}, (s.active.update p f).get? w = some r' →
      ∃ r, s.active.get? w = some r ∧ r'.token = r.token ∧ r'.readers = r.readers := by
    intro w r' h
    obtain ⟨r, hr, rfl⟩ := Table.get?_update_eq_some.mp h
    refine ⟨r, hr, ?_⟩
    split
    · exact ⟨htoken w r, hreaders w r⟩
    · exact ⟨rfl, rfl⟩
  exact {
    keyed := fun w r' h => by
      obtain ⟨r, hr, rfl⟩ := Table.get?_update_eq_some.mp h
      split
      · rename_i hpr
        exact hkeyed w r hpr (hs.keyed w r hr)
      · exact hs.keyed w r hr
    projected := hs.projected
    fresh := hs.fresh_follow hfollow
    unique := hs.unique_follow hfollow
    threads := fun i p hp => (hs.threads i p hp).follow hfollow
    readers := fun w r' h => by
      obtain ⟨r, hr, hsame, hsameReaders⟩ := hrow h
      rw [hsame, hsameReaders]
      exact hs.readers w r hr
    unread := fun t ht => hs.unread t fun w r hr htok => by
      have hnew := Table.get?_update s.active p f w
      rw [hr, Option.map_some] at hnew
      refine ht w _ hnew ?_
      split
      · exact (htoken w r).trans htok
      · exact htok
    closed := fun i p hp t ht w r' h htok => by
      obtain ⟨r, hr, hsame, hsameReaders⟩ := hrow h
      rw [hsameReaders]
      exact hs.closed i p hp t ht w r hr (hsame.symm.trans htok)
    locks := hs.locks
    lockedOnce := hs.lockedOnce
    removes := hs.removes
    removedOnce := hs.removedOnce }

/-! ### The registry -/

theorem exists_binding_of_marked (h : p.marked = some t) :
    ∃ b, p.binding? = some b ∧ b.token = t := by
  cases p with
  | closing b =>
    refine ⟨b, rfl, ?_⟩
    simp only [RoutePhase.marked] at h
    split at h
    · exact Option.some.inj h
    · cases h
  | _ => cases h

theorem marked_of_closed (h : p.closed = some t) : p.marked = some t := by
  cases p with
  | closing b reason stage => cases stage <;> first | exact h | cases h
  | _ => cases h

/-- The token of a thread is not the next one. -/
theorem ThreadSound.marked_lt {next : ℕ} (h : ThreadSound a next p) (ht : p.marked = some t) :
    t < next := by
  obtain ⟨b, hb, rfl⟩ := exists_binding_of_marked ht
  exact h.token b hb

theorem sound_reserve (hs : s.Sound) {r : RouteRequest} (hp : s.calls[i]? = some (.reserving r)) :
    (s.reserve i r).Sound := by
  unfold reserve
  split
  · exact hs.ends hp rfl rfl (RoutePhase.bare_done _)
  split
  · exact hs.ends hp rfl rfl (RoutePhase.bare_done _)
  rename_i active hinsert
  have hget := Table.get?_insert hinsert
  -- a row of the new registry is the new route, under a token of its own, or an earlier one
  have hrows : ∀ {w v}, active.get? w = some v →
      (w = r.worker.id ∧ v = s.newRoute r) ∨ (w ≠ r.worker.id ∧ s.active.get? w = some v) := by
    intro w v hv
    rw [hget] at hv
    split at hv
    · rename_i hw
      exact Or.inl ⟨hw, (Option.some.inj hv).symm⟩
    · rename_i hw
      exact Or.inr ⟨hw, hv⟩
  have hnone : ∀ w v, s.active.get? w = some v → v.token ≠ s.nextToken :=
    fun w v hv => Nat.ne_of_lt (hs.fresh w v hv)
  have hunread : (Threads.held RoutePhase.reads s.calls).count s.nextToken = 0 :=
    hs.unread _ hnone
  obtain ⟨hbinding, hreads, hmarked, hclosed, hlocks, hremoves⟩ :=
    RoutePhase.reservedPhase_holds { request := r, token := s.nextToken }
  exact {
    keyed := fun w v hv => by
      rcases hrows hv with ⟨rfl, rfl⟩ | ⟨-, hold⟩
      · rfl
      · exact hs.keyed w v hold
    projected := hs.projected
    fresh := fun w v hv => by
      rcases hrows hv with ⟨-, rfl⟩ | ⟨-, hold⟩
      · exact Nat.lt_succ_self _
      · exact Nat.lt_succ_of_lt (hs.fresh w v hold)
    unique := fun w w' v v' hv hv' htok => by
      rcases hrows hv with ⟨rfl, rfl⟩ | ⟨-, hold⟩ <;>
        rcases hrows hv' with ⟨rfl, rfl⟩ | ⟨-, hold'⟩
      · rfl
      · exact absurd htok.symm (hnone w' v' hold')
      · exact absurd htok (hnone w v hold)
      · exact hs.unique w w' v v' hold hold' htok
    threads := by
      refine Threads.forall_set (fun j u hu => ?_) ?_
      · have hthread := hs.threads j u hu
        refine ⟨fun b hb => Nat.lt_succ_of_lt (hthread.token b hb), fun b hb w v hv htok => ?_,
          fun workerId t hprojecting w v hv htok => ?_, fun t ht w v hv htok => ?_,
          hthread.published⟩
        · rcases hrows hv with ⟨rfl, rfl⟩ | ⟨-, hold⟩
          · exact absurd htok.symm (Nat.ne_of_lt (hthread.token b hb))
          · exact hthread.worker b hb w v hold htok
        · rcases hrows hv with ⟨rfl, rfl⟩ | ⟨-, hold⟩
          · -- nobody reads the next route
            have hread : t ∈ Threads.held RoutePhase.reads s.calls :=
              Threads.mem_held.mpr ⟨j, u, hu, by rw [hprojecting]; exact List.mem_singleton_self t⟩
            have hcount := List.count_pos_iff.mpr hread
            rw [← htok] at hcount
            exact absurd hunread (Nat.ne_of_gt hcount)
          · exact hthread.placed workerId t hprojecting w v hold htok
        · rcases hrows hv with ⟨rfl, rfl⟩ | ⟨-, hold⟩
          · exact absurd htok.symm (Nat.ne_of_lt (hthread.marked_lt ht))
          · exact hthread.marked t ht w v hold htok
      · refine ⟨fun b hb => ?_, fun b hb w v hv htok => ?_, fun workerId t hprojecting => ?_,
          fun t ht => ?_, fun b bound heq => ?_⟩
        · rw [hbinding] at hb
          obtain rfl := Option.some.inj hb
          exact Nat.lt_succ_self _
        · rw [hbinding] at hb
          obtain rfl := Option.some.inj hb
          rcases hrows hv with ⟨rfl, -⟩ | ⟨-, hold⟩
          · rfl
          · exact absurd htok (hnone w v hold)
        · rw [hprojecting] at hreads
          cases hreads
        · rw [hmarked] at ht
          cases ht
        · exact absurd heq (RoutePhase.reservedPhase_ne_publishing _ b bound)
    readers := fun w v hv => by
      rw [enter_calls, Threads.count_held_set_of_eq hp hreads]
      rcases hrows hv with ⟨-, rfl⟩ | ⟨-, hold⟩
      · exact hunread
      · exact hs.readers w v hold
    unread := fun t ht => by
      rw [enter_calls, Threads.count_held_set_of_eq hp hreads]
      exact hs.unread t fun w v hv => ht w v (Table.get?_insert_of_some hinsert hv)
    closed := by
      refine Threads.forall_set (fun j u hu t ht w v hv htok => ?_) fun t ht => ?_
      · rcases hrows hv with ⟨rfl, rfl⟩ | ⟨-, hold⟩
        · rfl
        · exact hs.closed j u hu t ht w v hold htok
      · rw [hclosed] at ht
        cases ht
    locks := fun t => by
      rw [enter_calls, Threads.count_held_set_of_eq hp hlocks]
      exact hs.locks t
    lockedOnce := hs.lockedOnce
    removes := Threads.forall_set hs.removes fun t ht => by
      rw [hremoves] at ht
      cases ht
    removedOnce := hs.removedOnce }

/-- The worker of a projection has no other route of the token, so one row gains the reader. -/
theorem sound_borrow (hs : s.Sound) {c : RouteCaller} {token : Option ℕ}
    {leaseId : Text} (hp : s.calls[i]? = some (.borrowing c token leaseId)) :
    (s.borrow i c token leaseId).Sound := by
  unfold borrow
  split
  swap
  · exact hs.ends hp rfl rfl (RoutePhase.bare_done _)
  split
  swap
  · exact hs.ends hp rfl rfl (RoutePhase.bare_done _)
  rename_i route hroute hlends
  have hlent : route.LentTo c := by
    simp only [ActiveRoute.lends, Bool.and_eq_true, Bool.not_eq_true', beq_iff_eq] at hlends
    obtain ⟨⟨⟨⟨⟨⟨⟨⟨-, hopen⟩, hready⟩, hrun⟩, hruntime⟩, haccount⟩, htenant⟩, howner⟩, -⟩ := hlends
    exact ⟨hready, hopen, hs.keyed _ _ hroute, hrun, hruntime, haccount, htenant, howner⟩
  have hcount := Threads.count_held_set RoutePhase.reads hp
    (q := .projecting c.worker.id route.token)
  simp only [RoutePhase.reads, List.count_nil] at hcount
  have hrow : ∀ {w r'}, (s.active.update (fun workerId _ => workerId == c.worker.id) fun _ route =>
      { route with readers := route.readers + 1 }).get? w = some r' →
      (w = c.worker.id ∧ r' = { route with readers := route.readers + 1 }) ∨
        (w ≠ c.worker.id ∧ s.active.get? w = some r' ∧ r'.token ≠ route.token) := by
    intro w r' h
    obtain ⟨r, hr, rfl⟩ := Table.get?_update_eq_some.mp h
    by_cases hw : w = c.worker.id
    · subst hw
      rw [hroute] at hr
      obtain rfl := Option.some.inj hr
      simp
    · refine Or.inr ⟨hw, ?_⟩
      have hne : r.token ≠ route.token := fun htok => hw (hs.unique _ _ r route hr hroute htok)
      simp [hw, hr, hne]
  have hfollow : RowsFollow s.active (s.active.update (fun workerId _ => workerId == c.worker.id)
      fun _ route => { route with readers := route.readers + 1 }) :=
    rowsFollow_update (fun _ _ => rfl) fun _ _ h => h
  exact {
    keyed := fun w r' h => by
      rcases hrow h with ⟨rfl, rfl⟩ | ⟨-, hold, -⟩
      · exact hs.keyed _ route hroute
      · exact hs.keyed w r' hold
    projected := fun e he => by
      rcases List.mem_cons.mp he with rfl | he
      · exact hlent
      · exact hs.projected e he
    fresh := hs.fresh_follow hfollow
    unique := hs.unique_follow hfollow
    threads := by
      refine Threads.forall_set (fun j u hu => (hs.threads j u hu).follow hfollow) ?_
      exact {
        token := fun b hb => by cases hb
        worker := fun b hb => by cases hb
        placed := fun workerId t heq w r' h htok => by
          cases heq
          rcases hrow h with ⟨hw, -⟩ | ⟨-, -, hne⟩
          · exact hw
          · exact absurd htok hne
        marked := fun t ht => by cases ht
        published := fun b bound heq => by cases heq }
    readers := fun w r' h => by
      have hafter := hcount r'.token
      rw [enter_calls]
      rcases hrow h with ⟨rfl, rfl⟩ | ⟨-, hold, hne⟩
      · have hbefore := hs.readers _ route hroute
        simp only [List.count_singleton_self] at hafter
        simp only
        omega
      · have hbefore := hs.readers w r' hold
        rw [List.count_singleton, if_neg (by simpa using Ne.symm hne)] at hafter
        omega
    unread := fun t ht => by
      have hnone : ∀ w r, s.active.get? w = some r → r.token ≠ t := by
        intro w r hr htok
        have hnew := Table.get?_update s.active (fun workerId _ => workerId == c.worker.id)
          (fun _ route => { route with readers := route.readers + 1 }) w
        rw [hr, Option.map_some] at hnew
        refine ht w _ hnew ?_
        split <;> exact htok
      have hbefore := hs.unread t hnone
      have hafter := hcount t
      have hne : route.token ≠ t := hnone _ _ hroute
      rw [List.count_singleton, if_neg (by simpa using hne)] at hafter
      rw [enter_calls]
      omega
    closed := by
      refine Threads.forall_set (fun j u hu t ht w r' h htok => ?_) fun t ht => by cases ht
      rcases hrow h with ⟨-, rfl⟩ | ⟨-, hold, -⟩
      · -- a closed route is marked, and is not lent
        have hmarked := (hs.threads j u hu).marked t (marked_of_closed ht) _ route hroute htok
        rw [hlent.closing] at hmarked
        cases hmarked
      · exact hs.closed j u hu t ht w r' hold htok
    locks := fun t => by
      have hsame : (RoutePhase.projecting c.worker.id route.token).locks =
        (RoutePhase.borrowing c token leaseId).locks := rfl
      rw [enter_calls, Threads.count_held_set_of_eq hp hsame]
      exact hs.locks t
    lockedOnce := hs.lockedOnce
    removes := Threads.forall_set hs.removes fun t ht => by cases ht
    removedOnce := hs.removedOnce }

theorem sound_giveBack (hs : s.Sound) {workerId : Text} {token : ℕ}
    (hp : s.calls[i]? = some (.projecting workerId token)) (result : Except RouteError Unit) :
    (s.giveBack i workerId token result).Sound := by
  unfold giveBack
  have hcount := Threads.count_held_set RoutePhase.reads hp (q := .done result)
  simp only [RoutePhase.reads, List.count_nil] at hcount
  have hplaced := (hs.threads i _ hp).placed workerId token rfl
  have hfollow : RowsFollow s.active (s.active.update (fun id route => id == workerId &&
      route.token == token) fun _ route => { route with readers := route.readers - 1 }) :=
    rowsFollow_update (fun _ _ => rfl) fun _ _ h => h
  have hrow : ∀ {w r'}, (s.active.update (fun id route => id == workerId && route.token == token)
      fun _ route => { route with readers := route.readers - 1 }).get? w = some r' →
      ∃ r, s.active.get? w = some r ∧ r'.worker = r.worker ∧ r'.token = r.token ∧
        r'.readers = r.readers - if r.token = token then 1 else 0 := by
    intro w r' h
    obtain ⟨r, hr, rfl⟩ := Table.get?_update_eq_some.mp h
    refine ⟨r, hr, ?_⟩
    by_cases htok : r.token = token
    · have hw := hplaced w r hr htok
      simp [hw, htok]
    · simp [htok]
  exact {
    keyed := fun w r' h => by
      obtain ⟨r, hr, hworker, -⟩ := hrow h
      rw [hworker]
      exact hs.keyed w r hr
    projected := hs.projected
    fresh := hs.fresh_follow hfollow
    unique := hs.unique_follow hfollow
    threads := Threads.forall_set (fun j u hu => (hs.threads j u hu).follow hfollow)
      (threadSound_of_bare (RoutePhase.bare_done _))
    readers := fun w r' h => by
      obtain ⟨r, hr, -, hsame, hreaders⟩ := hrow h
      have hbefore := hs.readers w r hr
      have hafter := hcount r.token
      rw [enter_calls, hsame, hreaders]
      rw [List.count_singleton] at hafter
      by_cases htok : r.token = token
      · rw [if_pos (by simp [htok])] at hafter
        rw [if_pos htok]
        omega
      · rw [if_neg (by simpa using Ne.symm htok)] at hafter
        rw [if_neg htok]
        omega
    unread := fun t ht => by
      have hbefore := hs.unread t fun w r hr htok => by
        have hnew := Table.get?_update s.active
          (fun id route => id == workerId && route.token == token)
          (fun _ route => { route with readers := route.readers - 1 }) w
        rw [hr, Option.map_some] at hnew
        refine ht w _ hnew ?_
        split <;> exact htok
      have hafter := hcount t
      rw [enter_calls]
      omega
    closed := by
      refine Threads.forall_set (fun j u hu t ht w r' h htok => ?_) fun t ht => by cases ht
      obtain ⟨r, hr, -, hsame, hreaders⟩ := hrow h
      have hzero := hs.closed j u hu t ht w r hr (hsame.symm.trans htok)
      rw [hreaders, hzero]
      omega
    locks := fun t => by
      have hsame : (RoutePhase.done result).locks =
        (RoutePhase.projecting workerId token).locks := rfl
      rw [enter_calls, Threads.count_held_set_of_eq hp hsame]
      exact hs.locks t
    lockedOnce := hs.lockedOnce
    removes := Threads.forall_set hs.removes fun t ht => by cases ht
    removedOnce := hs.removedOnce }

/-- A route that is removed has no readers. -/
theorem sound_finalize (hs : s.Sound) {b : RouteBinding} {reason : CloseReason}
    {raised : Option RouteError} (hp : s.calls[i]? = some (.closing b reason .finalize raised))
    (hq : q.Bare) : MissionBinder.Sound { s.enter i q with active := s.active.delete b.owns } where
  keyed w r h := hs.keyed w r (Table.get?_delete_eq_some.mp h).1
  projected := hs.projected
  fresh := hs.fresh_follow (rowsFollow_delete _ _)
  unique := hs.unique_follow (rowsFollow_delete _ _)
  threads := Threads.forall_set
    (fun j u hu => (hs.threads j u hu).follow (rowsFollow_delete _ _)) (threadSound_of_bare hq)
  readers w r h := by
    rw [enter_calls, Threads.count_held_set_of_eq hp hq.reads]
    exact hs.readers w r (Table.get?_delete_eq_some.mp h).1
  unread t ht := by
    rw [enter_calls, Threads.count_held_set_of_eq hp hq.reads]
    by_cases hex : ∃ w r, s.active.get? w = some r ∧ r.token = t
    · obtain ⟨w, r, hr, rfl⟩ := hex
      by_cases hown : b.owns w r = true
      · have htok : r.token = b.token := by
          simp only [RouteBinding.owns, Bool.and_eq_true, beq_iff_eq] at hown
          exact hown.2
        have hzero := hs.closed i _ hp b.token rfl w r hr htok
        exact (hs.readers w r hr).trans hzero
      · rw [Bool.not_eq_true] at hown
        exact absurd rfl (ht w r (Table.get?_delete_eq_some.mpr ⟨hr, hown⟩))
    · refine hs.unread t fun w r hr htok => hex ⟨w, r, hr, htok⟩
  closed := Threads.forall_set
    (fun j u hu t ht w r h => hs.closed j u hu t ht w r (Table.get?_delete_eq_some.mp h).1)
    fun t ht => by
      rw [hq.closed] at ht
      cases ht
  locks t := by
    rw [enter_calls, Threads.count_held_set_of_eq hp hq.locks]
    exact hs.locks t
  lockedOnce := hs.lockedOnce
  removes := Threads.forall_set hs.removes fun t ht => by
    rw [hq.removes] at ht
    cases ht
  removedOnce := hs.removedOnce

end Moves

end MissionBinder

end GlassHive
