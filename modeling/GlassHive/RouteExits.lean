import GlassHive.RouteSteps

/-!
# Exits of a binding

A call that reserved a route removes it, and attempts to release the lease that it acquired, before
it returns or raises; unless an exception leaves the preparation of the binding where no handler is.
-/

namespace GlassHive

open Relational Transition

namespace RoutePhase

/-- The route that the call is to remove. -/
def carries : RoutePhase → Option ℕ
  | .unboundBody b | .acquiring b | .leased b | .preparing b | .quarantining b | .returning b
  | .resolving b _ | .publishing b _ | .starting b | .body b => some b.token
  | .closing b reason _ _ => if reason = .abort then none else some b.token
  | _ => none

/-- The route whose lease the call is to release. -/
def owes : RoutePhase → Option ℕ
  | .leased b | .preparing b | .quarantining b | .returning b | .resolving b _ | .publishing b _
  | .starting b | .body b => some b.token
  | .closing b reason stage _ =>
    if (reason = .startFailed ∨ reason = .exit) ∧ stage ≠ .finalize then some b.token else none
  | _ => none

/-- The binding that no heartbeat works for yet, and that relies on its route. -/
def early : RoutePhase → Option RouteBinding
  | .acquiring b | .leased b | .preparing b | .resolving b _ | .publishing b _ => some b
  | _ => none

variable {p q : RoutePhase} {b : RouteBinding}

theorem binding_of_early (h : p.early = some b) : p.binding? = some b := by
  cases p <;> first | exact h | cases h

theorem early_of_bare (h : p.Bare) : p.early = none := by
  cases hearly : p.early with
  | none => rfl
  | some =>
    have hbinding := binding_of_early hearly
    rw [h.binding] at hbinding
    cases hbinding

/-- The phase `q` is to do what `p` is, and relies on no other binding. -/
structure Keeps (p q : RoutePhase) : Prop where
  carries : ∀ t, p.carries = some t → q.carries = some t
  owes : ∀ t, p.owes = some t → q.owes = some t
  early : ∀ b, q.early = some b →
    ∃ b', p.early = some b' ∧ b'.token = b.token ∧ b'.workerId = b.workerId
  binding : ∀ b, q.binding? = some b → ∃ b', p.binding? = some b' ∧ b'.token = b.token

theorem Keeps.of (hcarries : p.carries = none ∨ q.carries = p.carries)
    (howes : p.owes = none ∨ q.owes = p.owes) (hearly : q.early = none ∨ q.early = p.early)
    (hbinding : q.binding? = none ∨ q.binding? = p.binding?) : p.Keeps q where
  carries t ht := hcarries.elim (fun h => by simp [h] at ht) fun h => h.trans ht
  owes t ht := howes.elim (fun h => by simp [h] at ht) fun h => h.trans ht
  early b hb := hearly.elim (fun h => by simp [h] at hb) fun h => ⟨b, h ▸ hb, rfl, rfl⟩
  binding b hb := hbinding.elim (fun h => by simp [h] at hb) fun h => ⟨b, h ▸ hb, rfl⟩

theorem Keeps.late (hcarries : q.carries = p.carries) (howes : q.owes = p.owes)
    (hearly : q.early = none) (hbinding : q.binding? = p.binding?) : p.Keeps q :=
  .of (.inr hcarries) (.inr howes) (.inl hearly) (.inr hbinding)

/-- A call that waits for its readers, or goes on, keeps what it owes. -/
theorem keeps_closing {reason : CloseReason} {stage stage' : CloseStage}
    {raised raised' : Option RouteError} (hstage : stage' = .finalize → stage = .finalize ∨
      ¬(reason = .startFailed ∨ reason = .exit)) :
    (closing b reason stage raised).Keeps (closing b reason stage' raised') where
  carries _ h := h
  owes t h := by
    simp only [owes] at h ⊢
    split at h
    · rename_i howes
      rw [if_pos]
      · exact h
      · refine ⟨howes.1, fun heq => ?_⟩
        rcases hstage heq with hold | hnot
        · exact howes.2 hold
        · exact hnot howes.1
    · cases h
  early _ h := by cases h
  binding b' h := ⟨b', h, rfl⟩

end RoutePhase

namespace MissionBinder

/-- No route of the token is registered. -/
def Gone (a : Table Text ActiveRoute) (t : ℕ) : Prop :=
  ∀ w r, a.get? w = some r → r.token ≠ t

/-- The routes and leases that calls are still to remove and release. -/
structure Exits (s : MissionBinder) : Prop where
  known : ∀ e ∈ s.reserved, e.2 < s.nextToken
  reserved : ∀ e ∈ s.reserved, ∃ p : RoutePhase, s.calls[e.1]? = some p ∧
    (p.carries = some e.2 ∨ Gone s.active e.2)
  acquired : ∀ e ∈ s.acquired, ∃ p : RoutePhase, s.calls[e.1]? = some p ∧
    (p.owes = some e.2 ∨ e.2 ∈ s.releases)
  registered : ∀ (i : ℕ) (p : RoutePhase), s.calls[i]? = some p → ∀ b, p.early = some b →
    s.registered b = true
  alone : ∀ (i j : ℕ) (p q : RoutePhase), s.calls[i]? = some p → s.calls[j]? = some q →
    ∀ b b', p.early = some b → q.binding? = some b' → b'.token = b.token → j = i

theorem exits_init (hasStore : Bool) : (init hasStore).Exits where
  known e h := by cases h
  reserved e h := by cases h
  acquired e h := by cases h
  registered i p h := by simp [init] at h
  alone i j p q h := by simp [init] at h

theorem RowsFollow.gone {a a' : Table Text ActiveRoute} {t : ℕ} (h : RowsFollow a a')
    (hgone : Gone a t) : Gone a' t := by
  intro w r' hr'
  obtain ⟨r, hr, hsame, -⟩ := h w r' hr'
  rw [hsame]
  exact hgone w r hr

section Moves

variable {s : MissionBinder} {i : ℕ} {p q : RoutePhase} {f : Text → ActiveRoute → ActiveRoute}

/-- The move of a call that keeps, or does, what it is to do. -/
theorem Exits.moves (he : s.Exits) (hp : s.calls[i]? = some p) {a : Table Text ActiveRoute}
    {releases : List ℕ} (hfollow : RowsFollow s.active a)
    (hcarries : ∀ t, p.carries = some t → q.carries = some t ∨ Gone a t)
    (howes : ∀ t, p.owes = some t → q.owes = some t ∨ t ∈ releases)
    (hreleases : ∀ t ∈ s.releases, t ∈ releases)
    (hearly : ∀ b, q.early = some b →
      ∃ b', p.early = some b' ∧ b'.token = b.token ∧ b'.workerId = b.workerId)
    (hbinding : ∀ b, q.binding? = some b → ∃ b', p.binding? = some b' ∧ b'.token = b.token)
    (hregistered : ∀ (j : ℕ) (u : RoutePhase), s.calls[j]? = some u → ∀ b, u.early = some b →
      (j = i → q.early ≠ none) → a.any b.owns = true) :
    MissionBinder.Exits { s.enter i q with active := a, releases } where
  known := he.known
  reserved e h := by
    obtain ⟨u, hu, hold⟩ := he.reserved e h
    by_cases hi : i = e.1
    · subst hi
      rw [hp] at hu
      obtain rfl := Option.some.inj hu
      refine ⟨q, Threads.getElem?_set_self hp, ?_⟩
      rcases hold with hold | hgone
      · exact hcarries _ hold
      · exact Or.inr (hfollow.gone hgone)
    · refine ⟨u, by rwa [enter_calls, List.getElem?_set_ne hi], ?_⟩
      exact hold.imp_right hfollow.gone
  acquired e h := by
    obtain ⟨u, hu, hold⟩ := he.acquired e h
    by_cases hi : i = e.1
    · subst hi
      rw [hp] at hu
      obtain rfl := Option.some.inj hu
      refine ⟨q, Threads.getElem?_set_self hp, ?_⟩
      rcases hold with hold | hreleased
      · exact howes _ hold
      · exact Or.inr (hreleases _ hreleased)
    · refine ⟨u, by rwa [enter_calls, List.getElem?_set_ne hi], ?_⟩
      exact hold.imp_right (hreleases _)
  registered j u hu b hb := by
    by_cases hi : i = j
    · subst hi
      rw [enter_calls, Threads.getElem?_set_self hp] at hu
      obtain rfl := Option.some.inj hu
      obtain ⟨b', hb', htoken, hworker⟩ := hearly b hb
      have hkept := hregistered i p hp b' hb' fun _ hnone => by
        rw [hnone] at hb
        cases hb
      have hsame : b'.owns = b.owns := by
        funext w r
        simp [RouteBinding.owns, htoken, hworker]
      rwa [hsame] at hkept
    · rw [enter_calls, List.getElem?_set_ne hi] at hu
      exact hregistered j u hu b hb fun hj => absurd hj.symm hi
  alone j k u v hu hv b b' hb hb' htoken := by
    -- either thread may be the one that moved
    have hback : ∀ {j : ℕ} {u : RoutePhase}, (s.calls.set i q)[j]? = some u →
        ∃ u' : RoutePhase, s.calls[j]? = some u' ∧
        (∀ b, u.early = some b → ∃ b', u'.early = some b' ∧ b'.token = b.token) ∧
        ∀ b, u.binding? = some b → ∃ b', u'.binding? = some b' ∧ b'.token = b.token := by
      intro j u hu
      by_cases hi : i = j
      · subst hi
        rw [Threads.getElem?_set_self hp] at hu
        obtain rfl := Option.some.inj hu
        refine ⟨p, hp, fun b hb => ?_, hbinding⟩
        obtain ⟨b', hb', htoken, -⟩ := hearly b hb
        exact ⟨b', hb', htoken⟩
      · rw [List.getElem?_set_ne hi] at hu
        exact ⟨u, hu, fun b hb => ⟨b, hb, rfl⟩, fun b hb => ⟨b, hb, rfl⟩⟩
    obtain ⟨u', hu', hearly', -⟩ := hback hu
    obtain ⟨v', hv', -, hbinding'⟩ := hback hv
    obtain ⟨b₁, hb₁, htoken₁⟩ := hearly' b hb
    obtain ⟨b₂, hb₂, htoken₂⟩ := hbinding' b' hb'
    exact he.alone j k u' v' hu' hv' b₁ b₂ hb₁ hb₂ (by rw [htoken₁, htoken₂, htoken])

/-- A move that leaves the registry. -/
theorem Exits.goes (he : s.Exits) (hp : s.calls[i]? = some p) (h : p.Keeps q) :
    (s.enter i q).Exits :=
  he.moves hp (rowsFollow_refl _) (fun t ht => Or.inl (h.carries t ht))
    (fun t ht => Or.inl (h.owes t ht)) (fun _ h => h) h.early h.binding
    fun j u hu b hb _ => he.registered j u hu b hb

/-- The end of a thread that is to do nothing more. -/
theorem Exits.ends (he : s.Exits) (hp : s.calls[i]? = some p) (hcarries : p.carries = none)
    (howes : p.owes = none) (hq : q.Bare) : (s.enter i q).Exits := by
  exact he.goes hp (.of (.inl hcarries) (.inl howes) (.inl (RoutePhase.early_of_bare hq))
    (.inl hq.binding))

theorem registered_update {b : RouteBinding} (p : Text → ActiveRoute → Bool)
    (htoken : ∀ w r, (f w r).token = r.token) (h : s.registered b = true) :
    (s.active.update p f).any b.owns = true := by
  obtain ⟨w, r, hr, hown⟩ := Table.any_eq_true.mp h
  have hnew := Table.get?_update s.active p f w
  rw [hr, Option.map_some] at hnew
  refine Table.any_eq_true.mpr ⟨w, _, hnew, ?_⟩
  split
  · simpa only [RouteBinding.owns, htoken] using hown
  · exact hown

/-- A move with a change of rows that keeps tokens. -/
theorem Exits.updates (he : s.Exits) (hp : s.calls[i]? = some p) (P : Text → ActiveRoute → Bool)
    (htoken : ∀ w r, (f w r).token = r.token)
    (hclosing : ∀ w r, r.closing = true → (f w r).closing = true) (h : p.Keeps q) :
    MissionBinder.Exits { s.enter i q with active := s.active.update P f } :=
  he.moves hp (rowsFollow_update htoken hclosing) (fun t ht => Or.inl (h.carries t ht))
    (fun t ht => Or.inl (h.owes t ht)) (fun _ h => h) h.early h.binding
    fun j u hu b hb _ => registered_update P htoken (he.registered j u hu b hb)

/-! ### Reserving and removing a route -/

theorem exits_reserve (hs : s.Sound) (he : s.Exits) {r : RouteRequest}
    (hp : s.calls[i]? = some (.reserving r)) : (s.reserve i r).Exits := by
  unfold reserve
  split
  · exact he.ends hp rfl rfl (RoutePhase.bare_done _)
  split
  · exact he.ends hp rfl rfl (RoutePhase.bare_done _)
  rename_i active hinsert
  obtain ⟨hfree, -⟩ := Table.insert?_eq_some hinsert
  have hget := Table.get?_insert hinsert
  generalize hb : ({ request := r, token := s.nextToken } : RouteBinding) = b
  have hbtoken : b.token = s.nextToken := by rw [← hb]
  have hbworker : b.workerId = r.worker.id := by
    rw [← hb]
    rfl
  obtain ⟨hbinding, -⟩ := RoutePhase.reservedPhase_holds b
  have hearly : ∀ b', b.reservedPhase.early = some b' → b' = b := by
    intro b' hb'
    have hsame := RoutePhase.binding_of_early hb'
    rw [hbinding] at hsame
    exact (Option.some.inj hsame).symm
  have hcarries : b.reservedPhase.carries = some b.token := by
    unfold RouteBinding.reservedPhase
    split <;> rfl
  -- a token that was given before is still gone, and a registered route still there
  have hgone : ∀ t, t < s.nextToken → Gone s.active t → Gone active t := by
    intro t ht hold w v hv
    rw [hget] at hv
    split at hv
    · obtain rfl := Option.some.inj hv
      exact (Nat.ne_of_lt ht).symm
    · exact hold w v hv
  have hkept : ∀ b', s.registered b' = true → active.any b'.owns = true := by
    intro b' hb'
    obtain ⟨w, v, hv, hown⟩ := Table.any_eq_true.mp hb'
    exact Table.any_eq_true.mpr ⟨w, v, Table.get?_insert_of_some hinsert hv, hown⟩
  have hother : ∀ (j : ℕ) (u : RoutePhase), s.calls[j]? = some u → ∀ b', u.binding? = some b' →
      b'.token ≠ b.token := fun j u hu b' hb' => by
    rw [hbtoken]
    exact Nat.ne_of_lt ((hs.threads j u hu).token b' hb')
  exact {
    known := fun e hmem => by
      rcases List.mem_cons.mp hmem with rfl | hmem'
      · exact Nat.lt_succ_self _
      · exact Nat.lt_succ_of_lt (he.known e hmem')
    reserved := fun e hmem => by
      rcases List.mem_cons.mp hmem with rfl | hmem'
      · refine ⟨b.reservedPhase, Threads.getElem?_set_self hp, Or.inl ?_⟩
        rw [hcarries, hbtoken]
      obtain ⟨u, hu, hold⟩ := he.reserved e hmem'
      by_cases hi : i = e.1
      · subst hi
        rw [hp] at hu
        obtain rfl := Option.some.inj hu
        refine ⟨b.reservedPhase, Threads.getElem?_set_self hp, Or.inr ?_⟩
        rcases hold with hold | hold
        · cases hold
        · exact hgone _ (he.known e hmem') hold
      · refine ⟨u, by rwa [enter_calls, List.getElem?_set_ne hi], ?_⟩
        exact hold.imp_right (hgone _ (he.known e hmem'))
    acquired := fun e h => by
      obtain ⟨u, hu, hold⟩ := he.acquired e h
      by_cases hi : i = e.1
      · subst hi
        rw [hp] at hu
        obtain rfl := Option.some.inj hu
        refine ⟨b.reservedPhase, Threads.getElem?_set_self hp, Or.inr ?_⟩
        rcases hold with hold | hold
        · cases hold
        · exact hold
      · exact ⟨u, by rwa [enter_calls, List.getElem?_set_ne hi], hold⟩
    registered := Threads.forall_set
      (fun j u hu b' hb' => hkept b' (he.registered j u hu b' hb')) fun b' hb' => by
        obtain rfl := hearly b' hb'
        refine Table.any_eq_true.mpr ⟨r.worker.id, s.newRoute r, ?_, ?_⟩
        · rw [hget, if_pos rfl]
        · simp [RouteBinding.owns, hbworker, hbtoken, newRoute]
    alone := fun j k u v hu hv b₁ b₂ hb₁ hb₂ htoken => by
      by_cases hj : i = j
      · subst hj
        rw [enter_calls, Threads.getElem?_set_self hp] at hu
        obtain rfl := Option.some.inj hu
        obtain rfl := hearly b₁ hb₁
        by_contra hk
        rw [enter_calls, List.getElem?_set_ne fun h => hk h.symm] at hv
        exact hother k v hv b₂ hb₂ htoken
      · rw [enter_calls, List.getElem?_set_ne hj] at hu
        by_cases hk : i = k
        · subst hk
          rw [enter_calls, Threads.getElem?_set_self hp] at hv
          obtain rfl := Option.some.inj hv
          rw [hbinding] at hb₂
          obtain rfl := Option.some.inj hb₂
          exact absurd htoken.symm (hother j u hu b₁ (RoutePhase.binding_of_early hb₁))
        · rw [enter_calls, List.getElem?_set_ne hk] at hv
          exact he.alone j k u v hu hv b₁ b₂ hb₁ hb₂ htoken }

theorem exits_finalize (hs : s.Sound) (he : s.Exits) {b : RouteBinding} {reason : CloseReason}
    {raised : Option RouteError} (hp : s.calls[i]? = some (.closing b reason .finalize raised))
    (hq : q.Bare) : MissionBinder.Exits { s.enter i q with active := s.active.delete b.owns } := by
  have hsame : ∀ t ∈ s.releases, t ∈ s.releases := fun _ h => h
  refine he.moves hp (rowsFollow_delete _ _) (fun t ht => Or.inr ?_) (fun t ht => ?_) hsame
    (fun b' hb' => ?_) (fun b' hb' => ?_) ?_
  · intro w r hr htok
    obtain ⟨hrow, hown⟩ := Table.get?_delete_eq_some.mp hr
    have ht' : t = b.token := by
      simp only [RoutePhase.carries] at ht
      split at ht
      · cases ht
      · exact (Option.some.inj ht).symm
    have hw := (hs.threads i _ hp).worker b rfl w r hrow (htok.trans ht')
    simp [RouteBinding.owns, hw, htok.trans ht'] at hown
  · simp [RoutePhase.owes] at ht
  · rw [RoutePhase.early_of_bare hq] at hb'
    cases hb'
  · rw [hq.binding] at hb'
    cases hb'
  · intro j u hu b' hb' _
    obtain ⟨w, r, hr, hown⟩ := Table.any_eq_true.mp (he.registered j u hu b' hb')
    refine Table.any_eq_true.mpr ⟨w, r, Table.get?_delete_eq_some.mpr ⟨hr, ?_⟩, hown⟩
    by_contra hboth
    rw [Bool.not_eq_false] at hboth
    simp only [RouteBinding.owns, Bool.and_eq_true, beq_iff_eq] at hown hboth
    -- the route of an early binding is not the one that is removed
    have hi : i = j := he.alone j i u _ hu hp b' b hb' rfl (hboth.2.symm.trans hown.2)
    subst hi
    rw [hp] at hu
    obtain rfl := Option.some.inj hu
    cases hb'

theorem exits_spawn (he : s.Exits) {b : RouteBinding} (hp : s.calls[i]? = some (.starting b)) :
    MissionBinder.Exits { s with calls := s.calls.set i (.body b) ++ [.beating b] } := by
  have hentered : (s.enter i (.body b)).Exits :=
    he.goes hp (.late rfl rfl rfl rfl)
  exact {
    known := hentered.known
    reserved := fun e h => by
      obtain ⟨u, hu, hold⟩ := hentered.reserved e h
      exact ⟨u, Threads.getElem?_append hu, hold⟩
    acquired := fun e h => by
      obtain ⟨u, hu, hold⟩ := hentered.acquired e h
      exact ⟨u, Threads.getElem?_append hu, hold⟩
    registered := Threads.forall_append hentered.registered fun b' hb' => by cases hb'
    alone := fun j k u v hu hv b₁ b₂ hb₁ hb₂ htoken => by
      have hback : ∀ {l : ℕ} {x : RoutePhase}, (s.calls.set i (.body b) ++ [.beating b])[l]? =
          some x → (s.calls.set i (.body b))[l]? = some x ∨ x = .beating b := by
        intro l x hx
        rcases Nat.lt_or_ge l (s.calls.set i (.body b)).length with hl | hl
        · rw [List.getElem?_append_left hl] at hx
          exact Or.inl hx
        · rw [List.getElem?_append_right hl, List.getElem?_singleton] at hx
          split at hx
          · exact Or.inr (Option.some.inj hx).symm
          · cases hx
      rcases hback hu with hu | rfl
      · rcases hback hv with hv | rfl
        · exact hentered.alone j k u v hu hv b₁ b₂ hb₁ hb₂ htoken
        · -- the mission of the heartbeat is not early any more
          obtain rfl := Option.some.inj hb₂
          have hi := hentered.alone j i u (.body b) hu (Threads.getElem?_set_self hp) b₁ b hb₁ rfl
            htoken
          subst hi
          rw [Threads.getElem?_set_self hp] at hu
          obtain rfl := Option.some.inj hu
          cases hb₁
      · cases hb₁ }

/-! ### Closing -/

section Stages

variable {b : RouteBinding} {reason : CloseReason} {stage stage' : CloseStage}
  {raised raised' : Option RouteError}

theorem Exits.closes (he : s.Exits) (hp : s.calls[i]? = some (.closing b reason stage raised))
    (hstage : stage' = .finalize → stage = .finalize ∨
      ¬(reason = .startFailed ∨ reason = .exit)) :
    (s.enter i (.closing b reason stage' raised')).Exits :=
  he.goes hp (RoutePhase.keeps_closing hstage)

theorem afterWait_finalize (h : reason.afterWait = .finalize) :
    ¬(reason = .startFailed ∨ reason = .exit) := by
  cases reason <;> first | (cases h; done) | decide

theorem afterCleanup_finalize (h : reason.afterCleanup = .finalize) :
    ¬(reason = .startFailed ∨ reason = .exit) := by
  cases reason <;> first | (cases h; done) | decide

theorem exits_close (hs : s.Sound) (he : s.Exits)
    (hp : s.calls[i]? = some (.closing b reason stage raised)) (input : RouteInput) :
    (s.close i b reason stage raised input).Exits := by
  have hcleaned : ∀ {raised'}, (s.enter i (.closing b reason reason.afterCleanup raised')).Exits :=
    he.closes hp fun h => Or.inr (afterCleanup_finalize h)
  cases stage with
  | mark =>
    refine he.updates hp b.owns (f := fun _ route => { route with closing := true })
      (fun _ _ => rfl) (fun _ _ _ => rfl) (RoutePhase.keeps_closing fun hstage => Or.inr ?_)
    split at hstage
    · cases hstage
    · exact afterWait_finalize hstage
  | wait =>
    simp only [close]
    split
    · exact he
    · exact he.closes hp fun h => Or.inr (afterWait_finalize h)
  | check =>
    simp only [close]
    split
    · split
      · exact hcleaned
      · exact he.closes hp fun h => by cases h
    · split
      · rename_i habort
        refine he.closes hp fun _ => Or.inr ?_
        rw [habort.1]
        decide
      · exact hcleaned
  | lock =>
    simp only [close]
    split
    · exact he
    split
    · exact hcleaned
    · have hentered : (s.enter i (.closing b reason (.attempt 0) raised)).Exits :=
        he.closes hp fun h => by cases h
      exact { hentered with }
  | attempt =>
    simp only [close]
    split
    · have hentered : (s.enter i (.closing b reason reason.afterCleanup raised)).Exits := hcleaned
      exact { hentered with }
    · split
      · exact he.closes hp fun h => by cases h
      · exact he.closes hp fun h => by cases h
  | quarantine =>
    have hentered : ∀ raised', (s.enter i
        (.closing b reason reason.afterCleanup raised')).Exits := fun _ => hcleaned
    exact { hentered _ with }
  | lease =>
    have hreleased : ∀ raised', MissionBinder.Exits
        { s.enter i (.closing b reason .finalize raised') with
          releases := b.token :: s.releases } := by
      intro raised'
      refine he.moves hp (rowsFollow_refl _) (fun t ht => Or.inl ht) (fun t ht => Or.inr ?_)
        (fun t ht => List.mem_cons_of_mem _ ht) (fun _ h => by cases h)
        (fun b' hb' => ⟨b', hb', rfl⟩) fun j u hu b' hb' _ => he.registered j u hu b' hb'
      simp only [RoutePhase.owes] at ht
      split at ht
      · obtain rfl := Option.some.inj ht
        exact List.mem_cons_self
      · cases ht
    exact { hreleased _ with }
  | finalize => exact exits_finalize hs he hp (bare_endClose s b reason raised input)

end Stages

/-! ### Steps -/

/-- No exception leaves the preparation of a binding where no handler is: what the quarantine of a
failed preparation raises is caught, and the home of a prepared binding resolves. -/
def Handled (s : MissionBinder) : Step → Prop
  | .start _ _ => True
  | .advance i input =>
    match s.calls[i]? with
    | some (.quarantining _) =>
      match input.status with
      | .ok () => True
      | .error e => e.isStatusFailure = true
    | some (.resolving _ _) => input.resolve.isOk = true
    | _ => True

instance (s : MissionBinder) (c : Step) : Decidable (s.Handled c) := by
  unfold Handled
  split
  · infer_instance
  · split
    · split <;> infer_instance
    · infer_instance
    · infer_instance

theorem exits_publish (he : s.Exits) {b : RouteBinding} {f : ActiveRoute → ActiveRoute}
    (hp : s.calls[i]? = some p) (hb : p.early = some b) (htoken : ∀ r, (f r).token = r.token)
    (hclosing : ∀ r, r.closing = true → (f r).closing = true)
    (h : p.Keeps q) :
    (s.publish i b f q).Exits := by
  unfold publish
  rw [if_pos (he.registered i p hp b hb)]
  exact he.updates hp b.owns (f := fun _ => f) (fun _ => htoken) (fun _ => hclosing) h

theorem exits_advance (hs : s.Sound) (he : s.Exits) (i : ℕ) (input : RouteInput)
    (hhandled : s.Handled (.advance i input)) : (s.advance i input).Exits := by
  cases hp : s.calls[i]? with
  | none => simpa only [advance, hp] using he
  | some p =>
    cases p with
    | done => simpa only [advance, hp] using he
    | marking c =>
      simp only [advance, hp, markReady]
      split
      · exact he.updates hp (fun workerId _ => workerId == c.worker.id)
          (f := fun _ route => { route with worker := c.worker, ready := true }) (fun _ _ => rfl)
          (fun _ _ h => h) (.of (.inl rfl) (.inl rfl) (.inl rfl) (.inl rfl))
      · exact he.ends hp rfl rfl (RoutePhase.bare_done _)
    | looking c =>
      simp only [advance, hp]
      exact he.ends hp rfl rfl (bare_look s c)
    | verifying =>
      simp only [advance, hp]
      split
      · exact he.ends hp rfl rfl (RoutePhase.bare_done _)
      · exact he.ends hp rfl rfl ⟨rfl, rfl, rfl, rfl, rfl, rfl⟩
    | borrowing c token =>
      simp only [advance, hp, borrow]
      split
      swap
      · exact he.ends hp rfl rfl (RoutePhase.bare_done _)
      split
      · rename_i route _ _
        have hborrowed : MissionBinder.Exits { s.enter i (.projecting c.worker.id route.token) with
            active := s.active.update (fun workerId _ => workerId == c.worker.id) fun _ route =>
              { route with readers := route.readers + 1 } } :=
          he.updates hp (fun workerId _ => workerId == c.worker.id)
            (f := fun _ route => { route with readers := route.readers + 1 }) (fun _ _ => rfl)
            (fun _ _ h => h) (.of (.inl rfl) (.inl rfl) (.inl rfl) (.inl rfl))
        exact { hborrowed with }
      · exact he.ends hp rfl rfl (RoutePhase.bare_done _)
    | projecting workerId token =>
      simp only [advance, hp, giveBack]
      exact he.updates hp (fun id route => id == workerId && route.token == token)
        (f := fun _ route => { route with readers := route.readers - 1 }) (fun _ _ => rfl)
        (fun _ _ h => h) (.of (.inl rfl) (.inl rfl) (.inl rfl) (.inl rfl))
    | plainBody =>
      simp only [advance, hp]
      exact he.ends hp rfl rfl (RoutePhase.bare_done _)
    | reserving =>
      simp only [advance, hp]
      exact exits_reserve hs he hp
    | unboundBody =>
      simp only [advance, hp]
      exact he.goes hp (.of (.inr rfl) (.inl rfl) (.inl rfl) (.inr rfl))
    | acquiring b =>
      simp only [advance, hp]
      split
      · exact he.goes hp (.of (.inr rfl) (.inl rfl) (.inl rfl) (.inr rfl))
      · rename_i leaseId _
        have hentered : (s.enter i (.leased { b with leaseId })).Exits := by
          refine he.goes hp ⟨fun _ h => h, fun _ h => (by cases h), fun b' hb' => ?_,
            fun b' hb' => ?_⟩
          · obtain rfl := Option.some.inj hb'
            exact ⟨b, rfl, rfl, rfl⟩
          · obtain rfl := Option.some.inj hb'
            exact ⟨b, rfl, rfl⟩
        refine { hentered with acquired := fun e h => ?_ }
        rcases List.mem_cons.mp h with rfl | h
        · exact ⟨_, Threads.getElem?_set_self hp, Or.inl rfl⟩
        · exact hentered.acquired e h
    | leased =>
      simp only [advance, hp]
      exact exits_publish he hp rfl (fun _ => rfl) (fun _ h => h)
        (.of (.inr rfl) (.inr rfl) (.inr rfl) (.inr rfl))
    | preparing =>
      simp only [advance, hp]
      split
      · split
        · exact he.goes hp (.late rfl rfl rfl rfl)
        · exact he.goes hp (.late rfl rfl rfl rfl)
      · split
        · exact he.goes hp (.of (.inr rfl) (.inr rfl) (.inr rfl) (.inr rfl))
        · exact he.goes hp (.of (.inr rfl) (.inr rfl) (.inr rfl) (.inr rfl))
    | quarantining =>
      simp only [advance, hp]
      split
      · exact he.goes hp (.late rfl rfl rfl rfl)
      · rename_i e hstatus
        simp only [Handled, hp, hstatus] at hhandled
        rw [if_pos hhandled]
        exact he.goes hp (.late rfl rfl rfl rfl)
    | returning =>
      simp only [advance, hp]
      refine he.moves hp (rowsFollow_refl _) (fun t ht => Or.inl ht) (fun t ht => Or.inr ?_)
        (fun t ht => List.mem_cons_of_mem _ ht) (fun _ h => by cases h)
        (fun b' hb' => ⟨b', hb', rfl⟩) fun j u hu b' hb' _ => he.registered j u hu b' hb'
      obtain rfl := Option.some.inj ht
      exact List.mem_cons_self
    | resolving =>
      simp only [advance, hp]
      split
      · rename_i e hresolve
        simp only [Handled, hp, hresolve] at hhandled
        cases hhandled
      · exact he.goes hp (.of (.inr rfl) (.inr rfl) (.inr rfl) (.inr rfl))
    | publishing =>
      simp only [advance, hp]
      exact exits_publish he hp rfl (fun _ => rfl) (fun _ h => h)
        (.late rfl rfl rfl rfl)
    | starting =>
      simp only [advance, hp]
      split
      · exact he.goes hp (.late rfl rfl rfl rfl)
      · exact exits_spawn he hp
    | body =>
      simp only [advance, hp]
      exact he.goes hp (.late rfl rfl rfl rfl)
    | closing =>
      simp only [advance, hp]
      exact exits_close hs he hp input
    | beating =>
      simp only [advance, hp]
      split
      · exact he.ends hp rfl rfl (RoutePhase.bare_done _)
      · exact he.goes hp (.late rfl rfl rfl rfl)
    | renewing b =>
      simp only [advance, hp]
      split
      · exact he.goes hp (.late rfl rfl rfl rfl)
      · split
        · have hentered : (s.enter i (.lost b)).Exits :=
            he.goes hp (.late rfl rfl rfl rfl)
          exact { hentered with }
        · exact he.ends hp rfl rfl (RoutePhase.bare_done _)
    | lost =>
      simp only [advance, hp]
      split
      · exact he.goes hp (.of (.inr rfl) (.inl rfl) (.inl rfl) (.inr rfl))
      · split
        · exact he.goes hp (.of (.inr rfl) (.inl rfl) (.inl rfl) (.inr rfl))
        · exact he.ends hp rfl rfl (RoutePhase.bare_done _)

theorem exits_step (hs : s.Sound) (he : s.Exits) (c : Step) (hhandled : s.Handled c) :
    (s.step c).Exits := by
  cases c with
  | advance call input => exact exits_advance hs he call input hhandled
  | start call input =>
    have hbare := bare_phase call s.hasStore input
    exact {
      known := he.known
      reserved := fun e h => by
        obtain ⟨u, hu, hold⟩ := he.reserved e h
        exact ⟨u, Threads.getElem?_append hu, hold⟩
      acquired := fun e h => by
        obtain ⟨u, hu, hold⟩ := he.acquired e h
        exact ⟨u, Threads.getElem?_append hu, hold⟩
      registered := Threads.forall_append he.registered fun b hb => by
        rw [RoutePhase.early_of_bare hbare] at hb
        cases hb
      alone := fun j k u v hu hv b b' hb hb' htoken => by
        rcases Threads.getElem?_append_eq_some hu with hu | rfl
        · rcases Threads.getElem?_append_eq_some hv with hv | rfl
          · exact he.alone j k u v hu hv b b' hb hb' htoken
          · rw [hbare.binding] at hb'
            cases hb'
        · rw [RoutePhase.early_of_bare hbare] at hb
          cases hb }

end Moves

/-! ## The routes of a binder -/

/-- What the claims on routes come to, in one state. -/
structure RoutesHold (s : MissionBinder) : Prop where
  /-- A worker has at most one active route. -/
  single : ∀ w w' r r', s.active.get? w = some r → s.active.get? w' = some r' →
    r.worker.id = r'.worker.id → w = w'
  /-- A projection is of a route that is ready, not closing and that of the caller. -/
  lent : ∀ e ∈ s.projected, e.2.LentTo e.1
  /-- The credentials of a route are removed once. -/
  removedOnce : s.removed.Nodup
  /-- While a thread is to remove them, no projection reads the route. -/
  unread : ∀ (i j : ℕ) (p : RoutePhase) (t : ℕ) (workerId : Text), s.calls[i]? = some p →
    p.removes = some t → s.calls[j]? ≠ some (.projecting workerId t)
  /-- A call that returned or raised left no route and no lease that it has not released. -/
  left : ∀ (i t : ℕ) (result : Except RouteError Unit), s.calls[i]? = some (.done result) →
    ((i, t) ∈ s.reserved → Gone s.active t) ∧ ((i, t) ∈ s.acquired → t ∈ s.releases)

theorem closed_of_removes {p : RoutePhase} {t : ℕ} (h : p.removes = some t) :
    p.closed = some t := by
  cases p with
  | closing b reason stage => cases stage <;> first | exact h | cases h
  | _ => cases h

theorem routesHold_of_sound {s : MissionBinder} (hs : s.Sound) (he : s.Exits) : s.RoutesHold where
  single w w' r r' hr hr' hid := by rw [← hs.keyed w r hr, ← hs.keyed w' r' hr', hid]
  lent := hs.projected
  removedOnce := hs.removedOnce
  unread i j p t workerId hp ht hj := by
    have hread : t ∈ Threads.held RoutePhase.reads s.calls :=
      Threads.mem_held.mpr ⟨j, _, hj, List.mem_singleton_self t⟩
    have hcount := List.count_pos_iff.mpr hread
    by_cases hgone : Gone s.active t
    · have hzero := hs.unread t hgone
      omega
    · simp only [Gone, not_forall, not_not] at hgone
      obtain ⟨w, r, hr, rfl⟩ := hgone
      have hreaders := hs.readers w r hr
      have hzero := hs.closed i p hp r.token (closed_of_removes ht) w r hr rfl
      omega
  left i t result hdone := by
    constructor
    · intro hmem
      obtain ⟨p, hp, hold⟩ := he.reserved (i, t) hmem
      rw [hdone] at hp
      obtain rfl := Option.some.inj hp
      rcases hold with hold | hgone
      · cases hold
      · exact hgone
    · intro hmem
      obtain ⟨p, hp, hold⟩ := he.acquired (i, t) hmem
      rw [hdone] at hp
      obtain rfl := Option.some.inj hp
      rcases hold with hold | hreleased
      · cases hold
      · exact hreleased

/-- What every step of a handled run keeps. -/
def InOrder (s : MissionBinder) : Prop :=
  s.Sound ∧ s.Exits

theorem inOrder_step (s : MissionBinder) (c : Step) (h : s.InOrder) (hhandled : s.Handled c) :
    (s.step c).InOrder :=
  ⟨sound_step h.1 c, exits_step h.1 h.2 c hhandled⟩

/-- In every run of which no step raises outside the handlers of a preparation, every state has its
routes in order. -/
theorem routes_hold (hasStore : Bool) {steps : List Step}
    (hhandled : Along step Handled (init hasStore) steps) {pre : List Step} (hpre : pre <+: steps) :
    (run step (init hasStore) pre).RoutesHold := by
  have horder : (run step (init hasStore) pre).InOrder :=
    invariant_prefix inOrder_step ⟨sound_init hasStore, exits_init hasStore⟩ hhandled hpre
  exact routesHold_of_sound horder.1 horder.2

section Runs

private def dockerWorker : MissionWorker where
  workerId := "w".toList
  ownerId := "o".toList
  executionMode := "docker".toList
  selection := .ok (some ⟨.personalRequired, "a".toList⟩)

private def bindSteps : List Step :=
  [.start (.bind ⟨dockerWorker, "codex-cli".toList, "r".toList, "mission".toList, true, true, true,
      true⟩)
    { isolationMode := "per_worker_container".toList
      account := .ok (some ⟨"codex".toList, "ready".toList⟩) },
    .advance 0 {}, .advance 0 { acquire := .ok "l".toList }, .advance 0 {}]

/-- A mission that ends, with a projection that reads its route meanwhile. -/
private def missionSteps : List Step :=
  bindSteps ++ [.advance 0 {}, .advance 0 {}, .advance 0 {}, .advance 0 {},
    .start (.markReady ⟨dockerWorker, "codex-cli".toList, "r".toList⟩) {}, .advance 2 {},
    .start (.project ⟨dockerWorker, "codex-cli".toList, "r".toList⟩) {}, .advance 3 {},
    .advance 3 { lease := .ok (some ⟨"l".toList, "local".toList, "o".toList, "w".toList,
      "r".toList⟩) }, .advance 3 {}, .advance 0 {}, .advance 0 {}, .advance 0 {}, .advance 3 {},
    .advance 0 {}, .advance 0 {}, .advance 0 {}, .advance 0 {}, .advance 0 {}, .advance 0 {},
    .advance 0 {}]

theorem routes_hold_mission : (run step (init true) missionSteps).RoutesHold ∧
    (run step (init true) missionSteps).removed = [0] ∧
    (run step (init true) missionSteps).releases = [0] ∧
    (run step (init true) missionSteps).projected.length = 1 :=
  ⟨routes_hold true (by decide +kernel) (List.prefix_refl _), by decide +kernel, by decide +kernel,
    by decide +kernel⟩

/-- The home does not resolve. -/
private def unresolvedSteps : List Step :=
  bindSteps ++ [.advance 0 {}, .advance 0 { resolve := .error (.os "FileNotFoundError") }]

/-- The credentials are not reconciled, and the quarantine meets a locked database. -/
private def unquarantinedSteps : List Step :=
  bindSteps ++ [.advance 0 { prepare := .error (.exception "ValueError") },
    .advance 0 { status := .error .operational }]

/-- A call that raises where no handler is leaves its route and its lease. -/
theorem routes_left : ¬(run step (init true) unresolvedSteps).RoutesHold ∧
    ¬(run step (init true) unquarantinedSteps).RoutesHold := by
  constructor
  · intro h
    have hleft := (h.left 0 0 (.error (.os "FileNotFoundError")) rfl).2 (by decide +kernel)
    exact absurd hleft (by decide +kernel)
  · intro h
    have hleft := (h.left 0 0 (.error .operational) rfl).2 (by decide +kernel)
    exact absurd hleft (by decide +kernel)

end Runs

end MissionBinder

end GlassHive
