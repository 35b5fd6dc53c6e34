import GlassHive.BorrowedRoutes

/-!
# Steps of a mission binder

The stages of a closing and the steps of all threads keep what is kept of the registry, the readers
and the cleanup locks.
-/

namespace GlassHive

open Relational Transition

namespace MissionBinder

section Moves

variable {s : MissionBinder} {i : ℕ} {p q : RoutePhase}

/-! ### Closing -/

/-- A thread that has marked its route goes on with any later stage. -/
theorem threadSound_closing {a : Table Text ActiveRoute} {next : ℕ} {b : RouteBinding}
    {reason reason' : CloseReason} {stage stage' : CloseStage} {raised raised' : Option RouteError}
    (h : ThreadSound a next (.closing b reason stage raised)) (hstage : stage.isMarked = true) :
    ThreadSound a next (.closing b reason' stage' raised') where
  token := h.token
  worker := h.worker
  placed workerId t heq := by cases heq
  marked t ht := by
    refine h.marked t ?_
    simp only [RoutePhase.marked] at ht ⊢
    rw [if_pos hstage]
    split at ht
    · exact ht
    · cases ht
  published b' bound heq := by cases heq

section Stages

variable {b : RouteBinding} {reason : CloseReason} {stage stage' : CloseStage}
  {raised raised' : Option RouteError}

/-- From the wait on, a closing goes through its stages with the readers gone. -/
theorem Sound.stages (hs : s.Sound) (hp : s.calls[i]? = some (.closing b reason stage raised))
    (hstage : stage.isClosed = true) {locked removed : List ℕ}
    (hlocks : ∀ t, (RoutePhase.closing b reason stage' raised').locks.count t + s.locked.count t =
      (RoutePhase.closing b reason stage raised).locks.count t + locked.count t)
    (honce : locked.Nodup)
    (hothers : ∀ (j : ℕ) (u : RoutePhase), j ≠ i → s.calls[j]? = some u → ∀ t,
      u.removes = some t → t ∉ removed)
    (hremoves : ∀ t, (RoutePhase.closing b reason stage' raised').removes = some t → t ∉ removed)
    (hremoved : removed.Nodup) :
    MissionBinder.Sound { s.enter i (.closing b reason stage' raised') with locked, removed } := by
  have hmarked : stage.isMarked = true := by
    cases stage <;> first | rfl | cases hstage
  refine hs.enters (q := .closing b reason stage' raised') hp
    (threadSound_closing (hs.threads i _ hp) hmarked) rfl (fun t ht => ?_) hlocks honce hothers
    hremoves hremoved
  refine hs.closed i _ hp t ?_
  simp only [RoutePhase.closed] at ht ⊢
  rw [if_pos hstage]
  split at ht
  · exact ht
  · cases ht

/-- A closing that leaves the cleanup lock as it is. -/
theorem Sound.proceeds (hs : s.Sound) (hp : s.calls[i]? = some (.closing b reason stage raised))
    (hstage : stage.isClosed = true) (hlocked : stage'.isLocked = stage.isLocked)
    (hremoves : ∀ t, (RoutePhase.closing b reason stage' raised').removes = some t →
      (RoutePhase.closing b reason stage raised).removes = some t) :
    (s.enter i (.closing b reason stage' raised')).Sound :=
  hs.stages hp hstage (fun t => by simp only [RoutePhase.locks, hlocked]) hs.lockedOnce
    (fun j u _ hu => hs.removes j u hu) (fun t ht => hs.removes i _ hp t (hremoves t ht))
    hs.removedOnce

/-- A closing goes on behind its readers. -/
theorem Sound.closes (hs : s.Sound) (hp : s.calls[i]? = some (.closing b reason stage raised))
    (hstage : stage.isClosed = false) (hself : ThreadSound s.active s.nextToken
      (.closing b reason stage' raised))
    (hreaders : stage'.isClosed = true → ∀ w r, s.active.get? w = some r → r.token = b.token →
      r.readers = 0) (hunlocked : stage'.isLocked = false) :
    (s.enter i (.closing b reason stage' raised)).Sound := by
  refine hs.moves hp hself rfl (fun t ht w r hr htok => ?_) ?_ fun t ht => ?_
  · simp only [RoutePhase.closed] at ht
    split at ht
    · rename_i hclosed
      obtain rfl := Option.some.inj ht
      exact hreaders hclosed w r hr htok
    · cases ht
  · have hold : stage.isLocked = false := by
      cases stage <;> first | rfl | cases hstage
    simp only [RoutePhase.locks, hunlocked, hold]
  · cases stage' <;> first | (cases hunlocked; done) | cases ht

theorem afterWait_holds (reason : CloseReason) :
    reason.afterWait.isLocked = false ∧ reason.afterWait ≠ .mark := by
  cases reason <;> exact ⟨rfl, by decide⟩

theorem afterCleanup_holds (reason : CloseReason) :
    reason.afterCleanup.isClosed = true ∧ reason.afterCleanup.isLocked = false := by
  cases reason <;> exact ⟨rfl, rfl⟩

theorem removes_afterCleanup (t : ℕ) :
    (RoutePhase.closing b reason reason.afterCleanup raised').removes ≠ some t := by
  cases reason <;> exact fun h => by cases h

/-- The mark, which only the route of the binding gets. -/
theorem sound_mark (hs : s.Sound) (hp : s.calls[i]? = some (.closing b reason .mark raised)) :
    ((s.updateRoute b fun route => { route with closing := true }).enter i
      (.closing b reason (if s.registered b then .wait else reason.afterWait) raised)).Sound := by
  have hthread := hs.threads i _ hp
  have hupdated : (s.updateRoute b fun route => { route with closing := true }).Sound :=
    hs.updates b.owns (fun _ _ _ h => h) (fun _ _ => rfl) (fun _ _ => rfl)
      fun _ _ _ => rfl
  have hrow : ∀ w r', (s.active.update b.owns fun _ route =>
      { route with closing := true }).get? w = some r' → r'.token = b.token →
      s.registered b = true ∧ r'.closing = true := by
    intro w r' h htok
    obtain ⟨r, hr, rfl⟩ := Table.get?_update_eq_some.mp h
    have htok' : r.token = b.token := by
      split at htok <;> exact htok
    have hown : b.owns w r = true := by
      simp [RouteBinding.owns, hthread.worker b rfl w r hr htok', htok']
    rw [if_pos hown]
    exact ⟨Table.any_eq_true.mpr ⟨w, r, hr, hown⟩, rfl⟩
  have hnew := hupdated.threads i _ hp
  refine hupdated.closes hp rfl ⟨hnew.token, hnew.worker, fun workerId t heq => (by cases heq),
    fun t ht w r hr htok => ?_, fun b' bound heq => (by cases heq)⟩
    (fun hclosed w r hr htok => ?_) ?_
  · obtain ⟨b', hb, rfl⟩ := exists_binding_of_marked ht
    obtain rfl := Option.some.inj hb
    exact (hrow w r hr htok).2
  · -- a stage behind the readers is entered only without a route
    rw [if_pos (hrow w r hr htok).1] at hclosed
    cases hclosed
  · split
    · rfl
    · exact (afterWait_holds reason).1

theorem sound_wait (hs : s.Sound) (hp : s.calls[i]? = some (.closing b reason .wait raised))
    (hfree : (s.active.any fun workerId route =>
      b.owns workerId route && decide (0 < route.readers)) = false) :
    (s.enter i (.closing b reason reason.afterWait raised)).Sound := by
  have hthread := hs.threads i _ hp
  refine hs.closes hp rfl (threadSound_closing hthread rfl) (fun _ w r hr htok => ?_)
    (afterWait_holds reason).1
  have hown : b.owns w r = true := by
    simp [RouteBinding.owns, hthread.worker b rfl w r hr htok, htok]
  have hzero := Table.any_eq_false.mp hfree w r hr
  rw [hown, Bool.true_and, decide_eq_false_iff_not] at hzero
  omega

theorem sound_lock (hs : s.Sound) (hp : s.calls[i]? = some (.closing b reason .lock raised))
    (hlocked : b.token ∉ s.locked) (hremoved : b.token ∉ s.removed) :
    MissionBinder.Sound { s.enter i (.closing b reason (.attempt 0) raised) with
      locked := b.token :: s.locked } := by
  have hremoves : ∀ (j : ℕ) (u : RoutePhase), j ≠ i → s.calls[j]? = some u → ∀ t,
      u.removes = some t → t ∉ s.removed := fun j u _ hu => hs.removes j u hu
  refine hs.stages hp rfl (fun t => ?_) (List.nodup_cons.mpr ⟨hlocked, hs.lockedOnce⟩) hremoves
    (fun t ht => ?_) hs.removedOnce
  · have hcons : (b.token :: s.locked).count t = [b.token].count t + s.locked.count t := by
      rw [← List.count_append]
      rfl
    simp only [RoutePhase.locks, CloseStage.isLocked]
    rw [hcons]
    simp
  · obtain rfl := Option.some.inj ht
    exact hremoved

/-- Who holds the cleanup lock holds it alone. -/
theorem mem_locked (hs : s.Sound) (hp : s.calls[i]? = some (.closing b reason stage raised))
    (hstage : stage.isLocked = true) : b.token ∈ s.locked ∧
      ∀ (j : ℕ) (u : RoutePhase), j ≠ i → s.calls[j]? = some u → b.token ∉ u.locks := by
  have hself : b.token ∈ (RoutePhase.closing b reason stage raised).locks := by
    simp [RoutePhase.locks, hstage]
  have hcount := hs.locks b.token
  have honce := List.nodup_iff_count_le_one.mp hs.lockedOnce b.token
  constructor
  · have hpos := List.count_pos_iff.mpr (Threads.mem_held.mpr ⟨i, _, hp, hself⟩)
    exact List.count_pos_iff.mp (by omega)
  · intro j u hj hu hother
    have htwo := Threads.two_le_count_held hj hu hp hother hself
    omega

theorem count_erase_locked (hs : s.Sound)
    (hp : s.calls[i]? = some (.closing b reason stage raised)) (hstage : stage.isLocked = true)
    (hunlocked : stage'.isLocked = false) (t : ℕ) :
    (RoutePhase.closing b reason stage' raised').locks.count t + s.locked.count t =
      (RoutePhase.closing b reason stage raised).locks.count t +
        (s.locked.erase b.token).count t := by
  have hmem := (mem_locked hs hp hstage).1
  have hcons := (List.perm_cons_erase hmem).count_eq t
  have hsplit : (b.token :: s.locked.erase b.token).count t =
      [b.token].count t + (s.locked.erase b.token).count t := by
    rw [← List.count_append]
    rfl
  simp [RoutePhase.locks, hstage, hunlocked, hcons, hsplit]

theorem locks_of_removes {u : RoutePhase} {t : ℕ} (h : u.removes = some t) : t ∈ u.locks := by
  cases u with
  | closing b reason stage =>
    cases stage <;> first | (cases h; done) | skip
    obtain rfl := Option.some.inj h
    exact List.mem_singleton_self _
  | _ => cases h

/-- The credentials are removed, by the one thread that holds the lock. -/
theorem sound_remove (hs : s.Sound) {n : ℕ}
    (hp : s.calls[i]? = some (.closing b reason (.attempt n) raised)) :
    MissionBinder.Sound { s.enter i (.closing b reason reason.afterCleanup raised) with
      removed := b.token :: s.removed
      locked := s.locked.erase b.token } := by
  have hclean := afterCleanup_holds reason
  refine hs.stages hp rfl (count_erase_locked hs hp rfl hclean.2)
    (hs.lockedOnce.erase _) (fun j u hj hu t ht hmem => ?_)
    (fun t ht => absurd ht (removes_afterCleanup t))
    (List.nodup_cons.mpr ⟨hs.removes i _ hp b.token rfl, hs.removedOnce⟩)
  rcases List.mem_cons.mp hmem with rfl | hmem
  · exact (mem_locked hs hp rfl).2 j u hj hu (locks_of_removes ht)
  · exact hs.removes j u hu t ht hmem

theorem sound_quarantine (hs : s.Sound) {e : RouteError}
    (hp : s.calls[i]? = some (.closing b reason (.quarantine e) raised)) :
    MissionBinder.Sound { s.enter i (.closing b reason reason.afterCleanup raised') with
      locked := s.locked.erase b.token } := by
  have hclean := afterCleanup_holds reason
  have hremoves : ∀ (j : ℕ) (u : RoutePhase), j ≠ i → s.calls[j]? = some u → ∀ t,
      u.removes = some t → t ∉ s.removed := fun j u _ hu => hs.removes j u hu
  exact hs.stages hp rfl (count_erase_locked hs hp rfl hclean.2) (hs.lockedOnce.erase _) hremoves
    (fun t ht => absurd ht (removes_afterCleanup t)) hs.removedOnce

theorem bare_endClose (s : MissionBinder) (b : RouteBinding) (reason : CloseReason)
    (raised : Option RouteError) (input : RouteInput) :
    (s.endClose b reason raised input).Bare := by
  unfold endClose
  split
  · split <;> exact RoutePhase.bare_done _
  · exact RoutePhase.bare_done _
  · split
    · exact RoutePhase.bare_preferredFallback input
    · split <;> exact RoutePhase.bare_done _
  · exact RoutePhase.bare_done _

theorem sound_close (hs : s.Sound) (hp : s.calls[i]? = some (.closing b reason stage raised))
    (input : RouteInput) : (s.close i b reason stage raised input).Sound := by
  have hclean := afterCleanup_holds reason
  have hafter : ∀ {raised'} t, (RoutePhase.closing b reason reason.afterCleanup raised').removes =
      some t → (RoutePhase.closing b reason stage raised).removes = some t :=
    fun t ht => absurd ht (removes_afterCleanup t)
  cases stage with
  | mark => exact sound_mark hs hp
  | wait =>
    simp only [close]
    split
    · exact hs
    · rename_i hfree
      exact sound_wait hs hp (Bool.not_eq_true _ ▸ hfree)
  | check =>
    simp only [close]
    split
    · split
      · exact hs.proceeds hp rfl hclean.2 hafter
      · exact hs.proceeds hp rfl rfl fun t ht => by cases ht
    · split
      · exact hs.proceeds hp rfl rfl fun t ht => by cases ht
      · exact hs.proceeds hp rfl hclean.2 hafter
  | lock =>
    simp only [close]
    split
    · exact hs
    rename_i hlocked
    split
    · exact hs.proceeds hp rfl hclean.2 hafter
    · rename_i hremoved
      exact sound_lock hs hp hlocked hremoved
  | attempt =>
    simp only [close]
    split
    · exact sound_remove hs hp
    · split
      · exact hs.proceeds hp rfl rfl fun t ht => ht
      · exact hs.proceeds hp rfl rfl fun t ht => by cases ht
  | quarantine => exact sound_quarantine hs hp
  | lease =>
    have hentered : ∀ raised', (s.enter i (.closing b reason .finalize raised')).Sound :=
      fun _ => hs.proceeds hp rfl rfl fun t ht => by cases ht
    exact { hentered _ with }
  | finalize => exact sound_finalize hs hp (bare_endClose s b reason raised input)

end Stages

/-! ### Steps -/

theorem bare_look (s : MissionBinder) (c : RouteCaller) : (s.look c).Bare := by
  unfold look
  split
  · exact ⟨rfl, rfl, rfl, rfl, rfl, rfl⟩
  · split <;> exact ⟨rfl, rfl, rfl, rfl, rfl, rfl⟩

theorem bare_phase (call : RouteCall) (hasStore : Bool) (input : RouteInput) :
    (call.phase hasStore input).Bare := by
  cases call with
  | bind =>
    simp only [RouteCall.phase]
    split
    · exact RoutePhase.bare_done _
    · exact ⟨rfl, rfl, rfl, rfl, rfl, rfl⟩
    · exact RoutePhase.bare_preferredFallback input
    · exact ⟨rfl, rfl, rfl, rfl, rfl, rfl⟩
  | bindUnbound => exact ⟨rfl, rfl, rfl, rfl, rfl, rfl⟩
  | project =>
    simp only [RouteCall.phase, projectPhase]
    split
    · exact RoutePhase.bare_done _
    · exact ⟨rfl, rfl, rfl, rfl, rfl, rfl⟩
    · split
      · exact RoutePhase.bare_done _
      · split <;> exact ⟨rfl, rfl, rfl, rfl, rfl, rfl⟩
  | markReady =>
    simp only [RouteCall.phase, markPhase]
    split <;> exact ⟨rfl, rfl, rfl, rfl, rfl, rfl⟩

theorem sound_markReady (hs : s.Sound) {c : RouteCaller}
    (hp : s.calls[i]? = some (.marking c)) : (s.markReady i c).Sound := by
  unfold markReady
  split
  · have hupdated := hs.updates (fun workerId _ => workerId == c.worker.id)
      (f := fun _ route => { route with worker := c.worker, ready := true })
      (fun w _ hw _ => (beq_iff_eq.mp hw).symm) (fun _ _ => rfl) (fun _ _ => rfl) fun _ _ h => h
    exact hupdated.ends hp rfl rfl (RoutePhase.bare_done _)
  · exact hs.ends hp rfl rfl (RoutePhase.bare_done _)

theorem sound_publish (hs : s.Sound) {b : RouteBinding} {f : ActiveRoute → ActiveRoute}
    (hp : s.calls[i]? = some p) (hgoes : p.Goes q)
    (hkeyed : ∀ r, r.worker.id = b.workerId → (f r).worker.id = b.workerId)
    (htoken : ∀ r, (f r).token = r.token)
    (hreaders : ∀ r, (f r).readers = r.readers)
    (hclosing : ∀ r, r.closing = true → (f r).closing = true) (hlocks : p.locks = []) :
    (s.publish i b f q).Sound := by
  unfold publish
  split
  · have hupdated : (s.updateRoute b f).Sound :=
      hs.updates b.owns (fun w r hown hw => by
        simp only [RouteBinding.owns, Bool.and_eq_true, beq_iff_eq] at hown
        rw [hown.1] at hw ⊢
        exact hkeyed r hw) (fun _ => htoken) (fun _ => hreaders) fun _ => hclosing
    exact hupdated.goes hp hgoes
  · exact hs.ends hp hgoes.unread.1 hlocks (RoutePhase.bare_done _)

/-- The heartbeat of a lease works for the binding that started it. -/
theorem sound_spawn (hs : s.Sound) {b : RouteBinding} (hp : s.calls[i]? = some (.starting b)) :
    MissionBinder.Sound { s with calls := s.calls.set i (.body b) ++ [.beating b] } := by
  have hentered : (s.enter i (.body b)).Sound :=
    hs.goes hp (.onward rfl)
  have hbody := hentered.threads i (.body b) (Threads.getElem?_set_self hp)
  exact hentered.begins
    ⟨hbody.token, hbody.worker, fun workerId t heq => (by cases heq), fun t ht => (by cases ht),
      fun b' bound heq => by cases heq⟩
    rfl rfl rfl rfl

theorem sound_advance (hs : s.Sound) (i : ℕ) (input : RouteInput) : (s.advance i input).Sound := by
  cases hp : s.calls[i]? with
  | none => simpa only [advance, hp] using hs
  | some p =>
    cases p with
    | done => simpa only [advance, hp] using hs
    | marking =>
      simp only [advance, hp]
      exact sound_markReady hs hp
    | looking c =>
      simp only [advance, hp]
      exact hs.ends hp rfl rfl (bare_look s c)
    | verifying =>
      simp only [advance, hp]
      split
      · exact hs.ends hp rfl rfl (RoutePhase.bare_done _)
      · exact hs.ends hp rfl rfl ⟨rfl, rfl, rfl, rfl, rfl, rfl⟩
    | borrowing =>
      simp only [advance, hp]
      exact sound_borrow hs hp
    | projecting =>
      simp only [advance, hp]
      exact sound_giveBack hs hp _
    | plainBody =>
      simp only [advance, hp]
      exact hs.ends hp rfl rfl (RoutePhase.bare_done _)
    | reserving =>
      simp only [advance, hp]
      exact sound_reserve hs hp
    | unboundBody =>
      simp only [advance, hp]
      exact hs.goes hp (.onward rfl)
    | acquiring b =>
      simp only [advance, hp]
      split
      · exact hs.goes hp (.onward rfl)
      · rename_i leaseId _
        have hentered : (s.enter i (.leased { b with leaseId })).Sound :=
          hs.goes hp (.onward rfl)
        exact { hentered with }
    | leased b =>
      simp only [advance, hp]
      have hgoes : (RoutePhase.leased b).Goes (.preparing b) :=
        .onward rfl
      exact sound_publish hs hp hgoes (fun _ h => h) (fun _ => rfl) (fun _ => rfl)
        (fun _ h => h) rfl
    | preparing =>
      simp only [advance, hp]
      split
      · split
        · exact hs.goes hp (.onward rfl)
        · exact hs.goes hp (.onward rfl)
      · split
        · exact hs.goes hp (.onward rfl)
        · refine hs.goes hp (.continues rfl rfl rfl rfl ⟨rfl, rfl⟩ rfl rfl rfl rfl ?_)
          rintro _ _ ⟨⟩
          rfl
    | quarantining =>
      simp only [advance, hp]
      split
      · exact hs.goes hp (.onward rfl)
      · split
        · exact hs.goes hp (.onward rfl)
        · exact hs.ends hp rfl rfl (RoutePhase.bare_done _)
    | returning b =>
      simp only [advance, hp]
      have hentered : ∀ e, (s.enter i (.closing b .unprepared .mark (some e))).Sound := fun e =>
        hs.goes hp (.onward rfl)
      exact { hentered _ with }
    | resolving =>
      simp only [advance, hp]
      split
      · exact hs.ends hp rfl rfl (RoutePhase.bare_done _)
      · refine hs.goes hp (.continues rfl rfl rfl rfl ⟨rfl, rfl⟩ rfl rfl rfl rfl ?_)
        rintro _ _ ⟨⟩
        rfl
    | publishing b bound =>
      simp only [advance, hp]
      have hgoes : (RoutePhase.publishing b bound).Goes (.starting b) :=
        .onward rfl
      exact sound_publish hs hp hgoes
        (fun _ _ => (hs.threads i _ hp).published b bound rfl) (fun _ => rfl) (fun _ => rfl)
        (fun _ h => h) rfl
    | starting =>
      simp only [advance, hp]
      split
      · exact hs.goes hp (.onward rfl)
      · exact sound_spawn hs hp
    | body =>
      simp only [advance, hp]
      exact hs.goes hp (.onward rfl)
    | closing =>
      simp only [advance, hp]
      exact sound_close hs hp input
    | beating =>
      simp only [advance, hp]
      split
      · exact hs.ends hp rfl rfl (RoutePhase.bare_done _)
      · exact hs.goes hp (.onward rfl)
    | renewing b =>
      simp only [advance, hp]
      split
      · exact hs.goes hp (.onward rfl)
      · split
        · have hentered : (s.enter i (.lost b)).Sound :=
            hs.goes hp (.onward rfl)
          exact { hentered with }
        · exact hs.ends hp rfl rfl (RoutePhase.bare_done _)
    | lost =>
      simp only [advance, hp]
      split
      · exact hs.goes hp (.onward rfl)
      · split
        · exact hs.goes hp (.onward rfl)
        · exact hs.ends hp rfl rfl (RoutePhase.bare_done _)

theorem sound_step (hs : s.Sound) (c : Step) : (s.step c).Sound := by
  cases c with
  | start call input =>
    have hbare := bare_phase call s.hasStore input
    exact hs.begins (threadSound_of_bare hbare) hbare.reads hbare.closed hbare.locks hbare.removes
  | advance call input => exact sound_advance hs call input

end Moves

end MissionBinder

end GlassHive
