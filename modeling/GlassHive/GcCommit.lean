import GlassHive.System

/-!
# When a garbage collection commits

`finalize_ephemeral_workspace_gc` deletes what it knows of. Its transaction commits exactly when
no callback of the worker is recorded and no table it does not mention refers to the worker, to one
of its runs, or to a project that the deletion would leave empty.
-/

namespace GlassHive

open Relational

namespace Store

/-- A run of the worker. -/
def ownRun (s : Store) (workerId : WorkerId) (id : RunId) : Prop :=
  ∃ r, s.runs.get? id = some r ∧ r.workerId = workerId

/-- No row that survives the deletions refers to a run of the worker. -/
structure RunsFree (s : Store) (workerId : WorkerId) : Prop where
  attempts : s.attempts.Avoids fun _ a => s.ownRun workerId a.runId
  capacityAttempts : s.capacityAttempts.Avoids fun k _ => s.ownRun workerId k.1
  accountFences : s.accountFences.Avoids fun id _ => s.ownRun workerId id
  callbackTrace : s.callbackTrace.Avoids fun _ c => ∃ id ∈ c.runIds, s.ownRun workerId id
  callbackReconciliations :
    s.callbackReconciliations.Avoids fun _ c => ∃ id ∈ c.runIds, s.ownRun workerId id
  revocations : s.revocations.Avoids fun _ c => s.ownRun workerId c.binding.runId
  runActionUses : s.runActionUses.Avoids fun _ u => u.workerId ≠ workerId ∧
    (s.ownRun workerId u.sourceRunId ∨ ∃ id, u.newRunId = some id ∧ s.ownRun workerId id)
  delegations : s.delegations.Avoids fun _ d =>
    s.ownRun workerId d.initialRunId ∨ s.ownRun workerId d.currentRunId
  workTrace : s.workTrace.Avoids fun k _ => s.ownRun workerId k.1
  leases : s.leases.Avoids fun _ l => s.ownRun workerId l.runId
  requests : s.requests.Avoids fun id q => s.gcRequest workerId id = false ∧
    ∃ runId, q.runId = some runId ∧ s.ownRun workerId runId
  livenessEvents : s.livenessEvents.Avoids fun _ e => ∃ id ∈ e.runIds, s.ownRun workerId id

/-- No row that survives the deletions refers to the worker. -/
structure WorkerFree (s : Store) (workerId : WorkerId) : Prop where
  effects : s.effects.Avoids fun _ e => e.binding.workerId = workerId
  revocations : s.revocations.Avoids fun _ c => c.binding.workerId = workerId
  delegations : s.delegations.Avoids fun _ d => d.workerId = workerId
  leases : s.leases.Avoids fun _ l => l.workerId = workerId

/-- The deletion of the worker leaves the project without workers. -/
def lastOfProject (s : Store) (workerId : WorkerId) (projectId : ProjectId) : Prop :=
  (s.projects.get? projectId).isSome = true ∧
    ∀ id w, s.workers.get? id = some w → w.projectId = projectId → id = workerId

/-- No row that survives the deletions refers to the project. -/
structure ProjectFree (s : Store) (workerId : WorkerId) (projectId : ProjectId) : Prop where
  runs : s.runs.Avoids fun _ r => r.workerId ≠ workerId ∧ r.projectId = projectId
  events : s.events.Avoids fun _ e => e.workerId ≠ workerId ∧ e.projectId = projectId
  callbackOutbox : s.callbackOutbox.Avoids fun _ c => c.projectId = some projectId
  runActionUses :
    s.runActionUses.Avoids fun _ u => u.workerId ≠ workerId ∧ u.projectId = projectId
  delegations : s.delegations.Avoids fun _ d => d.projectId = projectId
  scheduledRuns :
    s.scheduledRuns.Avoids fun _ q => q.workerId ≠ workerId ∧ q.projectId = projectId
  definitions : s.definitions.Avoids fun _ d => d.workerId ≠ workerId ∧ d.projectId = projectId
  sessions : s.sessions.Avoids fun _ c => c.workerId ≠ workerId ∧ c.projectId = projectId

/-- The deletions of a garbage collection are allowed. -/
structure Collectable (s : Store) (workerId : WorkerId) (projectId : ProjectId) : Prop where
  callbacks : s.callbackOutbox.Avoids fun _ c => c.workerId = some workerId
  runs : s.RunsFree workerId
  worker : s.WorkerFree workerId
  project : s.lastOfProject workerId projectId → s.ProjectFree workerId projectId

/-! ## The three deletions that can fail -/

section Deletions

variable {s : Store} {workerId : WorkerId} {projectId : ProjectId}

variable {row : Worker} {s' : Store}

theorem deleteCallbacks_eq_ok :
    s.deleteCallbacks workerId = .ok s' ↔
      s' = s ∧ s.callbackOutbox.Avoids fun _ c => c.workerId = some workerId := by
  unfold deleteCallbacks
  split
  · rename_i h
    obtain ⟨k, c, hc, hw⟩ := Table.any_eq_true.mp h
    simp only [reduceCtorEq, false_iff, not_and]
    intro _ hfree
    exact hfree k c hc (by simpa using hw)
  · rename_i h
    rw [Bool.not_eq_true, Table.any_eq_false] at h
    simp only [Except.ok.injEq]
    constructor
    · rintro rfl
      exact ⟨rfl, fun k c hc => by simpa using h k c hc⟩
    · rintro ⟨rfl, -⟩
      rfl

/-- A run of the worker is a row that `DELETE FROM runs` selects. -/
theorem ownRun_iff (id : RunId) :
    (∃ r, s.runs.get? id = some r ∧ (r.workerId == workerId) = true) ↔ s.ownRun workerId id := by
  simp [ownRun]

theorem runsReferenced_gcDeleteDependents :
    (s.gcDeleteDependents workerId).runsReferenced (fun _ r => r.workerId == workerId) = false ↔
      s.RunsFree workerId := by
  simp only [runsReferenced, Bool.or_eq_false_iff, Table.referenced_eq_false_iff_avoids,
    gcDeleteDependents, Table.avoids_delete, ownRun_iff]
  constructor
  · rintro ⟨⟨⟨⟨⟨⟨⟨⟨⟨⟨⟨h₁, h₂⟩, h₃⟩, h₄⟩, h₅⟩, h₆⟩, h₇⟩, h₈⟩, h₉⟩, h₁₀⟩, h₁₁⟩, h₁₂⟩
    constructor <;> simp_all [or_and_right, exists_or]
  · rintro ⟨h₁, h₂, h₃, h₄, h₅, h₆, h₇, h₈, h₉, h₁₀, h₁₁, h₁₂⟩
    simp_all [or_and_right, exists_or]

/-- The store once the runs of the worker are deleted. -/
@[simps]
def withoutRuns (s : Store) (workerId : WorkerId) : Store :=
  { s.gcDeleteDependents workerId with
    runs := s.runs.delete fun _ r => r.workerId == workerId }

theorem deleteRuns_eq_ok :
    (s.gcDeleteDependents workerId).deleteRuns workerId = .ok s' ↔
      s' = s.withoutRuns workerId ∧ s.RunsFree workerId := by
  rw [← runsReferenced_gcDeleteDependents, deleteRuns]
  split
  · rename_i h
    simp [h]
  · rename_i h
    rw [Bool.not_eq_true] at h
    simp only [Except.ok.injEq, h, and_true]
    exact eq_comm

/-- The rows of `p` that a deletion of the worker selects. -/
theorem ownWorker_iff (hw : s.workers.get? workerId = some row)
    (hk : row.workspaceKind = .ephemeral) (id : WorkerId) :
    (∃ w, s.workers.get? id = some w ∧
      (id == workerId && w.workspaceKind == .ephemeral) = true) ↔ id = workerId := by
  constructor
  · rintro ⟨w, -, hp⟩
    simp only [Bool.and_eq_true, beq_iff_eq] at hp
    exact hp.1
  · rintro rfl
    exact ⟨row, hw, by simp [hk]⟩

theorem workersReferenced_withoutRuns (hw : s.workers.get? workerId = some row)
    (hk : row.workspaceKind = .ephemeral) :
    ((s.withoutRuns workerId).gcDeleteControlPlane workerId).workersReferenced
        (fun id w => id == workerId && w.workspaceKind == .ephemeral) = false ↔
      s.WorkerFree workerId ∧ s.callbackOutbox.Avoids fun _ c => c.workerId = some workerId := by
  simp only [workersReferenced, Bool.or_eq_false_iff, Table.referenced_eq_false_iff_avoids,
    gcDeleteControlPlane, withoutRuns, gcDeleteDependents, ownWorker_iff hw hk,
    Table.avoids_delete, beq_iff_eq, exists_eq_right]
  constructor
  · rintro ⟨⟨⟨⟨⟨⟨⟨⟨⟨⟨-, -⟩, h₃⟩, h₄⟩, h₅⟩, -⟩, h₇⟩, h₈⟩, -⟩, -⟩, -⟩
    exact ⟨⟨h₄, h₅, h₇, h₈⟩, h₃⟩
  · rintro ⟨⟨h₄, h₅, h₇, h₈⟩, h₃⟩
    -- the other tables that refer to the worker lost its rows before it
    have gone : ∀ v : WorkerId, ¬((v == workerId) = false ∧ v = workerId) := by
      rintro v ⟨hne, rfl⟩
      simp at hne
    refine ⟨⟨⟨⟨⟨⟨⟨⟨⟨⟨?_, ?_⟩, h₃⟩, h₄⟩, h₅⟩, ?_⟩, h₇⟩, h₈⟩, ?_⟩, ?_⟩, ?_⟩
    · exact fun _ r _ => gone r.workerId
    · exact fun _ r _ => gone r.workerId
    · exact fun _ r _ => gone r.workerId
    · exact fun _ r _ => gone r.workerId
    · exact fun _ r _ => gone r.workerId
    · rintro k c hc ⟨hne, heq⟩
      rw [gcSession, Table.any_eq_false] at hne
      simpa [heq] using hne k c hc

/-- The store once the worker is deleted. -/
@[simps]
def withoutWorker (s : Store) (workerId : WorkerId) : Store :=
  { (s.withoutRuns workerId).gcDeleteControlPlane workerId with
    workers := s.workers.delete fun id w => id == workerId && w.workspaceKind == .ephemeral }

theorem deleteWorker_eq_ok (hw : s.workers.get? workerId = some row)
    (hk : row.workspaceKind = .ephemeral)
    (hfree : s.callbackOutbox.Avoids fun _ c => c.workerId = some workerId) :
    ((s.withoutRuns workerId).gcDeleteControlPlane workerId).deleteWorker workerId = .ok s' ↔
      s' = s.withoutWorker workerId ∧ s.WorkerFree workerId := by
  have href := workersReferenced_withoutRuns (s := s) hw hk
  rw [deleteWorker]
  split
  · rename_i h
    rw [h] at href
    simp only [reduceCtorEq, false_iff, not_and] at href ⊢
    exact fun _ hworker => href hworker hfree
  · rename_i h
    rw [Bool.not_eq_true] at h
    simp only [Except.ok.injEq, (href.mp h).1, and_true]
    exact eq_comm

/-- The project row that the deletion of the worker leaves without workers. -/
theorem ownProject_iff (hw : s.workers.get? workerId = some row)
    (hk : row.workspaceKind = .ephemeral) (id : ProjectId) :
    (∃ p, s.projects.get? id = some p ∧ (id == projectId &&
      !((s.withoutWorker workerId).workers.any fun _ w => w.projectId == id)) = true) ↔
      id = projectId ∧ s.lastOfProject workerId projectId := by
  have hany : ((s.withoutWorker workerId).workers.any fun _ w => w.projectId == projectId) = false ↔
      ∀ id w, s.workers.get? id = some w → w.projectId = projectId → id = workerId := by
    simp only [withoutWorker_workers, Table.any_eq_false, Table.get?_delete_eq_some]
    constructor
    · intro h id w hid hp
      by_contra hne
      have := h id w ⟨hid, by simp [hne]⟩
      simp [hp] at this
    · rintro h id w ⟨hid, hdel⟩
      rw [beq_eq_false_iff_ne]
      intro hp
      obtain rfl := h id w hid hp
      obtain rfl : row = w := Option.some.inj (hw.symm.trans hid)
      simp [hk] at hdel
  constructor
  · rintro ⟨p, hp, hc⟩
    simp only [Bool.and_eq_true, beq_iff_eq, Bool.not_eq_true'] at hc
    obtain ⟨rfl, hc⟩ := hc
    exact ⟨rfl, by simp [hp], hany.mp hc⟩
  · rintro ⟨rfl, hsome, hlast⟩
    obtain ⟨p, hp⟩ := Option.isSome_iff_exists.mp hsome
    exact ⟨p, hp, by rw [hany.mpr hlast]; simp⟩

theorem projectsReferenced_withoutWorker (hw : s.workers.get? workerId = some row)
    (hk : row.workspaceKind = .ephemeral) :
    (s.withoutWorker workerId).projectsReferenced (fun id _ => id == projectId &&
        !((s.withoutWorker workerId).workers.any fun _ w => w.projectId == id)) = false ↔
      (s.lastOfProject workerId projectId → s.ProjectFree workerId projectId) := by
  have hproj : (s.withoutWorker workerId).projects = s.projects := rfl
  simp only [projectsReferenced, Bool.or_eq_false_iff, Table.referenced_eq_false_iff_avoids, hproj,
    ownProject_iff hw hk, beq_iff_eq]
  simp only [withoutWorker, gcDeleteControlPlane, withoutRuns, gcDeleteDependents,
    Table.avoids_delete]
  constructor
  · rintro ⟨⟨⟨⟨⟨⟨⟨⟨-, h₂⟩, h₃⟩, h₄⟩, h₅⟩, h₆⟩, h₇⟩, h₈⟩, h₉⟩ hlast
    refine ⟨?_, ?_, ?_, ?_, ?_, ?_, ?_, ?_⟩
    · exact fun k r hr h => h₂ k r hr ⟨by simpa using h.1, _, h.2, rfl, hlast⟩
    · exact fun k r hr h => h₃ k r hr ⟨by simpa using h.1, _, h.2, rfl, hlast⟩
    · exact fun k r hr h => h₄ k r hr ⟨_, h, rfl, hlast⟩
    · exact fun k r hr h => h₅ k r hr ⟨by simpa using h.1, _, h.2, rfl, hlast⟩
    · exact fun k r hr h => h₆ k r hr ⟨_, h, rfl, hlast⟩
    · exact fun k r hr h => h₇ k r hr ⟨by simpa using h.1, _, h.2, rfl, hlast⟩
    · exact fun k r hr h => h₈ k r hr ⟨by simpa using h.1, _, h.2, rfl, hlast⟩
    · refine fun k c hc h => h₉ k c hc ⟨?_, _, h.2, rfl, hlast⟩
      rw [gcSession, Table.any_eq_false]
      intro k' c' hc'
      by_cases hkk : k' = k
      · subst hkk
        obtain rfl : c = c' := Option.some.inj (hc.symm.trans hc')
        simp [h.1]
      · simp [hkk]
  · intro h
    refine ⟨⟨⟨⟨⟨⟨⟨⟨?_, ?_⟩, ?_⟩, ?_⟩, ?_⟩, ?_⟩, ?_⟩, ?_⟩, ?_⟩
    · rintro k w hw' ⟨hdel, _, hp, rfl, hlast⟩
      obtain rfl := hlast.2 k w hw' hp
      obtain rfl : row = w := Option.some.inj (hw.symm.trans hw')
      simp [hk] at hdel
    · rintro k r hr ⟨hne, _, hp, rfl, hlast⟩
      exact (h hlast).runs k r hr ⟨by simpa using hne, hp⟩
    · rintro k r hr ⟨hne, _, hp, rfl, hlast⟩
      exact (h hlast).events k r hr ⟨by simpa using hne, hp⟩
    · rintro k r hr ⟨_, hp, rfl, hlast⟩
      exact (h hlast).callbackOutbox k r hr hp
    · rintro k r hr ⟨hne, _, hp, rfl, hlast⟩
      exact (h hlast).runActionUses k r hr ⟨by simpa using hne, hp⟩
    · rintro k r hr ⟨_, hp, rfl, hlast⟩
      exact (h hlast).delegations k r hr hp
    · rintro k r hr ⟨hne, _, hp, rfl, hlast⟩
      exact (h hlast).scheduledRuns k r hr ⟨by simpa using hne, hp⟩
    · rintro k r hr ⟨hne, _, hp, rfl, hlast⟩
      exact (h hlast).definitions k r hr ⟨by simpa using hne, hp⟩
    · rintro k c hc ⟨hne, _, hp, rfl, hlast⟩
      refine (h hlast).sessions k c hc ⟨fun hcw => ?_, hp⟩
      rw [gcSession, Table.any_eq_false] at hne
      simpa [hcw] using hne k c hc

theorem deleteProject_eq_ok (hw : s.workers.get? workerId = some row)
    (hk : row.workspaceKind = .ephemeral) :
    (∃ s', (s.withoutWorker workerId).deleteProject projectId = .ok s') ↔
      (s.lastOfProject workerId projectId → s.ProjectFree workerId projectId) := by
  rw [← projectsReferenced_withoutWorker hw hk, deleteProject]
  split
  · rename_i h
    rw [h]
    simp
  · rename_i h
    rw [Bool.not_eq_true] at h
    rw [h]
    exact ⟨fun _ => rfl, fun _ => ⟨_, rfl⟩⟩

theorem deleteProject_workers (h : s.deleteProject projectId = .ok s') :
    s'.workers = s.workers ∧ s'.tombstones = s.tombstones := by
  simp only [deleteProject] at h
  split at h
  · cases h
  · cases h
    exact ⟨rfl, rfl⟩

private theorem bind_eq_ok {ε α β : Type} (x : Except ε α) (f : α → Except ε β) (b : β) :
    (x >>= f) = .ok b ↔ ∃ a, x = .ok a ∧ f a = .ok b := by
  cases x <;> simp [bind, Except.bind]

/-- The deletions go through on the rows that nothing refers to. -/
theorem gcDelete_eq_ok (hw : s.workers.get? workerId = some row)
    (hk : row.workspaceKind = .ephemeral) :
    s.gcDelete workerId projectId = .ok s' ↔
      (s.callbackOutbox.Avoids fun _ c => c.workerId = some workerId) ∧ s.RunsFree workerId ∧
        s.WorkerFree workerId ∧ (s.withoutWorker workerId).deleteProject projectId = .ok s' := by
  simp only [gcDelete, bind_eq_ok, deleteCallbacks_eq_ok]
  constructor
  · rintro ⟨_, ⟨rfl, hc⟩, s₁, h₁, s₂, h₂, h₃⟩
    obtain ⟨rfl, hr⟩ := deleteRuns_eq_ok.mp h₁
    obtain ⟨rfl, hwf⟩ := (deleteWorker_eq_ok hw hk hc).mp h₂
    exact ⟨hc, hr, hwf, h₃⟩
  · rintro ⟨hc, hr, hwf, h₃⟩
    exact ⟨s, ⟨rfl, hc⟩, _, deleteRuns_eq_ok.mpr ⟨rfl, hr⟩, _,
      (deleteWorker_eq_ok hw hk hc).mpr ⟨rfl, hwf⟩, h₃⟩

theorem gcDelete_isOk (hw : s.workers.get? workerId = some row)
    (hk : row.workspaceKind = .ephemeral) :
    (∃ s', s.gcDelete workerId projectId = .ok s') ↔ s.Collectable workerId projectId := by
  simp only [gcDelete_eq_ok hw hk, exists_and_left, deleteProject_eq_ok hw hk]
  exact ⟨fun ⟨h₁, h₂, h₃, h₄⟩ => ⟨h₁, h₂, h₃, h₄⟩, fun ⟨h₁, h₂, h₃, h₄⟩ => ⟨h₁, h₂, h₃, h₄⟩⟩

/-- What a collection leaves of the worker and its tombstone. -/
theorem gcDelete_rows (hw : s.workers.get? workerId = some row)
    (hk : row.workspaceKind = .ephemeral) (h : s.gcDelete workerId projectId = .ok s') :
    s'.workers.get? workerId = none ∧ s'.tombstones = s.tombstones := by
  obtain ⟨hworkers, htombstones⟩ := deleteProject_workers ((gcDelete_eq_ok hw hk).mp h).2.2.2
  refine ⟨?_, htombstones⟩
  rw [hworkers, withoutWorker_workers, Table.get?_delete, hw]
  simp [hk]

/-- A deletion does not look at pending changes. -/
theorem Collectable.withPending (h : s.Collectable workerId projectId)
    (pendingChanges : Table RowId PendingChange) :
    Collectable { s with pendingChanges } workerId projectId := by
  obtain ⟨c, ⟨r₁, r₂, r₃, r₄, r₅, r₆, r₇, r₈, r₉, r₁₀, r₁₁, r₁₂⟩, ⟨w₁, w₂, w₃, w₄⟩, p⟩ := h
  refine ⟨c, ⟨r₁, r₂, r₃, r₄, r₅, r₆, r₇, r₈, r₉, r₁₀, r₁₁, r₁₂⟩, ⟨w₁, w₂, w₃, w₄⟩, fun hl => ?_⟩
  obtain ⟨p₁, p₂, p₃, p₄, p₅, p₆, p₇, p₈⟩ := p hl
  exact ⟨p₁, p₂, p₃, p₄, p₅, p₆, p₇, p₈⟩

theorem collectable_expirePendingChanges (now : Time) :
    (s.expirePendingChanges workerId now).Collectable workerId projectId ↔
      s.Collectable workerId projectId :=
  ⟨fun h => h.withPending s.pendingChanges, fun h => h.withPending _⟩

end Deletions

/-! ## The transaction -/

/-- The finalization deleted the worker and left its tombstone to the cleanup. -/
structure Collected (o : Outcome (Option Worker)) (workerId : WorkerId) : Prop where
  returned : o.value?.isSome = true
  deleted : o.store.workers.get? workerId = none
  tombstone : (o.store.tombstones.get? workerId).map Tombstone.phase = some .cleanupPending

/-- For the holder of the claim on a claimed workspace without blockers, the finalization deletes
the worker if and only if the workspace is ephemeral and old enough, no callback of it is recorded,
and no row of a table that the routine does not mention refers to what it deletes. -/
theorem finalizeEphemeralWorkspaceGc_commits_iff {s : Store} {workerId : WorkerId} {token : Token}
    {updatedBefore now : Time} {t : Tombstone} {w : Worker}
    (hheld : s.heldTombstone workerId token = some t) (hw : s.workers.get? workerId = some w)
    (hstate : w.state = .gcClaimed)
    (hfree : (s.ephemeralGcHasBlocker workerId w.projectId now).1 = false) :
    Collected (s.finalizeEphemeralWorkspaceGc workerId token updatedBefore now) workerId ↔
      (w.workspaceKind = .ephemeral ∧ w.updatedAt < updatedBefore) ∧
        s.Collectable workerId w.projectId := by
  have hafter : s.ephemeralGcHasBlocker workerId w.projectId now =
      (false, s.expirePendingChanges workerId now) := by
    unfold ephemeralGcHasBlocker at hfree ⊢
    split at hfree
    · cases hfree
    · rename_i h
      rw [if_neg h]
      exact Prod.ext hfree rfl
  have hw' : (s.expirePendingChanges workerId now).workers.get? workerId = some w := hw
  by_cases helig : w.workspaceKind = .ephemeral ∧ w.updatedAt < updatedBefore
  · rw [← collectable_expirePendingChanges now, ← gcDelete_isOk hw' helig.1]
    simp only [finalizeEphemeralWorkspaceGc, hheld, hw, hstate, helig, hafter]
    cases hdel : (s.expirePendingChanges workerId now).gcDelete workerId w.projectId with
    | error e =>
      simp only [reduceCtorEq, exists_false, and_false, iff_false]
      rintro ⟨hret, -, -⟩
      simp at hret
    | ok s' =>
      obtain ⟨hgone, htomb⟩ := gcDelete_rows hw' helig.1 hdel
      have hphase : t.phase = .claimed ∧ t.claimToken = some token := by
        have := (Option.filter_eq_some_iff.mp hheld).2
        simpa using this
      have ht : s'.tombstones.get? workerId = some t := by
        rw [htomb]
        exact (Option.filter_eq_some_iff.mp hheld).1
      simp only [Except.ok.injEq, exists_eq', and_true, iff_true]
      refine ⟨rfl, ?_, ?_⟩
      · simpa using hgone
      · simp [Table.get?_update, ht, hphase]
  · have hskip : s.finalizeEphemeralWorkspaceGc workerId token updatedBefore now =
        .commit s none := by
      simp only [finalizeEphemeralWorkspaceGc, hheld, hw, hstate]
      rw [if_pos]
      simpa [Classical.not_and_iff_not_or_not, imp_iff_not_or] using helig
    rw [hskip]
    constructor
    · rintro ⟨hret, -, -⟩
      simp at hret
    · exact fun h => absurd h.1 helig

/-- A ready worker that never ran, claimed by the reaper with token `77`. -/
def collectIdle : List Call :=
  withWorker ++ [⟨3, .worker (.updateWorker 1 true { WorkerPatch.none with state := some .ready })⟩,
    ⟨50, .gc (.claimEphemeralWorkspaceGc 1 40 77 60 "")⟩]

/-- The reaper's claim of an idle worker meets the conditions. -/
theorem finalizeEphemeralWorkspaceGc_commits_iff_idle :
    ∃ w, (fromCalls collectIdle).workers.get? 1 = some w ∧
      (Collected ((fromCalls collectIdle).finalizeEphemeralWorkspaceGc 1 77 40 60) 1 ↔
        (w.workspaceKind = .ephemeral ∧ w.updatedAt < 40) ∧
          (fromCalls collectIdle).Collectable 1 w.projectId) := by
  have hheld : ((fromCalls collectIdle).heldTombstone 1 77).isSome = true := by decide
  have hrow : ((fromCalls collectIdle).workers.get? 1).map (fun w => (w.state, w.projectId)) =
      some (.gcClaimed, 0) := by
    decide
  obtain ⟨t, ht⟩ := Option.isSome_iff_exists.mp hheld
  obtain ⟨w, hw, hcols⟩ := Option.map_eq_some_iff.mp hrow
  have hstate : w.state = .gcClaimed := congrArg Prod.fst hcols
  have hproject : w.projectId = 0 := congrArg Prod.snd hcols
  refine ⟨w, hw, finalizeEphemeralWorkspaceGc_commits_iff ht hw hstate ?_⟩
  rw [hproject]
  decide

/-- A worker whose only run was claimed and failed before it began, claimed by the reaper. -/
def collectAfterRun : List Call :=
  withClaimedRun ++ [⟨5, .run (.finalizeRunIfStateParallel
      { runId := .uuid 3, expectedState := .claimed, state := .failed, outputText := "",
        errorText := "", usage := ⟨0, 0, 0, 0⟩, failure := .none,
        expected := { Generation.none with attemptId := some 4 } })⟩,
    ⟨6, .worker (.updateWorker 1 true { WorkerPatch.none with state := some .ready })⟩,
    ⟨50, .gc (.claimEphemeralWorkspaceGc 1 40 77 60 "")⟩]

/-- The attempt of a finished run makes the finalization of its claimed, unblocked workspace
fail. -/
theorem finalizeEphemeralWorkspaceGc_refused_after_run :
    (fromCalls collectAfterRun).Reachable ∧
      ((fromCalls collectAfterRun).heldTombstone 1 77).isSome = true ∧
      ((fromCalls collectAfterRun).workers.get? 1).map Worker.state = some .gcClaimed ∧
      ((fromCalls collectAfterRun).ephemeralGcHasBlocker 1 0 60).1 = false ∧
      ¬Collected ((fromCalls collectAfterRun).finalizeEphemeralWorkspaceGc 1 77 40 60) 1 := by
  refine ⟨reachable_fromCalls _, by decide, by decide, by decide, fun h => ?_⟩
  have hret := h.returned
  exact absurd hret (by decide)

end Store

end GlassHive
