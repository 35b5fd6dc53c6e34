import Mathlib.Data.List.Nodup

/-!
# Requests that are answered in groups

Requests are asked in groups, and each of them is answered once. The answers of a group go out
together, as soon as none of its requests waits for one.
-/

namespace Exchange

/-- What has been asked, and what has been answered, as it came. -/
structure Book (ρ μ : Type*) where
  asked : List ρ := []
  answers : List (ρ × μ) := []

namespace Book

variable {ρ μ γ : Type*}

/-- The requests that have an answer. -/
def answered (b : Book ρ μ) : List ρ :=
  b.answers.map Prod.fst

/-- More that is asked, and more that is answered. -/
def record (b : Book ρ μ) (asked : List ρ) (answers : List (ρ × μ)) : Book ρ μ :=
  ⟨b.asked ++ asked, b.answers ++ answers⟩

variable [DecidableEq ρ]

/-- The requests that wait for an answer. -/
def waiting (b : Book ρ μ) : List ρ :=
  b.asked.filter fun r => r ∉ b.answered

variable [DecidableEq γ]

/-- No request of a group waits. -/
def complete (group : ρ → γ) (b : Book ρ μ) (g : γ) : Bool :=
  b.waiting.all fun r => group r ≠ g

/-- The answers of a group. -/
def gathered (group : ρ → γ) (b : Book ρ μ) (g : γ) : List (ρ × μ) :=
  b.answers.filter fun e => group e.1 = g

/-- What goes out when something has come of a group. -/
def settled (group : ρ → γ) (b : Book ρ μ) (g : γ) : List (ρ × μ) :=
  if b.complete group g then b.gathered group g else []

end Book

open Book

variable {ρ μ γ : Type*} {b : Book ρ μ} {rs : List ρ} {as : List (ρ × μ)} {r : ρ}

@[simp]
theorem asked_record : (b.record rs as).asked = b.asked ++ rs := rfl

@[simp]
theorem answers_record : (b.record rs as).answers = b.answers ++ as := rfl

@[simp]
theorem answered_record : (b.record rs as).answered = b.answered ++ as.map Prod.fst := by
  simp [answered]

theorem mem_answered_of_mem {m : μ} (h : (r, m) ∈ b.answers) : r ∈ b.answered :=
  List.mem_map_of_mem h

theorem waiting_subset [DecidableEq ρ] (h : r ∈ b.waiting) : r ∈ b.asked :=
  List.mem_of_mem_filter h

/-- Every request is asked once and answered at most once, and what has gone out are the requests of
the groups that are complete. -/
structure Sound (group : ρ → γ) (b : Book ρ μ) (out : List ρ) : Prop where
  asked : b.asked.Nodup
  answers : b.answered.Nodup
  subset : ∀ r ∈ b.answered, r ∈ b.asked
  nodup_out : out.Nodup
  mem_out : ∀ r, r ∈ out ↔ r ∈ b.asked ∧ ∀ r' ∈ b.asked, group r' = group r → r' ∈ b.answered

theorem sound_empty (group : ρ → γ) : Sound group (⟨[], []⟩ : Book ρ μ) [] :=
  ⟨List.nodup_nil, List.nodup_nil, by simp [answered], List.nodup_nil, by simp⟩

variable [DecidableEq γ] {group : ρ → γ} {g : γ}

theorem mem_map_gathered :
    r ∈ (b.gathered group g).map Prod.fst ↔ r ∈ b.answered ∧ group r = g := by
  simp only [gathered, answered, List.mem_map, List.mem_filter, decide_eq_true_eq]
  constructor
  · rintro ⟨e, ⟨he, hgroup⟩, rfl⟩
    exact ⟨⟨e, he, rfl⟩, hgroup⟩
  · rintro ⟨⟨e, he, rfl⟩, hgroup⟩
    exact ⟨e, ⟨he, hgroup⟩, rfl⟩

theorem gathered_record : (b.record rs as).gathered group g =
    b.gathered group g ++ as.filter fun e => group e.1 = g :=
  List.filter_append ..

variable [DecidableEq ρ]

@[simp]
theorem mem_waiting : r ∈ b.waiting ↔ r ∈ b.asked ∧ r ∉ b.answered := by
  simp [waiting]

/-- The requests that wait once another one has its answer. -/
theorem mem_waiting_answer {r' : ρ} {m : μ} :
    r' ∈ (b.record [] [(r, m)]).waiting ↔ r' ∈ b.waiting ∧ r' ≠ r := by
  simp only [mem_waiting, asked_record, answered_record, List.append_nil, List.map_cons,
    List.map_nil, List.mem_append, List.mem_singleton, not_or]
  tauto

/-- The requests that wait once more is asked, some of it with answers. -/
theorem mem_waiting_ask (hold : ∀ r ∈ b.answered, r ∈ b.asked) (hnew : ∀ r ∈ rs, r ∉ b.asked)
    (hsubset : ∀ r ∈ as.map Prod.fst, r ∈ rs) :
    r ∈ (b.record rs as).waiting ↔ r ∈ b.waiting ∨ r ∈ rs ∧ r ∉ as.map Prod.fst := by
  simp only [mem_waiting, asked_record, answered_record, List.mem_append, not_or]
  constructor
  · rintro ⟨hasked | hr, hopen, hunanswered⟩
    · exact Or.inl ⟨hasked, hopen⟩
    · exact Or.inr ⟨hr, hunanswered⟩
  · rintro (⟨hasked, hopen⟩ | ⟨hr, hunanswered⟩)
    · exact ⟨Or.inl hasked, hopen, fun hmem => hnew r (hsubset r hmem) hasked⟩
    · exact ⟨Or.inr hr, fun hmem => hnew r hr (hold r hmem), hunanswered⟩

theorem mem_answers_of_mem_settled {e : ρ × μ} (h : e ∈ b.settled group g) :
    e ∈ b.answers ∧ group e.1 = g := by
  unfold settled at h
  split at h
  · simpa [gathered] using h
  · simp at h

theorem complete_iff :
    b.complete group g = true ↔ ∀ r ∈ b.asked, group r = g → r ∈ b.answered := by
  simp only [complete, List.all_eq_true, mem_waiting, decide_eq_true_eq]
  constructor
  · intro h r hasked hgroup
    by_contra hopen
    exact h r ⟨hasked, hopen⟩ hgroup
  · exact fun h r hr hgroup => hr.2 (h r hr.1 hgroup)

theorem mem_map_settled :
    r ∈ (b.settled group g).map Prod.fst ↔
      r ∈ b.answered ∧ group r = g ∧ ∀ r ∈ b.asked, group r = g → r ∈ b.answered := by
  unfold settled
  split
  · rename_i hcomplete
    rw [mem_map_gathered, and_iff_left (complete_iff.mp hcomplete)]
  · rename_i hopen
    rw [complete_iff] at hopen
    simp [hopen]

namespace Sound

variable {out : List ρ}

/-- What is recorded of a group of which nothing has gone out. -/
theorem record (h : Sound group b out) (hasked : (b.record rs as).asked.Nodup)
    (hanswers : (b.record rs as).answered.Nodup)
    (hsubset : ∀ r ∈ (b.record rs as).answered, r ∈ (b.record rs as).asked)
    (hrs : ∀ r ∈ rs, group r = g) (has : ∀ r ∈ as.map Prod.fst, group r = g)
    (hopen : ∀ r ∈ out, group r ≠ g) :
    Sound group (b.record rs as)
      (out ++ ((b.record rs as).settled group g).map Prod.fst) := by
  have hgathered : ((b.record rs as).settled group g).map Prod.fst |>.Nodup := by
    unfold settled
    split
    · exact hanswers.sublist (List.filter_sublist.map _)
    · exact List.nodup_nil
  refine ⟨hasked, hanswers, hsubset, ?_, fun r => ?_⟩
  · refine h.nodup_out.append hgathered fun r hout hsettled => ?_
    exact hopen r hout (mem_map_settled.mp hsettled).2.1
  rw [List.mem_append, mem_map_settled]
  by_cases hgroup : group r = g
  · -- nothing of this group has gone out before
    have hnone : r ∉ out := fun hout => hopen r hout hgroup
    rw [hgroup]
    constructor
    · rintro (hout | ⟨hanswered, -, hall⟩)
      · exact absurd hout hnone
      · exact ⟨hsubset r hanswered, hall⟩
    · rintro ⟨hr, hall⟩
      exact Or.inr ⟨hall r hr hgroup, rfl, hall⟩
  · -- of another group nothing is recorded
    have hasks : ∀ r', group r' = group r → (r' ∈ (b.record rs as).asked ↔ r' ∈ b.asked) := by
      intro r' hr'
      have hnew : r' ∉ rs := fun hmem => hgroup (hr' ▸ hrs r' hmem)
      simp [hnew]
    have hanswer : ∀ r', group r' = group r →
        (r' ∈ (b.record rs as).answered ↔ r' ∈ b.answered) := by
      intro r' hr'
      have hnew : r' ∉ as.map Prod.fst := fun hmem => hgroup (hr' ▸ has r' hmem)
      rw [answered_record, List.mem_append, or_iff_left hnew]
    rw [h.mem_out, hasks r rfl]
    constructor
    · rintro (⟨hr, hall⟩ | ⟨-, heq, -⟩)
      · refine ⟨hr, fun r' hr' hsame => (hanswer r' hsame).mpr (hall r' ?_ hsame)⟩
        exact (hasks r' hsame).mp hr'
      · exact absurd heq hgroup
    · rintro ⟨hr, hall⟩
      refine Or.inl ⟨hr, fun r' hr' hsame => (hanswer r' hsame).mp (hall r' ?_ hsame)⟩
      exact (hasks r' hsame).mpr hr'

/-- A new group is asked, and some of its requests are answered at once. -/
theorem ask (h : Sound group b out) (hrs : rs.Nodup) (hgroup : ∀ r ∈ rs, group r = g)
    (hnew : ∀ r ∈ b.asked, group r ≠ g) (has : (as.map Prod.fst).Nodup)
    (hsubset : ∀ r ∈ as.map Prod.fst, r ∈ rs) :
    Sound group (b.record rs as)
      (out ++ ((b.record rs as).settled group g).map Prod.fst) := by
  have hdistinct : ∀ r ∈ b.asked, r ∉ rs := fun r hr hmem => hnew r hr (hgroup r hmem)
  refine h.record ?_ ?_ ?_ hgroup (fun r hr => hgroup r (hsubset r hr)) fun r hr => ?_
  · exact h.asked.append hrs hdistinct
  · rw [answered_record]
    exact h.answers.append has fun r hr hmem => hdistinct r (h.subset r hr) (hsubset r hmem)
  · intro r hr
    rw [answered_record, List.mem_append] at hr
    exact List.mem_append.mpr (hr.imp (h.subset r) (hsubset r))
  · exact hnew r ((h.mem_out r).mp hr).1

/-- A request that waits is answered. -/
theorem answer (h : Sound group b out) (hr : r ∈ b.waiting) (m : μ) :
    Sound group (b.record [] [(r, m)])
      (out ++ ((b.record [] [(r, m)]).settled group (group r)).map Prod.fst) := by
  rw [mem_waiting] at hr
  refine h.record ?_ ?_ ?_ (by simp) (by simp) fun r' hout hsame => ?_
  · simpa using h.asked
  · rw [answered_record]
    exact h.answers.append (List.nodup_singleton _) (by simpa using hr.2)
  · intro r' hr'
    rw [answered_record, List.mem_append] at hr'
    rcases hr' with hold | hnew
    · simpa using h.subset r' hold
    · obtain rfl : r' = r := by simpa using hnew
      simpa using hr.1
  · exact hr.2 (((h.mem_out r').mp hout).2 r hr.1 hsame.symm)

end Sound

/-- What goes out of a group is all of it. -/
theorem together_settled {r' : ρ} (hr : r ∈ (b.settled group g).map Prod.fst)
    (hr' : r' ∈ b.asked) (hsame : group r' = group r) :
    r' ∈ (b.settled group g).map Prod.fst := by
  obtain ⟨-, hgroup, hall⟩ := mem_map_settled.mp hr
  exact mem_map_settled.mpr ⟨hall r' hr' (hsame.trans hgroup), hsame.trans hgroup, hall⟩

end Exchange
