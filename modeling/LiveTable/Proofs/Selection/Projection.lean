import LiveTable.Content.Snapshot
import LiveTable.Selection.Plan
import Mathlib.Data.List.Nodup
import Mathlib.Data.List.Count

/-! The columns of a selection that asks only for all columns, in some of its stages.  A request stands
    for the columns of its own stage and of those later ones that make no request, so a column comes once
    for the request of its stage, or else once for each request before it.  No column from the first
    request on is left out, and one comes again exactly if its stage makes no request and two stages
    before it do. -/

namespace LiveTable.Selection

variable {α : Type} {s : Selection α} {stages : List (Stage α)} {calls : List Nat} {slot : Nat × Nat}

/-! ### The columns of one stage -/

/-- The columns of a stage belong to that stage. -/
theorem mem_allOfStage {stage : Nat} :
    slot ∈ allOfStage stages stage ↔ slot.1 = stage ∧ slot ∈ allOfStage stages slot.1 := by
  have own (mem : slot ∈ allOfStage stages stage) : slot.1 = stage := by
    rw [allOfStage] at mem
    split at mem
    · obtain ⟨column, -, rfl⟩ := List.mem_map.mp mem
      rfl
    · exact absurd mem List.not_mem_nil
  refine ⟨fun mem => ⟨own mem, (own mem).symm ▸ mem⟩, fun ⟨same, mem⟩ => same ▸ mem⟩

theorem nodup_allOfStage (stage : Nat) : (allOfStage stages stage).Nodup := by
  rw [allOfStage]
  split
  · exact List.nodup_range.map fun _ _ same => (Prod.mk.inj same).2
  · exact List.nodup_nil

/-- Stages that there are not have no columns. -/
theorem lt_of_mem_allOfStage (mem : slot ∈ allOfStage stages slot.1) : slot.1 < stages.length := by
  rw [allOfStage] at mem
  split at mem
  · next found => exact (List.getElem?_eq_some_iff.mp found).1
  · exact absurd mem List.not_mem_nil

/-! ### One request -/

/-- What a request for all columns covers: its own stage, and the later ones that ask for no columns of
    their own. -/
def Covers (s : Selection α) (call stage : Nat) : Prop := stage = call ∨ call < stage ∧ s.owns stage = false

instance (s : Selection α) (call stage : Nat) : Decidable (s.Covers call stage) :=
  inferInstanceAs (Decidable (_ ∨ _))

theorem mem_expand_allColumns {call : Nat} :
    slot ∈ s.expand stages call .allColumns ↔ slot ∈ allOfStage stages slot.1 ∧ s.Covers call slot.1 := by
  rw [expand, List.mem_append, mem_allOfStage, List.mem_flatMap, Covers]
  constructor
  · rintro (⟨own, mem⟩ | ⟨later, behind, mem⟩)
    · exact ⟨mem, .inl own⟩
    · obtain ⟨after, -⟩ := List.mem_range'_1.mp behind
      cases asks : s.owns later with
      | true =>
        rw [asks, if_pos rfl] at mem
        exact absurd mem List.not_mem_nil
      | false =>
        rw [asks, if_neg Bool.false_ne_true] at mem
        obtain ⟨rfl, mem⟩ := mem_allOfStage.mp mem
        exact ⟨mem, .inr ⟨after, asks⟩⟩
  · rintro ⟨mem, own | ⟨after, asks⟩⟩
    · exact .inl ⟨own, mem⟩
    · have inside := lt_of_mem_allOfStage mem
      refine .inr ⟨slot.1, List.mem_range'_1.mpr ⟨after, by omega⟩, ?_⟩
      rwa [asks, if_neg Bool.false_ne_true]

/-- One request alone stands for no column twice. -/
theorem nodup_expand_allColumns (call : Nat) : (s.expand stages call .allColumns).Nodup := by
  have own : ∀ later, ∀ slot ∈ (if s.owns later then [] else allOfStage stages later), slot.1 = later := by
    intro later slot mem
    split at mem
    · exact absurd mem List.not_mem_nil
    · exact (mem_allOfStage.mp mem).1
  refine List.nodup_append.mpr ⟨nodup_allOfStage call, List.nodup_flatMap.mpr ⟨fun later _ => ?_, ?_⟩, ?_⟩
  · split
    · exact List.nodup_nil
    · exact nodup_allOfStage later
  · refine (List.pairwise_lt_range' 1).imp fun {a b} before slot here there => ?_
    exact Nat.ne_of_lt before ((own a slot here).symm.trans (own b slot there))
  · intro slot here other there same
    obtain ⟨later, behind, there⟩ := List.mem_flatMap.mp there
    obtain ⟨after, -⟩ := List.mem_range'_1.mp behind
    have first := (mem_allOfStage.mp here).1
    have second := own later other there
    subst same
    omega

/-! ### Several requests -/

/-- A column comes once for each request that covers its stage. -/
theorem count_flatMap_expand (slot : Nat × Nat) : ∀ calls : List Nat,
    (calls.flatMap fun call => s.expand stages call .allColumns).count slot =
      if slot ∈ allOfStage stages slot.1 then calls.countP (fun call => s.Covers call slot.1) else 0
  | [] => by simp
  | call :: later => by
    have first : (s.expand stages call .allColumns).count slot =
        if slot ∈ allOfStage stages slot.1 ∧ s.Covers call slot.1 then 1 else 0 := by
      rw [(nodup_expand_allColumns call).count]
      simp only [mem_expand_allColumns]
    rw [List.flatMap_cons, List.count_append, first, count_flatMap_expand slot later, List.countP_cons]
    by_cases there : slot ∈ allOfStage stages slot.1
    · simp only [there, true_and, if_true, decide_eq_true_eq]
      exact Nat.add_comm _ _
    · simp only [there, false_and, if_false]

/-- Requests for all columns and for nothing else. -/
theorem projected_eq (only : s.projections = calls.map fun call => (call, .allColumns)) (asked : calls ≠ []) :
    s.projected stages = calls.flatMap fun call => s.expand stages call .allColumns := by
  have some_asked : s.projections.isEmpty = false := by
    rw [only, List.isEmpty_map]
    exact List.isEmpty_eq_false_iff.mpr asked
  rw [projected, some_asked, if_neg Bool.false_ne_true, only, List.flatMap_map]

/-- Those who make such a request ask for columns of their own. -/
theorem owns_eq_true_iff (only : s.projections = calls.map fun call => (call, .allColumns)) {stage : Nat} :
    s.owns stage = true ↔ stage ∈ calls := by
  rw [owns, only, List.any_map, List.any_eq_true]
  simp

/-- How many of the requests cover a stage: its own, or else all those before it. -/
theorem countP_covers (only : s.projections = calls.map fun call => (call, .allColumns)) (stage : Nat) :
    calls.countP (fun call => s.Covers call stage) =
      if stage ∈ calls then calls.count stage else calls.countP (· < stage) := by
  by_cases asks : stage ∈ calls
  · have owns : s.owns stage = true := (owns_eq_true_iff only).mpr asks
    rw [if_pos asks, List.count]
    refine List.countP_congr fun call _ => ?_
    simpa [Covers, owns] using eq_comm
  · have owns : s.owns stage = false := Bool.eq_false_iff.mpr (mt (owns_eq_true_iff only).mp asks)
    rw [if_neg asks]
    refine List.countP_congr fun call mem => ?_
    have other : stage ≠ call := fun same => asks (same ▸ mem)
    simp [Covers, owns, other]

/-- A selection that asks for all columns in some of its stages and asks for nothing else: a column of a
    stage that asks comes once for each time, and one of a stage that does not ask comes once for each
    request before that stage.  So every column of every stage from the first request on is there, and if
    no stage asks twice, none is there twice exactly if each stage that has columns and does not ask has
    at most one request before it. -/
theorem projected_allColumns (stages : List (Stage α))
    (only : s.projections = calls.map fun call => (call, .allColumns)) (asked : calls ≠ [])
    (once : calls.Nodup) : (∀ slot, (s.projected stages).count slot =
      if slot ∈ allOfStage stages slot.1 then
        if slot.1 ∈ calls then 1 else calls.countP (· < slot.1)
      else 0) ∧
    (∀ slot, slot ∈ s.projected stages ↔ slot ∈ allOfStage stages slot.1 ∧ ∃ call ∈ calls, call ≤ slot.1) ∧
    ((s.projected stages).Nodup ↔
      ∀ stage, allOfStage stages stage ≠ [] → stage ∉ calls → calls.countP (· < stage) ≤ 1) := by
  have count (slot : Nat × Nat) : (s.projected stages).count slot =
      if slot ∈ allOfStage stages slot.1 then
        if slot.1 ∈ calls then 1 else calls.countP (· < slot.1)
      else 0 := by
    rw [projected_eq only asked, count_flatMap_expand, countP_covers only]
    by_cases asks : slot.1 ∈ calls
    · simp only [asks, if_true, List.count_eq_one_of_mem once asks]
    · simp only [asks, if_false]
  refine ⟨count, fun slot => ?_, ?_⟩
  · rw [← List.count_pos_iff, count]
    by_cases there : slot ∈ allOfStage stages slot.1
    · by_cases asks : slot.1 ∈ calls
      · simp only [there, asks, if_true, true_and, Nat.zero_lt_one, true_iff]
        exact ⟨slot.1, asks, Nat.le_refl _⟩
      · simp only [there, asks, if_true, if_false, true_and, List.countP_pos_iff, decide_eq_true_eq]
        refine exists_congr fun call => and_congr_right fun mem => ?_
        exact (Nat.lt_iff_le_and_ne.trans (and_iff_left fun same => asks (same ▸ mem)))
    · simp [there]
  · rw [List.nodup_iff_count_le_one]
    constructor
    · intro atMost stage filled silent
      obtain ⟨slot, mem⟩ := List.exists_mem_of_ne_nil _ filled
      obtain ⟨rfl, there⟩ := mem_allOfStage.mp mem
      have bound := atMost slot
      rwa [count, if_pos there, if_neg silent] at bound
    · intro atMost slot
      rw [count]
      split
      · next there =>
        split
        · exact Nat.le_refl 1
        · next silent => exact atMost slot.1 (List.ne_nil_of_mem there) silent
      · exact Nat.zero_le 1

/-- Two requests with a stage between them that makes none: its columns come once, as only one request is
    before it, and so does every other column. -/
theorem projected_allColumns_apart :
    let s : Selection String := (((start ⟨0⟩).project .allColumns).join ⟨1⟩ |>.join ⟨2⟩).project .allColumns
    let stages := s.stages fun _ => Content.ofRows [[some "a", none], [none]]
    (s.projected stages).count (1, 1) = 1 ∧ (2, 0) ∈ s.projected stages ∧ (s.projected stages).Nodup := by
  intro s stages
  have only : s.projections = [0, 2].map fun call => (call, .allColumns) := rfl
  obtain ⟨counted, covered, distinct⟩ := projected_allColumns stages only (by decide) (by decide)
  refine ⟨(counted (1, 1)).trans (by decide +kernel), (covered (2, 0)).mpr (by decide +kernel), ?_⟩
  refine distinct.mpr fun stage filled _ => ?_
  match stage with
  | 0 => decide
  | 1 => decide
  | 2 => decide
  | n + 3 => exact absurd rfl filled

/-- Requests in the first two of three stages: the columns of the third come for each of them. -/
theorem projected_allColumns_repeats :
    let s : Selection String := (((start ⟨0⟩).project .allColumns).join ⟨1⟩ |>.project .allColumns).join ⟨2⟩
    let stages := s.stages fun _ => Content.ofRows [[some "a"]]
    s.projections = [0, 1].map (fun call => (call, .allColumns)) ∧
      s.projected stages = [(0, 0), (2, 0), (1, 0), (2, 0)] ∧ ¬(s.projected stages).Nodup := by
  decide +kernel

end LiveTable.Selection
