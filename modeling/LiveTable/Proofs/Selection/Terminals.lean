import LiveTable.Proofs.Content.Snapshot
import LiveTable.Proofs.Selection.Search
import LiveTable.Proofs.SortedMap

/-! The three forms of a result.  Every row that a search hands out is a projection, so it is as wide as
    the list of projected columns is long, however many rows there are and however many columns.  The
    table is therefore the content that a snapshot of these rows describes, with the titles as its only
    measure when there are no rows.  Each projected column is one that its stage has, so its title is a
    title of the source. -/

namespace LiveTable.Selection

variable {α : Type} {s : Selection α} {stages : List (Stage α)} {slot : Nat × Nat}

/-! ### The projected columns -/

/-- The stage of a projected column, and that it has this column. -/
def Finds (stages : List (Stage α)) (slot : Nat × Nat) : Prop :=
  ∃ stage, stages[slot.1]? = some stage ∧ slot.2 < stage.columnIds.length

theorem finds_of_mem_allOfStage {k : Nat} (mem : slot ∈ allOfStage stages k) : Finds stages slot := by
  rw [allOfStage] at mem
  split at mem
  · next stage found =>
    obtain ⟨column, inside, rfl⟩ := List.mem_map.mp mem
    exact ⟨stage, found, List.mem_range.mp inside⟩
  · simp at mem

theorem lt_of_locate {stage : Stage α} {column : Nat} :
    ∀ {place : ColumnPlace}, stage.locate place = some column →
    column < stage.columnIds.length
  | .position k, place => by
    rw [Stage.locate] at place
    split at place
    · next inside => exact Option.some.inj place ▸ inside
    · simp at place
  | .stripe id, place => (List.findIdx?_eq_some_iff_findIdx_eq.mp place).1

/-- A reference that is resolved stands for a column of the stage that it names. -/
theorem finds_of_resolve {r : ColumnRef} (found : r.resolve stages = some slot) : Finds stages slot := by
  rw [ColumnRef.resolve] at found
  split at found
  · simp at found
  · next at? =>
    obtain ⟨column, located, rfl⟩ := Option.map_eq_some_iff.mp found
    obtain ⟨stage, here, place⟩ := Option.bind_eq_some_iff.mp located
    exact ⟨stage, here, lt_of_locate place⟩

theorem finds_of_mem_expand {k : Nat} : ∀ {p : Projection}, slot ∈ s.expand stages k p → Finds stages slot
  | .allColumns, mem => by
    rw [expand, List.mem_append, List.mem_flatMap] at mem
    rcases mem with own | ⟨later, -, mem⟩
    · exact finds_of_mem_allOfStage own
    · split at mem
      · simp at mem
      · exact finds_of_mem_allOfStage mem
  | .column column, mem => finds_of_mem_allOfStage (List.mem_filter.mp mem).1
  | .reference r, mem => finds_of_resolve (Option.mem_toList.mp mem)
  | .allOf table, mem => by
    rw [expand] at mem
    split at mem
    · exact finds_of_mem_allOfStage mem
    · simp at mem

theorem finds_of_mem_projected (mem : slot ∈ s.projected stages) : Finds stages slot := by
  rw [projected] at mem
  split at mem
  · exact finds_of_mem_allOfStage mem
  · obtain ⟨request, -, mem⟩ := List.mem_flatMap.mp mem
    exact finds_of_mem_expand mem

/-- A projected column is a column of the table of its stage, and goes by the title that it has there. -/
theorem exists_step_of_mem_projected {tables : TableId → Content α}
    (mem : slot ∈ s.projected (s.stages tables)) :
    ∃ step, s.steps[slot.1]? = some step ∧ slot.2 < (tables step.table).columnCount ∧
      columnTitle (s.stages tables) slot = (tables step.table).title .column slot.2 ∧
      (s.stages tables)[slot.1]?.bind Stage.name = (tables step.table).name := by
  obtain ⟨stage, found, inside⟩ := finds_of_mem_projected mem
  have at_step := found
  rw [stages, List.getElem?_map] at at_step
  obtain ⟨step, here, rfl⟩ := Option.map_eq_some_iff.mp at_step
  refine ⟨step, here, ?_, ?_, ?_⟩
  · rwa [Content.columnCount, Content.count_eq]
  · rw [columnTitle, found, Content.title_eq]
    rfl
  · rw [found]
    rfl

/-! ### The rows -/

section Rows

variable [DecidableEq α]

/-- A search hands out what it is given and what it had. -/
theorem mem_of_mem_feed {ρ : Type} {limit : Option Nat} {r : ρ} :
    ∀ {results : List ρ} {progress : Progress ρ},
    r ∈ (feed limit results progress).found → r ∈ results ∨ r ∈ progress.found
  | [], _, mem => .inr mem
  | result :: rest, progress, mem => by
    have known (mem : r ∈ result :: progress.found) : r ∈ result :: rest ∨ r ∈ progress.found :=
      (List.mem_cons.mp mem).imp_left fun same => List.mem_cons.mpr (.inl same)
    rw [feed] at mem
    split at mem
    · exact (mem_of_mem_feed mem).elim (fun later => .inl (List.mem_cons_of_mem _ later)) known
    · exact known mem

/-- Every row of the result is the projection of a joined row. -/
theorem exists_projectRow_of_mem {row : List (Option α)} (mem : row ∈ s.rowsOver stages) :
    ∃ bound, row = projectRow stages (s.projected stages) bound := by
  let found := (descend stages s.limit (projectRow stages (s.projected stages)) (s.levels stages) [] {}).found
  have projection : ∀ row ∈ found, ∃ bound, row = projectRow stages (s.projected stages) bound := by
    intro row mem
    rw [show found = (descend _ _ _ _ _ _).found from rfl, descend_eq_feed _ _ _ _ _ rfl] at mem
    rcases mem_of_mem_feed mem with mem | mem
    · obtain ⟨bound, -, rfl⟩ := List.mem_map.mp mem
      exact ⟨bound, rfl⟩
    · simp at mem
  have kept : row ∈ (if s.distinct then dropRepeats found.reverse else found.reverse).drop s.skip := by
    rw [rowsOver] at mem
    split at mem
    · exact List.mem_of_mem_take mem
    · exact mem
  have among : row ∈ found.reverse := by
    have before := List.mem_of_mem_drop kept
    split at before
    · rwa [dropRepeats_eq, List.mem_eraseDups] at before
    · exact before
  exact projection row (List.mem_reverse.mp among)

theorem length_of_mem_rowsOver {row : List (Option α)} (mem : row ∈ s.rowsOver stages) :
    row.length = (s.projected stages).length := by
  obtain ⟨bound, rfl⟩ := exists_projectRow_of_mem mem
  exact List.length_map ..

end Rows

/-! ### The table -/

/-- The rows of the result under the titles of its columns. -/
def resultSnapshot [Element α] (s : Selection α) (tables : TableId → Content α) : Snapshot α where
  name := ((s.projected (s.stages tables)).head?.bind fun slot => (s.stages tables)[slot.1]?).bind Stage.name
  columnTitles := (s.projected (s.stages tables)).map (columnTitle (s.stages tables))
  rows := s.asRows tables

variable [Element α] {tables : TableId → Content α}

theorem asTable_eq (s : Selection α) (tables : TableId → Content α) :
    s.asTable tables = .ofSnapshot (s.resultSnapshot tables) := by
  have widened (c : Content α) (n : Nat) : c.growTo c.rowCount n = c.growTo 0 n :=
    (Content.growTo_of_tall (Nat.le_refl _) n).trans (Content.growTo_of_tall (Nat.zero_le _) n).symm
  rw [asTable, widened, Content.ofSnapshot, resultSnapshot, List.length_map]
  rfl

theorem snapshot_asTable (s : Selection α) (tables : TableId → Content α) :
    (s.asTable tables).snapshot =
      { s.resultSnapshot tables with rowTitles := List.replicate (s.asRows tables).length none } := by
  rw [asTable_eq, Content.snapshot_ofSnapshot, Snapshot.padded_of_width (Nat.zero_le _)]
  · rfl
  · intro row mem
    rw [resultSnapshot, List.length_map]
    exact length_of_mem_rowsOver mem

/-! ### The map -/

theorem asSortedMap_eq (s : Selection α) (tables : TableId → Content α) :
    s.asSortedMap tables = SortedMap.byKey (fun row => row[0]?.join) (s.asRows tables) := by
  simp only [asSortedMap, SortedMap.byKey, List.head?_eq_getElem?]

/-- The three forms of a result agree.  The table has the rows of the result and one column for each
    projected one, also without rows or without columns; its titles are those of the source columns, and
    its name is that of the table of the first column.  The map shows the first elements of the rows,
    ascending, with the last row of each. -/
theorem terminals_agree [Std.LawfulEqOrd α] [Std.TransOrd α] (s : Selection α)
    (tables : TableId → Content α) :
    let rows := s.asRows tables
    let slots := s.projected (s.stages tables)
    let result := s.asTable tables
    let map := s.asSortedMap tables
    (result.toRows = rows ∧ result.columnCount = slots.length) ∧
      (∀ i slot, slots[i]? = some slot → ∃ step, s.steps[slot.1]? = some step ∧
        slot.2 < (tables step.table).columnCount ∧
        result.title .column i = (tables step.table).title .column slot.2) ∧
      (slots = [] → result.name = none) ∧
      (∀ slot, slots[0]? = some slot → ∃ step, s.steps[slot.1]? = some step ∧
        result.name = (tables step.table).name) ∧
      map.Latest (fun row => row[0]?.join) rows ∧
      ∀ k, k ∈ map.keys ↔ ∃ row ∈ rows, row[0]? = some (some k) := by
  intro rows slots result map
  have shows : result.snapshot = _ := snapshot_asTable s tables
  have titles : result.titles .column = slots.map (columnTitle (s.stages tables)) :=
    congrArg Snapshot.columnTitles shows
  have name : result.name = (slots.head?.bind fun slot => (s.stages tables)[slot.1]?).bind Stage.name :=
    congrArg Snapshot.name shows
  have latest : map.Latest (fun row => row[0]?.join) rows := by
    rw [show map = _ from asSortedMap_eq s tables]
    exact SortedMap.latest_byKey _ rows
  refine ⟨⟨congrArg Snapshot.rows shows, ?_⟩, fun i slot at? => ?_, fun none_at => ?_,
    fun slot first => ?_, latest, fun k => ?_⟩
  · rw [Content.columnCount, ← Content.length_titles, titles, List.length_map]
  · obtain ⟨step, found, inside, title, -⟩ := exists_step_of_mem_projected (List.mem_of_getElem? at?)
    refine ⟨step, found, inside, ?_⟩
    rw [Content.title_eq, titles, List.getElem?_map, at?, Option.map_some, Option.join_some, title]
  · rw [name, none_at]
    rfl
  · obtain ⟨step, found, -, -, named⟩ := exists_step_of_mem_projected (List.mem_of_getElem? first)
    refine ⟨step, found, ?_⟩
    rw [name, List.head?_eq_getElem?, first]
    exact named
  · simp [latest.mem_keys, Option.join_eq_some_iff]

/-- A self join with a repeated column and a reference to a column that is not there; two rows of the
    result begin with the same element. -/
theorem terminals_agree_joined :
    let tables : TableId → Content String := fun _ =>
      .ofSnapshot ⟨some "stock", [some "kind", some "size"], [],
        [[some "b", some "1"], [none, some "2"], [some "b", none]]⟩
    let s : Selection String := ((((start ⟨0⟩).columns [0, 1]).join ⟨0⟩).project (.column 0)).project
      (.reference ⟨⟨0⟩, .position 7⟩)
    let slots := s.projected (s.stages tables)
    slots = [(0, 0), (0, 1), (1, 0)] ∧ (s.asTable tables).columnCount = 3 ∧
      (s.asTable tables).title .column 2 = some "kind" ∧ (s.asTable tables).name = some "stock" ∧
      (s.asSortedMap tables).keys = ["b"] ∧
        (s.asSortedMap tables).get? "b" = some [some "b", none, some "b"] := by
  intro tables s slots
  have listed : slots = [(0, 0), (0, 1), (1, 0)] := by decide +kernel
  obtain ⟨⟨-, width⟩, titles, -, named, latest, -⟩ := terminals_agree s tables
  obtain ⟨step, -, -, title⟩ := titles 2 (1, 0) (by decide +kernel)
  obtain ⟨first, -, name⟩ := named (0, 0) (by decide +kernel)
  refine ⟨listed, width.trans (by decide +kernel), title.trans ?_, name.trans ?_, by decide +kernel,
    (latest.get? "b").trans (by decide +kernel)⟩
  · decide +kernel
  · decide +kernel

end LiveTable.Selection
