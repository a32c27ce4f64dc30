import LiveTable.Proofs.Grid.Refinement

/-! The grid that a snapshot describes, and the grid of a table whose content was replaced.  Both come
    about by rows appended to columns that are there already, with the titles given at the end; what
    stood in the table before has no part in it. -/

namespace LiveTable

open Grid (fit)

variable {α ω : Type}

/-- Rows of one width without titles. -/
def Grid.untitled (width : Nat) (rows : List (List (Option α))) : Grid α where
  rows := rows
  rowTitles := List.replicate rows.length none
  columnTitles := List.replicate width none

namespace Content

variable {c : Content α} {axis : Axis}

@[simp] theorem name_appendEmpties (c : Content α) (axis : Axis) (n : Nat) :
    (c.appendEmpties axis n).name = c.name := by
  induction n generalizing c with
  | zero => rfl
  | succ n ih => rw [appendEmpties, ih, appendEmpty, name_insertStripe]

@[simp] theorem name_growTo (c : Content α) (rows columns : Nat) : (c.growTo rows columns).name = c.name := by
  simp [growTo]

@[simp] theorem name_setTitles (c : Content α) (axis : Axis) (titles : List (Option String)) :
    (c.setTitles axis titles).name = c.name := by
  rw [setTitles]
  generalize titles.zipIdx = entries
  induction entries generalizing c with
  | nil => rfl
  | cons entry rest ih => rw [List.foldl_cons, ih, name_setTitle]

/-- A content with rows appended to it, one after the other. -/
def appendRows (c : Content α) (rows : List (List (Option α))) : Content α :=
  rows.foldl (fun c row => c.insertStripe .row c.rowCount row) c

theorem name_appendRows (rows : List (List (Option α))) : (c.appendRows rows).name = c.name := by
  rw [appendRows]
  induction rows generalizing c with
  | nil => rfl
  | cons row rest ih => rw [List.foldl_cons, ih, name_insertStripe]

theorem Valid.grid_appendRows (h : c.Valid) (rows : List (List (Option α))) :
    (c.appendRows rows).grid =
      { rows := c.grid.rows ++ rows.map (fit c.columnCount)
        rowTitles := c.grid.rowTitles ++ List.replicate rows.length none
        columnTitles := c.grid.columnTitles } := by
  rw [appendRows]
  induction rows generalizing c with
  | nil => simp
  | cons row rest ih =>
    have appended : (c.insertStripe .row c.rowCount row).grid =
        { rows := c.grid.rows ++ [fit c.columnCount row]
          rowTitles := c.grid.rowTitles ++ [none]
          columnTitles := c.grid.columnTitles } := by
      have tall : c.rowCount = c.grid.rows.length := (length_toRows c).symm
      have titled : c.rowCount = c.grid.rowTitles.length := (count_grid c .row).symm
      have inserted : (c.insertStripe .row c.rowCount row).grid = c.grid.insert .row c.rowCount row :=
        h.grid_insertStripe (Nat.le_refl _) row
      rw [inserted, Grid.insert, count_grid]
      simp only [Grid.mk.injEq, and_true]
      exact ⟨tall ▸ List.insertIdx_length_self, titled ▸ List.insertIdx_length_self⟩
    have width : (c.insertStripe .row c.rowCount row).columnCount = c.columnCount :=
      count_insertStripe_cross c .row _ _
    rw [List.foldl_cons, ih (h.insertStripe .row _ row), appended, width]
    simp [List.replicate_succ]

theorem Valid.appendRows (h : c.Valid) (rows : List (List (Option α))) : (c.appendRows rows).Valid := by
  rw [Content.appendRows]
  induction rows generalizing c with
  | nil => exact h
  | cons row rest ih => exact ih (h.insertStripe .row _ row)

/-- Rows appended to the columns of a content that was empty. -/
theorem Valid.grid_appendRows_growTo (h : c.Valid) (empty : c.grid = {}) (width : Nat)
    (rows : List (List (Option α))) :
    ((c.growTo 0 width).appendRows rows).grid = Grid.untitled width (rows.map (fit width)) := by
  have columns : (c.growTo 0 width).grid = Grid.untitled width [] := by
    rw [h.grid_growTo, empty]
    simp [Grid.untitled, Grid.pad, Grid.extend, Grid.count, Grid.titles]
  have wide : (c.growTo 0 width).columnCount = width := by
    rw [columnCount, ← count_grid, columns]
    simp [Grid.untitled, Grid.count, Grid.titles]
  rw [(h.growTo 0 width).grid_appendRows, columns, wide]
  simp [Grid.untitled]

theorem grid_ofRows (rows : List (List (Option α))) :
    let width := (rows.map List.length).foldl max 0
    (ofRows rows).grid = Grid.untitled width (rows.map (fit width)) :=
  valid_empty.grid_appendRows_growTo (grid_clear {}) _ rows

theorem name_ofSnapshot (s : Snapshot α) : (ofSnapshot s).name = s.name := rfl

/-- A snapshot describes its rows, filled up to one width and padded to its titles, with these titles in
    front. -/
theorem grid_ofSnapshot (s : Snapshot α) :
    (ofSnapshot s).grid =
      (((ofRows s.rows).grid.pad s.rowTitles.length s.columnTitles.length).mapTitles .row fun old =>
          s.rowTitles ++ old.drop s.rowTitles.length).mapTitles .column fun old =>
        s.columnTitles ++ old.drop s.columnTitles.length := by
  let sized := (ofRows s.rows).growTo s.rowTitles.length s.columnTitles.length
  have tall : s.rowTitles.length ≤ sized.count .row := by
    show _ ≤ sized.rowCount
    rw [rowCount_growTo]
    exact Nat.le_max_right ..
  have wide : s.columnTitles.length ≤ (sized.setTitles .row s.rowTitles).count .column := by
    rw [count_setTitles]
    show _ ≤ sized.columnCount
    rw [columnCount_growTo]
    exact Nat.le_max_right ..
  show ((sized.setTitles .row s.rowTitles).setTitles .column s.columnTitles).grid = _
  rw [grid_setTitles_front wide, grid_setTitles_front tall, (valid_ofRows s.rows).grid_growTo]

end Content

namespace Edit

variable {e : Edit α ω}

/-- A row that the table is wide enough for is appended without any growth. -/
theorem content_addElements {row : List (Option α)} (fits : row.length ≤ e.content.columnCount) :
    (e.addElements .row row).2.content = e.content.insertStripe .row e.content.rowCount row := by
  have same : (e.growAlong .row e.content.rowCount row.length).content = e.content :=
    (content_growAlong ..).trans (Content.growTo_of_le (Nat.le_refl _) fits)
  show (Edit.announce _ _ _).content = _
  rw [content_announce]
  exact congrArg (Content.insertStripe · .row e.content.rowCount row) same

/-- Appending rows that the table is wide enough for appends no columns. -/
theorem content_addRows {rows : List (List (Option α))}
    (fits : ∀ row ∈ rows, row.length ≤ e.content.columnCount) :
    (rows.foldl (fun e row => (e.addElements .row row).2) e).content = e.content.appendRows rows := by
  rw [Content.appendRows]
  induction rows generalizing e with
  | nil => rfl
  | cons row rest ih =>
    have added := content_addElements (fits row List.mem_cons_self)
    have width : (e.addElements .row row).2.content.columnCount = e.content.columnCount := by
      rw [added]
      exact Content.count_insertStripe_cross e.content .row _ row
    have later : ∀ r ∈ rest, r.length ≤ (e.addElements .row row).2.content.columnCount := by
      intro r mem
      rw [width]
      exact fits r (List.mem_cons_of_mem row mem)
    rw [List.foldl_cons, List.foldl_cons, ih later, added]

/-- A table whose content was replaced shows the elements, the titles and the name of the other one. -/
theorem grid_replace (e : Edit α ω) (source : Content α) :
    (e.replace source).content.grid = source.grid ∧ (e.replace source).content.name = source.name := by
  let cleared : Content α := { e.content.clear with name := source.name }
  let filled := (cleared.growTo 0 source.columnCount).appendRows source.toRows
  have valid : cleared.Valid := (Content.Valid.clear e.content).rename source.name
  have width : ∀ row ∈ source.toRows, row.length = source.columnCount :=
    fun row mem => Content.length_of_mem_toRows mem
  have content : (e.replace source).content =
      (filled.setTitles .row (source.titles .row)).setTitles .column (source.titles .column) := by
    let named := e.clear.quietly ({ · with name := source.name })
    have named_eq : named.content = cleared := by
      rw [content_quietly]
      exact congrArg (fun c : Content α => { c with name := source.name }) (content_announce ..)
    have wide_eq : (named.growTo 0 source.columnCount).content = cleared.growTo 0 source.columnCount := by
      rw [content_growTo, named_eq]
    have fits :
        ∀ row ∈ source.toRows, row.length ≤ (named.growTo 0 source.columnCount).content.columnCount := by
      intro row mem
      rw [wide_eq, Content.columnCount_growTo, width row mem]
      exact Nat.le_max_right ..
    show (Edit.quietly _ _).content = _
    rw [content_quietly, content_addRows fits, wide_eq]
  have untitled : filled.grid = Grid.untitled source.columnCount source.toRows := by
    rw [valid.grid_appendRows_growTo (Content.grid_clear e.content), map_fit_of_length width]
  have tall : (source.titles .row).length = filled.count .row := by
    rw [← Content.count_grid, untitled, Grid.count, Grid.titles, Grid.untitled, List.length_replicate,
      Content.length_toRows, Content.length_titles]
    rfl
  have wide :
      (source.titles .column).length = (filled.setTitles .row (source.titles .row)).count .column := by
    rw [Content.count_setTitles, ← Content.count_grid, untitled, Grid.count, Grid.titles, Grid.untitled,
      List.length_replicate, Content.length_titles]
    rfl
  refine ⟨?_, ?_⟩
  · rw [content, Content.grid_setTitles wide, Content.grid_setTitles tall, untitled]
    rfl
  · rw [content, Content.name_setTitles, Content.name_setTitles, Content.name_appendRows, Content.name_growTo]

end Edit

end LiveTable
