import LiveTable.Content.Window
import LiveTable.Proofs.Content.Growth
import LiveTable.Proofs.Content.Snapshot
import LiveTable.Proofs.Workspace.Frame

/-! What a window shows.  A window is the content that a snapshot describes, the one with the elements
    and the titles between two positions of each direction, so its size, its elements and its titles are
    read off that snapshot.  Two windows that cut the same lists out are one content, whatever they were
    cut out of, and a window of a window cuts out what one window at the right positions of the source
    does. -/

namespace LiveTable.Content

variable {α : Type}

/-- A range of positions with each end drawn back to a size. -/
def drawnBack (size : Nat) (range : Nat × Nat) : Nat × Nat := (min range.1 size, min range.2 size)

/-- Where a range of positions in a window stands in its source, if the window shows the range `outer` of
    it. -/
def partOf (outer inner : Nat × Nat) : Nat × Nat :=
  let own := drawnBack (outer.2 - outer.1) inner
  (outer.1 + own.1, outer.1 + own.2)

example : partOf (2, 5) (1, 9) = (3, 5) ∧ partOf (5, 2) (1, 9) = (5, 5) := by decide

theorem getElem?_span (start stop i : Nat) :
    (span start stop)[i]? = if i < stop - start then some (start + i) else none := by
  split
  · next inside => rw [span, List.getElem?_range' inside, Nat.one_mul]
  · next beyond => simp [span, Nat.le_of_not_lt beyond]

@[simp] theorem length_span (start stop : Nat) : (span start stop).length = stop - start := List.length_range'

theorem span_add (shift start stop : Nat) :
    span (shift + start) (shift + stop) = (span start stop).map (shift + ·) := by
  rw [span, span, List.map_add_range', Nat.add_sub_add_left]

/-- The part of a range drawn back does not reach past the table either. -/
theorem drawnBack_partOf {size : Nat} (range inner : Nat × Nat) :
    drawnBack size (partOf (drawnBack size range) inner) = partOf (drawnBack size range) inner := by
  simp only [drawnBack, partOf, Prod.mk.injEq]
  omega

/-- Going through a range of positions in a window, or through the part of the source that they show. -/
theorem map_span_part {β : Type} {f g : Nat → β} (start : Nat) {size : Nat} (range : Nat × Nat)
    (same : ∀ i < size, f i = g (start + i)) :
    (span (drawnBack size range).1 (drawnBack size range).2).map f =
      (span (start + (drawnBack size range).1) (start + (drawnBack size range).2)).map g := by
  rw [span_add, List.map_map]
  refine List.map_congr_left fun i mem => same i ?_
  have before := (List.mem_range'_1.mp mem).2
  simp only [drawnBack] at before
  omega

variable (c : Content α)

/-- Name, titles and elements between the given positions of both directions. -/
def cutout (rows columns : Nat × Nat) : Snapshot α where
  name := c.name
  columnTitles := (span columns.1 columns.2).map (c.title .column)
  rowTitles := (span rows.1 rows.2).map (c.title .row)
  rows := (span rows.1 rows.2).map fun row => (span columns.1 columns.2).map (c.element row)

theorem window_eq (rows columns : Nat × Nat) :
    c.window rows columns =
      ofSnapshot (c.cutout (drawnBack c.rowCount rows) (drawnBack c.columnCount columns)) := by
  rw [ofSnapshot, cutout, List.length_map, List.length_map]
  rfl

theorem snapshot_window (rows columns : Nat × Nat) :
    (c.window rows columns).snapshot =
      c.cutout (drawnBack c.rowCount rows) (drawnBack c.columnCount columns) := by
  rw [window_eq, snapshot_ofSnapshot]
  refine Snapshot.padded_eq_self (by simp [cutout]) fun row mem => ?_
  obtain ⟨_, -, rfl⟩ := List.mem_map.mp mem
  simp [cutout]

/-! ### Reading a snapshot -/

section Reading

variable {c} {w : Content α} {rows columns : Nat × Nat} (shows : w.snapshot = c.cutout rows columns)
include shows

theorem titles_of_cutout (axis : Axis) :
    w.titles axis = (span (axis.pick rows columns).1 (axis.pick rows columns).2).map (c.title axis) := by
  cases axis
  · exact congrArg Snapshot.rowTitles shows
  · exact congrArg Snapshot.columnTitles shows

theorem count_of_cutout (axis : Axis) :
    w.count axis = (axis.pick rows columns).2 - (axis.pick rows columns).1 := by
  rw [← length_titles, titles_of_cutout shows, List.length_map, length_span]

theorem title_of_cutout (axis : Axis) (i : Nat) :
    w.title axis i = if i < w.count axis then c.title axis ((axis.pick rows columns).1 + i) else none := by
  rw [title_eq, titles_of_cutout shows, count_of_cutout shows, List.getElem?_map, getElem?_span]
  split <;> rfl

theorem element_of_cutout (i j : Nat) :
    w.element i j = if i < w.rowCount ∧ j < w.columnCount then c.element (rows.1 + i) (columns.1 + j)
      else none := by
  have cut : w.toRows = (c.cutout rows columns).rows := congrArg Snapshot.rows shows
  have tall : w.rowCount = rows.2 - rows.1 := count_of_cutout shows .row
  have wide : w.columnCount = columns.2 - columns.1 := count_of_cutout shows .column
  rw [element_eq, ← toRows_eq, cut, cutout, List.getElem?_map, getElem?_span, tall, wide]
  by_cases below : i < rows.2 - rows.1
  · rw [if_pos below, Option.map_some, Option.bind_some, List.getElem?_map, getElem?_span]
    by_cases beside : j < columns.2 - columns.1 <;> simp [below, beside]
  · simp [below]

theorem name_of_cutout : w.name = c.name := congrArg Snapshot.name shows

/-- Cutting out of what was cut out. -/
theorem cutout_of_cutout (rows' columns' : Nat × Nat) :
    w.cutout (drawnBack w.rowCount rows') (drawnBack w.columnCount columns') =
      c.cutout (partOf rows rows') (partOf columns columns') := by
  have tall : rows.2 - rows.1 = w.rowCount := (count_of_cutout shows .row).symm
  have wide : columns.2 - columns.1 = w.columnCount := (count_of_cutout shows .column).symm
  simp only [cutout, partOf, tall, wide, Snapshot.mk.injEq]
  refine ⟨name_of_cutout shows, ?_, ?_, ?_⟩
  · exact map_span_part columns.1 columns' fun j inside =>
      (title_of_cutout shows .column j).trans (if_pos inside)
  · exact map_span_part rows.1 rows' fun i inside => (title_of_cutout shows .row i).trans (if_pos inside)
  · refine map_span_part rows.1 rows' fun i below => map_span_part columns.1 columns' fun j beside => ?_
    rw [element_of_cutout shows, if_pos ⟨below, beside⟩]

end Reading

/-- A window shows exactly the area between its positions, each first drawn back to the size of the
    table, and it shows an empty area as one of that height and width.  A window of a window is one
    window of the source.  Taking it adds a table and leaves all others as they were. -/
theorem window_copies (c : Content α) (rows columns : Nat × Nat) :
    let r := drawnBack c.rowCount rows
    let k := drawnBack c.columnCount columns
    let w := c.window rows columns
    w.rowCount = r.2 - r.1 ∧ w.columnCount = k.2 - k.1 ∧
      (∀ i j, w.element i j =
        if i < w.rowCount ∧ j < w.columnCount then c.element (r.1 + i) (k.1 + j) else none) ∧
      (∀ i, w.title .row i = if i < w.rowCount then c.title .row (r.1 + i) else none) ∧
      (∀ j, w.title .column j = if j < w.columnCount then c.title .column (k.1 + j) else none) ∧
      w.name = c.name ∧
      (∀ rows' columns', w.window rows' columns' = c.window (partOf r rows') (partOf k columns')) ∧
      ∀ {κ : Type} (ws : Workspace α κ) (t : TableId),
        let made := ws.addTable { content := (ws.content t).window rows columns }
        ∀ u, made.2.table u =
          if u = made.1 then { content := (ws.content t).window rows columns } else ws.table u := by
  intro r k w
  have shows : w.snapshot = c.cutout r k := c.snapshot_window rows columns
  refine ⟨count_of_cutout shows .row, count_of_cutout shows .column, element_of_cutout shows,
    title_of_cutout shows .row, title_of_cutout shows .column, name_of_cutout shows, fun rows' columns' => ?_,
    fun ws t => ws.table_addTable _⟩
  rw [window_eq, cutout_of_cutout shows, window_eq, drawnBack_partOf, drawnBack_partOf]

end LiveTable.Content
