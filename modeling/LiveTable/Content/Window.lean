import LiveTable.Content.Snapshot
import LiveTable.Element
import LiveTable.SortedMap
import LiveTable.Text.Pattern

/-! Copies and views of a content: a rectangular window of it, its rows as a map from the elements of one
    column, the columns whose titles match a pattern, and a short description. -/

namespace LiveTable.Content

variable {α : Type}

/-- The positions from `start` up to `stop`. -/
def span (start stop : Nat) : List Nat := List.range' start (stop - start)

/-- A copy of the area between the given positions, each first drawn back to the size of the table.  The
    copied stripes keep their titles and the copy keeps the name. -/
def window (c : Content α) (rows columns : Nat × Nat) : Content α :=
  let rowSpan := span (min rows.1 c.rowCount) (min rows.2 c.rowCount)
  let columnSpan := span (min columns.1 c.columnCount) (min columns.2 c.columnCount)
  let copied := ofRows (rowSpan.map fun row => columnSpan.map fun column => c.element row column)
  let sized := copied.growTo rowSpan.length columnSpan.length
  let titled := (sized.setTitles .row (rowSpan.map (c.title .row))).setTitles .column
    (columnSpan.map (c.title .column))
  { titled with name := c.name }

/-- The rows by their element in a column.  Rows with a null key are left out and the last row of a key
    wins. -/
def toSortedMap [Ord α] (c : Content α) (key : Nat) : SortedMap α (List (Option α)) :=
  SortedMap.ofList (c.toRows.filterMap fun row => (row[key]?.join).map fun k => (k, row))

/-- The elements of one column by those of another. -/
def toSortedMapOf [Ord α] (c : Content α) (key value : Nat) : SortedMap α (Option α) :=
  SortedMap.ofList ((List.range c.rowCount).filterMap fun row =>
    (c.element row key).map fun k => (k, c.element row value))

/-- The positions of the columns whose titles match a pattern. -/
def columnsMatching (c : Content α) (pattern : Pattern) : List Nat :=
  (List.range c.columnCount).filter fun column => (c.title .column column).any pattern.isMatch

/-- Name and size, as descriptions show them. -/
def describe (c : Content α) : String :=
  let name := match c.name with
    | some name => "Some(" ++ Text.quote name ++ ")"
    | none => "None"
  "Table \x7b name: " ++ name ++ s!", rows: {c.rowCount}, columns: {c.columnCount} \x7d"

end LiveTable.Content
