import LiveTable.Content.Growth

/-! Snapshots: a content as plain lists, detached from identities and revisions. -/

namespace LiveTable

/-- Name, titles and elements of a table.  A list of titles may be shorter or longer than the table it
    describes. -/
structure Snapshot (α : Type) where
  name : Option String := none
  columnTitles : List (Option String) := []
  rowTitles : List (Option String) := []
  rows : List (List (Option α)) := []
  deriving DecidableEq, Repr

namespace Content

variable {α : Type}

/-- A content with the given rows; short rows are filled up with null cells. -/
def ofRows (rows : List (List (Option α))) : Content α :=
  let width := (rows.map List.length).foldl max 0
  rows.foldl (fun c row => c.insertStripe .row c.rowCount row) (({} : Content α).growTo 0 width)

/-- The content as plain lists. -/
def snapshot (c : Content α) : Snapshot α where
  name := c.name
  columnTitles := c.titles .column
  rowTitles := c.titles .row
  rows := c.toRows

/-- A content as described by a snapshot, large enough for its rows and its titles. -/
def ofSnapshot (s : Snapshot α) : Content α :=
  let sized := (ofRows s.rows).growTo s.rowTitles.length s.columnTitles.length
  { (sized.setTitles .row s.rowTitles).setTitles .column s.columnTitles with name := s.name }

end Content

end LiveTable
