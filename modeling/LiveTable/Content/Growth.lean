import LiveTable.Content.Edit

/-! Growth: appending empty stripes until a position or a title exists.  Columns are appended before
    rows, and what was appended is reported as two ranges of positions. -/

namespace LiveTable

/-- The first position that no table reaches: counting the stripes up to it would leave the range of sizes. -/
def unaddressable : Nat := 0xffffffffffffffff

/-- The positions of the stripes that growing appended, each range as its start and its end. -/
structure Growth where
  rows : Nat × Nat := (0, 0)
  columns : Nat × Nat := (0, 0)
  deriving DecidableEq, Repr

/-- Whether nothing was appended. -/
def Growth.isEmpty (g : Growth) : Bool := g.rows.2 ≤ g.rows.1 && g.columns.2 ≤ g.columns.1

namespace Content

variable {α : Type}

/-- Appends one empty stripe. -/
def appendEmpty (c : Content α) (axis : Axis) : Content α := c.insertStripe axis (c.count axis) []

/-- Appends a number of empty stripes. -/
def appendEmpties (c : Content α) (axis : Axis) : Nat → Content α
  | 0 => c
  | n + 1 => (c.appendEmpty axis).appendEmpties axis n

/-- Appends empty columns, then empty rows, until there are at least the given numbers of both. -/
def growTo (c : Content α) (rows columns : Nat) : Content α :=
  let wide := c.appendEmpties .column (columns - c.columnCount)
  wide.appendEmpties .row (rows - wide.rowCount)

/-- What was appended between a content and what it grew into. -/
def growthTo (c grown : Content α) : Growth where
  rows := (c.rowCount, grown.rowCount)
  columns := (c.columnCount, grown.columnCount)

/-- The address of a cell in the content grown to hold it; `none` if no table can reach the position. -/
def growToCell (c : Content α) (row column : Nat) : Option (CellKey × Growth × Content α) :=
  if row < unaddressable ∧ column < unaddressable then
    let grown := c.growTo (row + 1) (column + 1)
    (grown.cellKey? row column).map fun k => (k, c.growthTo grown, grown)
  else none

/-- The position of the first stripe with a title, appending a stripe of that title if there is none. -/
def growToTitle (c : Content α) (axis : Axis) (title : String) : Nat × Growth × Content α :=
  match (c.stripes axis).positionOfTitle title with
  | some position => (position, {}, c)
  | none =>
    let grown := c.appendEmpty axis
    (c.count axis, c.growthTo grown, grown.setTitle axis (c.count axis) (some title))

end Content

end LiveTable
