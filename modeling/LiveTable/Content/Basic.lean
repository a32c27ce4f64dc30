import LiveTable.Stripe

/-! What a table holds: two lists of stripes and the cells where they cross.  A cell belongs to the
    identities of its two stripes, not to a position, so inserting, removing or rearranging stripes never
    moves a cell, and turning the table over only swaps which list plays the rows. -/

namespace LiveTable

/-- The two directions of a table. -/
inductive Axis where
  | row
  | column
  deriving DecidableEq, Repr

namespace Axis

/-- The other direction. -/
def cross : Axis → Axis
  | row => column
  | column => row

/-- The name of the direction. -/
def name : Axis → String
  | row => "row"
  | column => "column"

/-- Row and column of the cell at `index` along the stripe at `position`. -/
def coordinates (axis : Axis) (position index : Nat) : Nat × Nat :=
  match axis with
  | row => (position, index)
  | column => (index, position)

/-- Row and column identity of the cell where a stripe meets one of the other direction. -/
def cellIds (axis : Axis) (own other : StripeId) : StripeId × StripeId :=
  match axis with
  | row => (own, other)
  | column => (other, own)

end Axis

/-- The address of a cell: a stripe of the first list and one of the second. -/
structure CellKey where
  first : StripeId
  second : StripeId
  deriving DecidableEq, Repr

/-- Addresses compare by their first stripe, then by their second. -/
instance : Ord CellKey := ⟨compareLex (compareOn CellKey.first) (compareOn CellKey.second)⟩

instance : Std.TransOrd CellKey :=
  inferInstanceAs (Std.TransCmp (compareLex (compareOn CellKey.first) (compareOn CellKey.second)))

instance : Std.LawfulEqOrd CellKey where
  eq_of_compare {a b} equal := by
    have parts : (compare a.first b.first).then (compare a.second b.second) = .eq := equal
    rw [Ordering.then_eq_eq, Std.LawfulEqOrd.compare_eq_iff_eq, Std.LawfulEqOrd.compare_eq_iff_eq] at parts
    cases a
    cases b
    simp_all

/-- The address as descriptions show it. -/
def CellKey.describe (k : CellKey) : String :=
  s!"CellKey \x7b first: StripeId({k.first.value}), second: StripeId({k.second.value}) \x7d"

/-- The cells that are not null, by address. -/
abbrev Cells (α : Type) := Std.ExtTreeMap CellKey α

namespace Cells

variable {α : Type}

/-- The element at an address; a null cell has none. -/
def get? (cells : Cells α) (k : CellKey) : Option α := cells[k]?

/-- Makes a cell null. -/
def erase (cells : Cells α) (k : CellKey) : Cells α := Std.ExtTreeMap.erase cells k

/-- Gives a cell an element, or makes it null. -/
def put (cells : Cells α) (k : CellKey) : Option α → Cells α
  | some a => cells.insert k a
  | none => cells.erase k

theorem get?_erase (cells : Cells α) (k l : CellKey) :
    (cells.erase k).get? l = if k = l then none else cells.get? l := by
  simp [erase, get?, Std.ExtTreeMap.getElem?_erase]

theorem get?_put (cells : Cells α) (k l : CellKey) (element : Option α) :
    (cells.put k element).get? l = if k = l then element else cells.get? l := by
  cases element with
  | none => exact get?_erase cells k l
  | some a => simp [put, get?, Std.ExtTreeMap.getElem?_insert]

end Cells

/-- The whole value of a table. -/
structure Content (α : Type) where
  name : Option String := none
  first : Stripes := {}
  second : Stripes := {}
  /-- Whether the second list plays the rows. -/
  transposed : Bool := false
  cells : Cells α := ∅
  /-- The identity that the next stripe gets. -/
  nextId : Nat := 0

namespace Content

variable {α : Type}

/-- Whether a direction is played by the first list. -/
def isFirst (c : Content α) (axis : Axis) : Bool := (axis == .row) != c.transposed

/-- The stripes of a direction. -/
def stripes (c : Content α) (axis : Axis) : Stripes := if c.isFirst axis then c.first else c.second

/-- The rows, in order. -/
def rows (c : Content α) : Stripes := c.stripes .row

/-- The columns, in order. -/
def columns (c : Content α) : Stripes := c.stripes .column

/-- The number of stripes of a direction. -/
def count (c : Content α) (axis : Axis) : Nat := (c.stripes axis).size

/-- The number of rows. -/
def rowCount (c : Content α) : Nat := c.count .row

/-- The number of columns. -/
def columnCount (c : Content α) : Nat := c.count .column

/-- The address of the cell where a stripe of a direction meets one of the other. -/
def keyOn (c : Content α) (axis : Axis) (own other : StripeId) : CellKey :=
  if c.isFirst axis then ⟨own, other⟩ else ⟨other, own⟩

/-- The element where a row and a column meet. -/
def elementById (c : Content α) (row column : StripeId) : Option α := c.cells.get? (c.keyOn .row row column)

/-- The address of the cell at a row and column position. -/
def cellKey? (c : Content α) (row column : Nat) : Option CellKey :=
  match c.rows.idAt row, c.columns.idAt column with
  | some r, some k => some (c.keyOn .row r k)
  | _, _ => none

/-- The element at a position; a null cell and a position outside the table have none. -/
def element (c : Content α) (row column : Nat) : Option α := (c.cellKey? row column).bind c.cells.get?

/-- The elements along the stripe at a position. -/
def elements? (c : Content α) (axis : Axis) (position : Nat) : Option (List (Option α)) :=
  ((c.stripes axis).idAt position).map fun own =>
    (c.stripes axis.cross).toList.map fun other => c.cells.get? (c.keyOn axis own other.id)

/-- The elements of a row. -/
def rowElements? (c : Content α) (row : Nat) : Option (List (Option α)) := c.elements? .row row

/-- The elements of a column. -/
def columnElements? (c : Content α) (column : Nat) : Option (List (Option α)) := c.elements? .column column

/-- All rows with their elements. -/
def toRows (c : Content α) : List (List (Option α)) := (List.range c.rowCount).filterMap c.rowElements?

/-- The title of the stripe at a position. -/
def title (c : Content α) (axis : Axis) (position : Nat) : Option String :=
  ((c.stripes axis).get? position).bind Stripe.title

/-- The titles of a direction, in order. -/
def titles (c : Content α) (axis : Axis) : List (Option String) := (c.stripes axis).titles

/-- The element of a row in the column with a title. -/
def elementByColumnTitle (c : Content α) (row : Nat) (columnTitle : String) : Option α :=
  (c.columns.positionOfTitle columnTitle).bind fun column => c.element row column

/-- The element where the row with one title meets the column with another. -/
def elementAt (c : Content α) (rowTitle columnTitle : String) : Option α :=
  (c.rows.positionOfTitle rowTitle).bind fun row => c.elementByColumnTitle row columnTitle

/-- Whether two contents have the same size and the same element in every cell. -/
def sameElements [DecidableEq α] (a b : Content α) : Bool :=
  a.rowCount == b.rowCount && a.columnCount == b.columnCount &&
    (List.range a.rowCount).all fun row =>
      (List.range a.columnCount).all fun column => a.element row column == b.element row column

/-- Whether two contents have the same elements, titles and name. -/
def same [DecidableEq α] (a b : Content α) : Bool :=
  a.sameElements b && a.name == b.name && a.titles .row == b.titles .row &&
    a.titles .column == b.titles .column

end Content

end LiveTable
