import LiveTable.Index.Groups
import LiveTable.Observer

/-! Column indexes: the rows of a table grouped by their element in one column.  The column is known by
    identity; as long as that stripe is no column, because it was removed or has become a row, the index
    is empty. -/

namespace LiveTable

/-- The index of one column. -/
structure ColumnIndex (α : Type) where
  column : StripeId
  groups : Groups α := {}

namespace ColumnIndex

variable {α : Type} [Ord α]

/-- Groups all rows anew. -/
def rebuild (x : ColumnIndex α) (c : Content α) : ColumnIndex α :=
  match c.columns.positionOf x.column with
  | none => { x with groups := {} }
  | some _ =>
    { x with groups := c.rows.toList.foldl (fun g row => g.put row.id (c.elementById row.id x.column)) {} }

/-- Puts one row where its element belongs. -/
def updateRow (x : ColumnIndex α) (c : Content α) (position : Nat) : ColumnIndex α :=
  match c.rows.idAt position with
  | none => x
  | some row =>
    match c.columns.positionOf x.column with
    | none => { x with groups := x.groups.remove row }
    | some _ => { x with groups := x.groups.put row (c.elementById row x.column) }

/-- The index of a column as it stands. -/
def ofContent (column : StripeId) (c : Content α) : ColumnIndex α := rebuild { column := column } c

/-- Follows one change of the table. -/
def observe (x : ColumnIndex α) (n : Notice α) : ColumnIndex α :=
  match n.event with
  | .added .row position => x.updateRow n.content position
  | .added .column _ => x
  | .removed .row _ stripe => { x with groups := x.groups.remove stripe.id }
  | .removed .column _ stripe => if stripe.id = x.column then { x with groups := {} } else x
  | .updatedCell row column _ =>
    if n.content.columns.idAt column = some x.column then x.updateRow n.content row else x
  | .cleared => { x with groups := {} }
  | .reordered => x
  | .transposed => x.rebuild n.content

/-- The name of the index in descriptions. -/
def describe (x : ColumnIndex α) : String := s!"TableIndex(column {x.column.label})"

end ColumnIndex

end LiveTable
