import LiveTable.Edit.Sort
import LiveTable.Edit.Titles

/-! Handles: references to a row, column or cell that hold on to its identity.  A handle finds its place
    anew each time it is used, so changes around it never make it point elsewhere; once its stripe is
    gone it reads as empty and writes through it do nothing. -/

namespace LiveTable

/-- A reference to a stripe as a row or as a column, with the revision the stripe had when it was made. -/
structure StripeRef where
  axis : Axis
  id : StripeId
  revision : Nat
  deriving DecidableEq, Repr

/-- A reference to the cell where a row meets a column. -/
structure CellRef where
  row : StripeId
  column : StripeId
  deriving DecidableEq, Repr

namespace StripeRef

variable {α ω : Type}

/-- A reference to the stripe at a position. -/
def at? (c : Content α) (axis : Axis) (position : Nat) : Option StripeRef :=
  ((c.stripes axis).get? position).map fun s => ⟨axis, s.id, s.revision⟩

/-- A reference to the first stripe with a title. -/
def titled? (c : Content α) (axis : Axis) (title : String) : Option StripeRef :=
  ((c.stripes axis).positionOfTitle title).bind (at? c axis)

/-- A reference to the last row, if there is one. -/
def last? (c : Content α) : Option StripeRef := if c.rowCount = 0 then none else at? c .row (c.rowCount - 1)

/-- Where the stripe stands now, if it is still a stripe of its direction. -/
def index (h : StripeRef) (c : Content α) : Option Nat := (c.stripes h.axis).positionOf h.id

/-- Whether the stripe is no longer there in its direction. -/
def isDeleted (h : StripeRef) (c : Content α) : Bool := (h.index c).isNone

/-- Whether the stripe has changed since the handle was made, or is gone. -/
def isModified (h : StripeRef) (c : Content α) : Bool :=
  match (c.stripes h.axis).byId h.id with
  | some s => s.revision != h.revision
  | none => true

/-- The elements along the stripe, none once it is gone. -/
def elements (h : StripeRef) (c : Content α) : List (Option α) :=
  match h.index c with
  | some position => (List.range (c.count h.axis.cross)).map fun index =>
      let target := h.axis.coordinates position index
      c.element target.1 target.2
  | none => []

/-- The number of elements along the stripe. -/
def size (h : StripeRef) (c : Content α) : Nat := if h.isDeleted c then 0 else c.count h.axis.cross

/-- The element at an index along the stripe. -/
def element (h : StripeRef) (c : Content α) (index : Nat) : Option α :=
  (h.index c).bind fun position =>
    let target := h.axis.coordinates position index
    c.element target.1 target.2

/-- The element where the stripe meets the first crossing stripe with a title. -/
def elementByTitle (h : StripeRef) (c : Content α) (title : String) : Option α :=
  ((c.stripes h.axis.cross).positionOfTitle title).bind (h.element c)

/-- The title of the stripe. -/
def title (h : StripeRef) (c : Content α) : Option String := ((c.stripes h.axis).byId h.id).bind Stripe.title

/-- A reference to the cell where the stripe meets another. -/
def cellWith (h : StripeRef) (other : StripeId) : CellRef :=
  let ids := h.axis.cellIds h.id other
  ⟨ids.1, ids.2⟩

/-- A reference to the cell at an index along the stripe. -/
def cell? (h : StripeRef) (c : Content α) (index : Nat) : Option CellRef :=
  if h.isDeleted c then none else ((c.stripes h.axis.cross).idAt index).map h.cellWith

/-- References to all cells along the stripe. -/
def cells (h : StripeRef) (c : Content α) : List CellRef :=
  if h.isDeleted c then [] else (c.stripes h.axis.cross).ids.map h.cellWith

/-- The handle in descriptions. -/
def describe (h : StripeRef) : String := s!"{h.axis.name} {h.id.label}"

/-- Writes the element at an index along the stripe, growing the table to it. -/
def setElement [DecidableEq α] (h : StripeRef) (index : Nat) (element : Option α) (e : Edit α ω) :
    Option α × Edit α ω :=
  match h.index e.content with
  | some position =>
    let target := h.axis.coordinates position index
    e.setElement target.1 target.2 element
  | none => (none, e)

/-- Replaces all elements along the stripe; it grows as it is written if the list is longer. -/
def setElements [DecidableEq α] (h : StripeRef) (elements : List (Option α)) (e : Edit α ω) : Edit α ω :=
  match h.index e.content with
  | some position =>
    e.writeAlong h.axis position 0 elements (max (e.content.count h.axis.cross) elements.length)
  | none => e

/-- Converts every element along the stripe. -/
def convert [DecidableEq α] (h : StripeRef) (f : Option α → Option α) (e : Edit α ω) : Edit α ω :=
  match h.index e.content with
  | some position => e.convertAlong h.axis position 0 f (e.content.count h.axis.cross)
  | none => e

/-- Gives the stripe a title or takes it away. -/
def putTitle (h : StripeRef) (title : Option String) (e : Edit α ω) : Edit α ω :=
  match h.index e.content with
  | some position => e.putTitle h.axis position title
  | none => e

/-- Removes the stripe and gives its elements. -/
def remove (h : StripeRef) (e : Edit α ω) : Option (List (Option α)) × Edit α ω :=
  match h.index e.content with
  | some position => e.removeAt h.axis position
  | none => (none, e)

/-- Exchanges the stripe with the one at a position. -/
def switchWith (h : StripeRef) (other : Nat) (e : Edit α ω) : Bool × Edit α ω :=
  match h.index e.content with
  | some position => e.swap h.axis position other
  | none => (false, e)

/-- Moves a row to another position. -/
def moveTo (h : StripeRef) (target : Nat) (e : Edit α ω) : Bool × Edit α ω :=
  match h.index e.content with
  | some position => e.moveRow position target
  | none => (false, e)

end StripeRef

namespace CellRef

variable {α ω : Type}

/-- A reference to the cell at a position. -/
def at? (c : Content α) (row column : Nat) : Option CellRef :=
  match c.rows.idAt row, c.columns.idAt column with
  | some r, some k => some ⟨r, k⟩
  | _, _ => none

/-- References to all cells, row by row. -/
def all (c : Content α) : List CellRef := c.rows.ids.flatMap fun r => c.columns.ids.map fun k => ⟨r, k⟩

/-- Where the cell stands now, as long as its stripes are a row and a column. -/
def coordinates (h : CellRef) (c : Content α) : Option (Nat × Nat) :=
  match c.rows.positionOf h.row, c.columns.positionOf h.column with
  | some r, some k => some (r, k)
  | _, _ => none

/-- Whether the cell is no longer there. -/
def isDeleted (h : CellRef) (c : Content α) : Bool := (h.coordinates c).isNone

/-- The element of the cell. -/
def element (h : CellRef) (c : Content α) : Option α :=
  (h.coordinates c).bind fun _ => c.elementById h.row h.column

/-- Writes the cell. -/
def setElement [DecidableEq α] (h : CellRef) (element : Option α) (e : Edit α ω) : Option α × Edit α ω :=
  match h.coordinates e.content with
  | some (row, column) => e.setElement row column element
  | none => (none, e)

/-- Makes the cell null. -/
def clear (h : CellRef) (e : Edit α ω) : Option α × Edit α ω :=
  match h.coordinates e.content with
  | some (row, column) => e.removeElement row column
  | none => (none, e)

/-- A reference to the row of the cell. -/
def rowRef? (h : CellRef) (c : Content α) : Option StripeRef :=
  (c.rows.positionOf h.row).bind (StripeRef.at? c .row)

/-- A reference to the column of the cell. -/
def columnRef? (h : CellRef) (c : Content α) : Option StripeRef :=
  (c.columns.positionOf h.column).bind (StripeRef.at? c .column)

/-- The handle in descriptions. -/
def describe (h : CellRef) : String := s!"cell({h.row.label}, {h.column.label})"

end CellRef

end LiveTable
