import LiveTable.Content.Basic

/-! Changes to a content.  Adding or removing a stripe counts as a change to every stripe that it
    crosses; writing a cell counts as a change to its row and its column; exchanging columns changes
    every row.  Rearranging rows and turning the table over change no stripe. -/

namespace LiveTable

/-- A stripe that was taken out, with the elements it held. -/
structure Removed (α : Type) where
  id : StripeId
  title : Option String
  elements : List (Option α)

namespace Cells

variable {α : Type}

/-- Gives the cell that a stripe has under an addressing its element, unless that is null. -/
def fill (key : StripeId → CellKey) (cells : Cells α) (entry : Stripe × Option α) : Cells α :=
  match entry.2 with
  | some a => cells.put (key entry.1.id) (some a)
  | none => cells

/-- Makes the cell that a stripe has under an addressing null. -/
def empty (key : StripeId → CellKey) (cells : Cells α) (s : Stripe) : Cells α := cells.erase (key s.id)

end Cells

namespace Content

variable {α : Type}

/-- Replaces the stripes of a direction. -/
def mapStripes (c : Content α) (axis : Axis) (f : Stripes → Stripes) : Content α :=
  if c.isFirst axis then { c with first := f c.first } else { c with second := f c.second }

/-- Puts the elements of a stripe into the cells it shares with the stripes it crosses, as far as both go. -/
def fillStripe (c : Content α) (axis : Axis) (own : StripeId) (elements : List (Option α)) : Content α :=
  { c with
    cells := ((c.stripes axis.cross).toList.zip elements).foldl (Cells.fill (c.keyOn axis own)) c.cells }

/-- Inserts a new untitled stripe at a position, or at the end if the position is past it.  Elements
    beyond the crossing stripes are dropped. -/
def insertStripe (c : Content α) (axis : Axis) (position : Nat) (elements : List (Option α)) : Content α :=
  let own : StripeId := ⟨c.nextId⟩
  let filled := { c with nextId := c.nextId + 1 }.fillStripe axis own elements
  (filled.mapStripes axis (·.insertAt position { id := own })).mapStripes axis.cross Stripes.touchAll

/-- The stripe at a position with its elements, as it would be reported once removed. -/
def removed? (c : Content α) (axis : Axis) (position : Nat) : Option (Removed α) :=
  match (c.stripes axis).get? position, c.elements? axis position with
  | some s, some elements => some ⟨s.id, s.title, elements⟩
  | _, _ => none

/-- Makes every cell of a stripe null. -/
def emptyStripe (c : Content α) (axis : Axis) (own : StripeId) : Content α :=
  { c with cells := (c.stripes axis.cross).toList.foldl (Cells.empty (c.keyOn axis own)) c.cells }

/-- Removes the stripe at a position with its cells; nothing happens if there is none. -/
def removeStripe (c : Content α) (axis : Axis) (position : Nat) : Content α :=
  match (c.stripes axis).idAt position with
  | some own =>
    ((c.emptyStripe axis own).mapStripes axis (·.removeAt position)).mapStripes axis.cross Stripes.touchAll
  | none => c

/-- Writes a cell; a position outside the table is left alone. -/
def set (c : Content α) (row column : Nat) (element : Option α) : Content α :=
  match c.cellKey? row column with
  | some k =>
    ({ c with cells := c.cells.put k element }.mapStripes .row (·.modify row Stripe.touch)).mapStripes .column
      (·.modify column Stripe.touch)
  | none => c

/-- Gives a stripe a title or takes it away; a position outside the table is left alone. -/
def setTitle (c : Content α) (axis : Axis) (position : Nat) (title : Option String) : Content α :=
  c.mapStripes axis (·.modify position (Stripe.retitle title))

/-- Gives the first stripes of a direction the listed titles, as far as they exist. -/
def setTitles (c : Content α) (axis : Axis) (titles : List (Option String)) : Content α :=
  titles.zipIdx.foldl (fun c entry => c.setTitle axis entry.2 entry.1) c

/-- Whether a direction has stripes at both positions. -/
def hasBoth (c : Content α) (axis : Axis) (a b : Nat) : Bool := a < c.count axis && b < c.count axis

/-- Exchanges two stripes.  The order of columns is part of what a row is, so exchanging columns changes every
    row; the order of rows is not held against the columns. -/
def swap (c : Content α) (axis : Axis) (a b : Nat) : Content α :=
  if c.hasBoth axis a b then
    let swapped := c.mapStripes axis (·.swap a b)
    match axis with
    | .row => swapped
    | .column => swapped.mapStripes .row Stripes.touchAll
  else c

/-- Moves a row to another position. -/
def moveRow (c : Content α) (source target : Nat) : Content α := c.mapStripes .row (·.move source target)

/-- Rearranges the rows by the positions they come from. -/
def reorderRows (c : Content α) (order : List Nat) : Content α := c.mapStripes .row (·.reorder order)

/-- Swaps the roles of rows and columns. -/
def transpose (c : Content α) : Content α := { c with transposed := !c.transposed }

/-- Removes every stripe and cell; the name, the orientation and the identities already given out stay. -/
def clear (c : Content α) : Content α := { c with first := {}, second := {}, cells := ∅ }

end Content

end LiveTable
