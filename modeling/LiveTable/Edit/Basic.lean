import LiveTable.Content.Growth
import LiveTable.Element
import LiveTable.Observer

/-! Edits: operations on a table that observers follow.  An edit carries the content and what the
    observers have made of the notices so far; every change of cells or stripes is announced at once, by
    one notice each, while titles, the name and writes that leave an element as it was go unannounced.
    What the observers do with a notice has no influence on the content.  Writing past the table grows it
    first, columns before rows. -/

namespace LiveTable

/-- A table in the middle of an operation, and its observers. -/
structure Edit (α ω : Type) where
  content : Content α
  observers : ω
  /-- What becomes of the observers when they are told something. -/
  tell : ω → Notice α → ω

namespace Edit

variable {α ω : Type}

/-- The edit of a table that nobody observes. -/
def unobserved (content : Content α) : Edit α Unit := ⟨content, (), fun _ _ => ()⟩

/-- Changes the content and announces the change. -/
def announce (e : Edit α ω) (change : Content α → Content α) (event : Event α) : Edit α ω :=
  match e with
  | ⟨content, observers, tell⟩ =>
    let changed := change content
    ⟨changed, tell observers ⟨event, changed⟩, tell⟩

/-- Changes the content and tells nobody. -/
def quietly (e : Edit α ω) (change : Content α → Content α) : Edit α ω :=
  match e with
  | ⟨content, observers, tell⟩ => ⟨change content, observers, tell⟩

/-- Appends one empty stripe. -/
def appendEmpty (e : Edit α ω) (axis : Axis) : Edit α ω :=
  e.announce (·.appendEmpty axis) (.added axis (e.content.count axis))

/-- Appends a number of empty stripes, each announced on its own. -/
def appendEmpties (e : Edit α ω) (axis : Axis) : Nat → Edit α ω
  | 0 => e
  | n + 1 => (e.appendEmpty axis).appendEmpties axis n

/-- Appends empty columns, then empty rows, until there are at least the given numbers of both. -/
def growTo (e : Edit α ω) (rows columns : Nat) : Edit α ω :=
  let wide := e.appendEmpties .column (columns - e.content.columnCount)
  wide.appendEmpties .row (rows - wide.content.rowCount)

/-- Grows to a number of stripes of one direction and of the other. -/
def growAlong (e : Edit α ω) (axis : Axis) (own other : Nat) : Edit α ω :=
  match axis with
  | .row => e.growTo own other
  | .column => e.growTo other own

/-- Writes a cell, growing the table to it, and gives the element that was there.  A position that no
    table can reach is ignored as a whole. -/
def setElement [DecidableEq α] (e : Edit α ω) (row column : Nat) (element : Option α) : Option α × Edit α ω :=
  if row < unaddressable ∧ column < unaddressable then
    let grown := e.growTo (row + 1) (column + 1)
    let previous := grown.content.element row column
    (previous, if previous = element then grown.quietly (·.set row column element)
      else grown.announce (·.set row column element) (.updatedCell row column previous))
  else (none, e)

/-- Makes a cell of the table null and gives the element that was there. -/
def removeElement (e : Edit α ω) (row column : Nat) : Option α × Edit α ω :=
  let previous := e.content.element row column
  (previous, if previous.isSome then e.announce (·.set row column none) (.updatedCell row column previous)
    else e.quietly (·.set row column none))

/-- Inserts a stripe with elements, growing the table to its position and its length, and gives its
    position. -/
def insertElements (e : Edit α ω) (axis : Axis) (position : Nat) (elements : List (Option α)) :
    Nat × Edit α ω :=
  let grown := e.growAlong axis position elements.length
  let place := min position (grown.content.count axis)
  (place, grown.announce (·.insertStripe axis position elements) (.added axis place))

/-- Appends a stripe with elements and gives its position. -/
def addElements (e : Edit α ω) (axis : Axis) (elements : List (Option α)) : Nat × Edit α ω :=
  e.insertElements axis (e.content.count axis) elements

/-- Writes the cells along a stripe from `index` on; a stripe longer than the list gets null cells. -/
def writeAlong [DecidableEq α] (e : Edit α ω) (axis : Axis) (position index : Nat)
    (elements : List (Option α)) : Nat → Edit α ω
  | 0 => e
  | n + 1 =>
    let target := axis.coordinates position index
    (e.setElement target.1 target.2 (elements.head?.getD none)).2.writeAlong axis position (index + 1)
      elements.tail n

/-- Replaces all elements of the stripe at a position, growing the table to it and to the length of the
    list. -/
def setElements [DecidableEq α] (e : Edit α ω) (axis : Axis) (position : Nat) (elements : List (Option α)) :
    Edit α ω :=
  if position < unaddressable then
    let grown := e.growAlong axis (position + 1) elements.length
    grown.writeAlong axis position 0 elements (grown.content.count axis.cross)
  else e

/-- Removes the stripe at a position and gives its elements. -/
def removeAt (e : Edit α ω) (axis : Axis) (position : Nat) : Option (List (Option α)) × Edit α ω :=
  match e.content.removed? axis position with
  | some stripe =>
    (some stripe.elements, e.announce (·.removeStripe axis position) (.removed axis position stripe))
  | none => (none, e)

/-- Exchanges two stripes; `false` if one of them does not exist. -/
def swap (e : Edit α ω) (axis : Axis) (a b : Nat) : Bool × Edit α ω :=
  if e.content.hasBoth axis a b then
    (true, if a = b then e.quietly (·.swap axis a b) else e.announce (·.swap axis a b) .reordered)
  else (false, e)

/-- Moves a row to another position, shifting the rows between; `false` if one of the positions does not
    exist. -/
def moveRow (e : Edit α ω) (source target : Nat) : Bool × Edit α ω :=
  if e.content.hasBoth .row source target then
    (true, if source = target then e.quietly (·.moveRow source target)
      else e.announce (·.moveRow source target) .reordered)
  else (false, e)

/-- Swaps the roles of rows and columns. -/
def transpose (e : Edit α ω) : Edit α ω := e.announce Content.transpose .transposed

/-- Removes all rows and columns; the name stays. -/
def clear (e : Edit α ω) : Edit α ω := e.announce Content.clear .cleared

/-- Converts the cells along a stripe from `index` on, each by its present element. -/
def convertAlong [DecidableEq α] (e : Edit α ω) (axis : Axis) (position index : Nat)
    (f : Option α → Option α) : Nat → Edit α ω
  | 0 => e
  | n + 1 =>
    let target := axis.coordinates position index
    (e.setElement target.1 target.2 (f (e.content.element target.1 target.2))).2.convertAlong axis position
      (index + 1) f n

/-- Converts every cell of the rows from `start` up to `stop`, as far as they exist. -/
def convertRows [DecidableEq α] (e : Edit α ω) (start stop : Nat) (f : Option α → Option α) : Edit α ω :=
  (List.range' start (min stop e.content.rowCount - start)).foldl
    (fun e row => e.convertAlong .row row 0 f e.content.columnCount) e

end Edit

end LiveTable
