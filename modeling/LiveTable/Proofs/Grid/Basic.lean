import LiveTable.Operation

/-! Grids: a table as a plain list of rows with two lists of titles, and what each operation that names
    its place by position means there.  A grid knows no identities, orientation, revisions or observers;
    an operation first pads it with null columns, then with null rows, and then overwrites, inserts,
    erases, exchanges, moves or turns over. -/

namespace LiveTable

/-- The elements row by row, and a title or none for every row and every column. -/
structure Grid (α : Type) where
  rows : List (List (Option α)) := []
  rowTitles : List (Option String) := []
  columnTitles : List (Option String) := []
  deriving DecidableEq

namespace Grid

variable {α β : Type}

/-- A list cut or filled up with nulls to a length. -/
def fit (n : Nat) (elements : List (Option α)) : List (Option α) :=
  (List.range n).map fun j => elements[j]?.join

/-- Exchanges two members of a list, if both exist. -/
def exchanged (a b : Nat) (l : List β) : List β :=
  match l[a]?, l[b]? with
  | some x, some y => (l.set a y).set b x
  | _, _ => l

/-- Takes a member out of a list and puts it back at another position. -/
def moved (source target : Nat) (l : List β) : List β :=
  match l[source]? with
  | some x => (l.eraseIdx source).insertIdx target x
  | none => l

/-- The titles of a direction. -/
def titles (g : Grid α) : Axis → List (Option String)
  | .row => g.rowTitles
  | .column => g.columnTitles

/-- The number of rows or of columns. -/
def count (g : Grid α) (axis : Axis) : Nat := (g.titles axis).length

/-- There are as many rows as row titles, and each is as long as the list of column titles. -/
def Rectangular (g : Grid α) : Prop :=
  g.rows.length = g.count .row ∧ ∀ row ∈ g.rows, row.length = g.count .column

/-- Changes the titles of a direction. -/
def mapTitles (g : Grid α) (axis : Axis) (f : List (Option String) → List (Option String)) : Grid α :=
  match axis with
  | .row => { g with rowTitles := f g.rowTitles }
  | .column => { g with columnTitles := f g.columnTitles }

/-- The element at a position. -/
def cell (g : Grid α) (row column : Nat) : Option α := (g.rows[row]?.bind (·[column]?)).join

/-- The elements of a row or of a column. -/
def line (g : Grid α) (axis : Axis) (position : Nat) : List (Option α) :=
  match axis with
  | .row => g.rows[position]?.getD []
  | .column => g.rows.map (·[position]?.join)

/-- Appends a number of untitled null rows or columns. -/
def extend (g : Grid α) (axis : Axis) (n : Nat) : Grid α :=
  match axis with
  | .row => { g with
      rows := g.rows ++ List.replicate n (List.replicate (g.count .column) none)
      rowTitles := g.rowTitles ++ List.replicate n none }
  | .column => { g with
      rows := g.rows.map (· ++ List.replicate n none)
      columnTitles := g.columnTitles ++ List.replicate n none }

/-- Appends null columns, then null rows, until there are at least so many of both. -/
def pad (g : Grid α) (rows columns : Nat) : Grid α :=
  let wide := g.extend .column (columns - g.count .column)
  wide.extend .row (rows - wide.count .row)

/-- Pads to a number of stripes of one direction and of the other. -/
def padAlong (g : Grid α) (axis : Axis) (own other : Nat) : Grid α :=
  match axis with
  | .row => g.pad own other
  | .column => g.pad other own

/-- Overwrites one element. -/
def overwrite (g : Grid α) (row column : Nat) (element : Option α) : Grid α :=
  { g with rows := g.rows.modify row (·.set column element) }

/-- Replaces the elements of a row or column. -/
def replaceLine (g : Grid α) (axis : Axis) (position : Nat) (elements : List (Option α)) : Grid α :=
  match axis with
  | .row => { g with rows := g.rows.set position (fit (g.count .column) elements) }
  | .column => { g with rows := List.zipWith (·.set position ·) g.rows (fit (g.count .row) elements) }

/-- Inserts an untitled row or column. -/
def insert (g : Grid α) (axis : Axis) (position : Nat) (elements : List (Option α)) : Grid α :=
  match axis with
  | .row => { g with
      rows := g.rows.insertIdx position (fit (g.count .column) elements)
      rowTitles := g.rowTitles.insertIdx position none }
  | .column => { g with
      rows := List.zipWith (·.insertIdx position ·) g.rows (fit (g.count .row) elements)
      columnTitles := g.columnTitles.insertIdx position none }

/-- Applies a rearrangement of lists to the rows or to each row, and to the titles. -/
def rearrange (g : Grid α) (axis : Axis) (f : (β : Type) → List β → List β) : Grid α :=
  match axis with
  | .row => { g with rows := f _ g.rows, rowTitles := f _ g.rowTitles }
  | .column => { g with rows := g.rows.map (f _), columnTitles := f _ g.columnTitles }

/-- Erases a row or column. -/
def erase (g : Grid α) (axis : Axis) (position : Nat) : Grid α :=
  g.rearrange axis fun _ => (·.eraseIdx position)

/-- Exchanges two rows or columns. -/
def exchange (g : Grid α) (axis : Axis) (a b : Nat) : Grid α := g.rearrange axis fun _ => exchanged a b

/-- Moves a row. -/
def moveRow (g : Grid α) (source target : Nat) : Grid α := g.rearrange .row fun _ => moved source target

/-- Turns the rows into columns. -/
def transpose (g : Grid α) : Grid α where
  rows := (List.range (g.count .column)).map (g.line .column)
  rowTitles := g.columnTitles
  columnTitles := g.rowTitles

/-- Gives a row or column a title or takes it away. -/
def retitle (g : Grid α) (axis : Axis) (position : Nat) (title : Option String) : Grid α :=
  g.mapTitles axis (·.set position title)

end Grid

/-- What an operation that names its place by position gives back and makes of a grid; the other
    operations, which find their place by titles, keys, elements or identities, have no entry here. -/
def Operation.onGrid {α : Type} [Element α] (g : Grid α) : Operation α → Option (Outcome α × Grid α)
  | setElement row column element =>
    let padded := g.pad (row + 1) (column + 1)
    some (.cell (padded.cell row column), padded.overwrite row column element)
  | removeElement row column => some (.cell (g.cell row column), g.overwrite row column none)
  | insertElements axis position elements =>
    some (.position position, (g.padAlong axis position elements.length).insert axis position elements)
  | addElements axis elements =>
    let position := g.count axis
    some (.position position, (g.padAlong axis position elements.length).insert axis position elements)
  | setElements axis position elements =>
    some (.done, (g.padAlong axis (position + 1) elements.length).replaceLine axis position elements)
  | removeAt axis position =>
    if position < g.count axis then some (.elements (some (g.line axis position)), g.erase axis position)
    else some (.elements none, g)
  | swap axis a b =>
    if a < g.count axis ∧ b < g.count axis then some (.success true, g.exchange axis a b)
    else some (.success false, g)
  | moveRow source target =>
    if source < g.count .row ∧ target < g.count .row then some (.success true, g.moveRow source target)
    else some (.success false, g)
  | transpose => some (.done, g.transpose)
  | clear => some (.done, {})
  | setName _ => some (.done, g)
  | putTitle axis position title =>
    some (.done, (g.padAlong axis (position + 1) 0).retitle axis position (some title))
  | clearTitle axis position => some (.done, g.retitle axis position none)
  | putTitles axis titles =>
    let padded := g.padAlong axis titles.length 0
    some (.done, padded.mapTitles axis fun old => titles.map some ++ old.drop titles.length)
  | addColumnTitle title =>
    let position := g.count .column
    some (.position position, (g.pad 0 (position + 1)).retitle .column position (some title))
  | titlesFromFirst axis =>
    if 0 < g.count axis.cross then
      some (.done, (g.mapTitles axis fun _ => (g.line axis.cross 0).map Element.cellText).erase axis.cross 0)
    else some (.done, g)
  | _ => none

/-- Whether all coordinates that an operation writes to are positions that a table can reach. -/
def Operation.Addressable {α : Type} (g : Grid α) : Operation α → Prop
  | setElement row column _ => row < unaddressable ∧ column < unaddressable
  | setElements axis position elements =>
    position < unaddressable ∧ max (g.count axis.cross) elements.length ≤ unaddressable
  | putTitle _ position _ => position < unaddressable
  | putTitles _ titles => titles.length ≤ unaddressable
  | addColumnTitle _ => g.count .column < unaddressable
  | _ => True

end LiveTable
