import LiveTable.Observer

/-! Calls to a store, and the store that keeps its rows in memory.  A store keeps rows by position and
    knows nothing of identities or titles; every event of a table is turned into the calls that bring a
    store with the rows before it to the rows after it. -/

namespace LiveTable

/-- The rows that a store keeps. -/
abbrev StoredRows (α : Type) := List (List (Option α))

/-- One thing a store can be told to do. -/
inductive StoreCall (α : Type) where
  /-- Inserts a row; later rows move up by one. -/
  | add (row : Nat) (elements : List (Option α))
  /-- Replaces a row. -/
  | update (row : Nat) (elements : List (Option α))
  /-- Takes a row out; later rows move down by one. -/
  | remove (row : Nat)
  /-- Takes all rows out. -/
  | removeAll
  deriving DecidableEq

namespace StoreCall

variable {α : Type}

/-- The elements of a row as a store is told them. -/
def rowOf (c : Content α) (row : Nat) : List (Option α) := (c.rowElements? row).getD []

/-- Calls that replace every row. -/
def updateAll (c : Content α) : List (StoreCall α) :=
  (List.range c.rowCount).map fun row => .update row (rowOf c row)

/-- The calls that make a store follow one change of a table. -/
def ofNotice (n : Notice α) : List (StoreCall α) :=
  match n.event with
  | .added .row row => [.add row (rowOf n.content row)]
  | .removed .row row _ => [.remove row]
  | .added .column _ => updateAll n.content
  | .removed .column _ _ => updateAll n.content
  | .updatedCell row _ _ => [.update row (rowOf n.content row)]
  | .cleared => [.removeAll]
  | .reordered => updateAll n.content
  | .transposed =>
    .removeAll :: (List.range n.content.rowCount).map fun row => .add row (rowOf n.content row)

end StoreCall

/-! ### The store in memory -/

namespace MemoryStore

variable {α : Type}

/-- Inserts a row, behind all others at most. -/
def add (rows : StoredRows α) (row : Nat) (elements : List (Option α)) : Except StoreFault (StoredRows α) :=
  if row > rows.length then .error (.rowOutOfRange row rows.length) else .ok (rows.insertIdx row elements)

/-- Replaces a row. -/
def update (rows : StoredRows α) (row : Nat) (elements : List (Option α)) :
    Except StoreFault (StoredRows α) :=
  match rows[row]? with
  | some _ => .ok (rows.set row elements)
  | none => .error (.rowOutOfRange row rows.length)

/-- Takes a row out. -/
def remove (rows : StoredRows α) (row : Nat) : Except StoreFault (StoredRows α) :=
  if row ≥ rows.length then .error (.rowOutOfRange row rows.length) else .ok (rows.eraseIdx row)

/-- Does what a call says; a row that is not there is refused. -/
def tell (rows : StoredRows α) : StoreCall α → Except StoreFault (StoredRows α)
  | .add row elements => add rows row elements
  | .update row elements => update rows row elements
  | .remove row => remove rows row
  | .removeAll => .ok []

end MemoryStore

end LiveTable
