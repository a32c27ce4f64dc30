import LiveTable.Content.Basic

/-! Stages: the tables that a selection joins, each copied when the selection runs.  A column reference
    belongs to the first stage of its table and is found there by position or by identity; one that is
    not found reads as null. -/

namespace LiveTable

/-- The identity of a table: like every identity in a workspace, a number that is given out once. -/
structure TableId where
  value : Nat
  deriving DecidableEq, Repr

/-- How a reference finds its column. -/
inductive ColumnPlace where
  | position (column : Nat)
  | stripe (id : StripeId)
  deriving DecidableEq, Repr

/-- A reference to a column of a table. -/
structure ColumnRef where
  table : TableId
  place : ColumnPlace
  deriving DecidableEq, Repr

/-- The reference in descriptions. -/
def ColumnRef.describe (r : ColumnRef) : String :=
  match r.place with
  | .position column => s!"column {column}"
  | .stripe id => s!"column {id.label}"

/-- What a selection sees of a table. -/
structure Stage (α : Type) where
  table : TableId
  name : Option String
  columnIds : List StripeId
  columnTitles : List (Option String)
  rows : List (List (Option α))

namespace Stage

variable {α : Type}

/-- The stage of a table. -/
def ofContent (table : TableId) (c : Content α) : Stage α where
  table := table
  name := c.name
  columnIds := c.columns.ids
  columnTitles := c.titles .column
  rows := c.toRows

/-- The element at a position. -/
def element (s : Stage α) (row column : Nat) : Option α := (s.rows[row]?.bind (·[column]?)).join

/-- The position of a referenced column of this table. -/
def locate (s : Stage α) : ColumnPlace → Option Nat
  | .position column => if column < s.columnIds.length then some column else none
  | .stripe id => s.columnIds.findIdx? (· == id)

end Stage

/-- The stage and the position that a reference stands for. -/
def ColumnRef.resolve {α : Type} (r : ColumnRef) (stages : List (Stage α)) : Option (Nat × Nat) :=
  match stages.findIdx? fun s => s.table == r.table with
  | none => none
  | some stage => (stages[stage]?.bind (·.locate r.place)).map fun column => (stage, column)

/-- A combination of rows, one from each stage bound so far. -/
structure JoinedRow (α : Type) where
  stages : List (Stage α)
  rows : List Nat

namespace JoinedRow

variable {α : Type}

/-- The number of bound stages. -/
def stageCount (j : JoinedRow α) : Nat := j.rows.length

/-- The row bound for a stage. -/
def rowIndex (j : JoinedRow α) (stage : Nat) : Option Nat := j.rows[stage]?

/-- The element of a column in the row bound for a stage. -/
def stageElement (j : JoinedRow α) (stage column : Nat) : Option α :=
  match j.rows[stage]?, j.stages[stage]? with
  | some row, some s => s.element row column
  | _, _ => none

/-- The element that a reference stands for. -/
def element (j : JoinedRow α) (r : ColumnRef) : Option α :=
  (r.resolve j.stages).bind fun (stage, column) => j.stageElement stage column

end JoinedRow

end LiveTable
