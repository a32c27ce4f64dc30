import LiveTable.Selection.Predicate

/-! Selections: queries over joined tables, put together step by step and run later.  A step applies to
    the table joined last; skipping comes before the limit, in whatever order the two are asked for. -/

namespace LiveTable

/-- One request for columns, made at some stage. -/
inductive Projection where
  /-- All columns of the stage, and of later stages that ask for none of their own. -/
  | allColumns
  /-- One column of the stage by position. -/
  | column (position : Nat)
  /-- One referenced column. -/
  | reference (r : ColumnRef)
  /-- All columns of the first stage of a table. -/
  | allOf (table : TableId)
  deriving DecidableEq, Repr

/-- A table in the chain with the conditions of its join. -/
structure JoinStep (α : Type) where
  table : TableId
  conditions : List (Predicate α) := []

/-- A query.  It starts from a table, so there is a stage to begin with. -/
structure Selection (α : Type) where
  steps : List (JoinStep α)
  steps_ne_nil : steps ≠ []
  projections : List (Nat × Projection) := []
  filters : List (Predicate α) := []
  distinct : Bool := false
  skip : Nat := 0
  top : Option Nat := none

namespace Selection

variable {α : Type}

/-- The query for everything in a table. -/
def start (table : TableId) : Selection α := { steps := [{ table := table }], steps_ne_nil := by simp }

/-- The stage that steps apply to. -/
def current (s : Selection α) : Nat := s.steps.length - 1

/-- Asks for columns at the present stage. -/
def project (s : Selection α) (p : Projection) : Selection α :=
  { s with projections := s.projections ++ [(s.current, p)] }

/-- Asks for several columns of the present stage. -/
def columns (s : Selection α) (positions : List Nat) : Selection α :=
  positions.foldl (fun s position => s.project (.column position)) s

/-- Joins a table; without conditions every row meets every row. -/
def join (s : Selection α) (table : TableId) : Selection α :=
  { s with steps := s.steps ++ [{ table := table }], steps_ne_nil := by simp }

/-- Adds a condition to the present join. -/
def on (s : Selection α) (p : Predicate α) : Selection α :=
  { s with
    steps := s.steps.modify s.current fun step => { step with conditions := step.conditions ++ [p] }
    steps_ne_nil := by simpa using s.steps_ne_nil }

/-- Keeps only the joined rows that meet a condition. -/
def filter (s : Selection α) (p : Predicate α) : Selection α := { s with filters := s.filters ++ [p] }

/-- All conditions in the order in which they were given, those of joins first. -/
def conditions (s : Selection α) : List (Predicate α) := s.steps.flatMap JoinStep.conditions ++ s.filters

/-- The query in descriptions. -/
def describe (s : Selection α) : String :=
  let top := match s.top with
    | some count => s!"Some({count})"
    | none => "None"
  s!"Selection \x7b stages: {s.steps.length}, filters: " ++
    Predicate.describeList (Predicate.describeAll s.filters) ++
      s!", distinct: {s.distinct}, skip: {s.skip}, top: " ++ top ++ " \x7d"

end Selection

end LiveTable
