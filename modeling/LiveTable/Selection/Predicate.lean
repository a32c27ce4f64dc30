import LiveTable.Element
import LiveTable.Selection.Stage
import LiveTable.Text.Pattern

/-! Predicates: conditions on joined rows.  Two columns are equal only if both have an element, a test of
    a value has to pass in every listed column, and a custom condition may look at the whole joined
    row. -/

namespace LiveTable

/-- A condition on joined rows. -/
inductive Predicate (α : Type) where
  | equalColumns (a b : ColumnRef)
  | columnValue (columns : List ColumnRef) (description : String) (test : Option α → Bool)
  | and (ps : List (Predicate α))
  | or (ps : List (Predicate α))
  | not (p : Predicate α)
  /-- A test of whole joined rows, with the columns that it is written over. -/
  | custom (columns : List ColumnRef) (test : JoinedRow α → Bool)

namespace Predicate

variable {α : Type}

mutual

/-- Whether a joined row meets the condition. -/
def holds [DecidableEq α] (j : JoinedRow α) : Predicate α → Bool
  | equalColumns a b =>
    match j.element a, j.element b with
    | some x, some y => x == y
    | _, _ => false
  | columnValue columns _ test => columns.all fun r => test (j.element r)
  | and ps => holdsAll j ps
  | or ps => holdsAny j ps
  | not p => !p.holds j
  | custom _ test => test j

/-- Whether a joined row meets all conditions. -/
def holdsAll [DecidableEq α] (j : JoinedRow α) : List (Predicate α) → Bool
  | [] => true
  | p :: rest => p.holds j && holdsAll j rest

/-- Whether a joined row meets one of the conditions. -/
def holdsAny [DecidableEq α] (j : JoinedRow α) : List (Predicate α) → Bool
  | [] => false
  | p :: rest => p.holds j || holdsAny j rest

end

/-- A list in descriptions. -/
def describeList (items : List String) : String := "[" ++ ", ".intercalate items ++ "]"

mutual

/-- The condition in descriptions. -/
def describe : Predicate α → String
  | equalColumns a b => a.describe ++ " = " ++ b.describe
  | columnValue columns description _ => describeList (columns.map ColumnRef.describe) ++ " " ++ description
  | and ps => "And(" ++ describeList (describeAll ps) ++ ")"
  | or ps => "Or(" ++ describeList (describeAll ps) ++ ")"
  | not p => "Not(" ++ p.describe ++ ")"
  | custom _ _ => "Custom"

/-- Several conditions in descriptions. -/
def describeAll : List (Predicate α) → List String
  | [] => []
  | p :: rest => p.describe :: describeAll rest

end

variable [Element α]

/-- The column holds a value. -/
def columnEquals (r : ColumnRef) (value : α) : Predicate α :=
  .columnValue [r] ("= " ++ Element.quoted value) fun cell => cell == some value

/-- The column is null. -/
def columnIsNull (r : ColumnRef) : Predicate α := .columnValue [r] "is null" fun cell => cell.isNone

/-- The column holds one of several values. -/
def columnWithin (r : ColumnRef) (values : List α) : Predicate α :=
  .columnValue [r] ("in " ++ describeList (values.map Element.quoted)) fun cell =>
    cell.any fun a => values.contains a

/-- All columns hold values from `low` to `high`. -/
def columnBetween (columns : List ColumnRef) (low high : α) : Predicate α :=
  .columnValue columns ("between " ++ Element.quoted low ++ " and " ++ Element.quoted high) fun cell =>
    cell.any fun a => (compare a low).isGE && (compare a high).isLE

/-- The written form of the column matches a pattern, given with its spelling. -/
def columnLike (r : ColumnRef) (spelling : String) (pattern : Pattern) : Predicate α :=
  .columnValue [r] ("like /" ++ spelling ++ "/") fun cell => cell.any fun a =>
    pattern.isMatch (Element.text a)

/-- The column passes a test. -/
def columnMatches (r : ColumnRef) (test : Option α → Bool) : Predicate α :=
  .columnValue [r] "matches custom test" test

/-- The column is null or holds a value. -/
def columnNullOr (r : ColumnRef) (value : α) : Predicate α :=
  columnMatches r fun cell => cell.all fun a => a == value

/-- The column of a stage holds exactly this, which may be null. -/
def stageHolds (stage column : Nat) (value : Option α) : Predicate α :=
  .custom [] fun j => j.stageElement stage column == value

/-- The referenced column holds exactly this, which may be null. -/
def refHolds (r : ColumnRef) (value : Option α) : Predicate α := .custom [r] fun j => j.element r == value

omit [Element α] in
/-- The row of one stage stands before the row of another; a stage that is not bound comes first of all. -/
def rowsOrdered (a b : Nat) : Predicate α :=
  .custom [] fun j =>
    match j.rowIndex a, j.rowIndex b with
    | some x, some y => x < y
    | none, some _ => true
    | _, none => false

omit [Element α] in
/-- So many stages are bound. -/
def stagesBound (count : Nat) : Predicate α := .custom [] fun j => j.stageCount == count

omit [Element α] in
/-- Both conditions; a conjunction takes the other one in. -/
def andAlso (p other : Predicate α) : Predicate α :=
  match p with
  | and ps => .and (ps ++ [other])
  | _ => .and [p, other]

omit [Element α] in
/-- One of the conditions; a disjunction takes the other one in. -/
def orElse (p other : Predicate α) : Predicate α :=
  match p with
  | or ps => .or (ps ++ [other])
  | _ => .or [p, other]

omit [Element α] in
/-- The opposite; the opposite of an opposite is the condition itself. -/
def negate (p : Predicate α) : Predicate α :=
  match p with
  | not q => q
  | _ => .not p

end Predicate

end LiveTable
