import LiveTable.SortedMap
import LiveTable.Stripe

/-! Groups of rows: every indexed row under one key.  The two directions are kept side by side, the key
    of each row and the rows of each key, oldest row first, and a key without rows is taken out at
    once. -/

namespace LiveTable

/-- Rows grouped by key. -/
structure Groups (κ : Type) where
  keyOf : List (StripeId × κ) := []
  rowsOf : SortedMap κ (List StripeId) := []
  /-- Whether any row has been under a key since the groups were started. -/
  used : Bool := false

namespace Groups

variable {κ : Type} [Ord κ]

/-- Puts a row into an ascending list of rows. -/
def addRow (rows : List StripeId) (row : StripeId) : List StripeId :=
  match rows with
  | [] => [row]
  | other :: rest =>
    match compare row other with
    | .lt => row :: other :: rest
    | .eq => other :: rest
    | .gt => other :: addRow rest row

/-- The rows of a key. -/
def rows (g : Groups κ) (key : κ) : List StripeId := (g.rowsOf.get? key).getD []

/-- Takes a row out. -/
def remove (g : Groups κ) (row : StripeId) : Groups κ :=
  match g.keyOf.lookup row with
  | none => g
  | some key =>
    let left := (g.rows key).filter fun other => other != row
    { g with
      keyOf := g.keyOf.filter fun entry => entry.1 != row
      rowsOf := if left.isEmpty then g.rowsOf.erase key else g.rowsOf.insert key left }

/-- Puts a row under a key, whatever it was under before; without a key the row is taken out. -/
def put (g : Groups κ) (row : StripeId) (key : Option κ) : Groups κ :=
  let without := g.remove row
  match key with
  | none => without
  | some k =>
    { keyOf := (row, k) :: without.keyOf
      rowsOf := without.rowsOf.insert k (addRow (without.rows k) row)
      used := true }

/-- The keys, ascending. -/
def keys (g : Groups κ) : List κ := g.rowsOf.keys

/-- Whether a key has rows. -/
def contains (g : Groups κ) (key : κ) : Bool := (g.rowsOf.get? key).isSome

/-- The keys between two ends, with their rows; `none` if the ends make no range, which goes unnoticed as
    long as the groups have never been used. -/
def range? (g : Groups κ) (low high : Bound κ) : Option (SortedMap κ (List StripeId)) :=
  if g.used && low.inverted high then none else some (g.rowsOf.between low high)

end Groups

end LiveTable
