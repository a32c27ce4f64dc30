import LiveTable.Content.Snapshot
import LiveTable.Json.Reader

/-! The JSON forms of elements, rows and snapshots.  A snapshot is an object of four members, of which
    only the rows are required; members of other names are ignored, and an array of the four values in
    order is read as well. -/

namespace LiveTable

/-- Types whose values have a JSON form. -/
class JsonForm (α : Type) where
  toJson : α → Json
  ofJson? : Json → Option α

namespace JsonForm

/-- A text is a string. -/
instance : JsonForm String where
  toJson s := .string (some s)
  ofJson?
    | .string s => s
    | _ => none

/-- A number is an integer in range. -/
instance : JsonForm Int64 where
  toJson n := .integer n.toInt
  ofJson?
    | .integer n => if -0x8000000000000000 ≤ n ∧ n < 0x8000000000000000 then some (Int64.ofInt n) else none
    | _ => none

/-- A missing value is null. -/
instance {α : Type} [JsonForm α] : JsonForm (Option α) where
  toJson
    | some a => toJson a
    | none => .null
  ofJson?
    | .null => some none
    | v => (ofJson? v).map some

/-- A list is an array. -/
instance {α : Type} [JsonForm α] : JsonForm (List α) where
  toJson as := .array (as.map toJson)
  ofJson?
    | .array items => items.mapM ofJson?
    | _ => none

end JsonForm

namespace Snapshot

open JsonForm

variable {α : Type} [JsonForm α]

/-- The JSON form of a snapshot; a name that is not there and titles that are not recorded are left out. -/
def toJson (s : Snapshot α) : Json :=
  .object
    ((match s.name with
      | some name => [(some "tableName", JsonForm.toJson name)]
      | none => []) ++
    (if s.columnTitles.isEmpty then [] else [(some "columnTitles", JsonForm.toJson s.columnTitles)]) ++
    (if s.rowTitles.isEmpty then [] else [(some "rowTitles", JsonForm.toJson s.rowTitles)]) ++
    [(some "rows", JsonForm.toJson s.rows)])

/-- The values of a member of an object, as often as it is given. -/
def member (members : List (Option String × Json)) (key : String) : List Json :=
  members.filterMap fun m => if m.1 = some key then some m.2 else none

/-- The value of a member that may be given once or left out. -/
def optional? {β : Type} [JsonForm β] (members : List (Option String × Json)) (key : String) (absent : β) :
    Option β :=
  match member members key with
  | [] => some absent
  | [v] => ofJson? v
  | _ => none

/-- The value of a member that must be given once. -/
def required? {β : Type} [JsonForm β] (members : List (Option String × Json)) (key : String) : Option β :=
  match member members key with
  | [v] => ofJson? v
  | _ => none

/-- Reads the JSON form of a snapshot. -/
def ofJson? : Json → Option (Snapshot α)
  | .object members =>
    if members.all fun m => m.1.isSome then do
      let name ← optional? members "tableName" none
      let columnTitles ← optional? members "columnTitles" []
      let rowTitles ← optional? members "rowTitles" []
      let rows ← required? members "rows"
      return { name, columnTitles, rowTitles, rows }
    else none
  | .array [name, columnTitles, rowTitles, rows] => do
    let name ← JsonForm.ofJson? name
    let columnTitles ← JsonForm.ofJson? columnTitles
    let rowTitles ← JsonForm.ofJson? rowTitles
    let rows ← JsonForm.ofJson? rows
    return { name, columnTitles, rowTitles, rows }
  | _ => none

end Snapshot

end LiveTable
