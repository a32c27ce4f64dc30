import LiveTable.Json.Token
import LiveTable.Json.Value

/-! Reading JSON: tokens are folded into a value over a stack of the arrays and objects that are still
    open, so the depth of a value is bounded by nothing but its text. -/

namespace LiveTable.Json

/-- An array or object that is still open, with what it holds so far, last first. -/
inductive Frame where
  | array (before : List Json)
  | object (before : List (Option String × Json)) (key : Option String)

/-- What is expected next. -/
inductive Phase where
  /-- A value; right after an opening bracket the closing one may come instead. -/
  | value (mayClose : Bool)
  /-- The key of a member; right after an opening brace the closing one may come instead. -/
  | key (before : List (Option String × Json)) (mayClose : Bool)
  /-- The colon behind a key. -/
  | colon (before : List (Option String × Json)) (key : Option String)
  /-- What follows a value. -/
  | after (value : Json)

/-- The value that one token stands for. -/
def ofToken? : Token → Option Json
  | .null => some .null
  | .bool b => some (.bool b)
  | .integer n => some (.integer n)
  | .real => some .real
  | .string s => some (.string s)
  | _ => none

/-- Folds tokens into one value. -/
def fold : Phase → List Frame → List Token → Option Json
  | .after v, [], [] => some v
  | _, _, [] => none
  | .value mayClose, stack, t :: rest =>
    match t with
    | .openArray => fold (.value true) (.array [] :: stack) rest
    | .openObject => fold (.key [] true) stack rest
    | .closeArray =>
      match mayClose, stack with
      | true, .array _ :: below => fold (.after (.array [])) below rest
      | _, _ => none
    | _ =>
      match ofToken? t with
      | some v => fold (.after v) stack rest
      | none => none
  | .key before mayClose, stack, t :: rest =>
    match t with
    | .string k => fold (.colon before k) stack rest
    | .closeObject => if mayClose then fold (.after (.object [])) stack rest else none
    | _ => none
  | .colon before k, stack, t :: rest =>
    match t with
    | .colon => fold (.value false) (.object before k :: stack) rest
    | _ => none
  | .after v, stack, t :: rest =>
    match t, stack with
    | .comma, .array before :: below => fold (.value false) (.array (v :: before) :: below) rest
    | .comma, .object before k :: below => fold (.key ((k, v) :: before) false) below rest
    | .closeArray, .array before :: below => fold (.after (.array (v :: before).reverse)) below rest
    | .closeObject, .object before k :: below =>
      fold (.after (.object ((k, v) :: before).reverse)) below rest
    | _, _ => none

/-- Reads a text as one JSON value with nothing but blanks around it. -/
def read? (cs : List Char) : Option Json := (tokens? cs).bind (fold (.value false) [])

end LiveTable.Json
