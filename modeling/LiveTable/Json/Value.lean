/-! JSON values and their two written forms: compact, and laid out with two blanks per level.  A number
    that is no plain integer is kept only as the fact that it is there, and so is a string whose escapes
    leave half of a surrogate pair: both are well formed, but neither stands for anything that a table
    can hold. -/

namespace LiveTable

/-- A JSON value. -/
inductive Json where
  | null
  | bool (value : Bool)
  | integer (value : Int)
  /-- A number with a fraction or an exponent, or a negative zero. -/
  | real
  /-- A string; `none` if it holds half of a surrogate pair. -/
  | string (value : Option String)
  | array (items : List Json)
  | object (members : List (Option String × Json))

namespace Json

/-- One hexadecimal digit. -/
def hexDigit (n : Nat) : Char := (Nat.toDigits 16 (n % 16)).headD '0'

/-- The written form of one character inside a string. -/
def escapeChar (c : Char) : List Char :=
  if c = '"' || c = '\\' then ['\\', c]
  else if c = '\x08' then ['\\', 'b']
  else if c = '\x0c' then ['\\', 'f']
  else if c = '\n' then ['\\', 'n']
  else if c = '\r' then ['\\', 'r']
  else if c = '\t' then ['\\', 't']
  else if c.toNat < 0x20 then ['\\', 'u', '0', '0', hexDigit (c.toNat / 16), hexDigit c.toNat]
  else [c]

/-- The written form of a string. -/
def quoted (s : String) : List Char := '"' :: s.toList.flatMap escapeChar ++ ['"']

/-- The start of a line at some depth. -/
def newLine (depth : Nat) : List Char := '\n' :: List.replicate (2 * depth) ' '

/-- The written form of a value that holds no others. -/
def scalar : Json → List Char
  | null => "null".toList
  | bool true => "true".toList
  | bool false => "false".toList
  | integer n => (toString n).toList
  | string (some s) => quoted s
  | _ => []

mutual

/-- The written form without blanks. -/
def compact : Json → List Char
  | array items => '[' :: compactItems items ++ [']']
  | object members => '\x7b' :: compactMembers members ++ ['\x7d']
  | v => v.scalar

/-- The items of a compact array. -/
def compactItems : List Json → List Char
  | [] => []
  | [v] => v.compact
  | v :: rest => v.compact ++ ',' :: compactItems rest

/-- The members of a compact object. -/
def compactMembers : List (Option String × Json) → List Char
  | [] => []
  | [(k, v)] => quoted (k.getD "") ++ ':' :: v.compact
  | (k, v) :: rest => quoted (k.getD "") ++ ':' :: v.compact ++ ',' :: compactMembers rest

end

mutual

/-- The laid-out form at some depth: every item and member stands on a line of its own. -/
def pretty (depth : Nat) : Json → List Char
  | array [] => ['[', ']']
  | array (v :: rest) => '[' :: prettyItems (depth + 1) (v :: rest) ++ newLine depth ++ [']']
  | object [] => ['\x7b', '\x7d']
  | object (m :: rest) => '\x7b' :: prettyMembers (depth + 1) (m :: rest) ++ newLine depth ++ ['\x7d']
  | v => v.scalar

/-- The items of an array, each on a line of its own. -/
def prettyItems (depth : Nat) : List Json → List Char
  | [] => []
  | [v] => newLine depth ++ v.pretty depth
  | v :: rest => newLine depth ++ v.pretty depth ++ ',' :: prettyItems depth rest

/-- The members of an object, each on a line of its own. -/
def prettyMembers (depth : Nat) : List (Option String × Json) → List Char
  | [] => []
  | [(k, v)] => newLine depth ++ quoted (k.getD "") ++ ':' :: ' ' :: v.pretty depth
  | (k, v) :: rest =>
    newLine depth ++ quoted (k.getD "") ++ ':' :: ' ' :: v.pretty depth ++ ',' :: prettyMembers depth rest

end

end Json

end LiveTable
