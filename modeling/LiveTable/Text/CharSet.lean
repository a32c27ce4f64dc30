/-! Sets of characters, as brackets in a pattern write them: ranges of characters, two sets joined by one
    of four operations, and all characters outside of a set.  Some sets of ASCII characters have
    names. -/

namespace LiveTable

/-- The operations that join two sets. -/
inductive SetOperation where
  | union
  | intersection
  | difference
  | symmetricDifference
  deriving DecidableEq, Repr

/-- Whether the joined set holds what its two parts hold or do not hold. -/
def SetOperation.holds : SetOperation → Bool → Bool → Bool
  | union, a, b => a || b
  | intersection, a, b => a && b
  | difference, a, b => a && !b
  | symmetricDifference, a, b => a != b

/-- A set of characters. -/
inductive CharSet where
  | nothing
  /-- The characters from `low` to `high`. -/
  | range (low high : Char)
  | joined (operation : SetOperation) (a b : CharSet)
  | outside (a : CharSet)
  deriving DecidableEq, Repr

namespace CharSet

/-- Whether a character is in the set. -/
def contains (c : Char) : CharSet → Bool
  | nothing => false
  | range low high => low ≤ c && c ≤ high
  | joined operation a b => operation.holds (a.contains c) (b.contains c)
  | outside a => !a.contains c

/-- The set of one character. -/
def one (c : Char) : CharSet := .range c c

/-- The characters of several ranges. -/
def ofRanges (ranges : List (Char × Char)) : CharSet :=
  ranges.foldl (fun set r => .joined .union set (.range r.1 r.2)) .nothing

/-- The sets that have names. -/
def named? (name : String) : Option CharSet :=
  (names.lookup name).map ofRanges
where
  names : List (String × List (Char × Char)) := [
    ("alnum", [('0', '9'), ('A', 'Z'), ('a', 'z')]),
    ("alpha", [('A', 'Z'), ('a', 'z')]),
    ("ascii", [('\x00', '\x7f')]),
    ("blank", [('\t', '\t'), (' ', ' ')]),
    ("cntrl", [('\x00', '\x1f'), ('\x7f', '\x7f')]),
    ("digit", [('0', '9')]),
    ("graph", [('!', '~')]),
    ("lower", [('a', 'z')]),
    ("print", [(' ', '~')]),
    ("punct", [('!', '/'), (':', '@'), ('[', '\x60'), ('\x7b', '~')]),
    ("space", [('\t', '\r'), (' ', ' ')]),
    ("upper", [('A', 'Z')]),
    ("word", [('0', '9'), ('A', 'Z'), ('_', '_'), ('a', 'z')]),
    ("xdigit", [('0', '9'), ('A', 'F'), ('a', 'f')])]

end CharSet

end LiveTable
