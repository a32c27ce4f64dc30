/-! Sorted maps: pairs in strictly ascending order of their keys.  Inserting a key that is there replaces
    its value, so a map built from a list keeps the last value of each key. -/

namespace LiveTable

/-- A map as a list of pairs with ascending keys. -/
abbrev SortedMap (κ β : Type) := List (κ × β)

/-- One end of a range of keys. -/
inductive Bound (κ : Type) where
  | unbounded
  | included (key : κ)
  | excluded (key : κ)

namespace Bound

variable {κ : Type} [Ord κ]

/-- Whether a key lies on the upper side of a lower end. -/
def admitsFrom (low : Bound κ) (key : κ) : Bool :=
  match low with
  | unbounded => true
  | included bound => (compare bound key).isLE
  | excluded bound => (compare bound key).isLT

/-- Whether a key lies on the lower side of an upper end. -/
def admitsUpTo (high : Bound κ) (key : κ) : Bool :=
  match high with
  | unbounded => true
  | included bound => (compare key bound).isLE
  | excluded bound => (compare key bound).isLT

/-- The key of an end, if it has one. -/
def key? : Bound κ → Option κ
  | unbounded => none
  | included key => some key
  | excluded key => some key

/-- Whether an end leaves its own key out. -/
def isExcluded : Bound κ → Bool
  | excluded _ => true
  | _ => false

/-- Whether two ends make no range: the lower above the upper, or both leaving out the one key they name. -/
def inverted (low high : Bound κ) : Bool :=
  match low.key?, high.key? with
  | some a, some b =>
    match compare a b with
    | .gt => true
    | .eq => low.isExcluded && high.isExcluded
    | .lt => false
  | _, _ => false

end Bound

namespace SortedMap

variable {κ β : Type} [Ord κ]

/-- The value of a key. -/
def get? (m : SortedMap κ β) (key : κ) : Option β :=
  (m.find? fun entry => (compare entry.1 key).isEq).map Prod.snd

/-- The keys, ascending. -/
def keys (m : SortedMap κ β) : List κ := m.map Prod.fst

/-- Gives a key a value. -/
def insert (m : SortedMap κ β) (key : κ) (value : β) : SortedMap κ β :=
  match m with
  | [] => [(key, value)]
  | entry :: rest =>
    match compare key entry.1 with
    | .lt => (key, value) :: entry :: rest
    | .eq => (key, value) :: rest
    | .gt => entry :: insert rest key value

/-- Takes a key out. -/
def erase (m : SortedMap κ β) (key : κ) : SortedMap κ β := m.filter fun entry => !(compare entry.1 key).isEq

/-- The map of a list of pairs, later pairs replacing earlier ones. -/
def ofList (entries : List (κ × β)) : SortedMap κ β :=
  entries.foldl (fun m entry => m.insert entry.1 entry.2) []

/-- The pairs between two ends. -/
def between (m : SortedMap κ β) (low high : Bound κ) : SortedMap κ β :=
  m.filter fun entry => low.admitsFrom entry.1 && high.admitsUpTo entry.1

end SortedMap

end LiveTable
