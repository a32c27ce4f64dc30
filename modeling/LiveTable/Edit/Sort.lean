import LiveTable.Edit.Basic

/-! Sorting rows by one column.  The sort is stable and null cells come first; descending order turns the
    whole comparison round, so null cells come last while rows with equal keys still keep their order.
    Rows move with their identities, titles and cells, and one notice is given unless every row is in
    place already. -/

namespace LiveTable

/-- A comparison of elements extended to cells: null is below every element. -/
def compareCells {α : Type} (compareElements : α → α → Ordering) : Option α → Option α → Ordering
  | none, none => .eq
  | none, some _ => .lt
  | some _, none => .gt
  | some a, some b => compareElements a b

/-- The comparison that a sort uses, turned round for descending order. -/
def sortOrder {α : Type} (compareElements : α → α → Ordering) (descending : Bool) (a b : Option α) :
    Ordering :=
  if descending then (compareCells compareElements a b).swap else compareCells compareElements a b

/-- The positions of a list of keys in the order that sorts them. -/
def sortedPositions {α : Type} (compareElements : α → α → Ordering) (descending : Bool)
    (keys : List (Option α)) : List Nat :=
  (keys.zipIdx.mergeSort fun a b => (sortOrder compareElements descending a.1 b.1).isLE).map (·.2)

/-- Sorts the rows by a column; `false` if the column does not exist. -/
def Edit.sortRows {α ω : Type} (e : Edit α ω) (column : Nat) (descending : Bool)
    (compareElements : α → α → Ordering) : Bool × Edit α ω :=
  match e.content.columnElements? column with
  | none => (false, e)
  | some keys =>
    let order := sortedPositions compareElements descending keys
    (true, if order = List.range keys.length then e else e.announce (·.reorderRows order) .reordered)

/-- The ready-made orders of elements. -/
inductive SortKey where
  /-- The natural order. -/
  | natural
  /-- By the size of the written form. -/
  | byteLength
  /-- The natural order turned round. -/
  | backwards
  deriving DecidableEq, Repr

/-- The comparison that a ready-made order stands for. -/
def SortKey.compare {α : Type} [Element α] : SortKey → α → α → Ordering
  | natural, a, b => Ord.compare a b
  | byteLength, a, b => Ord.compare (Element.byteLength a) (Element.byteLength b)
  | backwards, a, b => Ord.compare b a

end LiveTable
