import LiveTable.Element
import LiveTable.Index.Groups
import LiveTable.Observer

/-! Keyed indexes: the rows of a table grouped by a key computed from all their elements.  Rows without a
    key are left out.  A change of columns, order or orientation can change any key, so it groups all
    rows anew.  Keys are taken from any ordered type; where keys of several kinds are in use, they stand
    side by side in one type, and a rule says which kind its own keys are of. -/

namespace LiveTable

/-! ### Rules for keys -/

/-- The identity of a kind of keys. -/
structure KeyKind where
  value : Nat
  deriving DecidableEq, Repr

/-- A rule that computes keys of one kind. -/
structure Extractor (α κ : Type) where
  kind : KeyKind
  key : List (Option α) → Option κ

/-! ### Indexes -/

/-- An index with a name and a rule for its keys. -/
structure KeyedIndex (α κ : Type) where
  name : String
  extractor : Extractor α κ
  groups : Groups κ := {}

namespace KeyedIndex

variable {α κ : Type} [Ord κ]

/-- Groups all rows anew. -/
def rebuild (x : KeyedIndex α κ) (c : Content α) : KeyedIndex α κ :=
  let put (g : Groups κ) (entry : Stripe × Nat) : Groups κ :=
    g.put entry.1.id ((c.rowElements? entry.2).bind x.extractor.key)
  { x with groups := c.rows.toList.zipIdx.foldl put {} }

/-- Puts one row where its key belongs. -/
def updateRow (x : KeyedIndex α κ) (c : Content α) (position : Nat) : KeyedIndex α κ :=
  match c.rows.idAt position, c.rowElements? position with
  | some row, some elements => { x with groups := x.groups.put row (x.extractor.key elements) }
  | _, _ => x

/-- The index of a table as it stands. -/
def ofContent (name : String) (extractor : Extractor α κ) (c : Content α) : KeyedIndex α κ :=
  rebuild { name := name, extractor := extractor } c

/-- Follows one change of the table. -/
def observe (x : KeyedIndex α κ) (n : Notice α) : KeyedIndex α κ :=
  match n.event with
  | .added .row position => x.updateRow n.content position
  | .removed .row _ stripe => { x with groups := x.groups.remove stripe.id }
  | .updatedCell row _ _ => x.updateRow n.content row
  | _ => x.rebuild n.content

end KeyedIndex

/-! ### Texts and numbers as keys -/

/-- A text or a number. -/
inductive RowKey where
  | text (value : String)
  | number (value : Int)
  deriving DecidableEq, Repr

/-- Keys of one kind compare by value; texts come before numbers. -/
instance : Ord RowKey where
  compare
    | .text a, .text b => compare a b
    | .text _, .number _ => .lt
    | .number _, .text _ => .gt
    | .number a, .number b => compare a b

/-- Keys that are texts. -/
def KeyKind.text : KeyKind := ⟨0⟩

/-- Keys that are numbers. -/
def KeyKind.number : KeyKind := ⟨1⟩

namespace Extractor

variable {α : Type} [Element α]

/-- The written form of the first cell, unless it is null or missing. -/
def first : Extractor α RowKey := ⟨.text, fun row => (row.head?.join).map fun a => .text (Element.text a)⟩

/-- The written forms of all cells that are not null, with bars between them, unless there are none. -/
def joined : Extractor α RowKey :=
  ⟨.text, fun row =>
    match row.filterMap id with
    | [] => none
    | elements => some (.text ("|".intercalate (elements.map Element.text)))⟩

/-- The number of cells that are not null. -/
def filled : Extractor α RowKey := ⟨.number, fun row => some (.number (row.filterMap id).length)⟩

/-- The number of cells. -/
def width : Extractor α RowKey := ⟨.number, fun row => some (.number row.length)⟩

end Extractor

end LiveTable
