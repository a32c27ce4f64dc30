import LiveTable.Numeral
import LiveTable.Text.Invisible

/-! Elements: what a cell can hold.  An element type has decidable and lawful equality, an order, one
    written form that can be read back, and a quoted form for descriptions.  Texts and 64-bit numbers are
    the two element types. -/

namespace LiveTable

namespace Text

/-- The written form of one character inside quotes.  A quote, a backslash and the controls that have a
    short name are written with a backslash; every other character without a visible shape is written by
    number. -/
def quoteChar (c : Char) : List Char :=
  if c = '\x00' then ['\\', '0']
  else if c = '\t' then ['\\', 't']
  else if c = '\n' then ['\\', 'n']
  else if c = '\r' then ['\\', 'r']
  else if c = '"' || c = '\\' then ['\\', c]
  else if isInvisible c then ['\\', 'u', '\x7b'] ++ Nat.toDigits 16 c.toNat ++ ['\x7d']
  else [c]

/-- The text in quotes, as descriptions show it. -/
def quote (s : String) : String :=
  String.ofList ('"' :: s.toList.flatMap quoteChar ++ ['"'])

end Text

/-- A type whose values can fill the cells of a table. -/
class Element (α : Type) extends Ord α where
  /-- Whether two elements are equal.  This is equality of values: a type with a comparison that is only
      partial, as that of floating-point numbers with their NaN, which differs from itself, is no element
      type here. -/
  decEq : DecidableEq α
  /-- The written form. -/
  text : α → String
  /-- Reads a written form. -/
  ofText : String → Except Numeral.Fault α
  /-- The form shown in descriptions. -/
  quoted : α → String

instance {α : Type} [Element α] : DecidableEq α := Element.decEq

/-- Texts are written as they are, ordered by code point, and quoted in descriptions. -/
instance : Element String where
  decEq := inferInstance
  text s := s
  ofText s := .ok s
  quoted := Text.quote

/-- Numbers are written in base ten and ordered by value. -/
instance : Element Int64 where
  decEq := inferInstance
  text n := toString n.toInt
  ofText s := Numeral.readInteger s.toList
  quoted n := toString n.toInt

/-- The size of an element's written form in bytes. -/
def Element.byteLength {α : Type} [Element α] (a : α) : Nat := (Element.text a).utf8ByteSize

/-- The written form of a cell, a null cell having none. -/
def Element.cellText {α : Type} [Element α] (cell : Option α) : Option String := cell.map Element.text

end LiveTable
