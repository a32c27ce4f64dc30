import LiveTable.Content.Snapshot
import LiveTable.Element

/-! Document formats: their names, what of a table they include, and what can be wrong with a document. -/

namespace LiveTable

/-- The formats a table can be written in. -/
inductive Format where
  | json
  | xml
  | xhtml
  | csv
  | plainText
  deriving DecidableEq, Repr

/-- The name of a format in messages. -/
def Format.name : Format → String
  | json => "json"
  | xml => "xml"
  | xhtml => "xhtml"
  | csv => "csv"
  | plainText => "plain text"

/-- What a document includes besides the elements, and what separates the fields of a CSV record. -/
structure Inclusion where
  columnTitles : Bool := false
  rowTitles : Bool := false
  name : Bool := false
  delimiter : Char := ','
  deriving DecidableEq, Repr

/-- What a snapshot keeps of its name and titles. -/
def Snapshot.restrict {α : Type} (s : Snapshot α) (inclusion : Inclusion) : Snapshot α where
  name := if inclusion.name then s.name else none
  columnTitles := if inclusion.columnTitles then s.columnTitles else []
  rowTitles := if inclusion.rowTitles then s.rowTitles else []
  rows := s.rows

/-- What can be wrong at some line of a document. -/
inductive Defect where
  | quoteInside
  | afterQuote
  | openQuote
  | unknownEscape (c : Char)
  | danglingEscape
  | openToken (delimiter : Char)
  | unframedName
  | headerStart
  | untitledRow
  | rowStart
  | openMarkup (terminator : List Char)
  | openEndTag
  | openStartTag
  | noElementName
  | noAttributeValue (element : List Char)
  | unquotedAttribute (key : List Char)
  | openAttribute (key : List Char)
  | openEntity
  | unknownEntity (name : List Char)
  | endOfInput
  | openElement (name : List Char)
  | unexpected (token : List Char)
  deriving DecidableEq, Repr

/-- The wording of a defect. -/
def Defect.message : Defect → String
  | quoteInside => "quote inside unquoted field"
  | afterQuote => "characters after closing quote"
  | openQuote => "unterminated quoted field"
  | unknownEscape c => "unknown escape '\\" ++ String.ofList [c] ++ "'"
  | danglingEscape => "dangling escape"
  | openToken delimiter => "expected '" ++ String.ofList [delimiter] ++ "' at end of line"
  | unframedName => "name line must be framed by '='"
  | headerStart => "header must start with '!'"
  | untitledRow => "row must start with a '!' framed title"
  | rowStart => "row must start with '|'"
  | openMarkup terminator => "missing '" ++ String.ofList terminator ++ "'"
  | openEndTag => "unterminated end tag"
  | openStartTag => "unterminated start tag"
  | noElementName => "missing element name"
  | noAttributeValue element => "attribute without value in <" ++ String.ofList element ++ ">"
  | unquotedAttribute key => "unquoted attribute '" ++ String.ofList key ++ "'"
  | openAttribute key => "unterminated attribute '" ++ String.ofList key ++ "'"
  | openEntity => "unterminated entity reference"
  | unknownEntity name => "unknown entity '&" ++ String.ofList name ++ ";'"
  | endOfInput => "unexpected end of input"
  | openElement name => "unclosed <" ++ String.ofList name ++ ">"
  | unexpected token => "unexpected " ++ String.ofList token

/-- What can be wrong with a document as a whole. -/
inductive ShapeDefect where
  | raggedRows
  | missingLine (what : String)
  | missingElement (name : List Char)
  deriving DecidableEq, Repr

/-- The wording of a defect of the whole. -/
def ShapeDefect.message : ShapeDefect → String
  | raggedRows => "rows differ in length"
  | missingLine what => "missing " ++ what
  | missingElement name => "no <" ++ String.ofList name ++ "> element"

/-- Why a document cannot be read or written. -/
inductive FormatFault where
  /-- It is no JSON form of a snapshot. -/
  | json
  /-- Its bytes are no text, or there is no room for it. -/
  | io
  /-- It is not well formed at some line, counted from one. -/
  | line (format : Format) (number : Nat) (defect : Defect)
  /-- It is well formed but describes no table. -/
  | shape (format : Format) (defect : ShapeDefect)
  /-- It holds a text that is no element. -/
  | element (text : String) (fault : Numeral.Fault)
  deriving DecidableEq, Repr

/-- The wording of a fault, where it has one of its own. -/
def FormatFault.message? : FormatFault → Option String
  | json => none
  | io => none
  | line format number defect => some s!"{format.name} syntax error at line {number}: {defect.message}"
  | shape format defect => some s!"{format.name} structure error: {defect.message}"
  | element text fault => some s!"Cannot parse element '{text}': {fault.message}"

/-- Reads a cell from its written form, a null cell having none. -/
def readCell {α : Type} [Element α] : Option (List Char) → Except FormatFault (Option α)
  | none => .ok none
  | some text =>
    match Element.ofText (String.ofList text) with
    | .ok a => .ok (some a)
    | .error fault => .error (.element (String.ofList text) fault)

/-- Fills rows up with null cells to the length of the longest. -/
def padRows {α : Type} (rows : List (List (Option α))) : List (List (Option α)) :=
  let width := (rows.map List.length).foldl max 0
  rows.map fun row => row ++ List.replicate (width - row.length) none

/-- The written form of a cell of a content. -/
def cellText? {α : Type} [Element α] (c : Content α) (row column : Nat) : Option (List Char) :=
  (Element.cellText (c.element row column)).map String.toList

/-- The title of a stripe as characters. -/
def titleText? {α : Type} (c : Content α) (axis : Axis) (position : Nat) : Option (List Char) :=
  (c.title axis position).map String.toList

/-- A text read as a title or name. -/
def ofText? (text : Option (List Char)) : Option String := text.map String.ofList

end LiveTable
