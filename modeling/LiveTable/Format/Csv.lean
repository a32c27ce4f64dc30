import LiveTable.Format.Basic

/-! Comma separated values.  A null value is an empty field and the empty text a pair of quotes; a field
    is quoted if it is empty or holds a delimiter, a quote or the end of a line.  The name and the column
    titles come before the rows, one record each, and a row title comes before its row. -/

namespace LiveTable.Csv

/-- A record: its fields, null ones having no text. -/
abbrev Record := List (Option (List Char))

/-- Whether a text can only be written in quotes. -/
def needsQuotes (delimiter : Char) (text : List Char) : Bool :=
  text.isEmpty || text.any fun c => c = delimiter || c = '"' || c = '\n' || c = '\r'

/-- A text in quotes, with every quote inside doubled. -/
def quoted (text : List Char) : List Char :=
  '"' :: text.flatMap (fun c => if c = '"' then ['"', '"'] else [c]) ++ ['"']

/-- The written form of a field. -/
def writeField (delimiter : Char) : Option (List Char) → List Char
  | none => []
  | some text => if needsQuotes delimiter text then quoted text else text

/-- The written form of a record. -/
def writeRecord (delimiter : Char) (record : Record) : List Char :=
  [delimiter].intercalate (record.map (writeField delimiter)) ++ ['\n']

/-- The records of a table. -/
def records {α : Type} [Element α] (c : Content α) (inclusion : Inclusion) : List Record :=
  let columns := List.range c.columnCount
  (if inclusion.name then [[c.name.map String.toList]] else []) ++
    (if inclusion.columnTitles then
      [(if inclusion.rowTitles then [none] else []) ++ columns.map (titleText? c .column)] else []) ++
    (List.range c.rowCount).map fun row =>
      (if inclusion.rowTitles then [titleText? c .row row] else []) ++ columns.map (cellText? c row)

/-- The written form of a table. -/
def write {α : Type} [Element α] (c : Content α) (inclusion : Inclusion) : List Char :=
  (records c inclusion).flatMap (writeRecord inclusion.delimiter)

/-- How far the present field has been read; texts in progress are kept backwards. -/
inductive Field where
  | fresh
  | bare (seen : List Char)
  | inQuotes (seen : List Char)
  | closed (seen : List Char)

namespace Field

/-- The field that has been read. -/
def value : Field → Option (List Char)
  | fresh => none
  | bare seen => some seen.reverse
  | inQuotes seen => some seen.reverse
  | closed seen => some seen.reverse

/-- Whether anything of the field has been read. -/
def isFresh : Field → Bool
  | fresh => true
  | _ => false

end Field

/-- The fault of a defect at some line. -/
def fault (line : Nat) (defect : Defect) : FormatFault := .line .csv line defect

/-- Reads records from a text, with the fields of the present record so far, the present field and the
    line. -/
def scan (delimiter : Char) : Record → Field → Nat → List Char → Except FormatFault (List Record)
  | _, .inQuotes _, line, [] => .error (fault line .openQuote)
  | before, field, _, [] => .ok (if field.isFresh && before.isEmpty then [] else [before ++ [field.value]])
  | before, .inQuotes seen, line, '"' :: '"' :: rest =>
    scan delimiter before (.inQuotes ('"' :: seen)) line rest
  | before, .inQuotes seen, line, c :: rest =>
    if c = '"' then scan delimiter before (.closed seen) line rest
    else scan delimiter before (.inQuotes (c :: seen)) (if c = '\n' then line + 1 else line) rest
  | before, field, line, c :: rest =>
    if c = delimiter then scan delimiter (before ++ [field.value]) .fresh line rest
    else if c = '\n' then
      (scan delimiter [] .fresh (line + 1) rest).map ((before ++ [field.value]) :: ·)
    else if c = '\r' then
      match rest with
      | '\n' :: rest => (scan delimiter [] .fresh (line + 1) rest).map ((before ++ [field.value]) :: ·)
      | rest => (scan delimiter [] .fresh (line + 1) rest).map ((before ++ [field.value]) :: ·)
    else
      match field with
      | .fresh =>
        if c = '"' then scan delimiter before (.inQuotes []) line rest
        else scan delimiter before (.bare [c]) line rest
      | .bare seen =>
        if c = '"' then .error (fault line .quoteInside)
        else scan delimiter before (.bare (c :: seen)) line rest
      | _ => .error (fault line (if c = '"' then .quoteInside else .afterQuote))

/-- The records of a text. -/
def parseRecords (delimiter : Char) (text : List Char) : Except FormatFault (List Record) :=
  scan delimiter [] .fresh 1 text

/-- Takes the first record off, if a document includes it. -/
def takeRecord (included : Bool) (rs : List Record) : Option Record × List Record :=
  if included then (rs.head?, rs.tail) else (none, rs)

/-- Reads a table. -/
def read {α : Type} [Element α] (text : List Char) (inclusion : Inclusion) :
    Except FormatFault (Snapshot α) := do
  let rs ← parseRecords inclusion.delimiter text
  let (nameRecord, rs) := takeRecord inclusion.name rs
  let (header, rs) := takeRecord inclusion.columnTitles rs
  let body (record : Record) : Record := if inclusion.rowTitles then record.tail else record
  let rows ← rs.mapM fun record => (body record).mapM readCell
  return {
    name := ofText? (nameRecord.bind fun record => record.head?.join)
    columnTitles := (body (header.getD [])).map ofText?
    rowTitles := if inclusion.rowTitles then rs.map fun record => ofText? record.head?.join else []
    rows := padRows rows }

end LiveTable.Csv
