import LiveTable.Format.Basic

/-! Framed plain text.  The name stands centred between equals signs, titles are closed by bangs,
    elements by bars, and a rule of dashes ends the table; every token is filled up with blanks to the
    width of its column.  A null value is an empty token and the empty text a pair of quotes.  Marks that
    the frame uses, line ends, tabs and blanks at the end of a text are escaped with a backslash, so no
    token holds a frame mark of its own. -/

namespace LiveTable.PlainText

/-- The letter behind the backslash that stands for a character, if the character is escaped everywhere. -/
def escapeMark? (c : Char) : Option Char :=
  if c = '\\' || c = '|' || c = '!' || c = '"' then some c
  else if c = '=' then some 'e'
  else if c = '\n' then some 'n'
  else if c = '\r' then some 'r'
  else if c = '\t' then some 't'
  else none

/-- The written form of a character. -/
def escapeChar (c : Char) : List Char :=
  match escapeMark? c with
  | some mark => ['\\', mark]
  | none => [c]

/-- A text without the blanks at its end. -/
def trimBlanks (text : List Char) : List Char := (text.reverse.dropWhile (· = ' ')).reverse

/-- The written form of a text that is not empty. -/
def escape (text : List Char) : List Char :=
  let body := trimBlanks text
  body.flatMap escapeChar ++ (List.replicate (text.length - body.length) ['\\', 's']).flatten

/-- The written form of a value. -/
def token : Option (List Char) → List Char
  | none => []
  | some [] => ['"', '"']
  | some text => escape text

/-- A token filled up with blanks. -/
def pad (width : Nat) (t : List Char) : List Char := t ++ List.replicate (width - t.length) ' '

/-- The greatest length of some tokens. -/
def maxWidth (ts : List (List Char)) : Nat := (ts.map List.length).foldl max 0

/-- The widths of columns, none less than the given ones. -/
def columnWidths (least : List Nat) (rows : List (List (List Char))) : List Nat :=
  rows.foldl (fun widths row => List.zipWith (fun w t => max w t.length) widths row) least

/-- Tokens of one line, each filled up to its width and closed by a mark. -/
def closeAll (mark : Char) (widths : List Nat) (ts : List (List Char)) : List Char :=
  (List.zipWith (fun t w => pad w t ++ [mark]) ts widths).flatten

/-- The lines between the name and the closing rule. -/
def bodyLines {α : Type} [Element α] (c : Content α) (inclusion : Inclusion) : List (List Char) :=
  let columns := List.range c.columnCount
  let columnTitles := columns.map fun column => token (titleText? c .column column)
  let rowTitles := (List.range c.rowCount).map fun row => token (titleText? c .row row)
  let cells := (List.range c.rowCount).map fun row => columns.map fun column => token (cellText? c row column)
  let widths := columnWidths
    (if inclusion.columnTitles then columnTitles.map List.length else columns.map fun _ => 0) cells
  let titleWidth := maxWidth rowTitles
  let header := '!' :: (if inclusion.rowTitles then pad titleWidth [] ++ ['!'] else []) ++
    closeAll '!' widths columnTitles
  let line (title : List Char) (elements : List (List Char)) : List Char :=
    (if inclusion.rowTitles then '!' :: pad titleWidth title ++ ['!'] else ['|']) ++
      closeAll '|' widths elements
  (if inclusion.columnTitles then [header] else []) ++ List.zipWith line rowTitles cells

/-- A token in the middle of a line of equals signs. -/
def frameName (total : Nat) (t : List Char) : List Char :=
  let space := total - t.length
  List.replicate (space / 2) '=' ++ t ++ List.replicate (space - space / 2) '='

/-- The written form of a table. -/
def write {α : Type} [Element α] (c : Content α) (inclusion : Inclusion) : List Char :=
  let body := bodyLines c inclusion
  let name := token (c.name.map String.toList)
  let total := max (max (maxWidth body) (if inclusion.name then name.length + 2 else 0)) 2
  let lines := (if inclusion.name then [frameName total name] else []) ++ body ++ [List.replicate total '-']
  lines.flatMap (· ++ ['\n'])

/-- The written form of a table with whatever name and titles it has. -/
def display {α : Type} [Element α] (c : Content α) : List Char :=
  write c { columnTitles := c.columns.anyTitled, rowTitles := c.rows.anyTitled, name := c.name.isSome }

/-- The fault of a defect at some line. -/
def fault (line : Nat) (defect : Defect) : FormatFault := .line .plainText line defect

/-- The character that a letter behind a backslash stands for. -/
def unescapeMark? (mark : Char) : Option Char :=
  if mark = '\\' || mark = '|' || mark = '!' || mark = '"' then some mark
  else if mark = 'e' then some '='
  else if mark = 'n' then some '\n'
  else if mark = 'r' then some '\r'
  else if mark = 't' then some '\t'
  else if mark = 's' then some ' '
  else none

/-- Reads an escaped text. -/
def unescape : List Char → Except Defect (List Char)
  | [] => .ok []
  | ['\\'] => .error .danglingEscape
  | '\\' :: mark :: rest =>
    match unescapeMark? mark with
    | some c => (unescape rest).map (c :: ·)
    | none => .error (.unknownEscape mark)
  | c :: rest => (unescape rest).map (c :: ·)

/-- Reads a token, with or without the blanks that fill it up. -/
def readToken (line : Nat) (raw : List Char) : Except FormatFault (Option (List Char)) :=
  match trimBlanks raw with
  | [] => .ok none
  | ['"', '"'] => .ok (some [])
  | text =>
    match unescape text with
    | .ok text => .ok (some text)
    | .error defect => .error (fault line defect)

/-- Splits a text at its first mark that is not escaped. -/
def splitFirst? (mark : Char) : List Char → Option (List Char × List Char)
  | [] => none
  | '\\' :: c :: rest => (splitFirst? mark rest).map fun (front, back) => ('\\' :: c :: front, back)
  | c :: rest =>
    if c = '\\' then none
    else if c = mark then some ([], rest)
    else (splitFirst? mark rest).map fun (front, back) => (c :: front, back)

/-- Splits a text at every mark that is not escaped, the present token being kept backwards; `none` if
    something stands behind the last mark. -/
def splitAll? (mark : Char) : List Char → List Char → Option (List (List Char))
  | seen, [] => if seen.isEmpty then some [] else none
  | seen, '\\' :: c :: rest => splitAll? mark (c :: '\\' :: seen) rest
  | seen, c :: rest =>
    if c = '\\' then none
    else if c = mark then (splitAll? mark [] rest).map (seen.reverse :: ·)
    else splitAll? mark (c :: seen) rest

/-- The tokens of a line, each closed by a mark. -/
def tokens (mark : Char) (line : Nat) (text : List Char) : Except FormatFault (List (List Char)) :=
  match splitAll? mark [] text with
  | some ts => .ok ts
  | none => .error (fault line (.openToken mark))

/-- The lines of a text, without the line feeds that end them or the carriage returns right before those. -/
def lines (seen : List Char) : List Char → List (List Char)
  | [] => if seen.isEmpty then [] else [seen.reverse]
  | '\n' :: rest =>
    (match seen with
      | '\r' :: before => before.reverse
      | seen => seen.reverse) :: lines [] rest
  | c :: rest => lines (c :: seen) rest

/-- The name inside a line of equals signs. -/
def readName (line : Nat) (text : List Char) : Except FormatFault (Option (List Char)) :=
  match text with
  | '=' :: rest =>
    match rest.reverse with
    | '=' :: inner => readToken line ((inner.reverse.dropWhile (· = '=')).reverse.dropWhile (· = '=')).reverse
    | _ => .error (fault line .unframedName)
  | _ => .error (fault line .unframedName)

/-- The titles of a header line. -/
def readHeader (inclusion : Inclusion) (line : Nat) (text : List Char) :
    Except FormatFault (List (Option (List Char))) :=
  match text with
  | '!' :: rest => do
    let ts ← tokens '!' line rest
    (if inclusion.rowTitles then ts.tail else ts).mapM (readToken line)
  | _ => .error (fault line .headerStart)

/-- The title of a row line, if it has one, and the elements behind it. -/
def splitRow (inclusion : Inclusion) (line : Nat) (text : List Char) :
    Except FormatFault (Option (List Char) × List Char) :=
  if inclusion.rowTitles then
    match text with
    | '!' :: rest =>
      match splitFirst? '!' rest with
      | some (title, cells) => (readToken line title).map fun title => (title, cells)
      | none => .error (fault line .untitledRow)
    | _ => .error (fault line .untitledRow)
  else
    match text with
    | '|' :: rest => .ok (none, rest)
    | _ => .error (fault line .rowStart)

/-- The title and the elements of a row line. -/
def readRow {α : Type} [Element α] (inclusion : Inclusion) (line : Nat) (text : List Char) :
    Except FormatFault (Option (List Char) × List (Option α)) := do
  let (title, rest) ← splitRow inclusion line text
  let raw ← tokens '|' line rest
  let texts ← raw.mapM (readToken line)
  let cells ← texts.mapM readCell
  return (title, cells)

/-- Reads row lines up to the closing rule. -/
def readRows {α : Type} [Element α] (inclusion : Inclusion) (line : Nat) :
    List (List Char) → Except FormatFault (List (Option (List Char) × List (Option α)))
  | [] => .error (.shape .plainText (.missingLine "closing rule"))
  | text :: rest =>
    if text.head? = some '-' then .ok []
    else do
      let row ← readRow inclusion line text
      let rows ← readRows inclusion (line + 1) rest
      return row :: rows

/-- Takes the first line off, if a document includes it, and reads it. -/
def takeLine {β : Type} (included : Bool) (what : String) (absent : β)
    (reader : Nat → List Char → Except FormatFault β) (line : Nat) (ls : List (List Char)) :
    Except FormatFault (β × Nat × List (List Char)) :=
  if included then
    match ls with
    | [] => .error (.shape .plainText (.missingLine what))
    | text :: rest => (reader line text).map fun b => (b, line + 1, rest)
  else .ok (absent, line, ls)

/-- Reads a table. -/
def read {α : Type} [Element α] (text : List Char) (inclusion : Inclusion) :
    Except FormatFault (Snapshot α) := do
  let (name, line, ls) ← takeLine inclusion.name "name line" none readName 1 (lines [] text)
  let (header, line, ls) ←
    takeLine inclusion.columnTitles "column title header" [] (readHeader inclusion) line ls
  let rows ← readRows inclusion line ls
  return {
    name := ofText? name
    columnTitles := header.map ofText?
    rowTitles := if inclusion.rowTitles then rows.map fun row => ofText? row.1 else []
    rows := padRows (rows.map Prod.snd) }

end LiveTable.PlainText
