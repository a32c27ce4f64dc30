import LiveTable.Format.Xml.Token

/-! Tables as XML documents: an element `table` with a list of column titles and a list of rows, names
    and row titles standing in attributes.  The reader goes through the tokens one by one, knowing only
    where it stands; text without a visible character counts inside a value and nowhere else. -/

namespace LiveTable.Xml

/-- The first line of every document. -/
def prolog : List Char := "<?xml version=\"1.0\" encoding=\"UTF-8\"?>\n".toList

/-- An attribute of a start tag, if it has a value. -/
def writeAttribute (name : List Char) : Option (List Char) → List Char
  | some value => ' ' :: name ++ "=\"".toList ++ escape value ++ ['"']
  | none => []

/-- A value element, a null value being marked. -/
def writeValue (tag nullMark : List Char) : Option (List Char) → List Char
  | some value => '<' :: tag ++ '>' :: escape value ++ "</".toList ++ tag ++ ['>']
  | none => '<' :: tag ++ ' ' :: nullMark ++ "/>".toList

/-- The mark of a null value. -/
def nullAttribute : List Char := "null=\"true\"".toList

/-- The written form of a table. -/
def write {α : Type} [Element α] (c : Content α) (inclusion : Inclusion) : List Char :=
  let columns := List.range c.columnCount
  let name := if inclusion.name then c.name.map String.toList else none
  let title (column : Nat) : List Char :=
    "    ".toList ++ writeValue "title".toList nullAttribute (titleText? c .column column) ++ ['\n']
  let row (row : Nat) : List Char :=
    "    <row".toList ++
      writeAttribute "title".toList (if inclusion.rowTitles then titleText? c .row row else none) ++
      '>' :: columns.flatMap
        (fun column => writeValue "cell".toList nullAttribute (cellText? c row column)) ++
      "</row>\n".toList
  prolog ++ "<table".toList ++ writeAttribute "name".toList name ++ ">\n".toList ++
    (if inclusion.columnTitles then
      "  <columnTitles>\n".toList ++ columns.flatMap title ++ "  </columnTitles>\n".toList else []) ++
    "  <rows>\n".toList ++ (List.range c.rowCount).flatMap row ++ "  </rows>\n</table>\n".toList

/-- Where the reader stands. -/
inductive Place where
  | outside
  | table
  | titles (before : List (Option (List Char)))
  | title (before : List (Option (List Char))) (value : Value)
  | rows (titles : List (Option (List Char)))
  | row (titles : List (Option (List Char))) (before : List (Option (List Char)))
  | cell (titles : List (Option (List Char))) (before : List (Option (List Char))) (value : Value)
  | done

/-- What has been read, and where the reader stands. -/
structure Reading (α : Type) where
  place : Place := .outside
  snapshot : Snapshot α := {}

namespace Reading

variable {α : Type} [Element α]

/-- Goes on at another place. -/
def goTo (r : Reading α) (place : Place) : Reading α := { r with place := place }

/-- Ends a row. -/
def endRow (r : Reading α) (titles : List (Option (List Char))) (cells : List (Option (List Char))) :
    Except FormatFault (Reading α) := do
  let row ← cells.mapM readCell
  return { place := .rows titles, snapshot := { r.snapshot with rows := r.snapshot.rows ++ [row] } }

/-- Ends a list of rows: all rows are made equally long, and the titles count if there are any. -/
def endRows (r : Reading α) (titles : List (Option (List Char))) : Reading α where
  place := .table
  snapshot := { r.snapshot with
    rows := padRows r.snapshot.rows
    rowTitles := if titles.any Option.isSome then titles.map ofText? else r.snapshot.rowTitles }

/-- The fault of a token that does not belong where it stands. -/
def unexpected (format : Format) (t : Token) : FormatFault := .line format t.line (.unexpected t.describe)

/-- Goes on with the text of a value element, or ends it. -/
def stepValue (format : Format) (tag : List Char) (v : Value) (t : Token) :
    Except FormatFault (Value ⊕ Option (List Char)) :=
  match t with
  | .text _ part => .ok (.inl { v with text := v.text ++ part })
  | .endTag _ name => if name = tag then .ok (.inr v.result) else .error (unexpected format t)
  | .startTag _ _ _ _ => .error (unexpected format t)

/-- The value of an element that has ended with its start tag. -/
def emptyValue (attributes : List Attribute) : Option (List Char) :=
  Value.result { null := isNull attributes }

/-- Reads one token. -/
def step (r : Reading α) (t : Token) : Except FormatFault (Reading α) :=
  match r.place with
  | .done => .ok r
  | .outside =>
    match t with
    | .startTag _ name attributes isEmpty =>
      if name = "table".toList then
        .ok { place := if isEmpty then .done else .table
              snapshot := { r.snapshot with name := ofText? (attribute? attributes "name".toList) } }
      else .ok r
    | _ => .ok r
  | .title before v => do
    match ← stepValue .xml "title".toList v t with
    | .inl v => return r.goTo (.title before v)
    | .inr value => return r.goTo (.titles (before ++ [value]))
  | .cell titles before v => do
    match ← stepValue .xml "cell".toList v t with
    | .inl v => return r.goTo (.cell titles before v)
    | .inr value => return r.goTo (.row titles (before ++ [value]))
  | .table =>
    if t.isBlank then .ok r
    else
      match t with
      | .startTag _ name _ isEmpty =>
        if name = "columnTitles".toList then .ok (if isEmpty then r else r.goTo (.titles []))
        else if name = "rows".toList then .ok (if isEmpty then r else r.goTo (.rows []))
        else .error (unexpected .xml t)
      | .endTag _ name => if name = "table".toList then .ok (r.goTo .done) else .error (unexpected .xml t)
      | .text _ _ => .error (unexpected .xml t)
  | .titles before =>
    if t.isBlank then .ok r
    else
      match t with
      | .startTag _ name attributes isEmpty =>
        if name = "title".toList then
          .ok (r.goTo (if isEmpty then .titles (before ++ [emptyValue attributes])
            else .title before { null := isNull attributes }))
        else .error (unexpected .xml t)
      | .endTag _ name =>
        if name = "columnTitles".toList then
          .ok { place := .table, snapshot := { r.snapshot with columnTitles := before.map ofText? } }
        else .error (unexpected .xml t)
      | .text _ _ => .error (unexpected .xml t)
  | .rows titles =>
    if t.isBlank then .ok r
    else
      match t with
      | .startTag _ name attributes isEmpty =>
        if name = "row".toList then
          let titles := titles ++ [attribute? attributes "title".toList]
          if isEmpty then r.endRow titles [] else .ok (r.goTo (.row titles []))
        else .error (unexpected .xml t)
      | .endTag _ name => if name = "rows".toList then .ok (r.endRows titles) else .error (unexpected .xml t)
      | .text _ _ => .error (unexpected .xml t)
  | .row titles before =>
    if t.isBlank then .ok r
    else
      match t with
      | .startTag _ name attributes isEmpty =>
        if name = "cell".toList then
          .ok (r.goTo (if isEmpty then .row titles (before ++ [emptyValue attributes])
            else .cell titles before { null := isNull attributes }))
        else .error (unexpected .xml t)
      | .endTag _ name => if name = "row".toList then r.endRow titles before else .error (unexpected .xml t)
      | .text _ _ => .error (unexpected .xml t)

/-- The table that has been read once there are no more tokens, `line` being that of the last one. -/
def finish (r : Reading α) (line : Nat) : Except FormatFault (Snapshot α) :=
  match r.place with
  | .done => .ok r.snapshot
  | .outside => .error (.shape .xml (.missingElement "table".toList))
  | .title _ _ => .error (.line .xml line (.openElement "title".toList))
  | .cell _ _ _ => .error (.line .xml line (.openElement "cell".toList))
  | _ => .error (.line .xml line .endOfInput)

end Reading

/-- Reads a table. -/
def read {α : Type} [Element α] (text : List Char) : Except FormatFault (Snapshot α) := do
  let ts ← tokens .xml text
  let r ← ts.foldlM Reading.step {}
  r.finish (lastLine ts)

end LiveTable.Xml
