import LiveTable.Format.Xml.Document

/-! Tables as XHTML pages: a caption, a head with one row of title cells, and a body whose rows may begin
    with a title cell.  A title cell marked as corner stands above the row titles and is no title
    itself. -/

namespace LiveTable.Xhtml

open LiveTable.Xml

/-- The mark of a null value. -/
def nullClass : List Char := "class=\"null\"".toList

/-- The written form of a table. -/
def write {α : Type} [Element α] (c : Content α) (inclusion : Inclusion) : List Char :=
  let columns := List.range c.columnCount
  let caption : List Char :=
    match if inclusion.name then c.name.map String.toList else none with
    | some name => "  <caption>".toList ++ escape name ++ "</caption>\n".toList
    | none => []
  let head : List Char :=
    "  <thead>\n    <tr>".toList ++ (if inclusion.rowTitles then "<th class=\"corner\"/>".toList else []) ++
      columns.flatMap (fun column => writeValue "th".toList nullClass (titleText? c .column column)) ++
      "</tr>\n  </thead>\n".toList
  let row (row : Nat) : List Char :=
    "    <tr>".toList ++
      (if inclusion.rowTitles then writeValue "th".toList nullClass (titleText? c .row row) else []) ++
      columns.flatMap (fun column => writeValue "td".toList nullClass (cellText? c row column)) ++
      "</tr>\n".toList
  prolog ++ "<html xmlns=\"http://www.w3.org/1999/xhtml\">\n<body>\n<table>\n".toList ++ caption ++
    (if inclusion.columnTitles then head else []) ++
    "  <tbody>\n".toList ++ (List.range c.rowCount).flatMap row ++
    "  </tbody>\n</table>\n</body>\n</html>\n".toList

/-- The two parts of a table. -/
inductive Section where
  | head
  | body
  deriving DecidableEq, Repr

/-- The tag of a part. -/
def Section.tag : Section → List Char
  | head => "thead".toList
  | body => "tbody".toList

/-- A row being read: its title cells and its element cells. -/
structure Cells where
  headers : List (Option (List Char)) := []
  data : List (Option (List Char)) := []

/-- A row with one more cell. -/
def Cells.push (cells : Cells) (isHeader isCorner : Bool) (value : Option (List Char)) : Cells :=
  if isHeader then (if isCorner then cells else { cells with headers := cells.headers ++ [value] })
  else { cells with data := cells.data ++ [value] }

/-- The tag of a cell. -/
def cellTag (isHeader : Bool) : List Char := if isHeader then "th".toList else "td".toList

/-- Where the reader stands. -/
inductive Place where
  | outside
  | table
  | caption (value : Value)
  | part (which : Section)
  | row (which : Section) (cells : Cells)
  | cell (which : Section) (cells : Cells) (isHeader isCorner : Bool) (value : Value)
  | done

/-- What has been read, and where the reader stands. -/
structure Reading (α : Type) where
  place : Place := .outside
  snapshot : Snapshot α := {}
  titles : List (Option (List Char)) := []

namespace Reading

variable {α : Type} [Element α]

/-- Goes on at another place. -/
def goTo (r : Reading α) (place : Place) : Reading α := { r with place := place }

/-- Names the table and goes on behind the caption. -/
def endCaption (r : Reading α) (name : Option (List Char)) : Reading α :=
  { r with place := .table, snapshot := { r.snapshot with name := ofText? name } }

/-- Ends a row: one of the head gives the column titles, one of the body a row and its title. -/
def endRow (r : Reading α) (which : Section) (cells : Cells) : Except FormatFault (Reading α) :=
  match which with
  | .head =>
    .ok { r with
      place := .part .head
      snapshot := { r.snapshot with columnTitles := cells.headers.map ofText? } }
  | .body => do
    let row ← cells.data.mapM readCell
    return {
      place := .part .body
      snapshot := { r.snapshot with rows := r.snapshot.rows ++ [row] }
      titles := r.titles ++ [cells.headers.head?.join] }

/-- The fault of a token that does not belong where it stands. -/
def unexpected (t : Token) : FormatFault := Xml.Reading.unexpected .xhtml t

/-- Whether attributes mark a title cell as the corner. -/
def marksCorner (attributes : List Attribute) : Bool :=
  attribute? attributes "class".toList = some "corner".toList

/-- Reads one token. -/
def step (r : Reading α) (t : Token) : Except FormatFault (Reading α) :=
  match r.place with
  | .done => .ok r
  | .outside =>
    match t with
    | .startTag _ name _ isEmpty =>
      .ok (if name = "table".toList then r.goTo (if isEmpty then .done else .table) else r)
    | _ => .ok r
  | .caption v => do
    match ← Xml.Reading.stepValue .xhtml "caption".toList v t with
    | .inl v => return r.goTo (.caption v)
    | .inr name => return r.endCaption name
  | .cell which cells isHeader isCorner v => do
    match ← Xml.Reading.stepValue .xhtml (cellTag isHeader) v t with
    | .inl v => return r.goTo (.cell which cells isHeader isCorner v)
    | .inr value => return r.goTo (.row which (cells.push isHeader isCorner value))
  | .table =>
    if t.isBlank then .ok r
    else
      match t with
      | .startTag _ name attributes isEmpty =>
        if name = "caption".toList then
          .ok (if isEmpty then r.endCaption (Xml.Reading.emptyValue attributes)
            else r.goTo (.caption { null := isNull attributes }))
        else if name = "thead".toList then .ok (if isEmpty then r else r.goTo (.part .head))
        else if name = "tbody".toList then .ok (if isEmpty then r else r.goTo (.part .body))
        else .error (unexpected t)
      | .endTag _ name => if name = "table".toList then .ok (r.goTo .done) else .error (unexpected t)
      | .text _ _ => .error (unexpected t)
  | .part which =>
    if t.isBlank then .ok r
    else
      match t with
      | .startTag _ name _ isEmpty =>
        if name = "tr".toList then (if isEmpty then r.endRow which {} else .ok (r.goTo (.row which {})))
        else .error (unexpected t)
      | .endTag _ name => if name = which.tag then .ok (r.goTo .table) else .error (unexpected t)
      | .text _ _ => .error (unexpected t)
  | .row which cells =>
    if t.isBlank then .ok r
    else
      match t with
      | .startTag _ name attributes isEmpty =>
        if name = "th".toList || name = "td".toList then
          let isHeader : Bool := name = "th".toList
          let isCorner := marksCorner attributes
          .ok (r.goTo
            (if isEmpty then
              .row which (cells.push isHeader isCorner (Xml.Reading.emptyValue attributes))
            else .cell which cells isHeader isCorner { null := isNull attributes }))
        else .error (unexpected t)
      | .endTag _ name => if name = "tr".toList then r.endRow which cells else .error (unexpected t)
      | .text _ _ => .error (unexpected t)

/-- The table that has been read once there are no more tokens, `line` being that of the last one. -/
def finish (r : Reading α) (line : Nat) : Except FormatFault (Snapshot α) :=
  match r.place with
  | .done =>
    .ok { r.snapshot with
      rows := padRows r.snapshot.rows
      rowTitles := if r.titles.any Option.isSome then r.titles.map ofText? else [] }
  | .outside => .error (.shape .xhtml (.missingElement "table".toList))
  | .caption _ => .error (.line .xhtml line (.openElement "caption".toList))
  | .cell _ _ isHeader _ _ => .error (.line .xhtml line (.openElement (cellTag isHeader)))
  | _ => .error (.line .xhtml line .endOfInput)

end Reading

/-- Reads a table. -/
def read {α : Type} [Element α] (text : List Char) : Except FormatFault (Snapshot α) := do
  let ts ← tokens .xhtml text
  let r ← ts.foldlM Reading.step {}
  r.finish (lastLine ts)

end LiveTable.Xhtml
