import LiveTable.Edit.Basic

/-! Edits of titles, and writes that find their place by title.  A title names the first stripe that
    carries it; a write to an unknown title appends a stripe for it.  Titles themselves are never
    announced, only the stripes that were appended to hold them. -/

namespace LiveTable

namespace Edit

variable {α ω : Type}

/-- Gives a stripe a title or takes it away, growing the table to it. -/
def putTitle (e : Edit α ω) (axis : Axis) (position : Nat) (title : Option String) : Edit α ω :=
  if position < unaddressable then
    let grown := e.growAlong axis (position + 1) 0
    grown.quietly (·.setTitle axis position title)
  else e

/-- Takes the title of a stripe away; a position outside the table is left alone. -/
def clearTitle (e : Edit α ω) (axis : Axis) (position : Nat) : Edit α ω :=
  e.quietly (·.setTitle axis position none)

/-- Gives the first stripes of a direction the listed titles, growing the table to them. -/
def putTitles (e : Edit α ω) (axis : Axis) (titles : List String) : Edit α ω :=
  titles.zipIdx.foldl (fun e entry => e.putTitle axis entry.2 (some entry.1)) e

/-- Appends an empty column with a title and gives its position. -/
def addColumnTitle (e : Edit α ω) (title : String) : Nat × Edit α ω :=
  (e.content.columnCount, e.putTitle .column e.content.columnCount (some title))

/-- The position of the first stripe with a title, appending a stripe of that title if there is none. -/
def positionForTitle (e : Edit α ω) (axis : Axis) (title : String) : Nat × Edit α ω :=
  match (e.content.stripes axis).positionOfTitle title with
  | some position => (position, e)
  | none =>
    let position := e.content.count axis
    let grown := e.growAlong axis (position + 1) 0
    (position, grown.quietly (·.setTitle axis position (some title)))

/-- Names the table. -/
def setName (e : Edit α ω) (name : String) : Edit α ω := e.quietly ({ · with name := some name })

/-- Writes the cell of a row in the column with a title. -/
def setElementByColumnTitle [DecidableEq α] (e : Edit α ω) (row : Nat) (columnTitle : String)
    (element : Option α) : Option α × Edit α ω :=
  let column := e.positionForTitle .column columnTitle
  column.2.setElement row column.1 element

/-- Writes the cell of a column in the row with a title. -/
def setElementByRowTitle [DecidableEq α] (e : Edit α ω) (rowTitle : String) (column : Nat)
    (element : Option α) : Option α × Edit α ω :=
  let row := e.positionForTitle .row rowTitle
  row.2.setElement row.1 column element

/-- Writes the cell where the row with one title meets the column with another. -/
def setElementAt [DecidableEq α] (e : Edit α ω) (rowTitle columnTitle : String) (element : Option α) :
    Option α × Edit α ω :=
  let row := e.positionForTitle .row rowTitle
  let column := row.2.positionForTitle .column columnTitle
  column.2.setElement row.1 column.1 element

/-- The elements of a row, as long as any entry placed so far needs. -/
def place (elements : List (Option α)) (column : Nat) (element : Option α) : List (Option α) :=
  (elements ++ List.replicate (column + 1 - elements.length) none).set column element

/-- Takes one entry of a row by the title of its column.  A title without a column gets one if `create`
    says so; otherwise its entry is dropped. -/
def placeEntry (create : Bool) (row : List (Option α) × Edit α ω) (entry : String × Option α) :
    List (Option α) × Edit α ω :=
  match row.2.content.columns.positionOfTitle entry.1 with
  | some column => (place row.1 column entry.2, row.2)
  | none =>
    if create then
      let column := row.2.positionForTitle .column entry.1
      (place row.1 column.1 entry.2, column.2)
    else row

/-- Appends a row whose elements are placed by the titles of their columns, and gives its position. -/
def addEntries (e : Edit α ω) (entries : List (String × Option α)) (create : Bool) : Nat × Edit α ω :=
  let row := entries.foldl (placeEntry create) ([], e)
  row.2.addElements .row row.1

/-- Turns the first stripe of the other direction into the titles of this one: its elements are written out as
    titles, null cells leaving no title, and then it is removed. -/
def titlesFromFirst [Element α] (e : Edit α ω) (axis : Axis) : Edit α ω :=
  match e.content.elements? axis.cross 0 with
  | some elements =>
    ((e.quietly (·.setTitles axis (elements.map Element.cellText))).removeAt axis.cross 0).2
  | none => e

/-- Replaces the whole content: a clear, then one appended row for each new row, then the titles and the name.
    The orientation stays as it was. -/
def replace (e : Edit α ω) (source : Content α) : Edit α ω :=
  let cleared := e.clear
  let named := cleared.quietly ({ · with name := source.name })
  let wide := named.growTo 0 source.columnCount
  let filled := source.toRows.foldl (fun e row => (e.addElements .row row).2) wide
  filled.quietly fun c => (c.setTitles .row (source.titles .row)).setTitles .column (source.titles .column)

end Edit

end LiveTable
