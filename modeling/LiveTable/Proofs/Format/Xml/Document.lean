import LiveTable.Proofs.Format.RoundTrip
import LiveTable.Proofs.Format.Xml.Markup

/-! XML documents round-trip.  A document is taken apart into tags with the blanks in front of them, and
    the reader is followed over its parts: a list of titles, a row with its cells, the list of rows.
    Between tags the reader skips blanks, inside a value it keeps them, so it does not matter that a
    value may be blank itself. -/

namespace LiveTable

namespace Xml

/-- Attributes of which one has a value or is left out. -/
def optional (key : List Char) (value : Option (List Char)) : List Attribute := value.toList.map (key, ·)

theorem writeAttributes_optional (key : List Char) (value : Option (List Char)) :
    writeAttributes (optional key value) = writeAttribute key value := by
  cases value <;> simp [writeAttributes, optional, writeAttribute]

theorem attribute?_optional (key : List Char) (value : Option (List Char)) :
    attribute? (optional key value) key = value := by
  cases value <;> simp [attribute?, optional]

theorem isName_optional {key : List Char} (h : IsName key) (value : Option (List Char)) :
    ∀ a ∈ optional key value, IsName a.1 := by
  intro a mem
  obtain ⟨_, -, rfl⟩ := List.mem_map.mp mem
  exact h

/-! ### Parts of a document -/

/-- A list of titles, if it is included. -/
def titleLines (included : Bool) (values : List (Option (List Char))) : List Char :=
  if included then
    indent 2 ++ openTag "columnTitles".toList [] false ++
      values.flatMap (fun value => indent 4 ++ writeValue "title".toList nullAttribute value) ++
      (indent 2 ++ closeTag "columnTitles".toList)
  else []

/-- A row with its title. -/
def rowLine (title : Option (List Char)) (values : List (Option (List Char))) : List Char :=
  indent 4 ++ openTag "row".toList (optional "title".toList title) false ++
    values.flatMap (writeValue "cell".toList nullAttribute) ++ closeTag "row".toList

section Table

variable {α : Type} [Element α]

/-- A document part by part. -/
theorem write_eq (c : Content α) (inclusion : Inclusion) : write c inclusion =
    declaration ++ (indent 0 ++ openTag "table".toList
        (optional "name".toList (if inclusion.name then c.name.map String.toList else none)) false) ++
      titleLines inclusion.columnTitles ((List.range c.columnCount).map (titleText? c .column)) ++
      (indent 2 ++ openTag "rows".toList [] false) ++
      (List.range c.rowCount).flatMap (fun row =>
        rowLine (if inclusion.rowTitles then titleText? c .row row else none)
        ((List.range c.columnCount).map (cellText? c row))) ++
      (indent 2 ++ closeTag "rows".toList) ++ (indent 0 ++ closeTag "table".toList) ++ ['\n'] := by
  -- the pieces of the written form, with the line ends taken off
  have begins : prolog = declaration ++ ['\n'] := rfl
  have table : "<table".toList = '<' :: "table".toList := rfl
  have opened : ">\n".toList = ['>', '\n'] := rfl
  have head : "  <columnTitles>\n".toList =
    List.replicate 2 ' ' ++ openTag "columnTitles".toList [] false ++ ['\n'] := rfl
  have headed :
      "  </columnTitles>\n".toList = List.replicate 2 ' ' ++ closeTag "columnTitles".toList ++ ['\n'] := rfl
  have body : "  <rows>\n".toList = List.replicate 2 ' ' ++ openTag "rows".toList [] false ++ ['\n'] := rfl
  have row : "    <row".toList = List.replicate 4 ' ' ++ '<' :: "row".toList := rfl
  have ended : "</row>\n".toList = closeTag "row".toList ++ ['\n'] := rfl
  have closed : "  </rows>\n</table>\n".toList =
      List.replicate 2 ' ' ++ closeTag "rows".toList ++ '\n' :: closeTag "table".toList ++ ['\n'] := rfl
  have four : "    ".toList = List.replicate 4 ' ' := rfl
  rw [write, begins, table, opened, head, headed, body, row, ended, closed, four]
  simp only [titleLines, rowLine, indent, openTag, tagBody, writeAttributes_optional, List.flatMap_map,
    List.replicate_zero, List.append_assoc, List.cons_append, List.nil_append, List.append_nil,
    Bool.false_eq_true, if_false]
  cases inclusion.columnTitles <;>
    simp only [← newline_flatMap, List.append_assoc, List.cons_append, List.nil_append,
      Bool.false_eq_true, if_false, if_true]

/-! ### What the parts lead to -/

variable {s : Snapshot α}

/-- A table is entered with its name. -/
theorem leads_table (name : Option (List Char)) :
    Leads .xml Reading.step (indent 0 ++ openTag "table".toList (optional "name".toList name) false)
      ({} : Reading α) ⟨.table, { name := ofText? name }⟩ := by
  refine .indented rfl (fun _ => rfl) rfl
    (.openTag (by decide) (isName_optional (by decide) name) fun line => ?_)
  show Except.ok (Reading.mk .table { name := ofText? (attribute? _ _) }) = _
  rw [attribute?_optional]

/-- A list of titles gives the column titles. -/
theorem leads_titleLines (included : Bool) (values : List (Option (List Char))) (name : Option String) :
    Leads .xml Reading.step (titleLines included values) (⟨.table, { name }⟩ : Reading α)
      ⟨.table, { name, columnTitles := if included then values.map ofText? else [] }⟩ := by
  cases included with
  | false => exact .refl _
  | true =>
    have opened : Leads .xml Reading.step (indent 2 ++ openTag "columnTitles".toList [] false)
        (⟨.table, { name }⟩ : Reading α) ⟨.titles [], { name }⟩ :=
      .indented rfl (fun _ => rfl) rfl (.openTag (by decide) (by decide) fun _ => rfl)
    have title (before : List (Option (List Char))) (value : Option (List Char)) :
        Leads .xml Reading.step (indent 4 ++ writeValue "title".toList nullAttribute value)
          (⟨.titles before, { name }⟩ : Reading α) ⟨.titles (before ++ [value]), { name }⟩ := by
      have begins : (writeValue "title".toList nullAttribute value).head? = some '<' := by cases value <;> rfl
      let inside (text : List Char) : Reading α := ⟨.title before ⟨false, text⟩, { name }⟩
      let next (value : Option (List Char)) : Reading α := ⟨.titles (before ++ [value]), { name }⟩
      refine .indented rfl (fun _ => rfl) begins ?_
      exact .writeValue ("null".toList, "true".toList) inside next (by decide) (by decide) rfl (fun _ => rfl)
        (fun _ => rfl) (fun _ _ => rfl) (fun _ _ => rfl)
    have filled := Leads.flatMap (fun before => (⟨.titles before, { name }⟩ : Reading α)) (l := values)
      (fun before value _ => title before value) []
    have closed : Leads .xml Reading.step (indent 2 ++ closeTag "columnTitles".toList)
        (⟨.titles values, { name }⟩ : Reading α) ⟨.table, { name, columnTitles := values.map ofText? }⟩ :=
      .indented rfl (fun _ => rfl) rfl (.closeTag (by decide) fun _ => rfl)
    exact (opened.trans filled).trans closed

/-- A row is read as its cells, and its title is kept with those of the rows before. -/
theorem leads_rowLine {values : List (Option (List Char))} {row : List (Option α)}
    (read : values.mapM readCell = .ok row) (titles : List (Option (List Char)))
    (title : Option (List Char)) :
    Leads .xml Reading.step (rowLine title values) (⟨.rows titles, s⟩ : Reading α)
      ⟨.rows (titles ++ [title]), { s with rows := s.rows ++ [row] }⟩ := by
  have found := attribute?_optional "title".toList title
  have opened :
      Leads .xml Reading.step (indent 4 ++ openTag "row".toList (optional "title".toList title) false)
      (⟨.rows titles, s⟩ : Reading α) ⟨.row (titles ++ [title]) [], s⟩ := by
    refine .indented rfl (fun _ => rfl) rfl
      (.openTag (by decide) (isName_optional (by decide) title) fun line => ?_)
    show Except.ok (Reading.mk (.row (titles ++ [attribute? _ _]) []) s) = _
    rw [found]
  have cell (before : List (Option (List Char))) (value : Option (List Char)) :
      Leads .xml Reading.step (writeValue "cell".toList nullAttribute value)
        (⟨.row (titles ++ [title]) before, s⟩ : Reading α)
          ⟨.row (titles ++ [title]) (before ++ [value]), s⟩ := by
    let inside (text : List Char) : Reading α := ⟨.cell (titles ++ [title]) before ⟨false, text⟩, s⟩
    let next (value : Option (List Char)) : Reading α := ⟨.row (titles ++ [title]) (before ++ [value]), s⟩
    exact .writeValue ("null".toList, "true".toList) inside next (by decide) (by decide) rfl (fun _ => rfl)
      (fun _ => rfl) (fun _ _ => rfl) (fun _ _ => rfl)
  have cells := Leads.flatMap (fun before => (⟨.row (titles ++ [title]) before, s⟩ : Reading α)) (l := values)
    (fun before value _ => cell before value) []
  have closed :
      Leads .xml Reading.step (closeTag "row".toList) (⟨.row (titles ++ [title]) values, s⟩ : Reading α)
      ⟨.rows (titles ++ [title]), { s with rows := s.rows ++ [row] }⟩ := by
    refine .closeTag (by decide) fun line => ?_
    show (values.mapM readCell >>= fun row => _) = _
    rw [read]
    rfl
  exact (opened.trans cells).trans closed

/-- The rows of a table, with whatever titles they have. -/
theorem leads_rowLines {c : Content α} (legible : c.Legible) (title : Nat → Option (List Char))
    (untouched : s.rows = []) :
    Leads .xml Reading.step ((List.range c.rowCount).flatMap fun row =>
        rowLine (title row) ((List.range c.columnCount).map (cellText? c row))) (⟨.rows [], s⟩ : Reading α)
      ⟨.rows ((List.range c.rowCount).map title), { s with rows := c.toRows }⟩ := by
  let state (before : List Nat) : Reading α :=
    ⟨.rows (before.map title), { s with
      rows := before.map fun row => (List.range c.columnCount).map (c.element row) }⟩
  have each (before : List Nat) (row : Nat) :
      Leads .xml Reading.step (rowLine (title row) ((List.range c.columnCount).map (cellText? c row)))
        (state before) (state (before ++ [row])) := by
    have read :=
      leads_rowLine (s := (state before).snapshot) (mapM_readCell legible row) (before.map title) (title row)
    simpa only [state, List.map_append, List.map_cons, List.map_nil] using read
  have none_read : (⟨.rows [], s⟩ : Reading α) = state [] := by simp only [state, List.map_nil, ← untouched]
  have all_read : (⟨.rows ((List.range c.rowCount).map title), { s with rows := c.toRows }⟩ : Reading α) =
      state ([] ++ List.range c.rowCount) := by rw [Content.toRows_eq_map, List.nil_append]
  rw [none_read, all_read]
  exact Leads.flatMap state (fun before row _ => each before row) []

/-- A document is read as the table it was written from, whatever it includes, if the cells of the table
    are. -/
theorem read_write_of_legible {c : Content α} (legible : c.Legible) (inclusion : Inclusion) :
    read (write c inclusion) = .ok (c.snapshot.restrict (inclusion.withTitlesOf c)) := by
  let name : Option (List Char) := if inclusion.name then c.name.map String.toList else none
  let headers := (List.range (c.count .column)).map (titleText? c .column)
  let title (row : Nat) : Option (List Char) := if inclusion.rowTitles then titleText? c .row row else none
  let titles := (List.range c.rowCount).map title
  let head : Snapshot α := {
    name := ofText? name
    columnTitles := if inclusion.columnTitles then headers.map ofText? else [] }
  have opened :
      Leads .xml Reading.step (indent 2 ++ openTag "rows".toList [] false) (⟨.table, head⟩ : Reading α)
      ⟨.rows [], head⟩ :=
    .indented rfl (fun _ => rfl) rfl (.openTag (by decide) (by decide) fun _ => rfl)
  have closed : Leads .xml Reading.step (indent 2 ++ closeTag "rows".toList)
      (⟨.rows titles, { head with rows := c.toRows }⟩ : Reading α)
      ⟨.table, c.snapshot.restrict (inclusion.withTitlesOf c)⟩ := by
    have named : ofText? name = (c.snapshot.restrict (inclusion.withTitlesOf c)).name :=
      ofText?_name c inclusion
    have titled : (if titles.any Option.isSome then titles.map ofText? else []) =
        (c.snapshot.restrict (inclusion.withTitlesOf c)).rowTitles := rowTitles_of_titleText? c inclusion
    have header : headers.map ofText? = c.titles .column := map_ofText?_titleText? c .column
    refine .indented rfl (fun _ => rfl) rfl (.closeTag (by decide) fun line => ?_)
    show Except.ok (Reading.mk .table (Snapshot.mk (ofText? name)
      (if inclusion.columnTitles then headers.map ofText? else [])
      (if titles.any Option.isSome then titles.map ofText? else []) (padRows c.toRows))) = _
    rw [named, titled, header, c.padRows_toRows]
    rfl
  have ended : Leads .xml Reading.step (indent 0 ++ closeTag "table".toList)
      (⟨.table, c.snapshot.restrict (inclusion.withTitlesOf c)⟩ : Reading α)
      ⟨.done, c.snapshot.restrict (inclusion.withTitlesOf c)⟩ :=
    .indented rfl (fun _ => rfl) rfl (.closeTag (by decide) fun _ => rfl)
  have headed := ((leads_declaration _).trans (leads_table (α := α) name)).trans
    (leads_titleLines inclusion.columnTitles headers (ofText? name))
  have filled := (headed.trans opened).trans (leads_rowLines legible title rfl)
  have whole := (filled.trans closed).trans ended
  obtain ⟨ts, read, taken⟩ := whole.exists_tokens fun _ => rfl
  have read_all : tokens .xml (write c inclusion) = .ok ts := by
    rw [write_eq]
    exact read
  rw [Xml.read, read_all]
  show (ts.foldlM Reading.step {} >>= fun r => r.finish (lastLine ts)) = _
  rw [taken]
  rfl

theorem read_write [Element.Faithful α] (c : Content α) (inclusion : Inclusion) :
    read (write c inclusion) = .ok (c.snapshot.restrict (inclusion.withTitlesOf c)) :=
  read_write_of_legible c.legible inclusion

end Table

end Xml

namespace Format

/-- A table round-trips through XML if it has rows or no columns or its column titles are included,
    whatever its elements, titles and name hold. -/
theorem xml_roundTrips {α : Type} [Element α] [Element.Faithful α] [JsonForm α] (c : Content α)
    (inclusion : Inclusion)
    (shown : 0 < c.rowCount ∨ c.columnCount = 0 ∨ inclusion.columnTitles) : xml.RoundTrips c inclusion :=
  roundTrips_of_read_titled Xml.read (fun _ => rfl) rfl shown (Xml.read_write c inclusion)

/-- Markup, quotes and line ends, blanks alone, a null cell and an empty text; numbers; a header over no
    rows. -/
theorem xml_roundTrips_marked :
    xml.RoundTrips (.ofRows [[some "</cell><!--&amp;\"'\r\n", some " ", none, some ""]] : Content String)
      { rowTitles := true, name := true } ∧
    xml.RoundTrips (.ofRows [[some (-5), none]] : Content Int64) {} ∧
    xml.RoundTrips (.ofSnapshot { columnTitles := [some "]]>", none, some ""] } : Content String)
      { columnTitles := true } :=
  ⟨xml_roundTrips _ _ (.inl (by decide +kernel)), xml_roundTrips _ _ (.inl (by decide +kernel)),
    xml_roundTrips _ _ (.inr (.inr rfl))⟩

end Format

end LiveTable
