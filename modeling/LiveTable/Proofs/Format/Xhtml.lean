import LiveTable.Format.Xhtml
import LiveTable.Proofs.Format.RoundTrip
import LiveTable.Proofs.Format.Xml.Markup

/-! XHTML pages round-trip.  Rows of the head and rows of the body are of one form: title cells, in front
    of which a corner may stand, and element cells behind them.  The reader keeps the two kinds apart,
    and what it makes of them when the row ends depends on the part of the table only. -/

namespace LiveTable

namespace Xhtml

open LiveTable.Xml

/-! ### Parts of a page -/

/-- A caption, if there is a name. -/
def captionLine : Option (List Char) → List Char
  | some name => indent 2 ++ writeValue "caption".toList nullClass (some name)
  | none => []

/-- A row of title cells and element cells, with or without a corner. -/
def rowLine (corner : Bool) (headers data : List (Option (List Char))) : List Char :=
  indent 4 ++ openTag "tr".toList [] false ++
    (if corner then openTag "th".toList [("class".toList, "corner".toList)] true else []) ++
    headers.flatMap (writeValue "th".toList nullClass) ++ data.flatMap (writeValue "td".toList nullClass) ++
    closeTag "tr".toList

/-- The head, if there is one: a single row of title cells. -/
def headLines (included corner : Bool) (headers : List (Option (List Char))) : List Char :=
  if included then
    indent 2 ++ openTag "thead".toList [] false ++ rowLine corner headers [] ++
      (indent 2 ++ closeTag "thead".toList)
  else []

/-- What stands in front of a table. -/
def opening : List Char :=
  declaration ++
    (indent 0 ++ openTag "html".toList [("xmlns".toList, "http://www.w3.org/1999/xhtml".toList)] false) ++
    (indent 0 ++ openTag "body".toList [] false) ++ (indent 0 ++ openTag "table".toList [] false)

/-- What stands behind the rows of a table. -/
def closing : List Char :=
  indent 2 ++ closeTag "tbody".toList ++ (indent 0 ++ closeTag "table".toList) ++
    (indent 0 ++ closeTag "body".toList) ++ (indent 0 ++ closeTag "html".toList)

section Page

variable {α : Type} [Element α]

/-- A page part by part. -/
theorem write_eq (c : Content α) (inclusion : Inclusion) : write c inclusion =
    opening ++ captionLine (if inclusion.name then c.name.map String.toList else none) ++
      headLines inclusion.columnTitles inclusion.rowTitles
        ((List.range c.columnCount).map (titleText? c .column)) ++
      (indent 2 ++ openTag "tbody".toList [] false) ++
      (List.range c.rowCount).flatMap (fun row =>
        rowLine false (if inclusion.rowTitles then [titleText? c .row row] else [])
          ((List.range c.columnCount).map (cellText? c row))) ++ closing ++ ['\n'] := by
  -- the pieces of the written form, with the line ends taken off
  have begins : prolog ++ "<html xmlns=\"http://www.w3.org/1999/xhtml\">\n<body>\n<table>\n".toList =
    opening ++ ['\n'] := rfl
  have caption : "  <caption>".toList = List.replicate 2 ' ' ++ openTag "caption".toList [] false := rfl
  have captioned : "</caption>\n".toList = closeTag "caption".toList ++ ['\n'] := rfl
  have head : "  <thead>\n    <tr>".toList =
    List.replicate 2 ' ' ++ openTag "thead".toList [] false ++ indent 4 ++ openTag "tr".toList [] false := rfl
  have corner :
      "<th class=\"corner\"/>".toList = openTag "th".toList [("class".toList, "corner".toList)] true := rfl
  have headed : "</tr>\n  </thead>\n".toList =
    closeTag "tr".toList ++ indent 2 ++ closeTag "thead".toList ++ ['\n'] := rfl
  have row : "    <tr>".toList = List.replicate 4 ' ' ++ openTag "tr".toList [] false := rfl
  have ended : "</tr>\n".toList = closeTag "tr".toList ++ ['\n'] := rfl
  have body : "  <tbody>\n".toList = List.replicate 2 ' ' ++ openTag "tbody".toList [] false ++ ['\n'] := rfl
  have closed : '\n' :: "  </tbody>\n</table>\n</body>\n</html>\n".toList = closing ++ ['\n'] := rfl
  rw [write, begins, caption, captioned, head, corner, headed, row, ended, body,
    List.append_assoc _ closing, ← closed]
  generalize "  </tbody>\n</table>\n</body>\n</html>\n".toList = behind
  have named (name : List Char) : writeValue "caption".toList nullClass (some name) =
      openTag "caption".toList [] false ++ (escape name ++ closeTag "caption".toList) := by
    simp [writeValue, openTag, tagBody, writeAttributes, closeTag]
  cases (if inclusion.name then c.name.map String.toList else none : Option (List Char)) <;>
    cases inclusion.columnTitles <;> cases inclusion.rowTitles <;>
    simp only [captionLine, headLines, rowLine, indent, named, List.flatMap_map, List.flatMap_cons,
      List.flatMap_nil, ← newline_flatMap, List.append_assoc, List.cons_append, List.nil_append,
      List.append_nil, Bool.false_eq_true, if_false, if_true]

/-! ### What the parts lead to -/

variable {s : Snapshot α} {titles : List (Option (List Char))}

/-- What stands in front of a table is not noticed. -/
theorem leads_opening : Leads .xhtml Reading.step opening ({} : Reading α) ⟨.table, {}, []⟩ := by
  have html : Leads .xhtml Reading.step
      (indent 0 ++ openTag "html".toList [("xmlns".toList, "http://www.w3.org/1999/xhtml".toList)] false)
      ({} : Reading α) {} :=
    .indented rfl (fun _ => rfl) rfl (.openTag (by decide) (by decide) fun _ => rfl)
  have body : Leads .xhtml Reading.step (indent 0 ++ openTag "body".toList [] false) ({} : Reading α) {} :=
    .indented rfl (fun _ => rfl) rfl (.openTag (by decide) (by decide) fun _ => rfl)
  have table : Leads .xhtml Reading.step (indent 0 ++ openTag "table".toList [] false) ({} : Reading α)
      ⟨.table, {}, []⟩ :=
    .indented rfl (fun _ => rfl) rfl (.openTag (by decide) (by decide) fun _ => rfl)
  exact (((leads_declaration _).trans html).trans body).trans table

/-- Behind its end tag a table is not added to. -/
theorem leads_closing :
    Leads .xhtml Reading.step closing (⟨.part .body, s, titles⟩ : Reading α) ⟨.done, s, titles⟩ := by
  have tbody :
      Leads .xhtml Reading.step (indent 2 ++ closeTag "tbody".toList) (⟨.part .body, s, titles⟩ : Reading α)
      ⟨.table, s, titles⟩ := .indented rfl (fun _ => rfl) rfl (.closeTag (by decide) fun _ => rfl)
  have table :
      Leads .xhtml Reading.step (indent 0 ++ closeTag "table".toList) (⟨.table, s, titles⟩ : Reading α)
      ⟨.done, s, titles⟩ := .indented rfl (fun _ => rfl) rfl (.closeTag (by decide) fun _ => rfl)
  have body : Leads .xhtml Reading.step (indent 0 ++ closeTag "body".toList) (⟨.done, s, titles⟩ : Reading α)
      ⟨.done, s, titles⟩ := .indented rfl (fun _ => rfl) rfl (.closeTag (by decide) fun _ => rfl)
  have html : Leads .xhtml Reading.step (indent 0 ++ closeTag "html".toList) (⟨.done, s, titles⟩ : Reading α)
      ⟨.done, s, titles⟩ := .indented rfl (fun _ => rfl) rfl (.closeTag (by decide) fun _ => rfl)
  exact ((tbody.trans table).trans body).trans html

theorem leads_captionLine (name : Option (List Char)) :
    Leads .xhtml Reading.step (captionLine name) (⟨.table, {}, titles⟩ : Reading α)
      ⟨.table, { name := ofText? name }, titles⟩ := by
  cases name with
  | none => exact .refl _
  | some name =>
    let inside (text : List Char) : Reading α := ⟨.caption ⟨false, text⟩, {}, titles⟩
    let next (value : Option (List Char)) : Reading α := ⟨.table, { name := ofText? value }, titles⟩
    refine .indented rfl (fun _ => rfl) rfl ?_
    exact .writeValue ("class".toList, "null".toList) inside next (by decide) (by decide) rfl (fun _ => rfl)
      (fun _ => rfl) (fun _ _ => rfl) (fun _ _ => rfl)

/-- A cell is added to those of its kind. -/
theorem leads_cell (which : Section) (cells : Cells) (isHeader : Bool) (value : Option (List Char)) :
    Leads .xhtml Reading.step (writeValue (cellTag isHeader) nullClass value)
      (⟨.row which cells, s, titles⟩ : Reading α)
      ⟨.row which (cells.push isHeader false value), s, titles⟩ := by
  let inside (text : List Char) : Reading α := ⟨.cell which cells isHeader false ⟨false, text⟩, s, titles⟩
  let next (value : Option (List Char)) : Reading α :=
    ⟨.row which (cells.push isHeader false value), s, titles⟩
  cases isHeader <;>
    exact .writeValue ("class".toList, "null".toList) inside next (by decide) (by decide) rfl (fun _ => rfl)
      (fun _ => rfl) (fun _ _ => rfl) (fun _ _ => rfl)

/-- A row is read as its title cells and its element cells; a corner is neither. -/
theorem leads_rowLine {which : Section} {headers data : List (Option (List Char))} {r : Reading α}
    (corner : Bool)
    (ended : Reading.endRow ⟨.row which ⟨headers, data⟩, s, titles⟩ which ⟨headers, data⟩ = .ok r) :
    Leads .xhtml Reading.step (rowLine corner headers data) (⟨.part which, s, titles⟩ : Reading α) r := by
  have opened : Leads .xhtml Reading.step (indent 4 ++ openTag "tr".toList [] false)
      (⟨.part which, s, titles⟩ : Reading α) ⟨.row which {}, s, titles⟩ :=
    .indented rfl (fun _ => rfl) rfl (.openTag (by decide) (by decide) fun _ => rfl)
  have cornered : Leads .xhtml Reading.step
      (if corner then openTag "th".toList [("class".toList, "corner".toList)] true else [])
      (⟨.row which {}, s, titles⟩ : Reading α) ⟨.row which {}, s, titles⟩ := by
    cases corner with
    | false => exact .refl _
    | true => exact .openTag (by decide) (by decide) fun _ => rfl
  have titled :=
    Leads.flatMap (fun headers => (⟨.row which ⟨headers, []⟩, s, titles⟩ : Reading α)) (l := headers)
    (fun before value _ => leads_cell which ⟨before, []⟩ true value) []
  have filled := Leads.flatMap (fun data => (⟨.row which ⟨headers, data⟩, s, titles⟩ : Reading α)) (l := data)
    (fun before value _ => leads_cell which ⟨headers, before⟩ false value) []
  have closed : Leads .xhtml Reading.step (closeTag "tr".toList)
      (⟨.row which ⟨headers, data⟩, s, titles⟩ : Reading α) r :=
    .closeTag (by decide) fun _ => ended
  exact (((opened.trans cornered).trans titled).trans filled).trans closed

/-- The head gives the column titles. -/
theorem leads_headLines (included corner : Bool) (headers : List (Option (List Char)))
    (name : Option String) :
    Leads .xhtml Reading.step (headLines included corner headers) (⟨.table, { name }, titles⟩ : Reading α)
      ⟨.table, { name, columnTitles := if included then headers.map ofText? else [] }, titles⟩ := by
  cases included with
  | false => exact .refl _
  | true =>
    have opened : Leads .xhtml Reading.step (indent 2 ++ openTag "thead".toList [] false)
        (⟨.table, { name }, titles⟩ : Reading α) ⟨.part .head, { name }, titles⟩ :=
      .indented rfl (fun _ => rfl) rfl (.openTag (by decide) (by decide) fun _ => rfl)
    have row :
        Leads .xhtml Reading.step (rowLine corner headers []) (⟨.part .head, { name }, titles⟩ : Reading α)
        ⟨.part .head, { name, columnTitles := headers.map ofText? }, titles⟩ := leads_rowLine corner rfl
    have closed : Leads .xhtml Reading.step (indent 2 ++ closeTag "thead".toList)
        (⟨.part .head, { name, columnTitles := headers.map ofText? }, titles⟩ : Reading α)
        ⟨.table, { name, columnTitles := headers.map ofText? }, titles⟩ :=
      .indented rfl (fun _ => rfl) rfl (.closeTag (by decide) fun _ => rfl)
    exact (opened.trans row).trans closed

/-- The rows of the body, with or without title cells. -/
theorem leads_rowLines {c : Content α} (legible : c.Legible) (included : Bool) (untouched : s.rows = []) :
    Leads .xhtml Reading.step ((List.range c.rowCount).flatMap fun row =>
        rowLine false (if included then [titleText? c .row row] else [])
          ((List.range c.columnCount).map (cellText? c row))) (⟨.part .body, s, []⟩ : Reading α)
      ⟨.part .body, { s with rows := c.toRows },
        (List.range c.rowCount).map fun row => if included then titleText? c .row row else none⟩ := by
  let title (row : Nat) : Option (List Char) := if included then titleText? c .row row else none
  let state (before : List Nat) : Reading α :=
    ⟨.part .body, { s with rows := before.map fun row => (List.range c.columnCount).map (c.element row) },
      before.map title⟩
  have each (before : List Nat) (row : Nat) :
      Leads .xhtml Reading.step (rowLine false (if included then [titleText? c .row row] else [])
        ((List.range c.columnCount).map (cellText? c row))) (state before) (state (before ++ [row])) := by
    refine leads_rowLine false ?_
    have head : (if included then [titleText? c .row row] else []).head?.join = title row := by
      cases h : included <;> simp [title, h]
    rw [Reading.endRow, head]
    simp only [mapM_readCell legible, state, List.map_append, List.map_cons, List.map_nil]
    rfl
  have none_read : (⟨.part .body, s, []⟩ : Reading α) = state [] := by
    simp only [state, List.map_nil, ← untouched]
  rw [none_read, Content.toRows_eq_map]
  exact Leads.flatMap state (fun before row _ => each before row) []

/-- A page is read as the table it was written from, whatever it includes, if the cells of the table are. -/
theorem read_write_of_legible {c : Content α} (legible : c.Legible) (inclusion : Inclusion) :
    read (write c inclusion) = .ok (c.snapshot.restrict (inclusion.withTitlesOf c)) := by
  let name : Option (List Char) := if inclusion.name then c.name.map String.toList else none
  let headers := (List.range (c.count .column)).map (titleText? c .column)
  let head : Snapshot α := {
    name := ofText? name
    columnTitles := if inclusion.columnTitles then headers.map ofText? else [] }
  let titles :=
    (List.range c.rowCount).map fun row => if inclusion.rowTitles then titleText? c .row row else none
  have opened :
      Leads .xhtml Reading.step (indent 2 ++ openTag "tbody".toList [] false) (⟨.table, head, []⟩ : Reading α)
      ⟨.part .body, head, []⟩ :=
    .indented rfl (fun _ => rfl) rfl (.openTag (by decide) (by decide) fun _ => rfl)
  have headed := (leads_opening.trans (leads_captionLine (α := α) name)).trans
    (leads_headLines inclusion.columnTitles inclusion.rowTitles headers (ofText? name))
  have filled := leads_rowLines (s := head) legible inclusion.rowTitles rfl
  have whole := ((headed.trans opened).trans filled).trans leads_closing
  obtain ⟨ts, read, taken⟩ := whole.exists_tokens fun _ => rfl
  have read_all : tokens .xhtml (write c inclusion) = .ok ts := by
    rw [write_eq]
    exact read
  have named : ofText? name = (c.snapshot.restrict (inclusion.withTitlesOf c)).name :=
    ofText?_name c inclusion
  have titled : (if titles.any Option.isSome then titles.map ofText? else []) =
      (c.snapshot.restrict (inclusion.withTitlesOf c)).rowTitles := rowTitles_of_titleText? c inclusion
  have header : headers.map ofText? = c.titles .column := map_ofText?_titleText? c .column
  rw [Xhtml.read, read_all]
  show (ts.foldlM Reading.step {} >>= fun r => r.finish (lastLine ts)) = _
  rw [taken]
  show Except.ok (Snapshot.mk (ofText? name) (if inclusion.columnTitles then headers.map ofText? else [])
    (if titles.any Option.isSome then titles.map ofText? else []) (padRows c.toRows)) = _
  rw [named, titled, header, c.padRows_toRows]
  rfl

theorem read_write [Element.Faithful α] (c : Content α) (inclusion : Inclusion) :
    read (write c inclusion) = .ok (c.snapshot.restrict (inclusion.withTitlesOf c)) :=
  read_write_of_legible c.legible inclusion

end Page

end Xhtml

namespace Format

/-- A table round-trips through XHTML if it has rows or no columns or its column titles are included,
    whatever its elements, titles and name hold.  Whatever the reader is told that the page includes, its
    elements are those of the table, no title among them, and its column titles are those of the table if
    they are there and to be read, the corner being none of them. -/
theorem xhtml_roundTrips {α : Type} [Element α] [Element.Faithful α] [JsonForm α] (c : Content α)
    (inclusion : Inclusion) (shown : 0 < c.rowCount ∨ c.columnCount = 0 ∨ inclusion.columnTitles) :
    xhtml.RoundTrips c inclusion ∧
    ∀ included : Inclusion, ∃ s : Snapshot α, xhtml.read (xhtml.write c inclusion) included = .ok s ∧
      s.rows = c.toRows ∧
      s.columnTitles = if inclusion.columnTitles && included.columnTitles then c.titles .column else [] := by
  have read := Xhtml.read_write c inclusion
  refine ⟨roundTrips_of_read_titled Xhtml.read (fun _ => rfl) rfl shown read, fun included => ?_⟩
  refine ⟨(c.snapshot.restrict (inclusion.withTitlesOf c)).restrict included, ?_, rfl, ?_⟩
  · show (Xhtml.read (String.ofList (Xhtml.write c inclusion)).toList).map _ = _
    rw [String.toList_ofList, read]
    rfl
  · show (if included.columnTitles then if inclusion.columnTitles then c.titles .column else [] else []) = _
    cases inclusion.columnTitles <;> cases included.columnTitles <;> rfl

/-- Markup, quotes and line ends, blanks alone, a null cell and an empty text under a header with a
    corner; numbers; and a page with all titles, of which the reader is told half. -/
theorem xhtml_roundTrips_cornered :
    xhtml.RoundTrips
      (.ofSnapshot
        { name := some "", columnTitles := [some "corner"], rowTitles := [none, some ""]
          rows := [[some "</td><th class=\"corner\"/>&amp;\r\n"], [some " ", none, some ""]] } :
        Content String)
      { columnTitles := true, rowTitles := true, name := true } ∧
    xhtml.RoundTrips (.ofRows [[some (-5), none]] : Content Int64) {} ∧
    ∃ s : Snapshot String,
      xhtml.read (xhtml.write (.ofSnapshot
          { columnTitles := [some "a"], rowTitles := [some "b"], rows := [[some "c"]] } : Content String)
        { columnTitles := true, rowTitles := true }) { columnTitles := true } = .ok s ∧
      s.rows = [[some "c"]] ∧ s.columnTitles = [some "a"] := by
  refine ⟨(xhtml_roundTrips _ _ (.inl (by decide +kernel))).1,
    (xhtml_roundTrips _ _ (.inl (by decide +kernel))).1, ?_⟩
  obtain ⟨s, read, rows, titles⟩ := (xhtml_roundTrips (.ofSnapshot
    { columnTitles := [some "a"], rowTitles := [some "b"], rows := [[some "c"]] } : Content String)
    { columnTitles := true, rowTitles := true } (.inl (by decide +kernel))).2 { columnTitles := true }
  exact ⟨s, read, rows.trans (by decide +kernel), titles.trans (by decide +kernel)⟩

end Format

end LiveTable
