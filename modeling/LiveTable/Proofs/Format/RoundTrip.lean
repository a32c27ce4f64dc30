import LiveTable.Format.Document
import LiveTable.Operation
import LiveTable.Proofs.Content.Snapshot
import LiveTable.Proofs.Element

/-! What it is for a document to bring a table back.  A format round-trips a table if its document is
    read as the snapshot that was written and any table whose content that snapshot replaces shows the
    same elements, with the titles and the name that were to be included and no others.  Reading the
    snapshot is the part of each format; that the snapshot then says all is common to them, as long as
    the document shows how many columns there are. -/

namespace LiveTable

variable {α β γ ω : Type}

/-- A content holds what a document of another one says. -/
structure Content.Restores (restored c : Content α) (inclusion : Inclusion) : Prop where
  rows : restored.toRows = c.toRows
  rowTitles : restored.titles .row =
    if inclusion.rowTitles then c.titles .row else List.replicate c.rowCount none
  columnTitles : restored.titles .column =
    if inclusion.columnTitles then c.titles .column else List.replicate c.columnCount none
  name : restored.name = if inclusion.name then c.name else none

/-- Whatever table takes over the document that a format makes of a content, it holds what that content
    held. -/
def Format.RoundTrips [Element α] [JsonForm α] (format : Format) (c : Content α) (inclusion : Inclusion) :
    Prop :=
  ∃ s : Snapshot α, format.read (format.write c inclusion) inclusion = .ok s ∧
    ∀ (ω : Type) (e : Edit α ω), ((Operation.replace (.ofSnapshot s)).run e).2.content.Restores c inclusion

/-! ### Rows of one width -/

theorem padRows_of_length {rows : List (List (Option α))} {width : Nat}
    (same : ∀ row ∈ rows, row.length = width) : padRows rows = rows := by
  rw [padRows, Snapshot.longest_of_length same]
  refine (List.map_congr_left fun row mem => ?_).trans (List.map_id _)
  rw [if_neg (List.ne_nil_of_mem mem), same row mem, Nat.sub_self, List.replicate_zero, List.append_nil, id]

namespace Content

variable {c : Content α} {inclusion : Inclusion}

/-! ### What a snapshot says -/

/-- The titles of a direction, if they are included. -/
theorem length_included (included : Bool) (axis : Axis) :
    (if included then c.titles axis else []).length = if included then c.count axis else 0 := by
  cases included <;> simp [length_titles]

/-- The rows are told whether they have titles or not. -/
theorem height_restrict (c : Content α) (inclusion : Inclusion) :
    (c.snapshot.restrict inclusion).height = c.rowCount := by
  show max c.toRows.length (if inclusion.rowTitles then c.titles .row else []).length = c.rowCount
  rw [length_toRows, length_included, rowCount]
  split <;> omega

/-- The columns are told by the rows, if there are any, and else by their titles. -/
theorem width_restrict (c : Content α) (inclusion : Inclusion) :
    (c.snapshot.restrict inclusion).width =
      if c.rowCount = 0 ∧ ¬inclusion.columnTitles then 0 else c.columnCount := by
  have empty : c.toRows = [] ↔ c.rowCount = 0 := by rw [← length_toRows, List.length_eq_zero_iff]
  show max ((c.toRows.map List.length).foldl max 0)
    (if inclusion.columnTitles then c.titles .column else []).length = _
  rw [Snapshot.longest_of_length fun row mem => length_of_mem_toRows mem, length_included, columnCount]
  simp only [empty]
  cases inclusion.columnTitles <;> by_cases flat : c.rowCount = 0 <;> simp [flat]

/-- The snapshot of a content, with what a document leaves out left out, describes all the rest of the
    content. -/
theorem grid_ofSnapshot_restrict (shown : 0 < c.rowCount ∨ c.columnCount = 0 ∨ inclusion.columnTitles) :
    (ofSnapshot (c.snapshot.restrict inclusion)).grid =
      { rows := c.toRows
        rowTitles := if inclusion.rowTitles then c.titles .row else List.replicate c.rowCount none
        columnTitles := if inclusion.columnTitles then c.titles .column
          else List.replicate c.columnCount none } := by
  let s := c.snapshot.restrict inclusion
  have height : s.height = c.rowCount := height_restrict c inclusion
  have width : s.width = c.columnCount := by
    rw [width_restrict]
    split
    · next lost =>
      rcases shown with tall | flat | header
      · exact absurd lost.1 (Nat.ne_of_gt tall)
      · exact flat.symm
      · exact absurd header lost.2
    · rfl
  have titles (included : Bool) (axis : Axis) :
      Snapshot.filled (c.count axis) (if included then c.titles axis else []) =
        if included then c.titles axis else List.replicate (c.count axis) none := by
    cases included with
    | true => exact Snapshot.filled_of_length (c.length_titles axis)
    | false => rfl
  have rows : s.rows.map (Snapshot.filled c.columnCount) = c.toRows :=
    (List.map_congr_left fun row mem => Snapshot.filled_of_length (length_of_mem_toRows mem)).trans
      (List.map_id _)
  have none_missing : c.rowCount - s.rows.length = 0 := by
    rw [show s.rows.length = c.rowCount from length_toRows c, Nat.sub_self]
  have grid : (ofSnapshot s).grid = ⟨s.padded.rows, s.padded.rowTitles, s.padded.columnTitles⟩ := by
    rw [← snapshot_ofSnapshot]
    rfl
  rw [grid, Snapshot.padded, height, width, rows, none_missing, List.replicate_zero, List.append_nil]
  exact congr (congrArg (Grid.mk c.toRows) (titles inclusion.rowTitles .row))
    (titles inclusion.columnTitles .column)

/-- A table that takes such a snapshot over holds what the content held. -/
theorem restores_replace (shown : 0 < c.rowCount ∨ c.columnCount = 0 ∨ inclusion.columnTitles)
    (e : Edit α ω) :
    (e.replace (ofSnapshot (c.snapshot.restrict inclusion))).content.Restores c inclusion := by
  obtain ⟨grid, name⟩ := e.grid_replace (ofSnapshot (c.snapshot.restrict inclusion))
  rw [grid_ofSnapshot_restrict shown] at grid
  rw [name_ofSnapshot] at name
  -- the edit itself is not to be unfolded when the parts of the grid are compared
  generalize (e.replace _).content = after at grid name ⊢
  exact ⟨congrArg Grid.rows grid, congrArg Grid.rowTitles grid, congrArg Grid.columnTitles grid, name⟩

end Content

@[simp] theorem Snapshot.restrict_restrict (s : Snapshot α) (inclusion : Inclusion) :
    (s.restrict inclusion).restrict inclusion = s.restrict inclusion := by
  simp only [Snapshot.restrict, Snapshot.mk.injEq, and_true]
  refine ⟨?_, ?_, ?_⟩ <;> split <;> rfl

/-- What a format reads of its document, if the characters of the document are read as what was to be
    included. -/
theorem Format.read_write_of_reader [Element α] [JsonForm α] {format : Format} {c : Content α}
    {inclusion included : Inclusion} {written : List Char}
    (reader : List Char → Except FormatFault (Snapshot α))
    (reads : ∀ text, format.read text inclusion = (reader text.toList).map fun s => s.restrict inclusion)
    (writes : format.write c inclusion = String.ofList written)
    (kept : (c.snapshot.restrict included).restrict inclusion = c.snapshot.restrict included)
    (read : reader written = .ok (c.snapshot.restrict included)) :
    format.read (format.write c inclusion) inclusion = .ok (c.snapshot.restrict included) := by
  rw [reads, writes, String.toList_ofList, read]
  exact congrArg Except.ok kept

/-- A format round-trips a table if the characters of its document are read as the snapshot of the table. -/
theorem Format.roundTrips_of_read [Element α] [JsonForm α] {format : Format} {c : Content α}
    {inclusion : Inclusion} {written : List Char} (reader : List Char → Except FormatFault (Snapshot α))
    (reads : ∀ text, format.read text inclusion = (reader text.toList).map fun s => s.restrict inclusion)
    (writes : format.write c inclusion = String.ofList written)
    (shown : 0 < c.rowCount ∨ c.columnCount = 0 ∨ inclusion.columnTitles)
    (read : reader written = .ok (c.snapshot.restrict inclusion)) : format.RoundTrips c inclusion :=
  ⟨c.snapshot.restrict inclusion,
    read_write_of_reader reader reads writes (Snapshot.restrict_restrict c.snapshot inclusion) read,
    fun _ e => Content.restores_replace shown e⟩

/-! ### Row titles that are only told of if there are any -/

/-- Stripes of which none has a title. -/
theorem Stripes.titles_of_not_anyTitled {ss : Stripes} (untitled : ¬ss.anyTitled) :
    ss.titles = List.replicate ss.size none := by
  refine List.eq_replicate_iff.mpr ⟨Stripes.length_titles ss, fun title mem => ?_⟩
  obtain ⟨s, listed, rfl⟩ := List.mem_map.mp mem
  by_contra titled
  refine untitled (Array.any_eq_true'.mpr ⟨s, Array.mem_toList_iff.mp listed, ?_⟩)
  exact Option.isSome_iff_ne_none.mpr titled

theorem Stripes.any_isSome_titles (ss : Stripes) : ss.titles.any Option.isSome = ss.anyTitled := by
  rw [titles, List.any_map, anyTitled, ← Array.any_toList]
  rfl

/-- What is included of a content, row titles only if it has any. -/
def Inclusion.withTitlesOf (inclusion : Inclusion) (c : Content α) : Inclusion :=
  { inclusion with rowTitles := inclusion.rowTitles && c.rows.anyTitled }

theorem Content.restrict_withTitlesOf (c : Content α) (inclusion : Inclusion) :
    (c.snapshot.restrict (inclusion.withTitlesOf c)).restrict inclusion =
      c.snapshot.restrict (inclusion.withTitlesOf c) := by
  simp only [Snapshot.restrict, Inclusion.withTitlesOf, Snapshot.mk.injEq, and_true]
  refine ⟨?_, ?_, ?_⟩ <;> grind

/-- Row titles that are left out because they are all null are there all the same. -/
theorem Content.Restores.of_withTitlesOf {c restored : Content α} {inclusion : Inclusion}
    (restores : restored.Restores c (inclusion.withTitlesOf c)) : restored.Restores c inclusion := by
  refine ⟨restores.rows, restores.rowTitles.trans ?_, restores.columnTitles, restores.name⟩
  by_cases titled : c.rows.anyTitled
  · simp [Inclusion.withTitlesOf, titled]
  · have untitled : c.titles .row = List.replicate c.rowCount none := Stripes.titles_of_not_anyTitled titled
    simp [Inclusion.withTitlesOf, untitled]

/-- A format round-trips a table also if its document is read as the snapshot without row titles when all
    are null. -/
theorem Format.roundTrips_of_read_titled [Element α] [JsonForm α] {format : Format} {c : Content α}
    {inclusion : Inclusion} {written : List Char} (reader : List Char → Except FormatFault (Snapshot α))
    (reads : ∀ text, format.read text inclusion = (reader text.toList).map fun s => s.restrict inclusion)
    (writes : format.write c inclusion = String.ofList written)
    (shown : 0 < c.rowCount ∨ c.columnCount = 0 ∨ inclusion.columnTitles)
    (read : reader written = .ok (c.snapshot.restrict (inclusion.withTitlesOf c))) :
    format.RoundTrips c inclusion := by
  have headed : 0 < c.rowCount ∨ c.columnCount = 0 ∨ (inclusion.withTitlesOf c).columnTitles := shown
  exact ⟨_, read_write_of_reader reader reads writes (c.restrict_withTitlesOf inclusion) read,
    fun _ e => (Content.restores_replace headed e).of_withTitlesOf⟩

/-! ### Reading member by member -/

theorem mapM_map_eq_ok {ε δ : Type} {f : γ → Except ε δ} {written : β → γ} {g : β → δ} :
    ∀ {l : List β}, (∀ b ∈ l, f (written b) = .ok (g b)) → (l.map written).mapM f = .ok (l.map g)
  | [], _ => rfl
  | b :: rest, reads => by
    have later := mapM_map_eq_ok fun b' mem => reads b' (List.mem_cons_of_mem b mem)
    rw [List.map_cons, List.mapM_cons, reads b List.mem_cons_self, later]
    rfl

/-- A cell is read from its written form. -/
theorem readCell_cellText? [Element α] [Element.Faithful α] (c : Content α) (row column : Nat) :
    readCell (cellText? c row column) = .ok (c.element row column) := by
  rw [cellText?]
  cases c.element row column with
  | none => rfl
  | some a =>
    show readCell (some (Element.text a).toList) = _
    rw [readCell, String.ofList_toList, Element.Faithful.ofText_text]

/-- The cells of a content are read from their written forms. -/
def Content.Legible [Element α] (c : Content α) : Prop :=
  ∀ row column, readCell (cellText? c row column) = .ok (c.element row column)

theorem Content.legible [Element α] [Element.Faithful α] (c : Content α) : c.Legible :=
  readCell_cellText? c

/-- Where there are no cells there is nothing to read. -/
theorem Content.legible_of_no_cells [Element α] {c : Content α} (empty : c.rowCount = 0 ∨ c.columnCount = 0) :
    c.Legible := by
  intro row column
  have none : c.element row column = none := by
    rw [element_eq, ← toRows_eq]
    rcases empty with rows | columns
    · rw [List.eq_nil_of_length_eq_zero ((length_toRows c).trans rows)]
      rfl
    · cases at_row : c.toRows[row]? with
      | none => rfl
      | some cells =>
        have narrow : cells.length = 0 := (length_of_mem_toRows (List.mem_of_getElem? at_row)).trans columns
        rw [List.eq_nil_of_length_eq_zero narrow]
        rfl
  rw [cellText?, none]
  rfl

/-- The written forms of the rows are read as the rows. -/
theorem mapM_readCell [Element α] {c : Content α} (legible : c.Legible) (row : Nat) :
    ((List.range c.columnCount).map (cellText? c row)).mapM readCell =
      .ok ((List.range c.columnCount).map (c.element row)) :=
  mapM_map_eq_ok fun column _ => legible row column

theorem ofText?_map_toList (text : Option String) : ofText? (text.map String.toList) = text := by
  cases text with
  | none => rfl
  | some text => exact congrArg some String.ofList_toList

/-- The titles of a direction are read from their written forms. -/
theorem map_ofText?_titleText? (c : Content α) (axis : Axis) :
    ((List.range (c.count axis)).map (titleText? c axis)).map ofText? = c.titles axis := by
  rw [Content.titles_eq_map, List.map_map]
  exact List.map_congr_left fun position _ => ofText?_map_toList (c.title axis position)

/-- Written titles of rows are all null if none of the rows has a title. -/
theorem any_isSome_titleText? (c : Content α) :
    ((List.range c.rowCount).map (titleText? c .row)).any Option.isSome = c.rows.anyTitled := by
  have titles : c.rows.titles = (List.range c.rowCount).map (c.title .row) := Content.titles_eq_map c .row
  rw [← Stripes.any_isSome_titles, titles, List.any_map, List.any_map]
  exact congrArg (List.any _) (funext fun row => Option.isSome_map)

/-- Row titles that are told of by each row, null or not, and count if there are any. -/
theorem rowTitles_of_titleText? (c : Content α) (inclusion : Inclusion) :
    let titles :=
  (List.range c.rowCount).map fun row => if inclusion.rowTitles then titleText? c .row row else none
    (if titles.any Option.isSome then titles.map ofText? else []) =
      (c.snapshot.restrict (inclusion.withTitlesOf c)).rowTitles := by
  intro titles
  have restricted : (c.snapshot.restrict (inclusion.withTitlesOf c)).rowTitles =
      if inclusion.rowTitles && c.rows.anyTitled then c.titles .row else [] := rfl
  rw [restricted]
  cases included : inclusion.rowTitles with
  | false => simp [titles, included]
  | true =>
    have written : titles = (List.range (c.count .row)).map (titleText? c .row) := by
      simp only [titles, included, if_true]
      rfl
    have some_title : titles.any Option.isSome = c.rows.anyTitled := written ▸ any_isSome_titleText? c
    rw [some_title, written, map_ofText?_titleText?, Bool.true_and]

/-- The name is read from its written form. -/
theorem ofText?_name (c : Content α) (inclusion : Inclusion) :
    ofText? (if inclusion.name then c.name.map String.toList else none) =
      (c.snapshot.restrict (inclusion.withTitlesOf c)).name := by
  show _ = if inclusion.name then c.name else none
  cases inclusion.name with
  | false => rfl
  | true => exact ofText?_map_toList c.name

/-- The rows of a content are all of one width already. -/
theorem Content.padRows_toRows (c : Content α) : padRows c.toRows = c.toRows :=
  padRows_of_length fun _ mem => length_of_mem_toRows mem

end LiveTable
