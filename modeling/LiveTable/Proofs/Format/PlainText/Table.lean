import LiveTable.Proofs.Format.PlainText.Token
import LiveTable.Proofs.Format.RoundTrip

/-! Plain text round-trips.  The writer lays a table out in lines of one make each: the name between
    equals signs, the titles closed by bangs, the rows closed by bars, and a rule.  Every line is read
    back by itself, whatever the widths that its tokens were filled up to; the lines are told apart by
    their order and, at the rule, by how they begin. -/

namespace LiveTable

namespace PlainText

variable {mark : Char} {line titleWidth : Nat} {widths : List Nat} {values : List (Option (List Char))}
  {inclusion : Inclusion}

/-! ### Tokens of a line -/

/-- Written values, each filled up to its width. -/
def filled (widths : List Nat) (values : List (Option (List Char))) : List (List Char) :=
  List.zipWith (fun t w => pad w t) (values.map token) widths

theorem closeAll_eq (mark : Char) (widths : List Nat) (values : List (Option (List Char))) :
    closeAll mark widths (values.map token) = (filled widths values).flatMap (· ++ [mark]) := by
  rw [closeAll, filled, List.flatMap_def, List.map_zipWith]

theorem framed_filled :
    ∀ {values : List (Option (List Char))} {widths : List Nat}, ∀ t ∈ filled widths values, Framed t
  | [], _, _, mem => by simp [filled] at mem
  | _ :: _, [], _, mem => by simp [filled] at mem
  | value :: values, width :: widths, t, mem => by
    rcases List.mem_cons.mp (show t ∈ pad width (token value) :: filled widths values from mem) with rfl | mem
    · exact framed_pad width (framed_token value)
    · exact framed_filled t mem

theorem mapM_readToken_filled (line : Nat) : ∀ {values : List (Option (List Char))} {widths : List Nat},
    values.length ≤ widths.length → (filled widths values).mapM (readToken line) = .ok values
  | [], _, _ => rfl
  | _ :: _, [], enough => by simp at enough
  | value :: values, width :: widths, enough => by
    have later := mapM_readToken_filled line (Nat.le_of_succ_le_succ enough)
    show (pad width (token value) :: filled widths values).mapM (readToken line) = _
    rw [List.mapM_cons, readToken_pad, later]
    rfl

/-! ### Lines -/

/-- The line of the column titles. -/
def headerLine (inclusion : Inclusion) (titleWidth : Nat) (widths : List Nat)
    (titles : List (Option (List Char))) : List Char :=
  '!' :: (if inclusion.rowTitles then pad titleWidth [] ++ ['!'] else []) ++
    closeAll '!' widths (titles.map token)

/-- The line of a row. -/
def rowLine (inclusion : Inclusion) (titleWidth : Nat) (widths : List Nat) (title : Option (List Char))
    (values : List (Option (List Char))) : List Char :=
  (if inclusion.rowTitles then '!' :: pad titleWidth (token title) ++ ['!'] else ['|']) ++
    closeAll '|' widths (values.map token)

/-- The titles are read from their line, without the corner that stands over the row titles. -/
theorem readHeader_headerLine (line : Nat) (enough : values.length ≤ widths.length) :
    readHeader inclusion line (headerLine inclusion titleWidth widths values) = .ok values := by
  rw [headerLine, closeAll_eq]
  cases titled : inclusion.rowTitles with
  | false =>
    show (tokens '!' line ((filled widths values).flatMap (· ++ ['!'])) >>= _) = _
    rw [tokens_flatMap (by decide) line framed_filled]
    show List.mapM _ (if inclusion.rowTitles then _ else _) = _
    rw [titled]
    exact mapM_readToken_filled line enough
  | true =>
    have framed : ∀ t ∈ pad titleWidth [] :: filled widths values, Framed t := by
      intro t mem
      rcases List.mem_cons.mp mem with rfl | mem
      · exact framed_pad titleWidth .nil
      · exact framed_filled t mem
    show (tokens '!' line ((pad titleWidth [] :: filled widths values).flatMap (· ++ ['!'])) >>= _) = _
    rw [tokens_flatMap (by decide) line framed]
    show List.mapM _ (if inclusion.rowTitles then _ else _) = _
    rw [titled]
    exact mapM_readToken_filled line enough

theorem splitRow_rowLine (line : Nat) (title : Option (List Char)) :
    splitRow inclusion line (rowLine inclusion titleWidth widths title values) =
      .ok (if inclusion.rowTitles then title else none, (filled widths values).flatMap (· ++ ['|'])) := by
  rw [rowLine, closeAll_eq, splitRow.eq_def]
  cases titled : inclusion.rowTitles with
  | false => rfl
  | true =>
    let cells := (filled widths values).flatMap (· ++ ['|'])
    have split : splitFirst? '!' (pad titleWidth (token title) ++ '!' :: cells) =
        some (pad titleWidth (token title), cells) :=
      (framed_pad titleWidth (framed_token title)).splitFirst? (by decide)
    have behind :
        pad titleWidth (token title) ++ ['!'] ++ cells = pad titleWidth (token title) ++ '!' :: cells := by
      rw [List.append_assoc, List.singleton_append]
    simp only [if_true, List.cons_append]
    rw [behind, split]
    show (readToken line (pad titleWidth (token title))).map _ = _
    rw [readToken_pad]
    rfl

theorem length_columnWidths {n : Nat} {rows : List (List (List Char))} {least : List Nat}
    (length : least.length = n)
    (same : ∀ row ∈ rows, row.length = n) : (columnWidths least rows).length = n := by
  rw [columnWidths]
  induction rows generalizing least with
  | nil => exact length
  | cons row rows ih =>
    refine ih ?_ fun r mem => same r (List.mem_cons_of_mem row mem)
    rw [List.length_zipWith, length, same row List.mem_cons_self, Nat.min_self]

section Table

variable {α : Type} [Element α]

/-- A row is read from its line. -/
theorem readRow_rowLine {c : Content α} (legible : c.Legible) (line row : Nat)
    (enough : c.columnCount ≤ widths.length) :
    readRow inclusion line (rowLine inclusion titleWidth widths (titleText? c .row row)
        ((List.range c.columnCount).map (cellText? c row))) =
      .ok (if inclusion.rowTitles then titleText? c .row row else none,
        (List.range c.columnCount).map (c.element row)) := by
  have inside : ((List.range c.columnCount).map (cellText? c row)).length ≤ widths.length := by
    simpa using enough
  rw [readRow, splitRow_rowLine]
  show (tokens '|' line _ >>= _) = _
  rw [tokens_flatMap (by decide) line framed_filled]
  show (List.mapM (readToken line) _ >>= _) = _
  rw [mapM_readToken_filled line inside]
  show (List.mapM readCell _ >>= _) = _
  rw [mapM_readCell legible]
  rfl

/-- The line of a row does not begin like the closing rule. -/
theorem head?_rowLine (title : Option (List Char)) :
    (rowLine inclusion titleWidth widths title values).head? ≠ some '-' := by
  rw [rowLine]
  cases inclusion.rowTitles <;> simp

/-- Rows are read up to the rule. -/
theorem readRows_rowLines {c : Content α} (legible : c.Legible) (enough : c.columnCount ≤ widths.length)
    {rule : List Char} (ruled : rule.head? = some '-') (line : Nat) (rows : List Nat) :
    readRows inclusion line (rows.map (fun row => rowLine inclusion titleWidth widths (titleText? c .row row)
        ((List.range c.columnCount).map (cellText? c row))) ++ [rule]) =
      .ok (rows.map fun row => (if inclusion.rowTitles then titleText? c .row row else none,
        (List.range c.columnCount).map (c.element row))) := by
  induction rows generalizing line with
  | nil =>
    rw [List.map_nil, List.nil_append, readRows, if_pos ruled]
    rfl
  | cons row rows ih =>
    rw [List.map_cons, List.cons_append, readRows, if_neg (head?_rowLine _),
      readRow_rowLine legible line row enough]
    show (readRows inclusion (line + 1) _ >>= _) = _
    rw [ih]
    rfl

/-- The width of the row titles. -/
def titleWidthOf (c : Content α) : Nat :=
  maxWidth ((List.range c.rowCount).map fun row => token (titleText? c .row row))

/-- The widths of the columns, wide enough for their titles if these are included. -/
def widthsOf (c : Content α) (inclusion : Inclusion) : List Nat :=
  columnWidths
    (if inclusion.columnTitles then
      ((List.range c.columnCount).map fun column => token (titleText? c .column column)).map List.length
    else (List.range c.columnCount).map fun _ => 0)
    ((List.range c.rowCount).map fun row => (List.range c.columnCount).map fun column =>
      token (cellText? c row column))

theorem length_widthsOf (c : Content α) (inclusion : Inclusion) :
    (widthsOf c inclusion).length = c.columnCount := by
  refine length_columnWidths ?_ fun row mem => ?_
  · cases inclusion.columnTitles <;> simp
  · obtain ⟨_, -, rfl⟩ := List.mem_map.mp mem
    rw [List.length_map, List.length_range]

/-- A table is a header, if it is included, and a line for each row, filled up to the same widths. -/
theorem bodyLines_eq (c : Content α) (inclusion : Inclusion) :
    bodyLines c inclusion =
      (if inclusion.columnTitles then
        [headerLine inclusion (titleWidthOf c) (widthsOf c inclusion)
          ((List.range c.columnCount).map (titleText? c .column))] else []) ++
      (List.range c.rowCount).map fun row => rowLine inclusion (titleWidthOf c) (widthsOf c inclusion)
        (titleText? c .row row) ((List.range c.columnCount).map (cellText? c row)) := by
  simp only [bodyLines, headerLine, rowLine, titleWidthOf, widthsOf, List.map_map, List.zipWith_map,
    List.zipWith_self]
  rfl

/-! ### Documents -/

theorem takeLine_append {β : Type} (included : Bool) (what : String) (absent : β)
    {reader : Nat → List Char → Except FormatFault β} {text : List Char} {b : β} (line : Nat)
    (ls : List (List Char)) (read : included → reader line text = .ok b) :
    takeLine included what absent reader line ((if included then [text] else []) ++ ls) =
      .ok (if included then b else absent, if included then line + 1 else line, ls) := by
  cases included with
  | false => rfl
  | true =>
    show (reader line text).map _ = _
    rw [read rfl]
    rfl

theorem unbroken_closeAll {mark : Char} (frame : mark ∈ ['|', '!']) (widths : List Nat)
    (values : List (Option (List Char))) : Unbroken (closeAll mark widths (values.map token)) := by
  rw [closeAll_eq]
  intro c mem
  obtain ⟨t, filled, mem⟩ := List.mem_flatMap.mp mem
  rcases List.mem_append.mp mem with inside | closing
  · exact (framed_filled t filled).unbroken c inside
  · rw [List.mem_singleton.mp closing]
    rcases List.mem_pair.mp frame with rfl | rfl <;> decide

/-- A framed text between bangs, such as a row title. -/
theorem unbroken_banged {t : List Char} (framed : Framed t) : Unbroken ('!' :: t ++ ['!']) := by
  rw [unbroken_append]
  exact ⟨List.forall_mem_cons.mpr ⟨by decide, framed.unbroken⟩, unbroken_replicate 1 (by decide)⟩

theorem unbroken_headerLine (titles : List (Option (List Char))) :
    Unbroken (headerLine inclusion titleWidth widths titles) := by
  rw [headerLine, unbroken_append]
  refine ⟨?_, unbroken_closeAll (by decide) widths titles⟩
  cases inclusion.rowTitles with
  | false => exact unbroken_replicate 1 (by decide)
  | true => exact unbroken_banged (framed_pad titleWidth .nil)

theorem unbroken_rowLine (title : Option (List Char)) (values : List (Option (List Char))) :
    Unbroken (rowLine inclusion titleWidth widths title values) := by
  rw [rowLine, unbroken_append]
  refine ⟨?_, unbroken_closeAll (by decide) widths values⟩
  cases inclusion.rowTitles with
  | false => exact unbroken_replicate 1 (by decide)
  | true => exact unbroken_banged (framed_pad titleWidth (framed_token title))

theorem unbroken_bodyLines (c : Content α) (inclusion : Inclusion) :
    ∀ l ∈ bodyLines c inclusion, Unbroken l := by
  rw [bodyLines_eq]
  intro l mem
  rcases List.mem_append.mp mem with header | row
  · split at header
    · rw [List.mem_singleton.mp header]
      exact unbroken_headerLine _
    · exact absurd header List.not_mem_nil
  · obtain ⟨row, -, rfl⟩ := List.mem_map.mp row
    exact unbroken_rowLine _ _

/-- The lines of a document are those that were written, the name in a line that is long enough to frame
    it. -/
theorem exists_lines_write (c : Content α) (inclusion : Inclusion) :
    ∃ total, 2 ≤ total ∧ (inclusion.name → (token (c.name.map String.toList)).length + 2 ≤ total) ∧
      lines [] (write c inclusion) =
        (if inclusion.name then [frameName total (token (c.name.map String.toList))] else []) ++
          (bodyLines c inclusion ++ [List.replicate total '-']) := by
  let name := token (c.name.map String.toList)
  let total := max (max (maxWidth (bodyLines c inclusion)) (if inclusion.name then name.length + 2 else 0)) 2
  refine ⟨total, Nat.le_max_right .., fun included => ?_, ?_⟩
  · show name.length + 2 ≤ total
    simp only [total, if_pos included]
    omega
  · rw [write, ← List.append_assoc]
    refine lines_flatMap fun l mem => ?_
    rcases List.mem_append.mp mem with above | rule
    · rcases List.mem_append.mp above with named | body
      · split at named
        · rw [List.mem_singleton.mp named]
          exact unbroken_frameName _ _
        · exact absurd named List.not_mem_nil
      · exact unbroken_bodyLines c inclusion l body
    · rw [List.mem_singleton.mp rule]
      exact unbroken_replicate _ (by decide)

/-- The document of a table is read as the snapshot of the table, if the cells of the table are read. -/
theorem read_write_of_legible {c : Content α} (legible : c.Legible) (inclusion : Inclusion) :
    read (write c inclusion) inclusion = .ok (c.snapshot.restrict inclusion) := by
  obtain ⟨total, two, room, split⟩ := exists_lines_write c inclusion
  have ruled : (List.replicate total '-').head? = some '-' := by
    obtain ⟨n, rfl⟩ := Nat.exists_eq_add_of_le' two
    rfl
  have enough :
      ((List.range c.columnCount).map (titleText? c .column)).length ≤ (widthsOf c inclusion).length := by
    simp [length_widthsOf]
  rw [read, split, bodyLines_eq, List.append_assoc,
    takeLine_append _ _ _ _ _ fun included => readName_frameName 1 total _ (room included)]
  show (takeLine _ _ _ (readHeader inclusion) _ (_ ++ _) >>= _) = _
  rw [takeLine_append _ _ _ _ _ fun _ => readHeader_headerLine _ enough]
  show (readRows inclusion _ _ >>= _) = _
  rw [readRows_rowLines legible (Nat.le_of_eq (length_widthsOf c inclusion).symm) ruled]
  refine congrArg Except.ok ?_
  simp only [Snapshot.restrict, Content.snapshot, Snapshot.mk.injEq]
  refine ⟨?_, ?_, ?_, ?_⟩
  · cases inclusion.name
    · rfl
    · exact ofText?_map_toList c.name
  · cases inclusion.columnTitles
    · rfl
    · exact map_ofText?_titleText? c .column
  · cases inclusion.rowTitles
    · rfl
    · rw [if_pos rfl, if_pos rfl, ← map_ofText?_titleText?, List.map_map, List.map_map]
      rfl
  · rw [List.map_map, ← c.padRows_toRows]
    exact congrArg padRows (Content.toRows_eq_map c).symm

theorem read_write [Element.Faithful α] (c : Content α) (inclusion : Inclusion) :
    read (write c inclusion) inclusion = .ok (c.snapshot.restrict inclusion) :=
  read_write_of_legible c.legible inclusion

/-! ### Display -/

/-- The kinds of titles that a table has, and its name if it has one. -/
def carried (c : Content α) (delimiter : Char) : Inclusion where
  columnTitles := c.columns.anyTitled
  rowTitles := c.rows.anyTitled
  name := c.name.isSome
  delimiter := delimiter

theorem display_eq (c : Content α) (delimiter : Char) : display c = write c (carried c delimiter) := rfl

/-- A content that holds what a document of all that another one carries says is the same as that one. -/
theorem same_of_restores_carried {c restored : Content α} {delimiter : Char}
    (restores : restored.Restores c (carried c delimiter)) : restored.same c = true := by
  refine Content.same_of_eq restores.rows (fun axis => ?_) ?_
  · cases axis with
    | row =>
      by_cases titled : c.rows.anyTitled
      · exact restores.rowTitles.trans (if_pos titled)
      · exact restores.rowTitles.trans ((if_neg titled).trans (Stripes.titles_of_not_anyTitled titled).symm)
    | column =>
      by_cases titled : c.columns.anyTitled
      · exact restores.columnTitles.trans (if_pos titled)
      · exact restores.columnTitles.trans
          ((if_neg titled).trans (Stripes.titles_of_not_anyTitled titled).symm)
  · refine restores.name.trans ?_
    cases named : c.name <;> simp [carried, named]

end Table

end PlainText

namespace Format

variable {α : Type} [Element α] [Element.Faithful α] [JsonForm α] {c : Content α} {inclusion : Inclusion}

theorem roundTrips_plainText (shown : 0 < c.rowCount ∨ c.columnCount = 0 ∨ inclusion.columnTitles) :
    plainText.RoundTrips c inclusion :=
  roundTrips_of_read (fun text => PlainText.read text inclusion) (fun _ => rfl) rfl shown
    (PlainText.read_write c inclusion)

/-- A table round-trips through plain text if it has rows or no columns or its column titles are
    included, whatever its elements, titles and name hold.  So does what is displayed of it: read as
    having what the table carries, that gives back a table that is the same in elements, titles and
    name. -/
theorem plainText_roundTrips (c : Content α) :
    (∀ inclusion : Inclusion, 0 < c.rowCount ∨ c.columnCount = 0 ∨ inclusion.columnTitles →
      plainText.RoundTrips c inclusion) ∧
    ∀ delimiter : Char, 0 < c.rowCount ∨ c.columnCount = 0 ∨ c.columns.anyTitled →
      ∃ s : Snapshot α,
        plainText.read (String.ofList (PlainText.display c)) (PlainText.carried c delimiter) = .ok s ∧
          ∀ (ω : Type) (e : Edit α ω), ((Operation.replace (.ofSnapshot s)).run e).2.content.same c =
            true := by
  refine ⟨fun inclusion shown => roundTrips_plainText shown, fun delimiter shown => ?_⟩
  have displayed : plainText.RoundTrips c (PlainText.carried c delimiter) := roundTrips_plainText shown
  obtain ⟨s, read, restores⟩ := displayed
  rw [PlainText.display_eq c delimiter]
  exact ⟨s, read, fun ω e => PlainText.same_of_restores_carried (restores ω e)⟩

/-- A table with a name, titles in both directions and marks of the frame in all of them. -/
def PlainText.framed : Content String :=
  .ofSnapshot ⟨some "a = b", [some "size|", none], [some "!r"], [[some "a|=\n ", none]]⟩

/-- Marks of the frame, a blank at the end, a null cell and an empty text; a number and a null cell in
    one column; and a table as it is displayed, with its name and its titles. -/
theorem plainText_roundTrips_marked :
    plainText.RoundTrips (.ofRows [[some "a|=\n ", none, some ""]] : Content String) { rowTitles := true } ∧
    plainText.RoundTrips (.ofRows [[some (-5)], [none]] : Content Int64) { name := true } ∧
    PlainText.carried PlainText.framed ',' = { columnTitles := true, rowTitles := true, name := true } ∧
    ∃ s : Snapshot String,
      plainText.read (String.ofList (PlainText.display PlainText.framed))
        (PlainText.carried PlainText.framed ',') =
          .ok s ∧
        ∀ (ω : Type) (e : Edit String ω),
          ((Operation.replace (.ofSnapshot s)).run e).2.content.same PlainText.framed = true :=
  ⟨(plainText_roundTrips _).1 _ (.inl (by decide +kernel)),
    (plainText_roundTrips _).1 _ (.inl (by decide +kernel)), by decide +kernel,
      (plainText_roundTrips _).2 _ (.inl (by decide +kernel))⟩

end Format

end LiveTable
