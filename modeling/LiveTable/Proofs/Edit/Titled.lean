import LiveTable.Proofs.Edit.Growth
import LiveTable.Proofs.Grid.Refinement

/-! Writes that name their cell by titles.  Each coordinate of a write is a position or a title.  A title
    names the first stripe that has it, and a title that none has gets a stripe of its own behind the
    last one; only then is the table grown to the positions that are still missing, and the cell written.
    The look-up of a later reader goes the same way, so it finds what was written, and whatever was there
    before is found where it was. -/

namespace LiveTable

variable {α ω : Type}

/-- How one coordinate of a cell is named. -/
inductive Coordinate where
  | position (p : Nat)
  | titled (title : String)
  deriving DecidableEq

namespace Coordinate

/-- The position that a coordinate names; a title that no stripe has names none. -/
def find? (c : Content α) (axis : Axis) : Coordinate → Option Nat
  | position p => some p
  | titled title => (c.stripes axis).positionOfTitle title

/-- The position that a write to a coordinate goes to: that of a new title is the one behind the last
    stripe. -/
def target (c : Content α) (axis : Axis) (k : Coordinate) : Nat := (k.find? c axis).getD (c.count axis)

/-- The titles of the stripes that a write to a coordinate appends: one for a new title, and untitled
    ones up to a position. -/
def appended (c : Content α) (axis : Axis) : Coordinate → List (Option String)
  | position p => List.replicate (p + 1 - c.count axis) none
  | titled title => c.lacking axis title

end Coordinate

/-- The write of a cell whose row and column are named in the given ways. -/
def Operation.write (named : Axis → Coordinate) (element : Option α) : Operation α :=
  match named .row, named .column with
  | .position row, .position column => .setElement row column element
  | .position row, .titled columnTitle => .setElementByColumnTitle row columnTitle element
  | .titled rowTitle, .position column => .setElementByRowTitle rowTitle column element
  | .titled rowTitle, .titled columnTitle => .setElementAt rowTitle columnTitle element

namespace Content

/-- The element of a cell whose row and column are named in the given ways. -/
def read (c : Content α) (named : Axis → Coordinate) : Option α :=
  match named .row, named .column with
  | .position row, .position column => c.element row column
  | .position row, .titled columnTitle => c.elementByColumnTitle row columnTitle
  | .titled rowTitle, .position column =>
    (c.rows.positionOfTitle rowTitle).bind fun row => c.element row column
  | .titled rowTitle, .titled columnTitle => c.elementAt rowTitle columnTitle

/-- The content once a title names a stripe of it; a position is left for later. -/
def withTitle (c : Content α) (axis : Axis) : Coordinate → Content α
  | .position _ => c
  | .titled title => (c.growToTitle axis title).2.2

/-- The content that a write finds when it comes to its cell: first the titles have their stripes, then
    the table is large enough. -/
def ready (c : Content α) (named : Axis → Coordinate) : Content α :=
  ((c.withTitle .row (named .row)).withTitle .column (named .column)).growTo ((named .row).target c .row + 1)
    ((named .column).target c .column + 1)

variable {c c' : Content α} {axis : Axis} {named : Axis → Coordinate}

theorem read_eq (c : Content α) (named : Axis → Coordinate) :
    c.read named = ((named .row).find? c .row).bind fun row =>
      ((named .column).find? c .column).bind fun column => c.element row column := by
  rw [read]
  cases named .row <;> cases named .column <;> rfl

/-- A coordinate that names no position reads as null, like the position that a write would append. -/
theorem read_eq_element (c : Content α) (named : Axis → Coordinate) :
    c.read named = c.element ((named .row).target c .row) ((named .column).target c .column) := by
  rw [read_eq, Coordinate.target, Coordinate.target]
  cases (named .row).find? c .row with
  | none => exact (element_of_le (.inl (Nat.le_refl _))).symm
  | some row =>
    cases (named .column).find? c .column with
    | none => exact (element_of_le (.inr (Nat.le_refl _))).symm
    | some column => rfl

theorem target_lt_rowCount : (named .row).target c .row < (c.ready named).rowCount := by
  rw [ready, rowCount_growTo]
  omega

theorem target_lt_columnCount : (named .column).target c .column < (c.ready named).columnCount := by
  rw [ready, columnCount_growTo]
  omega

end Content

namespace Coordinate

variable {c c' : Content α} {axis : Axis} {k : Coordinate}

/-- Where a coordinate is depends on the titles of its own direction only. -/
theorem find?_congr (same : c'.titles axis = c.titles axis) : k.find? c' axis = k.find? c axis := by
  have titles : (c'.stripes axis).titles = (c.stripes axis).titles := same
  cases k with
  | position p => rfl
  | titled title => rw [find?, find?, Stripes.positionOfTitle_eq, Stripes.positionOfTitle_eq, titles]

theorem target_congr (same : c'.titles axis = c.titles axis) : k.target c' axis = k.target c axis := by
  rw [target, find?_congr same, Content.count_congr same, target]

theorem appended_congr (same : c'.titles axis = c.titles axis) : k.appended c' axis = k.appended c axis := by
  cases k with
  | position p => rw [appended, Content.count_congr same, appended]
  | titled title =>
    have found : (c'.stripes axis).positionOfTitle title = (c.stripes axis).positionOfTitle title :=
      find?_congr (k := .titled title) same
    rw [appended, Content.lacking, found, appended, Content.lacking]

end Coordinate

namespace Content

variable {c c' : Content α} {axis : Axis} {named : Axis → Coordinate}

/-- Making the stripe of a title appends a part of what a write to the coordinate appends; the rest is
    untitled. -/
theorem Valid.grows_withTitle (h : c.Valid) (axis : Axis) (k : Coordinate) :
    ∃ titles, c.Grows (axis.only titles) (c.withTitle axis k) ∧
      titles ++ List.replicate (k.target c axis + 1 - (c.count axis + titles.length)) none =
        k.appended c axis := by
  cases k with
  | position p => exact ⟨[], (Grows.refl h).congr fun b => (ite_self _).symm, rfl⟩
  | titled title =>
    obtain ⟨-, grows, -⟩ := h.grows_growToTitle axis title
    refine ⟨c.lacking axis title, grows, ?_⟩
    have enough :
        Coordinate.target c axis (.titled title) + 1 - (c.count axis + (c.lacking axis title).length) =
          0 := by
      rw [Coordinate.target, Coordinate.find?, lacking]
      cases known : (c.stripes axis).positionOfTitle title with
      | some p =>
        have inside : p < c.count axis := Stripes.positionOfTitle_lt known
        simp
        omega
      | none => simp
    rw [enough, List.replicate_zero, List.append_nil, Coordinate.appended]

/-- Making the stripe of a title leaves the titles of the other direction alone. -/
theorem Valid.titles_withTitle_cross (h : c.Valid) (axis : Axis) (k : Coordinate) :
    (c.withTitle axis k).titles axis.cross = c.titles axis.cross := by
  obtain ⟨titles, grows, -⟩ := h.grows_withTitle axis k
  rw [grows.titles, Axis.only_cross, List.append_nil]

/-- A write appends what its two coordinates need. -/
theorem Valid.grows_ready (h : c.Valid) (named : Axis → Coordinate) :
    c.Grows (fun axis => (named axis).appended c axis) (c.ready named) := by
  obtain ⟨rowTitles, tall, rows⟩ := h.grows_withTitle .row (named .row)
  obtain ⟨columnTitles, wide, columns⟩ := tall.valid.grows_withTitle .column (named .column)
  have same : (c.withTitle .row (named .row)).titles .column = c.titles .column :=
    h.titles_withTitle_cross .row _
  have titled := tall.trans wide
  have rowCount := titled.count .row
  have columnCount := titled.count .column
  rw [Coordinate.target_congr same, Coordinate.appended_congr same, Content.count_congr same] at columns
  refine (titled.trans (titled.valid.grows_growTo _ _)).congr fun axis => ?_
  cases axis with
  | row =>
    rw [← rows]
    simp [Axis.pick, Axis.only, Content.rowCount, rowCount]
  | column =>
    rw [← columns]
    simp [Axis.pick, Axis.only, Content.columnCount, columnCount]

/-- After what a write to a coordinate appends, the coordinate names the position that is written. -/
theorem Grows.find?_target (h : c.Grows (fun axis => (named axis).appended c axis) c') (axis : Axis) :
    (named axis).find? c' axis = some ((named axis).target c axis) := by
  have found := fun title => h.positionOfTitle axis title
  rw [Coordinate.target]
  cases k : named axis with
  | position p => rfl
  | titled title =>
    rw [Coordinate.find?, found, k, Coordinate.appended, lacking, Coordinate.find?]
    cases known : (c.stripes axis).positionOfTitle title with
    | some p => simp
    | none => simp [List.idxOf?]

/-- No other title is found elsewhere than before. -/
theorem Grows.positionOfTitle_of_ne (h : c.Grows (fun axis => (named axis).appended c axis) c')
    {title : String} (other : named axis ≠ .titled title) :
    (c'.stripes axis).positionOfTitle title = (c.stripes axis).positionOfTitle title := by
  have absent : some title ∉ (named axis).appended c axis := by
    cases k : named axis with
    | position p => simp [Coordinate.appended]
    | titled own =>
      have ne : title ≠ own := fun same => other (by rw [k, same])
      rw [Coordinate.appended, lacking]
      split
      · simp
      · simp [ne]
  rw [h.positionOfTitle, List.idxOf?_eq_none_iff.mpr absent, Option.map_none, Option.or_none]

end Content

/-! ### Writing and reading -/

namespace Edit

/-- The position of a coordinate, with its stripe made if it names a new title. -/
def locate (e : Edit α ω) (axis : Axis) : Coordinate → Nat × Edit α ω
  | .position p => (p, e)
  | .titled title => e.positionForTitle axis title

theorem locate_spec (e : Edit α ω) (axis : Axis) (k : Coordinate) :
    (e.locate axis k).1 = k.target e.content axis ∧
      (e.locate axis k).2.content = e.content.withTitle axis k := by
  cases k with
  | position p => exact ⟨rfl, rfl⟩
  | titled title =>
    obtain ⟨position, content⟩ := e.positionForTitle_content axis title
    refine ⟨position.trans ?_, content⟩
    rw [Content.growToTitle, Coordinate.target, Coordinate.find?]
    cases (e.content.stripes axis).positionOfTitle title <;> rfl

end Edit

namespace Operation

variable [Element α] {c : Content α} {named : Axis → Coordinate}

/-- However its coordinates are named, a write locates the row, then the column, and writes there. -/
theorem run_write_eq (named : Axis → Coordinate) (element : Option α) (e : Edit α ω) :
    (Operation.write named element).run e =
      let row := e.locate .row (named .row)
      let column := row.2.locate .column (named .column)
      Outcome.giving .cell (column.2.setElement row.1 column.1 element) := by
  rw [write]
  cases named .row <;> cases named .column <;> rfl

/-- A write finds the table ready, gives what is in the cell and overwrites it. -/
theorem run_write (h : c.Valid) (addressable : ∀ axis, (named axis).target c axis < unaddressable)
    (element : Option α) (observers : ω) (tell : ω → Notice α → ω) :
    let row := (named .row).target c .row
    let column := (named .column).target c .column
    let after := (Operation.write named element).run ⟨c, observers, tell⟩
    after.1 = .cell ((c.ready named).element row column) ∧
      after.2.content = (c.ready named).set row column element := by
  intro row column after
  let start : Edit α ω := ⟨c, observers, tell⟩
  let rowStep := start.locate .row (named .row)
  obtain ⟨atRow, tall⟩ : rowStep.1 = row ∧ rowStep.2.content = c.withTitle .row (named .row) :=
    start.locate_spec .row (named .row)
  obtain ⟨atColumn, wide⟩ := rowStep.2.locate_spec .column (named .column)
  have same : rowStep.2.content.titles .column = c.titles .column := by
    rw [tall]
    exact h.titles_withTitle_cross .row _
  rw [Coordinate.target_congr same] at atColumn
  rw [tall] at wide
  have written := Edit.setElement_eq (e := (rowStep.2.locate .column (named .column)).2) (addressable .row)
    (addressable .column) element
  rw [wide] at written
  have run : after = Outcome.giving .cell
      ((rowStep.2.locate .column (named .column)).2.setElement row column element) := by
    show Operation.run start (Operation.write named element) = _
    rw [run_write_eq]
    dsimp only
    rw [atColumn, atRow]
  rw [run]
  exact ⟨congrArg Outcome.cell written.1, written.2⟩

/-- A write, whether its coordinates are positions or titles, gives what was read there before, and the
    same coordinates read the element afterwards.  One cell is changed.  Each direction gets what its
    coordinate lacks and nothing else: a title that no stripe had gets the last stripe, a position gets
    untitled stripes up to itself, and otherwise nothing is appended; every other title is found where it
    was.  The coordinates have to be within reach: a position below `unaddressable`, and a title in a
    table that is not as large as that. -/
theorem write_reads_back (reached : c.Reachable) (named : Axis → Coordinate) (element : Option α)
    (addressable : ∀ axis, (named axis).target c axis < unaddressable) (observers : ω)
    (tell : ω → Notice α → ω) :
    let after := (Operation.write named element).run ⟨c, observers, tell⟩
    let c' := after.2.content
    after.1 = .cell (c.read named) ∧
      c'.read named = element ∧
      (∀ row column, c'.element row column =
        if row = (named .row).target c .row ∧ column = (named .column).target c .column then element
        else c.element row column) ∧
      (∀ axis,
        (c.stripes axis).ids <+: (c'.stripes axis).ids ∧
        c'.titles axis = c.titles axis ++ (named axis).appended c axis ∧
        c'.count axis = c.count axis + ((named axis).appended c axis).length ∧
        ∀ title, (c'.stripes axis).positionOfTitle title =
          if named axis = .titled title then some ((named axis).target c axis)
          else (c.stripes axis).positionOfTitle title) ∧
      c'.name = c.name ∧
      c'.transposed = c.transposed := by
  intro after c'
  have h := reached.valid
  have ready := h.grows_ready named
  obtain ⟨given, written⟩ := run_write h addressable element observers tell
  have content :
      c' = (c.ready named).set ((named .row).target c .row) ((named .column).target c .column) element :=
    written
  have titles (axis : Axis) : c'.titles axis = (c.ready named).titles axis := by
    rw [content, Content.titles_set]
  have found (axis : Axis) : (named axis).find? c' axis = some ((named axis).target c axis) :=
    (Coordinate.find?_congr (titles axis)).trans (ready.find?_target axis)
  have elements (row column : Nat) : c'.element row column =
      if row = (named .row).target c .row ∧ column = (named .column).target c .column then element
      else c.element row column := by
    rw [content, ready.valid.element_set Content.target_lt_rowCount Content.target_lt_columnCount,
      ready.elements]
  refine ⟨?_, ?_, elements, fun axis => ⟨?_, ?_, ?_, fun title => ?_⟩, ?_, ?_⟩
  · rw [c.read_eq_element, ← ready.elements]
    exact given
  · rw [Content.read_eq, found, found]
    exact (elements ..).trans (if_pos ⟨rfl, rfl⟩)
  · rw [content, Content.ids_set]
    exact ready.ids axis
  · rw [titles, ready.titles]
  · rw [Content.count_congr (titles axis), ready.count]
  · split
    · next own =>
      have here := found axis
      rw [own] at here ⊢
      exact here
    · next other =>
      exact (Coordinate.find?_congr (k := .titled title) (titles axis)).trans
        (ready.positionOfTitle_of_ne other)
  · rw [content, Content.name_set, ready.name]
  · rw [content, Content.transposed_set, ready.transposed]

/-- Two rows and a column share a title; the write goes to the first of the rows, in a new column. -/
theorem write_reads_back_shared :
    let c := Content.run (.rows [[some "a", some "b"], [some "c", some "d"]])
      [.setTitle .row 0 (some "x"), .setTitle .row 1 (some "x"), .setTitle .column 1 (some "x")]
    let named := Axis.pick (.titled "x") (.titled "new")
    c.Reachable ∧ (∀ axis, (named axis).target c axis < unaddressable) ∧
      let after := (Operation.write named (some "v")).run ⟨c, (), fun _ _ => ()⟩
      after.1 = .cell none ∧ after.2.content.read named = some "v" ∧
        after.2.content.titles .column = [none, some "x", some "new"] ∧
        after.2.content.element 0 1 = some "b" ∧ after.2.content.element 1 2 = none := by
  intro c named
  have reached : c.Reachable := ⟨.rows _, _, rfl⟩
  have addressable (axis : Axis) : (named axis).target c axis < unaddressable := by
    cases axis <;> decide +kernel
  obtain ⟨given, reads, elements, stripes, -⟩ :=
    write_reads_back reached named (some "v") addressable () fun _ _ => ()
  refine ⟨reached, addressable, given.trans ?_, reads, (stripes .column).2.1.trans ?_,
    (elements 0 1).trans ?_, (elements 1 2).trans ?_⟩
  · exact congrArg Outcome.cell (by decide +kernel)
  · decide +kernel
  · decide +kernel
  · decide +kernel

end Operation

end LiveTable
