import LiveTable.Proofs.Format.Csv
import LiveTable.Proofs.Format.Json
import LiveTable.Proofs.Format.PlainText.Table
import LiveTable.Proofs.Format.Xhtml
import LiveTable.Proofs.Format.Xml.Document

/-! How many rows and columns a document tells of when there are no cells to count.  Every format writes
    a line, an element or an array for each row, so rows are never lost.  Columns are told by the cells
    of a row or by the column titles; a document with neither says nothing of them, and a table of
    columns alone comes back with none.  A CSV record without a field cannot be told from one with a
    single null field, so every record must have one. -/

namespace LiveTable

variable {α : Type} {c : Content α} {inclusion : Inclusion}

/-! ### What a snapshot tells -/

namespace Content

/-- The snapshot of a content tells its rows, and its columns unless they are neither in a row nor titled. -/
theorem count_ofSnapshot_restrict (c : Content α) (inclusion : Inclusion) :
    (ofSnapshot (c.snapshot.restrict inclusion)).rowCount = c.rowCount ∧
      (ofSnapshot (c.snapshot.restrict inclusion)).columnCount =
        if c.rowCount = 0 ∧ ¬inclusion.columnTitles then 0 else c.columnCount := by
  obtain ⟨rows, columns⟩ := count_ofSnapshot (c.snapshot.restrict inclusion)
  exact ⟨rows.trans (height_restrict c inclusion), columns.trans (width_restrict c inclusion)⟩

end Content

/-! ### What a document tells -/

namespace Format

variable [Element α] [JsonForm α]

/-- Whatever table takes over the document that a format makes of a content, it has so many rows and
    columns. -/
def TellsExtent (format : Format) (c : Content α) (inclusion : Inclusion) (rows columns : Nat) : Prop :=
  ∃ s : Snapshot α, format.read (format.write c inclusion) inclusion = .ok s ∧
    ∀ (ω : Type) (e : Edit α ω),
      ((Operation.replace (.ofSnapshot s)).run e).2.content.rowCount = rows ∧
      ((Operation.replace (.ofSnapshot s)).run e).2.content.columnCount = columns

/-- A document that is read as the snapshot tells what the snapshot tells. -/
theorem tellsExtent_of_read {format : Format} (included : Inclusion)
    (titles : included.columnTitles = inclusion.columnTitles)
    (read : format.read (format.write c inclusion) inclusion = .ok (c.snapshot.restrict included)) :
    format.TellsExtent c inclusion c.rowCount
      (if c.rowCount = 0 ∧ ¬inclusion.columnTitles then 0 else c.columnCount) := by
  refine ⟨_, read, fun ω e => ?_⟩
  obtain ⟨grid, -⟩ := e.grid_replace (.ofSnapshot (c.snapshot.restrict included))
  have count (axis : Axis) :
      ((Operation.replace (.ofSnapshot (c.snapshot.restrict included))).run e).2.content.count axis =
      (Content.ofSnapshot (c.snapshot.restrict included)).count axis := by
    rw [← Content.count_grid, ← Content.count_grid]
    exact congrArg (·.count axis) grid
  obtain ⟨rows, columns⟩ := c.count_ofSnapshot_restrict included
  rw [titles] at columns
  exact ⟨(count .row).trans rows, (count .column).trans columns⟩

/-- A table without cells comes back with its rows, and with its columns unless there are columns alone
    and their titles are left out, in every format; in CSV if the delimiter is neither the quote nor the
    line feed and no record, of a row or of the header, is without a field. -/
theorem tellsExtent (format : Format) (c : Content α) (inclusion : Inclusion)
    (empty : c.rowCount = 0 ∨ c.columnCount = 0)
    (fields : format = csv → inclusion.delimiter ≠ '"' ∧ inclusion.delimiter ≠ '\n' ∧
      (c.columnCount = 0 → inclusion.rowTitles ∨ c.rowCount = 0 ∧ ¬inclusion.columnTitles)) :
    format.TellsExtent c inclusion c.rowCount
      (if c.rowCount = 0 ∧ ¬inclusion.columnTitles then 0 else c.columnCount) := by
  have legible : c.Legible := Content.legible_of_no_cells empty
  have same := Snapshot.restrict_restrict c.snapshot inclusion
  have titled := Content.restrict_withTitlesOf c inclusion
  cases format with
  | json =>
    exact tellsExtent_of_read inclusion rfl
      (read_write_of_reader readJson (fun _ => rfl) rfl same
        (readJson_write c inclusion (legible_of_no_cells empty)))
  | xml =>
    exact tellsExtent_of_read (inclusion.withTitlesOf c) rfl
      (read_write_of_reader Xml.read (fun _ => rfl) rfl titled (Xml.read_write_of_legible legible inclusion))
  | xhtml =>
    exact tellsExtent_of_read (inclusion.withTitlesOf c) rfl
      (read_write_of_reader Xhtml.read (fun _ => rfl) rfl titled
        (Xhtml.read_write_of_legible legible inclusion))
  | csv =>
    obtain ⟨unlike, apart, some_field⟩ := fields rfl
    exact tellsExtent_of_read inclusion rfl
      (read_write_of_reader (Csv.read · inclusion) (fun _ => rfl) rfl same
      (Csv.read_write_of_fields legible (Csv.ne_nil_of_mem_records some_field) unlike apart))
  | plainText =>
    exact tellsExtent_of_read inclusion rfl
      (read_write_of_reader (PlainText.read · inclusion) (fun _ => rfl) rfl same
      (PlainText.read_write_of_legible legible inclusion))

/-- Rows alone, in a record each that has a title; titled columns alone; columns that are lost. -/
theorem tellsExtent_rows_alone :
    csv.TellsExtent (.ofRows [[], [], []] : Content String) { rowTitles := true } 3 0 ∧
    xml.TellsExtent (.ofSnapshot { columnTitles := [none, some ""] } : Content Int64)
      { columnTitles := true } 0 2 ∧
    plainText.TellsExtent (.ofSnapshot { columnTitles := [none, some ""] } : Content String) {} 0 0 := by
  have rows :=
    tellsExtent csv (.ofRows [[], [], []] : Content String) { rowTitles := true } (.inr (by decide +kernel))
    fun _ => ⟨by decide, by decide, fun _ => .inl rfl⟩
  have titled := tellsExtent xml (.ofSnapshot { columnTitles := [none, some ""] } : Content Int64)
    { columnTitles := true } (.inl (by decide +kernel)) nofun
  have lost := tellsExtent plainText (.ofSnapshot { columnTitles := [none, some ""] } : Content String) {}
    (.inl (by decide +kernel)) nofun
  have three : (.ofRows [[], [], []] : Content String).rowCount = 3 := by decide +kernel
  have none : (.ofRows [[], [], []] : Content String).columnCount = 0 := by decide +kernel
  have flat {α : Type} : (.ofSnapshot { columnTitles := [.none, some ""] } : Content α).rowCount = 0 :=
    (Content.count_ofSnapshot _).1
  have two : (.ofSnapshot { columnTitles := [.none, some ""] } : Content Int64).columnCount = 2 :=
    (Content.count_ofSnapshot _).2
  rw [three, none] at rows
  rw [flat, two] at titled
  rw [flat] at lost
  exact ⟨rows, titled, lost⟩

theorem TellsExtent.unpack {format : Format} {rows columns : Nat} {s : Snapshot α}
    (tells : format.TellsExtent c inclusion rows columns)
    (read : format.read (format.write c inclusion) inclusion = .ok s) :
    s.unpack.rowCount = rows ∧ s.unpack.columnCount = columns := by
  obtain ⟨told, found, extent⟩ := tells
  obtain rfl : told = s := Except.ok.inj (found.symm.trans read)
  exact extent Unit (Edit.unobserved {})

/-- Without column titles columns alone are lost.  In CSV a header without a field is read as a column,
    and so is what follows the end of a line, or a quote in front of a text, if that is the delimiter. -/
theorem not_tellsExtent_columns_alone :
    ¬json.TellsExtent (.ofSnapshot { columnTitles := [none] } : Content String) {} 0 1 ∧
    ¬csv.TellsExtent ({} : Content String) { columnTitles := true } 0 0 ∧
    ¬csv.TellsExtent (.ofSnapshot { columnTitles := [none] } : Content String)
      { columnTitles := true, delimiter := '\n' } 0 1 ∧
    ¬csv.TellsExtent (.ofSnapshot { columnTitles := [some ""] } : Content String)
      { columnTitles := true, delimiter := '"' } 0 1 := by
  refine ⟨fun tells => ?_, fun tells => ?_, fun tells => ?_, fun tells => ?_⟩
  · have told := tells.unpack (s := {}) (by decide +kernel)
    exact absurd told.2 (by decide +kernel)
  · have told := tells.unpack (s := { columnTitles := [none] }) (by decide +kernel)
    exact absurd told.2 (by decide +kernel)
  · have told := tells.unpack (s := { columnTitles := [none, none] }) (by decide +kernel)
    exact absurd told.2 (by decide +kernel)
  · have told := tells.unpack (s := { columnTitles := [none, none, none] }) (by decide +kernel)
    exact absurd told.2 (by decide +kernel)

end Format

end LiveTable
