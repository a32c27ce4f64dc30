import LiveTable.Proofs.Content.Snapshot
import LiveTable.Proofs.Workspace.Sound
import LiveTable.Workspace.Observe

/-! Taking a document over is all or nothing, and forgets the past.  A document that cannot be read
    leaves everything as it was, the observers included.  Of one that can be read the table holds all
    that its snapshot describes and nothing else: neither what the table held before nor how it was laid
    out has a part in what it shows then. -/

namespace LiveTable

variable {α κ : Type}

/-- A content shows what another one shows. -/
structure Content.LooksLike (c source : Content α) : Prop where
  rows : c.toRows = source.toRows
  count : ∀ axis, c.count axis = source.count axis
  titles : ∀ axis, c.titles axis = source.titles axis
  name : c.name = source.name

theorem Content.looksLike_of_grid {c source : Content α} (grid : c.grid = source.grid)
    (name : c.name = source.name) : c.LooksLike source where
  rows := congrArg Grid.rows grid
  count axis := by rw [← count_grid, grid, count_grid]
  titles axis := by rw [← titles_grid, grid, titles_grid]
  name := name

theorem Content.LooksLike.title {c source : Content α} (looks : c.LooksLike source) (axis : Axis) (p : Nat) :
    c.title axis p = source.title axis p := by
  rw [title_eq, looks.titles, ← title_eq]

namespace Workspace

variable [Element α] [JsonForm α] [BinaryForm α] [Ord κ] {ws : Workspace α κ} {t : TableId}

/-- A table that takes a snapshot over looks like what the snapshot describes. -/
theorem looksLike_takeOver (there : ws.hasTable t) (s : Snapshot α) :
    ((ws.takeOver t (.ok s)).2.content t).LooksLike (.ofSnapshot s) := by
  obtain ⟨grid, name⟩ := (Edit.recorded (ws.content t)).grid_replace (.ofSnapshot s)
  rw [takeOver, content_perform_eq there (.replace (.ofSnapshot s))]
  exact Content.looksLike_of_grid grid name

/-- Taking a document over fails exactly if the document cannot be read, and then changes nothing.
    Otherwise the table looks like what its rows describe, together with the name and the titles that are
    to be included: of each of these three, the table has what the document has if it is included and
    nothing if it is not, whatever it had before. -/
theorem takeText_all_or_nothing (there : ws.hasTable t) (format : Format) (inclusion : Inclusion)
    (text : String) :
    match (format.parse text.toList inclusion : Except FormatFault (Snapshot α)) with
    | .error fault => ws.takeText t format inclusion text = (.error fault, ws)
    | .ok s =>
      let held := (ws.takeText t format inclusion text).2.content t
      (ws.takeText t format inclusion text).1 = .ok () ∧
        held.LooksLike (.ofSnapshot
          { name := if inclusion.name then s.name else none
            columnTitles := if inclusion.columnTitles then s.columnTitles else []
            rowTitles := if inclusion.rowTitles then s.rowTitles else []
            rows := s.rows }) ∧
        held.name = (if inclusion.name then s.name else none) ∧
        (∀ k, held.title .column k = if inclusion.columnTitles then s.columnTitles[k]?.join else none) ∧
        ∀ i, held.title .row i = if inclusion.rowTitles then s.rowTitles[i]?.join else none := by
  rw [takeText, Format.read]
  cases (format.parse text.toList inclusion : Except FormatFault (Snapshot α)) with
  | error fault => rfl
  | ok s =>
    have looks := looksLike_takeOver there (s.restrict inclusion)
    refine ⟨rfl, looks, looks.name.trans rfl, fun k => ?_, fun i => ?_⟩
    · refine (looks.title .column k).trans ((Content.title_ofSnapshot _ _ k).trans ?_)
      cases included : inclusion.columnTitles <;> simp [Snapshot.restrict, included]
    · refine (looks.title .row i).trans ((Content.title_ofSnapshot _ _ i).trans ?_)
      cases included : inclusion.rowTitles <;> simp [Snapshot.restrict, included]

/-- A table with a name, a titled row and rows and columns exchanged, which a store follows. -/
def titledTarget : Workspace String RowKey where
  tables := [{ content := { ((Content.ofRows [[some "x", none]]).setTitle .row 0 (some "r")).transpose with
    name := some "old" }, stores := [⟨0⟩] }]
  stores := [.memory [[some "x"], [none]]]

/-- A document with rows of different lengths, and one with a single row and a name. -/
theorem takeText_transposed :
    titledTarget.hasTable ⟨0⟩ ∧
    titledTarget.takeText ⟨0⟩ .json {} "\x7b\"rows\": [[\"a\"], []]\x7d" =
      (.error (.shape .json .raggedRows), titledTarget) ∧
    ((titledTarget.takeText ⟨0⟩ .json {}
      "\x7b\"tableName\": \"n\", \"rows\": [[\"a\", null]]\x7d").2.content ⟨0⟩).LooksLike
      (.ofSnapshot { rows := [[some "a", none]] }) := by
  have there : titledTarget.hasTable ⟨0⟩ := by decide
  have ragged :
      (Format.json.parse "\x7b\"rows\": [[\"a\"], []]\x7d".toList {} : Except FormatFault (Snapshot String)) =
      .error (.shape .json .raggedRows) := by decide +kernel
  have one_row : (Format.json.parse "\x7b\"tableName\": \"n\", \"rows\": [[\"a\", null]]\x7d".toList {} :
      Except FormatFault (Snapshot String)) = .ok { name := some "n", rows := [[some "a", none]] } := by
        decide +kernel
  have refused := takeText_all_or_nothing there .json {} "\x7b\"rows\": [[\"a\"], []]\x7d"
  have taken :=
    takeText_all_or_nothing there .json {} "\x7b\"tableName\": \"n\", \"rows\": [[\"a\", null]]\x7d"
  rw [ragged] at refused
  rw [one_row] at taken
  exact ⟨there, refused, taken.2.1⟩

end Workspace

end LiveTable
