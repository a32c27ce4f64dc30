import LiveTable.Proofs.Grid.Snapshots

/-! What a snapshot keeps of a content: everything that two contents have to share to be equal, and
    nothing else.  A snapshot that was made by hand may have rows of any lengths and too few or too many
    titles; the content that it describes is as large as any part of the snapshot asks for, and its own
    snapshot is the given one filled up with nulls.  The snapshot of a content is full already, so it
    describes that content, of whatever size it is. -/

namespace LiveTable

open Grid (fit)

variable {α β : Type}

namespace Snapshot

/-- A list filled up with nulls to a length. -/
def filled (n : Nat) (l : List (Option β)) : List (Option β) := l ++ List.replicate (n - l.length) none

/-- As many rows as there are rows or titles for them. -/
def height (s : Snapshot α) : Nat := max s.rows.length s.rowTitles.length

/-- As many columns as the longest row has elements, or as there are titles for them. -/
def width (s : Snapshot α) : Nat := max ((s.rows.map List.length).foldl max 0) s.columnTitles.length

/-- The snapshot with all of its lists filled up with nulls to one height and one width. -/
def padded (s : Snapshot α) : Snapshot α where
  name := s.name
  columnTitles := filled s.width s.columnTitles
  rowTitles := filled s.height s.rowTitles
  rows :=
    s.rows.map (filled s.width) ++ List.replicate (s.height - s.rows.length) (List.replicate s.width none)

example : padded { columnTitles := [some "a"], rowTitles := [none, some "r"], rows := [[some 7, none]] } =
    { columnTitles := [some "a", none], rowTitles := [none, some "r"],
      rows := [[some 7, none], [none, none]] } := by
  decide

theorem length_filled {n : Nat} {l : List (Option β)} (fits : l.length ≤ n) : (filled n l).length = n := by
  rw [filled, List.length_append, List.length_replicate, Nat.add_sub_cancel' fits]

theorem filled_of_length {n : Nat} {l : List (Option β)} (length : l.length = n) : filled n l = l := by
  rw [filled, length, Nat.sub_self, List.replicate_zero, List.append_nil]

theorem filled_eq_fit {n : Nat} {l : List (Option β)} (fits : l.length ≤ n) : filled n l = fit n l := by
  rw [filled, append_replicate_eq_fit, Nat.add_sub_cancel' fits]

/-- A list of titles may be filled up with nulls, which no position can tell from the end of the list. -/
theorem join_getElem?_filled {n : Nat} (titles : List (Option String)) (p : Nat) :
    (filled n titles)[p]?.join = titles[p]?.join := by
  by_cases inside : p < titles.length
  · rw [filled, List.getElem?_append_left inside]
  · rw [filled, List.getElem?_append_right (Nat.le_of_not_lt inside),
      List.getElem?_eq_none (Nat.le_of_not_lt inside), List.getElem?_replicate]
    split <;> rfl

theorem length_le_longest {rows : List (List β)} {row : List β} (mem : row ∈ rows) :
    row.length ≤ (rows.map List.length).foldl max 0 := by
  rw [List.foldl_max, Nat.zero_max]
  exact List.le_max?_getD_of_mem (List.mem_map_of_mem mem)

/-- The longest of rows of one width. -/
theorem longest_of_length {rows : List (List β)} {width : Nat} (same : ∀ row ∈ rows, row.length = width) :
    (rows.map List.length).foldl max 0 = if rows = [] then 0 else width := by
  have lengths : rows.map List.length = List.replicate rows.length width :=
    List.eq_replicate_iff.mpr ⟨List.length_map .., by simpa using same⟩
  rw [lengths, List.foldl_max, Nat.zero_max]
  cases rows <;> simp

/-- Rows of one width, with a title for each column and none too many, only want titles. -/
theorem padded_of_width {s : Snapshot α} (few : s.rowTitles.length ≤ s.rows.length)
    (wide : ∀ row ∈ s.rows, row.length = s.columnTitles.length) :
    s.padded = { s with rowTitles := filled s.rows.length s.rowTitles } := by
  have height : s.height = s.rows.length := Nat.max_eq_left few
  have width : s.width = s.columnTitles.length := by
    rw [Snapshot.width, longest_of_length wide]
    split <;> omega
  have rows : s.rows.map (filled s.width) = s.rows :=
    (List.map_congr_left fun row mem => filled_of_length ((wide row mem).trans width.symm)).trans
      (List.map_id _)
  rw [padded, rows, filled_of_length width.symm, height, Nat.sub_self, List.replicate_zero, List.append_nil]

/-- Rows of one width, with a title for each of them and for each column, need no filling. -/
theorem padded_eq_self {s : Snapshot α} (tall : s.rows.length = s.rowTitles.length)
    (wide : ∀ row ∈ s.rows, row.length = s.columnTitles.length) : s.padded = s := by
  rw [padded_of_width (Nat.le_of_eq tall.symm) wide, filled_of_length tall.symm]

end Snapshot

/-- Padding rows without titles. -/
theorem Grid.pad_untitled (width tall wide : Nat) (rows : List (List (Option α))) :
    (untitled width rows).pad tall wide = untitled (max width wide)
      (rows.map (· ++ List.replicate (wide - width) none) ++
        List.replicate (tall - rows.length) (List.replicate (max width wide) none)) := by
  have total : width + (wide - width) = max width wide := by omega
  simp [pad, extend, untitled, count, titles, List.replicate_append_replicate, total]

namespace Content

open Snapshot (filled)

/-! ### From a snapshot and back -/

/-- A content that was made from a snapshot has that snapshot, filled up with nulls. -/
theorem snapshot_ofSnapshot (s : Snapshot α) : (ofSnapshot s).snapshot = s.padded := by
  let longest := (s.rows.map List.length).foldl max 0
  have fill : ∀ row ∈ s.rows,
      fit longest row ++ List.replicate (s.columnTitles.length - longest) none = filled s.width row := by
    intro row mem
    have short : row.length ≤ longest := Snapshot.length_le_longest mem
    have missing : longest - row.length + (s.columnTitles.length - longest) = s.width - row.length := by
      rw [Snapshot.width]
      omega
    rw [← Snapshot.filled_eq_fit short, filled, List.append_assoc, List.replicate_append_replicate,
      missing, filled]
  have rows : (s.rows.map (fit longest)).map (· ++ List.replicate (s.columnTitles.length - longest) none) =
      s.rows.map (filled s.width) := by
    rw [List.map_map]
    exact List.map_congr_left fill
  have behind : s.rowTitles.length - s.rows.length = s.height - s.rows.length := by
    rw [Snapshot.height]
    omega
  have height : s.rows.length + (s.height - s.rows.length) = s.height :=
    Nat.add_sub_cancel' (Nat.le_max_left ..)
  have grid := grid_ofSnapshot s
  rw [grid_ofRows, Grid.pad_untitled, rows, List.length_map, ← Snapshot.width, behind] at grid
  have parts : (ofSnapshot s).snapshot =
      ⟨s.name, (ofSnapshot s).grid.columnTitles, (ofSnapshot s).grid.rowTitles,
        (ofSnapshot s).grid.rows⟩ := rfl
  rw [parts, grid]
  simp [Grid.mapTitles, Grid.untitled, Snapshot.padded, filled, height]

theorem count_ofSnapshot (s : Snapshot α) :
    (ofSnapshot s).rowCount = s.height ∧ (ofSnapshot s).columnCount = s.width := by
  have counts (axis : Axis) : (ofSnapshot s).count axis = ((ofSnapshot s).titles axis).length :=
    (length_titles ..).symm
  have same := snapshot_ofSnapshot s
  refine ⟨(counts .row).trans ?_, (counts .column).trans ?_⟩
  · rw [show (ofSnapshot s).titles .row = s.padded.rowTitles from congrArg Snapshot.rowTitles same]
    exact Snapshot.length_filled (Nat.le_max_right ..)
  · rw [show (ofSnapshot s).titles .column = s.padded.columnTitles from congrArg Snapshot.columnTitles same]
    exact Snapshot.length_filled (Nat.le_max_right ..)

/-- The titles of a content that a snapshot describes are those that the snapshot lists. -/
theorem title_ofSnapshot (s : Snapshot α) (axis : Axis) (p : Nat) :
    (ofSnapshot s).title axis p =
      (match axis with
        | .row => s.rowTitles
        | .column => s.columnTitles)[p]?.join := by
  have shows := snapshot_ofSnapshot s
  rw [title_eq]
  cases axis with
  | row =>
    rw [show (ofSnapshot s).titles .row = s.padded.rowTitles from congrArg Snapshot.rowTitles shows]
    exact Snapshot.join_getElem?_filled ..
  | column =>
    rw [show (ofSnapshot s).titles .column = s.padded.columnTitles from congrArg Snapshot.columnTitles shows]
    exact Snapshot.join_getElem?_filled ..

/-- A content is as its own snapshot describes it. -/
theorem padded_snapshot (c : Content α) : c.snapshot.padded = c.snapshot := by
  refine Snapshot.padded_eq_self ?_ fun row mem => ?_
  · exact (length_toRows c).trans (c.length_titles .row).symm
  · exact (length_of_mem_toRows mem).trans (c.length_titles .column).symm

/-! ### Equality -/

section Same

variable [DecidableEq α] {a b : Content α}

theorem same_of_eq (rows : a.toRows = b.toRows) (titles : ∀ axis, a.titles axis = b.titles axis)
    (name : a.name = b.name) : a.same b = true := by
  have counts (axis : Axis) : a.count axis = b.count axis := count_congr (titles axis)
  have elements : ∀ row column, a.element row column = b.element row column := by
    intro row column
    rw [element_eq, element_eq, ← toRows_eq, ← toRows_eq, rows]
  simp [same, sameElements, rowCount, columnCount, counts, elements, titles, name]

/-- Two contents are compared cell by cell, and their snapshots row by row. -/
theorem same_iff : a.same b = true ↔ a.snapshot = b.snapshot := by
  constructor
  · intro equal
    simp only [same, sameElements, Bool.and_eq_true, beq_iff_eq, List.all_eq_true, List.mem_range] at equal
    obtain ⟨⟨⟨⟨⟨rows, columns⟩, elements⟩, name⟩, rowTitles⟩, columnTitles⟩ := equal
    have toRows : a.toRows = b.toRows := by
      rw [toRows_eq_map, toRows_eq_map, ← rows, ← columns]
      refine List.map_congr_left fun row inRows => List.map_congr_left fun column inColumns => ?_
      exact elements row (List.mem_range.mp inRows) column (List.mem_range.mp inColumns)
    rw [snapshot, toRows, name, rowTitles, columnTitles, ← snapshot]
  · intro equal
    obtain ⟨name, columnTitles, rowTitles, rows⟩ := Snapshot.mk.inj equal
    exact same_of_eq rows (fun axis => by cases axis <;> assumption) name

end Same

/-- Snapshots are faithful.  A content, of any size and in either orientation, is equal to the one that
    is made from its snapshot; two contents are equal exactly if their snapshots are; and any snapshot at
    all, with rows of any lengths and any number of titles, comes back filled up with nulls: to as many
    rows as there are rows or row titles, to as many columns as the longest row or the column titles
    need, with the name that it had. -/
theorem snapshot_faithful [DecidableEq α] :
    (∀ c : Content α, (ofSnapshot c.snapshot).same c = true) ∧
      (∀ a b : Content α, a.same b = true ↔ a.snapshot = b.snapshot) ∧
      ∀ s : Snapshot α, (ofSnapshot s).snapshot = s.padded := by
  refine ⟨fun c => same_iff.mpr ?_, fun a b => same_iff, snapshot_ofSnapshot⟩
  rw [snapshot_ofSnapshot, padded_snapshot]

end Content

end LiveTable
