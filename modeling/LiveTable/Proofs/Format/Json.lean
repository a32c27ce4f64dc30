import LiveTable.Proofs.Format.RoundTrip
import LiveTable.Proofs.Json.Form

/-! Round-trips through JSON.  The laid-out form of a snapshot is read as the snapshot, with all that the
    snapshot leaves out left out again, and the rows of a content are never of different lengths. -/

namespace LiveTable.Format

open JsonForm (Legible legible_list legible_option)

variable {α : Type} [JsonForm α]

/-- A snapshot of legible rows that are equally long is read from its laid-out form. -/
theorem readJson_pretty {s : Snapshot α} {width : Nat} (rows : Legible s.rows)
    (even : ∀ row ∈ s.rows, row.length = width) : readJson (s.toJson.pretty 0) = .ok s := by
  have read : (Json.read? (s.toJson.pretty 0)).bind Snapshot.ofJson? = some s := by
    rw [(Snapshot.writable_toJson rows).read?_pretty, Option.bind_some, Snapshot.ofJson?_toJson rows]
  have same : (s.rows.all fun row => row.length = (s.rows.head?.getD []).length) := by
    refine List.all_eq_true.mpr fun row mem => decide_eq_true ?_
    cases listed : s.rows with
    | nil => cases listed ▸ mem
    | cons first rest => exact (even row mem).trans (even first (listed ▸ List.mem_cons_self)).symm
  rw [readJson, read]
  exact if_pos same

/-- The document of a content whose elements are legible is read as its snapshot. -/
theorem readJson_write (c : Content α) (inclusion : Inclusion) (cells : Legible c.toRows) :
    readJson ((c.snapshot.restrict inclusion).toJson.pretty 0) = .ok (c.snapshot.restrict inclusion) :=
  readJson_pretty cells fun _ mem => Content.length_of_mem_toRows mem

/-- A content without cells has nothing that could not be read. -/
theorem legible_of_no_cells {c : Content α} (empty : c.rowCount = 0 ∨ c.columnCount = 0) :
    Legible c.toRows := by
  refine legible_list fun row mem => legible_list fun cell inside => ?_
  rcases empty with rows | columns
  · rw [List.eq_nil_of_length_eq_zero ((Content.length_toRows c).trans rows)] at mem
    cases mem
  · rw [List.eq_nil_of_length_eq_zero ((Content.length_of_mem_toRows mem).trans columns)] at inside
    cases inside

/-- A table round-trips through JSON if it has rows or no columns or its column titles are included,
    whatever its elements, titles and name hold. -/
theorem json_roundTrips [Element α] [JsonForm.Faithful α] (c : Content α) (inclusion : Inclusion)
    (shown : 0 < c.rowCount ∨ c.columnCount = 0 ∨ inclusion.columnTitles) : json.RoundTrips c inclusion :=
  roundTrips_of_read readJson (fun _ => rfl) rfl shown
    (readJson_write c inclusion (legible_list fun _ _ => legible_list fun cell _ => legible_option cell))

/-- Quotes, backslashes and control characters, a character beyond sixteen bits, a null cell and an empty
    text, with titles and a name that is empty; numbers; a header over no rows. -/
theorem json_roundTrips_escaped :
    json.RoundTrips (.ofSnapshot
        { name := some "", columnTitles := [some "\x00\n\t", none], rowTitles := [some "", none]
          rows := [[some "\"\\/\x1f\x7f", some "𝄞"], [none, some ""]] } : Content String)
      { columnTitles := true, rowTitles := true, name := true } ∧
    json.RoundTrips (.ofRows [[some (-9223372036854775808), none]] : Content Int64) {} ∧
    json.RoundTrips (.ofSnapshot { columnTitles := [some "null", none] } : Content String)
      { columnTitles := true } :=
  ⟨json_roundTrips _ _ (.inl (by decide +kernel)), json_roundTrips _ _ (.inl (by decide +kernel)),
    json_roundTrips _ _ (.inr (.inr rfl))⟩

end LiveTable.Format
