import LiveTable.Proofs.Format.Csv.Grammar
import LiveTable.Proofs.Format.RoundTrip

/-! Comma separated values round-trip.  A field is written as one of its texts, so the written form of a
    record is a text of it, and the reader comes to the end of the line with all of its values.  A null
    field writes nothing, so it is the mark behind it that makes the reader see it; a record therefore
    has to have a field. -/

namespace LiveTable

namespace Csv

variable {delimiter : Char}

/-! ### Fields -/

theorem plain_of_not_needsQuotes {text : List Char} (bare : ¬needsQuotes delimiter text) :
    text ≠ [] ∧ ∀ c ∈ text, Plain delimiter c := by
  simp only [needsQuotes, Bool.or_eq_true, List.isEmpty_iff, List.any_eq_true, decide_eq_true_eq, not_or,
    not_exists, not_and] at bare
  exact ⟨bare.1, fun c mem => by simpa [Plain, and_assoc] using bare.2 c mem⟩

/-- A field is written as one of its texts. -/
theorem fieldText_writeField (delimiter : Char) (value : Option (List Char)) :
    FieldText delimiter (writeField delimiter value) value := by
  cases value with
  | none => exact .null
  | some text =>
    by_cases quotes : needsQuotes delimiter text
    · rw [writeField, if_pos quotes]
      exact .quoted text
    · obtain ⟨some_text, plain⟩ := plain_of_not_needsQuotes quotes
      rw [writeField, if_neg quotes]
      exact .bare some_text plain

/-! ### Records -/

theorem recordText_intercalate (delimiter : Char) (value : Option (List Char)) (values : Record) :
    RecordText delimiter ([delimiter].intercalate ((value :: values).map (writeField delimiter)))
      (value :: values) := by
  induction values generalizing value with
  | nil =>
    rw [List.map_singleton, List.intercalate_singleton]
    exact .single (fieldText_writeField delimiter value)
  | cons next values ih =>
    rw [List.map_cons, List.map_cons, List.intercalate_cons_cons, List.append_assoc, List.singleton_append]
    exact .cons (fieldText_writeField delimiter value) (ih next)

/-- A record is read as it was written, and the end of the line closes it. -/
theorem scan_writeRecord (unlike : delimiter ≠ '"') (apart : delimiter ≠ '\n') (rest : List Char) (line : Nat)
    (value : Option (List Char)) (values : Record) :
    ∃ line', scan delimiter [] .fresh line (writeRecord delimiter (value :: values) ++ rest) =
      (scan delimiter [] .fresh line' rest).map ((value :: values) :: ·) := by
  have ended : ('\n' :: rest).head? ≠ some '"' := by simp
  obtain ⟨front, field, line', ready, fields, -, read⟩ :=
    scan_recordText unlike (recordText_intercalate delimiter value values) [] line ended
  refine ⟨line' + 1, ?_⟩
  rw [writeRecord, List.append_assoc, List.singleton_append, read, scan_newline ready apart, fields]
  rfl

/-- Records that have fields are read as they were written. -/
theorem parseRecords_flatMap (unlike : delimiter ≠ '"') (apart : delimiter ≠ '\n') (records : List Record)
    (some_field : ∀ record ∈ records, record ≠ []) :
    parseRecords delimiter (records.flatMap (writeRecord delimiter)) = .ok records := by
  rw [parseRecords]
  generalize 1 = line
  induction records generalizing line with
  | nil => rfl
  | cons record records ih =>
    obtain ⟨value, values, rfl⟩ := List.exists_cons_of_ne_nil (some_field record List.mem_cons_self)
    obtain ⟨line', read⟩ :=
      scan_writeRecord unlike apart (records.flatMap (writeRecord delimiter)) line value values
    rw [List.flatMap_cons, read, ih fun r mem => some_field r (List.mem_cons_of_mem _ mem)]
    rfl

/-! ### Tables -/

theorem takeRecord_append (included : Bool) (record : Record) (rs : List Record) :
    takeRecord included ((if included then [record] else []) ++ rs) =
      (if included then some record else none, rs) := by
  cases included <;> rfl

/-- A record without the title that was put in front of it. -/
theorem tail_titled (included : Bool) (title : Option (List Char)) (fields : Record) :
    (if included then ((if included then [title] else []) ++ fields).tail
      else (if included then [title] else []) ++ fields) = fields := by
  cases included <;> rfl

variable {α : Type} [Element α] {c : Content α} {inclusion : Inclusion}

/-- The document of a table is read as the snapshot of the table if every record of it has a field and
    the cells of the table are read. -/
theorem read_write_of_fields (legible : c.Legible) (some_field : ∀ record ∈ records c inclusion, record ≠ [])
    (unlike : inclusion.delimiter ≠ '"') (apart : inclusion.delimiter ≠ '\n') :
    read (write c inclusion) inclusion = .ok (c.snapshot.restrict inclusion) := by
  have parsed := parseRecords_flatMap unlike apart _ some_field
  rw [records, List.append_assoc] at parsed
  rw [read, write, records, List.append_assoc, parsed]
  have cells :
      ((List.range c.rowCount).map fun row => (if inclusion.rowTitles then [titleText? c .row row] else []) ++
        (List.range c.columnCount).map (cellText? c row)).mapM
      (fun record => List.mapM readCell (if inclusion.rowTitles then record.tail else record)) =
        .ok c.toRows := by
    rw [Content.toRows_eq_map]
    refine mapM_map_eq_ok fun row _ => ?_
    rw [tail_titled]
    exact mapM_readCell legible row
  simp only [bind, Except.bind, takeRecord_append, cells, c.padRows_toRows]
  refine congrArg Except.ok ?_
  simp only [Snapshot.restrict, Content.snapshot, Snapshot.mk.injEq, and_true]
  refine ⟨?_, ?_, ?_⟩
  · cases inclusion.name
    · rfl
    · exact ofText?_map_toList c.name
  · cases inclusion.columnTitles
    · cases inclusion.rowTitles <;> rfl
    · rw [if_pos rfl, if_pos rfl, Option.getD_some, tail_titled]
      exact map_ofText?_titleText? c .column
  · cases inclusion.rowTitles
    · rfl
    · rw [if_pos rfl, if_pos rfl, ← map_ofText?_titleText?, List.map_map, List.map_map]
      rfl

/-- Every record has a field if the rows are titled, or if it is not of a table without columns. -/
theorem ne_nil_of_mem_records
    (fields : c.columnCount = 0 → inclusion.rowTitles ∨ c.rowCount = 0 ∧ ¬inclusion.columnTitles) :
    ∀ record ∈ records c inclusion, record ≠ [] := by
  -- a row, or the header, with the title or the corner in front of it
  have filled (titled : inclusion.rowTitles ∨ 0 < c.columnCount) (front : Option (List Char))
      (f : Nat → Option (List Char)) :
      (if inclusion.rowTitles then [front] else []) ++ (List.range c.columnCount).map f ≠ [] := by
    rcases titled with titled | wide
    · simp [titled]
    · refine List.append_ne_nil_of_right_ne_nil _ fun none => ?_
      have flat : c.columnCount = 0 := by simpa using none
      omega
  have titled_of (listed : 0 < c.rowCount ∨ inclusion.columnTitles) :
      inclusion.rowTitles ∨ 0 < c.columnCount := by
    rcases Nat.eq_zero_or_pos c.columnCount with flat | wide
    · rcases fields flat with titled | ⟨rowless, headless⟩
      · exact .inl titled
      · rcases listed with tall | header
        · omega
        · exact absurd header headless
    · exact .inr wide
  intro record mem
  rw [records, List.mem_append, List.mem_append] at mem
  rcases mem with (named | headed) | row
  · split at named
    · rw [List.mem_singleton.mp named]
      exact List.cons_ne_nil _ _
    · cases named
  · split at headed
    · next header =>
      rw [List.mem_singleton.mp headed]
      exact filled (titled_of (.inr header)) none _
    · cases headed
  · obtain ⟨row, inside, rfl⟩ := List.mem_map.mp row
    exact filled (titled_of (.inl (Nat.zero_lt_of_lt (List.mem_range.mp inside)))) _ _

/-- The document of a table that has columns is read as the snapshot of the table. -/
theorem read_write [Element.Faithful α] (columns : 0 < c.columnCount) (unlike : inclusion.delimiter ≠ '"')
    (apart : inclusion.delimiter ≠ '\n') :
    read (write c inclusion) inclusion = .ok (c.snapshot.restrict inclusion) :=
  read_write_of_fields c.legible (ne_nil_of_mem_records fun flat => absurd flat (Nat.ne_of_gt columns))
    unlike apart

end Csv

namespace Format

/-- A table that has columns round-trips through comma separated values if it has rows or its column
    titles are included, whatever its elements, titles and name hold and whatever separates the fields,
    short of the quote and the line feed. -/
theorem csv_roundTrips {α : Type} [Element α] [Element.Faithful α] [JsonForm α] (c : Content α)
    (inclusion : Inclusion)
    (columns : 0 < c.columnCount) (shown : 0 < c.rowCount ∨ inclusion.columnTitles)
    (unlike : inclusion.delimiter ≠ '"') (apart : inclusion.delimiter ≠ '\n') : csv.RoundTrips c inclusion :=
  roundTrips_of_read (fun text => Csv.read text inclusion) (fun _ => rfl) rfl (shown.imp_right .inr)
    (Csv.read_write columns unlike apart)

/-- Quotes, a delimiter, a null cell and an empty text; a carriage return between numbers. -/
theorem csv_roundTrips_quoted :
    csv.RoundTrips (.ofRows [[some "a;\"\n", none, some ""]] : Content String)
      { name := true, delimiter := ';' } ∧
    csv.RoundTrips (.ofRows [[some (-5), none]] : Content Int64) { rowTitles := true, delimiter := '\r' } :=
  ⟨csv_roundTrips _ _ (by decide +kernel) (.inl (by decide +kernel)) (by decide) (by decide),
    csv_roundTrips _ _ (by decide +kernel) (.inl (by decide +kernel)) (by decide) (by decide)⟩

end Format

end LiveTable
