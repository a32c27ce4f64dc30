import LiveTable.Format.Csv

/-! The grammar of comma separated values.  A field is empty, or a run of plain characters, or a text in
    quotes with every quote inside it doubled; a record is one or more fields with delimiters between
    them; a document is a sequence of records with the end of a line behind each, which only the last
    record may lack, and only if it has a text.  The reader accepts exactly these documents, and each of
    them has one reading.

    One direction follows the reader over a document, field by field.  The other keeps, at every
    character, what has been read of the present record: the texts of its fields, and the part of a text
    that the present field has been read from. -/

namespace LiveTable.Csv

variable {delimiter : Char} {before record : Record} {field : Field} {line : Nat}
  {seen text rest : List Char} {value : Option (List Char)} {records : List Record}

/-! ### The grammar -/

/-- A character that can stand in a field without quotes. -/
def Plain (delimiter c : Char) : Prop := c ≠ delimiter ∧ c ≠ '"' ∧ c ≠ '\n' ∧ c ≠ '\r'

/-- The texts of a field, with the value that each stands for. -/
inductive FieldText (delimiter : Char) : List Char → Option (List Char) → Prop
  | null : FieldText delimiter [] none
  | bare {text : List Char} (some_text : text ≠ []) (plain : ∀ c ∈ text, Plain delimiter c) :
      FieldText delimiter text (some text)
  | quoted (body : List Char) : FieldText delimiter (quoted body) (some body)

/-- The texts of a record: those of its fields, with a delimiter between each two. -/
inductive RecordText (delimiter : Char) : List Char → Record → Prop
  | single {text : List Char} {value : Option (List Char)} (field : FieldText delimiter text value) :
      RecordText delimiter text [value]
  | cons {text rest : List Char} {value : Option (List Char)} {record : Record}
      (field : FieldText delimiter text value) (others : RecordText delimiter rest record) :
      RecordText delimiter (text ++ delimiter :: rest) (value :: record)

/-- The ends of a line, with what may stand behind them: a carriage return right before a line feed is no
    end of its own. -/
inductive LineEnd : List Char → List Char → Prop
  | feed (rest : List Char) : LineEnd ['\n'] rest
  | both (rest : List Char) : LineEnd ['\r', '\n'] rest
  | turn {rest : List Char} (alone : rest.head? ≠ some '\n') : LineEnd ['\r'] rest

/-- The documents, with the records that each consists of. -/
inductive Document (delimiter : Char) : List Char → List Record → Prop
  | empty : Document delimiter [] []
  | unended {text : List Char} {record : Record} (read : RecordText delimiter text record)
      (some_text : text ≠ []) :
      Document delimiter text [record]
  | cons {text mark rest : List Char} {record : Record} {records : List Record}
      (read : RecordText delimiter text record) (ended : LineEnd mark rest)
      (others : Document delimiter rest records) :
      Document delimiter (text ++ mark ++ rest) (record :: records)

/-! ### Marks -/

/-- A field that is not in the middle of its quotes. -/
def Field.Ready : Field → Prop
  | .inQuotes _ => False
  | _ => True

theorem Field.ready_of_ne (apart : ∀ seen, field = .inQuotes seen → False) : field.Ready := by
  cases field with
  | inQuotes seen => exact apart seen rfl
  | _ => trivial

theorem scan_delimiter (ready : field.Ready) :
    scan delimiter before field line (delimiter :: rest) =
      scan delimiter (before ++ [field.value]) .fresh line rest := by
  cases field with
  | inQuotes => exact ready.elim
  | _ =>
    rw [scan.eq_def]
    exact if_pos rfl

theorem scan_newline (ready : field.Ready) (apart : delimiter ≠ '\n') :
    scan delimiter before field line ('\n' :: rest) =
      (scan delimiter [] .fresh (line + 1) rest).map ((before ++ [field.value]) :: ·) := by
  cases field with
  | inQuotes => exact ready.elim
  | _ =>
    rw [scan.eq_def]
    exact (if_neg apart.symm).trans (if_pos rfl)

/-- Every end of a line closes the record. -/
theorem scan_lineEnd {mark : List Char} (ready : field.Ready) (feed : delimiter ≠ '\n')
    (turn : delimiter ≠ '\r')
    (ended : LineEnd mark rest) : scan delimiter before field line (mark ++ rest) =
      (scan delimiter [] .fresh (line + 1) rest).map ((before ++ [field.value]) :: ·) := by
  cases ended with
  | feed => exact scan_newline ready feed
  | both =>
    cases field with
    | inQuotes => exact ready.elim
    | _ =>
      simp only [List.cons_append, List.nil_append]
      rw [scan.eq_def]
      simp [turn.symm]
  | turn alone =>
    -- the reader looks one character further for a line feed
    have other : ∀ later, rest = '\n' :: later → False := by
      rintro later rfl
      exact alone rfl
    cases field with
    | inQuotes => exact ready.elim
    | _ =>
      simp only [List.cons_append, List.nil_append]
      rw [scan.eq_def]
      simp [turn.symm]

/-! ### Fields -/

/-- A plain character begins a fresh field. -/
theorem scan_fresh_plain {c : Char} (plain : Plain delimiter c) :
    scan delimiter before .fresh line (c :: rest) = scan delimiter before (.bare [c]) line rest := by
  obtain ⟨mark, quote, feed, turn⟩ := plain
  rw [scan.eq_def]
  exact (if_neg mark).trans ((if_neg feed).trans ((if_neg turn).trans (if_neg quote)))

/-- A plain character is added to a field that has begun. -/
theorem scan_bare_plain {c : Char} (plain : Plain delimiter c) :
    scan delimiter before (.bare seen) line (c :: rest) =
      scan delimiter before (.bare (c :: seen)) line rest := by
  obtain ⟨mark, quote, feed, turn⟩ := plain
  rw [scan.eq_def]
  exact (if_neg mark).trans ((if_neg feed).trans ((if_neg turn).trans (if_neg quote)))

theorem scan_bare (text : List Char) (plain : ∀ c ∈ text, Plain delimiter c) :
    scan delimiter before (.bare seen) line (text ++ rest) =
      scan delimiter before (.bare (text.reverse ++ seen)) line rest := by
  induction text generalizing seen with
  | nil => rfl
  | cons c text ih =>
    rw [List.cons_append, scan_bare_plain (plain c List.mem_cons_self),
      ih fun d mem => plain d (List.mem_cons_of_mem c mem), List.reverse_cons, List.append_assoc,
      List.singleton_append]

theorem scan_openQuote (unlike : delimiter ≠ '"') :
    scan delimiter before .fresh line ('"' :: rest) = scan delimiter before (.inQuotes []) line rest := by
  rw [scan.eq_def]
  exact if_neg unlike.symm

/-- Inside quotes a text is read up to the quote that ends it, over the marks and the doubled quotes in it. -/
theorem scan_inQuotes (delimiter : Char) (before : Record) (seen : List Char) (line : Nat) (text : List Char)
    (ended : rest.head? ≠ some '"') :
    ∃ line', scan delimiter before (.inQuotes seen) line
        (text.flatMap (fun c => if c = '"' then ['"', '"'] else [c]) ++ '"' :: rest) =
      scan delimiter before (.closed (text.reverse ++ seen)) line' rest := by
  induction text generalizing seen line with
  | nil =>
    refine ⟨line, ?_⟩
    rw [List.flatMap_nil, List.nil_append, scan]
    · exact if_pos rfl
    · -- a quote right behind the closing one would be read as one that is doubled
      rintro after - rfl
      exact ended rfl
  | cons c text ih =>
    rw [List.flatMap_cons, List.reverse_cons, List.append_assoc, List.append_assoc, List.singleton_append]
    by_cases quote : c = '"'
    · subst quote
      obtain ⟨line', later⟩ := ih ('"' :: seen) line
      refine ⟨line', ?_⟩
      rw [if_pos rfl, ← later]
      exact scan.eq_3 ..
    · obtain ⟨line', later⟩ := ih (c :: seen) (if c = '\n' then line + 1 else line)
      refine ⟨line', ?_⟩
      rw [if_neg quote, ← later, List.singleton_append, scan]
      · exact if_neg quote
      · exact fun _ same => absurd same quote

/-- The reader comes to what stands behind a field with the value of the field, and has not read anything
    only if the field has no text. -/
theorem scan_fieldText (unlike : delimiter ≠ '"') (spelled : FieldText delimiter text value) (before : Record)
    (line : Nat) (ended : rest.head? ≠ some '"') :
    ∃ field line', field.Ready ∧ field.value = value ∧ (field.isFresh → text = []) ∧
      scan delimiter before .fresh line (text ++ rest) = scan delimiter before field line' rest := by
  cases spelled with
  | null => exact ⟨.fresh, line, trivial, rfl, fun _ => rfl, rfl⟩
  | bare some_text plain =>
    obtain ⟨c, text, rfl⟩ := List.exists_cons_of_ne_nil some_text
    refine ⟨.bare (text.reverse ++ [c]), line, trivial, by simp [Field.value], by simp [Field.isFresh], ?_⟩
    rw [List.cons_append, scan_fresh_plain (plain c List.mem_cons_self),
      scan_bare text fun d mem => plain d (List.mem_cons_of_mem c mem)]
  | quoted body =>
    obtain ⟨line', read⟩ := scan_inQuotes delimiter before [] line body ended
    refine ⟨.closed (body.reverse ++ []), line', trivial, by simp [Field.value], by simp [Field.isFresh], ?_⟩
    rw [quoted, List.cons_append, List.cons_append, scan_openQuote unlike, ← read, List.append_assoc,
      List.singleton_append]

/-! ### Every document is read -/

theorem RecordText.ne_nil (spelled : RecordText delimiter text record) : record ≠ [] := by
  cases spelled <;> exact List.cons_ne_nil _ _

/-- The fields of a record are read one after the other, up to what stands behind the last. -/
theorem scan_recordText (unlike : delimiter ≠ '"') (spelled : RecordText delimiter text record)
    (before : Record) (line : Nat) (ended : rest.head? ≠ some '"') :
    ∃ front field line', field.Ready ∧ front ++ [field.value] = before ++ record ∧
      (field.isFresh → front = [] → text = []) ∧
      scan delimiter before .fresh line (text ++ rest) = scan delimiter front field line' rest := by
  induction spelled generalizing before line with
  | single spelled =>
    obtain ⟨field, line', ready, rfl, fresh, read⟩ := scan_fieldText unlike spelled before line ended
    exact ⟨before, field, line', ready, rfl, fun none _ => fresh none, read⟩
  | @cons text others value record spelled more ih =>
    have marked : (delimiter :: (others ++ rest)).head? ≠ some '"' := by simpa using unlike
    obtain ⟨field, line', ready, rfl, -, read⟩ := scan_fieldText unlike spelled before line marked
    obtain ⟨front, last, line'', ready', values, -, read'⟩ := ih (before ++ [field.value]) line'
    refine ⟨front, last, line'', ready', ?_, ?_, ?_⟩
    · rw [values, List.append_assoc, List.singleton_append]
    · -- a record of several fields has something in front of the last one
      rintro - rfl
      have positive := List.length_pos_iff.mpr more.ne_nil
      have lengths := congrArg List.length values
      simp only [List.nil_append, List.length_append, List.length_singleton] at lengths
      omega
    · rw [List.append_assoc, List.cons_append, read, scan_delimiter ready, read']

theorem LineEnd.head?_append {mark : List Char} (ended : LineEnd mark rest) :
    (mark ++ rest).head? ≠ some '"' := by
  cases ended <;> simp

/-- The records of a document are read. -/
theorem Document.scan (h : Document delimiter text records) (unlike : delimiter ≠ '"')
    (feed : delimiter ≠ '\n')
    (turn : delimiter ≠ '\r') (line : Nat) : scan delimiter [] .fresh line text = .ok records := by
  induction h generalizing line with
  | empty => rfl
  | @unended text record spelled some_text =>
    have ended : ([] : List Char).head? ≠ some '"' := by simp
    obtain ⟨front, field, line', ready, values, fresh, read⟩ := scan_recordText unlike spelled [] line ended
    have begun : (field.isFresh && front.isEmpty) = false := by
      rw [Bool.and_eq_false_iff]
      by_cases none : field.isFresh
      · exact .inr (by simpa using fun flat => some_text (fresh none flat))
      · exact .inl (by simpa using none)
    rw [List.append_nil, List.nil_append] at *
    rw [read, ← values]
    cases field with
    | inQuotes => exact ready.elim
    | _ => simp [Csv.scan, begun]
  | @cons text mark rest record records spelled ended _ ih =>
    obtain ⟨front, field, line', ready, values, -, read⟩ :=
      scan_recordText unlike spelled [] line ended.head?_append
    rw [List.append_assoc, read, scan_lineEnd ready feed turn ended, ih, values]
    rfl

/-! ### Whatever is read is a document -/

/-- The text that the present field has been read from. -/
def Field.spelled : Field → List Char
  | .fresh => []
  | .bare seen => seen.reverse
  | .inQuotes seen => '"' :: seen.reverse.flatMap fun c => if c = '"' then ['"', '"'] else [c]
  | .closed seen => quoted seen.reverse

/-- A field that is being read without quotes has begun and is plain. -/
def Field.Sound (delimiter : Char) : Field → Prop
  | .bare seen => seen ≠ [] ∧ ∀ c ∈ seen, Plain delimiter c
  | _ => True

theorem Field.Sound.fieldText (sound : field.Sound delimiter) (ready : field.Ready) :
    FieldText delimiter field.spelled field.value := by
  cases field with
  | fresh => exact .null
  | bare seen =>
    obtain ⟨some_text, plain⟩ := sound
    exact .bare (by simpa [Field.spelled] using some_text) fun c mem => plain c (List.mem_reverse.mp mem)
  | inQuotes => exact ready.elim
  | closed seen => exact .quoted seen.reverse

theorem Field.Sound.spelled_eq_nil (sound : field.Sound delimiter) : field.spelled = [] ↔ field.isFresh := by
  cases field with
  | bare seen => simpa [Field.spelled, Field.isFresh] using sound.1
  | _ => simp [Field.spelled, Field.isFresh, quoted]

/-- The texts of the first fields of a record, each with a delimiter behind it. -/
inductive Front (delimiter : Char) : List Char → Record → Prop
  | nil : Front delimiter [] []
  | snoc {text more : List Char} {record : Record} {value : Option (List Char)}
      (front : Front delimiter text record)
      (field : FieldText delimiter more value) :
      Front delimiter (text ++ more ++ [delimiter]) (record ++ [value])

/-- Fields in front of a record make a longer one. -/
theorem Front.append (front : Front delimiter text before) (spelled : RecordText delimiter rest record) :
    RecordText delimiter (text ++ rest) (before ++ record) := by
  induction front generalizing rest record with
  | nil => exact spelled
  | snoc _ field ih => simpa using ih (.cons field spelled)

theorem Front.eq_nil_iff (front : Front delimiter text before) : text = [] ↔ before = [] := by
  cases front <;> simp

/-- What has been read of the present record: the fields in front, and a part of the present one. -/
def Begun (delimiter : Char) (before : Record) (field : Field) (text : List Char) : Prop :=
  field.Sound delimiter ∧ ∃ front, Front delimiter front before ∧ text = front ++ field.spelled

namespace Begun

theorem start (delimiter : Char) : Begun delimiter [] .fresh [] := ⟨trivial, [], .nil, rfl⟩

/-- More of the present field is read. -/
theorem more {next : Field} {part : List Char} (begun : Begun delimiter before field text)
    (sound : next.Sound delimiter)
    (longer : next.spelled = field.spelled ++ part) : Begun delimiter before next (text ++ part) := by
  obtain ⟨-, front, fields, rfl⟩ := begun
  exact ⟨sound, front, fields, by rw [longer, List.append_assoc]⟩

/-- A delimiter ends the present field. -/
theorem mark (begun : Begun delimiter before field text) (ready : field.Ready) :
    Begun delimiter (before ++ [field.value]) .fresh (text ++ [delimiter]) := by
  obtain ⟨sound, front, fields, rfl⟩ := begun
  exact ⟨trivial, _, fields.snoc (sound.fieldText ready), by simp [Field.spelled]⟩

/-- What has been read is the text of a record, if it ends here. -/
theorem recordText (begun : Begun delimiter before field text) (ready : field.Ready) :
    RecordText delimiter text (before ++ [field.value]) := by
  obtain ⟨sound, front, fields, rfl⟩ := begun
  exact fields.append (.single (sound.fieldText ready))

/-- Nothing has been read before the first character of a record. -/
theorem eq_nil_iff (begun : Begun delimiter before field text) :
    text = [] ↔ (field.isFresh && before.isEmpty) = true := by
  obtain ⟨sound, front, fields, rfl⟩ := begun
  rw [List.append_eq_nil_iff, fields.eq_nil_iff, sound.spelled_eq_nil, Bool.and_eq_true,
    List.isEmpty_iff, and_comm]

/-- The end of a line closes the record, and a document follows. -/
theorem cons {mark : List Char} {read : Except FormatFault (List Record)}
    (begun : Begun delimiter before field text) (ready : field.Ready) (ended : LineEnd mark rest)
    (later : ∀ records, read = .ok records → Document delimiter rest records)
    (all : read.map ((before ++ [field.value]) :: ·) = .ok records) :
    Document delimiter (text ++ (mark ++ rest)) records := by
  cases read with
  | error fault => cases all
  | ok others =>
    cases all
    rw [← List.append_assoc]
    exact .cons (begun.recordText ready) ended (later others rfl)

/-- Whatever the reader makes of the rest, it makes of a document that begins with what it has read. -/
theorem document (begun : Begun delimiter before field text)
    (read : scan delimiter before field line rest = .ok records) :
    Document delimiter (text ++ rest) records := by
  fun_induction scan delimiter before field line rest generalizing text records with
  | case1 => cases read
  | case2 before field line apart =>
    have spelled := begun.recordText (Field.ready_of_ne apart)
    rw [List.append_nil]
    split at read
    · next none =>
      obtain rfl := begun.eq_nil_iff.mpr none
      cases read
      exact .empty
    · next begins =>
      cases read
      exact .unended spelled fun none => begins (begun.eq_nil_iff.mp none)
  | case3 before seen line rest ih =>
    rw [List.append_cons, List.append_cons, List.append_assoc text]
    exact ih (begun.more trivial (by simp [Field.spelled])) read
  | case4 before seen line rest _ ih =>
    rw [List.append_cons]
    exact ih (begun.more trivial (by simp [Field.spelled, quoted])) read
  | case5 before seen line c rest _ other ih =>
    rw [List.append_cons]
    exact ih (begun.more trivial (by simp [Field.spelled, other])) read
  | case6 before field line rest apart _ ih =>
    rw [List.append_cons]
    exact ih (begun.mark (Field.ready_of_ne apart)) read
  | case7 before field line rest apart _ _ ih =>
    exact begun.cons (Field.ready_of_ne apart) (.feed rest) (fun _ => ih (start delimiter)) read
  | case8 before field line apart rest _ _ _ ih =>
    exact begun.cons (Field.ready_of_ne apart) (.both rest) (fun _ => ih (start delimiter)) read
  | case9 before field line apart rest alone _ _ _ ih =>
    have alone : rest.head? ≠ some '\n' := by
      intro feed
      obtain ⟨later, rfl⟩ := List.head?_eq_some_iff.mp feed
      exact alone later rfl
    exact begun.cons (Field.ready_of_ne apart) (.turn alone) (fun _ => ih (start delimiter)) read
  | case10 before line rest _ _ _ _ _ ih =>
    rw [List.append_cons]
    exact ih (begun.more trivial (by simp [Field.spelled])) read
  | case11 before line c rest mark feed turn quote _ _ ih =>
    rw [List.append_cons]
    exact ih (begun.more ⟨by simp, by simpa using ⟨mark, quote, feed, turn⟩⟩ (by simp [Field.spelled])) read
  | case12 => cases read
  | case13 before line c rest mark feed turn seen quote _ _ ih =>
    rw [List.append_cons]
    have plain : ∀ d ∈ c :: seen, Plain delimiter d := by
      intro d mem
      rcases List.mem_cons.mp mem with rfl | mem
      · exact ⟨mark, quote, feed, turn⟩
      · exact begun.1.2 d mem
    exact ih (begun.more ⟨by simp, plain⟩ (by simp [Field.spelled])) read
  | case14 => cases read

end Begun

/-- The reader accepts a text exactly if it is a document, and gives the only records of which the
    document can be said to consist. -/
theorem parseRecords_iff_document (unlike : delimiter ≠ '"') (turn : delimiter ≠ '\r')
    (feed : delimiter ≠ '\n') (text : List Char) :
    ((∃ records, parseRecords delimiter text = .ok records) ↔ ∃ records, Document delimiter text records) ∧
      ∀ records, parseRecords delimiter text = .ok records →
        ∀ others, Document delimiter text others ↔ others = records := by
  have complete : ∀ records, Document delimiter text records → parseRecords delimiter text = .ok records :=
    fun _ document => document.scan unlike feed turn 1
  have sound : ∀ records, parseRecords delimiter text = .ok records → Document delimiter text records :=
    fun _ read => (Begun.start delimiter).document read
  refine ⟨⟨?_, ?_⟩, ?_⟩
  · rintro ⟨records, read⟩
    exact ⟨records, sound records read⟩
  · rintro ⟨records, document⟩
    exact ⟨records, complete records document⟩
  · intro records read others
    constructor
    · intro document
      exact Except.ok.inj ((complete others document).symm.trans read)
    · rintro rfl
      exact sound others read

/-- A quote and a line feed inside quotes, a null field at the end of a record, a carriage return that
    belongs to a line feed and one that ends a record without any text, and no end of the last line. -/
theorem parseRecords_iff_document_mixed :
    let text := ['a', ',', '"', 'b', '"', '"', '\n', '"', ',', '\r', '\n', '\r', '"', '"']
    let records := [[some ['a'], some ['b', '"', '\n'], none], [none], [some []]]
    parseRecords ',' text = .ok records ∧ ∀ others, Document ',' text others ↔ others = records := by
  intro text records
  have read : parseRecords ',' text = .ok records := by cbv
  exact ⟨read, (parseRecords_iff_document (by decide) (by decide) (by decide) text).2 records read⟩

end LiveTable.Csv
