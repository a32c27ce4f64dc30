import LiveTable.Format.Xml.Text

/-! Text in XML is read as it was written.  A character is written as it is or as a reference that stands
    for it, so reading takes the written forms back one after the other; and as marks are never written
    as they are, none of them stands in a written text, whichever it has to be kept apart from.  Texts
    may as well be written by replacing one mark after the other throughout, if the one that begins
    references comes first: no later replacement then finds its mark in a reference. -/

namespace LiveTable.Xml

variable {c mark : Char} {t rest : List Char}

/-- The first place where a mark stands is behind the text without it. -/
theorem cut_singleton (free : mark ∉ t) (rest : List Char) :
    cut [mark] (t ++ mark :: rest) = some (t, rest) := by
  induction t with
  | nil =>
    rw [List.nil_append, cut]
    simp
  | cons c t ih =>
    obtain ⟨other, free⟩ := not_or.mp (mt List.mem_cons.mpr free)
    rw [List.cons_append, cut, ih free]
    simp [other]

/-! ### Escapes -/

/-- The characters that are written as references. -/
def marks : List Char := ['&', '<', '>', '"', '\'', '\r']

/-- A character is written as itself, or as a reference that stands for it. -/
theorem escapeChar_cases (c : Char) :
    (c ∉ marks ∧ escapeChar c = [c]) ∨
      ∃ name, escapeChar c = '&' :: (name ++ [';']) ∧ name.all (· ∉ ';' :: marks) ∧
        entity? name = some c := by
  by_cases mark : c ∈ marks
  · refine .inr ?_
    simp only [marks, List.mem_cons, List.not_mem_nil, or_false] at mark
    rcases mark with rfl | rfl | rfl | rfl | rfl | rfl
    · exact ⟨"amp".toList, rfl, by decide, rfl⟩
    · exact ⟨"lt".toList, rfl, by decide, rfl⟩
    · exact ⟨"gt".toList, rfl, by decide, rfl⟩
    · exact ⟨"quot".toList, rfl, by decide, rfl⟩
    · exact ⟨"apos".toList, rfl, by decide, rfl⟩
    · exact ⟨"#13".toList, rfl, by decide, rfl⟩
  · refine .inl ⟨mark, ?_⟩
    simp only [marks, List.mem_cons, List.not_mem_nil, or_false, not_or] at mark
    simp [escapeChar, mark]

/-- The name of a reference is free of marks and of what ends it. -/
theorem not_mem_name {name : List Char} (free : name.all (· ∉ ';' :: marks)) (special : mark ∈ ';' :: marks) :
    mark ∉ name :=
  fun mem => of_decide_eq_true (List.all_eq_true.mp free mark mem) special

@[simp] theorem escape_nil : escape [] = [] := rfl

theorem escape_cons (c : Char) (text : List Char) : escape (c :: text) = escapeChar c ++ escape text :=
  List.flatMap_cons

theorem escapeChar_ne_nil (c : Char) : escapeChar c ≠ [] := by
  rcases escapeChar_cases c with ⟨-, plain⟩ | ⟨name, reference, -, -⟩
  · exact plain ▸ List.cons_ne_nil _ _
  · exact reference ▸ List.cons_ne_nil _ _

theorem escape_eq_nil {text : List Char} : escape text = [] ↔ text = [] := by
  cases text with
  | nil => simp
  | cons c text => simp [escape_cons, escapeChar_ne_nil]

/-- But for the one that begins references, no mark stands in a written text. -/
theorem not_mem_escape (special : mark ∈ marks) (other : mark ≠ '&') (text : List Char) :
    mark ∉ escape text := by
  intro mem
  obtain ⟨c, -, mem⟩ := List.mem_flatMap.mp mem
  rcases escapeChar_cases c with ⟨plain, written⟩ | ⟨name, written, free, -⟩
  · rw [written, List.mem_singleton] at mem
    exact plain (mem ▸ special)
  · rw [written] at mem
    rcases List.mem_cons.mp mem with amp | mem
    · exact other amp
    · rcases List.mem_append.mp mem with inside | closing
      · exact not_mem_name free (List.mem_cons_of_mem _ special) inside
      · rw [List.mem_singleton.mp closing] at special
        exact absurd special (by decide)

/-- A written text is the written forms of its parts, one behind the other. -/
theorem escape_append (s t : List Char) : escape (s ++ t) = escape s ++ escape t := List.flatMap_append

/-- In the written form of a character a reference can begin only at the front. -/
theorem of_escapeChar_eq_append {before more : List Char} (written : escapeChar c = before ++ '&' :: more) :
    before = [] ∧ ∃ name, more = name ++ [';'] ∧ name.all (· ∉ ';' :: marks) ∧ entity? name = some c := by
  rcases escapeChar_cases c with ⟨plain, itself⟩ | ⟨name, reference, free, stands⟩
  · rw [itself] at written
    have amp : '&' ∈ [c] := written ▸ List.mem_append_right before List.mem_cons_self
    exact absurd (List.mem_singleton.mp amp ▸ List.mem_cons_self) plain
  · rw [reference] at written
    cases before with
    | nil =>
      obtain ⟨-, rfl⟩ := List.cons.inj written
      exact ⟨rfl, name, rfl, free, stands⟩
    | cons d before =>
      have amp : '&' ∈ name ++ [';'] := by simp [(List.cons.inj written).2]
      rcases List.mem_append.mp amp with inside | closing
      · exact absurd inside (not_mem_name free (by decide))
      · exact absurd (List.mem_singleton.mp closing) (by decide)

/-- Where a reference begins in a written text, the text has the character that it stands for: what is in
    front is the written form of what the text has in front of the character, and a name without marks
    and a semicolon part it from the written form of what the text has behind. -/
theorem exists_reference {text before behind : List Char} (written : escape text = before ++ '&' :: behind) :
    ∃ s c t name, text = s ++ c :: t ∧ before = escape s ∧ behind = name ++ ';' :: escape t ∧
      name.all (· ∉ ';' :: marks) ∧ entity? name = some c := by
  induction text generalizing before with
  | nil => simp at written
  | cons c text ih =>
    rw [escape_cons] at written
    rcases List.append_eq_append_iff.mp written with ⟨more, rfl, later⟩ | ⟨more, own, later⟩
    · obtain ⟨s, d, t, name, rfl, rfl, rest⟩ := ih later
      exact ⟨c :: s, d, t, name, rfl, (escape_cons c s).symm, rest⟩
    · -- the written form of the first character ends where the reference begins, or the reference is its own
      cases more with
      | nil =>
        have next : escape text = [] ++ '&' :: behind := later.symm
        obtain ⟨s, d, t, name, rfl, front, rest⟩ := ih next
        refine ⟨c :: s, d, t, name, rfl, ?_, rest⟩
        rw [escape_cons, ← front, own, List.append_nil, List.append_nil]
      | cons d more =>
        obtain ⟨rfl, rfl⟩ := List.cons.inj later
        obtain ⟨rfl, name, rfl, free, stands⟩ := of_escapeChar_eq_append own
        exact ⟨[], c, text, name, rfl, rfl, by simp, free, stands⟩

/-! ### One mark after the other -/

/-- The marks and their references, the mark that begins references first. -/
def references : List (Char × List Char) :=
  [('&', "&amp;".toList), ('<', "&lt;".toList), ('>', "&gt;".toList), ('"', "&quot;".toList),
    ('\'', "&apos;".toList), ('\r', "&#13;".toList)]

/-- Replaces a mark by its reference throughout a text. -/
def replaceMark (text : List Char) (r : Char × List Char) : List Char :=
  text.flatMap fun c => if c = r.1 then r.2 else [c]

/-- Replacements work on each character apart, whatever it has become by those before. -/
theorem foldl_replaceMark_flatMap (rs : List (Char × List Char)) (f : Char → List Char) (text : List Char) :
    rs.foldl replaceMark (text.flatMap f) = text.flatMap fun c => rs.foldl replaceMark (f c) := by
  induction rs generalizing f with
  | nil => rfl
  | cons r rs ih =>
    rw [List.foldl_cons, replaceMark, List.flatMap_assoc, ih]
    rfl

/-- A reference has no mark but the first, and so it is kept by the replacements that come behind its own. -/
theorem foldl_replaceMark_singleton (c : Char) : references.foldl replaceMark [c] = escapeChar c := by
  by_cases mark : c ∈ marks
  · simp only [marks, List.mem_cons, List.not_mem_nil, or_false] at mark
    rcases mark with rfl | rfl | rfl | rfl | rfl | rfl <;> decide
  · simp only [marks, List.mem_cons, List.not_mem_nil, or_false, not_or] at mark
    simp [references, replaceMark, escapeChar, mark]

/-- Writing a text at once is replacing its marks one after the other. -/
theorem escape_eq_foldl (text : List Char) : escape text = references.foldl replaceMark text := by
  calc escape text = text.flatMap fun c => references.foldl replaceMark [c] :=
        congrArg text.flatMap (funext fun c => (foldl_replaceMark_singleton c).symm)
    _ = references.foldl replaceMark (text.flatMap fun c => [c]) := (foldl_replaceMark_flatMap ..).symm
    _ = references.foldl replaceMark text := by rw [List.flatMap_singleton']

/-! ### Reading -/

/-- A reference is read as the character that it stands for. -/
theorem unescape_reference {name : List Char} (free : ';' ∉ name) (stands : entity? name = some c) :
    unescape ('&' :: (name ++ ';' :: rest)) = (unescape rest).map (c :: ·) := by
  rw [unescape, if_pos rfl]
  split
  · next none => rw [cut_singleton free] at none; cases none
  · next found =>
    obtain ⟨rfl, rfl⟩ := Prod.mk.inj (Option.some.inj ((cut_singleton free rest).symm.trans found))
    rw [stands]

theorem unescape_escapeChar (c : Char) (rest : List Char) :
    unescape (escapeChar c ++ rest) = (unescape rest).map (c :: ·) := by
  rcases escapeChar_cases c with ⟨plain, written⟩ | ⟨name, written, free, stands⟩
  · have other : c ≠ '&' := by
      rintro rfl
      exact plain List.mem_cons_self
    rw [written, List.singleton_append, unescape, if_neg other]
  · have apart : ';' ∉ name := not_mem_name free List.mem_cons_self
    rw [written, List.cons_append, List.append_assoc, List.singleton_append, unescape_reference apart stands]

/-- A written text is read as the text. -/
theorem unescape_escape (text : List Char) : unescape (escape text) = .ok text := by
  induction text with
  | nil => rw [escape_nil, unescape]
  | cons c text ih =>
    rw [escape_cons, unescape_escapeChar, ih]
    rfl

/-- Text is written faithfully.  No mark stands in a written text as it is but the one that begins
    references, and each of these begins a reference, ended by a semicolon, that stands for the character
    of the text in that place; a written text is read as the text; two texts are written one behind the
    other; and writing is replacing the six marks by their references one after the other, each
    throughout the text that the ones before have left. -/
theorem escape_faithful (s t : List Char) :
    (∀ mark ∈ ['<', '>', '"', '\'', '\r'], mark ∉ escape s) ∧
      (∀ before behind, escape s = before ++ '&' :: behind →
        ∃ u c v name, s = u ++ c :: v ∧ before = escape u ∧ behind = name ++ ';' :: escape v ∧
          name.all (· ∉ ';' :: marks) ∧ entity? name = some c) ∧
      unescape (escape s) = .ok s ∧
      escape (s ++ t) = escape s ++ escape t ∧
      escape s = references.foldl replaceMark s := by
  refine ⟨fun mark mem => ?_, fun before behind => exists_reference, unescape_escape s, escape_append s t,
    escape_eq_foldl s⟩
  have special : mark ∈ marks := List.mem_cons_of_mem '&' mem
  have other : mark ≠ '&' := fun amp => absurd (amp ▸ mem) (by decide)
  exact not_mem_escape special other s

/-- A text that already looks like written text: its own `&` is written as a reference, and the rest of
    what looked like one follows as it is. -/
theorem escape_faithful_lookalike :
    '<' ∉ escape "&lt;\r<".toList ∧
      escape "&lt;\r<".toList = "&amp;lt;".toList ++ '&' :: "#13;&lt;".toList ∧
      ∃ u c v name, "&lt;\r<".toList = u ++ c :: v ∧ "&amp;lt;".toList = escape u ∧
        "#13;&lt;".toList = name ++ ';' :: escape v ∧ name.all (· ∉ ';' :: marks) ∧
          entity? name = some c := by
  obtain ⟨unmarked, begins, -⟩ := escape_faithful "&lt;\r<".toList []
  have written : escape "&lt;\r<".toList = "&amp;lt;".toList ++ '&' :: "#13;&lt;".toList := by decide
  exact ⟨unmarked '<' (by decide), written, begins _ _ written⟩

end LiveTable.Xml
