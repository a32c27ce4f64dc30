import LiveTable.Format.Document
import LiveTable.Proofs.Format.Xml.Pieces

/-! References that cannot be read.  They are refused where the text is cut into tokens, all of them at
    the line where their token begins: the line of a reference itself is reported if no line feed stands
    before it in its token. -/

namespace LiveTable

/-- The defects of references. -/
def Defect.OfReference : Defect → Prop
  | .openEntity => True
  | .unknownEntity _ => True
  | _ => False

/-- The faults that report one. -/
def FormatFault.OfReference : FormatFault → Prop
  | .line _ _ defect => defect.OfReference
  | _ => False

namespace Xml

variable {t text rest : List Char} {d : Defect} {line : Nat} {format : Format}

theorem of_map_eq_error {ε β γ : Type} {x : Except ε β} {f : β → γ} {e : ε} (refused : x.map f = .error e) :
    x = .error e := by
  cases x with
  | error fault => exact congrArg Except.error (Except.error.inj refused)
  | ok b => cases refused

/-! ### Texts -/

/-- All references of a text can be read. -/
def Readable (t : List Char) : Prop := ∃ u, unescape t = .ok u

/-- What stands behind the mark of a reference that cannot be read, and why it cannot: no semicolon, or
    in front of the first one a name that stands for no character. -/
inductive Faulty : Defect → List Char → Prop where
  | openEntity {tail : List Char} (free : ';' ∉ tail) : Faulty .openEntity tail
  | unknownEntity {name : List Char} (free : ';' ∉ name) (unknown : entity? name = none) (rest : List Char) :
      Faulty (.unknownEntity name) (name ++ ';' :: rest)

/-- A text is refused for its first reference that cannot be read. -/
theorem unescape_eq_error {t : List Char} (refused : unescape t = .error d) :
    ∃ front tail, t = front ++ '&' :: tail ∧ Readable front ∧ Faulty d tail := by
  match t with
  | [] =>
    rw [unescape] at refused
    cases refused
  | c :: rest =>
    rw [unescape] at refused
    split at refused
    · next mark =>
      subst mark
      split at refused
      · next uncut =>
        obtain rfl := Except.error.inj refused
        exact ⟨[], rest, rfl, ⟨[], by rw [unescape]⟩, .openEntity (not_mem_of_cut_singleton uncut)⟩
      · next name behind found =>
        obtain ⟨rfl, free⟩ := cut_singleton_eq_some found
        split at refused
        · next a stands =>
          obtain ⟨front, tail, rfl, ⟨u, readable⟩, faulty⟩ := unescape_eq_error (of_map_eq_error refused)
          refine ⟨'&' :: (name ++ ';' :: front), tail, by simp, ⟨a :: u, ?_⟩, faulty⟩
          rw [unescape_reference free stands, readable]
          rfl
        · next unknown =>
          obtain rfl := Except.error.inj refused
          exact ⟨[], name ++ ';' :: behind, rfl, ⟨[], by rw [unescape]⟩, .unknownEntity free unknown behind⟩
    · next other =>
      obtain ⟨front, tail, rfl, ⟨u, readable⟩, faulty⟩ := unescape_eq_error (of_map_eq_error refused)
      refine ⟨c :: front, tail, rfl, ⟨c :: u, ?_⟩, faulty⟩
      rw [unescape, if_neg other, readable]
      rfl
termination_by t.length
decreasing_by
  all_goals simp_all
  omega

/-! ### Attributes -/

/-- The part of a start tag behind the name and before the value of one of its attributes: attributes
    that can be read, and the beginning of one. -/
structure UpToValue (element : List Char) (quote : Char) (earlier opening : List Char) : Prop where
  readable : ∃ as, attributes element earlier = .ok as
  opening : ∃ key gap, opening = key ++ '=' :: (gap ++ [quote]) ∧ '=' ∉ key ∧ ∀ c ∈ gap, Text.isBlankChar c
  quotes : quote = '"' ∨ quote = '\''

theorem exists_blanks (t : List Char) :
    ∃ blanks, t = blanks ++ Text.trimStart t ∧ ∀ c ∈ blanks, Text.isBlankChar c :=
  ⟨t.takeWhile Text.isBlankChar, List.takeWhile_append_dropWhile.symm, fun _ => List.mem_takeWhile_imp⟩

/-- The part of a text behind blanks does not begin with a blank. -/
theorem trimStart_of_append {u : List Char} (whole : Text.trimStart text = t ++ u) :
    Text.trimStart t = t := by
  cases t with
  | nil => rfl
  | cons c t =>
    refine trimStart_cons ?_
    have visible := List.head?_dropWhile_not Text.isBlankChar text
    rw [show text.dropWhile Text.isBlankChar = c :: t ++ u from whole] at visible
    simpa using visible

/-- Attributes that are refused for a reference begin with one that is whole, and it is refused or those
    behind it are. -/
theorem attributes_cons_eq_error {element : List Char} {c : Char}
    (refused : attributes element (c :: rest) = .error d) (reference : d.OfReference) :
    ∃ opening quote raw further, c :: rest = opening ++ raw ++ quote :: further ∧
      UpToValue element quote [] opening ∧ quote ∉ raw ∧
      (unescape raw = .error d ∨ Readable raw ∧ attributes element (Text.trimStart further) = .error d) := by
  rw [attributes] at refused
  split at refused
  · obtain rfl := Except.error.inj refused
    cases reference
  · next key behind equals =>
    obtain ⟨whole, free⟩ := cut_singleton_eq_some equals
    obtain ⟨gap, spaced, blank⟩ := exists_blanks behind
    split at refused
    · obtain rfl := Except.error.inj refused
      cases reference
    · next quote inside opens =>
      rw [opens] at spaced
      split at refused
      · next marked =>
        have quotes : quote = '"' ∨ quote = '\'' := by simpa using marked
        split at refused
        · obtain rfl := Except.error.inj refused
          cases reference
        · next raw further close =>
          obtain ⟨rfl, closes⟩ := cut_singleton_eq_some close
          refine ⟨key ++ '=' :: (gap ++ [quote]), quote, raw, further, ?_, ?_, closes, ?_⟩
          · rw [whole, spaced]
            simp
          · exact ⟨⟨[], by rw [attributes]⟩, ⟨key, gap, rfl, free, blank⟩, quotes⟩
          · split at refused
            · next fault unread => exact .inl (Except.error.inj refused ▸ unread)
            · next value read => exact .inr ⟨⟨value, read⟩, of_map_eq_error refused⟩
      · obtain rfl := Except.error.inj refused
        cases reference

/-- A readable attribute in front of readable ones. -/
theorem attributes_append_readable {element opening raw blanks earlier : List Char} {quote : Char}
    (opens : UpToValue element quote [] opening) (closes : quote ∉ raw) (read : Readable raw)
    (blank : ∀ c ∈ blanks, Text.isBlankChar c) (trimmed : Text.trimStart earlier = earlier)
    (known : ∃ as, attributes element earlier = .ok as) :
    ∃ as, attributes element (opening ++ raw ++ quote :: (blanks ++ earlier)) = .ok as := by
  obtain ⟨-, ⟨key, gap, rfl, free, spaces⟩, quotes⟩ := opens
  obtain ⟨value, read⟩ := read
  obtain ⟨as, known⟩ := known
  refine ⟨(Text.trim key, value) :: as, ?_⟩
  have whole : key ++ '=' :: (gap ++ [quote]) ++ raw ++ quote :: (blanks ++ earlier) =
      key ++ '=' :: (gap ++ quote :: (raw ++ quote :: (blanks ++ earlier))) := by simp
  rw [whole, attributes_cons element free spaces quotes closes read, trimStart_append blank, trimmed, known]
  rfl

/-- Attributes are refused for the first reference in a value that cannot be read, if for a reference. -/
theorem attributes_eq_error {element t : List Char} (refused : attributes element t = .error d)
    (reference : d.OfReference) :
    ∃ earlier opening quote front tail rest,
      t = earlier ++ opening ++ (front ++ '&' :: tail) ++ quote :: rest ∧
      UpToValue element quote earlier opening ∧ quote ∉ front ++ '&' :: tail ∧ Readable front ∧
      Faulty d tail := by
  match t with
  | [] =>
    rw [attributes] at refused
    cases refused
  | c :: rest =>
    obtain ⟨opening, quote, raw, further, whole, opens, closes, unread | ⟨read, later⟩⟩ :=
      attributes_cons_eq_error refused reference
    · obtain ⟨front, tail, rfl, readable, faulty⟩ := unescape_eq_error unread
      exact ⟨[], opening, quote, front, tail, further, whole, opens, closes, readable, faulty⟩
    · obtain ⟨blanks, apart, blank⟩ := exists_blanks further
      have shorter : (Text.trimStart further).length < (c :: rest).length := by
        have kept := length_trimStart_le further
        rw [whole]
        simp only [List.length_append, List.length_cons]
        omega
      obtain ⟨earlier, opening', quote', front, tail, rest', same, ⟨known, begins, quotes⟩, faulty⟩ :=
        attributes_eq_error later reference
      have trimmed : Text.trimStart earlier = earlier := by
        rw [List.append_assoc, List.append_assoc] at same
        exact trimStart_of_append same
      have known := attributes_append_readable opens closes read blank trimmed known
      refine ⟨_, opening', quote', front, tail, rest', ?_, ⟨known, begins, quotes⟩, faulty⟩
      rw [whole, apart, same]
      simp
termination_by t.length
decreasing_by exact shorter

/-! ### Tokens -/

/-- How a reference that cannot be read stands in a text: in a text between tags or in the value of an
    attribute, behind what is in front of it from the beginning of its token on. -/
inductive Stands (d : Defect) : List Char → List Char → Prop where
  | inText {front tail rest : List Char} (free : '<' ∉ front ++ '&' :: tail)
      (ends : ∀ c ∈ rest.head?, c = '<')
      (readable : Readable front) (faulty : Faulty d tail) : Stands d front (tail ++ rest)
  | inAttribute {name blanks earlier opening front tail rest : List Char} {quote : Char}
      (named : name ≠ [] ∧ ∀ c ∈ name, Text.isBlankChar c = false) (apart : ∀ c ∈ blanks, Text.isBlankChar c)
      (upTo : UpToValue name quote earlier opening) (closes : quote ∉ front ++ '&' :: tail)
      (readable : Readable front)
      (faulty : Faulty d tail) :
      Stands d ('<' :: (name ++ blanks ++ earlier ++ opening ++ front)) (tail ++ quote :: rest)

theorem exists_slash (body : List Char) : ∃ slash, body = (splitSlash body).1 ++ slash := by
  rw [splitSlash]
  split
  · next before turned =>
    refine ⟨['/'], ?_⟩
    rw [← List.reverse_reverse body, turned, List.reverse_cons]
  · exact ⟨[], (List.append_nil body).symm⟩

/-- A start tag that is refused for a reference. -/
theorem readStartTag_eq_error {body : List Char} (refused : readStartTag line body = .error d)
    (reference : d.OfReference) (behind : List Char) :
    ∃ inside tail, '<' :: body ++ '>' :: behind = inside ++ '&' :: tail ∧ inside.head? = some '<' ∧
      Stands d inside tail := by
  obtain ⟨slash, whole⟩ := exists_slash body
  rw [readStartTag] at refused
  generalize splitSlash body = parts at whole refused
  obtain ⟨inner, isEmpty⟩ := parts
  dsimp only at whole refused
  split at refused
  · obtain rfl := Except.error.inj refused
    cases reference
  · next named =>
    obtain ⟨earlier, opening, quote, front, tail, rest, same, upTo, closes, readable, faulty⟩ :=
      attributes_eq_error (of_map_eq_error refused) reference
    obtain ⟨blanks, apart, blank⟩ := exists_blanks (inner.dropWhile fun c => !Text.isBlankChar c)
    have split : inner = (inner.takeWhile fun c => !Text.isBlankChar c) ++
        (blanks ++ (earlier ++ opening ++ (front ++ '&' :: tail) ++ quote :: rest)) := by
      rw [← same, ← apart, List.takeWhile_append_dropWhile]
    have free : ∀ c ∈ inner.takeWhile fun c => !Text.isBlankChar c, Text.isBlankChar c = false := by
      intro c mem
      simpa using List.mem_takeWhile_imp mem
    have stands (after : List Char) : Stands d _ (tail ++ quote :: after) :=
      .inAttribute ⟨mt List.isEmpty_iff.mpr named, free⟩ blank upTo closes readable faulty
    refine ⟨_, _, ?_, rfl, stands (rest ++ slash ++ '>' :: behind)⟩
    rw [whole]
    refine (congrArg (fun inner => '<' :: (inner ++ slash) ++ '>' :: behind) split).trans ?_
    simp

theorem of_mapError_line {β : Type} {x : Except Defect β} {other : Format} {number : Nat}
    (refused : x.mapError (FormatFault.line format line) = .error (.line other number d)) :
    x = .error d ∧ other = format ∧ number = line := by
  cases x with
  | error defect =>
    cases refused
    exact ⟨rfl, rfl, rfl⟩
  | ok b => cases refused

/-- A chunk that is refused for a reference: it is text or a start tag. -/
theorem ofChunk_eq_error {c : Char} {chunk : Chunk} {other : Format} {number : Nat}
    (begins : (firstPiece line c rest).chunk = some chunk)
    (refused : Token.ofChunk format chunk = .error (.line other number d)) (reference : d.OfReference) :
    other = format ∧ number = line ∧ ∃ inside tail, c :: rest = inside ++ '&' :: tail ∧
      (c = '<' → inside.head? = some '<') ∧ Stands d inside tail := by
  have cuts := cutsOff_firstPiece line c rest
  generalize firstPiece line c rest = piece at begins cuts
  generalize whole : c :: rest = text at cuts
  cases cuts with
  | skipped => cases begins
  | endTag =>
    obtain rfl := Option.some.inj begins
    cases refused
  | @startTag body behind =>
    obtain rfl := Option.some.inj begins
    obtain ⟨unread, rfl, rfl⟩ := of_mapError_line refused
    obtain ⟨inside, tail, same, head, stands⟩ := readStartTag_eq_error unread reference behind
    exact ⟨rfl, rfl, inside, tail, same, fun _ => head, stands⟩
  | @text c' t behind free ends =>
    obtain rfl := Option.some.inj begins
    obtain ⟨unread, rfl, rfl⟩ := of_mapError_line refused
    obtain ⟨front, tail, same, readable, faulty⟩ := unescape_eq_error (of_map_eq_error unread)
    obtain ⟨rfl, -⟩ := List.cons.inj whole
    refine ⟨rfl, rfl, front, tail ++ behind, ?_, fun tag => ?_, .inText (same ▸ free) ends readable faulty⟩
    · rw [same]
      simp
    · exact absurd (tag ▸ List.mem_cons_self) free
  | broken text unclosed =>
    obtain rfl := Option.some.inj begins
    cases refused
    rcases unclosed with rfl | rfl | ⟨mark, rfl⟩ <;> cases reference

theorem mapM_eq_error {ε β γ : Type} {f : β → Except ε γ} {e : ε} {l : List β}
    (refused : l.mapM f = .error e) :
    ∃ front b later ys, l = front ++ b :: later ∧ front.mapM f = .ok ys ∧ f b = .error e := by
  induction l with
  | nil => cases refused
  | cons b l ih =>
    rw [List.mapM_cons] at refused
    cases first : f b with
    | error fault =>
      rw [first] at refused
      obtain rfl := Except.error.inj refused
      exact ⟨[], b, l, [], rfl, rfl, first⟩
    | ok y =>
      rw [first] at refused
      cases others : l.mapM f with
      | error fault =>
        rw [others] at refused
        obtain rfl := Except.error.inj refused
        obtain ⟨front, b', later, ys, rfl, read, failed⟩ := ih others
        refine ⟨b :: front, b', later, y :: ys, rfl, ?_, failed⟩
        rw [List.mapM_cons, first, read]
        rfl
      | ok ys =>
        rw [others] at refused
        cases refused

/-- Where a reference stands that a text is refused for: the text before its token is read, and the
    number that is reported is the line where the token begins. -/
structure Refers (format : Format) (d : Defect) (text : List Char) (number : Nat)
    (before inside behind : List Char) : Prop where
  whole : text = before ++ inside ++ '&' :: behind
  read : ∃ ts, tokens format before = .ok ts
  boundary : before = [] ∨ before.getLast? = some '>' ∨ inside.head? = some '<'
  stands : Stands d inside behind
  number : number = 1 + lineFeeds before

/-- The line of a reference is that of its token if no line feed stands between the two. -/
theorem Refers.number_eq_iff {before inside behind : List Char} {number : Nat}
    (refers : Refers format d text number before inside behind) :
    number = 1 + lineFeeds (before ++ inside) ↔ '\n' ∉ inside := by
  rw [refers.number, lineFeeds_append, ← List.count_eq_zero, lineFeeds]
  show _ = 1 + (_ + inside.count '\n') ↔ _
  omega

/-- A text whose tokens are refused for a reference. -/
theorem tokens_eq_error {other : Format} {number : Nat}
    (refused : tokens format text = .error (.line other number d)) (reference : d.OfReference) :
    other = format ∧ ∃ before inside behind, Refers format d text number before inside behind := by
  obtain ⟨front, chunk, later, ts, cuts, read, failed⟩ := mapM_eq_error refused
  obtain ⟨before, c, rest, begins⟩ := exists_begins cuts
  obtain ⟨rfl, rfl, inside, behind, same, tag, stands⟩ := ofChunk_eq_error begins.cut failed reference
  refine ⟨rfl, before, inside, behind, ?_, ⟨ts, ?_⟩, begins.boundary.imp_right (Or.imp_right tag),
    stands, rfl⟩
  · rw [begins.whole, same, List.append_assoc]
  · rw [tokens, begins.front]
    exact read

/-! ### Readers -/

/-- Nothing is refused here for a reference. -/
def Tame {β : Type} (x : Except FormatFault β) : Prop := ∀ fault, x = .error fault → ¬fault.OfReference

namespace Tame

variable {β γ : Type}

theorem ok (b : β) : Tame (.ok b) := nofun

theorem error {fault : FormatFault} (other : ¬fault.OfReference) :
    Tame (.error fault : Except FormatFault β) := by
  intro fault' same
  obtain rfl := Except.error.inj same
  exact other

theorem bind {x : Except FormatFault β} {f : β → Except FormatFault γ} (first : Tame x)
    (later : ∀ b, Tame (f b)) : Tame (x >>= f) := by
  intro fault refused
  cases read : x with
  | error fault' =>
    rw [read] at refused
    obtain rfl := Except.error.inj refused
    exact first _ read
  | ok b =>
    rw [read] at refused
    exact later b fault refused

theorem foldlM {f : β → γ → Except FormatFault β} (each : ∀ b c, Tame (f b c)) (l : List γ) (b : β) :
    Tame (l.foldlM f b) := by
  induction l generalizing b with
  | nil => exact ok b
  | cons c l ih =>
    rw [List.foldlM_cons]
    exact (each b c).bind ih

theorem mapM {f : γ → Except FormatFault β} (each : ∀ c, Tame (f c)) (l : List γ) : Tame (l.mapM f) := by
  induction l with
  | nil => exact ok []
  | cons c l ih =>
    rw [List.mapM_cons]
    exact (each c).bind fun b => ih.bind fun bs => ok (b :: bs)

theorem unexpected (format : Format) (t : Token) :
    Tame (.error (Reading.unexpected format t) : Except FormatFault β) := error id

theorem stepValue (format : Format) (tag : List Char) (v : Value) (t : Token) :
    Tame (Reading.stepValue format tag v t) := by
  cases t with
  | text line part => exact ok _
  | startTag line name attributes isEmpty => exact unexpected format _
  | endTag line name =>
    rw [Reading.stepValue]
    split
    · exact ok _
    · exact unexpected format _

theorem readCell {α : Type} [Element α] (text : Option (List Char)) :
    Tame (readCell text : Except FormatFault (Option α)) := by
  rw [LiveTable.readCell.eq_def]
  split
  · exact ok _
  · split
    · exact ok _
    · exact error id

end Tame

section Readers

variable {α : Type} [Element α]

theorem Reading.tame_endRow (r : Reading α) (titles cells : List (Option (List Char))) :
    Tame (r.endRow titles cells) :=
  (Tame.mapM Tame.readCell cells).bind fun _ => .ok _

theorem Reading.tame_step (r : Reading α) (t : Token) : Tame (r.step t) := by
  rw [Reading.step.eq_def]
  split
  case h_3 | h_4 =>
    refine (Tame.stepValue _ _ _ t).bind fun read => ?_
    cases read <;> exact .ok _
  -- every other token is taken, ends a row or is unexpected
  all_goals
    repeat' split
    all_goals first
      | exact .ok _
      | exact .unexpected .xml _
      | exact tame_endRow _ _ _

omit [Element α] in
theorem Reading.tame_finish (r : Reading α) (line : Nat) : Tame (r.finish line) := by
  rw [Reading.finish.eq_def]
  split
  · exact .ok _
  all_goals exact .error id

end Readers

end Xml

namespace Xhtml

open Xml (Token Tame tokens)

variable {α : Type} [Element α]

theorem Reading.tame_endRow (r : Reading α) (which : Section) (cells : Cells) :
    Tame (r.endRow which cells) := by
  cases which with
  | head => exact .ok _
  | body => exact (Tame.mapM Tame.readCell cells.data).bind fun _ => .ok _

theorem Reading.tame_step (r : Reading α) (t : Token) : Tame (r.step t) := by
  rw [Reading.step.eq_def]
  split
  case h_3 | h_4 =>
    refine (Tame.stepValue _ _ _ t).bind fun read => ?_
    cases read <;> exact .ok _
  all_goals
    repeat' split
    all_goals first
      | exact .ok _
      | exact .unexpected .xhtml _
      | exact tame_endRow _ _ _

omit [Element α] in
theorem Reading.tame_finish (r : Reading α) (line : Nat) : Tame (r.finish line) := by
  rw [Reading.finish.eq_def]
  split
  · exact .ok _
  all_goals exact .error id

end Xhtml

namespace Format

open Xml (Tame tokens lineFeeds Refers)

variable {α : Type} [Element α] [JsonForm α]

/-- What a reader refuses for a reference is refused where the text is cut into tokens. -/
theorem tokens_eq_error_of_parse {format : Format} (markup : format = xml ∨ format = xhtml) {text : List Char}
    {inclusion : Inclusion} {fault : FormatFault}
    (refused : (format.parse text inclusion : Except FormatFault (Snapshot α)) = .error fault)
    (reference : fault.OfReference) : tokens format text = .error fault := by
  have tame {x : Except FormatFault (List Xml.Token)} {f : List Xml.Token → Except FormatFault (Snapshot α)}
      (later : ∀ ts, Tame (f ts)) (refused : (x >>= f) = .error fault) : x = .error fault := by
    cases read : x with
    | error fault' =>
      rw [read] at refused
      exact congrArg Except.error (Except.error.inj refused)
    | ok ts =>
      rw [read] at refused
      exact absurd reference (later ts fault refused)
  rcases markup with rfl | rfl
  · exact tame (fun ts => (Tame.foldlM Xml.Reading.tame_step ts {}).bind fun r => r.tame_finish _) refused
  · exact tame (fun ts => (Tame.foldlM Xhtml.Reading.tame_step ts {}).bind fun r => r.tame_finish _) refused

/-- A document of either kind of markup that is refused for a reference, unknown or without an end, in
    text or in the value of an attribute: all before the token of the reference is read, the token begins
    there, and within it the reference is the first that cannot be read.  The line that is reported is
    the one where the token begins; it is that of the reference itself if and only if no line feed stands
    in front of the reference in its token. -/
theorem read_reports_token_line {format : Format} (markup : format = xml ∨ format = xhtml) {text : String}
    {inclusion : Inclusion} {other : Format} {number : Nat} {d : Defect}
    (refused : (format.read text inclusion : Except FormatFault (Snapshot α)) = .error (.line other number d))
    (reference : d.OfReference) :
    other = format ∧ ∃ before inside behind, Refers format d text.toList number before inside behind ∧
      (number = 1 + lineFeeds (before ++ inside) ↔ '\n' ∉ inside) := by
  have parsed := Xml.of_map_eq_error refused
  obtain ⟨same, before, inside, behind, refers⟩ :=
    Xml.tokens_eq_error (tokens_eq_error_of_parse markup parsed reference) reference
  exact ⟨same, before, inside, behind, refers, refers.number_eq_iff⟩

/-- An unknown reference in a text, and one without an end in an attribute. -/
theorem read_reports_token_line_table :
    (∃ before inside behind,
      Refers .xml (.unknownEntity "bogus".toList) "<table>&bogus;</table>".toList 1 before inside behind ∧
        (1 = 1 + lineFeeds (before ++ inside) ↔ '\n' ∉ inside)) ∧
    ∃ before inside behind, Refers .xhtml .openEntity "\n<table title=\"a&b\"></table>".toList 2 before
      inside behind ∧
      (2 = 1 + lineFeeds (before ++ inside) ↔ '\n' ∉ inside) := by
  have unknown : (xml.read "<table>&bogus;</table>" {} : Except FormatFault (Snapshot String)) =
      .error (.line .xml 1 (.unknownEntity "bogus".toList)) := by decide +kernel
  have unclosed : (xhtml.read "\n<table title=\"a&b\"></table>" {} : Except FormatFault (Snapshot String)) =
      .error (.line .xhtml 2 .openEntity) := by decide +kernel
  exact ⟨(read_reports_token_line (.inl rfl) unknown trivial).2,
    (read_reports_token_line (.inr rfl) unclosed trivial).2⟩

/-- The references stand on the second line, behind a line feed in their token, and the first line is
    reported. -/
theorem read_reports_earlier_line :
    1 + lineFeeds "<table>\n".toList = 2 ∧
    (xml.read "<table>\n&bogus;</table>" {} : Except FormatFault (Snapshot String)) =
        .error (.line .xml 1 (.unknownEntity "bogus".toList)) ∧
    1 + lineFeeds "<table\ntitle=\"a".toList = 2 ∧
    (xhtml.read "<table\ntitle=\"a&b\"></table>" {} : Except FormatFault (Snapshot String)) =
        .error (.line .xhtml 1 .openEntity) := by
  decide +kernel

end Format

end LiveTable
