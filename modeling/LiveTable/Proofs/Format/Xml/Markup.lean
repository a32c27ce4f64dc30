import LiveTable.Format.Xml.Document
import LiveTable.Proofs.Format.Xml.Text

/-! Markup read as it was written.  A tag is one piece of a text whatever its attributes hold: a mark
    inside their quotes is written as a reference, so the quotes close where they should.  On that rests
    how documents are read: a text `Leads` a reader from one state to another if the reader gets there
    over it, whatever comes next, and what a document leads to is put together from what its tags, its
    texts and its values lead to. -/

namespace LiveTable.Xml

variable {c : Char} {t rest body name tag : List Char} {line : Nat} {as : List Attribute}

/-! ### Names -/

/-- A name of Latin letters. -/
def IsName (name : List Char) : Prop := name ≠ [] ∧ name.all Char.isAlpha

instance (name : List Char) : Decidable (IsName name) := inferInstanceAs (Decidable (_ ∧ _))

theorem isBlankChar_of_isAlpha (letter : c.isAlpha) : Text.isBlankChar c = false := by
  have code : (65 ≤ c.toNat ∧ c.toNat ≤ 90) ∨ (97 ≤ c.toNat ∧ c.toNat ≤ 122) := by
    rcases Bool.or_eq_true_iff.mp letter with upper | lower
    · exact .inl (of_decide_eq_true upper)
    · obtain ⟨low, high⟩ := Bool.and_eq_true_iff.mp lower
      exact .inr ⟨of_decide_eq_true low, of_decide_eq_true high⟩
  simp only [Text.isBlankChar, Bool.or_eq_false_iff, Bool.and_eq_false_iff, decide_eq_false_iff_not,
    beq_eq_false_iff_ne]
  omega

namespace IsName

theorem not_mem (h : IsName name) {d : Char} (other : d.isAlpha = false) : d ∉ name :=
  fun mem => Bool.false_ne_true (other.symm.trans (List.all_eq_true.mp h.2 d mem))

theorem exists_cons (h : IsName name) : ∃ c rest, name = c :: rest ∧ c.isAlpha :=
  match name, h with
  | [], h => absurd rfl h.1
  | c :: rest, h => ⟨c, rest, rfl, List.all_eq_true.mp h.2 c List.mem_cons_self⟩

theorem not_blank (h : IsName name) : ∀ c ∈ name, Text.isBlankChar c = false :=
  fun c mem => isBlankChar_of_isAlpha (List.all_eq_true.mp h.2 c mem)

end IsName

theorem trimStart_cons (visible : Text.isBlankChar c = false) : Text.trimStart (c :: rest) = c :: rest := by
  rw [Text.trimStart, List.dropWhile_cons, visible]
  rfl

theorem trimStart_of_visible (visible : ∀ c ∈ t, Text.isBlankChar c = false) : Text.trimStart t = t := by
  cases t with
  | nil => rfl
  | cons c t => exact trimStart_cons (visible c List.mem_cons_self)

theorem IsName.trim_eq (h : IsName name) : Text.trim name = name := by
  have turned : name.reverse.dropWhile Text.isBlankChar = name.reverse :=
    trimStart_of_visible fun c mem => h.not_blank c (List.mem_reverse.mp mem)
  rw [Text.trim, trimStart_of_visible h.not_blank, Text.trimEnd, turned, List.reverse_reverse]

/-! ### Attributes -/

/-- Attributes as they are written in a start tag. -/
def writeAttributes (as : List Attribute) : List Char := as.flatMap fun a => writeAttribute a.1 (some a.2)

theorem trimStart_append {blanks : List Char} (blank : ∀ c ∈ blanks, Text.isBlankChar c) (t : List Char) :
    Text.trimStart (blanks ++ t) = Text.trimStart t := List.dropWhile_append_of_pos blank

/-- An attribute in whichever quotes, and what is behind it. -/
theorem attributes_cons (element : List Char) {key gap raw value : List Char} {quote : Char}
    (free : '=' ∉ key)
    (blank : ∀ c ∈ gap, Text.isBlankChar c) (quotes : quote = '"' ∨ quote = '\'') (closes : quote ∉ raw)
    (read : unescape raw = .ok value) (rest : List Char) :
    attributes element (key ++ '=' :: (gap ++ quote :: (raw ++ quote :: rest))) =
      (attributes element (Text.trimStart rest)).map ((Text.trim key, value) :: ·) := by
  have equals := cut_singleton free (gap ++ quote :: (raw ++ quote :: rest))
  have quoted := cut_singleton closes rest
  have visible : Text.isBlankChar quote = false := by
    rcases quotes with rfl | rfl <;> rfl
  have opens : Text.trimStart (gap ++ quote :: (raw ++ quote :: rest)) = quote :: (raw ++ quote :: rest) := by
    rw [trimStart_append blank, trimStart_cons visible]
  have marked : (decide (quote = '"') || decide (quote = '\'')) = true := by
    rcases quotes with rfl | rfl <;> rfl
  obtain ⟨c, others, shape⟩ : ∃ c others, key ++ '=' :: (gap ++ quote :: (raw ++ quote :: rest)) =
    c :: others := by
    cases key <;> exact ⟨_, _, rfl⟩
  rw [shape] at equals ⊢
  rw [attributes]
  split
  · next none => rw [equals] at none; cases none
  · next found =>
    obtain ⟨rfl, rfl⟩ := Prod.mk.inj (Option.some.inj (equals.symm.trans found))
    split
    · next empty => rw [opens] at empty; cases empty
    · next inside =>
      rw [opens] at inside
      obtain ⟨rfl, rfl⟩ := List.cons.inj inside
      rw [if_pos marked]
      split
      · next none => rw [quoted] at none; cases none
      · next close =>
        obtain ⟨rfl, rfl⟩ := Prod.mk.inj (Option.some.inj (quoted.symm.trans close))
        rw [read]

/-- A written attribute and what is behind it. -/
theorem attributes_append (element : List Char) (key : IsName name) (value rest : List Char) :
    attributes element (name ++ '=' :: '"' :: (escape value ++ '"' :: rest)) =
      (attributes element (Text.trimStart rest)).map ((name, value) :: ·) := by
  have free : '"' ∉ escape value := not_mem_escape (by decide) (by decide) value
  have read := attributes_cons element (key.not_mem (d := '=') rfl) (List.forall_mem_nil _) (.inl rfl) free
    (unescape_escape value) rest
  rwa [key.trim_eq] at read

/-- Written attributes are read as they were given. -/
theorem attributes_writeAttributes (element : List Char) (keys : ∀ a ∈ as, IsName a.1) :
    attributes element (Text.trimStart (writeAttributes as)) = .ok as := by
  induction as with
  | nil => rw [writeAttributes, List.flatMap_nil, Text.trimStart, List.dropWhile_nil, attributes]
  | cons a as ih =>
    obtain ⟨key, value⟩ := a
    have name : IsName key := keys _ List.mem_cons_self
    have written : Text.trimStart (writeAttributes ((key, value) :: as)) =
        key ++ '=' :: '"' :: (escape value ++ '"' :: writeAttributes as) := by
      obtain ⟨c, others, rfl, letter⟩ := name.exists_cons
      have blank : Text.isBlankChar ' ' = true := rfl
      simp [writeAttributes, writeAttribute, Text.trimStart, blank, isBlankChar_of_isAlpha letter]
    rw [written, attributes_append element name, ih fun a mem => keys a (List.mem_cons_of_mem _ mem)]
    rfl

/-! ### Tags -/

/-- A text behind which no quote is open, and in which no tag ends. -/
def Closed (t : List Char) : Prop :=
  ∀ rest, cutTag none (t ++ rest) = (cutTag none rest).map fun (body, behind) => (t ++ body, behind)

namespace Closed

theorem append {u : List Char} (first : Closed t) (second : Closed u) : Closed (t ++ u) := by
  intro rest
  rw [List.append_assoc, first, second]
  cases cutTag none rest <;> simp

theorem of_plain (free : '>' ∉ t ∧ '"' ∉ t ∧ '\'' ∉ t) : Closed t := by
  intro rest
  induction t with
  | nil => cases h : cutTag none rest <;> simp [h]
  | cons c t ih =>
    simp only [List.mem_cons, not_or] at free
    obtain ⟨⟨unlike, later⟩, ⟨unlike', later'⟩, ⟨unlike'', later''⟩⟩ := free
    rw [List.cons_append, cutTag]
    simp only [Ne.symm unlike, Ne.symm unlike', Ne.symm unlike'', if_false, decide_false, Bool.or_self,
      Bool.false_eq_true]
    rw [ih ⟨later, later', later''⟩]
    cases cutTag none rest <;> rfl

/-- Quotes close at the first mark of their kind. -/
theorem quoted (free : '"' ∉ t) : Closed ('"' :: (t ++ ['"'])) := by
  intro rest
  have inside : cutTag (some '"') (t ++ '"' :: rest) =
      (cutTag none rest).map fun (body, behind) => (t ++ '"' :: body, behind) := by
    induction t with
    | nil => rw [List.nil_append, cutTag]; rfl
    | cons c t ih =>
      obtain ⟨other, free⟩ := not_or.mp (mt List.mem_cons.mpr free)
      rw [List.cons_append, cutTag, if_neg (Ne.symm other), ih free]
      cases cutTag none rest <;> rfl
  rw [List.cons_append, List.append_assoc, List.singleton_append, cutTag]
  have apart : '"' ≠ '>' := by decide
  simp only [apart, if_false, decide_true, Bool.true_or, if_true]
  rw [inside]
  cases cutTag none rest <;> simp

theorem of_isName (h : IsName name) : Closed name := of_plain ⟨h.not_mem rfl, h.not_mem rfl, h.not_mem rfl⟩

theorem writeAttributes (keys : ∀ a ∈ as, IsName a.1) : Closed (writeAttributes as) := by
  induction as with
  | nil => exact of_plain (by simp [Xml.writeAttributes])
  | cons a as ih =>
    have value : Closed ('"' :: (escape a.2 ++ ['"'])) := quoted (not_mem_escape (by decide) (by decide) a.2)
    have blank : Closed [' '] := of_plain (by decide)
    have equals : Closed ['='] := of_plain (by decide)
    have first := blank.append ((of_isName (keys a List.mem_cons_self)).append (equals.append value))
    have all := first.append (ih fun b mem => keys b (List.mem_cons_of_mem a mem))
    have written : Xml.writeAttributes (a :: as) =
        [' '] ++ (a.1 ++ (['='] ++ '"' :: (escape a.2 ++ ['"']))) ++ Xml.writeAttributes as := by
      simp [Xml.writeAttributes, writeAttribute]
    exact written ▸ all

theorem cutTag_eq (h : Closed t) (rest : List Char) : cutTag none (t ++ '>' :: rest) = some (t, rest) := by
  rw [h, cutTag]
  simp

end Closed

/-- The body of a start tag. -/
def tagBody (name : List Char) (as : List Attribute) (isEmpty : Bool) : List Char :=
  name ++ writeAttributes as ++ if isEmpty then ['/'] else []

/-- A start tag. -/
def openTag (name : List Char) (as : List Attribute) (isEmpty : Bool) : List Char :=
  '<' :: (tagBody name as isEmpty ++ ['>'])

/-- An end tag. -/
def closeTag (name : List Char) : List Char := '<' :: '/' :: (name ++ ['>'])

theorem closed_tagBody (h : IsName name) (keys : ∀ a ∈ as, IsName a.1) (isEmpty : Bool) :
    Closed (tagBody name as isEmpty) := by
  refine ((Closed.of_isName h).append (.writeAttributes keys)).append ?_
  cases isEmpty <;> exact .of_plain (by decide)

theorem splitSlash_eq (h : IsName name) (isEmpty : Bool) :
    splitSlash (tagBody name as isEmpty) = (name ++ writeAttributes as, isEmpty) := by
  cases isEmpty with
  | true =>
    rw [tagBody, if_pos rfl, splitSlash, List.reverse_append]
    simp
  | false =>
    have last : (name ++ writeAttributes as).getLast? ≠ some '/' := by
      rcases List.eq_nil_or_concat as with rfl | ⟨front, a, rfl⟩
      · rw [writeAttributes, List.flatMap_nil, List.append_nil]
        exact fun slash => h.not_mem (by decide) (List.mem_of_getLast? slash)
      · simp [writeAttributes, writeAttribute, List.getLast?_cons]
    rw [tagBody, if_neg Bool.false_ne_true, List.append_nil, splitSlash]
    split
    · next before slash =>
      rw [← List.head?_reverse, slash] at last
      exact absurd rfl last
    · rfl

/-- The body of a start tag is read as it was written. -/
theorem readStartTag_tagBody (line : Nat) (h : IsName name) (keys : ∀ a ∈ as, IsName a.1) (isEmpty : Bool) :
    readStartTag line (tagBody name as isEmpty) = .ok (.startTag line name as isEmpty) := by
  have visible : ∀ c ∈ name, (!Text.isBlankChar c) = true := fun c mem => by rw [h.not_blank c mem]; rfl
  have ends : (writeAttributes as).takeWhile (fun c => !Text.isBlankChar c) = [] ∧
      (writeAttributes as).dropWhile (fun c => !Text.isBlankChar c) = writeAttributes as := by
    cases as with
    | nil => exact ⟨rfl, rfl⟩
    | cons a as => simp [writeAttributes, writeAttribute, show Text.isBlankChar ' ' = true from rfl]
  have taken : (name ++ writeAttributes as).takeWhile (fun c => !Text.isBlankChar c) = name := by
    rw [List.takeWhile_append_of_pos visible, ends.1, List.append_nil]
  have dropped :
      (name ++ writeAttributes as).dropWhile (fun c => !Text.isBlankChar c) = writeAttributes as := by
    rw [List.dropWhile_append_of_pos visible, ends.2]
  have nonempty : name.isEmpty = false := by simpa using h.1
  rw [readStartTag, splitSlash_eq h]
  simp only [taken, dropped, nonempty, Bool.false_eq_true, if_false]
  rw [attributes_writeAttributes name keys]
  rfl

/-! ### Pieces -/

theorem firstPiece_openTag (h : IsName name) (keys : ∀ a ∈ as, IsName a.1) (isEmpty : Bool) (line : Nat)
    (rest : List Char) :
    firstPiece line '<' (tagBody name as isEmpty ++ '>' :: rest) =
      ⟨some (.startTag line (tagBody name as isEmpty)), tagBody name as isEmpty, rest⟩ := by
  have closed := (closed_tagBody h keys isEmpty).cutTag_eq rest
  obtain ⟨c, others, begins, letter⟩ := h.exists_cons
  have unlike (d : Char) (other : d.isAlpha = false) : c ≠ d := by
    rintro rfl
    exact Bool.false_ne_true (other.symm.trans letter)
  obtain ⟨behind, shape⟩ : ∃ behind, tagBody name as isEmpty ++ '>' :: rest = c :: behind :=
    ⟨_, by rw [tagBody, begins]; rfl⟩
  rw [shape] at closed ⊢
  have question := unlike '?' rfl
  have bang := unlike '!' rfl
  have slash := unlike '/' rfl
  have nothing : skipMark? ('<' :: c :: behind) = none := by simp [skipMark?, question, bang]
  simp [firstPiece, nothing, slash, closed]

theorem firstPiece_closeTag (h : IsName name) (line : Nat) (rest : List Char) :
    firstPiece line '<' ('/' :: (name ++ '>' :: rest)) = ⟨some (.endTag line name), name, rest⟩ := by
  have found := cut_singleton (h.not_mem (d := '>') rfl) rest
  have nothing : skipMark? ('<' :: '/' :: (name ++ '>' :: rest)) = none := by simp [skipMark?]
  simp [firstPiece, nothing, found]

/-- Text goes on up to the next tag, or to the end. -/
theorem firstPiece_text (free : '<' ∉ c :: t) (ends : ∀ d ∈ rest.head?, d = '<') (line : Nat) :
    firstPiece line c (t ++ rest) = ⟨some (.text line (c :: t)), c :: t, rest⟩ := by
  obtain ⟨other, free⟩ := not_or.mp (mt List.mem_cons.mpr free)
  have inside : ∀ d ∈ t, (d != '<') = true := fun d mem => bne_iff_ne.mpr fun same => free (same ▸ mem)
  have nothing : skipMark? (c :: (t ++ rest)) = none := by simp [skipMark?, Ne.symm other]
  have behind : rest.takeWhile (· != '<') = [] ∧ rest.dropWhile (· != '<') = rest := by
    cases rest with
    | nil => exact ⟨rfl, rfl⟩
    | cons d rest =>
      obtain rfl := ends d rfl
      exact ⟨rfl, rfl⟩
  have taken : (t ++ rest).takeWhile (· != '<') = t := by
    rw [List.takeWhile_append_of_pos inside, behind.1, List.append_nil]
  have dropped : (t ++ rest).dropWhile (· != '<') = rest := by
    rw [List.dropWhile_append_of_pos inside, behind.2]
  simp only [firstPiece, nothing, if_neg (Ne.symm other), taken, dropped]

/-! ### Following a reader -/

section Following

variable {ρ : Type} {format : Format} {step : ρ → Token → Except FormatFault ρ} {r r' r'' : ρ}

/-- Where a reader gets over a text whose first character stands at the given line. -/
def follow (format : Format) (step : ρ → Token → Except FormatFault ρ) (r : ρ) (line : Nat)
    (text : List Char) : Except FormatFault ρ := do
  let ts ← (chunks line text).mapM (Token.ofChunk format)
  ts.foldlM step r

theorem follow_nil (line : Nat) : follow format step r line [] = .ok r := by
  rw [follow, chunks]
  rfl

/-- A reader that takes the first chunk of a text goes on behind it. -/
theorem follow_cons {chunk : Chunk} {token : Token} (first : firstPiece line c rest = ⟨some chunk, body, t⟩)
    (read : Token.ofChunk format chunk = .ok token) (taken : step r token = .ok r') :
    follow format step r line (c :: rest) = follow format step r' (line + lineFeeds body) t := by
  rw [follow, chunks, first]
  show ((chunk :: chunks (line + lineFeeds body) t).mapM (Token.ofChunk format) >>= _) = _
  rw [List.mapM_cons, read, follow]
  cases (chunks (line + lineFeeds body) t).mapM (Token.ofChunk format) with
  | error fault => rfl
  | ok ts =>
    show (token :: ts).foldlM step r = ts.foldlM step r'
    rw [List.foldlM_cons, taken]
    rfl

/-- A reader that takes a written text goes on at the tag behind it, or comes to the end. -/
theorem follow_text {text : List Char} (some_text : text ≠ [])
    (taken : ∀ line, step r (.text line text) = .ok r')
    (ends : ∀ d ∈ rest.head?, d = '<') (line : Nat) :
    ∃ line', follow format step r line (escape text ++ rest) = follow format step r' line' rest := by
  obtain ⟨c, others, written⟩ := List.exists_cons_of_ne_nil (mt escape_eq_nil.mp some_text)
  have free : '<' ∉ c :: others := written ▸ not_mem_escape (by decide) (by decide) text
  have read : Token.ofChunk format (.text line (c :: others)) = .ok (.text line text) := by
    rw [Token.ofChunk, ← written, unescape_escape]
    rfl
  rw [written]
  exact ⟨_, follow_cons (firstPiece_text free ends line) read (taken line)⟩

/-- A reader goes on behind a piece that makes no chunk. -/
theorem follow_skip (first : firstPiece line c rest = ⟨none, body, t⟩) :
    follow format step r line (c :: rest) = follow format step r (line + lineFeeds body) t := by
  rw [follow, chunks, first]
  rfl

/-- A reader gets from one state to another over a text, whatever comes behind it. -/
def Leads (format : Format) (step : ρ → Token → Except FormatFault ρ) (text : List Char) (r r' : ρ) : Prop :=
  ∀ line rest, ∃ line', follow format step r line (text ++ rest) = follow format step r' line' rest

namespace Leads

theorem refl (r : ρ) : Leads format step [] r r := fun line _ => ⟨line, rfl⟩

theorem trans {u : List Char} (first : Leads format step t r r') (later : Leads format step u r' r'') :
    Leads format step (t ++ u) r r'' := by
  intro line rest
  obtain ⟨line', there⟩ := first line (u ++ rest)
  obtain ⟨line'', further⟩ := later line' rest
  exact ⟨line'', by rw [List.append_assoc, there, further]⟩

theorem openTag (h : IsName name) (keys : ∀ a ∈ as, IsName a.1) {isEmpty : Bool}
    (taken : ∀ line, step r (.startTag line name as isEmpty) = .ok r') :
    Leads format step (openTag name as isEmpty) r r' := by
  intro line rest
  have read : Token.ofChunk format (.startTag line (tagBody name as isEmpty)) =
      .ok (.startTag line name as isEmpty) := by
    rw [Token.ofChunk, readStartTag_tagBody line h keys]
    rfl
  refine ⟨line + lineFeeds (tagBody name as isEmpty), ?_⟩
  rw [Xml.openTag, List.cons_append, List.append_assoc, List.singleton_append]
  exact follow_cons (firstPiece_openTag h keys isEmpty line rest) read (taken line)

theorem closeTag (h : IsName name) (taken : ∀ line, step r (.endTag line name) = .ok r') :
    Leads format step (closeTag name) r r' := by
  intro line rest
  have read : Token.ofChunk format (.endTag line name) = .ok (.endTag line name) := by
    rw [Token.ofChunk, h.trim_eq]
  refine ⟨line + lineFeeds name, ?_⟩
  rw [Xml.closeTag, List.cons_append, List.cons_append, List.append_assoc, List.singleton_append]
  exact follow_cons (firstPiece_closeTag h line rest) read (taken line)

/-- A written text in front of a tag; one without characters is not noticed. -/
theorem text (text : List Char) (taken : ∀ line, text ≠ [] → step r (.text line text) = .ok r')
    (unnoticed : text = [] → r = r') (begins : t.head? = some '<') (later : Leads format step t r' r'') :
    Leads format step (escape text ++ t) r r'' := by
  intro line rest
  have ends : ∀ d ∈ (t ++ rest).head?, d = '<' := by
    intro d mem
    rw [List.head?_append, begins] at mem
    exact (Option.some.inj mem).symm
  rw [List.append_assoc]
  by_cases empty : text = []
  · subst empty
    rw [unnoticed rfl]
    exact later line rest
  · have read : ∃ line', follow format step r line (escape text ++ (t ++ rest)) =
        follow format step r' line' (t ++ rest) := follow_text empty (fun line => taken line empty) ends line
    obtain ⟨line', there⟩ := read
    rw [there]
    exact later line' rest

/-- Blanks in front of a tag, where the reader skips them. -/
theorem indented {blanks : List Char} (plain : escape blanks = blanks)
    (skipped : ∀ line, step r (.text line blanks) = .ok r) (begins : t.head? = some '<')
    (later : Leads format step t r r') : Leads format step (blanks ++ t) r r' :=
  plain ▸ text blanks (fun line _ => skipped line) (fun _ => rfl) begins later

/-- One thing after the other, the reader's state being told by those that it has read. -/
theorem flatMap {β : Type} {write : β → List Char} {l : List β} (state : List β → ρ)
    (each : ∀ before, ∀ b ∈ l, Leads format step (write b) (state before) (state (before ++ [b])))
    (before : List β) : Leads format step (l.flatMap write) (state before) (state (before ++ l)) := by
  induction l generalizing before with
  | nil =>
    rw [List.append_nil]
    exact refl _
  | cons b l ih =>
    rw [List.flatMap_cons, List.append_cons]
    have rest := ih (fun before c mem => each before c (List.mem_cons_of_mem b mem)) (before ++ [b])
    exact (each before b List.mem_cons_self).trans rest

/-- A value element; the reader knows what it has read inside it, and what it stands for once it has ended. -/
theorem writeValue {nullMark : List Char} {value : Option (List Char)} (mark : Attribute)
    (inside : List Char → ρ) (next : Option (List Char) → ρ) (h : IsName tag) (key : IsName mark.1)
    (marked : ' ' :: nullMark = writeAttribute mark.1 (some mark.2))
    (null : ∀ line, step r (.startTag line tag [mark] true) = .ok (next none))
    (starts : ∀ line, step r (.startTag line tag [] false) = .ok (inside []))
    (adds : ∀ line text, step (inside []) (.text line text) = .ok (inside text))
    (ends : ∀ line text, step (inside text) (.endTag line tag) = .ok (next (some text))) :
    Leads format step (writeValue tag nullMark value) r (next value) := by
  cases value with
  | none =>
    have written : Xml.writeValue tag nullMark none = Xml.openTag tag [mark] true := by
      simp [Xml.writeValue, Xml.openTag, tagBody, writeAttributes, ← marked]
    rw [written]
    exact openTag h (List.forall_mem_singleton.mpr key) null
  | some text =>
    have written : Xml.writeValue tag nullMark (some text) =
        Xml.openTag tag [] false ++ (escape text ++ Xml.closeTag tag) := by
      simp [Xml.writeValue, Xml.openTag, Xml.closeTag, tagBody, writeAttributes]
    rw [written]
    refine (openTag h (fun _ mem => absurd mem List.not_mem_nil) starts).trans ?_
    refine .text text (fun line _ => adds line text) (fun empty => empty ▸ rfl) rfl ?_
    exact closeTag h fun line => ends line text

/-- A text with a line end behind it, which the reader does not notice, is read token by token. -/
theorem exists_tokens (whole : Leads format step t r r')
    (unnoticed : ∀ line, step r' (.text line ['\n']) = .ok r') :
    ∃ ts, tokens format (t ++ ['\n']) = .ok ts ∧ ts.foldlM step r = .ok r' := by
  obtain ⟨line, before⟩ := whole 1 ['\n']
  obtain ⟨last, ended⟩ : ∃ last, follow format step r' line (escape ['\n'] ++ []) =
    follow format step r' last [] := follow_text (List.cons_ne_nil _ _) unnoticed (by simp) line
  have there := before.trans (ended.trans (follow_nil last))
  rw [follow, ← tokens] at there
  cases read : tokens format (t ++ ['\n']) with
  | error fault =>
    rw [read] at there
    cases there
  | ok ts =>
    rw [read] at there
    exact ⟨ts, rfl, there⟩

end Leads

/-! ### Lines -/

/-- A line end with blanks behind it. -/
def indent (n : Nat) : List Char := '\n' :: List.replicate n ' '

/-- Line ends stand behind each line as well as in front of the next. -/
theorem newline_flatMap {β : Type} (l : List β) (write : β → List Char) (rest : List Char) :
    '\n' :: (l.flatMap (fun b => write b ++ ['\n']) ++ rest) =
      l.flatMap (fun b => '\n' :: write b) ++ '\n' :: rest := by
  induction l with
  | nil => rfl
  | cons b l ih => simp [List.flatMap_cons, ← ih]

/-- The declaration that begins every document. -/
def declaration : List Char := "<?xml version=\"1.0\" encoding=\"UTF-8\"?>".toList

/-- The declaration is not noticed. -/
theorem leads_declaration (r : ρ) : Leads format step declaration r r := by
  intro line rest
  have begins : declaration = '<' :: declaration.tail := rfl
  have first : firstPiece line '<' (declaration.tail ++ rest) =
      ⟨none, "<?xml version=\"1.0\" encoding=\"UTF-8\"".toList, rest⟩ := rfl
  rw [begins, List.cons_append]
  exact ⟨_, follow_skip first⟩

end Following

end LiveTable.Xml
