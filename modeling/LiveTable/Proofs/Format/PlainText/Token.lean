import LiveTable.Format.PlainText
import Mathlib.Data.List.DropRight

/-! Tokens of plain text.  A text is `Framed` if the frame can hold it: marks of the frame stand behind a
    backslash only, and line ends and equals signs nowhere.  Every written token is framed, and stays so
    when it is filled up, so that splitting a line finds just the marks that the frame put there.  A
    written token does not end in a blank either: what fills it up can be taken off again. -/

namespace LiveTable.PlainText

variable {t u rest seen : List Char} {c mark : Char} {line : Nat}

/-- A text without marks of the frame, line ends and loose backslashes. -/
inductive Framed : List Char → Prop where
  | nil : Framed []
  | plain {c : Char} {rest : List Char} (free : c ∉ ['\\', '|', '!', '=', '\n', '\r'])
      (framed : Framed rest) :
      Framed (c :: rest)
  | escaped {c : Char} {rest : List Char} (free : c ∉ ['=', '\n', '\r']) (framed : Framed rest) :
      Framed ('\\' :: c :: rest)

namespace Framed

theorem append (first : Framed t) (second : Framed u) : Framed (t ++ u) := by
  induction first with
  | nil => exact second
  | plain free _ ih => exact .plain free ih
  | escaped free _ ih => exact .escaped free ih

theorem blanks (n : Nat) : Framed (List.replicate n ' ') := by
  induction n with
  | zero => exact .nil
  | succ n ih => exact .plain (by decide) ih

theorem not_mem (framed : Framed t) (mem : c ∈ t) : c ∉ ['=', '\n', '\r'] := by
  induction framed with
  | nil => simp at mem
  | plain free _ ih =>
    rcases List.mem_cons.mp mem with rfl | mem
    · simp_all
    · exact ih mem
  | escaped free _ ih =>
    rcases List.mem_cons.mp mem with rfl | mem
    · decide
    · rcases List.mem_cons.mp mem with rfl | mem
      · exact free
      · exact ih mem

/-- The first loose mark behind a framed text is the one that ends it. -/
theorem splitFirst? (framed : Framed t) (frame : mark ∈ ['|', '!']) :
    PlainText.splitFirst? mark (t ++ mark :: rest) = some (t, rest) := by
  have loose : mark ≠ '\\' := by rintro rfl; simp at frame
  induction framed with
  | nil =>
    rw [List.nil_append, PlainText.splitFirst?]
    · simp [loose]
    · exact fun _ _ same => absurd same loose
  | @plain c text free _ ih =>
    have other : c ≠ '\\' ∧ c ≠ mark := by
      refine ⟨?_, ?_⟩ <;> rintro rfl <;> simp_all
    rw [List.cons_append, PlainText.splitFirst?, ih]
    · simp [other]
    · exact fun _ _ same => absurd same other.1
  | escaped _ _ ih =>
    rw [List.cons_append, List.cons_append, PlainText.splitFirst?, ih]
    rfl

theorem splitAll? (framed : Framed t) (frame : mark ∈ ['|', '!']) (seen : List Char) :
    PlainText.splitAll? mark seen (t ++ mark :: rest) =
      (PlainText.splitAll? mark [] rest).map ((seen.reverse ++ t) :: ·) := by
  have loose : mark ≠ '\\' := by rintro rfl; simp at frame
  induction framed generalizing seen with
  | nil =>
    rw [List.nil_append, PlainText.splitAll?]
    · simp [loose]
    · exact fun _ _ same => absurd same loose
  | @plain c text free _ ih =>
    have other : c ≠ '\\' ∧ c ≠ mark := by
      refine ⟨?_, ?_⟩ <;> rintro rfl <;> simp_all
    rw [List.cons_append, PlainText.splitAll?, if_neg other.1, if_neg other.2, ih]
    · simp
    · exact fun _ _ same => absurd same other.1
  | escaped _ _ ih =>
    rw [List.cons_append, List.cons_append, PlainText.splitAll?, ih]
    simp

end Framed

/-- Framed texts, each closed by a mark, are the tokens of their line. -/
theorem tokens_flatMap (frame : mark ∈ ['|', '!']) (line : Nat) {ts : List (List Char)}
    (framed : ∀ t ∈ ts, Framed t) : tokens mark line (ts.flatMap (· ++ [mark])) = .ok ts := by
  have split : splitAll? mark [] (ts.flatMap (· ++ [mark])) = some ts := by
    induction ts with
    | nil => rfl
    | cons t ts ih =>
      rw [List.flatMap_cons, List.append_assoc, List.singleton_append,
        (framed t List.mem_cons_self).splitAll? frame, ih fun u mem => framed u (List.mem_cons_of_mem t mem)]
      rfl
  rw [tokens, split]

/-! ### Escapes -/

/-- The characters that are escaped wherever they stand. -/
def specials : List Char := ['\\', '|', '!', '"', '=', '\n', '\r', '\t']

theorem escapeMark?_eq_none (c : Char) : escapeMark? c = none ↔ c ∉ specials := by
  refine ⟨?_, fun plain => ?_⟩
  · rintro plain special
    simp only [specials, List.mem_cons, List.not_mem_nil, or_false] at special
    rcases special with rfl | rfl | rfl | rfl | rfl | rfl | rfl | rfl <;> simp [escapeMark?] at plain
  · simp only [specials, List.mem_cons, List.not_mem_nil, or_false, not_or] at plain
    simp [escapeMark?, plain]

/-- The letter behind a backslash stands for the character that it escapes, and may stand in a frame. -/
theorem unescapeMark?_of_escapeMark? (escaped : escapeMark? c = some mark) :
    unescapeMark? mark = some c ∧ mark ∉ ['=', '\n', '\r'] ∧ mark ≠ ' ' := by
  have special : c ∈ specials := by
    by_contra plain
    rw [(escapeMark?_eq_none c).mpr plain] at escaped
    cases escaped
  simp only [specials, List.mem_cons, List.not_mem_nil, or_false] at special
  rcases special with rfl | rfl | rfl | rfl | rfl | rfl | rfl | rfl <;>
    · obtain rfl := Option.some.inj escaped
      decide

theorem framed_escapeChar (c : Char) (framed : Framed t) : Framed (escapeChar c ++ t) := by
  rw [escapeChar]
  cases escaped : escapeMark? c with
  | none =>
    have within : ∀ d ∈ ['\\', '|', '!', '=', '\n', '\r'], d ∈ specials := by simp [specials]
    exact .plain (fun mem => (escapeMark?_eq_none c).mp escaped (within c mem)) framed
  | some mark => exact .escaped (unescapeMark?_of_escapeMark? escaped).2.1 framed

theorem framed_flatMap (text : List Char) (framed : Framed t) : Framed (text.flatMap escapeChar ++ t) := by
  induction text with
  | nil => exact framed
  | cons c text ih =>
    rw [List.flatMap_cons, List.append_assoc]
    exact framed_escapeChar c ih

theorem framed_escape (text : List Char) : Framed (escape text) := by
  refine framed_flatMap _ ?_
  generalize text.length - (trimBlanks text).length = n
  induction n with
  | zero => exact .nil
  | succ n ih => exact .escaped (by decide) ih

theorem framed_token (value : Option (List Char)) : Framed (token value) := by
  match value with
  | none => exact .nil
  | some [] => exact .plain (by decide) (.plain (by decide) .nil)
  | some (c :: text) => exact framed_escape (c :: text)

theorem framed_pad (width : Nat) (framed : Framed t) : Framed (pad width t) :=
  framed.append (.blanks _)

theorem unescape_escapeChar (c : Char) (rest : List Char) :
    unescape (escapeChar c ++ rest) = (unescape rest).map (c :: ·) := by
  rw [escapeChar]
  cases escaped : escapeMark? c with
  | none =>
    have loose : c ≠ '\\' := by
      rintro rfl
      simp [escapeMark?] at escaped
    rw [List.singleton_append, unescape]
    · exact fun same => absurd same loose
    · exact fun _ _ same => absurd same loose
  | some mark =>
    show unescape ('\\' :: mark :: rest) = _
    rw [unescape, (unescapeMark?_of_escapeMark? escaped).1]

theorem unescape_flatMap (text rest : List Char) :
    unescape (text.flatMap escapeChar ++ rest) = (unescape rest).map (text ++ ·) := by
  induction text with
  | nil =>
    rw [List.flatMap_nil, List.nil_append]
    cases unescape rest <;> rfl
  | cons c text ih =>
    rw [List.flatMap_cons, List.append_assoc, unescape_escapeChar, ih]
    cases unescape rest <;> rfl

theorem unescape_blanks (n : Nat) :
    unescape (List.replicate n ['\\', 's']).flatten = .ok (List.replicate n ' ') := by
  induction n with
  | zero => rfl
  | succ n ih =>
    show unescape ('\\' :: 's' :: (List.replicate n ['\\', 's']).flatten) = _
    rw [unescape, ih]
    rfl

/-! ### Blanks -/

theorem trimBlanks_eq (text : List Char) : trimBlanks text = text.rdropWhile (· = ' ') := rfl

/-- A text is its part without the blanks at its end and then these. -/
theorem trimBlanks_append (text : List Char) :
    trimBlanks text ++ List.replicate (text.length - (trimBlanks text).length) ' ' = text := by
  have whole : trimBlanks text ++ text.rtakeWhile (· = ' ') = text := List.rdropWhile_append_rtakeWhile ..
  have blank : text.rtakeWhile (· = ' ') = List.replicate (text.rtakeWhile (· = ' ')).length ' ' :=
    List.eq_replicate_of_mem fun c mem => by simpa using List.mem_rtakeWhile_imp mem
  have length := congrArg List.length whole
  rw [List.length_append] at length
  have count : text.length - (trimBlanks text).length = (text.rtakeWhile (· = ' ')).length := by omega
  rw [count, ← blank, whole]

theorem trimBlanks_append_blanks (t : List Char) (n : Nat) :
    trimBlanks (t ++ List.replicate n ' ') = trimBlanks t := by
  induction n with
  | zero => simp
  | succ n ih =>
    rw [List.replicate_succ', ← List.append_assoc, trimBlanks_eq, List.rdropWhile_concat_pos _ _ _ (by simp)]
    exact ih

theorem trimBlanks_concat (t : List Char) (other : c ≠ ' ') : trimBlanks (t ++ [c]) = t ++ [c] :=
  List.rdropWhile_concat_neg _ t c (by simpa using other)

/-- An escaped text ends in a letter behind a backslash or in a character that is no blank. -/
theorem trimBlanks_escape (text : List Char) : trimBlanks (escape text) = escape text := by
  rw [escape]
  generalize text.length - (trimBlanks text).length = n
  cases n with
  | succ n =>
    -- the text ends in blanks, and the last of them was written as a letter behind a backslash
    have last : (List.replicate (n + 1) ['\\', 's']).flatten =
        (List.replicate n ['\\', 's']).flatten ++ ['\\'] ++ ['s'] := by
      rw [List.replicate_succ', List.flatten_append]
      simp
    rw [last, ← List.append_assoc]
    exact trimBlanks_concat _ (by decide)
  | zero =>
    rw [List.replicate_zero, List.flatten_nil, List.append_nil]
    have trimmed : trimBlanks (trimBlanks text) = trimBlanks text := List.rdropWhile_idempotent ..
    rcases List.eq_nil_or_concat (trimBlanks text) with empty | ⟨front, c, body⟩
    · rw [empty]
      rfl
    · rw [body, List.concat_eq_append] at trimmed ⊢
      -- trimming would have taken a blank here off too
      have other : c ≠ ' ' := by
        rintro rfl
        have shorter : (trimBlanks front).length ≤ front.length :=
          List.IsPrefix.length_le (List.rdropWhile_prefix ..)
        have same := congrArg List.length (trimmed.symm.trans (trimBlanks_append_blanks front 1))
        rw [List.length_append, List.length_singleton] at same
        omega
      rw [List.flatMap_append, List.flatMap_singleton, escapeChar]
      cases escaped : escapeMark? c with
      | none => exact trimBlanks_concat _ other
      | some mark =>
        have letter : mark ≠ ' ' := (unescapeMark?_of_escapeMark? escaped).2.2
        have kept := trimBlanks_concat (front.flatMap escapeChar ++ ['\\']) letter
        rwa [List.append_assoc] at kept

/-- A text that is not empty does not begin with a quote when it is escaped. -/
theorem exists_escape_cons (c : Char) (text : List Char) :
    ∃ d rest, escape (c :: text) = d :: rest ∧ d ≠ '"' := by
  have begins (d : Char) (rest : List Char) : ∃ e rest', escapeChar d ++ rest = e :: rest' ∧ e ≠ '"' := by
    rw [escapeChar]
    cases escaped : escapeMark? d with
    | none =>
      refine ⟨d, rest, rfl, ?_⟩
      rintro rfl
      cases escaped
    | some mark => exact ⟨'\\', mark :: rest, rfl, by decide⟩
  rw [escape]
  cases body : trimBlanks (c :: text) with
  | nil => exact ⟨'\\', 's' :: (List.replicate text.length ['\\', 's']).flatten, rfl, by decide⟩
  | cons d front =>
    rw [List.flatMap_cons, List.append_assoc]
    exact begins d _

theorem unescape_escape (text : List Char) : unescape (escape text) = .ok text := by
  rw [escape, unescape_flatMap, unescape_blanks]
  exact congrArg Except.ok (trimBlanks_append text)

/-- What begins without a quote is read by taking its escapes back. -/
theorem readToken_of_trimmed {raw text : List Char} (trimmed : trimBlanks raw = c :: rest) (other : c ≠ '"')
    (read : unescape (c :: rest) = .ok text) : readToken line raw = .ok (some text) := by
  rw [readToken]
  split
  · next empty => simp [trimmed] at empty
  · next quotes => exact absurd (List.cons.inj (trimmed.symm.trans quotes)).1 other
  · rw [trimmed, read]

/-- A filled-up token is read as the value that it was written for. -/
theorem readToken_pad (line width : Nat) (value : Option (List Char)) :
    readToken line (pad width (token value)) = .ok value := by
  match value with
  | none =>
    rw [readToken, pad, trimBlanks_append_blanks]
    rfl
  | some [] =>
    rw [readToken, pad, trimBlanks_append_blanks]
    rfl
  | some (c :: text) =>
    have trimmed : trimBlanks (pad width (token (some (c :: text)))) = escape (c :: text) :=
      (trimBlanks_append_blanks ..).trans (trimBlanks_escape _)
    have read := unescape_escape (c :: text)
    obtain ⟨d, rest, written, other⟩ := exists_escape_cons c text
    rw [written] at trimmed read
    exact readToken_of_trimmed trimmed other read

/-! ### Lines -/

/-- The last line of a text that is being read, up to the line feed. -/
theorem lines_append (text : List Char) (free : '\n' ∉ text) (seen rest : List Char) :
    lines seen (text ++ rest) = lines (text.reverse ++ seen) rest := by
  induction text generalizing seen with
  | nil => rfl
  | cons c text ih =>
    have other : c ≠ '\n' := fun same => free (same ▸ List.mem_cons_self)
    rw [List.cons_append, lines, ih fun mem => free (List.mem_cons_of_mem c mem), List.reverse_cons,
      List.append_assoc, List.singleton_append]
    exact fun same => absurd same other

/-- A text that holds no ends of lines. -/
def Unbroken (text : List Char) : Prop := ∀ c ∈ text, c ∉ ['\n', '\r']

theorem unbroken_append : Unbroken (t ++ u) ↔ Unbroken t ∧ Unbroken u := List.forall_mem_append

theorem Framed.unbroken (framed : Framed t) : Unbroken t :=
  fun _ mem broken => framed.not_mem mem (List.mem_cons_of_mem _ broken)

theorem unbroken_replicate (n : Nat) (plain : c ∉ ['\n', '\r']) : Unbroken (List.replicate n c) :=
  fun _ mem => List.eq_of_mem_replicate mem ▸ plain

/-- Lines that hold no ends of lines are read as they were written. -/
theorem lines_flatMap {ls : List (List Char)} (unbroken : ∀ l ∈ ls, Unbroken l) :
    lines [] (ls.flatMap (· ++ ['\n'])) = ls := by
  induction ls with
  | nil => rfl
  | cons l ls ih =>
    have whole := unbroken l List.mem_cons_self
    have feed : '\n' ∉ l := fun mem => whole _ mem (by decide)
    rw [List.flatMap_cons, List.append_assoc, lines_append l feed, List.singleton_append,
      List.append_nil, lines, ih fun r mem => unbroken r (List.mem_cons_of_mem l mem), List.reverse_reverse]
    intro before seen
    have mem : '\r' ∈ l := by
      rw [← List.mem_reverse, seen]
      exact List.mem_cons_self
    exact whole _ mem (by decide)

/-- Equals signs around a text that holds none are taken off. -/
theorem dropWhile_equals (free : '=' ∉ t) (a b : Nat) :
    (((List.replicate a '=' ++ (t ++ List.replicate b '=')).dropWhile (· = '=')).reverse.dropWhile
      (· = '=')).reverse = t := by
  have equals (n : Nat) : ∀ c ∈ List.replicate n '=', decide (c = '=') = true := by simp
  have kept {u : List Char} (free : '=' ∉ u) : u.dropWhile (· = '=') = u := by
    cases u with
    | nil => rfl
    | cons c u =>
      have other : c ≠ '=' := fun same => free (same ▸ List.mem_cons_self)
      exact List.dropWhile_cons_of_neg (by simpa using other)
  rw [List.dropWhile_append_of_pos (equals a)]
  cases t with
  | nil =>
    rw [List.nil_append, List.dropWhile_eq_nil_iff.mpr (equals b)]
    rfl
  | cons c t =>
    have other : c ≠ '=' := fun same => free (same ▸ List.mem_cons_self)
    rw [List.cons_append, List.dropWhile_cons_of_neg (by simpa using other), ← List.cons_append,
      List.reverse_append, List.reverse_replicate, List.dropWhile_append_of_pos (equals b),
      kept (by rwa [List.mem_reverse]), List.reverse_reverse]

/-- The name is read from the middle of its line. -/
theorem readName_frameName (line total : Nat) (value : Option (List Char))
    (room : (token value).length + 2 ≤ total) :
    readName line (frameName total (token value)) = .ok value := by
  obtain ⟨a, left⟩ : ∃ a, (total - (token value).length) / 2 = a + 1 := ⟨_, (Nat.succ_pred (by omega)).symm⟩
  obtain ⟨b, right⟩ : ∃ b, total - (token value).length - (total - (token value).length) / 2 = b + 1 :=
    ⟨_, (Nat.succ_pred (by omega)).symm⟩
  have free : '=' ∉ token value := fun mem => (framed_token value).not_mem mem List.mem_cons_self
  have inner : readToken line (token value) = .ok value := by simpa [pad] using readToken_pad line 0 value
  have framed : frameName total (token value) =
      '=' :: ((List.replicate a '=' ++ (token value ++ List.replicate b '=')) ++ ['=']) := by
    rw [frameName, right, left, List.replicate_succ, List.replicate_succ']
    simp
  rw [framed, readName, List.reverse_concat]
  show readToken line _ = _
  rw [List.reverse_reverse, dropWhile_equals free, inner]

theorem unbroken_frameName (total : Nat) (value : Option (List Char)) :
    Unbroken (frameName total (token value)) := by
  rw [frameName, unbroken_append, unbroken_append]
  exact ⟨⟨unbroken_replicate _ (by decide), (framed_token value).unbroken⟩, unbroken_replicate _ (by decide)⟩

end LiveTable.PlainText
