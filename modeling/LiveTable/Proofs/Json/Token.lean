import LiveTable.Json.Token
import LiveTable.Json.Value
import Mathlib.Data.List.TakeWhile

/-! JSON texts scanned.  A text is known by the tokens that the scanner makes of it, whatever stands
    behind it.  Strings and punctuation end by themselves; a word or a number ends where the next blank,
    string or punctuation begins, so what stands behind it must begin with one of these. -/

namespace LiveTable.Json

variable {a b text rest : List Char} {ts us : List Token} {c : Char} {t : Token}

/-! ### Texts and their tokens -/

/-- Whether a character ends a word. -/
def endsWord (c : Char) : Bool := isSpace c || c = '"' || (punctuation? c).isSome

/-- A text before which a word can end. -/
def Ends (rest : List Char) : Prop := ∀ c, rest.head? = some c → endsWord c

/-- A text is scanned as tokens, whatever stands behind it. -/
def Splits (text : List Char) (ts : List Token) : Prop :=
  ∀ rest, scan .between (text ++ rest) = (scan .between rest).map (ts ++ ·)

/-- A text is scanned as tokens, if what stands behind it ends it. -/
def Scans (text : List Char) (ts : List Token) : Prop :=
  ∀ rest, Ends rest → scan .between (text ++ rest) = (scan .between rest).map (ts ++ ·)

theorem Splits.scans (h : Splits text ts) : Scans text ts := fun rest _ => h rest

/-- Tokens put in front of others that are put in front. -/
theorem map_append_map_append (ts us : List Token) (rest? : Option (List Token)) :
    (rest?.map (us ++ ·)).map (ts ++ ·) = rest?.map (ts ++ us ++ ·) := by
  cases rest? with
  | none => rfl
  | some rest => exact congrArg some (List.append_assoc ts us rest).symm

theorem Splits.append (first : Splits a ts) (later : Splits b us) : Splits (a ++ b) (ts ++ us) := by
  intro rest
  rw [List.append_assoc, first, later, map_append_map_append]

theorem Splits.append_scans (first : Splits a ts) (later : Scans b us) : Scans (a ++ b) (ts ++ us) := by
  intro rest ends
  rw [List.append_assoc, first, later rest ends, map_append_map_append]

/-- A text that is ended by what comes next ends by itself together with it. -/
theorem Scans.append (first : Scans a ts) (later : Splits (c :: b) us) (ends : endsWord c) :
    Splits (a ++ c :: b) (ts ++ us) := by
  intro rest
  have ended : Ends (c :: b ++ rest) := by
    rintro d head
    obtain rfl : c = d := Option.some.inj head
    exact ends
  rw [List.append_assoc, first _ ended, later, map_append_map_append]

/-- The tokens of a whole text. -/
theorem Scans.tokens? (h : Scans text ts) : tokens? text = some ts := by
  have scanned := h [] fun c head => nomatch head
  rw [List.append_nil] at scanned
  rw [Json.tokens?, scanned]
  simp [scan]

/-! ### Blanks and punctuation -/

theorem splits_blank (blank : isSpace c) : Splits [c] [] := by
  intro rest
  simp [scan, blank]

theorem splits_newLine (depth : Nat) : Splits (newLine depth) [] := by
  have blanks (n : Nat) : Splits (List.replicate n ' ') [] := by
    induction n with
    | zero => exact fun rest => by simp
    | succ n ih => exact (splits_blank (c := ' ') rfl).append ih
  exact (splits_blank (c := '\n') rfl).append (blanks (2 * depth))

/-- Punctuation is neither blank nor the start of a string. -/
theorem not_blank_of_punctuation (mark : punctuation? c = some t) : isSpace c = false ∧ c ≠ '"' := by
  unfold punctuation? at mark
  split at mark <;> first | decide | cases mark

theorem splits_punctuation (mark : punctuation? c = some t) : Splits [c] [t] := by
  obtain ⟨solid, unlike⟩ := not_blank_of_punctuation mark
  intro rest
  simp [scan, solid, unlike, mark]

/-! ### Words -/

theorem of_not_endsWord (inside : endsWord c = false) :
    isSpace c = false ∧ c ≠ '"' ∧ punctuation? c = none := by
  simpa [endsWord, and_assoc] using inside

/-- Characters that end no word are all read into the word. -/
theorem scan_word (seen : List Char) (inside : ∀ c ∈ text, endsWord c = false) :
    scan (.word seen) (text ++ rest) = scan (.word (text.reverse ++ seen)) rest := by
  induction text generalizing seen with
  | nil => rfl
  | cons c text ih =>
    obtain ⟨solid, unlike, unmarked⟩ := of_not_endsWord (inside c List.mem_cons_self)
    have read : scan (.word seen) (c :: (text ++ rest)) = scan (.word (c :: seen)) (text ++ rest) := by
      simp [scan, solid, unlike, unmarked]
    rw [List.cons_append, read, ih _ fun d mem => inside d (List.mem_cons_of_mem c mem), List.reverse_cons,
      List.append_assoc, List.singleton_append]

/-- The end of a word leaves what ends it to be scanned. -/
theorem scan_word_ends (seen : List Char) (ends : Ends rest) :
    scan (.word seen) rest = (word? seen.reverse).bind fun t => (scan .between rest).map (t :: ·) := by
  cases rest with
  | nil =>
    simp only [scan, Option.map_some]
    exact Option.map_eq_bind
  | cons c rest =>
    have ended : endsWord c := ends c rfl
    rw [scan, scan]
    by_cases blank : isSpace c
    · simp only [blank, if_true]
    · by_cases quote : c = '"'
      · simp only [blank, if_false, if_pos quote, Bool.false_eq_true]
      · cases mark : punctuation? c with
        | some p => simp [blank, quote, Option.map_map, Function.comp_def]
        | none => simp [endsWord, blank, quote, mark] at ended

/-- A word is scanned as the token that it is. -/
theorem scans_word {w : List Char} (inside : ∀ c ∈ w, endsWord c = false) (token : word? w = some t) :
    Scans w [t] := by
  intro rest ends
  cases w with
  | nil => cases token
  | cons c w =>
    obtain ⟨solid, unlike, unmarked⟩ := of_not_endsWord (inside c List.mem_cons_self)
    have begun : scan .between (c :: (w ++ rest)) = scan (.word [c]) (w ++ rest) := by
      simp [scan, solid, unlike, unmarked]
    rw [List.cons_append, begun, scan_word [c] fun d mem => inside d (List.mem_cons_of_mem c mem),
      scan_word_ends _ ends, List.reverse_append, List.reverse_reverse, List.reverse_singleton,
      List.singleton_append, token]
    rfl

/-! ### Numbers -/

theorem not_endsWord_of_isDigit (digit : c.isDigit) : endsWord c = false := by
  cases ended : endsWord c with
  | false => rfl
  | true =>
    simp only [endsWord, isSpace, Bool.or_eq_true, decide_eq_true_eq] at ended
    rcases ended with ((((rfl | rfl) | rfl) | rfl) | rfl) | mark
    iterate 5 exact absurd digit (by decide)
    unfold punctuation? at mark
    split at mark <;> first | exact absurd digit (by decide) | cases mark

/-- The digits of a number begin with a zero only if the number is zero. -/
theorem head?_toDigits {n : Nat} (positive : 0 < n) : (Nat.toDigits 10 n).head? ≠ some '0' := by
  induction n using Nat.strongRecOn with
  | ind n ih =>
    rcases Nat.lt_or_ge n 10 with small | large
    · rw [Nat.toDigits_of_lt_base small]
      have apart : ∀ d : Fin 10, 0 < d.val → Nat.digitChar d.val ≠ '0' := by decide
      exact fun zero => apart ⟨n, small⟩ positive (Option.some.inj zero)
    · have front := ih (n / 10) (by omega) (by omega)
      obtain ⟨c, rest, digits⟩ := List.exists_cons_of_ne_nil (Nat.toDigits_ne_nil (n := n / 10) (b := 10))
      rw [digits] at front
      rw [Nat.toDigits_of_base_le (by decide) large, digits]
      exact front

theorem isPlainInteger_toDigits (n : Nat) : isPlainInteger (Nat.toDigits 10 n) := by
  have digits : isDigits (Nat.toDigits 10 n) := by
    rw [isDigits, Bool.and_eq_true]
    refine ⟨by simp [Nat.toDigits_ne_nil], List.all_eq_true.mpr fun c mem => ?_⟩
    exact Nat.isDigit_of_mem_toDigits (by decide) (by decide) mem
  rw [isPlainInteger, digits, Bool.true_and]
  rcases Nat.eq_zero_or_pos n with rfl | positive
  · rfl
  · simpa using .inr (head?_toDigits positive)

theorem digitsValue_toDigits (n : Nat) : digitsValue (Nat.toDigits 10 n) = n := by
  have same : digitsValue (Nat.toDigits 10 n) = Nat.ofDigitChars 10 (Nat.toDigits 10 n) 0 := by
    simp only [digitsValue, Nat.ofDigitChars, Nat.mul_comm 10]
    rfl
  rw [same, Nat.ofDigitChars_ten_toDigits]

/-- Digits are read as a number, which is no integer only if it is a negative zero. -/
theorem unsigned?_toDigits (negative : Bool) (n : Nat) : unsigned? negative (Nat.toDigits 10 n) =
    some (if negative then (if n = 0 then .real else .integer (-n)) else .integer n) := by
  have digits : ∀ c ∈ Nat.toDigits 10 n, c.isDigit := fun c mem =>
    Nat.isDigit_of_mem_toDigits (by decide) (by decide) mem
  have taken : (Nat.toDigits 10 n).takeWhile Char.isDigit = Nat.toDigits 10 n :=
    List.takeWhile_eq_self_iff.mpr digits
  have left : (Nat.toDigits 10 n).dropWhile Char.isDigit = [] := List.dropWhile_eq_nil_iff.mpr digits
  simp only [unsigned?, taken, left, isPlainInteger_toDigits, digitsValue_toDigits, if_true]

theorem word?_of_isDigit (digit : c.isDigit) : word? (c :: rest) = unsigned? false (c :: rest) := by
  have apart : c ≠ 'n' ∧ c ≠ 't' ∧ c ≠ 'f' ∧ c ≠ '-' := by
    refine ⟨?_, ?_, ?_, ?_⟩ <;> rintro rfl <;> exact absurd digit (by decide)
  simp [word?, apart]

theorem word?_negative : word? ('-' :: rest) = unsigned? true rest := by
  simp [word?]

/-- An integer is written with the digits of its absolute value, behind a sign if it is negative. -/
theorem toList_toString (n : Int) :
    (toString n).toList = if n < 0 then '-' :: Nat.toDigits 10 n.natAbs else Nat.toDigits 10 n.natAbs := by
  rw [Int.toString_eq_repr]
  cases n with
  | ofNat m => exact Nat.toList_repr
  | negSucc m =>
    show ("-" ++ Nat.repr (m + 1)).toList = _
    rw [String.toList_append, Nat.toList_repr, if_pos (Int.negSucc_lt_zero m)]
    rfl

theorem scans_integer (n : Int) : Scans (toString n).toList [.integer n] := by
  have digits : ∀ c ∈ Nat.toDigits 10 n.natAbs, c.isDigit := fun c mem =>
    Nat.isDigit_of_mem_toDigits (by decide) (by decide) mem
  have inside : ∀ c ∈ Nat.toDigits 10 n.natAbs, endsWord c = false := fun c mem =>
    not_endsWord_of_isDigit (digits c mem)
  rw [toList_toString]
  by_cases negative : n < 0
  · rw [if_pos negative]
    refine scans_word (fun c mem => ?_) ?_
    · rcases List.mem_cons.mp mem with rfl | later
      · decide
      · exact inside c later
    · have nonzero : n.natAbs ≠ 0 := by omega
      have back : (-(n.natAbs : Int)) = n := by omega
      rw [word?_negative, unsigned?_toDigits, if_pos rfl, if_neg nonzero, back]
  · rw [if_neg negative]
    refine scans_word inside ?_
    have back : (n.natAbs : Int) = n := by omega
    have read := unsigned?_toDigits false n.natAbs
    obtain ⟨c, rest, written⟩ := List.exists_cons_of_ne_nil (Nat.toDigits_ne_nil (n := n.natAbs) (b := 10))
    rw [written] at read digits ⊢
    rw [word?_of_isDigit (digits c List.mem_cons_self), read, back]
    rfl

/-! ### Strings -/

theorem hexValue?_hexDigit (n : Nat) : hexValue? (hexDigit n) = some (n % 16) := by
  have each : ∀ d : Fin 16, hexValue? ((Nat.toDigits 16 d.val).headD '0') = some d.val := by decide
  exact each ⟨n % 16, Nat.mod_lt n (by decide)⟩

/-- A control character is read from its number. -/
theorem scan_number (seen : List Piece) (control : c.toNat < 0x20) :
    scan (.inString seen) (['\\', 'u', '0', '0', hexDigit (c.toNat / 16), hexDigit c.toNat] ++ rest) =
      scan (.inString (.char c :: seen)) rest := by
  have value : c.toNat / 16 % 16 * 16 + c.toNat % 16 = c.toNat := by omega
  have piece : Piece.ofUnit c.toNat = .char c := by
    rw [Piece.ofUnit, if_neg (by omega), Char.ofNat_toNat]
  have zero : hexValue? '0' = some 0 := rfl
  simp [scan, hexValue?_hexDigit, zero, value, piece]

/-- A character is read from its written form. -/
theorem scan_escapeChar (seen : List Piece) (c : Char) (rest : List Char) :
    scan (.inString seen) (escapeChar c ++ rest) = scan (.inString (.char c :: seen)) rest := by
  unfold escapeChar
  split_ifs with special backspace feed line back tab control
  · rcases Bool.or_eq_true_iff.mp special with quote | slash
    · obtain rfl := of_decide_eq_true quote
      rfl
    · obtain rfl := of_decide_eq_true slash
      rfl
  · subst backspace
    rfl
  · subst feed
    rfl
  · subst line
    rfl
  · subst back
    rfl
  · subst tab
    rfl
  · exact scan_number seen control
  · simp only [Bool.or_eq_true, decide_eq_true_eq, not_or] at special
    simp [scan, special, control]

theorem assemble_map_char (text : List Char) : assemble (text.map .char) = some text := by
  induction text with
  | nil => rfl
  | cons c text ih => simp [assemble, ih]

/-- A string is read character by character. -/
theorem splits_quoted (s : String) : Splits (quoted s) [.string (some s)] := by
  have read (text : List Char) : ∀ (seen : List Piece) (rest : List Char),
      scan (.inString seen) (text.flatMap escapeChar ++ '"' :: rest) =
        (scan .between rest).map (stringToken ((text.map Piece.char).reverse ++ seen) :: ·) := by
    induction text with
    | nil => exact fun seen rest => by simp [scan]
    | cons c text ih =>
      intro seen rest
      rw [List.flatMap_cons, List.append_assoc, scan_escapeChar, ih, List.map_cons, List.reverse_cons,
        List.append_assoc, List.singleton_append]
  have token : stringToken ((s.toList.map Piece.char).reverse ++ []) = .string (some s) := by
    rw [stringToken, List.append_nil, List.reverse_reverse, assemble_map_char, Option.map_some,
      String.ofList_toList]
  intro rest
  have begun :
      scan .between (quoted s ++ rest) =
        scan (.inString []) (s.toList.flatMap escapeChar ++ '"' :: rest) := by
    rw [quoted, List.cons_append, List.cons_append, List.append_assoc]
    rfl
  rw [begun, read, token]
  rfl

end LiveTable.Json
