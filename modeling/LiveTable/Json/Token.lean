/-! JSON tokens.  The scanner reads one character at a time in one of a few modes, so it ends with its
    input.  Words and numbers run up to the next blank, punctuation or string and are judged as a
    whole. -/

namespace LiveTable.Json

/-- A token. -/
inductive Token where
  | openArray
  | closeArray
  | openObject
  | closeObject
  | comma
  | colon
  | null
  | bool (value : Bool)
  | integer (value : Int)
  | real
  | string (value : Option String)
  deriving DecidableEq, Repr

/-- What a string is made of: characters, and halves of surrogate pairs that came from escapes. -/
inductive Piece where
  | char (c : Char)
  | half (unit : Nat)
  deriving DecidableEq, Repr

/-- The text of the pieces: a high half and the low half right after it make one character, and no half
    may stand alone. -/
def assemble : List Piece → Option (List Char)
  | [] => some []
  | .char c :: rest => (assemble rest).map (c :: ·)
  | .half high :: .half low :: rest =>
    if high < 0xdc00 ∧ 0xdc00 ≤ low then
      (assemble rest).map (Char.ofNat (0x10000 + (high - 0xd800) * 0x400 + (low - 0xdc00)) :: ·)
    else none
  | .half _ :: _ => none

/-- The piece that an escape by number stands for. -/
def Piece.ofUnit (unit : Nat) : Piece :=
  if 0xd800 ≤ unit ∧ unit < 0xe000 then .half unit else .char (Char.ofNat unit)

/-- The character that an escape of one letter stands for. -/
def unescape? : Char → Option Char
  | '"' => some '"'
  | '\\' => some '\\'
  | '/' => some '/'
  | 'b' => some '\x08'
  | 'f' => some '\x0c'
  | 'n' => some '\n'
  | 'r' => some '\r'
  | 't' => some '\t'
  | _ => none

/-- The value of a hexadecimal digit. -/
def hexValue? (c : Char) : Option Nat :=
  if '0' ≤ c ∧ c ≤ '9' then some (c.toNat - 48)
  else if 'a' ≤ c ∧ c ≤ 'f' then some (c.toNat - 87)
  else if 'A' ≤ c ∧ c ≤ 'F' then some (c.toNat - 55)
  else none

/-- Whether a text is one or more digits. -/
def isDigits (cs : List Char) : Bool := !cs.isEmpty && cs.all Char.isDigit

/-- Whether a text is what may follow the digits of an exponent mark. -/
def isExponent : List Char → Bool
  | '+' :: rest => isDigits rest
  | '-' :: rest => isDigits rest
  | rest => isDigits rest

/-- Whether a text is what may follow the integer part of a number that is no integer. -/
def isRealTail : List Char → Bool
  | '.' :: rest =>
    isDigits (rest.takeWhile Char.isDigit) &&
      match rest.dropWhile Char.isDigit with
      | [] => true
      | mark :: exponent => (mark = 'e' || mark = 'E') && isExponent exponent
  | mark :: exponent => (mark = 'e' || mark = 'E') && isExponent exponent
  | [] => false

/-- Whether digits are a number without needless zeros in front. -/
def isPlainInteger (digits : List Char) : Bool :=
  isDigits digits && (digits.length = 1 || digits.head? != some '0')

/-- The value of a list of digits. -/
def digitsValue (digits : List Char) : Nat := digits.foldl (fun n c => n * 10 + (c.toNat - 48)) 0

/-- The token of an unsigned number. -/
def unsigned? (negative : Bool) (cs : List Char) : Option Token :=
  let digits := cs.takeWhile Char.isDigit
  if isPlainInteger digits then
    match cs.dropWhile Char.isDigit with
    | [] =>
      let n := digitsValue digits
      some (if negative then (if n = 0 then .real else .integer (-n)) else .integer n)
    | tail => if isRealTail tail then some .real else none
  else none

/-- The token of a word or number. -/
def word? (cs : List Char) : Option Token :=
  if cs = "null".toList then some .null
  else if cs = "true".toList then some (.bool true)
  else if cs = "false".toList then some (.bool false)
  else
    match cs with
    | '-' :: rest => unsigned? true rest
    | _ => unsigned? false cs

/-- What the scanner is in the middle of; texts in progress are kept backwards. -/
inductive Mode where
  | between
  | word (seen : List Char)
  | inString (seen : List Piece)
  | escape (seen : List Piece)
  | number (seen : List Piece) (digits value : Nat)

/-- The token of a punctuation mark. -/
def punctuation? : Char → Option Token
  | '[' => some .openArray
  | ']' => some .closeArray
  | '\x7b' => some .openObject
  | '\x7d' => some .closeObject
  | ',' => some .comma
  | ':' => some .colon
  | _ => none

/-- Whether a character is a blank between tokens. -/
def isSpace (c : Char) : Bool := c = ' ' || c = '\n' || c = '\t' || c = '\r'

/-- The token of a string. -/
def stringToken (seen : List Piece) : Token := .string ((assemble seen.reverse).map String.ofList)

/-- Splits a text into tokens; `none` if some part of it is none. -/
def scan : Mode → List Char → Option (List Token)
  | .between, [] => some []
  | .word seen, [] => (word? seen.reverse).map ([·])
  | _, [] => none
  | .between, c :: rest =>
    if isSpace c then scan .between rest
    else if c = '"' then scan (.inString []) rest
    else
      match punctuation? c with
      | some t => (scan .between rest).map (t :: ·)
      | none => scan (.word [c]) rest
  | .word seen, c :: rest =>
    if isSpace c then
      (word? seen.reverse).bind fun t => (scan .between rest).map (t :: ·)
    else if c = '"' then
      (word? seen.reverse).bind fun t => (scan (.inString []) rest).map (t :: ·)
    else
      match punctuation? c with
      | some p => (word? seen.reverse).bind fun t => (scan .between rest).map (t :: p :: ·)
      | none => scan (.word (c :: seen)) rest
  | .inString seen, c :: rest =>
    if c = '"' then (scan .between rest).map (stringToken seen :: ·)
    else if c = '\\' then scan (.escape seen) rest
    else if c.toNat < 0x20 then none
    else scan (.inString (.char c :: seen)) rest
  | .escape seen, c :: rest =>
    if c = 'u' then scan (.number seen 0 0) rest
    else
      match unescape? c with
      | some d => scan (.inString (.char d :: seen)) rest
      | none => none
  | .number seen digits value, c :: rest =>
    match hexValue? c with
    | none => none
    | some d =>
      if digits = 3 then scan (.inString (.ofUnit (value * 16 + d) :: seen)) rest
      else scan (.number seen (digits + 1) (value * 16 + d)) rest

/-- The tokens of a text. -/
def tokens? (cs : List Char) : Option (List Token) := scan .between cs

end LiveTable.Json
