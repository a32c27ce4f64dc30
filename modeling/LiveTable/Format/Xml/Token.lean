import LiveTable.Format.Xml.Chunk

/-! XML tokens: chunks with their names, attributes and text read.  All references of a chunk are
    reported at the line where the chunk starts. -/

namespace LiveTable

namespace Text

/-! ### Blanks -/

/-- Whether a character is white space: the property covers more than the six blanks of ASCII. -/
def isBlankChar (c : Char) : Bool :=
  let n := c.toNat
  (0x9 ≤ n && n ≤ 0xd) || n == 0x20 || n == 0x85 || n == 0xa0 || n == 0x1680 ||
    (0x2000 ≤ n && n ≤ 0x200a) || n == 0x2028 || n == 0x2029 || n == 0x202f || n == 0x205f || n == 0x3000

/-- Whether a text holds no visible character at all. -/
def isBlank (cs : List Char) : Bool := cs.all isBlankChar

/-- The text without the blanks at its start. -/
def trimStart (cs : List Char) : List Char := cs.dropWhile isBlankChar

/-- The text without the blanks at its end. -/
def trimEnd (cs : List Char) : List Char := (cs.reverse.dropWhile isBlankChar).reverse

/-- The text without the blanks at either end. -/
def trim (cs : List Char) : List Char := trimEnd (trimStart cs)

end Text

namespace Xml

/-- An attribute: its name and its value. -/
abbrev Attribute := List Char × List Char

/-- A token. -/
inductive Token where
  /-- A start tag; an empty one stands for a whole element. -/
  | startTag (line : Nat) (name : List Char) (attributes : List Attribute) (isEmpty : Bool)
  | endTag (line : Nat) (name : List Char)
  | text (line : Nat) (text : List Char)
  deriving DecidableEq, Repr

namespace Token

/-- The line where a token starts. -/
def line : Token → Nat
  | startTag line _ _ _ => line
  | endTag line _ => line
  | text line _ => line

/-- Whether a token is text without a visible character. -/
def isBlank : Token → Bool
  | text _ t => Text.isBlank t
  | _ => false

/-- The token as messages show it. -/
def describe : Token → List Char
  | startTag _ name _ _ => '<' :: name ++ ['>']
  | endTag _ name => '<' :: '/' :: name ++ ['>']
  | text _ t => "text '".toList ++ Text.trim t ++ ['\'']

end Token

/-- The value of the first attribute with a name. -/
def attribute? (attributes : List Attribute) (name : List Char) : Option (List Char) := attributes.lookup name

theorem length_trimStart_le (text : List Char) : (Text.trimStart text).length ≤ text.length :=
  length_dropWhile_le _ _

/-- Reads the attributes of a start tag. -/
def attributes (element : List Char) (text : List Char) : Except Defect (List Attribute) :=
  match text with
  | [] => .ok []
  | c :: rest =>
    match _equals : cut ['='] (c :: rest) with
    | none => .error (.noAttributeValue element)
    | some (before, behind) =>
      let key := Text.trim before
      match _value : Text.trimStart behind with
      | [] => .error (.unquotedAttribute key)
      | quote :: inside =>
        if quote = '"' || quote = '\'' then
          match _close : cut [quote] inside with
          | none => .error (.openAttribute key)
          | some (raw, further) =>
            match unescape raw with
            | .error defect => .error defect
            | .ok value => (attributes element (Text.trimStart further)).map ((key, value) :: ·)
        else .error (.unquotedAttribute key)
termination_by text.length
decreasing_by
  have first := cut_shorter (by simp) _equals
  have second := length_trimStart_le behind
  rw [_value] at second
  have third := cut_shorter (by simp) _close
  have fourth := length_trimStart_le further
  simp only [List.length_cons] at *
  omega

/-- Takes a slash at the end of a start tag off. -/
def splitSlash (body : List Char) : List Char × Bool :=
  match body.reverse with
  | '/' :: before => (before.reverse, true)
  | _ => (body, false)

/-- Reads the body of a start tag. -/
def readStartTag (line : Nat) (body : List Char) : Except Defect Token :=
  let (inner, isEmpty) := splitSlash body
  let name := inner.takeWhile fun c => !Text.isBlankChar c
  if name.isEmpty then .error .noElementName
  else
    (attributes name (Text.trimStart (inner.dropWhile fun c => !Text.isBlankChar c))).map fun found =>
      .startTag line name found isEmpty

/-- Reads a chunk. -/
def Token.ofChunk (format : Format) : Chunk → Except FormatFault Token
  | .startTag line body => (readStartTag line body).mapError (.line format line)
  | .endTag line body => .ok (.endTag line (Text.trim body))
  | .text line body => ((unescape body).map (.text line)).mapError (.line format line)
  | .broken line defect => .error (.line format line defect)

/-- The tokens of a text. -/
def tokens (format : Format) (text : List Char) : Except FormatFault (List Token) :=
  (chunks 1 text).mapM (Token.ofChunk format)

/-- The line of the last token. -/
def lastLine (ts : List Token) : Nat := (ts.getLast?.map Token.line).getD 1

/-- Whether attributes mark an element as null. -/
def isNull (attributes : List Attribute) : Bool :=
  attribute? attributes "null".toList = some "true".toList ||
    attribute? attributes "class".toList = some "null".toList

/-- A value element being read: whether it is marked null, and its text so far. -/
structure Value where
  null : Bool
  text : List Char := []

/-- What a value element stands for. -/
def Value.result (v : Value) : Option (List Char) := if v.null then none else some v.text

end Xml

end LiveTable
