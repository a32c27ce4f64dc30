import LiveTable.Format.Basic

/-! Text in XML.  Five marks and the carriage return are written as references; reading replaces
    references by name and by number, and refuses any other. -/

namespace LiveTable.Xml

/-- The written form of a character. -/
def escapeChar (c : Char) : List Char :=
  if c = '&' then "&amp;".toList
  else if c = '<' then "&lt;".toList
  else if c = '>' then "&gt;".toList
  else if c = '"' then "&quot;".toList
  else if c = '\'' then "&apos;".toList
  else if c = '\r' then "&#13;".toList
  else [c]

/-- The written form of a text, for elements and attribute values alike. -/
def escape (text : List Char) : List Char := text.flatMap escapeChar

/-- Cuts a text at the first place where a mark stands: what comes before it and what comes behind. -/
def cut (mark : List Char) : List Char → Option (List Char × List Char)
  | [] => none
  | c :: rest =>
    if mark.isPrefixOf (c :: rest) then some ([], (c :: rest).drop mark.length)
    else (cut mark rest).map fun (before, behind) => (c :: before, behind)

theorem cut_shorter {mark text before behind : List Char} (positive : mark ≠ [])
    (found : cut mark text = some (before, behind)) : behind.length < text.length := by
  induction text generalizing before behind with
  | nil => simp [cut] at found
  | cons c rest ih =>
    unfold cut at found
    split at found
    · simp only [Option.some.injEq, Prod.mk.injEq] at found
      have : 0 < mark.length := List.length_pos_iff.2 positive
      rw [← found.2]
      simp only [List.length_drop, List.length_cons]
      omega
    · rcases deeper : cut mark rest with _ | ⟨front, back⟩
      · simp [deeper] at found
      · simp only [deeper, Option.map_some, Option.some.injEq, Prod.mk.injEq] at found
        have := ih deeper
        rw [← found.2]
        simp only [List.length_cons]
        omega

theorem length_dropWhile_le (p : Char → Bool) (text : List Char) :
    (text.dropWhile p).length ≤ text.length := by
  induction text with
  | nil => simp
  | cons c rest ih =>
    simp only [List.dropWhile_cons]
    split
    · simp only [List.length_cons]
      omega
    · exact Nat.le_refl _

/-- The character with a code, if there is one. -/
def charOfCode? (code : Nat) : Option Char :=
  if code < 0xd800 ∨ (0xdfff < code ∧ code < 0x110000) then some (Char.ofNat code) else none

/-- The number of a reference in some base, at most 32 bits long. -/
def codeOf? (radix : Nat) (digits : List Char) : Option Nat :=
  match Numeral.readNatural radix 0xffffffff digits with
  | .ok code => some code
  | .error _ => none

/-- The character that a reference stands for. -/
def entity? (name : List Char) : Option Char :=
  if name = "amp".toList then some '&'
  else if name = "lt".toList then some '<'
  else if name = "gt".toList then some '>'
  else if name = "quot".toList then some '"'
  else if name = "apos".toList then some '\''
  else
    match name with
    | '#' :: 'x' :: digits => (codeOf? 16 digits).bind charOfCode?
    | '#' :: digits => (codeOf? 10 digits).bind charOfCode?
    | _ => none

/-- Reads a text with references. -/
def unescape (text : List Char) : Except Defect (List Char) :=
  match text with
  | [] => .ok []
  | c :: rest =>
    if c = '&' then
      match _found : cut [';'] rest with
      | none => .error .openEntity
      | some (name, behind) =>
        match entity? name with
        | some d => (unescape behind).map (d :: ·)
        | none => .error (.unknownEntity name)
    else (unescape rest).map (c :: ·)
termination_by text.length
decreasing_by
  · have := cut_shorter (by simp) _found
    simp only [List.length_cons]
    omega
  · simp

end LiveTable.Xml
