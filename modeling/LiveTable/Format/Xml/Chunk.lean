import LiveTable.Format.Xml.Text

/-! Chunks: an XML text cut into tags and the text between them, each with the line it starts at.
    Declarations, instructions and comments are left out.  A chunk that is not closed is the last one and
    keeps its defect. -/

namespace LiveTable.Xml

/-- A piece of an XML text. -/
inductive Chunk where
  | startTag (line : Nat) (body : List Char)
  | endTag (line : Nat) (body : List Char)
  | text (line : Nat) (body : List Char)
  | broken (line : Nat) (defect : Defect)
  deriving DecidableEq, Repr

/-- The number of line feeds in a text. -/
def lineFeeds (text : List Char) : Nat := text.count '\n'

/-- Cuts a text at the first `>` that is not inside quotes. -/
def cutTag (quote : Option Char) : List Char → Option (List Char × List Char)
  | [] => none
  | c :: rest =>
    match quote with
    | some mark =>
      (cutTag (if c = mark then none else some mark) rest).map fun (body, behind) => (c :: body, behind)
    | none =>
      if c = '>' then some ([], rest)
      else
        (cutTag (if c = '"' || c = '\'' then some c else none) rest).map fun (body, behind) =>
          (c :: body, behind)

theorem cutTag_shorter {quote : Option Char} {text body behind : List Char}
    (found : cutTag quote text = some (body, behind)) : behind.length < text.length := by
  induction text generalizing quote body behind with
  | nil => simp [cutTag] at found
  | cons c rest ih =>
    unfold cutTag at found
    split at found
    · obtain ⟨⟨front, back⟩, deeper, same⟩ := Option.map_eq_some_iff.1 found
      have := ih deeper
      simp only [Prod.mk.injEq] at same
      rw [← same.2]
      simp only [List.length_cons]
      omega
    · split at found
      · simp only [Option.some.injEq, Prod.mk.injEq] at found
        rw [← found.2]
        simp
      · obtain ⟨⟨front, back⟩, deeper, same⟩ := Option.map_eq_some_iff.1 found
        have := ih deeper
        simp only [Prod.mk.injEq] at same
        rw [← same.2]
        simp only [List.length_cons]
        omega

/-- What ends a piece of markup that is left out, looked for from its very first character. -/
def skipMark? : List Char → Option (List Char)
  | '<' :: '?' :: _ => some ['?', '>']
  | '<' :: '!' :: '-' :: '-' :: _ => some ['-', '-', '>']
  | '<' :: '!' :: _ => some ['>']
  | _ => none

theorem skipMark?_ne_nil {text mark : List Char} (found : skipMark? text = some mark) : mark ≠ [] := by
  rintro rfl
  unfold skipMark? at found
  split at found <;> cases found

/-- What a text begins with: the chunk that it makes, if it makes one, the part that was read for it, and
    what is behind it.  A chunk that is not closed has nothing behind it. -/
structure Piece where
  chunk : Option Chunk
  body : List Char := []
  behind : List Char := []

/-- The first piece of a text that begins with a character. -/
def firstPiece (line : Nat) (c : Char) (rest : List Char) : Piece :=
  match skipMark? (c :: rest) with
  | some mark =>
    match cut mark (c :: rest) with
    | some (before, behind) => ⟨none, before, behind⟩
    | none => { chunk := some (.broken line (.openMarkup mark)) }
  | none =>
    if c = '<' then
      match rest with
      | '/' :: name =>
        match cut ['>'] name with
        | some (body, behind) => ⟨some (.endTag line body), body, behind⟩
        | none => { chunk := some (.broken line .openEndTag) }
      | _ =>
        match cutTag none rest with
        | some (body, behind) => ⟨some (.startTag line body), body, behind⟩
        | none => { chunk := some (.broken line .openStartTag) }
    else
      let body := c :: rest.takeWhile (· != '<')
      ⟨some (.text line body), body, rest.dropWhile (· != '<')⟩

theorem length_firstPiece_le (line : Nat) (c : Char) (rest : List Char) :
    (firstPiece line c rest).behind.length ≤ rest.length := by
  unfold firstPiece
  split
  · next mark skipped =>
    split
    · next before behind found => exact Nat.le_of_lt_succ (cut_shorter (skipMark?_ne_nil skipped) found)
    · exact Nat.zero_le _
  · split
    · split
      · next name =>
        split
        · next body behind found =>
          exact Nat.le_succ_of_le (Nat.le_of_lt (cut_shorter (List.cons_ne_nil _ _) found))
        · exact Nat.zero_le _
      · split
        · next body behind found => exact Nat.le_of_lt (cutTag_shorter found)
        · exact Nat.zero_le _
    · exact length_dropWhile_le _ rest

/-- Cuts a text into chunks, its first character standing at the given line. -/
def chunks (line : Nat) (text : List Char) : List Chunk :=
  match text with
  | [] => []
  | c :: rest =>
    let piece := firstPiece line c rest
    piece.chunk.toList ++ chunks (line + lineFeeds piece.body) piece.behind
termination_by text.length
decreasing_by exact Nat.lt_succ_of_le (length_firstPiece_le line c rest)

end LiveTable.Xml
