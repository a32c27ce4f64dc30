import LiveTable.Proofs.Format.Xml.Markup
import Mathlib.Data.List.TakeWhile

/-! Where the pieces of a text begin.  What is cut off at the front of a text is the same whatever stands
    behind it, so the chunks before any place where a piece begins are the chunks of the text up to
    there, and the line counted at that place is one more than the line feeds up to there. -/

namespace LiveTable.Xml

variable {c : Char} {mark t text rest before behind body : List Char} {line : Nat} {quote : Option Char}

/-! ### Cutting -/

/-- A text is cut at a mark whatever stands behind the mark. -/
theorem cut_eq_some (positive : mark ≠ []) (found : cut mark t = some (before, behind)) :
    t = before ++ mark ++ behind ∧ ∀ more, cut mark (before ++ mark ++ more) = some (before, more) := by
  induction t generalizing before behind with
  | nil => cases found
  | cons c rest ih =>
    rw [cut] at found
    split at found
    · next here =>
      obtain ⟨others, whole⟩ := List.isPrefixOf_iff_prefix.mp here
      obtain ⟨rfl, rfl⟩ := Prod.mk.inj (Option.some.inj found)
      obtain ⟨m, ms, rfl⟩ := List.exists_cons_of_ne_nil positive
      refine ⟨by rw [← whole, List.drop_left, List.nil_append], fun more => ?_⟩
      rw [List.nil_append, List.cons_append, cut, if_pos]
      · rw [← List.cons_append, List.drop_left]
      · exact List.isPrefixOf_iff_prefix.mpr (List.prefix_append (m :: ms) more)
    · next elsewhere =>
      obtain ⟨⟨front, back⟩, deeper, same⟩ := Option.map_eq_some_iff.mp found
      obtain ⟨rfl, rfl⟩ := Prod.mk.inj same
      obtain ⟨rfl, further⟩ := ih deeper
      refine ⟨rfl, fun more => ?_⟩
      have still : ¬mark.isPrefixOf (c :: (front ++ mark ++ more)) := by
        refine fun here => elsewhere (List.isPrefixOf_iff_prefix.mpr ?_)
        -- the mark is not longer than what stands up to its own end
        have short : mark.length ≤ (c :: front ++ mark).length := by
          rw [List.length_append]
          exact Nat.le_add_left ..
        have early : mark <+: c :: front ++ mark :=
          List.prefix_of_prefix_length_le (List.isPrefixOf_iff_prefix.mp here)
            (List.prefix_append _ more) short
        exact early.trans (List.prefix_append _ back)
      rw [List.cons_append, List.cons_append, cut, if_neg still, further]
      rfl

/-- A text is cut at the first of one character. -/
theorem cut_singleton_eq_some (found : cut [c] t = some (before, behind)) :
    t = before ++ c :: behind ∧ c ∉ before := by
  refine ⟨by simpa using (cut_eq_some (List.cons_ne_nil c []) found).1, ?_⟩
  induction t generalizing before behind with
  | nil => cases found
  | cons d rest ih =>
    rw [cut] at found
    split at found
    · obtain ⟨rfl, -⟩ := Prod.mk.inj (Option.some.inj found)
      exact List.not_mem_nil
    · next other =>
      obtain ⟨⟨front, back⟩, deeper, same⟩ := Option.map_eq_some_iff.mp found
      obtain ⟨rfl, rfl⟩ := Prod.mk.inj same
      have unlike : c ≠ d := by
        rintro rfl
        simp at other
      exact mt List.mem_cons.mp (not_or.mpr ⟨unlike, ih deeper⟩)

theorem not_mem_of_cut_singleton (uncut : cut [c] t = none) : c ∉ t := by
  intro mem
  obtain ⟨before, behind, rfl, free⟩ := List.eq_append_cons_of_mem mem
  rw [cut_singleton free] at uncut
  cases uncut

theorem cutTag_eq_some (found : cutTag quote t = some (body, behind)) :
    t = body ++ '>' :: behind ∧ ∀ more, cutTag quote (body ++ '>' :: more) = some (body, more) := by
  induction t generalizing quote body behind with
  | nil => cases found
  | cons c rest ih =>
    cases quote with
    | some q =>
      rw [cutTag] at found
      obtain ⟨⟨front, back⟩, deeper, same⟩ := Option.map_eq_some_iff.mp found
      obtain ⟨rfl, rfl⟩ := Prod.mk.inj same
      obtain ⟨rfl, further⟩ := ih deeper
      refine ⟨rfl, fun more => ?_⟩
      rw [List.cons_append, cutTag]
      simp only [further, Option.map_some]
    | none =>
      rw [cutTag] at found
      dsimp only at found
      split at found
      · next closing =>
        obtain ⟨rfl, rfl⟩ := Prod.mk.inj (Option.some.inj found)
        subst closing
        exact ⟨rfl, fun more => rfl⟩
      · next other =>
        obtain ⟨⟨front, back⟩, deeper, same⟩ := Option.map_eq_some_iff.mp found
        obtain ⟨rfl, rfl⟩ := Prod.mk.inj same
        obtain ⟨rfl, further⟩ := ih deeper
        refine ⟨rfl, fun more => ?_⟩
        rw [List.cons_append, cutTag]
        simp only [if_neg other, further, Option.map_some]

/-! ### Pieces -/

theorem lineFeeds_append (t u : List Char) : lineFeeds (t ++ u) = lineFeeds t + lineFeeds u :=
  List.count_append

/-- Markup is left out if it begins in one of three ways. -/
theorem skipMark?_eq (text : List Char) :
    skipMark? text =
      if ['<', '?'] <+: text then some ['?', '>']
      else if ['<', '!', '-', '-'] <+: text then some ['-', '-', '>']
      else if ['<', '!'] <+: text then some ['>']
      else none := by
  unfold skipMark?
  split
  · simp
  · simp
  · next rest plain =>
    have uncommented : ¬['-', '-'] <+: rest := by
      rintro ⟨behind, same⟩
      exact plain behind same.symm
    simp [uncommented]
  · next question comment bang =>
    have unlike {opening : List Char} (other : ∀ behind, text ≠ opening ++ behind) : ¬opening <+: text :=
      fun ⟨behind, same⟩ => other behind same.symm
    rw [if_neg (unlike question), if_neg (unlike comment), if_neg (unlike bang)]

/-- A mark that ends markup ends with an angle bracket and holds no line feed. -/
theorem closes_of_skipMark? (skipped : skipMark? text = some mark) :
    mark.getLast? = some '>' ∧ '\n' ∉ mark := by
  have closing {m : List Char} (closes : m.getLast? = some '>' ∧ '\n' ∉ m) (same : some m = some mark) :
      mark.getLast? = some '>' ∧ '\n' ∉ mark := Option.some.inj same ▸ closes
  rw [skipMark?_eq] at skipped
  split at skipped
  · exact closing (by decide) skipped
  · split at skipped
    · exact closing (by decide) skipped
    · split at skipped
      · exact closing (by decide) skipped
      · cases skipped

/-- What comes behind the end of a tag has no part in whether the tag is left out. -/
theorem skipMark?_append (ends : '>' ∈ t) (more : List Char) : skipMark? (t ++ more) = skipMark? t := by
  have same (opening : List Char) (free : '>' ∉ opening) : opening <+: t ++ more ↔ opening <+: t := by
    refine ⟨fun here => ?_, fun here => here.trans (List.prefix_append t more)⟩
    rcases List.prefix_or_prefix_of_prefix here (List.prefix_append t more) with short | long
    · exact short
    · exact absurd (long.subset ends) free
  simp only [skipMark?_eq, same ['<', '?'] (by decide), same ['<', '!', '-', '-'] (by decide),
    same ['<', '!'] (by decide)]

/-- How the first piece of a text is cut off: at a mark or a bracket that is found there whatever stands
    behind it, or where the next tag begins. -/
inductive CutsOff (line : Nat) : List Char → Piece → Prop where
  | skipped {mark before behind : List Char} (skips : skipMark? (before ++ mark) = some mark)
      (found : ∀ more, cut mark (before ++ mark ++ more) = some (before, more)) :
      CutsOff line (before ++ mark ++ behind) ⟨none, before, behind⟩
  | endTag {body behind : List Char} (free : '>' ∉ body) :
      CutsOff line ('<' :: '/' :: body ++ '>' :: behind) ⟨some (.endTag line body), body, behind⟩
  | startTag {body behind : List Char} (kept : skipMark? ('<' :: body ++ ['>']) = none)
      (opens : body.head? ≠ some '/')
      (found : ∀ more, cutTag none (body ++ '>' :: more) = some (body, more)) :
      CutsOff line ('<' :: body ++ '>' :: behind) ⟨some (.startTag line body), body, behind⟩
  | text {c : Char} {t behind : List Char} (free : '<' ∉ c :: t) (ends : ∀ d ∈ behind.head?, d = '<') :
      CutsOff line (c :: t ++ behind) ⟨some (.text line (c :: t)), c :: t, behind⟩
  | broken (text : List Char) {defect : Defect}
      (unclosed : defect = .openEndTag ∨ defect = .openStartTag ∨ ∃ mark, defect = .openMarkup mark) :
      CutsOff line text { chunk := some (.broken line defect) }

/-- A start tag is kept, and is no end tag, whatever stands behind it. -/
theorem cutsOff_startTag (kept : skipMark? ('<' :: t) = none) (opens : t.head? ≠ some '/')
    (found : cutTag none t = some (body, behind)) (line : Nat) :
    CutsOff line ('<' :: t) ⟨some (.startTag line body), body, behind⟩ := by
  obtain ⟨rfl, further⟩ := cutTag_eq_some found
  have ends : '>' ∈ '<' :: body ++ ['>'] := by simp
  have whole : '<' :: (body ++ '>' :: behind) = '<' :: body ++ ['>'] ++ behind := by simp
  rw [whole, skipMark?_append ends] at kept
  refine .startTag kept (fun slash => opens ?_) further
  rw [List.head?_append, slash, Option.some_or]

/-- A text ends where the next tag begins. -/
theorem cutsOff_text (other : c ≠ '<') (line : Nat) (rest : List Char) :
    CutsOff line (c :: rest) ⟨some (.text line (c :: rest.takeWhile (· != '<'))),
      c :: rest.takeWhile (· != '<'), rest.dropWhile (· != '<')⟩ := by
  have free : '<' ∉ c :: rest.takeWhile (· != '<') := by
    refine mt List.mem_cons.mp (not_or.mpr ⟨Ne.symm other, fun mem => ?_⟩)
    have unlike : ('<' != '<') = true := List.mem_takeWhile_imp (p := (· != '<')) mem
    exact absurd unlike (by decide)
  have ends : ∀ d ∈ (rest.dropWhile (· != '<')).head?, d = '<' := by
    intro d mem
    have stops := List.head?_dropWhile_not (· != '<') rest
    rw [Option.mem_def.mp mem] at stops
    simpa using stops
  have piece : CutsOff line (c :: rest.takeWhile (· != '<') ++ rest.dropWhile (· != '<')) _ := .text free ends
  rwa [List.cons_append, List.takeWhile_append_dropWhile] at piece

theorem cutsOff_firstPiece (line : Nat) (c : Char) (rest : List Char) :
    CutsOff line (c :: rest) (firstPiece line c rest) := by
  unfold firstPiece
  split
  · next mark skips =>
    split
    · next before behind found =>
      obtain ⟨whole, further⟩ := cut_eq_some (skipMark?_ne_nil skips) found
      have ends : '>' ∈ mark := List.mem_of_getLast? (closes_of_skipMark? skips).1
      rw [whole] at skips ⊢
      rw [skipMark?_append (List.mem_append_right before ends)] at skips
      exact .skipped skips further
    · exact .broken _ (.inr (.inr ⟨mark, rfl⟩))
  · next kept =>
    split
    · next opening =>
      subst opening
      split
      · next name =>
        split
        · next body behind found =>
          obtain ⟨rfl, free⟩ := cut_singleton_eq_some found
          exact .endTag free
        · exact .broken _ (.inl rfl)
      · next unlike =>
        split
        · next body behind found =>
          have opens : rest.head? ≠ some '/' := by
            intro slash
            obtain ⟨others, rfl⟩ := List.head?_eq_some_iff.mp slash
            exact unlike _ rfl
          exact cutsOff_startTag kept opens found line
        · exact .broken _ (.inr (.inl rfl))
    · next other => exact cutsOff_text other line rest

theorem firstPiece_startTag (kept : skipMark? ('<' :: t) = none) (opens : t.head? ≠ some '/')
    (found : cutTag none t = some (body, behind)) :
    firstPiece line '<' t = ⟨some (.startTag line body), body, behind⟩ := by
  simp only [firstPiece, kept, if_true]
  split
  · exact absurd rfl opens
  · rw [found]

/-- What a first piece takes up of a text, when something is left behind: the line feeds of its body, and
    all up to where a tag ends or the next one begins.  It takes up the same when less is left. -/
structure Takes (line : Nat) (c : Char) (rest : List Char) (piece : Piece) (taken : List Char) : Prop where
  whole : rest = taken ++ piece.behind
  feeds : lineFeeds (c :: taken) = lineFeeds piece.body
  boundary : (c :: taken).getLast? = some '>' ∨ piece.behind.head? = some '<'
  shorter : ∀ more, more <+: piece.behind → firstPiece line c (taken ++ more) = { piece with behind := more }

theorem exists_takes (left : (firstPiece line c rest).behind ≠ []) :
    ∃ taken, Takes line c rest (firstPiece line c rest) taken := by
  have cuts := cutsOff_firstPiece line c rest
  generalize firstPiece line c rest = piece at cuts left ⊢
  generalize whole : c :: rest = text at cuts
  cases cuts with
  | @skipped mark before behind skips found =>
    obtain ⟨taken, front, back⟩ : ∃ taken, before ++ mark = c :: taken ∧ rest = taken ++ behind := by
      rcases List.cons_eq_append_iff.mp whole with ⟨none, -⟩ | found
      · exact absurd (List.append_eq_nil_iff.mp none).2 (skipMark?_ne_nil skips)
      · exact found
    obtain ⟨closes, unbroken⟩ := closes_of_skipMark? skips
    refine ⟨taken, back, ?_, .inl ?_, fun more _ => ?_⟩
    · rw [← front, lineFeeds_append, show lineFeeds mark = 0 from List.count_eq_zero.mpr unbroken]
      rfl
    · rw [← front, List.getLast?_append, closes, Option.some_or]
    · have ends : '>' ∈ before ++ mark := List.mem_append_right before (List.mem_of_getLast? closes)
      have same : c :: (taken ++ more) = before ++ mark ++ more := by rw [front, List.cons_append]
      simp only [firstPiece, same, skipMark?_append ends, skips, found]
  | @endTag body behind free =>
    obtain ⟨rfl, rfl⟩ := List.cons.inj whole
    have last : ('<' :: '/' :: body ++ ['>']).getLast? = some '>' := List.getLast?_concat
    refine ⟨'/' :: body ++ ['>'], by simp, ?_, .inl last, fun more _ => ?_⟩
    · simp [lineFeeds]
    · have cut := cut_singleton free more
      have kept : skipMark? ('<' :: '/' :: (body ++ '>' :: more)) = none := rfl
      simp [firstPiece, kept, cut]
  | @startTag body behind kept opens found =>
    obtain ⟨rfl, rfl⟩ := List.cons.inj whole
    have last : ('<' :: body ++ ['>']).getLast? = some '>' := List.getLast?_concat
    refine ⟨body ++ ['>'], by simp, ?_, .inl last, fun more _ => ?_⟩
    · simp [lineFeeds]
    · have kept := (skipMark?_append (by simp) more).trans kept
      have found := found more
      have opens : (body ++ '>' :: more).head? ≠ some '/' := by
        cases body <;> simp_all
      rw [List.append_assoc, List.singleton_append]
      rw [List.append_assoc, List.singleton_append, List.cons_append] at kept
      exact firstPiece_startTag kept opens found
  | @text d t behind free ends =>
    obtain ⟨rfl, rfl⟩ := List.cons.inj whole
    obtain ⟨e, others, rfl⟩ := List.exists_cons_of_ne_nil left
    obtain rfl : e = '<' := ends e rfl
    refine ⟨t, rfl, rfl, .inr rfl, fun more front => firstPiece_text free (fun d mem => ?_) line⟩
    obtain ⟨others', same⟩ := front
    cases more with
    | nil => cases mem
    | cons m more =>
      obtain rfl := Option.some.inj mem
      exact (List.cons.inj same).1
  | broken => exact absurd rfl left

/-! ### Chunks -/

/-- Where a chunk begins in a text: the chunks before it are those of the text up to there, and a tag
    ends or begins there unless it is at the very beginning. -/
structure Begins (line : Nat) (text : List Char) (front : List Chunk) (chunk : Chunk)
    (before : List Char) (c : Char) (rest : List Char) : Prop where
  whole : text = before ++ c :: rest
  front : chunks line before = front
  cut : (firstPiece (line + lineFeeds before) c rest).chunk = some chunk
  boundary : before = [] ∨ before.getLast? = some '>' ∨ c = '<'

theorem chunks_cons (line : Nat) (c : Char) (rest : List Char) :
    chunks line (c :: rest) = (firstPiece line c rest).chunk.toList ++
      chunks (line + lineFeeds (firstPiece line c rest).body) (firstPiece line c rest).behind := by
  rw [chunks]

/-- A chunk behind the first piece begins as far behind what the piece takes up. -/
theorem Takes.begins {taken : List Char} {front : List Chunk} {chunk : Chunk} {d : Char} {others : List Char}
    (takes : Takes line c rest (firstPiece line c rest) taken)
    (later : Begins (line + lineFeeds (firstPiece line c rest).body) (firstPiece line c rest).behind front
      chunk before
      d others) :
    Begins line (c :: rest) ((firstPiece line c rest).chunk.toList ++ front) chunk
      (c :: taken ++ before) d others where
  whole := by rw [List.append_assoc, ← later.whole, List.cons_append, ← takes.whole]
  front := by
    rw [List.cons_append, chunks_cons, takes.shorter before ⟨d :: others, later.whole.symm⟩]
    exact congrArg ((firstPiece line c rest).chunk.toList ++ ·) later.front
  cut := by
    rw [lineFeeds_append, takes.feeds, ← Nat.add_assoc]
    exact later.cut
  boundary := by
    refine .inr ?_
    rw [List.getLast?_append]
    cases last : before.getLast? with
    | none =>
      -- the chunk begins where the first piece ends
      obtain rfl := List.getLast?_eq_none_iff.mp last
      have ended := takes.boundary
      rw [later.whole] at ended
      exact ended.imp_right Option.some.inj
    | some e =>
      have some_before : before ≠ [] := by
        rintro rfl
        cases last
      have ended := later.boundary.resolve_left some_before
      rw [last] at ended
      exact ended

/-- Every chunk begins somewhere. -/
theorem exists_begins {line : Nat} {text : List Char} {front later : List Chunk} {chunk : Chunk}
    (cuts : chunks line text = front ++ chunk :: later) :
    ∃ before c rest, Begins line text front chunk before c rest := by
  match text with
  | [] =>
    rw [chunks] at cuts
    simp at cuts
  | c :: rest =>
    rw [chunks_cons] at cuts
    -- the first piece may have no chunk of its own
    have further {front' : List Chunk}
        (cuts' : chunks (line + lineFeeds (firstPiece line c rest).body) (firstPiece line c rest).behind =
          front' ++ chunk :: later) :
        ∃ before d others,
          Begins line (c :: rest) ((firstPiece line c rest).chunk.toList ++ front') chunk before d
            others := by
      obtain ⟨before, d, others, begins⟩ := exists_begins cuts'
      have left : (firstPiece line c rest).behind ≠ [] := by simp [begins.whole]
      obtain ⟨taken, takes⟩ := exists_takes left
      exact ⟨_, d, others, takes.begins begins⟩
    cases first : (firstPiece line c rest).chunk with
    | none =>
      rw [first] at cuts further
      exact further cuts
    | some k =>
      rw [first] at cuts further
      cases front with
      | nil =>
        obtain ⟨rfl, -⟩ := List.cons.inj cuts
        exact ⟨[], c, rest, rfl, by rw [chunks], first, .inl rfl⟩
      | cons k' front =>
        obtain ⟨rfl, later_cuts⟩ := List.cons.inj cuts
        exact further later_cuts
termination_by text.length
decreasing_by exact Nat.lt_succ_of_le (length_firstPiece_le line c rest)

end LiveTable.Xml
