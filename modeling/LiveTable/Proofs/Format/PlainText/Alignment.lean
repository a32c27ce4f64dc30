import LiveTable.Proofs.Format.PlainText.Table
import Mathlib.Algebra.GroupWithZero.Nat
import Mathlib.Data.List.Forall2

/-! The lines of a plain text stand in one frame.  The width of a column is that of its longest token, so
    every token fits and is filled up to just that width; and as a written token holds no loose mark of
    its own, the separators of a line are where its widths put them.  The widths are the same for the
    header and all rows, so their separators stand below each other, and the lines of the name and of the
    closing rule are as long as the longest of all. -/

namespace LiveTable.PlainText

variable {mark : Char} {width offset : Nat} {widths least : List Nat} {t rest : List Char}
    {ts : List (List Char)}
  {rows : List (List (List Char))} {inclusion : Inclusion}

/-! ### Widths -/

/-- Tokens fit into widths, one into each. -/
def Fit (widths : List Nat) (ts : List (List Char)) : Prop :=
  List.Forall₂ (fun width t => t.length ≤ width) widths ts

theorem Fit.wider {wider : List Nat} (fit : Fit widths ts) (more : List.Forall₂ (· ≤ ·) widths wider) :
    Fit wider ts := by
  induction fit generalizing wider with
  | nil =>
    cases more
    exact .nil
  | cons enough _ ih =>
    cases more with
    | cons le more => exact .cons (Nat.le_trans enough le) (ih more)

/-- Widened by the tokens of a row, widths hold what they held before and these tokens. -/
theorem widen (length : widths.length = ts.length) :
    List.Forall₂ (· ≤ ·) widths (List.zipWith (fun w t => max w t.length) widths ts) ∧
      Fit (List.zipWith (fun w t => max w t.length) widths ts) ts := by
  induction widths generalizing ts with
  | nil =>
    obtain rfl := List.length_eq_zero_iff.mp length.symm
    exact ⟨.nil, .nil⟩
  | cons w widths ih =>
    cases ts with
    | nil => simp at length
    | cons t ts =>
      obtain ⟨more, fit⟩ := ih (Nat.succ.inj length)
      exact ⟨.cons (Nat.le_max_left ..) more, .cons (Nat.le_max_right ..) fit⟩

theorem length_widen (length : widths.length = ts.length) :
    (List.zipWith (fun w t => max w t.length) widths ts).length = widths.length :=
  (widen length).1.length_eq.symm

/-- What fits into widths fits into them when they are widened by rows. -/
theorem Fit.columnWidths (fit : Fit widths ts) (same : ∀ row ∈ rows, row.length = widths.length) :
    Fit (columnWidths widths rows) ts := by
  induction rows generalizing widths with
  | nil => exact fit
  | cons row rows ih =>
    have length := (same row List.mem_cons_self).symm
    refine ih (fit.wider (widen length).1) fun r mem => ?_
    rw [length_widen length]
    exact same r (List.mem_cons_of_mem row mem)

/-- Every row fits into the widths of its columns. -/
theorem fit_columnWidths (same : ∀ row ∈ rows, row.length = widths.length) :
    ∀ row ∈ rows, Fit (columnWidths widths rows) row := by
  induction rows generalizing widths with
  | nil => nofun
  | cons row rows ih =>
    have length := (same row List.mem_cons_self).symm
    have later : ∀ r ∈ rows, r.length = (List.zipWith (fun w t => max w t.length) widths row).length := by
      intro r mem
      rw [length_widen length]
      exact same r (List.mem_cons_of_mem row mem)
    exact List.forall_mem_cons.mpr ⟨(widen length).2.columnWidths later, ih later⟩

theorem foldl_max_le {n : Nat} (lengths : List Nat) (least : Nat) :
    lengths.foldl max least ≤ n ↔ least ≤ n ∧ ∀ m ∈ lengths, m ≤ n := by
  induction lengths generalizing least with
  | nil => simp
  | cons m lengths ih => rw [List.foldl_cons, ih, Nat.max_le, List.forall_mem_cons, and_assoc]

theorem maxWidth_le {n : Nat} : maxWidth ts ≤ n ↔ ∀ t ∈ ts, t.length ≤ n := by
  rw [maxWidth, foldl_max_le, List.forall_mem_map]
  exact and_iff_right (Nat.zero_le n)

/-- The greatest length of lines of one length. -/
theorem maxWidth_of_length (same : ∀ t ∈ ts, t.length = width) (unlined : ts = [] → width = 0) :
    maxWidth ts = width := by
  refine Nat.le_antisymm (maxWidth_le.mpr fun t mem => Nat.le_of_eq (same t mem)) ?_
  cases ts with
  | nil => exact Nat.le_of_eq (unlined rfl)
  | cons t ts =>
    rw [← same t List.mem_cons_self]
    exact maxWidth_le.mp (Nat.le_refl _) t List.mem_cons_self

/-! ### Separators -/

/-- Where the marks of a line stand that are not escaped, counted from an offset. -/
def separatorsFrom (offset : Nat) : List Char → List Nat
  | [] => []
  | '\\' :: _ :: rest => separatorsFrom (offset + 2) rest
  | c :: rest =>
    if c = '|' ∨ c = '!' then offset :: separatorsFrom (offset + 1) rest else separatorsFrom (offset + 1) rest

/-- Where the separators of a line stand. -/
def separators (line : List Char) : List Nat := separatorsFrom 0 line

/-- Where columns of these widths end if the first begins at an offset. -/
def columnEnds (offset : Nat) : List Nat → List Nat
  | [] => []
  | width :: widths => (offset + width) :: columnEnds (offset + width + 1) widths

/-- No separator stands in a framed text. -/
theorem Framed.separatorsFrom (framed : Framed t) (offset : Nat) :
    PlainText.separatorsFrom offset (t ++ rest) = PlainText.separatorsFrom (offset + t.length) rest := by
  induction framed generalizing offset with
  | nil => rfl
  | @plain c text free _ ih =>
    have other : c ≠ '\\' ∧ ¬(c = '|' ∨ c = '!') := by
      refine ⟨?_, ?_⟩
      · rintro rfl
        simp at free
      · rintro (rfl | rfl) <;> simp at free
    rw [List.cons_append, PlainText.separatorsFrom, if_neg other.2, ih, List.length_cons, Nat.add_assoc,
      Nat.add_comm 1]
    exact fun _ _ same => absurd same other.1
  | escaped _ _ ih =>
    rw [List.cons_append, List.cons_append, PlainText.separatorsFrom, ih, List.length_cons, List.length_cons]
    congr 1
    omega

theorem length_pad (enough : t.length ≤ width) : (pad width t).length = width := by
  rw [pad, List.length_append, List.length_replicate, Nat.add_sub_of_le enough]

theorem separatorsFrom_mark (frame : mark ∈ ['|', '!']) (offset : Nat) (rest : List Char) :
    separatorsFrom offset (mark :: rest) = offset :: separatorsFrom (offset + 1) rest := by
  rcases List.mem_pair.mp frame with rfl | rfl <;> rfl

/-- A token that is filled up to a width is closed by a separator just behind that width. -/
theorem separatorsFrom_pad (framed : Framed t) (enough : t.length ≤ width) (frame : mark ∈ ['|', '!'])
    (offset : Nat) : separatorsFrom offset (pad width t ++ mark :: rest) =
      (offset + width) :: separatorsFrom (offset + width + 1) rest := by
  rw [(framed_pad width framed).separatorsFrom, length_pad enough, separatorsFrom_mark frame]

/-! ### Lines -/

/-- A line that begins with a separator and has one behind each of columns of the given widths, the last
    at its end. -/
structure Ruled (widths : List Nat) (l : List Char) : Prop where
  separators : separators l = 0 :: columnEnds 1 widths
  length : l.length = 1 + (widths.map (· + 1)).sum

theorem length_columnEnds (offset : Nat) (widths : List Nat) :
    (columnEnds offset widths).length = widths.length := by
  induction widths generalizing offset with
  | nil => rfl
  | cons width widths ih => exact congrArg (· + 1) (ih _)

/-- Tokens that fit into widths are closed where the widths end. -/
theorem separatorsFrom_closeAll (frame : mark ∈ ['|', '!']) (fit : Fit widths ts)
    (framed : ∀ t ∈ ts, Framed t) (offset : Nat) :
    separatorsFrom offset (closeAll mark widths ts) = columnEnds offset widths ∧
      (closeAll mark widths ts).length = (widths.map (· + 1)).sum := by
  induction fit generalizing offset with
  | nil => exact ⟨rfl, rfl⟩
  | @cons width t widths ts enough _ ih =>
    obtain ⟨first, others⟩ := List.forall_mem_cons.mp framed
    obtain ⟨ends, length⟩ := ih others (offset + width + 1)
    have written :
        closeAll mark (width :: widths) (t :: ts) = pad width t ++ mark :: closeAll mark widths ts := by
      simp [closeAll]
    rw [written, separatorsFrom_pad first enough frame, ends]
    refine ⟨rfl, ?_⟩
    rw [List.length_append, List.length_cons, length_pad enough, length, List.map_cons, List.sum_cons]
    omega

/-- A line that is opened by a mark and holds nothing but closed tokens. -/
theorem ruled_closeAll {opening : Char} (opens : opening ∈ ['|', '!']) (frame : mark ∈ ['|', '!'])
    (fit : Fit widths ts) (framed : ∀ t ∈ ts, Framed t) :
    Ruled widths (opening :: closeAll mark widths ts) := by
  obtain ⟨ends, length⟩ := separatorsFrom_closeAll frame fit framed 1
  refine ⟨?_, by rw [List.length_cons, length, Nat.add_comm]⟩
  rw [separators, separatorsFrom_mark opens, ends]

/-- A line whose first token is closed by a mark of its own. -/
theorem ruled_titled (frame : mark ∈ ['|', '!']) (framed : Framed t) (enough : t.length ≤ width)
    (fit : Fit widths ts) (others : ∀ u ∈ ts, Framed u) :
    Ruled (width :: widths) ('!' :: (pad width t ++ '!' :: closeAll mark widths ts)) := by
  obtain ⟨ends, length⟩ := separatorsFrom_closeAll frame fit others (1 + width + 1)
  refine ⟨?_, ?_⟩
  · rw [separators, separatorsFrom_mark (by decide), separatorsFrom_pad framed enough (by decide), ends]
    rfl
  · rw [List.length_cons, List.length_append, List.length_cons, length_pad enough, length, List.map_cons,
      List.sum_cons]
    omega

/-- The widths of a line, with that of the row titles if they are included. -/
def lineWidths (inclusion : Inclusion) (titleWidth : Nat) (widths : List Nat) : List Nat :=
  if inclusion.rowTitles then titleWidth :: widths else widths

theorem framed_tokens (values : List (Option (List Char))) : ∀ t ∈ values.map token, Framed t :=
  List.forall_mem_map.mpr fun value _ => framed_token value

theorem ruled_headerLine {titleWidth : Nat} {titles : List (Option (List Char))}
    (fit : Fit widths (titles.map token)) :
    Ruled (lineWidths inclusion titleWidth widths) (headerLine inclusion titleWidth widths titles) := by
  rw [lineWidths, headerLine]
  cases inclusion.rowTitles with
  | false => exact ruled_closeAll (by decide) (by decide) fit (framed_tokens titles)
  | true =>
    have frame : '!' ∈ ['|', '!'] := by decide
    simpa using ruled_titled frame .nil (Nat.zero_le titleWidth) fit (framed_tokens titles)

theorem ruled_rowLine {titleWidth : Nat} {title : Option (List Char)} {values : List (Option (List Char))}
    (enough : (token title).length ≤ titleWidth) (fit : Fit widths (values.map token)) :
    Ruled (lineWidths inclusion titleWidth widths) (rowLine inclusion titleWidth widths title values) := by
  rw [lineWidths, rowLine]
  cases inclusion.rowTitles with
  | false => exact ruled_closeAll (by decide) (by decide) fit (framed_tokens values)
  | true =>
    have frame : '|' ∈ ['|', '!'] := by decide
    simpa using ruled_titled frame (framed_token title) enough fit (framed_tokens values)

theorem length_lineWidths {titleWidth : Nat} :
    (lineWidths inclusion titleWidth widths).length =
      (if inclusion.rowTitles then 1 else 0) + widths.length := by
  rw [lineWidths]
  cases inclusion.rowTitles with
  | false => exact (Nat.zero_add _).symm
  | true => exact Nat.add_comm _ 1

/-- The name fills a line that has room for it, with at least one equals sign at each end. -/
theorem frameName_spec {total : Nat} (room : t.length + 2 ≤ total) :
    (frameName total t).length = total ∧ ∃ left right, 1 ≤ left ∧ 1 ≤ right ∧
      frameName total t = List.replicate left '=' ++ t ++ List.replicate right '=' := by
  refine ⟨?_, (total - t.length) / 2, total - t.length - (total - t.length) / 2, by omega, by omega, rfl⟩
  simp only [frameName, List.length_append, List.length_replicate]
  omega

/-! ### Tables -/

/-- The lines of a table as plain text. -/
structure Frame where
  named : List (List Char)
  header : List (List Char)
  rows : List (List Char)
  rule : List Char

/-- All lines in their order. -/
def Frame.lines (f : Frame) : List (List Char) := f.named ++ (f.header ++ f.rows) ++ [f.rule]

section Table

variable {α : Type} [Element α] (c : Content α)

/-- The length of the lines of the name and of the rule around lines of a width. -/
def totalWidth (inclusion : Inclusion) (width : Nat) : Nat :=
  max (max width (if inclusion.name then (token (c.name.map String.toList)).length + 2 else 0)) 2

/-- A table is written in these lines, its titles and rows in lines of one width with separators at the
    same offsets. -/
structure Frame.Shows (f : Frame) (inclusion : Inclusion) (width : Nat) (ends : List Nat) : Prop where
  written : write c inclusion = f.lines.flatMap (· ++ ['\n'])
  unbroken : ∀ l ∈ f.lines, '\n' ∉ l
  named : f.named.length = if inclusion.name then 1 else 0
  header : f.header.length = if inclusion.columnTitles then 1 else 0
  rows : f.rows.length = c.rowCount
  aligned : ∀ l ∈ f.header ++ f.rows, l.length = width ∧ separators l = ends
  unlined : f.header ++ f.rows = [] → width = 0
  columns : ends.length = 1 + (if inclusion.rowTitles then 1 else 0) + c.columnCount
  framed : ∀ l ∈ f.named ++ [f.rule], l.length = totalWidth c inclusion width
  dashes : ∀ d ∈ f.rule, d = '-'
  equals : ∀ l ∈ f.named, ∃ left right, 1 ≤ left ∧ 1 ≤ right ∧
    l = List.replicate left '=' ++ token (c.name.map String.toList) ++ List.replicate right '='

theorem fit_widthsOf_titles (included : inclusion.columnTitles) :
    Fit (widthsOf c inclusion) (((List.range c.columnCount).map (titleText? c .column)).map token) := by
  let titles := (List.range c.columnCount).map fun column => token (titleText? c .column column)
  have fit : Fit (titles.map List.length) titles :=
    List.forall₂_map_left_iff.mpr (List.forall₂_same.mpr fun _ _ => Nat.le_refl _)
  have same : ((List.range c.columnCount).map (titleText? c .column)).map token = titles := List.map_map
  rw [widthsOf, if_pos included, same]
  refine fit.columnWidths (List.forall_mem_map.mpr fun row _ => ?_)
  simp [titles]

theorem fit_widthsOf_row (inclusion : Inclusion) {row : Nat} (inside : row < c.rowCount) :
    Fit (widthsOf c inclusion) (((List.range c.columnCount).map (cellText? c row)).map token) := by
  have mem := List.mem_map_of_mem
    (f := fun row => (List.range c.columnCount).map fun column => token (cellText? c row column))
    (List.mem_range.mpr inside)
  rw [List.map_map]
  refine fit_columnWidths (List.forall_mem_map.mpr fun row _ => ?_) _ mem
  cases inclusion.columnTitles <;> simp

/-- Every line of titles or elements is ruled by the same widths. -/
theorem ruled_bodyLines (inclusion : Inclusion) :
    ∀ l ∈ bodyLines c inclusion, Ruled (lineWidths inclusion (titleWidthOf c) (widthsOf c inclusion)) l := by
  rw [bodyLines_eq]
  intro l mem
  rcases List.mem_append.mp mem with header | row
  · split at header
    case isTrue included =>
      rw [List.mem_singleton.mp header]
      exact ruled_headerLine (fit_widthsOf_titles c included)
    case isFalse => exact absurd header List.not_mem_nil
  · obtain ⟨index, inside, rfl⟩ := List.mem_map.mp row
    have enough : (token (titleText? c .row index)).length ≤ titleWidthOf c :=
      maxWidth_le.mp (Nat.le_refl _) _ (List.mem_map_of_mem inside)
    exact ruled_rowLine enough (fit_widthsOf_row c inclusion (List.mem_range.mp inside))

/-- The lines of titles and elements are as wide as the widest. -/
theorem length_of_mem_bodyLines {l : List Char} (mem : l ∈ bodyLines c inclusion) :
    l.length = maxWidth (bodyLines c inclusion) := by
  have ruled := ruled_bodyLines c inclusion
  have widest : maxWidth (bodyLines c inclusion) = l.length :=
    maxWidth_of_length (fun other mem' => (ruled other mem').length.trans (ruled l mem).length.symm)
      fun none => absurd mem (none ▸ List.not_mem_nil)
  exact widest.symm

/-- The lines in which a table is written. -/
def frameOf (inclusion : Inclusion) : Frame where
  named :=
    if inclusion.name then
      [frameName (totalWidth c inclusion (maxWidth (bodyLines c inclusion)))
        (token (c.name.map String.toList))]
    else []
  header :=
    if inclusion.columnTitles then
      [headerLine inclusion (titleWidthOf c) (widthsOf c inclusion)
        ((List.range c.columnCount).map (titleText? c .column))]
    else []
  rows := (List.range c.rowCount).map fun row => rowLine inclusion (titleWidthOf c) (widthsOf c inclusion)
    (titleText? c .row row) ((List.range c.columnCount).map (cellText? c row))
  rule := List.replicate (totalWidth c inclusion (maxWidth (bodyLines c inclusion))) '-'

theorem bodyLines_eq_frameOf (inclusion : Inclusion) :
    bodyLines c inclusion = (frameOf c inclusion).header ++ (frameOf c inclusion).rows :=
  bodyLines_eq c inclusion

/-- The line of the name, which stands there only if the name is included and so has room. -/
theorem of_mem_named {l : List Char} (mem : l ∈ (frameOf c inclusion).named) :
    let total := totalWidth c inclusion (maxWidth (bodyLines c inclusion))
    (token (c.name.map String.toList)).length + 2 ≤ total ∧
      l = frameName total (token (c.name.map String.toList)) := by
  intro total
  obtain ⟨included, rfl⟩ : inclusion.name ∧ l = frameName total (token (c.name.map String.toList)) := by
    simpa [frameOf] using mem
  refine ⟨?_, rfl⟩
  show _ ≤ totalWidth c inclusion _
  rw [totalWidth, if_pos included]
  omega

/-- A table of whatever elements, titles and name is written as a well-formed frame: a line with the name
    between equals signs and one with the column titles, if they are included, one for each row, and a
    rule of dashes, each ended by the only line feed that it holds.  The lines of titles and rows are
    equally long and their separators stand below each other; the lines of the name and of the rule are
    as long, or as long as the name with its frame if that is longer, or two characters if nothing needs
    more. -/
theorem write_shows (c : Content α) (inclusion : Inclusion) :
    ∃ f width ends, Frame.Shows c f inclusion width ends := by
  have body := bodyLines_eq_frameOf c inclusion
  refine ⟨frameOf c inclusion, maxWidth (bodyLines c inclusion),
    0 :: columnEnds 1 (lineWidths inclusion (titleWidthOf c) (widthsOf c inclusion)), ?_⟩
  constructor
  case written =>
    rw [write, Frame.lines, ← body]
    rfl
  case unbroken =>
    intro l mem
    rw [Frame.lines, ← body, List.mem_append, List.mem_append, List.mem_singleton] at mem
    have whole : Unbroken l := by
      rcases mem with (named | line) | rfl
      · rw [(of_mem_named c named).2]
        exact unbroken_frameName _ _
      · exact unbroken_bodyLines c inclusion l line
      · exact unbroken_replicate _ (by decide)
    exact fun broken => whole _ broken List.mem_cons_self
  case named =>
    rw [frameOf]
    cases inclusion.name <;> rfl
  case header =>
    rw [frameOf]
    cases inclusion.columnTitles <;> rfl
  case rows => rw [frameOf, List.length_map, List.length_range]
  case aligned =>
    rw [← body]
    exact fun l mem => ⟨length_of_mem_bodyLines c mem, (ruled_bodyLines c inclusion l mem).separators⟩
  case unlined =>
    intro none
    rw [body, none]
    rfl
  case columns =>
    rw [List.length_cons, length_columnEnds, length_lineWidths, length_widthsOf]
    omega
  case framed =>
    intro l mem
    rcases List.mem_append.mp mem with named | rule
    · obtain ⟨room, rfl⟩ := of_mem_named c named
      exact (frameName_spec room).1
    · rw [List.mem_singleton.mp rule, frameOf, List.length_replicate]
  case dashes => exact fun d mem => List.eq_of_mem_replicate mem
  case equals =>
    intro l mem
    obtain ⟨room, rfl⟩ := of_mem_named c mem
    exact (frameName_spec room).2

end Table

end LiveTable.PlainText
