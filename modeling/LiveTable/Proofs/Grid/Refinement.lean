import LiveTable.Proofs.Edit.Steps
import LiveTable.Proofs.Grid.Changes

/-! Operations refine grids.  Each operation that names its place by position gives the result that it
    gives on the grid of the table, and leaves the table with the grid that it leaves there, in either
    orientation and whatever the observers do.  Growing is padding; the operations that grow are read in
    two moves, the padding and the change of a table that is large enough. -/

namespace LiveTable

open Grid (fit)

namespace Edit

variable {α ω : Type} {e : Edit α ω} {axis : Axis}

/-! ### Growing -/

theorem content_growAlong (e : Edit α ω) (axis : Axis) (own other : Nat) :
    (e.growAlong axis own other).content =
      match axis with
      | .row => e.content.growTo own other
      | .column => e.content.growTo other own := by
  cases axis <;> exact content_growTo ..

theorem valid_growAlong (h : e.content.Valid) (axis : Axis) (own other : Nat) :
    (e.growAlong axis own other).content.Valid := by
  rw [content_growAlong]
  cases axis <;> exact h.growTo _ _

theorem grid_growAlong (h : e.content.Valid) (axis : Axis) (own other : Nat) :
    (e.growAlong axis own other).content.grid = e.content.grid.padAlong axis own other := by
  rw [content_growAlong]
  cases axis <;> exact h.grid_growTo _ _

theorem count_growAlong (e : Edit α ω) (axis : Axis) (own other : Nat) :
    (e.growAlong axis own other).content.count axis = max (e.content.count axis) own := by
  rw [content_growAlong]
  cases axis
  · exact Content.rowCount_growTo ..
  · exact Content.columnCount_growTo ..

theorem count_growAlong_cross (e : Edit α ω) (axis : Axis) (own other : Nat) :
    (e.growAlong axis own other).content.count axis.cross = max (e.content.count axis.cross) other := by
  rw [content_growAlong]
  cases axis
  · exact Content.columnCount_growTo ..
  · exact Content.rowCount_growTo ..

/-! ### Cells -/

section Cells

variable [DecidableEq α]

theorem setElement_eq {row column : Nat} (hr : row < unaddressable) (hc : column < unaddressable)
    (element : Option α) :
    (e.setElement row column element).1 = (e.content.growTo (row + 1) (column + 1)).element row column ∧
      (e.setElement row column element).2.content =
        (e.content.growTo (row + 1) (column + 1)).set row column element := by
  simp only [setElement, hr, hc, and_self, if_true, content_growTo, true_and]
  split <;> simp

/-- A write gives what was there in the padded grid, and overwrites it. -/
theorem grid_setElement (h : e.content.Valid) {row column : Nat} (hr : row < unaddressable)
    (hc : column < unaddressable) (element : Option α) :
    (e.setElement row column element).1 = (e.content.grid.pad (row + 1) (column + 1)).cell row column ∧
      (e.setElement row column element).2.content.grid =
        (e.content.grid.pad (row + 1) (column + 1)).overwrite row column element := by
  have written := setElement_eq (e := e) hr hc element
  rw [written.1, written.2, (h.growTo _ _).grid_set, ← h.grid_growTo, Content.cell_grid]
  exact ⟨rfl, rfl⟩

/-- A write inside the table grows nothing. -/
theorem content_setElement {row column : Nat} (hr : row < e.content.rowCount)
    (hc : column < e.content.columnCount)
    (ar : row < unaddressable) (ac : column < unaddressable) (element : Option α) :
    (e.setElement row column element).2.content = e.content.set row column element := by
  rw [(setElement_eq ar ac element).2, Content.growTo_of_le hr hc]

/-- One write inside the table changes one element of one line. -/
theorem lines_setElement (h : e.content.Valid) {p q : Nat} {line : List (Option α)}
    (own : (e.content.lines axis)[p]? = some line) (inside : q < line.length) (ap : p < unaddressable)
    (aq : q < unaddressable) (element : Option α) :
    let written := (e.setElement (axis.coordinates p q).1 (axis.coordinates p q).2 element).2.content
    written.Valid ∧ written.lines axis = (e.content.lines axis).set p (line.set q element) ∧
      ∀ b, written.titles b = e.content.titles b := by
  have hp : p < e.content.count axis := by
    rw [← Content.length_lines]
    exact (List.getElem?_eq_some_iff.mp own).1
  have hq : q < e.content.count axis.cross := by
    rwa [← Content.length_of_mem_lines (List.mem_of_getElem? own)]
  have here : (e.setElement (axis.coordinates p q).1 (axis.coordinates p q).2 element).2.content =
      e.content.set (axis.coordinates p q).1 (axis.coordinates p q).2 element := by
    cases axis
    · exact content_setElement hp hq ap aq element
    · exact content_setElement hq hp aq ap element
  have lines := h.lines_set axis p q element
  rw [List.modify_eq_set_getElem?, own] at lines
  dsimp only
  rw [here]
  exact ⟨h.set _ _ element, lines, Content.titles_set e.content _ _ element⟩

/-- Writing along a stripe inside the table replaces a part of its line; nothing else changes. -/
theorem lines_writeAlong (h : e.content.Valid) {position index n : Nat} {line : List (Option α)}
    (own : (e.content.lines axis)[position]? = some line) (room : index + n ≤ line.length)
    (ap : position < unaddressable) (ai : index + n ≤ unaddressable) (elements : List (Option α)) :
    let written := (e.writeAlong axis position index elements n).content
    written.lines axis = (e.content.lines axis).set position
        (line.take index ++ (fit n elements ++ line.drop (index + n))) ∧
      ∀ b, written.titles b = e.content.titles b := by
  induction n generalizing e index line elements with
  | zero =>
    obtain ⟨inside, rfl⟩ := List.getElem?_eq_some_iff.mp own
    refine ⟨?_, fun b => rfl⟩
    simp [writeAlong, fit]
  | succ n ih =>
    have inside : position < (e.content.lines axis).length := (List.getElem?_eq_some_iff.mp own).1
    obtain ⟨valid, lines, titles⟩ :=
      lines_setElement h own (show index < line.length by omega) ap (show index < unaddressable by omega)
        (elements.head?.getD none)
    have own' := congrArg (·[position]?) lines
    simp only [List.getElem?_set_self inside] at own'
    have room' : index + 1 + n ≤ (line.set index (elements.head?.getD none)).length := by
      rw [List.length_set]
      omega
    obtain ⟨rest, kept⟩ := ih valid own' room' (by omega) elements.tail
    refine ⟨rest.trans ?_, fun b => (kept b).trans (titles b)⟩
    rw [lines, List.set_set, Grid.fit_succ, Grid.take_set_drop (by omega)]

end Cells

theorem grid_removeElement (h : e.content.Valid) (row column : Nat) :
    (e.removeElement row column).1 = e.content.grid.cell row column ∧
      (e.removeElement row column).2.content.grid = e.content.grid.overwrite row column none := by
  refine ⟨(Content.cell_grid ..).symm, ?_⟩
  rw [← h.grid_set]
  simp only [removeElement]
  split <;> simp

/-! ### Stripes -/

/-- A content whose lines along a direction differ from another's in one line is a grid with that line
    replaced. -/
theorem grid_replaceLine {c changed : Content α} {p : Nat} {elements : List (Option α)}
    (lines : changed.lines axis = (c.lines axis).set p (fit (c.count axis.cross) elements))
    (titles : ∀ b, changed.titles b = c.titles b) : changed.grid = c.grid.replaceLine axis p elements := by
  have counts (b : Axis) : changed.count b = c.count b := by
    rw [← Content.count_grid, ← Content.count_grid, Grid.count, Grid.count, Content.titles_grid, titles,
      Content.titles_grid]
  cases axis with
  | row =>
    refine Content.grid_eq ?_ fun b => ?_
    · rw [lines, Grid.replaceLine, Content.count_grid, Content.grid, Content.toRows_eq]
      rfl
    · rw [titles, ← Content.titles_grid]
      cases b <;> rfl
  | column =>
    refine Content.grid_eq ?_ fun b => ?_
    · have turned := Content.lines_cross c .column
      have turned' := Content.lines_cross changed .column
      rw [lines, counts] at turned'
      rw [Grid.replaceLine, Content.count_grid, Content.grid, Content.toRows_eq]
      refine turned'.trans ?_
      show _ = List.zipWith (·.set p ·) (c.lines Axis.column.cross) _
      have crossed : c.count Axis.column.cross = c.count .row := rfl
      rw [turned, crossed]
      refine List.ext_getElem (by simp [length_fit]) fun q hq hq' => ?_
      have inside : q < c.count .row := by
        rw [List.length_map, List.length_range] at hq
        exact hq
      simp [List.map_set, fit, inside]
    · rw [titles, ← Content.titles_grid]
      cases b <;> rfl

theorem grid_setElements [DecidableEq α] (h : e.content.Valid) {position : Nat} {elements : List (Option α)}
    (ap : position < unaddressable) (ai : max (e.content.count axis.cross) elements.length ≤ unaddressable) :
    (e.setElements axis position elements).content.grid =
      (e.content.grid.padAlong axis (position + 1) elements.length).replaceLine axis position elements := by
  rw [setElements, if_pos ap, ← grid_growAlong h]
  have valid := valid_growAlong h axis (position + 1) elements.length
  have own := count_growAlong e axis (position + 1) elements.length
  have cross := count_growAlong_cross e axis (position + 1) elements.length
  dsimp only
  generalize e.growAlong axis (position + 1) elements.length = grown at valid own cross ⊢
  obtain ⟨line, at?⟩ : ∃ line, (grown.content.lines axis)[position]? = some line :=
    ⟨_, List.getElem?_eq_getElem (by rw [Content.length_lines]; omega)⟩
  have length : line.length = grown.content.count axis.cross :=
    Content.length_of_mem_lines (List.mem_of_getElem? at?)
  have room : 0 + grown.content.count axis.cross ≤ line.length := by omega
  obtain ⟨lines, titles⟩ := lines_writeAlong valid at? room ap (by omega) elements
  refine grid_replaceLine (lines.trans ?_) titles
  rw [List.take_zero, Nat.zero_add, ← length, List.drop_length, List.append_nil, List.nil_append]

theorem grid_swap {a b : Nat} (both : e.content.hasBoth axis a b) :
    (e.swap axis a b).1 = true ∧ (e.swap axis a b).2.content.grid = e.content.grid.exchange axis a b := by
  rw [← Content.grid_swap both]
  simp only [swap, if_pos both, true_and]
  split <;> simp

theorem grid_moveRow {source target : Nat} (both : e.content.hasBoth .row source target) :
    (e.moveRow source target).1 = true ∧
      (e.moveRow source target).2.content.grid = e.content.grid.moveRow source target := by
  rw [← Content.grid_moveRow both]
  simp only [moveRow, if_pos both, true_and]
  split <;> simp

theorem grid_insertElements (h : e.content.Valid) (axis : Axis) (position : Nat)
    (elements : List (Option α)) : (e.insertElements axis position elements).1 = position ∧
      (e.insertElements axis position elements).2.content.grid =
        (e.content.grid.padAlong axis position elements.length).insert axis position elements := by
  have valid := valid_growAlong h axis position elements.length
  have room : position ≤ (e.growAlong axis position elements.length).content.count axis := by
    rw [count_growAlong]
    omega
  refine ⟨Nat.min_eq_left room, ?_⟩
  rw [← grid_growAlong h, ← valid.grid_insertStripe room]
  exact congrArg Content.grid (content_announce ..)

theorem removed?_eq (c : Content α) (axis : Axis) (p : Nat) :
    (c.removed? axis p).map Removed.elements = (c.lines axis)[p]? := by
  rw [← Content.elements?_eq, Content.removed?, Content.elements?, Stripes.idAt]
  cases (c.stripes axis).get? p <;> rfl

theorem grid_removeAt (h : e.content.Valid) (axis : Axis) (position : Nat) :
    if position < e.content.count axis then
      (e.removeAt axis position).1 = some (e.content.grid.line axis position) ∧
        (e.removeAt axis position).2.content.grid = e.content.grid.erase axis position
    else e.removeAt axis position = (none, e) := by
  have removed := removed?_eq e.content axis position
  split
  · next inside =>
    obtain ⟨line, at?⟩ : ∃ line, (e.content.lines axis)[position]? = some line :=
      ⟨_, List.getElem?_eq_getElem (by rwa [Content.length_lines])⟩
    rw [at?] at removed
    obtain ⟨stripe, found, rfl⟩ := Option.map_eq_some_iff.mp removed
    have own : ∃ own, (e.content.stripes axis).idAt position = some own := by
      rw [Stripes.idAt_eq]
      exact ⟨_, List.getElem?_eq_getElem (by rwa [← Content.count_eq])⟩
    obtain ⟨own, own_at⟩ := own
    simp only [removeAt, found, content_announce, h.grid_removeStripe own_at, Content.line_grid at?, and_self]
  · next outside =>
    have none_at : (e.content.lines axis)[position]? = none := by simpa using outside
    rw [none_at, Option.map_eq_none_iff] at removed
    simp [removeAt, removed]

/-! ### Titles -/

theorem grid_putTitle (h : e.content.Valid) (axis : Axis) {position : Nat} (ap : position < unaddressable)
    (title : Option String) :
    (e.putTitle axis position title).content.grid =
      (e.content.grid.padAlong axis (position + 1) 0).retitle axis position title := by
  rw [putTitle, if_pos ap, ← grid_growAlong h, ← Content.grid_setTitle]
  exact congrArg Content.grid (content_quietly ..)

/-- Titles given one after the other replace the front of the titles, once the table is padded to them. -/
theorem grid_putTitles (axis : Axis) (titles : List String) (k : Nat) (h : e.content.Reachable)
    (front : k ≤ e.content.count axis) (reach : k + titles.length ≤ unaddressable) :
    ((titles.zipIdx k).foldl (fun e entry => e.putTitle axis entry.2 (some entry.1)) e).content.grid =
      (e.content.grid.extend axis (k + titles.length - e.content.count axis)).mapTitles axis fun old =>
        old.take k ++ (titles.map some ++ old.drop (k + titles.length)) := by
  induction titles generalizing e k with
  | nil =>
    have enough : k - e.content.count axis = 0 := by omega
    cases axis <;> simp [enough, Grid.mapTitles]
  | cons t rest ih =>
    rw [List.length_cons] at reach
    have titled := grid_putTitle h.valid axis (show k < unaddressable by omega) (some t)
    rw [Grid.padAlong_zero, Content.count_grid] at titled
    have count : (e.putTitle axis k (some t)).content.count axis =
        e.content.count axis + (k + 1 - e.content.count axis) := by
      rw [← Content.count_grid, titled, Grid.count, Grid.retitle, Grid.titles_mapTitles, List.length_set,
        ← Grid.count, Grid.count_extend, Content.count_grid]
    have wide : k < (e.content.grid.extend axis (k + 1 - e.content.count axis)).count axis := by
      rw [Grid.count_extend, Content.count_grid]
      omega
    have amount : k + 1 - e.content.count axis +
        (k + 1 + rest.length - (e.content.count axis + (k + 1 - e.content.count axis))) =
          k + (rest.length + 1) - e.content.count axis := by
      omega
    have later := ih (k + 1) ((steps_putTitle e axis k (some t)).reachable h) (by omega) (by omega)
    rw [List.zipIdx_cons, List.foldl_cons, later, titled, count, Grid.extend_retitle wide, Grid.extend_extend,
      amount, Grid.retitle, Grid.mapTitles_mapTitles, List.length_cons, List.map_cons]
    refine Grid.mapTitles_congr (Grid.take_set_drop ?_ (some t) (rest.map some) rest.length)
    rw [← Grid.count, Grid.count_extend, Content.count_grid]
    omega

theorem grid_titlesFromFirst [Element α] (h : e.content.Valid) (axis : Axis) :
    (e.titlesFromFirst axis).content.grid =
      if 0 < e.content.count axis.cross then
        (e.content.grid.mapTitles axis fun _ =>
          (e.content.grid.line axis.cross 0).map Element.cellText).erase axis.cross 0
      else e.content.grid := by
  rw [titlesFromFirst, Content.elements?_eq]
  split
  · next line at? =>
    have inside : 0 < e.content.count axis.cross := by
      rw [← Content.length_lines]
      exact (List.getElem?_eq_some_iff.mp at?).1
    have length : (line.map Element.cellText).length = e.content.count axis := by
      rw [List.length_map, Content.length_of_mem_lines (List.mem_of_getElem? at?), Axis.cross_cross]
    have titled : (e.quietly (·.setTitles axis (line.map Element.cellText))).content =
        e.content.setTitles axis (line.map Element.cellText) := content_quietly ..
    have grid := congrArg Content.grid titled
    rw [Content.grid_setTitles length] at grid
    have valid : (e.quietly (·.setTitles axis (line.map Element.cellText))).content.Valid :=
      titled ▸ h.setTitles axis _
    have kept : (e.quietly (·.setTitles axis (line.map Element.cellText))).content.count axis.cross =
        e.content.count axis.cross := by
      rw [← Content.count_grid, grid, Grid.count, Grid.titles_mapTitles_cross, ← Grid.count,
        Content.count_grid]
    have removed := grid_removeAt valid axis.cross 0
    rw [kept, if_pos inside] at removed
    rw [if_pos inside, removed.2, grid, Content.line_grid at?]
  · next none_at =>
    have outside : ¬0 < e.content.count axis.cross := by
      simpa using none_at
    rw [if_neg outside]

end Edit

namespace Operation

variable {α ω : Type} [Element α] {e : Edit α ω} {operation : Operation α}

/-- What an operation gives and leaves is what the grid of the table says. -/
def Agrees (result : Outcome α × Edit α ω) (meaning : Outcome α × Grid α) : Prop :=
  result.1 = meaning.1 ∧ result.2.content.grid = meaning.2

theorem run_agrees (reached : e.content.Reachable) (addressable : operation.Addressable e.content.grid)
    {meaning : Outcome α × Grid α} (means : operation.onGrid e.content.grid = some meaning) :
    Agrees (operation.run e) meaning := by
  have h := reached.valid
  cases operation with
  | setElement row column element =>
    obtain rfl := Option.some.inj means
    obtain ⟨previous, grid⟩ := Edit.grid_setElement h addressable.1 addressable.2 element
    exact ⟨congrArg Outcome.cell previous, grid⟩
  | removeElement row column =>
    obtain rfl := Option.some.inj means
    obtain ⟨previous, grid⟩ := Edit.grid_removeElement h row column
    exact ⟨congrArg Outcome.cell previous, grid⟩
  | insertElements axis position elements =>
    obtain rfl := Option.some.inj means
    obtain ⟨place, grid⟩ := Edit.grid_insertElements h axis position elements
    exact ⟨congrArg Outcome.position place, grid⟩
  | addElements axis elements =>
    obtain rfl := Option.some.inj means
    rw [Content.count_grid]
    obtain ⟨place, grid⟩ := Edit.grid_insertElements h axis (e.content.count axis) elements
    exact ⟨congrArg Outcome.position place, grid⟩
  | setElements axis position elements =>
    obtain rfl := Option.some.inj means
    obtain ⟨ap, ai⟩ := addressable
    rw [Content.count_grid] at ai
    exact ⟨rfl, Edit.grid_setElements h ap ai⟩
  | removeAt axis position =>
    have removed := Edit.grid_removeAt h axis position
    simp only [onGrid, Content.count_grid] at means
    split at means
    · next inside =>
      obtain rfl := Option.some.inj means
      rw [if_pos inside] at removed
      exact ⟨congrArg Outcome.elements removed.1, removed.2⟩
    · next outside =>
      obtain rfl := Option.some.inj means
      rw [if_neg outside] at removed
      simp [Agrees, run, Outcome.giving, removed]
  | swap axis a b =>
    simp only [onGrid, Content.count_grid] at means
    split at means
    · next inside =>
      obtain rfl := Option.some.inj means
      obtain ⟨success, grid⟩ := Edit.grid_swap (Content.hasBoth_iff.mpr inside)
      exact ⟨congrArg Outcome.success success, grid⟩
    · next outside =>
      obtain rfl := Option.some.inj means
      have neither : ¬e.content.hasBoth axis a b := fun both => outside (Content.hasBoth_iff.mp both)
      simp [Agrees, run, Outcome.giving, Edit.swap, neither]
  | moveRow source target =>
    simp only [onGrid, Content.count_grid] at means
    split at means
    · next inside =>
      obtain rfl := Option.some.inj means
      obtain ⟨success, grid⟩ := Edit.grid_moveRow (Content.hasBoth_iff.mpr inside)
      exact ⟨congrArg Outcome.success success, grid⟩
    · next outside =>
      obtain rfl := Option.some.inj means
      have neither : ¬e.content.hasBoth .row source target :=
        fun both => outside (Content.hasBoth_iff.mp both)
      simp [Agrees, run, Outcome.giving, Edit.moveRow, neither]
  | transpose =>
    obtain rfl := Option.some.inj means
    refine ⟨rfl, ?_⟩
    rw [← Content.grid_transpose]
    exact congrArg Content.grid (Edit.content_announce ..)
  | clear =>
    obtain rfl := Option.some.inj means
    refine ⟨rfl, ?_⟩
    rw [← Content.grid_clear e.content]
    exact congrArg Content.grid (Edit.content_announce ..)
  | setName name =>
    obtain rfl := Option.some.inj means
    refine ⟨rfl, ?_⟩
    rw [← Content.grid_rename e.content (some name)]
    exact congrArg Content.grid (Edit.content_quietly ..)
  | putTitle axis position title =>
    obtain rfl := Option.some.inj means
    exact ⟨rfl, Edit.grid_putTitle h axis addressable (some title)⟩
  | clearTitle axis position =>
    obtain rfl := Option.some.inj means
    rw [← Content.grid_setTitle]
    exact ⟨rfl, congrArg Content.grid (Edit.content_quietly ..)⟩
  | putTitles axis titles =>
    obtain rfl := Option.some.inj means
    have reach : 0 + titles.length ≤ unaddressable := by
      rw [Nat.zero_add]
      exact addressable
    have titled := Edit.grid_putTitles axis titles 0 reached (Nat.zero_le _) reach
    rw [Nat.zero_add] at titled
    rw [Grid.padAlong_zero, Content.count_grid]
    exact ⟨rfl, titled⟩
  | addColumnTitle title =>
    obtain rfl := Option.some.inj means
    have room : e.content.grid.count .column < unaddressable := addressable
    rw [Content.count_grid] at room ⊢
    exact ⟨rfl, Edit.grid_putTitle h .column room (some title)⟩
  | titlesFromFirst axis =>
    have titled := Edit.grid_titlesFromFirst h axis
    simp only [onGrid, Content.count_grid] at means
    split at means
    · next inside =>
      obtain rfl := Option.some.inj means
      rw [if_pos inside] at titled
      exact ⟨rfl, titled⟩
    · next outside =>
      obtain rfl := Option.some.inj means
      rw [if_neg outside] at titled
      exact ⟨rfl, titled⟩
  | _ => simp [onGrid] at means

/-- An operation that names its place by position, with coordinates that a table can reach, gives the
    result that it gives on the grid of the table, and leaves the rows, titles and counts of the grid
    that it leaves there.  The content is again one that a run of changes makes, so this holds along any
    sequence of operations. -/
theorem run_refines_grid (reached : e.content.Reachable) (addressable : operation.Addressable e.content.grid)
    {outcome : Outcome α} {g : Grid α} (means : operation.onGrid e.content.grid = some (outcome, g)) :
    let c := (operation.run e).2.content
    (operation.run e).1 = outcome ∧ c.toRows = g.rows ∧ c.titles .row = g.rowTitles ∧
      c.titles .column = g.columnTitles ∧ c.rowCount = g.rowTitles.length ∧
      c.columnCount = g.columnTitles.length ∧ g.Rectangular ∧ c.Reachable := by
  obtain ⟨result, rfl⟩ := run_agrees reached addressable means
  refine ⟨result, rfl, rfl, rfl, ?_, ?_, Content.rectangular_grid _, ?_⟩
  · exact (Content.count_grid _ .row).symm
  · exact (Content.count_grid _ .column).symm
  · exact (Edit.steps_run e operation).reachable reached

/-- Writing below a table that was turned over. -/
theorem run_refines_grid_turned :
    let e := Edit.unobserved (Content.run (.rows [[some "a", none], [some "b", some "c"]]) [.transpose])
    let c := ((setElement 2 1 (some "d")).run e).2.content
    c.toRows = [[some "a", some "b"], [none, some "c"], [none, some "d"]] ∧ c.rowCount = 3 := by
  have addressable : (setElement 2 1 (some "d")).Addressable
      (Content.run (.rows [[some "a", none], [some "b", some "c"]]) [.transpose]).grid := by
    exact ⟨by decide, by decide⟩
  have means : (setElement 2 1 (some "d")).onGrid
      (Content.run (.rows [[some "a", none], [some "b", some "c"]]) [.transpose]).grid =
        some (.cell none, ⟨[[some "a", some "b"], [none, some "c"], [none, some "d"]], [none, none, none],
          [none, none]⟩) := by
    decide +kernel
  obtain ⟨-, rows, -, -, count, -⟩ := run_refines_grid
    (e := Edit.unobserved (Content.run (.rows [[some "a", none], [some "b", some "c"]]) [.transpose]))
    ⟨.rows _, _, rfl⟩ addressable means
  exact ⟨rows, count⟩

end Operation

end LiveTable
