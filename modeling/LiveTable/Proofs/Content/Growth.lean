import LiveTable.Proofs.Grid.Changes

/-! Contents that grew.  Growing appends stripes and does nothing else: what stood in the table keeps its
    place, its identities, its titles and its elements, and the new stripes meet null cells only.
    Growing by some stripes and then by others is growing by both, so a loop that appends is known from
    one stripe, in either orientation. -/

namespace LiveTable

open Grid (fit)

section Lists

variable {β : Type}

theorem modify_append_left {l : List β} {q : Nat} (inside : q < l.length) (f : β → β) (l' : List β) :
    (l ++ l').modify q f = l.modify q f ++ l' := by
  refine List.ext_getElem? fun j => ?_
  rw [List.getElem?_modify, List.getElem?_append, List.getElem?_append, List.length_modify,
    List.getElem?_modify]
  by_cases before : j < l.length
  · rw [if_pos before, if_pos before]
  · have other : q ≠ j := by omega
    simp [before, other]

theorem map_modify_self (l : List β) (q : Nat) (f : β → β) : (l.map f).modify q f = (l.modify q f).map f := by
  refine List.ext_getElem? fun j => ?_
  rw [List.getElem?_modify, List.getElem?_map, List.getElem?_map, List.getElem?_modify]
  cases l[j]? with
  | none => rfl
  | some b => by_cases here : q = j <;> simp [here]

end Lists

namespace Axis

variable {β : Type}

/-- One thing for the rows and one for the columns. -/
def pick (ofRows ofColumns : β) : Axis → β
  | row => ofRows
  | column => ofColumns

/-- A list for one direction and nothing for the other. -/
def only (axis : Axis) (l : List β) (b : Axis) : List β := if b = axis then l else []

@[simp] theorem only_self (axis : Axis) (l : List β) : axis.only l axis = l := if_pos rfl

@[simp] theorem only_cross (axis : Axis) (l : List β) : axis.only l axis.cross = [] := if_neg axis.cross_ne

theorem only_append (axis : Axis) (l l' : List β) (b : Axis) :
    axis.only l b ++ axis.only l' b = axis.only (l ++ l') b := by
  obtain rfl | rfl := eq_or_eq_cross axis b
  · simp
  · simp

end Axis

namespace Stripes

/-- A look-up by title is a search in the list of titles. -/
theorem positionOfTitle_eq (ss : Stripes) (title : String) :
    ss.positionOfTitle title = ss.titles.idxOf? (some title) := by
  rw [positionOfTitle, titles, List.idxOf?, List.findIdx?_map, ← List.findIdx?_toArray, toList,
    Array.toArray_toList]
  rfl

end Stripes

/-- Appending stripes moves no cell and adds none. -/
theorem Grid.cell_extend {α : Type} (g : Grid α) (axis : Axis) (n row column : Nat) :
    (g.extend axis n).cell row column = g.cell row column := by
  have null (l : List (Option α)) (m q : Nat) : (l ++ List.replicate m none)[q]?.join = l[q]?.join := by
    rw [List.getElem?_append]
    split
    · rfl
    · next beyond => simp [List.getElem?_replicate, Nat.le_of_not_lt beyond, apply_ite]
  cases axis with
  | row =>
    rw [cell, extend, cell, List.getElem?_append]
    split
    · rfl
    · next beyond =>
      rw [List.getElem?_eq_none (Nat.le_of_not_lt beyond), List.getElem?_replicate]
      split
      · simpa using null [] (g.count .column) column
      · rfl
  | column =>
    rw [cell, extend, cell, List.getElem?_map]
    cases g.rows[row]? with
    | none => rfl
    | some line => exact null line n column

namespace Content

variable {α : Type} {c c' c'' : Content α} {added added' : Axis → List (Option String)} {axis : Axis}

/-! ### Elements by position -/

theorem element_of_le {row column : Nat} (outside : c.rowCount ≤ row ∨ c.columnCount ≤ column) :
    c.element row column = none := by
  have none_at {axis : Axis} {p : Nat} (beyond : c.count axis ≤ p) : (c.stripes axis).idAt p = none := by
    rw [Stripes.idAt_eq]
    exact List.getElem?_eq_none (by rwa [← count_eq])
  rw [element, cellKey?, rows, columns]
  rcases outside with below | beside
  · rw [none_at below]
    rfl
  · rw [none_at beside]
    cases (c.stripes .row).idAt row <;> rfl

/-- A write inside the table changes the element at its position and no other. -/
theorem Valid.element_set (h : c.Valid) {row column : Nat} (tall : row < c.rowCount)
    (wide : column < c.columnCount) (element : Option α) (r k : Nat) :
    (c.set row column element).element r k = if r = row ∧ k = column then element else c.element r k := by
  have inside : row < (c.lines .row).length := by rwa [length_lines]
  obtain ⟨line, at?⟩ : ∃ line, (c.lines .row)[row]? = some line := ⟨_, List.getElem?_eq_getElem inside⟩
  have width : line.length = c.columnCount := length_of_mem_lines (List.mem_of_getElem? at?)
  have written : (c.set row column element).lines .row = _ := h.lines_set .row row column element
  rw [element_eq, written, List.getElem?_modify, element_eq]
  by_cases same : row = r
  · subst same
    rw [at?]
    by_cases here : k = column
    · subst here
      simp [width, wide]
    · simp [here, Ne.symm here]
  · simp [same, Ne.symm same]

/-! ### A stripe at the end -/

theorem ids_appendStripe (c : Content α) (axis b : Axis) (elements : List (Option α)) :
    ((c.insertStripe axis (c.count axis) elements).stripes b).ids =
      (c.stripes b).ids ++ axis.only [⟨c.nextId⟩] b := by
  obtain rfl | rfl := Axis.eq_or_eq_cross axis b
  · rw [stripes_insertStripe_self, Stripes.ids_insertAt, Content.count, Nat.min_self, ← Stripes.length_ids,
      List.insertIdx_length_self, Axis.only_self]
  · rw [ids_insertStripe_cross, Axis.only_cross, List.append_nil]

theorem titles_appendStripe (c : Content α) (axis b : Axis) (elements : List (Option α)) :
    (c.insertStripe axis (c.count axis) elements).titles b = c.titles b ++ axis.only [none] b := by
  obtain rfl | rfl := Axis.eq_or_eq_cross axis b
  · rw [titles_insertStripe_self (Nat.le_refl _), ← length_titles, List.insertIdx_length_self, Axis.only_self]
  · rw [titles_insertStripe_cross, Axis.only_cross, List.append_nil]

/-- A row appended to a content shows its elements, as far as the content is wide; every other row is as
    it was. -/
theorem Valid.element_appendRow (h : c.Valid) {elements : List (Option α)}
    (fits : elements.length ≤ c.columnCount) (row column : Nat) :
    (c.insertStripe .row c.rowCount elements).element row column =
      if row = c.rowCount then elements[column]?.join else c.element row column := by
  have length : (c.lines .row).length = c.rowCount := length_lines c .row
  have lines : (c.insertStripe .row c.rowCount elements).lines .row =
      c.lines .row ++ [fit c.columnCount elements] := by
    have last : c.rowCount ≤ c.count .row := Nat.le_refl _
    have inserted := h.lines_insertStripe_self last elements
    rwa [← length, List.insertIdx_length_self, length] at inserted
  rw [element_eq, lines, element_eq]
  split
  · next last =>
    rw [last, ← length, List.getElem?_concat_length]
    exact getElem?_fit_join fits column
  · next other =>
    by_cases inside : row < c.rowCount
    · rw [List.getElem?_append_left (length.symm ▸ inside)]
    · have below : (c.lines .row).length + 1 ≤ row := by omega
      rw [List.getElem?_eq_none (by rwa [List.length_append]),
        List.getElem?_eq_none (Nat.le_of_succ_le below)]

/-! ### Growth -/

/-- A content that grew by stripes with the given titles: they stand behind those that were there, which
    keep their identities and titles, and every position shows the element that it showed before, which
    is null wherever there was no position. -/
structure Grows (c : Content α) (added : Axis → List (Option String)) (c' : Content α) : Prop where
  valid : c'.Valid
  ids : ∀ axis, (c.stripes axis).ids <+: (c'.stripes axis).ids
  titles : ∀ axis, c'.titles axis = c.titles axis ++ added axis
  elements : ∀ row column, c'.element row column = c.element row column
  name : c'.name = c.name
  transposed : c'.transposed = c.transposed

namespace Grows

theorem refl (h : c.Valid) : c.Grows (fun _ => []) c where
  valid := h
  ids _ := List.prefix_rfl
  titles _ := (List.append_nil _).symm
  elements _ _ := rfl
  name := rfl
  transposed := rfl

theorem trans (first : c.Grows added c') (later : c'.Grows added' c'') :
    c.Grows (fun axis => added axis ++ added' axis) c'' where
  valid := later.valid
  ids axis := (first.ids axis).trans (later.ids axis)
  titles axis := by rw [later.titles, first.titles, List.append_assoc]
  elements row column := (later.elements row column).trans (first.elements row column)
  name := later.name.trans first.name
  transposed := later.transposed.trans first.transposed

theorem congr (h : c.Grows added c') (same : ∀ axis, added axis = added' axis) : c.Grows added' c' :=
  funext same ▸ h

theorem count (h : c.Grows added c') (axis : Axis) : c'.count axis = c.count axis + (added axis).length := by
  rw [← length_titles, h.titles, List.length_append, length_titles]

/-- A title that was there is found where it was; another is found among the new ones or not at all. -/
theorem positionOfTitle (h : c.Grows added c') (axis : Axis) (title : String) :
    (c'.stripes axis).positionOfTitle title = ((c.stripes axis).positionOfTitle title).or
      (((added axis).idxOf? (some title)).map (· + c.count axis)) := by
  have titles : (c'.stripes axis).titles = (c.stripes axis).titles ++ added axis := h.titles axis
  rw [Stripes.positionOfTitle_eq, titles, List.idxOf?, List.findIdx?_append, Stripes.length_titles,
    Stripes.positionOfTitle_eq]
  rfl

end Grows

/-- Growing by one stripe. -/
theorem Valid.grows_appendEmpty (h : c.Valid) (axis : Axis) :
    c.Grows (axis.only [none]) (c.appendEmpty axis) where
  valid := h.insertStripe axis _ []
  ids b := ids_appendStripe c axis b [] ▸ List.prefix_append ..
  titles b := titles_appendStripe c axis b []
  elements row column := by
    rw [← cell_grid, show (c.appendEmpty axis).grid = c.grid.extend axis 1 from h.grid_appendEmpties axis 1,
      Grid.cell_extend, cell_grid]
  name := name_insertStripe ..
  transposed := transposed_insertStripe ..

theorem Valid.grows_appendEmpties (h : c.Valid) (axis : Axis) (n : Nat) :
    c.Grows (axis.only (List.replicate n none)) (c.appendEmpties axis n) := by
  induction n generalizing c with
  | zero => exact (Grows.refl h).congr fun b => (ite_self _).symm
  | succ n ih =>
    have one := h.grows_appendEmpty axis
    exact (one.trans (ih one.valid)).congr fun b => by
      rw [Axis.only_append, List.replicate_succ, List.singleton_append]

/-- Growing to a number of rows and columns appends what is missing, without titles. -/
theorem Valid.grows_growTo (h : c.Valid) (rows columns : Nat) :
    c.Grows
      (Axis.pick (List.replicate (rows - c.rowCount) none) (List.replicate (columns - c.columnCount) none))
      (c.growTo rows columns) := by
  have wide := h.grows_appendEmpties .column (columns - c.columnCount)
  have same : (c.appendEmpties .column (columns - c.columnCount)).rowCount = c.rowCount := wide.count .row
  rw [Content.growTo, same]
  exact (wide.trans (wide.valid.grows_appendEmpties .row _)).congr fun b => by
    cases b <;> simp [Axis.only, Axis.pick]

/-- The one new stripe may be given its title afterwards. -/
theorem Grows.setTitle_new (h : c.Grows (axis.only [none]) c') (title : Option String) :
    c.Grows (axis.only [title]) (c'.setTitle axis (c.count axis) title) := by
  have grid := grid_setTitle c' axis (c.count axis) title
  refine ⟨h.valid.setTitle .., fun b => ?_, fun b => ?_, fun row column => ?_, ?_, ?_⟩
  · rw [ids_setTitle]
    exact h.ids b
  · rw [← titles_grid, grid]
    obtain rfl | rfl := Axis.eq_or_eq_cross axis b
    · have length := c.length_titles b
      rw [Grid.retitle, Grid.titles_mapTitles, titles_grid, h.titles]
      simp [← length]
    · rw [Grid.retitle, Grid.titles_mapTitles_cross, titles_grid, h.titles]
      simp
  · rw [← h.elements, ← cell_grid, grid, ← cell_grid]
    cases axis <;> rfl
  · rw [name_setTitle, h.name]
  · rw [transposed_setTitle, h.transposed]

/-! ### Writing and growing -/

theorem appendEmpties_add (c : Content α) (axis : Axis) (m n : Nat) :
    c.appendEmpties axis (m + n) = (c.appendEmpties axis m).appendEmpties axis n := by
  induction m generalizing c with
  | zero => rw [Nat.zero_add, appendEmpties]
  | succ m ih => rw [Nat.add_right_comm, appendEmpties, ih, appendEmpties]

theorem cells_appendEmpty (c : Content α) (axis : Axis) : (c.appendEmpty axis).cells = c.cells := by
  rw [appendEmpty, cells_insertStripe, List.zip_nil_right, List.foldl_nil]

theorem toList_appendEmpty (c : Content α) (axis b : Axis) :
    ((c.appendEmpty axis).stripes b).toList =
      if b = axis then (c.stripes b).toList ++ [{ id := ⟨c.nextId⟩ }]
        else (c.stripes b).toList.map Stripe.touch := by
  obtain rfl | rfl := Axis.eq_or_eq_cross axis b
  · rw [appendEmpty, stripes_insertStripe_self, Stripes.toList_insertAt, Content.count, Nat.min_self,
      ← Stripes.length_toList, List.insertIdx_length_self, if_pos rfl]
  · rw [appendEmpty, stripes_insertStripe_cross, Stripes.toList_touchAll, if_neg axis.cross_ne]

theorem toList_set {row column : Nat} {k : CellKey} (at? : c.cellKey? row column = some k)
    (element : Option α) (b : Axis) :
    ((c.set row column element).stripes b).toList =
      (c.stripes b).toList.modify (if b = .row then row else column) Stripe.touch := by
  rw [stripes_set c row column element at?, Stripes.toList_modify]

/-- A cell of the table keeps its address when a stripe is appended. -/
theorem cellKey?_appendEmpty {row column : Nat} {k : CellKey} (at? : c.cellKey? row column = some k)
    (axis : Axis) : (c.appendEmpty axis).cellKey? row column = some k := by
  have keeps {b : Axis} {q : Nat} {id : StripeId} (there : (c.stripes b).idAt q = some id) :
      ((c.appendEmpty axis).stripes b).idAt q = some id := by
    have grown : ((c.appendEmpty axis).stripes b).ids = _ := ids_appendStripe c axis b []
    rw [Stripes.idAt_eq] at there ⊢
    rw [grown, List.getElem?_append_left (List.getElem?_eq_some_iff.mp there).1, there]
  obtain ⟨r, s, at_row, at_column, rfl⟩ := (cellKey?_eq_some ..).mp at?
  exact (cellKey?_eq_some ..).mpr ⟨r, s, keeps at_row, keeps at_column, (keyOn_insertStripe ..).symm⟩

/-- It is all the same whether a stripe is appended before a cell is written or after that: the write
    counts for its row and its column, the stripe for all that it crosses. -/
theorem Valid.set_appendEmpty (h : c.Valid) {row column : Nat} (tall : row < c.rowCount)
    (wide : column < c.columnCount) (element : Option α) (axis : Axis) :
    (c.appendEmpty axis).set row column element = (c.set row column element).appendEmpty axis := by
  obtain ⟨k, at?⟩ := exists_cellKey? tall wide
  have later := cellKey?_appendEmpty at? axis
  have grown : (c.appendEmpty axis).Valid := h.insertStripe axis _ []
  have inside (b : Axis) : (if b = .row then row else column) < (c.stripes b).toList.length := by
    cases b
    · exact tall
    · exact wide
  refine (grown.set ..).ext ((h.set row column element).insertStripe axis _ []) ?_ ?_ ?_ ?_ fun b => ?_
  · simp [appendEmpty]
  · simp [appendEmpty]
  · simp [appendEmpty]
  · rw [cells_set _ _ _ _ later, cells_appendEmpty, ← cells_set _ _ _ element at?]
    exact (cells_appendEmpty ..).symm
  · rw [toList_set later, toList_appendEmpty]
    refine Eq.trans ?_ (toList_appendEmpty (c.set row column element) axis b).symm
    rw [toList_set at?, nextId_set]
    split
    · exact modify_append_left (inside b) Stripe.touch _
    · exact map_modify_self _ _ Stripe.touch

theorem Valid.set_appendEmpties (h : c.Valid) {row column : Nat} (tall : row < c.rowCount)
    (wide : column < c.columnCount) (element : Option α) (axis : Axis) (n : Nat) :
    (c.appendEmpties axis n).set row column element = (c.set row column element).appendEmpties axis n := by
  induction n generalizing c with
  | zero => rfl
  | succ n ih =>
    have one := h.grows_appendEmpty axis
    have more (b : Axis) : c.count b ≤ (c.appendEmpty axis).count b := one.count b ▸ Nat.le_add_right ..
    rw [Content.appendEmpties,
      ih one.valid (Nat.lt_of_lt_of_le tall (more .row)) (Nat.lt_of_lt_of_le wide (more .column)),
      h.set_appendEmpty tall wide, Content.appendEmpties]

/-! ### Growing to a title -/

/-- The titles of the stripes that a direction needs so that one of them has a title. -/
def lacking (c : Content α) (axis : Axis) (title : String) : List (Option String) :=
  if ((c.stripes axis).positionOfTitle title).isSome then [] else [some title]

/-- Growing to a title appends a stripe of that title if there is none, and finds it. -/
theorem Valid.grows_growToTitle (h : c.Valid) (axis : Axis) (title : String) :
    let found := c.growToTitle axis title
    found.1 = ((c.stripes axis).positionOfTitle title).getD (c.count axis) ∧
      c.Grows (axis.only (c.lacking axis title)) found.2.2 ∧
      (found.2.2.stripes axis).positionOfTitle title = some found.1 := by
  rw [growToTitle, lacking]
  cases known : (c.stripes axis).positionOfTitle title with
  | some position =>
    exact ⟨rfl, (Grows.refl h).congr fun b => (ite_self _).symm, known⟩
  | none =>
    have grown := (h.grows_appendEmpty axis).setTitle_new (some title)
    refine ⟨rfl, grown, ?_⟩
    rw [grown.positionOfTitle, known]
    simp

end Content

end LiveTable
