import LiveTable.Proofs.Content.Lines

/-! The grid of a content, and what each change of a content does to it.  The rows of the grid are the
    lines along the rows, whichever list of stripes plays them, so one lemma serves both orientations. -/

namespace LiveTable

open Grid (fit exchanged moved)

namespace Grid

variable {α : Type} {g : Grid α} {axis : Axis}

@[simp] theorem titles_mapTitles (g : Grid α) (axis : Axis)
    (f : List (Option String) → List (Option String)) :
    (g.mapTitles axis f).titles axis = f (g.titles axis) := by
  cases axis <;> rfl

@[simp] theorem titles_mapTitles_cross (g : Grid α) (axis : Axis)
    (f : List (Option String) → List (Option String)) :
    (g.mapTitles axis f).titles axis.cross = g.titles axis.cross := by
  cases axis <;> rfl

@[simp] theorem titles_extend (g : Grid α) (axis : Axis) (n : Nat) :
    (g.extend axis n).titles axis = g.titles axis ++ List.replicate n none := by
  cases axis <;> rfl

@[simp] theorem count_extend (g : Grid α) (axis : Axis) (n : Nat) :
    (g.extend axis n).count axis = g.count axis + n := by
  simp [count]

@[simp] theorem extend_zero (g : Grid α) (axis : Axis) : g.extend axis 0 = g := by
  cases axis <;> simp [extend]

theorem extend_extend (g : Grid α) (axis : Axis) (m n : Nat) :
    (g.extend axis m).extend axis n = g.extend axis (m + n) := by
  cases axis <;> simp [extend, count, titles]

theorem mapTitles_congr {f f' : List (Option String) → List (Option String)}
    (same : f (g.titles axis) = f' (g.titles axis)) : g.mapTitles axis f = g.mapTitles axis f' := by
  cases axis with
  | row => exact congrArg (fun t => { g with rowTitles := t }) same
  | column => exact congrArg (fun t => { g with columnTitles := t }) same

theorem mapTitles_mapTitles (g : Grid α) (axis : Axis) (f f' : List (Option String) → List (Option String)) :
    (g.mapTitles axis f).mapTitles axis f' = g.mapTitles axis fun old => f' (f old) := by
  cases axis <;> rfl

/-- Titles that are there already do not matter to what is appended. -/
theorem extend_retitle {k : Nat} (inside : k < g.count axis) (title : Option String) (n : Nat) :
    (g.retitle axis k title).extend axis n = (g.extend axis n).retitle axis k title := by
  cases axis with
  | row =>
    have appended := List.set_append_left (t := List.replicate n none) k title inside
    simp only [titles] at appended
    simp [retitle, mapTitles, extend, count, titles, appended]
  | column =>
    have appended := List.set_append_left (t := List.replicate n none) k title inside
    simp only [titles] at appended
    simp [retitle, mapTitles, extend, appended]

/-- Padding in one direction only. -/
theorem padAlong_zero (g : Grid α) (axis : Axis) (own : Nat) :
    g.padAlong axis own 0 = g.extend axis (own - g.count axis) := by
  cases axis
  · simp [padAlong, pad]
  · simp [padAlong, pad]

theorem fit_nil (n : Nat) : fit n ([] : List (Option α)) = List.replicate n none := by
  simp [fit]

theorem fit_succ (n : Nat) (elements : List (Option α)) :
    fit (n + 1) elements = elements.head?.getD none :: fit n elements.tail := by
  cases elements with
  | nil => simp [fit_nil, List.replicate_succ]
  | cons x rest => simp [fit, List.range_succ_eq_map, Function.comp_def]

theorem take_set_drop {β : Type} {line : List β} {q : Nat} (inside : q < line.length) (x : β)
    (middle : List β) (n : Nat) :
    (line.set q x).take (q + 1) ++ (middle ++ (line.set q x).drop (q + 1 + n)) =
      line.take q ++ (x :: middle ++ line.drop (q + (n + 1))) := by
  have front : (line.set q x).take (q + 1) = line.take q ++ [x] := by
    rw [List.take_succ_eq_append_getElem (by rwa [List.length_set]), List.take_set_of_le (Nat.le_refl q),
      List.getElem_set_self]
  rw [front, List.drop_set_of_lt (by omega), Nat.add_right_comm q 1 n, Nat.add_assoc q n 1]
  simp

/-- A null stripe inserted past the last one is an appended one. -/
theorem insert_count (rectangular : g.Rectangular) (axis : Axis) :
    g.insert axis (g.count axis) [] = g.extend axis 1 := by
  cases axis with
  | row =>
    simp only [insert, extend, fit_nil, Grid.mk.injEq, and_true]
    refine ⟨?_, List.insertIdx_length_self⟩
    rw [← rectangular.1, List.insertIdx_length_self]
    rfl
  | column =>
    simp only [insert, extend, fit_nil, Grid.mk.injEq, true_and]
    refine ⟨List.ext_getElem (by simp [rectangular.1]) fun q hq hq' => ?_, List.insertIdx_length_self⟩
    have inside : q < g.rows.length := by simpa using hq'
    have width := rectangular.2 _ (List.getElem_mem inside)
    simp only [List.getElem_zipWith, List.getElem_map, List.getElem_replicate, ← width]
    exact List.insertIdx_length_self

/-- Setting members of a list one after the other, from a position on. -/
theorem foldl_set {β : Type} : ∀ (new front old : List β), new.length ≤ old.length →
    (new.zipIdx front.length).foldl (fun l entry => l.set entry.2 entry.1) (front ++ old) =
      front ++ (new ++ old.drop new.length)
  | [], _, _, _ => rfl
  | _ :: _, _, [], fits => by simp at fits
  | x :: new, front, y :: old, fits => by
    have set_here : (front ++ y :: old).set front.length x = (front ++ [x]) ++ old := by simp
    have next : front.length + 1 = (front ++ [x]).length := by simp
    rw [List.zipIdx_cons, List.foldl_cons, set_here, next, foldl_set new _ old (Nat.le_of_succ_le_succ fits)]
    simp

end Grid

namespace Content

variable {α : Type} {c : Content α} {axis : Axis} {p : Nat}

/-- A content as a grid. -/
def grid (c : Content α) : Grid α := ⟨c.toRows, c.titles .row, c.titles .column⟩

@[simp] theorem titles_grid (c : Content α) (axis : Axis) : c.grid.titles axis = c.titles axis := by
  cases axis <;> rfl

@[simp] theorem count_grid (c : Content α) (axis : Axis) : c.grid.count axis = c.count axis := by
  rw [Grid.count, titles_grid, titles, Stripes.length_titles, count]

theorem rectangular_grid (c : Content α) : c.grid.Rectangular := by
  refine ⟨?_, fun row mem => ?_⟩
  · rw [count_grid, grid, toRows_eq, length_lines]
  · rw [grid, toRows_eq] at mem
    rw [count_grid]
    exact length_of_mem_lines mem

/-- A grid is the grid of a content if it agrees with the lines along the rows and the titles of both
    directions. -/
theorem grid_eq {g : Grid α} (lines : c.lines .row = g.rows)
    (titles : ∀ axis, c.titles axis = g.titles axis) : c.grid = g := by
  have rows := titles .row
  have columns := titles .column
  cases g
  simp only [Grid.titles] at rows columns
  rw [grid, toRows_eq, lines, rows, columns]

theorem cell_grid (c : Content α) (row column : Nat) : c.grid.cell row column = c.element row column := by
  rw [Grid.cell, grid, toRows_eq, element_eq]

theorem line_grid {line : List (Option α)} (at? : (c.lines axis)[p]? = some line) :
    c.grid.line axis p = line := by
  cases axis with
  | row => rw [Grid.line, grid, toRows_eq, at?, Option.getD_some]
  | column =>
    have crossed := lines_cross c .row
    rw [show Axis.row.cross = Axis.column from rfl] at crossed
    rw [crossed] at at?
    rw [Grid.line, grid, toRows_eq]
    have inside : p < c.count .column := by
      have := (List.getElem?_eq_some_iff.mp at?).1
      simpa using this
    simpa [inside] using at?

/-! ### Titles -/

theorem titles_insertStripe_self (inside : p ≤ c.count axis) (elements : List (Option α)) :
    (c.insertStripe axis p elements).titles axis = (c.titles axis).insertIdx p none := by
  rw [titles, stripes_insertStripe_self, Stripes.titles_insertAt inside, titles]

theorem titles_insertStripe_cross (c : Content α) (axis : Axis) (p : Nat) (elements : List (Option α)) :
    (c.insertStripe axis p elements).titles axis.cross = c.titles axis.cross := by
  rw [titles, stripes_insertStripe_cross, Stripes.titles_touchAll, titles]

@[simp] theorem titles_set (c : Content α) (row column : Nat) (element : Option α) (axis : Axis) :
    (c.set row column element).titles axis = c.titles axis := by
  cases key : c.cellKey? row column with
  | none => rw [set_of_none c row column element key]
  | some k => rw [titles, stripes_set c row column element key, Stripes.titles_touch, titles]

/-! ### Changes -/

/-- A new stripe is a new untitled row or column of the grid. -/
theorem Valid.grid_insertStripe (h : c.Valid) (inside : p ≤ c.count axis) (elements : List (Option α)) :
    (c.insertStripe axis p elements).grid = c.grid.insert axis p elements := by
  have own := titles_insertStripe_self inside elements
  have cross := titles_insertStripe_cross c axis p elements
  cases axis with
  | row =>
    refine grid_eq ?_ fun b => ?_
    · rw [h.lines_insertStripe_self inside, Grid.insert, count_grid, grid, toRows_eq]
      rfl
    · cases b with
      | row => exact own
      | column => exact cross
  | column =>
    refine grid_eq ?_ fun b => ?_
    · have lines := h.lines_insertStripe_cross inside elements
      rw [Grid.insert, count_grid, grid, toRows_eq]
      exact lines
    · cases b with
      | row => exact cross
      | column => exact own

/-- A change of the order of a direction, or of which stripes are left, is the same rearrangement of the
    grid. -/
theorem grid_rearranged {changed : Content α} {f : (β : Type) → List β → List β} (natural : Natural f)
    (own : (changed.stripes axis).toList = f _ (c.stripes axis).toList)
    (cross : changed.stripes axis.cross = c.stripes axis.cross ∨
      changed.stripes axis.cross = (c.stripes axis.cross).touchAll)
    (cells : ∀ i ∈ (changed.stripes axis).ids, ∀ j, changed.cellOn axis i j = c.cellOn axis i j) :
    changed.grid = c.grid.rearrange axis f := by
  have own_ids : (changed.stripes axis).ids = f _ (c.stripes axis).ids := by
    rw [Stripes.ids, own, natural, Stripes.ids]
  have own_titles : changed.titles axis = f _ (c.titles axis) := by
    rw [titles, Stripes.titles, own, natural, titles, Stripes.titles]
  have cross_ids : (changed.stripes axis.cross).ids = (c.stripes axis.cross).ids := by
    rcases cross with same | touched
    · rw [same]
    · rw [touched, Stripes.ids_touchAll]
  have cross_titles : changed.titles axis.cross = c.titles axis.cross := by
    rcases cross with same | touched
    · rw [titles, same, titles]
    · rw [titles, touched, Stripes.titles_touchAll, titles]
  have self_lines := lines_rearranged_self natural own_ids cross_ids cells
  have cross_lines := lines_rearranged_cross natural own_ids cross_ids cells
  cases axis with
  | row =>
    refine grid_eq ?_ fun b => ?_
    · rw [self_lines, Grid.rearrange, grid, toRows_eq]
    · cases b with
      | row => exact own_titles
      | column => exact cross_titles
  | column =>
    refine grid_eq ?_ fun b => ?_
    · rw [Grid.rearrange, grid, toRows_eq]
      exact cross_lines
    · cases b with
      | row => exact cross_titles
      | column => exact own_titles

theorem Valid.grid_removeStripe (h : c.Valid) {own : StripeId} (at? : (c.stripes axis).idAt p = some own) :
    (c.removeStripe axis p).grid = c.grid.erase axis p := by
  refine grid_rearranged (natural_eraseIdx p) ?_ (.inr (stripes_removeStripe_cross c axis p at?))
    fun i mem j => ?_
  · rw [stripes_removeStripe_self, Stripes.toList_removeAt]
  · rw [cellOn_removeStripe c axis p at?, if_neg fun both => ((h.mem_ids_removeStripe at?).mp mem).2 both.1]

theorem hasBoth_iff {a b : Nat} : c.hasBoth axis a b ↔ a < c.count axis ∧ b < c.count axis := by
  simp [hasBoth]

theorem cellOn_congr {changed : Content α} (orientation : changed.transposed = c.transposed)
    (cells : changed.cells = c.cells) (axis : Axis) (i j : StripeId) :
    changed.cellOn axis i j = c.cellOn axis i j := by
  rw [cellOn, keyOn_congr orientation, cells, cellOn]

theorem grid_swap {a b : Nat} (both : c.hasBoth axis a b) :
    (c.swap axis a b).grid = c.grid.exchange axis a b := by
  refine grid_rearranged (natural_exchanged a b) ?_ ?_ fun i _ j =>
    cellOn_congr (transposed_swap ..) (cells_swap ..) axis i j
  · rw [stripes_swap_self c both]
    exact Stripes.toList_swap_eq (hasBoth_iff.mp both).1 (hasBoth_iff.mp both).2
  · rw [stripes_swap_cross c both]
    cases axis
    · exact .inl rfl
    · exact .inr rfl

theorem grid_moveRow {source target : Nat} (both : c.hasBoth .row source target) :
    (c.moveRow source target).grid = c.grid.moveRow source target := by
  refine grid_rearranged (natural_moved source target) ?_ (.inl (stripes_mapStripes_cross ..)) fun i _ j =>
    cellOn_congr (transposed_mapStripes ..) (cells_mapStripes ..) .row i j
  rw [Content.moveRow, stripes_mapStripes_self]
  exact Stripes.toList_move_eq (hasBoth_iff.mp both).1 (hasBoth_iff.mp both).2

theorem Valid.grid_set (h : c.Valid) (row column : Nat) (element : Option α) :
    (c.set row column element).grid = c.grid.overwrite row column element := by
  refine grid_eq ?_ fun b => ?_
  · rw [Grid.overwrite, grid, toRows_eq]
    exact h.lines_set .row row column element
  · rw [titles_set, ← titles_grid]
    cases b <;> rfl

theorem grid_transpose (c : Content α) : c.transpose.grid = c.grid.transpose := by
  refine grid_eq ?_ fun b => ?_
  · have turned := lines_cross c .row
    rw [lines_transpose, turned, Grid.transpose, count_grid]
    refine List.map_congr_left fun q _ => ?_
    rw [Grid.line, grid, toRows_eq]
  · rw [titles, stripes_transpose]
    cases b <;> rfl

@[simp] theorem grid_clear (c : Content α) : c.clear.grid = {} := by
  refine grid_eq (lines_clear ..) fun b => ?_
  rw [titles, stripes_clear]
  cases b <;> rfl

@[simp] theorem grid_rename (c : Content α) (name : Option String) :
    ({ c with name := name } : Content α).grid = c.grid := rfl

theorem grid_setTitle (c : Content α) (axis : Axis) (p : Nat) (title : Option String) :
    (c.setTitle axis p title).grid = c.grid.retitle axis p title := by
  have own : (c.setTitle axis p title).titles axis = (c.titles axis).set p title := by
    rw [titles, stripes_setTitle_self, Stripes.titles_retitle, titles]
  have cross : (c.setTitle axis p title).titles axis.cross = c.titles axis.cross := by
    rw [titles, stripes_setTitle_cross, titles]
  have lines : (c.setTitle axis p title).lines .row = c.lines .row :=
    lines_congr (ids_setTitle ..) (ids_setTitle ..)
      fun i j => cellOn_congr (transposed_setTitle ..) (cells_setTitle ..) .row i j
  refine grid_eq ?_ fun b => ?_
  · rw [lines, ← toRows_eq]
    cases axis <;> rfl
  · obtain rfl | rfl := Axis.eq_or_eq_cross axis b
    · rw [own, Grid.retitle, Grid.titles_mapTitles, titles_grid]
    · rw [cross, Grid.retitle, Grid.titles_mapTitles_cross, titles_grid]

/-- Giving the first stripes of a direction new titles. -/
theorem grid_setTitles_front {titles : List (Option String)} (fits : titles.length ≤ c.count axis) :
    (c.setTitles axis titles).grid = c.grid.mapTitles axis fun old => titles ++ old.drop titles.length := by
  have step (entries : List (Option String × Nat)) (c : Content α) :
      (entries.foldl (fun c entry => c.setTitle axis entry.2 entry.1) c).grid =
        c.grid.mapTitles axis fun old => entries.foldl (fun l entry => l.set entry.2 entry.1) old := by
    induction entries generalizing c with
    | nil => cases axis <;> rfl
    | cons entry rest ih =>
      rw [List.foldl_cons, ih, grid_setTitle]
      cases axis <;> rfl
  have room : titles.length ≤ (c.grid.titles axis).length := by
    rw [← count_grid] at fits
    exact fits
  rw [setTitles, step]
  exact Grid.mapTitles_congr (Grid.foldl_set titles [] (c.grid.titles axis) room)

/-- Giving all stripes of a direction new titles. -/
theorem grid_setTitles {titles : List (Option String)} (whole : titles.length = c.count axis) :
    (c.setTitles axis titles).grid = c.grid.mapTitles axis fun _ => titles := by
  rw [grid_setTitles_front (Nat.le_of_eq whole)]
  refine Grid.mapTitles_congr ?_
  rw [whole, ← count_grid, Grid.count, List.drop_length, List.append_nil]

theorem Valid.grid_appendEmpties (h : c.Valid) (axis : Axis) (n : Nat) :
    (c.appendEmpties axis n).grid = c.grid.extend axis n := by
  induction n generalizing c with
  | zero => exact (Grid.extend_zero ..).symm
  | succ n ih =>
    rw [Content.appendEmpties, ih (c := c.appendEmpty axis) (h.insertStripe axis _ _), appendEmpty,
      h.grid_insertStripe (Nat.le_refl _), ← count_grid, Grid.insert_count c.rectangular_grid,
      Grid.extend_extend, Nat.add_comm]

/-- Growing a content pads its grid. -/
theorem Valid.grid_growTo (h : c.Valid) (rows columns : Nat) :
    (c.growTo rows columns).grid = c.grid.pad rows columns := by
  rw [Content.growTo, (h.appendEmpties .column _).grid_appendEmpties, rowCount, ← count_grid,
    h.grid_appendEmpties, Grid.pad, count_grid c .column]
  rfl

end Content

end LiveTable
