import LiveTable.Proofs.Content.Valid
import LiveTable.Proofs.Grid.Basic

/-! The lines of a content: its elements laid out stripe by stripe along one direction, and what each
    change does to them.  The rows of a table are its lines along the rows; looking at both directions at
    once lets one lemma say what a change of rows and what a change of columns does. -/

namespace LiveTable

open Grid (fit exchanged moved)

/-! ### Lists -/

section Lists

variable {β γ : Type}

theorem length_fit (n : Nat) (elements : List (Option β)) : (fit n elements).length = n := by simp [fit]

/-- A line of the right length is not changed. -/
theorem fit_of_length {n : Nat} {elements : List (Option β)} (same : elements.length = n) :
    fit n elements = elements := by
  subst same
  refine List.ext_getElem (length_fit ..) fun j hj hj' => ?_
  simp [fit, hj']

theorem map_fit_of_length {n : Nat} {rows : List (List (Option β))} (same : ∀ row ∈ rows, row.length = n) :
    rows.map (fit n) = rows :=
  (List.map_congr_left fun row mem => fit_of_length (same row mem)).trans (List.map_id _)

theorem getElem?_fit_join {n : Nat} {elements : List (Option β)} (most : elements.length ≤ n) (j : Nat) :
    (fit n elements)[j]?.join = elements[j]?.join := by
  by_cases inside : j < n
  · simp [fit, inside]
  · have beyond : elements.length ≤ j := by omega
    simp [fit, inside, beyond]

/-- Making a row wider and then wider still. -/
theorem fit_fit {n m : Nat} {elements : List (Option β)} (most : elements.length ≤ n) :
    fit m (fit n elements) = fit m elements :=
  List.map_congr_left fun j _ => getElem?_fit_join most j

theorem append_replicate_eq_fit (elements : List (Option β)) (more : Nat) :
    elements ++ List.replicate more none = fit (elements.length + more) elements := by
  refine List.ext_getElem (by simp [length_fit]) fun j hj hj' => ?_
  by_cases inside : j < elements.length
  · simp [fit, inside]
  · simp [fit, inside, Nat.le_of_not_lt inside]

/-- Two functions that differ at one member of a list give images that differ at one position. -/
theorem map_eq_set {l : List β} {n : Nat} {b : β} {f g : β → γ} (distinct : l.Nodup) (at? : l[n]? = some b)
    (others : ∀ x, x ≠ b → f x = g x) : l.map f = (l.map g).set n (f b) := by
  obtain ⟨inside, rfl⟩ := List.getElem?_eq_some_iff.mp at?
  refine List.ext_getElem (by simp) fun q hq hq' => ?_
  rw [List.getElem_map, List.getElem_set, List.getElem_map]
  split
  · next same => simp [same]
  · next ne => exact others _ fun same => ne (distinct.getElem_inj_iff.mp same).symm

/-- A rearrangement of lists that only looks at positions. -/
def Natural (f : (β : Type) → List β → List β) : Prop :=
  ∀ {β γ : Type} (g : β → γ) (l : List β), (f β l).map g = f γ (l.map g)

theorem natural_eraseIdx (p : Nat) : Natural fun _ => (·.eraseIdx p) := fun _ _ => (List.eraseIdx_map ..).symm

theorem natural_exchanged (a b : Nat) : Natural fun _ => exchanged a b := by
  intro _ _ g l
  simp only [exchanged, List.getElem?_map]
  cases l[a]? <;> cases l[b]? <;> simp [List.map_set]

theorem natural_moved (source target : Nat) : Natural fun _ => moved source target := by
  intro _ _ g l
  simp only [moved, List.getElem?_map]
  cases l[source]? <;> simp [List.map_insertIdx, List.eraseIdx_map]

end Lists

namespace Stripes

variable {ss : Stripes} {p : Nat}

/-! ### Titles of a list of stripes -/

theorem titles_insertAt (inside : p ≤ ss.size) (s : Stripe) :
    (ss.insertAt p s).titles = ss.titles.insertIdx p s.title := by
  rw [titles, toList_insertAt, List.map_insertIdx, Nat.min_eq_left inside]
  rfl

theorem titles_touchAll (ss : Stripes) : ss.touchAll.titles = ss.titles := by
  simp [titles, toList_touchAll, Stripe.touch]

theorem titles_touch (ss : Stripes) (p : Nat) : (ss.modify p Stripe.touch).titles = ss.titles := by
  rw [titles, toList_modify]
  refine List.ext_getElem? fun q => ?_
  simp only [titles, List.getElem?_map, List.getElem?_modify]
  cases ss.toList[q]? with
  | none => rfl
  | some s => by_cases h : p = q <;> simp [h, Stripe.touch]

theorem titles_retitle (ss : Stripes) (p : Nat) (title : Option String) :
    (ss.modify p (Stripe.retitle title)).titles = ss.titles.set p title := by
  rw [titles, toList_modify]
  refine List.ext_getElem? fun q => ?_
  simp only [titles, List.getElem?_map, List.getElem?_modify, List.getElem?_set, List.length_map]
  by_cases h : p = q
  · subst h
    by_cases inside : p < ss.toList.length
    · simp [inside, Stripe.retitle, Stripe.touch]
    · simp [inside]
  · simp [h]

theorem toList_swap_eq {a b : Nat} (ha : a < ss.size) (hb : b < ss.size) :
    (ss.swap a b).toList = exchanged a b ss.toList := by
  have at_a : ss.get? a = some ss.toList[a] := by rw [get?_eq]; exact List.getElem?_eq_getElem ha
  have at_b : ss.get? b = some ss.toList[b] := by rw [get?_eq]; exact List.getElem?_eq_getElem hb
  rw [toList_swap at_a at_b, exchanged, ← get?_eq, ← get?_eq, at_a, at_b]

theorem toList_move_eq {source target : Nat} (hs : source < ss.size) (ht : target < ss.size) :
    (ss.move source target).toList = moved source target ss.toList := by
  have at_source : ss.get? source = some ss.toList[source] := by
    rw [get?_eq]
    exact List.getElem?_eq_getElem hs
  rw [toList_move at_source ht, moved, ← get?_eq, at_source]

end Stripes

namespace Content

variable {α : Type} {c : Content α} {axis : Axis} {p : Nat}

/-! ### Counts -/

theorem count_eq (c : Content α) (axis : Axis) : c.count axis = (c.stripes axis).ids.length := by simp [count]

theorem length_titles (c : Content α) (axis : Axis) : (c.titles axis).length = c.count axis :=
  Stripes.length_titles _

theorem count_congr {c c' : Content α} {axis : Axis} (same : c'.titles axis = c.titles axis) :
    c'.count axis = c.count axis := by
  rw [← length_titles, same, length_titles]

@[simp] theorem count_insertStripe_self (c : Content α) (axis : Axis) (p : Nat) (elements : List (Option α)) :
    (c.insertStripe axis p elements).count axis = c.count axis + 1 := by
  rw [count_eq, stripes_insertStripe_self, Stripes.ids_insertAt,
    List.length_insertIdx_of_le_length, ← count_eq]
  rw [Stripes.length_ids]
  exact Nat.min_le_right ..

@[simp] theorem count_insertStripe_cross (c : Content α) (axis : Axis) (p : Nat)
    (elements : List (Option α)) :
    (c.insertStripe axis p elements).count axis.cross = c.count axis.cross := by
  rw [count_eq, ids_insertStripe_cross, ← count_eq]

@[simp] theorem count_setTitles (c : Content α) (axis b : Axis) (titles : List (Option String)) :
    (c.setTitles axis titles).count b = c.count b := by
  rw [count_eq, ids_setTitles, ← count_eq]

@[simp] theorem count_set (c : Content α) (row column : Nat) (element : Option α) (axis : Axis) :
    (c.set row column element).count axis = c.count axis := by
  rw [count_eq, ids_set, ← count_eq]

@[simp] theorem count_appendEmpties_self (c : Content α) (axis : Axis) (n : Nat) :
    (c.appendEmpties axis n).count axis = c.count axis + n := by
  induction n generalizing c with
  | zero => rfl
  | succ n ih =>
    rw [appendEmpties, ih, appendEmpty, count_insertStripe_self]
    omega

@[simp] theorem count_appendEmpties_cross (c : Content α) (axis : Axis) (n : Nat) :
    (c.appendEmpties axis n).count axis.cross = c.count axis.cross := by
  induction n generalizing c with
  | zero => rfl
  | succ n ih => rw [appendEmpties, ih, appendEmpty, count_insertStripe_cross]

theorem rowCount_growTo (c : Content α) (rows columns : Nat) :
    (c.growTo rows columns).rowCount = max c.rowCount rows := by
  have wide : (c.appendEmpties .column (columns - c.columnCount)).count .row = c.count .row :=
    count_appendEmpties_cross c .column _
  rw [growTo, rowCount, count_appendEmpties_self, rowCount, wide, rowCount]
  omega

theorem columnCount_growTo (c : Content α) (rows columns : Nat) :
    (c.growTo rows columns).columnCount = max c.columnCount columns := by
  have tall (wide : Content α) (n : Nat) : (wide.appendEmpties .row n).count .column = wide.count .column :=
    count_appendEmpties_cross wide .row n
  rw [growTo, columnCount, tall, count_appendEmpties_self, columnCount]
  omega

theorem count_appendEmpties_of_cross (c : Content α) (axis : Axis) (n : Nat) :
    (c.appendEmpties axis.cross n).count axis = c.count axis := by
  simpa using c.count_appendEmpties_cross axis.cross n

/-- A content that has enough stripes of one direction only gets some of the other. -/
theorem growTo_of_tall {rows : Nat} (tall : rows ≤ c.rowCount) (columns : Nat) :
    c.growTo rows columns = c.appendEmpties .column (columns - c.columnCount) := by
  have same : (c.appendEmpties .column (columns - c.columnCount)).rowCount = c.rowCount :=
    count_appendEmpties_cross c .column _
  rw [growTo, same, Nat.sub_eq_zero_of_le tall, appendEmpties]

theorem growTo_of_wide {columns : Nat} (wide : columns ≤ c.columnCount) (rows : Nat) :
    c.growTo rows columns = c.appendEmpties .row (rows - c.rowCount) := by
  rw [growTo, Nat.sub_eq_zero_of_le wide]
  rfl

/-- A content that is large enough does not grow. -/
theorem growTo_of_le {rows columns : Nat} (tall : rows ≤ c.rowCount) (wide : columns ≤ c.columnCount) :
    c.growTo rows columns = c := by
  rw [growTo_of_tall tall, Nat.sub_eq_zero_of_le wide, appendEmpties]

/-! ### Lines -/

/-- The elements of each stripe of a direction, in order. -/
def lines (c : Content α) (axis : Axis) : List (List (Option α)) :=
  (c.stripes axis).ids.map fun own => (c.stripes axis.cross).ids.map (c.cellOn axis own)

@[simp] theorem length_lines (c : Content α) (axis : Axis) : (c.lines axis).length = c.count axis := by
  simp [lines, count]

theorem length_of_mem_lines {line : List (Option α)} (mem : line ∈ c.lines axis) :
    line.length = c.count axis.cross := by
  obtain ⟨own, -, rfl⟩ := List.mem_map.mp mem
  simp [count]

theorem elements?_eq (c : Content α) (axis : Axis) (p : Nat) : c.elements? axis p = (c.lines axis)[p]? := by
  rw [elements?, lines, List.getElem?_map, Stripes.idAt_eq]
  simp only [Stripes.ids, List.map_map]
  rfl

theorem toRows_eq (c : Content α) : c.toRows = c.lines .row := by
  have look : c.rowElements? = ((c.lines .row)[·]?) := funext fun p => elements?_eq c .row p
  rw [toRows, look, rowCount, ← length_lines]
  exact Stripes.filterMap_getElem?_range _

theorem length_toRows (c : Content α) : c.toRows.length = c.rowCount := by
  rw [toRows_eq, length_lines, rowCount]

theorem length_of_mem_toRows {row : List (Option α)} (mem : row ∈ c.toRows) : row.length = c.columnCount :=
  length_of_mem_lines (toRows_eq c ▸ mem)

/-- The elements where two stripes meet, by position. -/
theorem getElem?_lines (c : Content α) (axis : Axis) (p q : Nat) :
    (c.lines axis)[p]?.bind (·[q]?) =
      match (c.stripes axis).idAt p, (c.stripes axis.cross).idAt q with
      | some own, some other => some (c.cellOn axis own other)
      | _, _ => none := by
  simp only [lines, List.getElem?_map, Stripes.idAt_eq]
  cases (c.stripes axis).ids[p]? <;> cases h : (c.stripes axis.cross).ids[q]? <;> simp [h]

theorem element_eq (c : Content α) (row column : Nat) :
    c.element row column = ((c.lines .row)[row]?.bind (·[column]?)).join := by
  rw [getElem?_lines, element, cellKey?, rows, columns]
  cases (c.stripes .row).idAt row <;> cases h : (c.stripes .column).idAt column <;>
    simp [Axis.cross, h, cellOn]

/-- The rows, written out element by element. -/
theorem toRows_eq_map (c : Content α) :
    c.toRows = (List.range c.rowCount).map fun row => (List.range c.columnCount).map (c.element row) := by
  refine List.ext_getElem (by simp [length_toRows]) fun p hp hp' => ?_
  have width : c.toRows[p].length = c.columnCount := length_of_mem_toRows (List.getElem_mem hp)
  rw [List.getElem_map, List.getElem_range]
  refine List.ext_getElem (by simp [width]) fun q hq hq' => ?_
  rw [List.getElem_map, List.getElem_range, element_eq, ← toRows_eq, List.getElem?_eq_getElem hp,
    Option.bind_some, List.getElem?_eq_getElem hq, Option.join_some]

theorem title_eq (c : Content α) (axis : Axis) (p : Nat) : c.title axis p = (c.titles axis)[p]?.join := by
  rw [title, titles, Stripes.titles, List.getElem?_map, ← Stripes.get?_eq]
  cases (c.stripes axis).get? p <;> rfl

/-- The titles of a direction, written out one by one. -/
theorem titles_eq_map (c : Content α) (axis : Axis) :
    c.titles axis = (List.range (c.count axis)).map (c.title axis) := by
  refine List.ext_getElem (by simp [titles, count]) fun p hp hp' => ?_
  have inside : p < (c.stripes axis).toList.length := by simpa [titles, Stripes.titles] using hp
  rw [List.getElem_map, List.getElem_range, title, Stripes.get?_eq, List.getElem?_eq_getElem inside,
    Option.bind_some]
  exact List.getElem_map ..

/-- The lines along one direction are the columns of those along the other. -/
theorem lines_cross (c : Content α) (axis : Axis) :
    c.lines axis.cross = (List.range (c.count axis.cross)).map fun q => (c.lines axis).map (·[q]?.join) := by
  refine List.ext_getElem (by simp) fun q hq _ => ?_
  simp only [lines, Axis.cross_cross, List.getElem_map, List.getElem_range, List.map_map]
  refine List.map_congr_left fun own _ => ?_
  have inside : q < (c.stripes axis.cross).ids.length := by simpa [lines] using hq
  rw [Function.comp_apply, List.getElem?_map, List.getElem?_eq_getElem inside]
  exact cellOn_cross c axis own _

theorem lines_congr {changed : Content α} (own : (changed.stripes axis).ids = (c.stripes axis).ids)
    (cross : (changed.stripes axis.cross).ids = (c.stripes axis.cross).ids)
    (cells : ∀ i j, changed.cellOn axis i j = c.cellOn axis i j) : changed.lines axis = c.lines axis := by
  simp only [lines, own, cross]
  exact List.map_congr_left fun i _ => List.map_congr_left fun j _ => cells i j

/-- A new stripe is a new line of its own direction. -/
theorem Valid.lines_insertStripe_self (h : c.Valid) (inside : p ≤ c.count axis) (elements : List (Option α)) :
    (c.insertStripe axis p elements).lines axis =
      (c.lines axis).insertIdx p (fit (c.count axis.cross) elements) := by
  have new : (c.stripes axis.cross).ids.map ((c.insertStripe axis p elements).cellOn axis ⟨c.nextId⟩) =
      fit (c.count axis.cross) elements := by
    refine List.ext_getElem (by simp [length_fit, count]) fun j hj hj' => ?_
    have inside : j < (c.stripes axis.cross).ids.length := by simpa using hj
    have at? : (c.stripes axis.cross).idAt j = some (c.stripes axis.cross).ids[j] := by
      rw [Stripes.idAt_eq]
      exact List.getElem?_eq_getElem inside
    rw [List.getElem_map, h.cellOn_insertStripe_self, ((h.indexed axis.cross) _ _).mpr at?]
    simp [fit]
  rw [lines, stripes_insertStripe_self, ids_insertStripe_cross, Stripes.ids_insertAt, List.map_insertIdx, new,
    show min p (c.stripes axis).size = p from Nat.min_eq_left inside, lines]
  congr 1
  refine List.map_congr_left fun own mem => List.map_congr_left fun other _ => ?_
  exact cellOn_insertStripe_of_ne (fun same => h.fresh axis (same ▸ mem)) elements other

/-- A new stripe adds one element to each line that it crosses. -/
theorem Valid.lines_insertStripe_cross (h : c.Valid) (inside : p ≤ c.count axis)
    (elements : List (Option α)) : (c.insertStripe axis p elements).lines axis.cross =
      List.zipWith (·.insertIdx p ·) (c.lines axis.cross) (fit (c.count axis.cross) elements) := by
  refine List.ext_getElem (by simp [length_fit]) fun q hq hq' => ?_
  have hq : q < (c.stripes axis.cross).ids.length := by simpa [count_eq] using hq
  have at? : (c.stripes axis.cross).idAt q = some (c.stripes axis.cross).ids[q] := by
    rw [Stripes.idAt_eq]
    exact List.getElem?_eq_getElem hq
  simp only [lines, ids_insertStripe_cross, Axis.cross_cross, List.getElem_map, List.getElem_zipWith,
    stripes_insertStripe_self, Stripes.ids_insertAt, List.map_insertIdx,
    show min p (c.stripes axis).size = p from Nat.min_eq_left inside]
  rw [cellOn_cross, h.cellOn_insertStripe_self, ((h.indexed axis.cross) _ _).mpr at?]
  have old : (c.stripes axis).ids.map ((c.insertStripe axis p elements).cellOn axis.cross
        (c.stripes axis.cross).ids[q]) =
      (c.stripes axis).ids.map (c.cellOn axis.cross (c.stripes axis.cross).ids[q]) := by
    refine List.map_congr_left fun own mem => ?_
    rw [cellOn_cross, cellOn_cross]
    exact cellOn_insertStripe_of_ne (fun same => h.fresh axis (same ▸ mem)) elements _
  rw [old]
  simp [fit]

section Rearranged

variable {changed : Content α} {f : (β : Type) → List β → List β}

/-- A change of the order of a direction changes the order of its lines. -/
theorem lines_rearranged_self (natural : Natural f)
    (own : (changed.stripes axis).ids = f _ (c.stripes axis).ids)
    (cross : (changed.stripes axis.cross).ids = (c.stripes axis.cross).ids)
    (cells : ∀ i ∈ (changed.stripes axis).ids, ∀ j, changed.cellOn axis i j = c.cellOn axis i j) :
    changed.lines axis = f _ (c.lines axis) := by
  rw [lines, lines, ← natural, ← own, cross]
  exact List.map_congr_left fun i mem => List.map_congr_left fun j _ => cells i mem j

/-- A change of the order of a direction changes the order within each line of the other. -/
theorem lines_rearranged_cross (natural : Natural f)
    (own : (changed.stripes axis).ids = f _ (c.stripes axis).ids)
    (cross : (changed.stripes axis.cross).ids = (c.stripes axis.cross).ids)
    (cells : ∀ i ∈ (changed.stripes axis).ids, ∀ j, changed.cellOn axis i j = c.cellOn axis i j) :
    changed.lines axis.cross = (c.lines axis.cross).map (f _) := by
  simp only [lines, cross, Axis.cross_cross, List.map_map]
  refine List.map_congr_left fun j _ => ?_
  rw [Function.comp_apply, ← natural, ← own]
  exact List.map_congr_left fun i mem => by rw [cellOn_cross, cellOn_cross, cells i mem j]

end Rearranged

/-- Every position of the table has an address. -/
theorem exists_cellKey? {row column : Nat} (hr : row < c.rowCount) (hc : column < c.columnCount) :
    ∃ k, c.cellKey? row column = some k := by
  have at_row : row < (c.stripes .row).ids.length := by rw [← count_eq]; exact hr
  have at_column : column < (c.stripes .column).ids.length := by rw [← count_eq]; exact hc
  exact ⟨_, (cellKey?_eq_some c row column).mpr ⟨(c.stripes .row).ids[row], (c.stripes .column).ids[column],
    (Stripes.idAt_eq ..).trans (List.getElem?_eq_getElem at_row),
    (Stripes.idAt_eq ..).trans (List.getElem?_eq_getElem at_column), rfl⟩⟩

theorem cellKey?_coordinates (c : Content α) (axis : Axis) (p q : Nat) :
    c.cellKey? (axis.coordinates p q).1 (axis.coordinates p q).2 =
      match (c.stripes axis).idAt p, (c.stripes axis.cross).idAt q with
      | some own, some other => some (c.keyOn axis own other)
      | _, _ => none := by
  cases axis
  · rfl
  · simp only [Axis.coordinates, cellKey?, Axis.cross, rows, columns]
    cases (c.stripes .row).idAt q <;> cases (c.stripes .column).idAt p <;> try rfl
    exact congrArg some (keyOn_cross c .column _ _)

theorem cellOn_set {q : Nat} {own other : StripeId} (hp : (c.stripes axis).idAt p = some own)
    (hq : (c.stripes axis.cross).idAt q = some other) (element : Option α) (i j : StripeId) :
    (c.set (axis.coordinates p q).1 (axis.coordinates p q).2 element).cellOn axis i j =
      if own = i ∧ other = j then element else c.cellOn axis i j := by
  have key := cellKey?_coordinates c axis p q
  rw [hp, hq] at key
  rw [cellOn, keyOn_congr (transposed_set ..), cells_set c _ _ element key, Cells.get?_put]
  simp only [keyOn_inj]
  rfl

/-- Writing a cell changes one element of one line. -/
theorem Valid.lines_set (h : c.Valid) (axis : Axis) (p q : Nat) (element : Option α) :
    (c.set (axis.coordinates p q).1 (axis.coordinates p q).2 element).lines axis =
      (c.lines axis).modify p (·.set q element) := by
  have key := cellKey?_coordinates c axis p q
  rw [List.modify_eq_set_getElem?]
  cases hp : (c.stripes axis).idAt p with
  | none =>
    rw [hp] at key
    have outside : (c.lines axis)[p]? = none := by simpa [Stripes.idAt_eq, count] using hp
    rw [set_of_none c _ _ element key, outside]
    rfl
  | some own =>
    have at_p : (c.stripes axis).ids[p]? = some own := by rwa [Stripes.idAt_eq] at hp
    have line : (c.lines axis)[p]? = some ((c.stripes axis.cross).ids.map (c.cellOn axis own)) := by
      rw [lines, List.getElem?_map, at_p]
      rfl
    rw [line]
    cases hq : (c.stripes axis.cross).idAt q with
    | none =>
      rw [hp, hq] at key
      have outside : ((c.stripes axis.cross).ids.map (c.cellOn axis own)).length ≤ q := by
        simpa [Stripes.idAt_eq] using hq
      obtain ⟨inside, same⟩ := List.getElem?_eq_some_iff.mp line
      rw [set_of_none c _ _ element key, Option.map_eq_map, Option.map_some, Option.getD_some,
        List.set_eq_of_length_le outside, ← same, List.set_getElem_self]
    | some other =>
      have at_q : (c.stripes axis.cross).ids[q]? = some other := by rwa [Stripes.idAt_eq] at hq
      have cell := cellOn_set hp hq element
      have here : (c.stripes axis.cross).ids.map
          ((c.set (axis.coordinates p q).1 (axis.coordinates p q).2 element).cellOn axis own) =
            ((c.stripes axis.cross).ids.map (c.cellOn axis own)).set q element := by
        rw [map_eq_set (h.indexed axis.cross).nodup at_q (g := c.cellOn axis own) fun j ne => by
          rw [cell, if_neg fun both => ne both.2.symm]]
        rw [cell, if_pos ⟨rfl, rfl⟩]
      have whole := map_eq_set (h.indexed axis).nodup at_p
        (f := fun i => (c.stripes axis.cross).ids.map
          ((c.set (axis.coordinates p q).1 (axis.coordinates p q).2 element).cellOn axis i))
        (g := fun i => (c.stripes axis.cross).ids.map (c.cellOn axis i)) fun i ne =>
          List.map_congr_left fun j _ => by rw [cell, if_neg fun both => ne both.1.symm]
      simp only [lines, ids_set]
      exact whole.trans (by rw [here]; rfl)

@[simp] theorem lines_clear (c : Content α) (axis : Axis) : c.clear.lines axis = [] := by
  simp [lines, Stripes.ids, Stripes.toList]

theorem lines_transpose (c : Content α) (axis : Axis) : c.transpose.lines axis = c.lines axis.cross := by
  simp only [lines, stripes_transpose]
  exact List.map_congr_left fun i _ => List.map_congr_left fun j _ => cellOn_transpose c i j

end Content

end LiveTable
