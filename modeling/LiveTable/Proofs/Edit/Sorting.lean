import LiveTable.Proofs.Edit.Script

/-! Sorting is a stable sort of whole rows.  The positions of the rows are sorted by the keys that stand
    there, and then the rows are put in that order, so a row takes its identity, its title and its
    elements along.  What makes the sort stable in both directions is that descending order turns the
    comparison round and not the list: two keys between which the comparison does not decide are tied
    either way, and the sort of the positions leaves tied ones as they stood. -/

namespace LiveTable

/-! ### Keys in order -/

section Keys

variable {α : Type}

/-- A key that may stand before another in ascending order: null stands before everything. -/
inductive Upto (compareElements : α → α → Ordering) : Option α → Option α → Prop
  | null (b : Option α) : Upto compareElements none b
  | elements {a b : α} (le : (compareElements a b).isLE) : Upto compareElements (some a) (some b)

/-- Two keys between which the comparison does not decide. -/
inductive Tied (compareElements : α → α → Ordering) : Option α → Option α → Prop
  | nulls : Tied compareElements none none
  | elements {a b : α} (eq : compareElements a b = .eq) : Tied compareElements (some a) (some b)

/-- A key may stand before another; descending order is ascending order read backwards. -/
def InOrder (compareElements : α → α → Ordering) (descending : Bool) (a b : Option α) : Prop :=
  if descending then Upto compareElements b a else Upto compareElements a b

variable (compareElements : α → α → Ordering) (descending : Bool) {a b : Option α}

theorem isLE_compareCells : (compareCells compareElements a b).isLE ↔ Upto compareElements a b := by
  constructor
  · intro le
    match a, b with
    | none, b => exact .null b
    | some _, none => simp [compareCells] at le
    | some _, some _ => exact .elements le
  · rintro (_ | le)
    · cases b <;> rfl
    · exact le

variable [Std.TransCmp compareElements]

instance transCmp_compareCells : Std.TransCmp (compareCells compareElements) where
  eq_swap {a b} := by
    match a, b with
    | none, none | none, some _ | some _, none => rfl
    | some a, some b =>
      have turned : compareElements a b = (compareElements b a).swap := Std.OrientedCmp.eq_swap
      exact turned
  isLE_trans {a b c} first later := by
    rw [isLE_compareCells] at first later ⊢
    cases first with
    | null => exact .null c
    | elements le =>
      cases later with
      | elements le' => exact .elements (Std.TransCmp.isLE_trans le le')

instance transCmp_sortOrder : Std.TransCmp (sortOrder compareElements descending) := by
  cases descending with
  | false => exact transCmp_compareCells compareElements
  | true =>
    have turned : sortOrder compareElements true = fun a b => compareCells compareElements b a :=
      funext fun a => funext fun b => Std.OrientedCmp.eq_swap.symm
    rw [turned]
    exact inferInstance

theorem isLE_sortOrder : (sortOrder compareElements descending a b).isLE ↔
    InOrder compareElements descending a b := by
  cases descending with
  | false => exact isLE_compareCells compareElements
  | true =>
    have turned : sortOrder compareElements true a b = compareCells compareElements b a :=
      Std.OrientedCmp.eq_swap.symm
    rw [turned]
    exact isLE_compareCells compareElements

/-- Tied keys are in order both ways, whichever direction the sort takes. -/
theorem Tied.inOrder_swap (tied : Tied compareElements a b) : InOrder compareElements descending b a := by
  have both : Upto compareElements a b ∧ Upto compareElements b a := by
    cases tied with
    | nulls => exact ⟨.null none, .null none⟩
    | elements eq =>
      refine ⟨.elements (Ordering.isLE_of_eq_eq eq), .elements (Ordering.isLE_of_eq_eq ?_)⟩
      exact Std.OrientedCmp.eq_symm eq
  cases descending with
  | false => exact both.2
  | true => exact both.1

/-- Every ready-made order is a total preorder, as far as the natural one is. -/
instance transCmp_sortKey [Element α] [Std.TransOrd α] (key : SortKey) :
    Std.TransCmp (key.compare (α := α)) := by
  cases key with
  | natural => exact inferInstanceAs (Std.TransOrd α)
  | byteLength => exact inferInstanceAs (Std.TransCmp (compareOn Element.byteLength))
  | backwards => exact inferInstanceAs (Std.TransCmp fun a b : α => compare b a)

end Keys

/-! ### Positions -/

section Positions

/-- A stable sort of numbered members: they are in order, and those that may stand either way keep the
    order of their numbers. -/
theorem pairwise_mergeSort_numbered {β : Type} {le : β → β → Bool} (trans : ∀ a b c, le a b → le b c → le a c)
    (total : ∀ a b, le a b || le b a) (l : List β) :
    (l.zipIdx.mergeSort fun a b => le a.1 b.1).Pairwise fun a b => le a.1 b.1 ∧ (le b.1 a.1 → a.2 ≤ b.2) := by
  let byKey : β × Nat → β × Nat → Bool := fun a b => le a.1 b.1
  -- numbered once more, the members are sorted by key and number, and the second number is the first
  have sorted : (l.zipIdx.zipIdx.mergeSort (List.zipIdxLE byKey)).Pairwise (List.zipIdxLE byKey · ·) :=
    List.pairwise_mergeSort (List.zipIdxLE_trans fun a b c => trans a.1 b.1 c.1)
      (List.zipIdxLE_total fun a b => total a.1 b.1) _
  have twice : ∀ a ∈ l.zipIdx.zipIdx.mergeSort (List.zipIdxLE byKey), a.2 = a.1.2 := by
    rintro ⟨⟨b, i⟩, j⟩ mem
    have numbered := List.mem_zipIdx_iff_getElem?.mp (List.mem_mergeSort.mp mem)
    rw [List.getElem?_zipIdx] at numbered
    obtain ⟨_, -, pair⟩ := Option.map_eq_some_iff.mp numbered
    simpa using congrArg Prod.snd pair
  have unnumbered :
      (l.zipIdx.zipIdx.mergeSort (List.zipIdxLE byKey)).map Prod.fst = l.zipIdx.mergeSort byKey :=
    List.mergeSort_zipIdx
  rw [← unnumbered, List.pairwise_map]
  refine sorted.imp_of_mem fun {a b} here there le => ?_
  simp only [List.zipIdxLE, twice a here, twice b there] at le
  grind

variable {α : Type} (compareElements : α → α → Ordering) (descending : Bool)

variable [Std.TransCmp compareElements] (keys : List (Option α))

/-- The sorted positions are in the order of their keys, and positions with tied keys are in their own. -/
theorem pairwise_sortedPositions :
    (sortedPositions compareElements descending keys).Pairwise fun p q =>
      InOrder compareElements descending keys[p]?.join keys[q]?.join ∧
        (Tied compareElements keys[p]?.join keys[q]?.join → p < q) := by
  let le (a b : Option α) : Bool := (sortOrder compareElements descending a b).isLE
  have total (a b : Option α) : le a b || le b a := by
    have turned :
        sortOrder compareElements descending b a = (sortOrder compareElements descending a b).swap :=
      Std.OrientedCmp.eq_swap
    simp only [le, turned]
    cases sortOrder compareElements descending a b <;> rfl
  have key (a : Option α × Nat) (mem : a ∈ keys.zipIdx.mergeSort fun a b => le a.1 b.1) :
      keys[a.2]?.join = a.1 := by
    rw [List.mem_zipIdx_iff_getElem?.mp (List.mem_mergeSort.mp mem), Option.join_some]
  have sorted : (sortedPositions compareElements descending keys).Pairwise fun p q =>
      InOrder compareElements descending keys[p]?.join keys[q]?.join ∧
        (Tied compareElements keys[p]?.join keys[q]?.join → p ≤ q) := by
    rw [sortedPositions, List.pairwise_map]
    refine (pairwise_mergeSort_numbered (fun _ _ _ => Std.TransCmp.isLE_trans) total keys).imp_of_mem ?_
    rintro a b here there ⟨ordered, tie⟩
    rw [key a here, key b there]
    refine ⟨(isLE_sortOrder compareElements descending).mp ordered, fun tied => tie ?_⟩
    exact (isLE_sortOrder compareElements descending).mpr (tied.inOrder_swap compareElements descending)
  have distinct : (sortedPositions compareElements descending keys).Nodup :=
    (Edit.perm_sortedPositions compareElements descending keys).nodup_iff.mpr List.nodup_range
  refine (sorted.and distinct).imp ?_
  rintro p q ⟨⟨ordered, stable⟩, other⟩
  exact ⟨ordered, fun tied => Nat.lt_of_le_of_ne (stable tied) other⟩

/-- Keys that are in order stay where they are. -/
theorem sortedPositions_of_pairwise (ordered : keys.Pairwise (InOrder compareElements descending)) :
    sortedPositions compareElements descending keys = List.range keys.length := by
  have sorted : keys.zipIdx.Pairwise fun a b => (sortOrder compareElements descending a.1 b.1).isLE := by
    rw [← List.zipIdx_map_fst 0 keys, List.pairwise_map] at ordered
    exact ordered.imp (isLE_sortOrder compareElements descending).mpr
  rw [sortedPositions, List.mergeSort_of_pairwise sorted]
  simp [List.range_eq_range']

end Positions

/-! ### Rows -/

namespace Content

variable {α : Type} {c : Content α} {column : Nat}

theorem columnElements?_eq (c : Content α) (column : Nat) :
    c.columnElements? column = if column < c.columnCount then some (c.toRows.map (·[column]?.join))
      else none := by
  have lines : c.lines .column = (List.range c.columnCount).map fun q => (c.lines .row).map (·[q]?.join) :=
    lines_cross c .row
  rw [columnElements?, elements?_eq, lines, List.getElem?_map, toRows_eq]
  split
  · next inside => rw [List.getElem?_range inside, Option.map_some]
  · next outside => rw [List.getElem?_eq_none (by simpa using Nat.le_of_not_lt outside), Option.map_none]

/-- The key of a row is its element in the column. -/
theorem getElem?_keys (c : Content α) (row column : Nat) :
    (c.toRows.map (·[column]?.join))[row]?.join = c.element row column := by
  rw [element_eq, toRows_eq, List.getElem?_map]
  cases (c.lines .row)[row]? <;> rfl

/-- What a sort by a column makes of a content: the same rows in another order, each of them whole. -/
structure SortedBy (compareElements : α → α → Ordering) (descending : Bool) (column : Nat)
    (before after : Content α) (order : List Nat) : Prop where
  perm : order.Perm (List.range before.rowCount)
  /-- A row takes along its identity, its title and its revision. -/
  stripes : after.rows.toList = permuted order before.rows.toList
  elements : after.toRows = permuted order before.toRows
  /-- Nothing but the list of rows is another. -/
  rest : after = before.mapStripes .row fun _ => after.rows
  /-- In the new order the keys go up, or down if the order is descending. -/
  ordered : ∀ p q, p < q → q < after.rowCount →
    InOrder compareElements descending (after.element p column) (after.element q column)
  /-- Rows with tied keys follow one another as they did before. -/
  stable : order.Pairwise fun p q =>
    Tied compareElements (before.element p column) (before.element q column) → p < q

variable (compareElements : α → α → Ordering) (descending : Bool)

/-- The positions of the rows in the order that sorts them by a column. -/
def rowOrder (c : Content α) (column : Nat) : List Nat :=
  sortedPositions compareElements descending (c.toRows.map (·[column]?.join))

theorem perm_rowOrder (c : Content α) (column : Nat) :
    (c.rowOrder compareElements descending column).Perm (List.range c.rowCount) := by
  have perm := Edit.perm_sortedPositions compareElements descending (c.toRows.map (·[column]?.join))
  rwa [List.length_map, length_toRows] at perm

variable [Std.TransCmp compareElements]

theorem pairwise_rowOrder (c : Content α) (column : Nat) :
    (c.rowOrder compareElements descending column).Pairwise fun p q =>
      InOrder compareElements descending (c.element p column) (c.element q column) ∧
        (Tied compareElements (c.element p column) (c.element q column) → p < q) := by
  have sorted := pairwise_sortedPositions compareElements descending (c.toRows.map (·[column]?.join))
  simp only [getElem?_keys] at sorted
  exact sorted

/-- Rows put in the order of their keys have their keys in order. -/
theorem pairwise_keys {after : Content α}
    (elements : after.toRows = permuted (c.rowOrder compareElements descending column) c.toRows) :
    (after.toRows.map (·[column]?.join)).Pairwise (InOrder compareElements descending) := by
  have inside : ∀ p ∈ c.rowOrder compareElements descending column, p < c.toRows.length := fun p mem => by
    rw [length_toRows]
    exact List.mem_range.mp ((perm_rowOrder compareElements descending c column).mem_iff.mp mem)
  have keys : after.toRows.map (·[column]?.join) =
      (c.rowOrder compareElements descending column).map (c.element · column) := by
    refine List.ext_getElem? fun n => ?_
    rw [elements, List.getElem?_map, getElem?_permuted inside, List.getElem?_map]
    cases place : (c.rowOrder compareElements descending column)[n]? with
    | none => rfl
    | some p =>
      have here := inside p (List.mem_of_getElem? place)
      rw [Option.bind_some, Option.map_some, ← getElem?_keys, List.getElem?_map,
        List.getElem?_eq_getElem here]
      rfl
  rw [keys, List.pairwise_map]
  exact (pairwise_rowOrder compareElements descending c column).imp And.left

/-- Rows put in the order of their keys are sorted. -/
theorem sortedBy_rowOrder {after : Content α}
    (stripes : after.rows.toList = permuted (c.rowOrder compareElements descending column) c.rows.toList)
    (elements : after.toRows = permuted (c.rowOrder compareElements descending column) c.toRows)
    (rest : after = c.mapStripes .row fun _ => after.rows) :
    SortedBy compareElements descending column c after (c.rowOrder compareElements descending column) where
  perm := perm_rowOrder compareElements descending c column
  stripes := stripes
  elements := elements
  rest := rest
  ordered p q before inside := by
    have there : q < (after.toRows.map (·[column]?.join)).length := by rwa [List.length_map, length_toRows]
    have here : p < (after.toRows.map (·[column]?.join)).length := Nat.lt_trans before there
    have ordered :=
      List.pairwise_iff_getElem.mp (pairwise_keys compareElements descending elements) p q here there before
    rwa [← getElem?_keys, ← getElem?_keys, List.getElem?_eq_getElem here, List.getElem?_eq_getElem there]
  stable := (pairwise_rowOrder compareElements descending c column).imp And.right

theorem sortedBy_self (same : c.rowOrder compareElements descending column = List.range c.rowCount) :
    SortedBy compareElements descending column c c (c.rowOrder compareElements descending column) := by
  refine sortedBy_rowOrder compareElements descending ?_ ?_ (mapStripes_eq_self rfl).symm
  · have size : c.rowCount = c.rows.toList.length := (Stripes.length_toList c.rows).symm
    rw [same, size, permuted_range]
  · rw [same, ← length_toRows, permuted_range]

theorem rows_reorderRows {order : List Nat} (perm : order.Perm (List.range c.rowCount)) :
    (c.reorderRows order).rows.toList = permuted order c.rows.toList := by
  rw [rows, Content.reorderRows, stripes_mapStripes_self, Stripes.toList_reorder_eq perm, rows]

theorem sortedBy_reorderRows (c : Content α) (column : Nat) :
    SortedBy compareElements descending column c
      (c.reorderRows (c.rowOrder compareElements descending column))
      (c.rowOrder compareElements descending column) := by
  have perm := perm_rowOrder compareElements descending c column
  refine sortedBy_rowOrder compareElements descending (rows_reorderRows perm)
    (congrArg Layout.rows (layout_reorderRows perm)) ?_
  rw [rows, Content.reorderRows, stripes_mapStripes_self]
  cases first : c.isFirst .row <;> simp [mapStripes, stripes, first]

/-- Rows put in another order are listed otherwise, since no identity is there twice. -/
theorem Valid.ids_reorderRows_ne (h : c.Valid) {order : List Nat} (perm : order.Perm (List.range c.rowCount))
    (other : order ≠ List.range c.rowCount) : (c.reorderRows order).rows.ids ≠ c.rows.ids := by
  have size : c.rows.ids.length = c.rowCount := (count_eq c .row).symm
  have listed : (c.reorderRows order).rows.ids = permuted order c.rows.ids := by
    rw [Stripes.ids, rows_reorderRows perm, natural_permuted, ← Stripes.ids]
  intro unmoved
  rw [listed] at unmoved
  exact other (size ▸ eq_range_of_permuted_eq (size ▸ perm) (h.indexed .row).nodup unmoved)

end Content

/-! ### Sorting -/

namespace Edit

variable {α ω : Type} {c : Content α} (compareElements : α → α → Ordering) (descending : Bool) {column : Nat}
  (observers : ω) (tell : ω → Notice α → ω)

theorem sortRows_outside (outside : c.columnCount ≤ column) :
    (⟨c, observers, tell⟩ : Edit α ω).sortRows column descending compareElements =
      (false, ⟨c, observers, tell⟩) := by
  rw [sortRows, Content.columnElements?_eq, if_neg (Nat.not_lt.mpr outside)]

theorem sortRows_inside (inside : column < c.columnCount) :
    (⟨c, observers, tell⟩ : Edit α ω).sortRows column descending compareElements =
      (true, if c.rowOrder compareElements descending column = List.range c.rowCount then ⟨c, observers, tell⟩
        else
          let after := c.reorderRows (c.rowOrder compareElements descending column)
          ⟨after, tell observers ⟨.reordered, after⟩, tell⟩) := by
  simp only [sortRows, Content.columnElements?_eq, if_pos inside, List.length_map, Content.length_toRows]
  rfl

variable [Std.TransCmp compareElements]

/-- Rows that are in order are left alone. -/
theorem sortRows_sortedBy {after : Content α} (inside : column < c.columnCount)
    (sorted : Content.SortedBy compareElements descending column c after
      (c.rowOrder compareElements descending column)) :
    (⟨after, observers, tell⟩ : Edit α ω).sortRows column descending compareElements =
      (true, ⟨after, observers, tell⟩) := by
  have ordered := Content.pairwise_keys compareElements descending sorted.elements
  have same : after.rowOrder compareElements descending column = List.range after.rowCount := by
    rw [Content.rowOrder, sortedPositions_of_pairwise compareElements descending _ ordered, List.length_map,
      Content.length_toRows]
  have columns : after.columns = c.columns :=
    (congrArg Content.columns sorted.rest).trans (Content.stripes_mapStripes_cross c .row _)
  have inside' : column < after.columnCount := by
    show column < after.columns.size
    rw [columns]
    exact inside
  rw [sortRows_inside compareElements descending observers tell inside', if_pos same]

/-- Sorting the rows of a table that some run of changes made by a column that does not exist changes
    nothing.  By one that exists it is a stable sort of whole rows, of which observers get one notice
    unless every row is in place already, and to sort again the same way changes nothing more. -/
theorem sortRows_sorts (origin : Content.Origin α) (changes : List (Content.Change α)) (column : Nat) :
    let e : Edit α ω := ⟨Content.run origin changes, observers, tell⟩
    let sorted := (e.sortRows column descending compareElements).2
    (e.content.columnCount ≤ column → e.sortRows column descending compareElements = (false, e)) ∧
    (column < e.content.columnCount →
      (e.sortRows column descending compareElements).1 = true ∧
      (∃ order, Content.SortedBy compareElements descending column e.content sorted.content order) ∧
      (sorted = if sorted.content.rows.ids = e.content.rows.ids then e
        else ⟨sorted.content, tell observers ⟨.reordered, sorted.content⟩, tell⟩) ∧
      sorted.sortRows column descending compareElements = (true, sorted)) := by
  intro e sorted
  have valid : e.content.Valid := Content.valid_run origin changes
  refine ⟨fun outside => sortRows_outside compareElements descending observers tell outside, fun inside => ?_⟩
  have result := sortRows_inside compareElements descending observers tell inside
  have perm := Content.perm_rowOrder compareElements descending e.content column
  refine ⟨congrArg Prod.fst result, ?_⟩
  by_cases same : e.content.rowOrder compareElements descending column = List.range e.content.rowCount
  · rw [if_pos same] at result
    have unchanged : sorted = e := congrArg Prod.snd result
    have rows := Content.sortedBy_self compareElements descending same
    rw [unchanged, if_pos rfl]
    exact ⟨⟨_, rows⟩, rfl, result⟩
  · rw [if_neg same] at result
    let after := e.content.reorderRows (e.content.rowOrder compareElements descending column)
    have changed : sorted = ⟨after, tell observers ⟨.reordered, after⟩, tell⟩ := congrArg Prod.snd result
    have rows := Content.sortedBy_reorderRows compareElements descending e.content column
    rw [changed, if_neg (valid.ids_reorderRows_ne perm same)]
    exact ⟨⟨_, rows⟩, rfl, sortRows_sortedBy compareElements descending _ tell inside rows⟩

/-- Two rows of one length and one without a key, sorted with the longest written form first. -/
theorem sortRows_sorts_longest :
    let e : Edit String (List (Notice String)) :=
      recorded (Content.run (.rows [[some "bb"], [none], [some "aa"], [some "ccc"]]) [])
    let sorted := (e.sortRows 0 true SortKey.byteLength.compare).2
    (∃ order, Content.SortedBy SortKey.byteLength.compare true 0 e.content sorted.content order) ∧
      sorted.sortRows 0 true SortKey.byteLength.compare = (true, sorted) := by
  have sorts :=
    sortRows_sorts SortKey.byteLength.compare true ([] : List (Notice String)) (fun told n => told ++ [n])
    (.rows [[some "bb"], [none], [some "aa"], [some "ccc"]]) [] 0
  obtain ⟨-, rows, -, again⟩ := sorts.2 (by decide +kernel)
  exact ⟨rows, again⟩

end Edit

end LiveTable
