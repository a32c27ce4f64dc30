import LiveTable.Proofs.Content.Cells

/-! The invariant of contents and the runs that keep it.  In a `Valid` content each list of stripes is
    the inverse of its map of positions, no identity stands in both lists, identities are older than the
    next one, and every cell lies on two stripes that are there.  The invariant is kept by every change,
    and a run is a list of changes after one of the three ways to make a content. -/

namespace LiveTable.Content

variable {α : Type} {c : Content α} {axis : Axis} {p : Nat}

/-- What holds of every content that the changes can make. -/
structure Valid (c : Content α) : Prop where
  first : c.first.Indexed
  second : c.second.Indexed
  apart : ∀ i ∈ c.first.ids, i ∉ c.second.ids
  firstBelow : ∀ i ∈ c.first.ids, i.value < c.nextId
  secondBelow : ∀ i ∈ c.second.ids, i.value < c.nextId
  live : ∀ k x, c.cells.get? k = some x → k.first ∈ c.first.ids ∧ k.second ∈ c.second.ids

namespace Valid

theorem indexed (h : c.Valid) (axis : Axis) : (c.stripes axis).Indexed := by
  rw [stripes]
  split
  · exact h.first
  · exact h.second

theorem below (h : c.Valid) {i : StripeId} (mem : i ∈ (c.stripes axis).ids) : i.value < c.nextId := by
  rw [stripes] at mem
  split at mem
  · exact h.firstBelow i mem
  · exact h.secondBelow i mem

theorem not_mem_cross (h : c.Valid) {i : StripeId} (mem : i ∈ (c.stripes axis).ids) :
    i ∉ (c.stripes axis.cross).ids := by
  cases f : c.isFirst axis <;> simp only [stripes, isFirst_cross, f] at mem ⊢
  · exact fun other => h.apart i other mem
  · exact h.apart i mem

theorem mem_of_cellOn (h : c.Valid) {own other : StripeId} {x : α} (cell : c.cellOn axis own other = some x) :
    own ∈ (c.stripes axis).ids ∧ other ∈ (c.stripes axis.cross).ids := by
  have live := h.live _ x cell
  cases f : c.isFirst axis <;> simp only [stripes, keyOn, isFirst_cross, f] at live ⊢
  · exact live.symm
  · exact live

/-- The next identity is that of no stripe. -/
theorem fresh (h : c.Valid) (axis : Axis) : ⟨c.nextId⟩ ∉ (c.stripes axis).ids :=
  fun mem => Nat.lt_irrefl _ (h.below mem)

theorem cellOn_fresh (h : c.Valid) (axis : Axis) (other : StripeId) :
    c.cellOn axis ⟨c.nextId⟩ other = none := by
  cases cell : c.cellOn axis ⟨c.nextId⟩ other with
  | none => rfl
  | some x => exact absurd (h.mem_of_cellOn cell).1 (h.fresh axis)

/-- Two contents with the same stripes in the same order and the same cells are the same. -/
theorem ext {c' : Content α} (h : c.Valid) (h' : c'.Valid) (name : c.name = c'.name)
    (orientation : c.transposed = c'.transposed) (next : c.nextId = c'.nextId) (cells : c.cells = c'.cells)
    (lists : ∀ axis, (c.stripes axis).toList = (c'.stripes axis).toList) : c = c' := by
  have stripes (axis : Axis) : c.stripes axis = c'.stripes axis :=
    (h.indexed axis).ext (h'.indexed axis) (lists axis)
  have both : c.first = c'.first ∧ c.second = c'.second := by
    have rows := stripes .row
    have columns := stripes .column
    cases turned : c'.transposed <;> simp [Content.stripes, isFirst, orientation, turned] at rows columns
    · exact ⟨rows, columns⟩
    · exact ⟨columns, rows⟩
  cases c
  cases c'
  simp_all

end Valid

/-- The invariant can be shown along either direction. -/
theorem valid_of_axis (axis : Axis) (own : (c.stripes axis).Indexed) (cross : (c.stripes axis.cross).Indexed)
    (apart : ∀ i ∈ (c.stripes axis).ids, i ∉ (c.stripes axis.cross).ids)
    (below : ∀ b i, i ∈ (c.stripes b).ids → i.value < c.nextId)
    (live : ∀ i j x, c.cellOn axis i j = some x → i ∈ (c.stripes axis).ids ∧ j ∈ (c.stripes axis.cross).ids) :
    c.Valid := by
  have ownBelow := below axis
  have crossBelow := below axis.cross
  have onKey : ∀ k x, c.cells.get? k = some x →
      ∃ i j, k = c.keyOn axis i j ∧ i ∈ (c.stripes axis).ids ∧ j ∈ (c.stripes axis.cross).ids := by
    intro k x cell
    obtain ⟨i, j, rfl⟩ := c.exists_keyOn axis k
    exact ⟨i, j, rfl, live i j x cell⟩
  cases f : c.isFirst axis <;>
    simp only [stripes, keyOn, isFirst_cross, f, Bool.not_false, Bool.not_true, if_true, Bool.false_eq_true,
      if_false] at own cross apart ownBelow crossBelow onKey
  · refine ⟨cross, own, fun i mem other => apart i other mem, crossBelow, ownBelow, fun k x cell => ?_⟩
    obtain ⟨i, j, rfl, hi, hj⟩ := onKey k x cell
    exact ⟨hj, hi⟩
  · refine ⟨own, cross, apart, ownBelow, crossBelow, fun k x cell => ?_⟩
    obtain ⟨i, j, rfl, hi, hj⟩ := onKey k x cell
    exact ⟨hi, hj⟩

/-- Changes that keep the orientation and the identities keep the invariant if the cells stay on live
    stripes. -/
theorem Valid.of_sameIds (h : c.Valid) {changed : Content α} (orientation : changed.transposed = c.transposed)
    (next : changed.nextId = c.nextId) (indexed : ∀ b, (changed.stripes b).Indexed)
    (mem : ∀ b i, i ∈ (changed.stripes b).ids ↔ i ∈ (c.stripes b).ids)
    (live : ∀ k x, changed.cells.get? k = some x → (c.cells.get? k).isSome ∨
      ∃ i j, k = c.keyOn .row i j ∧ i ∈ c.rows.ids ∧ j ∈ c.columns.ids) : changed.Valid := by
  refine valid_of_axis .row (indexed _) (indexed _) ?_ ?_ ?_
  · intro i here there
    exact h.not_mem_cross ((mem _ i).mp here) ((mem _ i).mp there)
  · intro b i here
    rw [next]
    exact h.below ((mem b i).mp here)
  · intro i j x cell
    rw [mem, mem]
    rw [cellOn, keyOn_congr orientation] at cell
    rcases live _ x cell with old | ⟨i', j', same, hi, hj⟩
    · obtain ⟨y, old⟩ := Option.isSome_iff_exists.mp old
      have live : i ∈ (c.stripes .row).ids ∧ j ∈ (c.stripes Axis.row.cross).ids := h.mem_of_cellOn old
      exact live
    · obtain ⟨rfl, rfl⟩ := keyOn_inj.mp same
      exact ⟨hi, hj⟩

/-! ### Every change keeps the invariant -/

theorem mem_ids_insertStripe {i : StripeId} (elements : List (Option α)) :
    i ∈ ((c.insertStripe axis p elements).stripes axis).ids ↔ i = ⟨c.nextId⟩ ∨ i ∈ (c.stripes axis).ids := by
  have room : min p (c.stripes axis).size ≤ (c.stripes axis).ids.length := by
    rw [Stripes.length_ids]
    exact Nat.min_le_right ..
  rw [stripes_insertStripe_self, Stripes.ids_insertAt, (List.perm_insertIdx _ _ room).mem_iff, List.mem_cons]

theorem idAt_insertStripe_self (elements : List (Option α)) :
    ((c.insertStripe axis p elements).stripes axis).idAt (min p (c.count axis)) = some ⟨c.nextId⟩ := by
  rw [stripes_insertStripe_self, Stripes.idAt_eq, Stripes.ids_insertAt, count,
    List.getElem?_insertIdx_self, if_pos]
  rw [Stripes.length_ids]
  exact Nat.min_le_right ..

theorem ids_insertStripe_cross (elements : List (Option α)) :
    ((c.insertStripe axis p elements).stripes axis.cross).ids = (c.stripes axis.cross).ids := by
  rw [stripes_insertStripe_cross, Stripes.ids_touchAll]

/-- The cells of a new stripe hold its elements, one for each stripe that it crosses. -/
theorem Valid.cellOn_insertStripe_self (h : c.Valid) (elements : List (Option α)) (other : StripeId) :
    (c.insertStripe axis p elements).cellOn axis ⟨c.nextId⟩ other =
      ((c.stripes axis.cross).positionOf other).bind fun j => elements[j]?.join := by
  rw [cellOn, cells_insertStripe, keyOn_insertStripe]
  cases at? : (c.stripes axis.cross).positionOf other with
  | none =>
    have absent := (h.indexed axis.cross).positionOf_eq_none.mp at?
    rw [Cells.get?_foldl_fill_of_ne]
    · exact h.cellOn_fresh axis other
    · intro entry mem same
      obtain ⟨-, rfl⟩ := keyOn_inj.mp same
      exact absent (List.mem_map_of_mem (List.of_mem_zip mem).1)
  | some j =>
    have found := ((h.indexed axis.cross) other j).mp at?
    obtain ⟨s, hs, rfl⟩ := Option.map_eq_some_iff.mp found
    rw [Stripes.get?_eq] at hs
    exact Cells.get?_foldl_fill_of_mem (fun same => (keyOn_inj.mp same).2) _ _ (h.indexed axis.cross).nodup hs
      (h.cellOn_fresh axis s.id)

theorem Valid.insertStripe (h : c.Valid) (axis : Axis) (p : Nat) (elements : List (Option α)) :
    (c.insertStripe axis p elements).Valid := by
  refine valid_of_axis axis ?_ ?_ ?_ ?_ ?_
  · rw [stripes_insertStripe_self]
    exact Stripes.indexed_insertAt (h.indexed axis) (h.fresh axis) p
  · rw [stripes_insertStripe_cross]
    exact Stripes.indexed_touchAll (h.indexed axis.cross)
  · intro i here
    rw [ids_insertStripe_cross]
    rcases (mem_ids_insertStripe elements).mp here with rfl | old
    · exact h.fresh axis.cross
    · exact h.not_mem_cross old
  · intro b i here
    rw [nextId_insertStripe]
    obtain rfl | rfl := Axis.eq_or_eq_cross axis b
    · rcases (mem_ids_insertStripe elements).mp here with rfl | old
      · exact Nat.lt_succ_self _
      · exact Nat.lt_succ_of_lt (h.below old)
    · rw [ids_insertStripe_cross] at here
      exact Nat.lt_succ_of_lt (h.below here)
  · intro i j x cell
    rw [mem_ids_insertStripe, ids_insertStripe_cross]
    by_cases new : i = ⟨c.nextId⟩
    · subst new
      rw [h.cellOn_insertStripe_self] at cell
      obtain ⟨q, at?, -⟩ := Option.bind_eq_some_iff.mp cell
      exact ⟨.inl rfl, (h.indexed axis.cross).isSome_positionOf.mp (by simp [at?])⟩
    · rw [cellOn_insertStripe_of_ne new] at cell
      exact ⟨.inr (h.mem_of_cellOn cell).1, (h.mem_of_cellOn cell).2⟩

theorem Valid.mem_ids_removeStripe (h : c.Valid) {own i : StripeId}
    (at? : (c.stripes axis).idAt p = some own) :
    i ∈ ((c.removeStripe axis p).stripes axis).ids ↔ i ∈ (c.stripes axis).ids ∧ i ≠ own := by
  rw [stripes_removeStripe_self]
  exact (h.indexed axis).mem_ids_removeAt at?

theorem Valid.removeStripe (h : c.Valid) (axis : Axis) (p : Nat) : (c.removeStripe axis p).Valid := by
  cases at? : (c.stripes axis).idAt p with
  | none => rwa [removeStripe_of_none c axis p at?]
  | some own =>
    have cross := stripes_removeStripe_cross c axis p at?
    refine valid_of_axis axis ?_ ?_ ?_ ?_ ?_
    · rw [stripes_removeStripe_self]
      exact Stripes.indexed_removeAt (h.indexed axis) p
    · rw [cross]
      exact Stripes.indexed_touchAll (h.indexed axis.cross)
    · intro i here
      rw [cross, Stripes.ids_touchAll]
      exact h.not_mem_cross ((h.mem_ids_removeStripe at?).mp here).1
    · intro b i here
      rw [nextId_removeStripe]
      obtain rfl | rfl := Axis.eq_or_eq_cross axis b
      · exact h.below ((h.mem_ids_removeStripe at?).mp here).1
      · rw [cross, Stripes.ids_touchAll] at here
        exact h.below here
    · intro i j x cell
      rw [h.mem_ids_removeStripe at?, cross, Stripes.ids_touchAll]
      rw [cellOn_removeStripe c axis p at?] at cell
      split at cell
      · simp at cell
      · next kept =>
        have live := h.mem_of_cellOn cell
        exact ⟨⟨live.1, fun same => kept ⟨same, live.2⟩⟩, live.2⟩

theorem Valid.set (h : c.Valid) (row column : Nat) (element : Option α) :
    (c.set row column element).Valid := by
  cases key : c.cellKey? row column with
  | none => rwa [set_of_none c row column element key]
  | some k =>
    refine h.of_sameIds (transposed_set ..) (nextId_set ..) (fun b => ?_) (fun b i => ?_) fun l x cell => ?_
    · rw [stripes_set c row column element key]
      exact Stripes.indexed_modify (f := Stripe.touch) (fun _ => rfl) (h.indexed b) _
    · rw [ids_set]
    · rw [cells_set c row column element key, Cells.get?_put] at cell
      obtain ⟨r, s, hr, hs, rfl⟩ := (cellKey?_eq_some c row column).mp key
      split at cell
      · next here => exact .inr ⟨r, s, here.symm, Stripes.mem_ids_of_idAt hr, Stripes.mem_ids_of_idAt hs⟩
      · exact .inl (by simp [cell])

theorem Valid.setTitle (h : c.Valid) (axis : Axis) (p : Nat) (title : Option String) :
    (c.setTitle axis p title).Valid := by
  refine h.of_sameIds (transposed_setTitle ..) (nextId_setTitle ..) (fun b => ?_) (fun b i => ?_)
    fun k x cell => ?_
  · obtain rfl | rfl := Axis.eq_or_eq_cross axis b
    · rw [stripes_setTitle_self]
      exact Stripes.indexed_modify (f := Stripe.retitle title) (fun _ => rfl) (h.indexed b) p
    · rw [stripes_setTitle_cross]
      exact h.indexed axis.cross
  · rw [ids_setTitle]
  · exact .inl (by rw [cells_setTitle] at cell; simp [cell])

theorem Valid.setTitles (h : c.Valid) (axis : Axis) (titles : List (Option String)) :
    (c.setTitles axis titles).Valid := by
  rw [Content.setTitles]
  generalize titles.zipIdx = entries
  induction entries generalizing c with
  | nil => exact h
  | cons entry rest ih => exact ih (h.setTitle axis entry.2 entry.1)

/-- A change of the order of one direction that leaves the other alone, or counts one change to its
    stripes. -/
theorem Valid.reordered (h : c.Valid) {changed : Content α} (axis : Axis)
    (orientation : changed.transposed = c.transposed) (next : changed.nextId = c.nextId)
    (cells : changed.cells = c.cells) (own : (changed.stripes axis).Indexed)
    (perm : (changed.stripes axis).toList.Perm (c.stripes axis).toList)
    (cross : changed.stripes axis.cross = c.stripes axis.cross ∨
      changed.stripes axis.cross = (c.stripes axis.cross).touchAll) : changed.Valid := by
  refine h.of_sameIds orientation next (fun b => ?_) (fun b i => ?_) fun k x cell => ?_
  · obtain rfl | rfl := Axis.eq_or_eq_cross axis b
    · exact own
    · rcases cross with same | touched
      · exact same ▸ h.indexed axis.cross
      · exact touched ▸ Stripes.indexed_touchAll (h.indexed axis.cross)
  · obtain rfl | rfl := Axis.eq_or_eq_cross axis b
    · exact (perm.map Stripe.id).mem_iff
    · rcases cross with same | touched
      · rw [same]
      · rw [touched, Stripes.ids_touchAll]
  · exact .inl (by rw [cells] at cell; simp [cell])

theorem Valid.swap (h : c.Valid) (axis : Axis) (a b : Nat) : (c.swap axis a b).Valid := by
  by_cases both : c.hasBoth axis a b
  · refine h.reordered axis (transposed_swap ..) (nextId_swap ..) (cells_swap ..) ?_ ?_ ?_
    · rw [stripes_swap_self c both]
      exact Stripes.indexed_swap (h.indexed axis) a b
    · rw [stripes_swap_self c both]
      exact Stripes.perm_swap
    · rw [stripes_swap_cross c both]
      cases axis
      · exact .inl rfl
      · exact .inr rfl
  · rwa [swap_of_not_hasBoth c both]

theorem Valid.moveRow (h : c.Valid) (source target : Nat) : (c.moveRow source target).Valid := by
  refine h.reordered .row (transposed_mapStripes ..) (nextId_mapStripes ..) (cells_mapStripes ..) ?_ ?_
    (.inl (stripes_mapStripes_cross ..))
  · rw [Content.moveRow, stripes_mapStripes_self]
    exact Stripes.indexed_move (h.indexed .row) source target
  · rw [Content.moveRow, stripes_mapStripes_self]
    exact Stripes.perm_move

theorem Valid.reorderRows (h : c.Valid) (order : List Nat) : (c.reorderRows order).Valid := by
  refine h.reordered .row (transposed_mapStripes ..) (nextId_mapStripes ..) (cells_mapStripes ..) ?_ ?_
    (.inl (stripes_mapStripes_cross ..))
  · rw [Content.reorderRows, stripes_mapStripes_self]
    exact Stripes.indexed_reorder (h.indexed .row) order
  · rw [Content.reorderRows, stripes_mapStripes_self]
    exact Stripes.perm_reorder _ order

theorem Valid.transpose (h : c.Valid) : c.transpose.Valid :=
  ⟨h.first, h.second, h.apart, h.firstBelow, h.secondBelow, h.live⟩

theorem Valid.rename (h : c.Valid) (name : Option String) : ({ c with name := name } : Content α).Valid :=
  ⟨h.first, h.second, h.apart, h.firstBelow, h.secondBelow, h.live⟩

theorem Valid.clear (c : Content α) : c.clear.Valid := by
  refine ⟨Stripes.indexed_empty, Stripes.indexed_empty, ?_, ?_, ?_, ?_⟩ <;>
    simp [Content.clear, Stripes.ids, Stripes.toList, Cells.get?]

theorem valid_empty : ({} : Content α).Valid := Valid.clear {}

theorem Valid.appendEmpties (h : c.Valid) (axis : Axis) (n : Nat) : (c.appendEmpties axis n).Valid := by
  induction n generalizing c with
  | zero => exact h
  | succ n ih => exact ih (h.insertStripe axis (c.count axis) [])

theorem Valid.growTo (h : c.Valid) (rows columns : Nat) : (c.growTo rows columns).Valid :=
  (h.appendEmpties .column _).appendEmpties .row _

theorem valid_ofRows (rows : List (List (Option α))) : (ofRows rows).Valid := by
  rw [ofRows]
  have start := (valid_empty (α := α)).growTo 0 ((rows.map List.length).foldl max 0)
  generalize ({} : Content α).growTo 0 ((rows.map List.length).foldl max 0) = c at start ⊢
  induction rows generalizing c with
  | nil => exact start
  | cons row rest ih => exact ih _ (start.insertStripe .row c.rowCount row)

theorem valid_ofSnapshot (s : Snapshot α) : (ofSnapshot s).Valid :=
  ((((valid_ofRows s.rows).growTo _ _).setTitles .row _).setTitles .column _).rename s.name

end LiveTable.Content
