import LiveTable.Proofs.Grid.Changes
import Mathlib.Data.List.FinRange

/-! The layout of a content: its elements row by row, and which identities the rows and the columns have.
    It is what the notices of a table are about, so each change of a content is read here as a change of
    its layout: a stripe put in, erased or written into, the stripes of one direction in another order,
    or the whole turned over. -/

namespace LiveTable

open Grid (fit exchanged moved)

/-- The elements row by row, with the identities of the rows and of the columns. -/
structure Layout (α : Type) where
  rows : List (List (Option α)) := []
  rowIds : List StripeId := []
  columnIds : List StripeId := []
  deriving DecidableEq

/-- The members of a list that stand at the given places, in the order of the places. -/
def permuted {β : Type} (places : List Nat) (l : List β) : List β := places.filterMap (l[·]?)

namespace Layout

variable {α : Type}

/-- The identities of a direction. -/
def ids (l : Layout α) : Axis → List StripeId
  | .row => l.rowIds
  | .column => l.columnIds

/-- The element at a position. -/
def cell (l : Layout α) (row column : Nat) : Option α := (l.rows[row]?.bind (·[column]?)).join

/-- The elements of a row or of a column. -/
def line (l : Layout α) (axis : Axis) (position : Nat) : List (Option α) :=
  match axis with
  | .row => l.rows[position]?.getD []
  | .column => l.rows.map (·[position]?.join)

/-- Inserts a row or column. -/
def insert (l : Layout α) (axis : Axis) (position : Nat) (id : StripeId) (elements : List (Option α)) :
    Layout α :=
  match axis with
  | .row => { l with rows := l.rows.insertIdx position elements, rowIds := l.rowIds.insertIdx position id }
  | .column => { l with
      rows := List.zipWith (·.insertIdx position ·) l.rows elements
      columnIds := l.columnIds.insertIdx position id }

/-- Applies a rearrangement of lists to the rows or to each row, and to the identities. -/
def rearrange (l : Layout α) (axis : Axis) (f : (β : Type) → List β → List β) : Layout α :=
  match axis with
  | .row => { l with rows := f _ l.rows, rowIds := f _ l.rowIds }
  | .column => { l with rows := l.rows.map (f _), columnIds := f _ l.columnIds }

/-- Erases a row or column. -/
def erase (l : Layout α) (axis : Axis) (position : Nat) : Layout α :=
  l.rearrange axis fun _ => (·.eraseIdx position)

/-- Puts the stripes of one direction in the order of the given places. -/
def permute (l : Layout α) (axis : Axis) (places : List Nat) : Layout α :=
  l.rearrange axis fun _ => permuted places

/-- Overwrites one element. -/
def overwrite (l : Layout α) (row column : Nat) (element : Option α) : Layout α :=
  { l with rows := l.rows.modify row (·.set column element) }

/-- Turns the rows into columns. -/
def transpose (l : Layout α) : Layout α where
  rows := (List.range l.columnIds.length).map (l.line .column)
  rowIds := l.columnIds
  columnIds := l.rowIds

end Layout

/-! ### Places -/

section Places

variable {β : Type} {a b source target : Nat}

theorem natural_permuted (places : List Nat) : Natural fun _ => permuted places := by
  intro _ _ g l
  simp [permuted, List.map_filterMap]

/-- What a rearrangement makes of a list is known from what it makes of the places in it. -/
theorem Natural.eq_permuted {f : (β : Type) → List β → List β} (natural : Natural f) (l : List β) :
    f β l = permuted (f Nat (List.range l.length)) l := by
  have look : (fun i : Fin l.length => l[i.val]?) = some ∘ l.get := funext fun i => by simp
  -- over the places inside the list, so that every one of them holds an element
  calc f β l
    _ = f β ((List.finRange l.length).map l.get) := by rw [List.map_get_finRange]
    _ = (f (Fin l.length) (List.finRange l.length)).map l.get := (natural l.get _).symm
    _ = (f (Fin l.length) (List.finRange l.length)).filterMap (fun i => l[i.val]?) := by
      rw [look, List.filterMap_eq_map]
    _ = permuted ((f (Fin l.length) (List.finRange l.length)).map Fin.val) l := List.filterMap_map.symm
    _ = permuted (f Nat (List.range l.length)) l := by
      rw [natural]
      exact congrArg (fun places => permuted (f Nat places) l) List.map_coe_finRange_eq_range

theorem permuted_range (l : List β) : permuted (List.range l.length) l = l :=
  Stripes.filterMap_getElem?_range l

theorem length_permuted {places : List Nat} {l : List β} (perm : places.Perm (List.range l.length)) :
    (permuted places l).length = l.length := by
  rw [permuted, (perm.filterMap _).length_eq, ← permuted, permuted_range]

/-- Places that all exist name one member each. -/
theorem getElem?_permuted {places : List Nat} {l : List β} (inside : ∀ p ∈ places, p < l.length) (n : Nat) :
    (permuted places l)[n]? = places[n]?.bind (l[·]?) := by
  induction places generalizing n with
  | nil => rfl
  | cons p rest ih =>
    obtain ⟨here, later⟩ := List.forall_mem_cons.mp inside
    have named : permuted (p :: rest) l = l[p] :: permuted rest l :=
      List.filterMap_cons_some (List.getElem?_eq_getElem here)
    rw [named]
    cases n with
    | zero => simp [here]
    | succ n => simpa using ih later n

/-- A list without repetition is in the given order only if that is its own. -/
theorem eq_range_of_permuted_eq {places : List Nat} {l : List β} (perm : places.Perm (List.range l.length))
    (distinct : l.Nodup) (same : permuted places l = l) : places = List.range l.length := by
  have inside : ∀ p ∈ places, p < l.length := fun p mem => List.mem_range.mp (perm.mem_iff.mp mem)
  have length : places.length = l.length := by simpa using perm.length_eq
  refine List.ext_getElem (by simpa using length) fun n here there => ?_
  have place : n < l.length := length ▸ here
  have member := getElem?_permuted inside n
  rw [same, List.getElem?_eq_getElem here, Option.bind_some, List.getElem?_eq_getElem place,
    List.getElem?_eq_getElem (inside _ (List.getElem_mem here)), Option.some_inj,
    distinct.getElem_inj_iff] at member
  exact member.symm.trans (List.getElem_range ..).symm

theorem exchanged_perm (a b : Nat) (l : List β) : (exchanged a b l).Perm l := by
  rw [exchanged]
  split
  · next at_a at_b =>
    obtain ⟨la, rfl⟩ := List.getElem?_eq_some_iff.mp at_a
    obtain ⟨lb, rfl⟩ := List.getElem?_eq_some_iff.mp at_b
    exact List.set_set_perm la lb
  · exact .refl l

theorem exchanged_range_ne {n : Nat} (ha : a < n) (hb : b < n) (other : a ≠ b) :
    exchanged a b (List.range n) ≠ List.range n := by
  intro same
  have at_b := congrArg (·[b]?) same
  simp [exchanged, ha, hb] at at_b
  exact other at_b

theorem moved_perm (hs : source < b) (ht : target < b) :
    (moved source target (List.range b)).Perm (List.range b) := by
  have room : target ≤ ((List.range b).eraseIdx source).length := by
    rw [List.length_eraseIdx_of_lt (by simpa using hs), List.length_range]
    omega
  have inside : source < (List.range b).length := by simpa using hs
  simp only [moved, List.getElem?_eq_getElem inside]
  exact (List.perm_insertIdx _ _ room).trans (List.getElem_cons_eraseIdx_perm inside)

theorem moved_range_ne {n : Nat} (hs : source < n) (ht : target < n) (other : source ≠ target) :
    moved source target (List.range n) ≠ List.range n := by
  intro same
  have room : target ≤ ((List.range n).eraseIdx source).length := by
    rw [List.length_eraseIdx_of_lt (by simpa using hs), List.length_range]
    omega
  have at_target := congrArg (·[target]?) same
  simp only [moved, List.getElem?_range hs, List.getElem?_insertIdx_self, if_pos room,
    List.getElem?_range ht] at at_target
  exact other (Option.some.inj at_target)

theorem exchanged_self (a : Nat) (l : List β) : exchanged a a l = l := by
  rw [exchanged]
  split
  · next at? at?' =>
    obtain ⟨inside, rfl⟩ := List.getElem?_eq_some_iff.mp at?
    obtain rfl := Option.some.inj (at?.symm.trans at?')
    simp
  · rfl

theorem moved_self (a : Nat) (l : List β) : moved a a l = l := by
  rw [moved]
  split
  · next at? =>
    obtain ⟨inside, rfl⟩ := List.getElem?_eq_some_iff.mp at?
    exact List.insertIdx_eraseIdx_getElem inside
  · rfl

end Places

namespace Stripes

variable {ss : Stripes}

theorem toList_swap_self (ss : Stripes) (a : Nat) : (ss.swap a a).toList = ss.toList := by
  by_cases inside : a < ss.size
  · rw [toList_swap_eq inside inside, exchanged_self]
  · have none : ss.get? a = none := Array.getElem?_eq_none (Nat.le_of_not_lt inside)
    simp [swap, none]

theorem toList_move_self (ss : Stripes) (a : Nat) : (ss.move a a).toList = ss.toList := by
  by_cases inside : a < ss.size
  · rw [toList_move_eq inside inside, moved_self]
  · have none : ss.get? a = none := Array.getElem?_eq_none (Nat.le_of_not_lt inside)
    simp [move, none]

/-- An order that names every place once is followed exactly. -/
theorem toList_reorder_eq {order : List Nat} (perm : order.Perm (List.range ss.size)) :
    (ss.reorder order).toList = permuted order ss.toList := by
  have named : (List.range ss.size).filter (fun p => !order.contains p) = [] :=
    List.filter_eq_nil_iff.mpr fun p inside => by simpa using perm.mem_iff.mpr inside
  rw [toList_reorder, named, List.append_nil,
    eraseDups_of_nodup (perm.nodup_iff.mpr List.nodup_range), permuted]

end Stripes

namespace Content

variable {α : Type} {c : Content α} {axis : Axis} {p : Nat}

/-- The layout of a content. -/
def layout (c : Content α) : Layout α := ⟨c.toRows, c.rows.ids, c.columns.ids⟩

@[simp] theorem ids_layout (c : Content α) (axis : Axis) : c.layout.ids axis = (c.stripes axis).ids := by
  cases axis <;> rfl

theorem length_ids_layout (c : Content α) (axis : Axis) : (c.layout.ids axis).length = c.count axis := by
  rw [ids_layout, count_eq]

theorem cell_layout (c : Content α) (row column : Nat) : c.layout.cell row column = c.element row column :=
  cell_grid c row column

theorem line_layout {line : List (Option α)} (at? : (c.lines axis)[p]? = some line) :
    c.layout.line axis p = line := by
  rw [← line_grid at?]
  cases axis <;> rfl

/-- A layout is that of a content if it has the rows of its grid and the identities of both directions. -/
theorem layout_eq {g : Grid α} {l : Layout α} (grid : c.grid = g) (rows : g.rows = l.rows)
    (ids : ∀ axis, (c.stripes axis).ids = l.ids axis) : c.layout = l := by
  subst grid
  have toRows : c.toRows = l.rows := rows
  rw [layout, toRows, Content.rows, Content.columns, ids .row, ids .column]
  rfl

/-- The same identities in the same order, meeting in the same elements, have the same layout. -/
theorem layout_congr {changed : Content α} (ids : ∀ axis, (changed.stripes axis).ids = (c.stripes axis).ids)
    (cells : ∀ i j, changed.cellOn .row i j = c.cellOn .row i j) : changed.layout = c.layout := by
  have lines : changed.lines .row = c.lines .row := lines_congr (ids .row) (ids .column) cells
  rw [layout, layout, toRows_eq, toRows_eq, lines, rows, columns, rows, columns, ids .row, ids .column]

/-! ### Changes -/

/-- A position beyond the last stripe is the one behind it. -/
theorem insertStripe_min (c : Content α) (axis : Axis) (p : Nat) (elements : List (Option α)) :
    c.insertStripe axis (min p (c.count axis)) elements = c.insertStripe axis p elements := by
  have drawn (ss : Stripes) (s : Stripe) : ss.insertAt (min p ss.size) s = ss.insertAt p s := by
    simp only [Stripes.insertAt, Stripes.size, Nat.min_assoc, Nat.min_self]
  cases axis <;> cases turned : c.transposed <;>
    simp [insertStripe, fillStripe, mapStripes, isFirst, count, stripes, turned, drawn]

theorem Valid.layout_insertStripe (h : c.Valid) (inside : p ≤ c.count axis) (elements : List (Option α)) :
    (c.insertStripe axis p elements).layout =
      c.layout.insert axis p ⟨c.nextId⟩ (fit (c.count axis.cross) elements) := by
  refine layout_eq (h.grid_insertStripe inside elements) ?_ fun b => ?_
  · cases axis
    · rw [Grid.insert, count_grid]
      rfl
    · rw [Grid.insert, count_grid]
      rfl
  · obtain rfl | rfl := Axis.eq_or_eq_cross axis b
    · rw [stripes_insertStripe_self, Stripes.ids_insertAt,
        show min p (c.stripes b).size = p from Nat.min_eq_left inside, ← ids_layout]
      cases b <;> rfl
    · rw [ids_insertStripe_cross, ← ids_layout]
      cases axis <;> rfl

theorem Valid.layout_removeStripe (h : c.Valid) {own : StripeId} (at? : (c.stripes axis).idAt p = some own) :
    (c.removeStripe axis p).layout = c.layout.erase axis p := by
  refine layout_eq (h.grid_removeStripe at?) ?_ fun b => ?_
  · cases axis <;> rfl
  · obtain rfl | rfl := Axis.eq_or_eq_cross axis b
    · rw [stripes_removeStripe_self, Stripes.ids_removeAt, ← ids_layout]
      cases b <;> rfl
    · rw [ids_removeStripe_cross, ← ids_layout]
      cases axis <;> rfl

/-- A change of the order of one direction. -/
theorem layout_permuted {changed : Content α} {places : List Nat}
    (own : (changed.stripes axis).toList = permuted places (c.stripes axis).toList)
    (cross : changed.stripes axis.cross = c.stripes axis.cross ∨
      changed.stripes axis.cross = (c.stripes axis.cross).touchAll)
    (cells : ∀ i j, changed.cellOn axis i j = c.cellOn axis i j) :
    changed.layout = c.layout.permute axis places := by
  refine layout_eq (grid_rearranged (natural_permuted places) own cross fun i _ j => cells i j) ?_ fun b => ?_
  · cases axis <;> rfl
  · obtain rfl | rfl := Axis.eq_or_eq_cross axis b
    · rw [Stripes.ids, own, natural_permuted, ← Stripes.ids, ← ids_layout]
      cases b <;> rfl
    · have same : (changed.stripes axis.cross).ids = (c.stripes axis.cross).ids := by
        rcases cross with same | touched
        · rw [same]
        · rw [touched, Stripes.ids_touchAll]
      rw [same, ← ids_layout]
      cases axis <;> rfl

theorem layout_swap {a b : Nat} (both : c.hasBoth axis a b) :
    (c.swap axis a b).layout = c.layout.permute axis (exchanged a b (List.range (c.count axis))) := by
  refine layout_permuted ?_ ?_ (cellOn_congr (transposed_swap ..) (cells_swap ..) axis)
  · rw [stripes_swap_self c both, Stripes.toList_swap_eq (hasBoth_iff.mp both).1 (hasBoth_iff.mp both).2]
    exact Natural.eq_permuted (natural_exchanged a b) _
  · rw [stripes_swap_cross c both]
    cases axis
    · exact .inl rfl
    · exact .inr rfl

theorem layout_moveRow {source target : Nat} (both : c.hasBoth .row source target) :
    (c.moveRow source target).layout =
      c.layout.permute .row (moved source target (List.range c.rowCount)) := by
  refine layout_permuted ?_ (.inl (stripes_mapStripes_cross ..))
    (cellOn_congr (transposed_mapStripes ..) (cells_mapStripes ..) .row)
  rw [Content.moveRow, stripes_mapStripes_self,
    Stripes.toList_move_eq (hasBoth_iff.mp both).1 (hasBoth_iff.mp both).2]
  exact Natural.eq_permuted (natural_moved source target) _

theorem layout_reorderRows {order : List Nat} (perm : order.Perm (List.range c.rowCount)) :
    (c.reorderRows order).layout = c.layout.permute .row order := by
  refine layout_permuted ?_ (.inl (stripes_mapStripes_cross ..))
    (cellOn_congr (transposed_mapStripes ..) (cells_mapStripes ..) .row)
  rw [Content.reorderRows, stripes_mapStripes_self, Stripes.toList_reorder_eq perm]

theorem Valid.layout_set (h : c.Valid) (row column : Nat) (element : Option α) :
    (c.set row column element).layout = c.layout.overwrite row column element := by
  refine layout_eq (h.grid_set row column element) rfl fun b => ?_
  rw [ids_set, ← ids_layout]
  cases b <;> rfl

theorem layout_transpose (c : Content α) : c.transpose.layout = c.layout.transpose := by
  refine layout_eq (grid_transpose c) ?_ fun b => ?_
  · have columns : c.grid.count .column = c.layout.columnIds.length := by
      rw [count_grid, ← length_ids_layout]
      rfl
    rw [Grid.transpose, columns]
    rfl
  · rw [stripes_transpose, ← ids_layout]
    cases b <;> rfl

@[simp] theorem layout_clear (c : Content α) : c.clear.layout = {} := by
  refine layout_eq (grid_clear c) rfl fun b => ?_
  rw [stripes_clear]
  cases b <;> rfl

end Content

end LiveTable
