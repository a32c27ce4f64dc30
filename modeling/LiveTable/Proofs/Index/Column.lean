import LiveTable.Index.Column
import LiveTable.Proofs.Edit.Identities
import LiveTable.Proofs.Index.Groups

/-! The index of a column, and the table it follows.  An index `Agrees` with a content if its groups
    represent the element of each row in the indexed column; a stripe that is no column has no elements,
    so the one condition also says that the index is empty then.  Following a change restores it for the
    changed content, and an index that agrees lists exactly the cells of its column. -/

namespace LiveTable

open Content (Shift Rearranged)

namespace ColumnIndex

variable {α : Type} [Ord α] {x : ColumnIndex α} {c c' : Content α} {event : Event α}
    {row : StripeId} {p : Nat}

/-- The groups are those of the elements in the indexed column. -/
def Agrees (x : ColumnIndex α) (c : Content α) : Prop :=
  x.groups.Represents fun row => c.elementById row x.column

theorem Agrees.congr (h : x.Agrees c) (same : ∀ r, c'.elementById r x.column = c.elementById r x.column) :
    x.Agrees c' :=
  Groups.Represents.congr h fun r => (same r).symm

theorem Agrees.rearranged (h : x.Agrees c) (same : c.Rearranged c') : x.Agrees c' :=
  h.congr fun r => same.cellOn .row r x.column

/-- The index of a stripe that is gone agrees with every content that comes after. -/
theorem Agrees.gone (h : x.Agrees c) (valid : c.Valid) (valid' : c'.Valid) (gone : c.Gone x.column)
    (gone' : c'.Gone x.column) : x.Agrees c' :=
  h.congr fun r => by
    rw [valid.elementById_of_not_mem (gone.2 .column), valid'.elementById_of_not_mem (gone'.2 .column)]

/-! ### What an index shows -/

/-- The index shows the column at a position: its elements as keys, each once and ascending, and for each
    key the rows that have it in the column, oldest first. -/
structure Shows (x : ColumnIndex α) (c : Content α) (q : Nat) : Prop where
  ascending : x.groups.keys.Pairwise fun a b => compare a b = .lt
  keys : ∀ a, a ∈ x.groups.keys ↔ ∃ p, c.element p q = some a
  aged : ∀ a, (x.groups.rows a).Pairwise fun r s => r.value < s.value
  rows : ∀ a r, r ∈ x.groups.rows a ↔ ∃ p, c.rows.positionOf r = some p ∧ c.element p q = some a

theorem Agrees.shows [Std.LawfulEqOrd α] (h : x.Agrees c) (valid : c.Valid) {q : Nat}
    (at? : c.columns.idAt q = some x.column) : x.Shows c q := by
  have cell (p : Nat) (a : α) : c.element p q = some a ↔
      ∃ r, c.rows.idAt p = some r ∧ c.elementById r x.column = some a := by
    rw [Content.element, Content.cellKey?, at?]
    cases c.rows.idAt p with
    | none => simp
    | some r => simp [Content.elementById]
  have live (r : StripeId) (a : α) (found : c.elementById r x.column = some a) :
      ∃ p, c.rows.positionOf r = some p ∧ c.element p q = some a := by
    obtain ⟨p, -, at_row, -⟩ := valid.elementById_eq_element found
    exact ⟨p, at_row, (cell p a).mpr ⟨r, (valid.indexed .row r p).mp at_row, found⟩⟩
  refine ⟨SortedMap.ascending_keys h.ascending, fun a => ?_, h.aged_rows, fun a r => ?_⟩
  · rw [Groups.Represents.mem_keys h]
    constructor
    · rintro ⟨r, found⟩
      obtain ⟨p, -, here⟩ := live r a found
      exact ⟨p, here⟩
    · rintro ⟨p, here⟩
      obtain ⟨r, -, found⟩ := (cell p a).mp here
      exact ⟨r, found⟩
  · rw [Groups.Represents.mem_rows h]
    refine ⟨live r a, ?_⟩
    rintro ⟨p, at_row, here⟩
    obtain ⟨s, at_row', found⟩ := (cell p a).mp here
    exact Option.some.inj (((valid.indexed .row r p).mp at_row).symm.trans at_row') ▸ found

/-- The index of a stripe that is no column is empty. -/
theorem Agrees.empty (h : x.Agrees c) (valid : c.Valid) (absent : x.column ∉ c.columns.ids) :
    x.groups.keyOf = [] ∧ x.groups.rowsOf = [] :=
  (Groups.Represents.congr h fun r => valid.elementById_of_not_mem absent r).eq_nil

/-! ### Following a change -/

@[simp] theorem column_rebuild (x : ColumnIndex α) (c : Content α) : (x.rebuild c).column = x.column := by
  rw [rebuild]
  split <;> rfl

@[simp] theorem column_updateRow (x : ColumnIndex α) (c : Content α) (p : Nat) :
    (x.updateRow c p).column = x.column := by
  rw [updateRow]
  split
  · rfl
  · split <;> rfl

/-- An index never changes its column. -/
@[simp] theorem column_observe (x : ColumnIndex α) (n : Notice α) : (x.observe n).column = x.column := by
  rcases n with ⟨event, c⟩
  cases event with
  | added axis => cases axis <;> simp [observe]
  | removed axis =>
    cases axis with
    | row => rfl
    | column =>
      simp only [observe]
      split <;> rfl
  | updatedCell =>
    simp only [observe]
    split
    · exact column_updateRow ..
    · rfl
  | cleared => rfl
  | reordered => rfl
  | transposed => exact column_rebuild ..

/-- Whether or not the indexed stripe is a column, a row is put under its element there. -/
theorem updateRow_eq (valid : c.Valid) (at? : c.rows.idAt p = some row) :
    x.updateRow c p = { x with groups := x.groups.put row (c.elementById row x.column) } := by
  rw [updateRow, at?]
  cases column : c.columns.positionOf x.column with
  | none =>
    have absent := (valid.indexed .column).positionOf_eq_none.mp column
    rw [valid.elementById_of_not_mem absent]
    rfl
  | some q => rfl

variable [Std.LawfulEqOrd α] [Std.TransOrd α]

/-- An index that groups all rows anew agrees. -/
theorem agrees_rebuild (valid : c.Valid) (x : ColumnIndex α) : (x.rebuild c).Agrees c := by
  rw [Agrees, column_rebuild, rebuild]
  cases column : c.columns.positionOf x.column with
  | none =>
    have absent := (valid.indexed .column).positionOf_eq_none.mp column
    exact Groups.represents_empty.congr fun r => (valid.elementById_of_not_mem absent r).symm
  | some q =>
    refine (Groups.represents_foldl_put (c.elementById · x.column) c.rows.toList
      Groups.represents_empty).congr fun r => ?_
    split
    · rfl
    · next absent =>
      cases cell : c.elementById r x.column with
      | none => rfl
      | some a =>
        have live : c.cellOn .row r x.column = some a := cell
        exact absurd (valid.mem_of_cellOn live).1 absent

/-- Putting one row anew is enough if the others have kept their elements. -/
theorem agrees_updateRow (valid : c'.Valid) (h : x.Agrees c) (at? : c'.rows.idAt p = some row)
    (others : ∀ r, r ≠ row → c'.elementById r x.column = c.elementById r x.column) :
    (x.updateRow c' p).Agrees c' := by
  rw [updateRow_eq valid at?]
  refine (h.put row (c'.elementById row x.column)).congr fun r => ?_
  split
  · next here => rw [here]
  · next other => exact (others r other).symm

/-- An index that agrees and follows a change agrees with the changed content. -/
theorem Agrees.observe (h : x.Agrees c) (valid : c.Valid) (valid' : c'.Valid) (shift : c.Shift event c')
    (old : x.column.value < c.nextId) : (x.observe ⟨event, c'⟩).Agrees c' := by
  cases shift with
  | inserted axis position elements =>
    cases axis with
    | row =>
      have at? : (c.insertStripe .row position elements).rows.idAt (min position (c.count .row)) =
          some ⟨c.nextId⟩ := Content.idAt_insertStripe_self elements
      exact agrees_updateRow valid' h at? fun r other =>
        Content.cellOn_insertStripe_of_ne other elements x.column
    | column =>
      refine h.congr fun r => ?_
      rw [Content.elementById_turned, Content.elementById_turned, Content.cellOn_insertStripe_of_ne]
      intro same
      exact Nat.lt_irrefl _ (same ▸ old)
  | @removed axis position stripe found =>
    have at? := Content.idAt_of_removed found
    cases axis with
    | row =>
      refine (Groups.Represents.remove h stripe.id).congr fun r => ?_
      have cell : (c.removeStripe .row position).elementById r x.column =
          if r = stripe.id ∧ x.column ∈ c.columns.ids then none else c.elementById r x.column :=
        Content.cellOn_removeStripe c .row position at? r x.column
      refine Eq.trans ?_ cell.symm
      by_cases here : r = stripe.id
      · by_cases column : x.column ∈ c.columns.ids
        · rw [if_pos here, if_pos ⟨here, column⟩]
        · rw [if_pos here, if_neg fun both => column both.2, valid.elementById_of_not_mem column]
      · rw [if_neg here, if_neg fun both => here both.1]
    | column =>
      simp only [ColumnIndex.observe]
      have cell := Content.cellOn_removeStripe c .column position at? x.column
      split
      · next own =>
        refine Groups.represents_empty.congr fun r => ?_
        rw [valid'.elementById_of_not_mem]
        exact own ▸ (valid.gone_of_removed at?).2 .column
      · next other =>
        refine h.congr fun r => ?_
        rw [Content.elementById_turned, Content.elementById_turned, cell,
          if_neg fun both => other both.1.symm]
  | @written row column k element inside =>
    obtain ⟨r, s, at_row, at_column, -⟩ := (Content.cellKey?_eq_some c row column).mp inside
    have cell (i j : StripeId) : (c.set row column element).cellOn .row i j =
        if r = i ∧ s = j then element else c.cellOn .row i j :=
          Content.cellOn_set at_row at_column element i j
    have same_row : (c.set row column element).rows.idAt row = some r := by
      rw [Content.rows, Stripes.idAt_eq, Content.ids_set, ← Stripes.idAt_eq]
      exact at_row
    have same_column : (c.set row column element).columns.idAt column = some s := by
      rw [Content.columns, Stripes.idAt_eq, Content.ids_set, ← Stripes.idAt_eq]
      exact at_column
    simp only [ColumnIndex.observe, same_column]
    split
    · exact agrees_updateRow valid' h same_row fun i other =>
        (cell i x.column).trans (if_neg fun both => other both.1.symm)
    · next other =>
      exact h.congr fun i => (cell i x.column).trans (if_neg fun both => other (congrArg some both.2))
  | cleared => exact Groups.represents_empty.congr fun r => (Content.cellOn_clear c r x.column).symm
  | swapped => exact h.rearranged (Content.rearranged_swap _ _ _)
  | moved => exact h.rearranged (Content.rearranged_moveRow _ _)
  | sorted order => exact h.rearranged (Content.rearranged_reorderRows order)
  | turned => exact agrees_rebuild valid' x

end ColumnIndex

end LiveTable
