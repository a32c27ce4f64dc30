import LiveTable.Handle
import LiveTable.Proofs.Content.Along

/-! What a handle reads.  It finds its place through the map of positions, which is the inverse of the
    list of stripes, so it finds one exactly where its stripe stands, and then it reads what the table
    shows at that place.  The elements and the title of a stripe belong to its identity, so they can also
    be told without a place. -/

namespace LiveTable

variable {α : Type} {c : Content α} {axis : Axis} {own : StripeId} {p : Nat}

theorem Content.element_coordinates (at? : (c.stripes axis).idAt p = some own) (k : Nat) :
    c.element (axis.coordinates p k).1 (axis.coordinates p k).2 = (c.along axis own)[k]?.join := by
  rw [Content.element, Content.cellKey?_coordinates, at?, Content.along, List.getElem?_map, ← Stripes.idAt_eq]
  cases (c.stripes axis.cross).idAt k <;> rfl

namespace StripeRef

variable {ref : StripeRef}

/-- What the handle of a row or a column reads: its place is that of its identity in the list of its
    direction, and what it shows are the elements and the title of that place.  Without a place it shows
    nothing. -/
structure Reads (ref : StripeRef) (c : Content α) : Prop where
  index : ∀ p, ref.index c = some p ↔ (c.stripes ref.axis).idAt p = some ref.id
  elements : ∀ p, ref.index c = some p → c.elements? ref.axis p = some (ref.elements c)
  element : ∀ p, ref.index c = some p → ∀ k, ref.element c k = (ref.elements c)[k]?.join
  title : ∀ p, ref.index c = some p → ref.title c = c.title ref.axis p
  gone : ref.index c = none → ref.elements c = [] ∧ ref.title c = none ∧ ∀ k, ref.element c k = none

theorem isDeleted_eq_false (h : c.Valid) : ref.isDeleted c = false ↔ ref.id ∈ (c.stripes ref.axis).ids := by
  rw [← (h.indexed ref.axis).isSome_positionOf, isDeleted, Option.isNone_eq_false_iff, index]

theorem index_eq_none (h : c.Valid) : ref.index c = none ↔ ref.id ∉ (c.stripes ref.axis).ids :=
  (h.indexed ref.axis).positionOf_eq_none

theorem elements_of_index (h : c.Valid) (index : ref.index c = some p) :
    ref.elements c = c.along ref.axis ref.id := by
  have at? := (h.indexed ref.axis ref.id p).mp index
  rw [elements, index]
  refine List.ext_getElem? fun k => ?_
  rw [List.getElem?_map]
  by_cases inside : k < c.count ref.axis.cross
  · have inside' : k < (c.along ref.axis ref.id).length := by rwa [Content.length_along]
    rw [List.getElem?_range inside, Option.map_some, Content.element_coordinates at?,
      List.getElem?_eq_getElem inside', Option.join_some]
  · have beyond : c.count ref.axis.cross ≤ k := Nat.le_of_not_lt inside
    rw [List.getElem?_eq_none (by simpa using beyond), List.getElem?_eq_none (by simpa using beyond),
      Option.map_none]

/-- The elements of a stripe that is there. -/
theorem elements_of_mem (h : c.Valid) (mem : ref.id ∈ (c.stripes ref.axis).ids) :
    ref.elements c = c.along ref.axis ref.id := by
  obtain ⟨p, index⟩ := Option.isSome_iff_exists.mp ((h.indexed ref.axis).isSome_positionOf.mpr mem)
  exact elements_of_index h index

/-- The title of a stripe that is there. -/
theorem title_of_mem (h : c.Valid) {s : Stripe} (mem : s ∈ (c.stripes ref.axis).toList)
    (same : s.id = ref.id) : ref.title c = s.title := by
  rw [title, (h.indexed ref.axis).byId_eq_some.mpr ⟨mem, same⟩, Option.bind_some]

theorem reads (h : c.Valid) (ref : StripeRef) : ref.Reads c where
  index p := h.indexed ref.axis ref.id p
  elements p index := by
    rw [elements_of_index h index]
    exact Content.elements?_of_idAt ((h.indexed ref.axis ref.id p).mp index)
  element p index k := by
    rw [elements_of_index h index, StripeRef.element, index, Option.bind_some]
    exact Content.element_coordinates ((h.indexed ref.axis ref.id p).mp index) k
  title p index := by
    rw [StripeRef.title, Stripes.byId, show (c.stripes ref.axis).positionOf ref.id = some p from index,
      Option.bind_some, Content.title]
  gone index := by
    refine ⟨by rw [StripeRef.elements, index], ?_,
      fun k => by rw [StripeRef.element, index, Option.bind_none]⟩
    rw [StripeRef.title, Stripes.byId, show (c.stripes ref.axis).positionOf ref.id = none from index]
    rfl

end StripeRef

namespace CellRef

variable {ref : CellRef}

/-- What the handle of a cell reads: it has a place as long as its stripes are a row and a column, and
    shows the element of that place. -/
structure Reads (ref : CellRef) (c : Content α) : Prop where
  coordinates : ∀ row column, ref.coordinates c = some (row, column) ↔
    c.rows.idAt row = some ref.row ∧ c.columns.idAt column = some ref.column
  element : ∀ row column, ref.coordinates c = some (row, column) → ref.element c = c.element row column
  gone : ref.coordinates c = none → ref.element c = none

theorem coordinates_eq_some {row column : Nat} : ref.coordinates c = some (row, column) ↔
    c.rows.positionOf ref.row = some row ∧ c.columns.positionOf ref.column = some column := by
  rw [coordinates]
  cases c.rows.positionOf ref.row <;> cases c.columns.positionOf ref.column <;> simp

theorem coordinates_eq_none (h : c.Valid) :
    ref.coordinates c = none ↔ ref.row ∉ c.rows.ids ∨ ref.column ∉ c.columns.ids := by
  have rows : c.rows.positionOf ref.row = none ↔ ref.row ∉ c.rows.ids := (h.indexed .row).positionOf_eq_none
  have columns : c.columns.positionOf ref.column = none ↔ ref.column ∉ c.columns.ids :=
    (h.indexed .column).positionOf_eq_none
  rw [← rows, ← columns, coordinates]
  cases c.rows.positionOf ref.row <;> cases c.columns.positionOf ref.column <;> simp

theorem isDeleted_eq_false (h : c.Valid) :
    ref.isDeleted c = false ↔ ref.row ∈ c.rows.ids ∧ ref.column ∈ c.columns.ids := by
  rw [isDeleted, Option.isNone_eq_false_iff, ← Option.ne_none_iff_isSome, ne_eq,
    coordinates_eq_none h, not_or, not_not, not_not]

/-- The element of a cell that is there. -/
theorem element_of_mem (h : c.Valid) (row : ref.row ∈ c.rows.ids) (column : ref.column ∈ c.columns.ids) :
    ref.element c = c.elementById ref.row ref.column := by
  have there : ref.coordinates c ≠ none :=
    fun absent => ((coordinates_eq_none h).mp absent).elim (· row) (· column)
  obtain ⟨place, coordinates⟩ := Option.ne_none_iff_exists'.mp there
  rw [element, coordinates, Option.bind_some]

theorem reads (h : c.Valid) (ref : CellRef) : ref.Reads c where
  coordinates row column :=
    coordinates_eq_some.trans (and_congr (h.indexed .row ref.row row) (h.indexed .column ref.column column))
  element row column there := by
    obtain ⟨at_row, at_column⟩ := coordinates_eq_some.mp there
    have key : c.cellKey? row column = some (c.keyOn .row ref.row ref.column) :=
      (Content.cellKey?_eq_some c row column).mpr
        ⟨_, _, (h.indexed .row ref.row row).mp at_row,
          (h.indexed .column ref.column column).mp at_column, rfl⟩
    rw [CellRef.element, there, Option.bind_some, Content.element, key, Option.bind_some, Content.elementById]
  gone none := by rw [CellRef.element, none, Option.bind_none]

end CellRef

end LiveTable
