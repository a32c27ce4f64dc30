import LiveTable.Content.Snapshot
import LiveTable.Proofs.Stripes

/-! The parts of a content after each change: the stripes of both directions, the orientation, and the
    cells.  A cell is read by the direction of the stripe asked about, so that one lemma serves rows and
    columns and a content serves both orientations. -/

namespace LiveTable

@[simp] theorem Axis.cross_cross (axis : Axis) : axis.cross.cross = axis := by cases axis <;> rfl

theorem Axis.cross_ne (axis : Axis) : axis.cross ≠ axis := by cases axis <;> simp [Axis.cross]

theorem Axis.eq_or_eq_cross (a b : Axis) : b = a ∨ b = a.cross := by cases a <;> cases b <;> simp [Axis.cross]

namespace Content

variable {α : Type} {c : Content α} {axis : Axis} {p : Nat}

/-- The element where a stripe of a direction meets one of the other. -/
def cellOn (c : Content α) (axis : Axis) (own other : StripeId) : Option α :=
  c.cells.get? (c.keyOn axis own other)

/-! ### Orientation -/

@[simp] theorem isFirst_cross (c : Content α) (axis : Axis) : c.isFirst axis.cross = !c.isFirst axis := by
  cases axis <;> cases h : c.transposed <;> simp [isFirst, Axis.cross, h]

theorem keyOn_cross (c : Content α) (axis : Axis) (own other : StripeId) :
    c.keyOn axis.cross other own = c.keyOn axis own other := by
  cases h : c.isFirst axis <;> simp [keyOn, h]

theorem keyOn_inj {own other own' other' : StripeId} :
    c.keyOn axis own other = c.keyOn axis own' other' ↔ own = own' ∧ other = other' := by
  cases h : c.isFirst axis <;> simp [keyOn, h, and_comm]

/-- Every address is that of two stripes along a direction. -/
theorem exists_keyOn (c : Content α) (axis : Axis) (k : CellKey) :
    ∃ own other, k = c.keyOn axis own other := by
  cases h : c.isFirst axis
  · exact ⟨k.second, k.first, by simp [keyOn, h]⟩
  · exact ⟨k.first, k.second, by simp [keyOn, h]⟩

theorem cellOn_cross (c : Content α) (axis : Axis) (own other : StripeId) :
    c.cellOn axis.cross other own = c.cellOn axis own other := by
  rw [cellOn, keyOn_cross, cellOn]

theorem elementById_eq (c : Content α) (row column : StripeId) :
    c.elementById row column = c.cellOn .row row column := rfl

theorem keyOn_congr {c' : Content α} (same : c'.transposed = c.transposed) (own other : StripeId) :
    c'.keyOn axis own other = c.keyOn axis own other := by
  simp [keyOn, isFirst, same]

/-! ### Replacing the stripes of a direction -/

@[simp] theorem transposed_mapStripes (c : Content α) (axis : Axis) (f : Stripes → Stripes) :
    (c.mapStripes axis f).transposed = c.transposed := by
  cases h : c.isFirst axis <;> simp [mapStripes, h]

@[simp] theorem cells_mapStripes (c : Content α) (axis : Axis) (f : Stripes → Stripes) :
    (c.mapStripes axis f).cells = c.cells := by
  cases h : c.isFirst axis <;> simp [mapStripes, h]

@[simp] theorem nextId_mapStripes (c : Content α) (axis : Axis) (f : Stripes → Stripes) :
    (c.mapStripes axis f).nextId = c.nextId := by
  cases h : c.isFirst axis <;> simp [mapStripes, h]

@[simp] theorem name_mapStripes (c : Content α) (axis : Axis) (f : Stripes → Stripes) :
    (c.mapStripes axis f).name = c.name := by
  cases h : c.isFirst axis <;> simp [mapStripes, h]

@[simp] theorem isFirst_mapStripes (c : Content α) (a b : Axis) (f : Stripes → Stripes) :
    (c.mapStripes a f).isFirst b = c.isFirst b := by
  simp [isFirst]

@[simp] theorem stripes_mapStripes_self (c : Content α) (axis : Axis) (f : Stripes → Stripes) :
    (c.mapStripes axis f).stripes axis = f (c.stripes axis) := by
  cases h : c.isFirst axis <;> simp [stripes, h] <;> simp [mapStripes, h]

@[simp] theorem stripes_mapStripes_cross (c : Content α) (axis : Axis) (f : Stripes → Stripes) :
    (c.mapStripes axis f).stripes axis.cross = c.stripes axis.cross := by
  cases h : c.isFirst axis <;> simp [stripes, h] <;> simp [mapStripes, h]

@[simp] theorem stripes_mapStripes_of_cross (c : Content α) (axis : Axis) (f : Stripes → Stripes) :
    (c.mapStripes axis.cross f).stripes axis = c.stripes axis := by
  simpa using stripes_mapStripes_cross c axis.cross f

theorem stripes_mapStripes (c : Content α) (a b : Axis) (f : Stripes → Stripes) :
    (c.mapStripes a f).stripes b = if a = b then f (c.stripes b) else c.stripes b := by
  obtain rfl | rfl := Axis.eq_or_eq_cross a b
  · simp
  · simp [(Axis.cross_ne a).symm]

theorem mapStripes_eq_self {f : Stripes → Stripes} (same : f (c.stripes axis) = c.stripes axis) :
    c.mapStripes axis f = c := by
  cases h : c.isFirst axis <;> simp_all [mapStripes, stripes]

/-! ### Inserting a stripe -/

section Insert

variable (c : Content α) (axis : Axis) (p : Nat) (elements : List (Option α))

@[simp] theorem stripes_insertStripe_self :
    (c.insertStripe axis p elements).stripes axis = (c.stripes axis).insertAt p { id := ⟨c.nextId⟩ } := by
  simp only [insertStripe, stripes_mapStripes_of_cross, stripes_mapStripes_self]
  rfl

@[simp] theorem stripes_insertStripe_cross :
    (c.insertStripe axis p elements).stripes axis.cross = (c.stripes axis.cross).touchAll := by
  simp only [insertStripe, stripes_mapStripes_self, stripes_mapStripes_cross]
  rfl

@[simp] theorem transposed_insertStripe : (c.insertStripe axis p elements).transposed = c.transposed := by
  simp [insertStripe, fillStripe]

@[simp] theorem nextId_insertStripe : (c.insertStripe axis p elements).nextId = c.nextId + 1 := by
  simp [insertStripe, fillStripe]

@[simp] theorem name_insertStripe : (c.insertStripe axis p elements).name = c.name := by
  simp [insertStripe, fillStripe]

@[simp] theorem keyOn_insertStripe (b : Axis) (own other : StripeId) :
    (c.insertStripe axis p elements).keyOn b own other = c.keyOn b own other :=
  keyOn_congr (transposed_insertStripe ..) _ _

theorem cells_insertStripe :
    (c.insertStripe axis p elements).cells =
      ((c.stripes axis.cross).toList.zip elements).foldl (Cells.fill (c.keyOn axis ⟨c.nextId⟩)) c.cells := by
  simp only [insertStripe, cells_mapStripes]
  rfl

end Insert

end Content

namespace Cells

variable {α : Type} {key : StripeId → CellKey} {k : CellKey}

/-- Filling leaves all cells alone that are at no address of the filled stripes. -/
theorem get?_foldl_fill_of_ne : ∀ (entries : List (Stripe × Option α)) {cells : Cells α},
    (∀ entry ∈ entries, key entry.1.id ≠ k) → (entries.foldl (fill key) cells).get? k = cells.get? k
  | [], _, _ => rfl
  | entry :: rest, cells, other => by
    rw [List.foldl_cons, get?_foldl_fill_of_ne rest fun e he => other e (List.mem_cons_of_mem _ he)]
    have here := other entry List.mem_cons_self
    rcases entry with ⟨s, _ | a⟩
    · rfl
    · rw [fill, get?_put, if_neg here]

/-- Filling a null cell gives it the element of its stripe. -/
theorem get?_foldl_fill_of_mem (inj : ∀ {i j}, key i = key j → i = j) :
    ∀ (stripes : List Stripe) (elements : List (Option α)) {cells : Cells α} {j : Nat} {s : Stripe},
      (stripes.map Stripe.id).Nodup → stripes[j]? = some s → cells.get? (key s.id) = none →
      ((stripes.zip elements).foldl (fill key) cells).get? (key s.id) = elements[j]?.join
  | [], _, _, _, _, _, found, _ => by simp at found
  | _ :: _, [], _, _, _, _, _, null => by simpa using null
  | t :: stripes, e :: elements, cells, j, s, distinct, found, null => by
    simp only [List.map_cons, List.nodup_cons] at distinct
    rw [List.zip_cons_cons, List.foldl_cons]
    cases j with
    | zero =>
      obtain rfl : t = s := by simpa using found
      rw [get?_foldl_fill_of_ne]
      · cases e with
        | none => simpa [fill] using null
        | some a => simp [fill, get?_put]
      · intro entry mem same
        have := List.of_mem_zip mem
        exact distinct.1 (inj same ▸ List.mem_map_of_mem this.1)
    | succ j =>
      have found : stripes[j]? = some s := by simpa using found
      have ne : key t.id ≠ key s.id := fun same =>
        distinct.1 (inj same ▸ List.mem_map_of_mem (List.mem_of_getElem? found))
      rw [get?_foldl_fill_of_mem inj stripes elements distinct.2 found]
      · simp
      · cases e with
        | none => exact null
        | some a => rw [fill, get?_put, if_neg ne, null]

theorem get?_foldl_empty : ∀ (stripes : List Stripe) {cells : Cells α},
    (stripes.foldl (empty key) cells).get? k =
      if ∃ s ∈ stripes, key s.id = k then none else cells.get? k
  | [], _ => by simp
  | s :: rest, cells => by
    rw [List.foldl_cons, get?_foldl_empty rest, empty, get?_erase]
    by_cases later : ∃ t ∈ rest, key t.id = k
    · have whole : ∃ t ∈ s :: rest, key t.id = k := by
        obtain ⟨t, ht, same⟩ := later
        exact ⟨t, List.mem_cons_of_mem _ ht, same⟩
      rw [if_pos later, if_pos whole]
    · by_cases here : key s.id = k
      · simp [here]
      · simp only [List.mem_cons, exists_eq_or_imp, here, later, if_false, or_false]

end Cells

namespace Content

variable {α : Type} {c : Content α} {axis : Axis} {p : Nat}

theorem cellOn_insertStripe_of_ne {own : StripeId} (ne : own ≠ ⟨c.nextId⟩) (elements : List (Option α))
    (other : StripeId) :
    (c.insertStripe axis p elements).cellOn axis own other = c.cellOn axis own other := by
  rw [cellOn, cells_insertStripe, keyOn_insertStripe, Cells.get?_foldl_fill_of_ne]
  · rfl
  · exact fun entry _ same => ne (keyOn_inj.mp same).1.symm

/-! ### Removing a stripe -/

section Remove

variable (c : Content α) (axis : Axis) (p : Nat)

theorem removeStripe_of_idAt {own : StripeId} (h : (c.stripes axis).idAt p = some own) :
    c.removeStripe axis p =
      ((c.emptyStripe axis own).mapStripes axis (·.removeAt p)).mapStripes axis.cross Stripes.touchAll := by
  simp [removeStripe, h]

theorem removeStripe_of_none (h : (c.stripes axis).idAt p = none) : c.removeStripe axis p = c := by
  simp [removeStripe, h]

@[simp] theorem stripes_removeStripe_self :
    (c.removeStripe axis p).stripes axis = (c.stripes axis).removeAt p := by
  cases h : (c.stripes axis).idAt p with
  | some own =>
    simp only [removeStripe_of_idAt c axis p h, stripes_mapStripes_of_cross, stripes_mapStripes_self]
    rfl
  | none =>
    have none_at : (c.stripes axis).get? p = none := by simpa [Stripes.idAt] using h
    rw [removeStripe_of_none c axis p h, Stripes.removeAt, none_at]

theorem stripes_removeStripe_cross {own : StripeId} (h : (c.stripes axis).idAt p = some own) :
    (c.removeStripe axis p).stripes axis.cross = (c.stripes axis.cross).touchAll := by
  simp only [removeStripe_of_idAt c axis p h, stripes_mapStripes_self, stripes_mapStripes_cross]
  rfl

theorem ids_removeStripe_cross :
    ((c.removeStripe axis p).stripes axis.cross).ids = (c.stripes axis.cross).ids := by
  cases at? : (c.stripes axis).idAt p with
  | none => rw [removeStripe_of_none c axis p at?]
  | some own => rw [stripes_removeStripe_cross c axis p at?, Stripes.ids_touchAll]

@[simp] theorem transposed_removeStripe : (c.removeStripe axis p).transposed = c.transposed := by
  cases h : (c.stripes axis).idAt p <;> simp [removeStripe, h, emptyStripe]

@[simp] theorem nextId_removeStripe : (c.removeStripe axis p).nextId = c.nextId := by
  cases h : (c.stripes axis).idAt p <;> simp [removeStripe, h, emptyStripe]

@[simp] theorem keyOn_removeStripe (b : Axis) (own other : StripeId) :
    (c.removeStripe axis p).keyOn b own other = c.keyOn b own other :=
  keyOn_congr (transposed_removeStripe ..) _ _

/-- Removing a stripe empties its cells with the stripes that it crosses, and no others. -/
theorem cellOn_removeStripe {own : StripeId} (h : (c.stripes axis).idAt p = some own) (i other : StripeId) :
    (c.removeStripe axis p).cellOn axis i other =
      if i = own ∧ other ∈ (c.stripes axis.cross).ids then none else c.cellOn axis i other := by
  rw [cellOn, keyOn_removeStripe, removeStripe_of_idAt c axis p h]
  simp only [cells_mapStripes, emptyStripe, Cells.get?_foldl_empty, keyOn_inj]
  refine if_congr ⟨?_, ?_⟩ rfl rfl
  · rintro ⟨s, mem, rfl, rfl⟩
    exact ⟨rfl, List.mem_map_of_mem mem⟩
  · rintro ⟨rfl, mem⟩
    obtain ⟨s, here, rfl⟩ := List.mem_map.mp mem
    exact ⟨s, here, rfl, rfl⟩

end Remove

/-! ### Writing a cell -/

section Set

variable (c : Content α) (row column : Nat) (element : Option α)

theorem cellKey?_eq_some {k : CellKey} :
    c.cellKey? row column = some k ↔
      ∃ r s, c.rows.idAt row = some r ∧ c.columns.idAt column = some s ∧ k = c.keyOn .row r s := by
  cases hr : c.rows.idAt row <;> cases hs : c.columns.idAt column <;> simp [cellKey?, hr, hs, eq_comm]

theorem set_of_none (h : c.cellKey? row column = none) : c.set row column element = c := by
  simp [set, h]

theorem stripes_set {k : CellKey} (h : c.cellKey? row column = some k) (axis : Axis) :
    (c.set row column element).stripes axis =
      (c.stripes axis).modify (if axis = .row then row else column) Stripe.touch := by
  simp only [set, h]
  cases axis <;> rw [stripes_mapStripes, stripes_mapStripes] <;> rfl

@[simp] theorem transposed_set : (c.set row column element).transposed = c.transposed := by
  cases h : c.cellKey? row column <;> simp [set, h]

@[simp] theorem nextId_set : (c.set row column element).nextId = c.nextId := by
  cases h : c.cellKey? row column <;> simp [set, h]

@[simp] theorem name_set : (c.set row column element).name = c.name := by
  cases h : c.cellKey? row column <;> simp [set, h]

theorem cells_set {k : CellKey} (h : c.cellKey? row column = some k) :
    (c.set row column element).cells = c.cells.put k element := by
  simp [set, h]

theorem ids_set (axis : Axis) : ((c.set row column element).stripes axis).ids = (c.stripes axis).ids := by
  cases h : c.cellKey? row column with
  | none => rw [set_of_none c row column element h]
  | some k => rw [stripes_set c row column element h, Stripes.ids_modify (f := Stripe.touch) fun _ => rfl]

end Set

/-! ### Titles -/

section Title

variable (c : Content α) (axis : Axis) (p : Nat) (title : Option String)

@[simp] theorem stripes_setTitle_self :
    (c.setTitle axis p title).stripes axis = (c.stripes axis).modify p (Stripe.retitle title) :=
  stripes_mapStripes_self ..

@[simp] theorem stripes_setTitle_cross :
    (c.setTitle axis p title).stripes axis.cross = c.stripes axis.cross :=
  stripes_mapStripes_cross ..

@[simp] theorem transposed_setTitle : (c.setTitle axis p title).transposed = c.transposed :=
  transposed_mapStripes ..

@[simp] theorem cells_setTitle : (c.setTitle axis p title).cells = c.cells := cells_mapStripes ..

@[simp] theorem nextId_setTitle : (c.setTitle axis p title).nextId = c.nextId := nextId_mapStripes ..

@[simp] theorem name_setTitle : (c.setTitle axis p title).name = c.name := name_mapStripes ..

theorem ids_setTitle (b : Axis) : ((c.setTitle axis p title).stripes b).ids = (c.stripes b).ids := by
  obtain rfl | rfl := Axis.eq_or_eq_cross axis b
  · rw [stripes_setTitle_self, Stripes.ids_modify (f := Stripe.retitle title) fun _ => rfl]
  · rw [stripes_setTitle_cross]

theorem ids_setTitles (titles : List (Option String)) (b : Axis) :
    ((c.setTitles axis titles).stripes b).ids = (c.stripes b).ids := by
  rw [setTitles]
  generalize titles.zipIdx = entries
  induction entries generalizing c with
  | nil => rfl
  | cons entry rest ih => rw [List.foldl_cons, ih, ids_setTitle]

end Title

/-! ### Order and orientation -/

section Order

variable (c : Content α)

theorem swap_of_hasBoth {a b : Nat} (h : c.hasBoth axis a b) :
    c.swap axis a b =
      match axis with
      | .row => c.mapStripes .row (·.swap a b)
      | .column => (c.mapStripes .column (·.swap a b)).mapStripes .row Stripes.touchAll := by
  cases axis <;> simp [swap, h]

theorem swap_of_not_hasBoth {a b : Nat} (h : ¬c.hasBoth axis a b) : c.swap axis a b = c := by
  simp [swap, h]

@[simp] theorem transposed_swap (a b : Nat) : (c.swap axis a b).transposed = c.transposed := by
  by_cases h : c.hasBoth axis a b <;> cases axis <;> simp [swap, h]

@[simp] theorem cells_swap (a b : Nat) : (c.swap axis a b).cells = c.cells := by
  by_cases h : c.hasBoth axis a b <;> cases axis <;> simp [swap, h]

@[simp] theorem nextId_swap (a b : Nat) : (c.swap axis a b).nextId = c.nextId := by
  by_cases h : c.hasBoth axis a b <;> cases axis <;> simp [swap, h]

theorem stripes_swap_self {a b : Nat} (h : c.hasBoth axis a b) :
    (c.swap axis a b).stripes axis = (c.stripes axis).swap a b := by
  rw [swap_of_hasBoth c h]
  cases axis <;> simp [stripes_mapStripes]

theorem stripes_swap_cross {a b : Nat} (h : c.hasBoth axis a b) :
    (c.swap axis a b).stripes axis.cross =
      if axis = .row then c.stripes .column else (c.stripes .row).touchAll := by
  rw [swap_of_hasBoth c h]
  cases axis <;> simp [Axis.cross, stripes_mapStripes]

theorem ids_swap_cross (a b : Nat) :
    ((c.swap axis a b).stripes axis.cross).ids = (c.stripes axis.cross).ids := by
  by_cases both : c.hasBoth axis a b
  · rw [stripes_swap_cross c both]
    cases axis
    · rfl
    · exact Stripes.ids_touchAll _
  · rw [swap_of_not_hasBoth c both]

theorem moveRow_of_not_hasBoth {source target : Nat} (h : ¬c.hasBoth .row source target) :
    c.moveRow source target = c := by
  refine mapStripes_eq_self ?_
  cases found : (c.stripes .row).get? source with
  | none => simp [Stripes.move, found]
  | some s =>
    have outside : ¬target < (c.stripes .row).size := fun inside =>
      h (by simp [hasBoth, count, inside, Stripes.lt_size_of_get? found])
    simp [Stripes.move, found, outside]

@[simp] theorem stripes_transpose : c.transpose.stripes axis = c.stripes axis.cross := by
  cases h : c.isFirst axis <;> simp [stripes, h] <;> cases axis <;> simp_all [isFirst, transpose]

@[simp] theorem cellOn_transpose (own other : StripeId) :
    c.transpose.cellOn axis own other = c.cellOn axis.cross own other := by
  simp only [cellOn, keyOn, isFirst_cross]
  cases h : c.isFirst axis <;> cases axis <;> simp_all [isFirst, transpose]

@[simp] theorem stripes_clear : c.clear.stripes axis = {} := by
  rw [stripes]
  cases c.clear.isFirst axis <;> rfl

@[simp] theorem cellOn_clear (own other : StripeId) : c.clear.cellOn axis own other = none := by
  simp [cellOn, clear, Cells.get?]

end Order

end Content

end LiveTable
