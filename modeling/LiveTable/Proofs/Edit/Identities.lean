import LiveTable.Proofs.Edit.Steps

/-! What a step of an edit does by identity.  Most steps rearrange: the same identities stand in the same
    direction and meet in the same elements.  The others bring in one fresh stripe, take one out, take
    all out, write one cell or exchange the directions, so an identity that is gone never comes back. -/

namespace LiveTable.Content

variable {α : Type} {c c' c'' : Content α} {event : Event α} {i : StripeId}

/-- The same stripes with the same elements, perhaps in another order or under other titles. -/
structure Rearranged (c c' : Content α) : Prop where
  transposed : c'.transposed = c.transposed
  nextId : c'.nextId = c.nextId
  cells : ∀ k, c'.cells.get? k = c.cells.get? k
  ids : ∀ axis i, i ∈ (c'.stripes axis).ids ↔ i ∈ (c.stripes axis).ids

namespace Rearranged

theorem refl (c : Content α) : c.Rearranged c := ⟨rfl, rfl, fun _ => rfl, fun _ _ => Iff.rfl⟩

theorem trans (first : c.Rearranged c') (later : c'.Rearranged c'') : c.Rearranged c'' where
  transposed := later.transposed.trans first.transposed
  nextId := later.nextId.trans first.nextId
  cells k := (later.cells k).trans (first.cells k)
  ids axis i := (later.ids axis i).trans (first.ids axis i)

theorem cellOn (same : c.Rearranged c') (axis : Axis) (own other : StripeId) :
    c'.cellOn axis own other = c.cellOn axis own other := by
  rw [Content.cellOn, same.cells, keyOn_congr same.transposed, Content.cellOn]

end Rearranged

/-- An operation on the stripes of one direction that keeps their identities rearranges. -/
theorem rearranged_mapStripes {f : Stripes → Stripes} (axis : Axis)
    (keeps : ∀ i, i ∈ (f (c.stripes axis)).ids ↔ i ∈ (c.stripes axis).ids) :
    c.Rearranged (c.mapStripes axis f) where
  transposed := transposed_mapStripes ..
  nextId := nextId_mapStripes ..
  cells _ := by rw [cells_mapStripes]
  ids b i := by
    rw [stripes_mapStripes]
    split
    · next same =>
      subst same
      exact keeps i
    · exact Iff.rfl

theorem rearranged_setTitle (axis : Axis) (p : Nat) (title : Option String) :
    c.Rearranged (c.setTitle axis p title) :=
  rearranged_mapStripes axis fun _ => by rw [Stripes.ids_modify (f := Stripe.retitle title) fun _ => rfl]

theorem rearranged_swap (axis : Axis) (a b : Nat) : c.Rearranged (c.swap axis a b) := by
  by_cases both : c.hasBoth axis a b
  · rw [swap_of_hasBoth c both]
    have exchanged := rearranged_mapStripes (c := c) (f := (·.swap a b)) axis fun i =>
      (Stripes.perm_swap.map Stripe.id).mem_iff
    cases axis with
    | row => exact exchanged
    | column => exact exchanged.trans (rearranged_mapStripes .row fun _ => by rw [Stripes.ids_touchAll])
  · rw [swap_of_not_hasBoth c both]
    exact .refl c

theorem rearranged_moveRow (source target : Nat) : c.Rearranged (c.moveRow source target) :=
  rearranged_mapStripes .row fun _ => (Stripes.perm_move.map Stripe.id).mem_iff

theorem rearranged_reorderRows (order : List Nat) : c.Rearranged (c.reorderRows order) :=
  rearranged_mapStripes .row fun _ => ((Stripes.perm_reorder _ order).map Stripe.id).mem_iff

/-- Writing the element that is there anyway changes no element. -/
theorem rearranged_rewrite (row column : Nat) : c.Rearranged (c.set row column (c.element row column)) where
  transposed := transposed_set ..
  nextId := nextId_set ..
  ids axis i := by rw [ids_set]
  cells k := by
    cases key : c.cellKey? row column with
    | none => rw [set_of_none c row column _ key]
    | some here =>
      have previous : c.element row column = c.cells.get? here := by rw [element, key, Option.bind_some]
      rw [cells_set c row column _ key, Cells.get?_put]
      split
      · next same => rw [previous, same]
      · rfl

/-- A change that goes unannounced rearranges. -/
theorem Still.rearranged (still : c.Still c') : c.Rearranged c' := by
  cases still with
  | titled axis position title => exact rearranged_setTitle axis position title
  | renamed name => exact ⟨rfl, rfl, fun _ => rfl, fun _ _ => Iff.rfl⟩
  | rewritten row column => exact rearranged_rewrite row column
  | swapped axis a => exact rearranged_swap axis a a
  | moved a => exact rearranged_moveRow a a

/-! ### Identities that come and go -/

theorem Shift.nextId_le (shift : c.Shift event c') : c.nextId ≤ c'.nextId := by
  cases shift with
  | inserted => exact (nextId_insertStripe ..).symm ▸ Nat.le_succ _
  | removed => exact Nat.le_of_eq (nextId_removeStripe ..).symm
  | written => exact Nat.le_of_eq (nextId_set ..).symm
  | cleared => exact Nat.le_refl _
  | swapped => exact Nat.le_of_eq (rearranged_swap _ _ _).nextId.symm
  | moved => exact Nat.le_of_eq (rearranged_moveRow _ _).nextId.symm
  | sorted order => exact Nat.le_of_eq (rearranged_reorderRows order).nextId.symm
  | turned => exact Nat.le_refl _

/-- A stripe that has been there and is in neither direction any more. -/
def Gone (c : Content α) (i : StripeId) : Prop := i.value < c.nextId ∧ ∀ axis, i ∉ (c.stripes axis).ids

theorem Rearranged.gone (same : c.Rearranged c') (h : c.Gone i) : c'.Gone i :=
  ⟨same.nextId ▸ h.1, fun axis mem => h.2 axis ((same.ids axis i).mp mem)⟩

/-- What is gone stays gone. -/
theorem Shift.gone (shift : c.Shift event c') (h : c.Gone i) : c'.Gone i := by
  refine ⟨Nat.lt_of_lt_of_le h.1 shift.nextId_le, fun b mem => ?_⟩
  cases shift with
  | inserted axis position elements =>
    obtain rfl | rfl := Axis.eq_or_eq_cross axis b
    · rcases (mem_ids_insertStripe elements).mp mem with rfl | old
      · exact Nat.lt_irrefl _ h.1
      · exact h.2 _ old
    · rw [ids_insertStripe_cross] at mem
      exact h.2 _ mem
  | @removed axis position =>
    obtain rfl | rfl := Axis.eq_or_eq_cross axis b
    · rw [stripes_removeStripe_self, Stripes.ids_removeAt] at mem
      exact h.2 _ (List.mem_of_mem_eraseIdx mem)
    · rw [ids_removeStripe_cross] at mem
      exact h.2 _ mem
  | written =>
    rw [ids_set] at mem
    exact h.2 b mem
  | cleared =>
    rw [stripes_clear] at mem
    simp [Stripes.ids, Stripes.toList] at mem
  | swapped => exact ((rearranged_swap _ _ _).gone h).2 b mem
  | moved => exact ((rearranged_moveRow _ _).gone h).2 b mem
  | sorted order => exact ((rearranged_reorderRows order).gone h).2 b mem
  | turned =>
    rw [stripes_transpose] at mem
    exact h.2 _ mem

theorem idAt_of_removed {axis : Axis} {p : Nat} {stripe : Removed α}
    (found : c.removed? axis p = some stripe) : (c.stripes axis).idAt p = some stripe.id := by
  rw [removed?] at found
  split at found
  · next at? _ =>
    obtain rfl := Option.some.inj found
    exact Stripes.idAt_of_get? at?
  · simp at found

/-- A stripe that is taken out is gone. -/
theorem Valid.gone_of_removed (h : c.Valid) {axis : Axis} {p : Nat} {own : StripeId}
    (at? : (c.stripes axis).idAt p = some own) : (c.removeStripe axis p).Gone own := by
  have mem := Stripes.mem_ids_of_idAt at?
  refine ⟨(nextId_removeStripe ..).symm ▸ h.below mem, fun b here => ?_⟩
  obtain rfl | rfl := Axis.eq_or_eq_cross axis b
  · exact ((h.mem_ids_removeStripe at?).mp here).2 rfl
  · rw [ids_removeStripe_cross] at here
    exact h.not_mem_cross mem here

theorem Valid.gone_clear (h : c.Valid) {axis : Axis} (mem : i ∈ (c.stripes axis).ids) : c.clear.Gone i := by
  refine ⟨h.below mem, fun b here => ?_⟩
  rw [stripes_clear] at here
  simp [Stripes.ids, Stripes.toList] at here

/-- The element of a row in a column, seen along the column. -/
theorem elementById_turned (c : Content α) (row column : StripeId) :
    c.elementById row column = c.cellOn .column column row :=
  (c.cellOn_cross .row row column).symm

/-- No row has an element in a stripe that is no column. -/
theorem Valid.elementById_of_not_mem (h : c.Valid) (absent : i ∉ c.columns.ids) (row : StripeId) :
    c.elementById row i = none := by
  rw [elementById_eq]
  cases cell : c.cellOn .row row i with
  | none => rfl
  | some a => exact absurd (h.mem_of_cellOn cell).2 absent

end LiveTable.Content

namespace LiveTable.Edit.Steps

variable {α ω : Type} {e e' : Edit α ω} {scope : Scope} {i : StripeId}

theorem gone (steps : e.Steps scope e') (h : e.content.Gone i) : e'.content.Gone i := by
  refine steps.preserve (P := fun e' => e'.content.Gone i) (fun _ _ step before => ?_) h
  cases step with
  | announced shift => exact shift.gone before
  | quiet still => exact still.rearranged.gone before

end LiveTable.Edit.Steps
