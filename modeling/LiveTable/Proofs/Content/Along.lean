import LiveTable.Proofs.Content.Lines

/-! The elements along one stripe.  They belong to the identity of the stripe, so a change to other
    stripes of its direction leaves them alone; stripes appended to the other direction add null cells
    behind them. -/

namespace LiveTable.Content

variable {α : Type} {c c' : Content α} {axis : Axis} {own other : StripeId} {p : Nat}

/-- The elements that a stripe shares with the stripes it crosses, in their order. -/
def along (c : Content α) (axis : Axis) (own : StripeId) : List (Option α) :=
  (c.stripes axis.cross).ids.map (c.cellOn axis own)

@[simp] theorem length_along (c : Content α) (axis : Axis) (own : StripeId) :
    (c.along axis own).length = c.count axis.cross := by
  simp [along, count]

theorem elements?_of_idAt (at? : (c.stripes axis).idAt p = some own) :
    c.elements? axis p = some (c.along axis own) := by
  rw [Stripes.idAt_eq] at at?
  rw [elements?_eq, lines, List.getElem?_map, at?]
  rfl

theorem along_congr (ids : (c'.stripes axis.cross).ids = (c.stripes axis.cross).ids)
    (cells : ∀ other, c'.cellOn axis own other = c.cellOn axis own other) :
    c'.along axis own = c.along axis own := by
  rw [along, ids, along]
  exact List.map_congr_left fun other _ => cells other

/-! ### Changes to other stripes -/

theorem along_insertStripe_of_ne (ne : own ≠ ⟨c.nextId⟩) (p : Nat) (elements : List (Option α)) :
    (c.insertStripe axis p elements).along axis own = c.along axis own :=
  along_congr (ids_insertStripe_cross elements) fun other => cellOn_insertStripe_of_ne ne elements other

theorem along_removeStripe_of_ne {taken : StripeId} (at? : (c.stripes axis).idAt p = some taken)
    (ne : own ≠ taken) : (c.removeStripe axis p).along axis own = c.along axis own :=
  along_congr (ids_removeStripe_cross c axis p) fun other => by
    rw [cellOn_removeStripe c axis p at?, if_neg fun both => ne both.1]

theorem along_set_of_ne {row column : Nat} {r s : StripeId} (at_row : c.rows.idAt row = some r)
    (at_column : c.columns.idAt column = some s) (ne : own ≠ r) (element : Option α) :
    (c.set row column element).along .row own = c.along .row own :=
  along_congr (ids_set ..) fun other => by
    have cell : (c.set row column element).cellOn .row own other = _ :=
      cellOn_set at_row at_column element own other
    rw [cell, if_neg fun both => ne both.1.symm]

end LiveTable.Content
