import LiveTable.Proofs.Handle.Reading
import LiveTable.Proofs.Handle.Shifting
import LiveTable.Proofs.Workspace.Evolution

/-! Handles track their stripes by identity for ever.  At any moment of any run a handle finds its stripe
    exactly where it stands and reads what is there.  What is done to other stripes of its direction does
    not change what it reads, but for null cells behind a row or column that had to get longer.  And once
    its stripe was taken out, it is gone: identities are given out once, so nothing that is done later
    brings it back, and writing through it does nothing. -/

namespace LiveTable

open Content (KeepsLines)

variable {α κ : Type}

/-! ### Stripes that are taken out -/

namespace Edit

variable {ω : Type} {e : Edit α ω} {axis : Axis} {p : Nat} {i : StripeId}

theorem gone_removeAt (h : e.content.Valid) (at? : (e.content.stripes axis).idAt p = some i) :
    (e.removeAt axis p).2.content.Gone i := by
  rw [content_removeAt]
  exact h.gone_of_removed at?

theorem gone_clear (h : e.content.Valid) (mem : i ∈ (e.content.stripes axis).ids) :
    e.clear.content.Gone i := by
  rw [clear, content_announce]
  exact h.gone_clear mem

theorem gone_titlesFromFirst [Element α] (h : e.content.Valid)
    (at? : (e.content.stripes axis.cross).idAt 0 = some i) : (e.titlesFromFirst axis).content.Gone i := by
  rw [titlesFromFirst, Content.elements?_of_idAt at?]
  refine gone_removeAt ?_ ?_
  · rw [content_quietly]
    exact h.setTitles ..
  · rwa [content_quietly, Stripes.idAt_eq, Content.ids_setTitles, ← Stripes.idAt_eq]

/-- An operation that takes a stripe out leaves it gone. -/
theorem gone_run [Element α] (h : e.content.Valid) (mem : i ∈ (e.content.stripes axis).ids)
    {operation : Operation α}
    (removes : operation.Removes e.content i) : (operation.run e).2.content.Gone i := by
  cases operation with
  | removeAt b position => exact gone_removeAt h removes
  | titlesFromFirst b => exact gone_titlesFromFirst h removes
  | clear => exact gone_clear h mem
  | replace source => exact (steps_replace_cleared e source).gone (gone_clear h mem)
  | viaStripe ref operation =>
    cases operation with
    | remove =>
      obtain ⟨rfl, live⟩ := removes
      have there : (ref.index e.content).isSome := by simpa [StripeRef.isDeleted] using live
      obtain ⟨position, index⟩ := Option.isSome_iff_exists.mp there
      simp only [Operation.run, StripeOperation.run, Outcome.giving, StripeRef.remove, index]
      exact gone_removeAt h ((h.indexed ref.axis ..).mp index)
    | _ => cases removes
  | _ => cases removes

end Edit

/-! ### Handles of what stays -/

/-- What a handle shows is the same as before, but for null cells behind its elements. -/
structure StripeRef.ShowsSame (ref : StripeRef) (c c' : Content α) (more : Nat) : Prop where
  live : ref.isDeleted c' = false
  title : ref.title c' = ref.title c
  elements : ref.elements c' = ref.elements c ++ List.replicate more none

/-- The cell of a handle is still there and has the same element. -/
structure CellRef.ShowsSame (ref : CellRef) (c c' : Content α) : Prop where
  live : ref.isDeleted c' = false
  element : ref.element c' = ref.element c

namespace Content.KeepsLines

variable {c c' : Content α} {axis : Axis} {taken : StripeId → Prop}

theorem showsSame (keeps : KeepsLines axis taken c c') (h : c.Valid) {ref : StripeRef} (own : ref.axis = axis)
    (live : ref.isDeleted c = false) (untaken : ¬ taken ref.id) :
    ref.ShowsSame c c' (c'.count axis.cross - c.count axis.cross) := by
  subst own
  have mem := (StripeRef.isDeleted_eq_false h).mp live
  have mem' := keeps.stay ref.id mem untaken
  obtain ⟨s, hs, same⟩ := List.mem_map.mp mem
  obtain ⟨s', hs', same'⟩ := List.mem_map.mp mem'
  refine ⟨(StripeRef.isDeleted_eq_false keeps.valid).mpr mem', ?_, ?_⟩
  · rw [StripeRef.title_of_mem keeps.valid hs' same', StripeRef.title_of_mem h hs same]
    exact keeps.titles s hs s' hs' (same'.trans same.symm)
  · rw [StripeRef.elements_of_mem keeps.valid mem', StripeRef.elements_of_mem h mem]
    exact keeps.along mem mem'

/-- A cell stays where its stripes do. -/
theorem cell_showsSame (keeps : KeepsLines axis taken c c') (h : c.Valid) {ref : CellRef}
    (live : ref.isDeleted c = false) (row : ¬ taken ref.row) (column : ¬ taken ref.column) :
    ref.ShowsSame c c' := by
  obtain ⟨mem_row, mem_column⟩ := (CellRef.isDeleted_eq_false h).mp live
  have crossing {j : StripeId} (mem : j ∈ (c.stripes axis.cross).ids) : j ∈ (c'.stripes axis.cross).ids := by
    obtain ⟨new, ids, -⟩ := keeps.crossing
    rw [ids]
    exact List.mem_append_left new mem
  have stays : ref.row ∈ c'.rows.ids ∧ ref.column ∈ c'.columns.ids := by
    cases axis with
    | row => exact ⟨keeps.stay _ mem_row row, crossing mem_column⟩
    | column => exact ⟨crossing mem_row, keeps.stay _ mem_column column⟩
  refine ⟨(CellRef.isDeleted_eq_false keeps.valid).mpr stays, ?_⟩
  rw [CellRef.element_of_mem keeps.valid stays.1 stays.2, CellRef.element_of_mem h mem_row mem_column]
  cases axis with
  | row => exact keeps.cells ref.row mem_row stays.1 ref.column mem_column
  | column =>
    rw [elementById_turned, elementById_turned]
    exact keeps.cells ref.column mem_column stays.2 ref.row mem_row

end Content.KeepsLines

/-! ### Handles of what is gone -/

/-- Nothing can be done through the handle of a stripe that is not there. -/
theorem StripeOperation.run_of_deleted [DecidableEq α] {ω : Type} {ref : StripeRef} {e : Edit α ω}
    (deleted : ref.index e.content = none) (operation : StripeOperation α) : (operation.run ref e).2 = e := by
  cases operation <;>
    simp [StripeOperation.run, Outcome.giving, Outcome.quiet, StripeRef.setElement, StripeRef.setElements,
      StripeRef.convert, StripeRef.putTitle, StripeRef.remove, StripeRef.switchWith,
      StripeRef.moveTo, deleted]

theorem CellOperation.run_of_deleted [DecidableEq α] {ω : Type} {ref : CellRef} {e : Edit α ω}
    (deleted : ref.coordinates e.content = none) (operation : CellOperation α) :
    (operation.run ref e).2 = e := by
  cases operation <;>
    simp [CellOperation.run, Outcome.giving, CellRef.setElement, CellRef.clear, deleted]

namespace Workspace

variable [Element α] [JsonForm α] [BinaryForm α] [Ord κ] {ws : Workspace α κ} {t : TableId} {i : StripeId}

/-- The handle has no place in the table, and whatever is done through it changes nothing anywhere. -/
def LostStripe (ws : Workspace α κ) (t : TableId) (ref : StripeRef) : Prop :=
  ref.isDeleted (ws.content t) ∧ ∀ operation, (ws.perform t (.viaStripe ref operation)).2 = ws

/-- Neither has the handle of a cell. -/
def LostCell (ws : Workspace α κ) (t : TableId) (ref : CellRef) : Prop :=
  ref.isDeleted (ws.content t) ∧ ∀ operation, (ws.perform t (.viaCell ref operation)).2 = ws

theorem perform_of_unchanged (there : ws.hasTable t) {operation : Operation α}
    (same : (operation.run ⟨ws.content t, ws, publish t⟩).2 = ⟨ws.content t, ws, publish t⟩) :
    (ws.perform t operation).2 = ws := by
  rw [perform, edit]
  dsimp only
  rw [same]
  exact modifyTable_fixed there rfl

theorem lostStripe_of_gone (h : ws.Sound) (there : ws.hasTable t) (gone : (ws.content t).Gone i)
    {ref : StripeRef} (own : ref.id = i) : ws.LostStripe t ref := by
  have deleted : ref.index (ws.content t) = none :=
    (StripeRef.index_eq_none (h t)).mpr (own ▸ gone.2 ref.axis)
  exact ⟨by rw [StripeRef.isDeleted, deleted, Option.isNone_none],
    fun operation => perform_of_unchanged there (operation.run_of_deleted deleted)⟩

theorem lostCell_of_gone (h : ws.Sound) (there : ws.hasTable t) (gone : (ws.content t).Gone i) {ref : CellRef}
    (own : ref.row = i ∨ ref.column = i) : ws.LostCell t ref := by
  have deleted : ref.coordinates (ws.content t) = none := by
    refine (CellRef.coordinates_eq_none (h t)).mpr (own.imp ?_ ?_)
    · rintro rfl
      exact gone.2 .row
    · rintro rfl
      exact gone.2 .column
  exact ⟨by rw [CellRef.isDeleted, deleted, Option.isNone_none],
    fun operation => perform_of_unchanged there (operation.run_of_deleted deleted)⟩

omit [JsonForm α] [BinaryForm α] [Ord κ] in
/-- What is gone stays gone, whatever is done. -/
theorem Evolves.gone {c c' : Content α} {action : Action α κ} (evolves : Evolves t c action c')
    (h : c.Gone i) : c'.Gone i := by
  cases evolves with
  | performed operation => exact (Edit.steps_run (Edit.unobserved c) operation).gone h
  | loaded s stored => exact (Edit.steps_hydrate (Edit.unobserved c) stored).gone h
  | untouched => exact h

/-- What an operation makes of the content of a table that is there. -/
theorem content_act_perform (h : ws.Sound) (there : ws.hasTable t) (operation : Operation α) :
    (ws.act (.on t (.perform operation))).content t =
      (operation.run (Edit.unobserved (ws.content t))).2.content := by
  rw [Workspace.act, if_pos there]
  exact content_perform h there operation

/-- What loading a store makes of the content of a table. -/
theorem keepsLines_act_attachStore (h : ws.Sound) (there : ws.hasTable t) (s : StoreId) :
    KeepsLines .row (fun _ => False) (ws.content t) ((ws.act (.on t (.attachStore s))).content t) := by
  obtain ⟨-, evolves⟩ := outlasts_act h (.on t (.attachStore s)) there
  generalize (ws.act (.on t (.attachStore s))).content t = c' at evolves
  have valid : (Edit.unobserved (ws.content t)).content.Valid := h t
  cases evolves with
  | loaded s stored => exact Edit.keepsLines_hydrate valid stored
  | untouched => exact .refl (h t) .row

/-- A stripe that an operation takes out is gone after whatever is done next. -/
theorem gone_acts (h : ws.Sound) {axis : Axis} (mem : i ∈ ((ws.content t).stripes axis).ids)
    {operation : Operation α}
    (removes : operation.Removes (ws.content t) i) (later : List (Action α κ)) :
    let ws' := later.foldl Workspace.act (ws.act (.on t (.perform operation)))
    ws'.hasTable t ∧ (ws'.content t).Gone i := by
  have there := hasTable_of_mem mem
  have gone : ((ws.act (.on t (.perform operation))).content t).Gone i := by
    rw [content_act_perform h there]
    exact Edit.gone_run (e := Edit.unobserved (ws.content t)) (h t) mem removes
  exact preserved_acts (h.act _) (outlasts_act h _ there).1
    (fun _ evolves before => evolves.gone before) gone later

/-- After any run a handle finds its stripe exactly where it stands and reads what the table shows there.
    An operation that puts stripes of its direction in, takes others out or changes their order leaves
    what it shows as it is, but for null cells behind it if a longer stripe is put in; so does loading
    the rows of a store.  Once its stripe has been taken out, it has no place after any further run,
    whatever is done, and nothing can be done through it. -/
theorem run_handles_track (actions : List (Action α κ)) (t : TableId) :
    let c := (run actions).content t
    ((∀ ref : StripeRef, ref.Reads c) ∧ ∀ ref : CellRef, ref.Reads c) ∧
    (∀ operation : Operation α,
      let c' := (run (actions ++ [.on t (.perform operation)])).content t
      (∀ ref : StripeRef, operation.shifts = some ref.axis → ref.isDeleted c = false →
        ¬ operation.Removes c ref.id →
          ref.ShowsSame c c' (operation.insertedLength c - c.count ref.axis.cross)) ∧
      ∀ ref : CellRef, operation.shifts.isSome → ref.isDeleted c = false → ¬ operation.Removes c ref.row →
        ¬ operation.Removes c ref.column → ref.ShowsSame c c') ∧
    (∀ s : StoreId,
      let c' := (run (actions ++ [.on t (.attachStore s)])).content t
      (∀ ref : StripeRef, ref.axis = .row → ref.isDeleted c = false →
        ref.ShowsSame c c' (c'.columnCount - c.columnCount)) ∧
      ∀ ref : CellRef, ref.isDeleted c = false → ref.ShowsSame c c') ∧
    ∀ (operation : Operation α) (axis : Axis), ∀ i ∈ (c.stripes axis).ids, operation.Removes c i → ∀ later,
      let ws := run (actions ++ .on t (.perform operation) :: later)
      (∀ ref : StripeRef, ref.id = i → ws.LostStripe t ref) ∧
      ∀ ref : CellRef, ref.row = i ∨ ref.column = i → ws.LostCell t ref := by
  intro c
  have sound := Sound.run actions
  have valid : c.Valid := sound t
  refine ⟨⟨StripeRef.reads valid, CellRef.reads valid⟩, fun operation => ⟨?_, ?_⟩, fun s => ⟨?_, ?_⟩, ?_⟩
  · intro ref shifts live untaken
    have there := hasTable_of_mem ((StripeRef.isDeleted_eq_false valid).mp live)
    obtain ⟨keeps, count⟩ := Edit.shifts_run valid shifts
    have shows := keeps.showsSame valid rfl live untaken
    have longer : max (c.count ref.axis.cross) (operation.insertedLength c) - c.count ref.axis.cross =
        operation.insertedLength c - c.count ref.axis.cross := by omega
    rw [run_append, List.foldl_cons, List.foldl_nil, content_act_perform sound there, ← longer, ← count]
    exact shows
  · intro ref shifts live row column
    have there := hasTable_of_mem ((CellRef.isDeleted_eq_false valid).mp live).1
    obtain ⟨axis, shifts⟩ := Option.isSome_iff_exists.mp shifts
    rw [run_append, List.foldl_cons, List.foldl_nil, content_act_perform sound there]
    exact (Edit.shifts_run valid shifts).1.cell_showsSame valid live row column
  · intro ref own live
    have there := hasTable_of_mem ((StripeRef.isDeleted_eq_false valid).mp live)
    rw [run_append]
    exact (keepsLines_act_attachStore sound there s).showsSame valid own live id
  · intro ref live
    have there := hasTable_of_mem ((CellRef.isDeleted_eq_false valid).mp live).1
    rw [run_append]
    exact (keepsLines_act_attachStore sound there s).cell_showsSame valid live id id
  · intro operation axis i mem removes later
    obtain ⟨there, gone⟩ := gone_acts sound mem removes later
    rw [run_append, List.foldl_cons]
    have sound' := (sound.act (.on t (.perform operation))).acts later
    exact ⟨fun _ own => lostStripe_of_gone sound' there gone own,
      fun _ own => lostCell_of_gone sound' there gone own⟩

/-- The handle of a second row: a longer row is put in before it; or it is taken out, and the table
    turned over and back. -/
theorem run_handles_track_second :
    let actions : List (Action String RowKey) := [.make (.rows [[some "a"], [some "b"]]) [] "t"]
    let ref : StripeRef := ⟨.row, ⟨2⟩, 0⟩
    let turn : Action String RowKey := .on ⟨0⟩ (.perform .transpose)
    ref.elements ((run (actions ++
        [.on ⟨0⟩ (.perform (.insertElements .row 0 [some "x", some "y"]))])).content ⟨0⟩) = [some "b", none] ∧
      (run (actions ++ .on ⟨0⟩ (.perform (.removeAt .row 1)) :: [turn, turn])).LostStripe ⟨0⟩ ref := by
  intro actions ref turn
  obtain ⟨-, stays, -, gone⟩ := run_handles_track actions ⟨0⟩
  have live : ref.isDeleted ((run actions).content ⟨0⟩) = false := by decide +kernel
  have second : (((run actions).content ⟨0⟩).stripes .row).idAt 1 = some ⟨2⟩ := by decide +kernel
  refine ⟨?_, (gone (.removeAt .row 1) .row ⟨2⟩ (Stripes.mem_ids_of_idAt second) second [turn, turn]).1
    ref rfl⟩
  have shows := (stays (.insertElements .row 0 [some "x", some "y"])).1 ref rfl live id
  rw [shows.elements]
  decide +kernel

end Workspace

end LiveTable
