import LiveTable.Proofs.Edit.Entries
import LiveTable.Proofs.Grid.Refinement
import LiveTable.Proofs.Handle.Keeping

/-! Operations that put stripes of one direction in, take them out or change their order.  Whatever such
    an operation does on the way, growing the table or titling the stripes of the other direction, the
    stripes that stay keep their lines; the null cells behind them are as many as a new stripe is longer
    than the table was. -/

namespace LiveTable

open Content (KeepsLines)

variable {α ω : Type}

/-! ### Which operations they are -/

/-- The direction in which an operation through a reference takes stripes out or changes their order. -/
def StripeOperation.shifts (h : StripeRef) : StripeOperation α → Option Axis
  | remove => some h.axis
  | switchWith _ => some h.axis
  | moveTo _ => some .row
  | _ => none

/-- The direction in which an operation puts stripes in, takes them out or changes their order. -/
def Operation.shifts : Operation α → Option Axis
  | insertElements axis _ _ => some axis
  | addElements axis _ => some axis
  | addEntries _ _ => some .row
  | addColumnTitle _ => some .column
  | removeAt axis _ => some axis
  | swap axis _ _ => some axis
  | moveRow _ _ => some .row
  | sortRows _ _ _ => some .row
  | titlesFromFirst axis => some axis.cross
  | viaStripe h operation => operation.shifts h
  | _ => none

/-- Whether an operation takes a stripe out of a table. -/
def Operation.Removes (c : Content α) (i : StripeId) : Operation α → Prop
  | removeAt axis position => (c.stripes axis).idAt position = some i
  | titlesFromFirst axis => (c.stripes axis.cross).idAt 0 = some i
  | viaStripe h .remove => h.id = i ∧ !h.isDeleted c
  | clear => True
  | replace _ => True
  | _ => False

/-- The number of elements of the stripe that an operation puts in. -/
def Operation.insertedLength (c : Content α) : Operation α → Nat
  | insertElements _ _ elements => elements.length
  | addElements _ elements => elements.length
  | addEntries entries create => (entries.foldl (Edit.placeEntry create) ([], Edit.unobserved c)).1.length
  | _ => 0

namespace Edit

variable {e : Edit α ω} {axis : Axis} {taken : StripeId → Prop}

/-! ### Lines -/

theorem keepsLines_growAlong (h : e.content.Valid) (axis b : Axis) (own other : Nat) :
    KeepsLines axis taken e.content (e.growAlong b own other).content := by
  rw [content_growAlong]
  cases b <;> exact Content.keepsLines_growTo h axis _ _

theorem keepsLines_insertElements (h : e.content.Valid) (axis : Axis) (position : Nat)
    (elements : List (Option α)) :
    KeepsLines axis taken e.content (e.insertElements axis position elements).2.content := by
  have grown : KeepsLines axis taken e.content _ := keepsLines_growAlong h axis axis position elements.length
  rw [content_insertElements]
  exact grown.trans h (Content.keepsLines_insertStripe grown.valid axis position elements)

theorem keepsLines_removeAt (h : e.content.Valid) (axis : Axis) (position : Nat)
    (takes : ∀ i, (e.content.stripes axis).idAt position = some i → taken i) :
    KeepsLines axis taken e.content (e.removeAt axis position).2.content := by
  rw [content_removeAt]
  exact Content.keepsLines_removeStripe h axis position takes

theorem keepsLines_swap (h : e.content.Valid) (axis : Axis) (a b : Nat) :
    KeepsLines axis taken e.content (e.swap axis a b).2.content := by
  rw [content_swap]
  exact Content.keepsLines_swap h axis a b

theorem keepsLines_moveRow (h : e.content.Valid) (source target : Nat) :
    KeepsLines .row taken e.content (e.moveRow source target).2.content := by
  rw [content_moveRow]
  exact Content.keepsLines_moveRow h source target

theorem keepsLines_sortRows (h : e.content.Valid) (column : Nat) (descending : Bool)
    (order : α → α → Ordering) :
    KeepsLines .row taken e.content (e.sortRows column descending order).2.content := by
  rcases content_sortRows e column descending order with same | ⟨places, sorted⟩
  · rw [same]
    exact .refl h .row
  · rw [sorted]
    exact Content.keepsLines_reorderRows h places

theorem keepsLines_titlesFromFirst [Element α] (h : e.content.Valid) (axis : Axis)
    (takes : ∀ i, (e.content.stripes axis.cross).idAt 0 = some i → taken i) :
    KeepsLines axis.cross taken e.content (e.titlesFromFirst axis).content := by
  rw [titlesFromFirst]
  split
  · next elements _ =>
    have titled : KeepsLines axis.cross taken e.content
        (e.quietly (·.setTitles axis (elements.map Element.cellText))).content := by
      rw [content_quietly]
      exact Content.keepsLines_setTitles h axis _
    refine titled.trans h (keepsLines_removeAt titled.valid axis.cross 0 fun i at? => takes i ?_)
    rwa [content_quietly, Stripes.idAt_eq, Content.ids_setTitles, ← Stripes.idAt_eq] at at?
  · exact .refl h axis.cross

/-- Finding the column of a title appends a column with that title at most. -/
theorem keepsLines_positionForTitle (h : e.content.Valid) (axis : Axis) (title : String) :
    KeepsLines axis.cross taken e.content (e.positionForTitle axis title).2.content := by
  rw [positionForTitle]
  split
  · exact .refl h axis.cross
  · have grown : KeepsLines axis.cross taken e.content _ :=
      keepsLines_growAlong h axis.cross axis (e.content.count axis + 1) 0
    dsimp only
    rw [content_quietly]
    exact grown.trans h (Content.keepsLines_setTitle grown.valid axis _ _)

theorem keepsLines_addColumnTitle (h : e.content.Valid) (title : String) :
    KeepsLines .column taken e.content (e.addColumnTitle title).2.content := by
  rw [addColumnTitle, putTitle]
  dsimp only
  split
  · have grown : KeepsLines .column taken e.content _ :=
      keepsLines_growAlong h .column .column (e.content.columnCount + 1) 0
    rw [content_quietly]
    have wider : KeepsLines .row taken e.content _ :=
      keepsLines_growAlong h .row .column (e.content.columnCount + 1) 0
    exact grown.setTitle_new (fun _ at? => wider.new_of_crossing at?) _
  · exact .refl h .column

theorem keepsLines_addEntries (h : e.content.Valid) (entries : List (String × Option α)) (create : Bool) :
    KeepsLines .row taken e.content (e.addEntries entries create).2.content := by
  have place (row : List (Option α) × Edit α ω) (valid : row.2.content.Valid) (entry : String × Option α) :
      KeepsLines .row taken row.2.content (placeEntry create row entry).2.content := by
    rw [placeEntry]
    split
    · exact .refl valid .row
    · split
      · exact keepsLines_positionForTitle valid .column entry.1
      · exact .refl valid .row
  have placed :
      ∀ (entries : List (String × Option α)) (row : List (Option α) × Edit α ω), row.2.content.Valid →
      KeepsLines .row taken row.2.content (entries.foldl (placeEntry create) row).2.content := by
    intro entries
    induction entries with
    | nil => exact fun row valid => .refl valid .row
    | cons entry rest ih =>
      exact fun row valid => (place row valid entry).trans valid (ih _ (place row valid entry).valid)
  have ready := placed entries ([], e) h
  exact ready.trans h (keepsLines_insertElements ready.valid .row _ _)

/-- Loading the rows of a store puts them in beside those that are there. -/
theorem keepsLines_hydrate (h : e.content.Valid) (stored : List (Option Nat × List (Option α))) :
    KeepsLines .row taken e.content (e.hydrate stored).2.content := by
  rw [hydrate]
  generalize ([] : List StripeId) = loaded
  induction stored generalizing e loaded with
  | nil => exact .refl h .row
  | cons row rest ih =>
    obtain ⟨_ | position, elements⟩ := row
    · have one : KeepsLines .row taken e.content (e.addElements .row elements).2.content :=
        keepsLines_insertElements h .row _ elements
      exact one.trans h (ih one.valid _)
    · have one : KeepsLines .row taken e.content (e.insertElements .row position elements).2.content :=
        keepsLines_insertElements h .row position elements
      exact one.trans h (ih one.valid _)

/-! ### Lengths -/

theorem count_insertElements_cross (e : Edit α ω) (axis : Axis) (position : Nat)
    (elements : List (Option α)) :
    (e.insertElements axis position elements).2.content.count axis.cross =
      max (e.content.count axis.cross) elements.length := by
  rw [content_insertElements, Content.count_insertStripe_cross, count_growAlong_cross]

theorem count_addColumnTitle_cross (e : Edit α ω) (title : String) :
    (e.addColumnTitle title).2.content.count .row = e.content.count .row := by
  rw [addColumnTitle, putTitle]
  dsimp only
  split
  · rw [content_quietly, Content.count_eq, Content.ids_setTitle, ← Content.count_eq]
    exact (count_growAlong_cross e .column _ 0).trans (Nat.max_zero _)
  · rfl

theorem count_removeAt_cross (e : Edit α ω) (axis : Axis) (position : Nat) :
    (e.removeAt axis position).2.content.count axis.cross = e.content.count axis.cross := by
  rw [content_removeAt, Content.count_eq, Content.ids_removeStripe_cross, ← Content.count_eq]

theorem count_swap_cross (e : Edit α ω) (axis : Axis) (a b : Nat) :
    (e.swap axis a b).2.content.count axis.cross = e.content.count axis.cross := by
  rw [content_swap, Content.count_eq, Content.ids_swap_cross, ← Content.count_eq]

theorem count_moveRow_cross (e : Edit α ω) (source target : Nat) :
    (e.moveRow source target).2.content.count .column = e.content.count .column := by
  rw [content_moveRow]
  exact congrArg Stripes.size (Content.stripes_mapStripes_cross ..)

theorem count_sortRows_cross (e : Edit α ω) (column : Nat) (descending : Bool) (order : α → α → Ordering) :
    (e.sortRows column descending order).2.content.count .column = e.content.count .column := by
  rcases content_sortRows e column descending order with same | ⟨places, sorted⟩
  · rw [same]
  · rw [sorted]
    exact congrArg Stripes.size (Content.stripes_mapStripes_cross ..)

theorem count_titlesFromFirst [Element α] (e : Edit α ω) (axis : Axis) :
    (e.titlesFromFirst axis).content.count axis = e.content.count axis := by
  rw [titlesFromFirst]
  split
  · next elements _ =>
    have removed :=
      count_removeAt_cross (e.quietly (·.setTitles axis (elements.map Element.cellText))) axis.cross 0
    rw [Axis.cross_cross] at removed
    rw [removed, content_quietly, Content.count_setTitles]
  · rfl

theorem count_addEntries_cross (e : Edit α ω) (entries : List (String × Option α)) (create : Bool) :
    (e.addEntries entries create).2.content.count .column =
      max (e.content.count .column) (entries.foldl (placeEntry create) ([], e)).1.length := by
  let row := entries.foldl (placeEntry create) ([], e)
  have ready : row.2.content.columnCount = max e.content.columnCount row.1.length :=
    columnCount_foldl_placeEntry create entries (Nat.max_zero _).symm
  have added :
      (e.addEntries entries create).2.content.columnCount = max row.2.content.columnCount row.1.length :=
    count_insertElements_cross row.2 .row (row.2.content.count .row) row.1
  show (e.addEntries entries create).2.content.columnCount = max e.content.columnCount row.1.length
  rw [added, ready]
  omega

/-! ### Operations -/

/-- An operation on the stripes of one direction keeps those that it does not take out, and their lines;
    the other direction gets as long as the stripe that is put in, if it is not as long already. -/
theorem shifts_run [Element α] {c : Content α} (h : c.Valid) {operation : Operation α}
    (shifts : operation.shifts = some axis) :
    let c' := (operation.run (unobserved c)).2.content
    KeepsLines axis (operation.Removes c) c c' ∧
      c'.count axis.cross = max (c.count axis.cross) (operation.insertedLength c) := by
  have alone (n : Nat) (same : n = c.count axis.cross) : n = max (c.count axis.cross) 0 := by omega
  have h' : (unobserved c).content.Valid := h
  cases operation with
  | insertElements b position elements =>
    obtain rfl := Option.some.inj shifts
    exact ⟨keepsLines_insertElements h' b position elements, count_insertElements_cross _ b position elements⟩
  | addElements b elements =>
    obtain rfl := Option.some.inj shifts
    exact ⟨keepsLines_insertElements h' b _ elements, count_insertElements_cross _ b _ elements⟩
  | addEntries entries create =>
    obtain rfl := Option.some.inj shifts
    exact ⟨keepsLines_addEntries h' entries create, count_addEntries_cross _ entries create⟩
  | addColumnTitle title =>
    obtain rfl := Option.some.inj shifts
    exact ⟨keepsLines_addColumnTitle h' title, alone _ (count_addColumnTitle_cross _ title)⟩
  | removeAt b position =>
    obtain rfl := Option.some.inj shifts
    exact ⟨keepsLines_removeAt h' b position fun _ => id, alone _ (count_removeAt_cross _ b position)⟩
  | swap b i j =>
    obtain rfl := Option.some.inj shifts
    exact ⟨keepsLines_swap h' b i j, alone _ (count_swap_cross _ b i j)⟩
  | moveRow source target =>
    obtain rfl := Option.some.inj shifts
    exact ⟨keepsLines_moveRow h' source target, alone _ (count_moveRow_cross _ source target)⟩
  | sortRows column descending order =>
    obtain rfl := Option.some.inj shifts
    exact ⟨keepsLines_sortRows h' column descending order,
      alone _ (count_sortRows_cross _ column descending order)⟩
  | titlesFromFirst b =>
    obtain rfl := Option.some.inj shifts
    refine ⟨keepsLines_titlesFromFirst h' b fun _ => id, alone _ ?_⟩
    rw [Axis.cross_cross]
    exact count_titlesFromFirst _ b
  | viaStripe ref operation =>
    cases operation with
    | remove =>
      obtain rfl := Option.some.inj shifts
      simp only [Operation.run, StripeOperation.run, Outcome.giving, StripeRef.remove]
      split
      · next position index =>
        have own : (c.stripes ref.axis).idAt position = some ref.id := (h.indexed ref.axis ..).mp index
        have live : !ref.isDeleted c := by simp [StripeRef.isDeleted, show ref.index c = _ from index]
        refine ⟨keepsLines_removeAt h' _ _ fun i at? => ⟨Option.some.inj (own.symm.trans at?), live⟩, ?_⟩
        exact alone _ (count_removeAt_cross _ _ _)
      · exact ⟨.refl h _, alone _ rfl⟩
    | switchWith other =>
      obtain rfl := Option.some.inj shifts
      simp only [Operation.run, StripeOperation.run, Outcome.giving, StripeRef.switchWith]
      split
      · exact ⟨keepsLines_swap h' _ _ _, alone _ (count_swap_cross _ _ _ _)⟩
      · exact ⟨.refl h _, alone _ rfl⟩
    | moveTo target =>
      obtain rfl := Option.some.inj shifts
      simp only [Operation.run, StripeOperation.run, Outcome.giving, StripeRef.moveTo]
      split
      · exact ⟨keepsLines_moveRow h' _ _, alone _ (count_moveRow_cross _ _ _)⟩
      · exact ⟨.refl h _, alone _ rfl⟩
    | _ => cases shifts
  | _ => cases shifts

end Edit

end LiveTable
