import LiveTable.Proofs.Content.Growth
import LiveTable.Proofs.Edit.Observers
import LiveTable.Proofs.Grid.Refinement

/-! Bulk changes through handles.  A handle grows its stripe cell by cell while it writes, and the table
    grows first and writes then; as a write inside the table and the growth of the crossing direction can
    change places, both leave one content, with the same identities on the new stripes.  Converting a row
    through its handle is converting a range of one row, and tells of each cell that it changes. -/

namespace LiveTable

variable {α ω ω' : Type}

/-- The stripe of a handle stands inside the table. -/
theorem StripeRef.lt_count {c : Content α} (h : c.Valid) {ref : StripeRef} {p : Nat}
    (live : ref.index c = some p) : p < c.count ref.axis :=
  Stripes.idAt_lt ((h.indexed ref.axis ref.id p).mp live)

/-- A write along a stripe changes places with the growth of either direction. -/
theorem Content.Valid.set_appendEmpties_along {c : Content α} (h : c.Valid) {axis : Axis} {p q : Nat}
    (own : p < c.count axis)
    (cross : q < c.count axis.cross) (element : Option α) (b : Axis) (n : Nat) :
    (c.appendEmpties b n).set (axis.coordinates p q).1 (axis.coordinates p q).2 element =
      (c.set (axis.coordinates p q).1 (axis.coordinates p q).2 element).appendEmpties b n := by
  cases axis
  · exact h.set_appendEmpties own cross element b n
  · exact h.set_appendEmpties cross own element b n

namespace Edit

variable {e : Edit α ω} {axis : Axis} {p : Nat}

/-! ### Growing along a stripe that is there -/

theorem content_growAlong_of_le {own : Nat} (inside : own ≤ e.content.count axis) (other : Nat) :
    (e.growAlong axis own other).content =
      e.content.appendEmpties axis.cross (other - e.content.count axis.cross) := by
  rw [content_growAlong]
  cases axis
  · exact Content.growTo_of_tall inside other
  · exact Content.growTo_of_wide inside other

variable [DecidableEq α]

/-- A write to a stripe that is there appends what it lacks of the other direction. -/
theorem content_setElement_along (inside : p < e.content.count axis) (ap : p < unaddressable) {q : Nat}
    (aq : q < unaddressable) (element : Option α) :
    (e.setElement (axis.coordinates p q).1 (axis.coordinates p q).2 element).2.content =
      (e.content.appendEmpties axis.cross (q + 1 - e.content.count axis.cross)).set
        (axis.coordinates p q).1 (axis.coordinates p q).2 element := by
  cases axis
  · exact (setElement_eq ap aq element).2.trans
      (congrArg (·.set p q element) (Content.growTo_of_tall inside _))
  · exact (setElement_eq aq ap element).2.trans
      (congrArg (·.set q p element) (Content.growTo_of_wide inside _))

/-- What writing along a stripe leaves depends on the content alone. -/
theorem content_writeAlong_congr {e' : Edit α ω'} (same : e'.content = e.content) (axis : Axis)
    (p index : Nat) (elements : List (Option α)) (n : Nat) :
    (e'.writeAlong axis p index elements n).content = (e.writeAlong axis p index elements n).content := by
  have alike : Alike (fun _ _ => True) e e' := ⟨same, trivial, fun _ _ _ _ => trivial⟩
  exact (alike.writeAlong axis p index elements n).content

/-- A stripe that no table can reach is not written. -/
theorem writeAlong_unaddressable (beyond : ¬p < unaddressable) (index : Nat)
    (elements : List (Option α)) (n : Nat) : e.writeAlong axis p index elements n = e := by
  induction n generalizing index elements with
  | zero => rfl
  | succ n ih =>
    have refused (x : Option α) :
        (e.setElement (axis.coordinates p index).1 (axis.coordinates p index).2 x).2 = e := by
      cases axis <;> simp [setElement, Axis.coordinates, beyond]
    rw [writeAlong, refused, ih]

/-- A write to a stripe that is there and the growth that later writes need change places. -/
theorem content_growAlong_setElement (h : e.content.Valid) (inside : p < e.content.count axis)
    (ap : p < unaddressable)
    {q length : Nat} (aq : q < unaddressable) (within : q < length) (element : Option α) :
    ((e.setElement (axis.coordinates p q).1 (axis.coordinates p q).2 element).2.growAlong
        axis (p + 1) length).content =
      ((e.growAlong axis (p + 1) length).setElement (axis.coordinates p q).1 (axis.coordinates p q).2
        element).2.content := by
  let c := e.content
  let lacking := q + 1 - c.count axis.cross
  let grown := c.appendEmpties axis.cross lacking
  let whole := c.appendEmpties axis.cross (length - c.count axis.cross)
  have own : p < grown.count axis := (c.count_appendEmpties_of_cross axis lacking).symm ▸ inside
  have still : p < whole.count axis := (c.count_appendEmpties_of_cross axis _).symm ▸ inside
  have reach : grown.count axis.cross = c.count axis.cross + lacking := c.count_appendEmpties_self ..
  have enough : whole.count axis.cross = c.count axis.cross + (length - c.count axis.cross) :=
    c.count_appendEmpties_self ..
  have beside : q < grown.count axis.cross := by omega
  have first := content_setElement_along inside ap aq element
  have ahead : (e.growAlong axis (p + 1) length).content = whole := content_growAlong_of_le inside _
  have total : lacking + (length - grown.count axis.cross) = length - c.count axis.cross := by omega
  have nothing : q + 1 - whole.count axis.cross = 0 := by omega
  rw [content_growAlong_of_le (by rwa [first, Content.count_set]), first, Content.count_set,
    ← (h.appendEmpties axis.cross lacking).set_appendEmpties_along own beside,
    ← Content.appendEmpties_add, total, content_setElement_along (ahead ▸ still) ap aq, ahead, nothing]
  rfl

/-- Writing along a stripe leaves the same whether the table grows cell by cell or all at once beforehand. -/
theorem content_writeAlong_grown (h : e.content.Valid) (inside : p < e.content.count axis)
    (ap : p < unaddressable)
    {index n : Nat} (reach : index ≤ e.content.count axis.cross) (room : index + n ≤ unaddressable)
    (elements : List (Option α)) :
    (e.writeAlong axis p index elements n).content =
      ((e.growAlong axis (p + 1) (index + n)).writeAlong axis p index elements n).content := by
  induction n generalizing e index elements with
  | zero =>
    rw [writeAlong, writeAlong, content_growAlong_of_le inside, Nat.add_zero, Nat.sub_eq_zero_of_le reach,
      Content.appendEmpties]
  | succ n ih =>
    let target := axis.coordinates p index
    let x := elements.head?.getD none
    let written := (e.setElement target.1 target.2 x).2
    let all := e.growAlong axis (p + 1) (index + (n + 1))
    have content : written.content = _ := content_setElement_along inside ap (by omega) x
    have counts : p < written.content.count axis ∧ index + 1 ≤ written.content.count axis.cross := by
      rw [content, Content.count_set, Content.count_set, Content.count_appendEmpties_of_cross,
        Content.count_appendEmpties_self]
      exact ⟨inside, by omega⟩
    have valid : written.content.Valid := content ▸ (h.appendEmpties ..).set ..
    have same : (written.growAlong axis (p + 1) (index + 1 + n)).content =
        (all.setElement target.1 target.2 x).2.content := by
      rw [Nat.add_right_comm index 1 n]
      exact content_growAlong_setElement h inside ap (by omega) (by omega) x
    calc (e.writeAlong axis p index elements (n + 1)).content
      _ = (written.writeAlong axis p (index + 1) elements.tail n).content := rfl
      _ = ((written.growAlong axis (p + 1) (index + 1 + n)).writeAlong
            axis p (index + 1) elements.tail n).content :=
        ih valid counts.1 counts.2 (by omega) elements.tail
      _ = ((all.setElement target.1 target.2 x).2.writeAlong axis p (index + 1) elements.tail n).content :=
        content_writeAlong_congr same ..
      _ = (all.writeAlong axis p index elements (n + 1)).content := rfl

/-- All elements of a stripe that is there, written through a handle or at its position. -/
theorem content_setElements_handle (h : e.content.Valid) {ref : StripeRef}
    (live : ref.index e.content = some p)
    {elements : List (Option α)} (fits : elements.length ≤ unaddressable) :
    (ref.setElements elements e).content = (e.setElements ref.axis p elements).content := by
  have inside := StripeRef.lt_count h live
  rw [StripeRef.setElements, live, setElements]
  dsimp only
  split
  · next ap =>
    rw [count_growAlong_cross]
    by_cases short : elements.length ≤ e.content.count ref.axis.cross
    · have same : (e.growAlong ref.axis (p + 1) elements.length).content = e.content := by
        rw [content_growAlong_of_le inside, Nat.sub_eq_zero_of_le short, Content.appendEmpties]
      exact (content_writeAlong_congr same ..).symm
    · have longer : max (e.content.count ref.axis.cross) elements.length = elements.length := by omega
      have written :=
        content_writeAlong_grown h inside ap (Nat.zero_le _) (by omega) elements (n := elements.length)
      rw [Nat.zero_add] at written
      rwa [longer]
  · next beyond => rw [writeAlong_unaddressable beyond]

/-! ### Converting -/

/-- Converting the row of a handle is converting the range that starts and ends with it. -/
theorem convert_eq_convertRows (h : e.content.Valid) {ref : StripeRef} (row : ref.axis = .row)
    (live : ref.index e.content = some p) (f : Option α → Option α) :
    ref.convert f e = e.convertRows p (p + 1) f := by
  have inside := StripeRef.lt_count h live
  rw [StripeRef.convert, live]
  rw [row] at inside ⊢
  have one : min (p + 1) e.content.rowCount - p = 1 := by
    rw [Content.rowCount]
    omega
  rw [convertRows, one, List.range'_one, List.foldl_cons, List.foldl_nil]
  rfl

omit [DecidableEq α] in
theorem growTo_of_le {rows columns : Nat} (tall : rows ≤ e.content.rowCount)
    (wide : columns ≤ e.content.columnCount) : e.growTo rows columns = e := by
  rw [growTo, Nat.sub_eq_zero_of_le wide, appendEmpties, Nat.sub_eq_zero_of_le tall, appendEmpties]

/-- A write inside the table is announced unless it leaves the element as it was. -/
theorem setElement_inside {row column : Nat} (tall : row < e.content.rowCount)
    (wide : column < e.content.columnCount)
    (ar : row < unaddressable) (ac : column < unaddressable) (element : Option α) :
    (e.setElement row column element).2 =
      if e.content.element row column = element then e.quietly (·.set row column element)
      else e.announce (·.set row column element)
        (.updatedCell row column (e.content.element row column)) := by
  simp only [setElement, ar, ac, and_self, if_true, growTo_of_le tall wide]

end Edit

/-- What is told of the conversion of one cell: nothing if its element stays the same. -/
def Content.conversion [DecidableEq α] (c : Content α) (f : Option α → Option α) (row column : Nat) :
    Option (Event α) :=
  let x := c.element row column
  if f x = x then none else some (.updatedCell row column x)

namespace Edit

variable [DecidableEq α] {e : Edit α (List (Notice α))} {axis : Axis} {p : Nat}

/-- Converting one cell of a table whose notices are written down. -/
theorem converted (records : e.tell = fun told n => told ++ [n]) {row column : Nat}
    (tall : row < e.content.rowCount)
    (wide : column < e.content.columnCount) (ar : row < unaddressable) (ac : column < unaddressable)
    (f : Option α → Option α) :
    let after := (e.setElement row column (f (e.content.element row column))).2
    after.tell = e.tell ∧ after.content = e.content.set row column (f (e.content.element row column)) ∧
      after.observers.map Notice.event =
        e.observers.map Notice.event ++ (e.content.conversion f row column).toList := by
  intro after
  have written : after = _ := setElement_inside tall wide ar ac _
  rw [written, Content.conversion]
  by_cases same : f (e.content.element row column) = e.content.element row column
  · rw [if_pos same.symm, if_pos same]
    cases e
    simp [quietly]
  · rw [if_neg (Ne.symm same), if_neg same]
    cases e
    obtain rfl : _ = _ := records
    simp [announce]

/-- Converting along a stripe tells of each cell that it changes, one after the other; no conversion
    changes the element of a later cell. -/
theorem events_convertAlong (records : e.tell = fun told n => told ++ [n]) (h : e.content.Valid)
    (own : p < e.content.count axis) (ap : p < unaddressable)
    (room : e.content.count axis.cross ≤ unaddressable)
    {index n : Nat} (within : index + n ≤ e.content.count axis.cross) (f : Option α → Option α) :
    (e.convertAlong axis p index f n).observers.map Notice.event = e.observers.map Notice.event ++
      (List.range' index n).filterMap fun q =>
        e.content.conversion f (axis.coordinates p q).1 (axis.coordinates p q).2 := by
  induction n generalizing e index with
  | zero => simp [convertAlong]
  | succ n ih =>
    let target := axis.coordinates p index
    let written := (e.setElement target.1 target.2 (f (e.content.element target.1 target.2))).2
    have inside : target.1 < e.content.rowCount ∧ target.2 < e.content.columnCount := by
      have cross : index < e.content.count axis.cross := by omega
      cases axis
      · exact ⟨own, cross⟩
      · exact ⟨cross, own⟩
    have addressable : target.1 < unaddressable ∧ target.2 < unaddressable := by
      have ai : index < unaddressable := by omega
      cases axis
      · exact ⟨ap, ai⟩
      · exact ⟨ai, ap⟩
    obtain ⟨tell, content, observers⟩ := converted records inside.1 inside.2 addressable.1 addressable.2 f
    have counts (b : Axis) : written.content.count b = e.content.count b := by
      rw [content, Content.count_set]
    have later : ∀ q ∈ List.range' (index + 1) n,
        written.content.conversion f (axis.coordinates p q).1 (axis.coordinates p q).2 =
          e.content.conversion f (axis.coordinates p q).1 (axis.coordinates p q).2 := by
      intro q mem
      have behind := (List.mem_range'_1.mp mem).1
      have other : ¬((axis.coordinates p q).1 = target.1 ∧ (axis.coordinates p q).2 = target.2) := by
        cases axis <;> simp [Axis.coordinates, target] <;> omega
      rw [Content.conversion, content, h.element_set inside.1 inside.2, if_neg other, Content.conversion]
    rw [convertAlong]
    refine (ih (tell.trans records) (content ▸ h.set ..) (counts axis ▸ own) (counts axis.cross ▸ room)
      (by rw [counts]; omega)).trans ?_
    rw [observers, List.filterMap_congr later, List.append_assoc, List.range'_succ, List.filterMap_cons]
    cases e.content.conversion f target.1 target.2 <;> rfl

end Edit

namespace Operation

variable [Element α] {e : Edit α ω} {h : StripeRef} {p : Nat}

/-- Bulk changes through a handle and at the position of its stripe agree, whoever observes them and in
    either orientation.  Writing all elements along a row or a column, with a list that is shorter or
    longer than it, leaves the same content down to the identities and revisions of its stripes.
    Converting a row by any function leaves the same content and tells the same notices in the same
    order: one for each cell whose element the function changes, with the element that was there, from
    the first column to the last.  No list and no table is longer than `unaddressable`, the largest size
    that there is. -/
theorem bulk_through_handle (reached : e.content.Reachable) (live : h.index e.content = some p) :
    (∀ elements : List (Option α), elements.length ≤ unaddressable →
      ((Operation.viaStripe h (.setElements elements)).run e).2.content =
        ((Operation.setElements h.axis p elements).run e).2.content) ∧
    (h.axis = .row → ∀ f : Option α → Option α,
      let via := Operation.viaStripe h (.convert f)
      via.run e = (Operation.convertRows p (p + 1) f).run e ∧
        ((∀ axis, e.content.count axis ≤ unaddressable) →
          (via.told e.content).map Notice.event =
            (List.range e.content.columnCount).filterMap fun q =>
              let x := e.content.element p q
              if f x = x then none else some (.updatedCell p q x))) := by
  have valid := reached.valid
  refine ⟨fun elements fits => Edit.content_setElements_handle valid live fits,
    fun row f => ⟨?_, fun fits => ?_⟩⟩
  · exact congrArg Outcome.quiet (Edit.convert_eq_convertRows valid row live f)
  · let recorded := Edit.recorded e.content
    have own : p < e.content.count .row := row ▸ StripeRef.lt_count valid live
    have told : (Operation.viaStripe h (.convert f)).told e.content =
        (recorded.convertAlong .row p 0 f e.content.columnCount).observers := by
      have run : h.convert f recorded = recorded.convertAlong .row p 0 f e.content.columnCount := by
        rw [StripeRef.convert, show h.index recorded.content = some p from live, row]
        rfl
      exact congrArg Edit.observers run
    have events := Edit.events_convertAlong (e := recorded) rfl valid own (Nat.lt_of_lt_of_le own (fits .row))
      (fits .column) (Nat.le_of_eq (Nat.zero_add _)) f
    rw [told, List.range_eq_range']
    exact events

/-- A row of a table that was turned over, written by a list that is longer than it, and converted by a
    function that leaves its second element as it is. -/
theorem bulk_through_handle_turned :
    let c := Content.run (.rows [[some "a", some "b"], [some "c", none], [some "d", some "B"]]) [.transpose]
    let e := Edit.unobserved c
    let h : StripeRef := ⟨.row, ⟨1⟩, 0⟩
    let upper : Option String → Option String := Option.map String.toUpper
    c.Reachable ∧ h.index c = some 1 ∧
      let written := ((Operation.viaStripe h (.setElements [some "p", none, none, some "q"])).run e).2.content
      written.toRows = [[some "a", some "c", some "d", none], [some "p", none, none, some "q"]] ∧
        written.columns.ids.map StripeId.value = [2, 3, 4, 5] ∧
        ((Operation.viaStripe h (.convert upper)).told c).map Notice.event =
          [.updatedCell 1 0 (some "b")] := by
  intro c e h upper
  have reached : c.Reachable := ⟨.rows _, _, rfl⟩
  have live : h.index c = some 1 := by decide +kernel
  obtain ⟨written, converted⟩ := bulk_through_handle (e := e) reached live
  have same := written [some "p", none, none, some "q"] (by decide)
  have fits (axis : Axis) : c.count axis ≤ unaddressable := by
    cases axis <;> decide +kernel
  have elements : (List.range c.columnCount).map (fun q => (q, c.element 1 q, upper (c.element 1 q))) =
      [(0, some "b", some "B"), (1, none, none), (2, some "B", some "B")] := by decide +kernel
  refine ⟨reached, live, ?_, ?_, ((converted rfl upper).2 fits).trans ?_⟩
  · rw [same]
    decide +kernel
  · rw [same]
    decide +kernel
  · have told := congrArg (List.filterMap fun entry : Nat × Option String × Option String =>
      if entry.2.2 = entry.2.1 then none else some (Event.updatedCell 1 entry.1 entry.2.1)) elements
    rw [List.filterMap_map] at told
    exact told.trans (by simp)

end Operation

end LiveTable
