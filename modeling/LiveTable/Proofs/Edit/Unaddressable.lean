import LiveTable.Proofs.Edit.Observers

/-! Writes at a position that no table reaches are refused.  A position is checked before the table grows
    to it, so a refused write leaves nothing behind.  The writes that find one of their coordinates by
    title look the title up first and come to the check with both coordinates, so a title that no stripe
    has gets its stripe before the write is refused: that one empty stripe stays, and observers are told
    of it. -/

namespace LiveTable

variable {α ω : Type}

/-- A write of which one coordinate is beyond every table. -/
inductive Operation.Unaddressable : Operation α → Prop
  | cell {row column : Nat} (element : Option α) (beyond : row = unaddressable ∨ column = unaddressable) :
      Unaddressable (.setElement row column element)
  | byColumnTitle (title : String) (element : Option α) :
      Unaddressable (.setElementByColumnTitle unaddressable title element)
  | byRowTitle (title : String) (element : Option α) :
      Unaddressable (.setElementByRowTitle title unaddressable element)
  | stripe (axis : Axis) (elements : List (Option α)) :
      Unaddressable (.setElements axis unaddressable elements)
  | titled (axis : Axis) (name : String) : Unaddressable (.putTitle axis unaddressable name)
  | viaStripe (h : StripeRef) (element : Option α) :
      Unaddressable (.viaStripe h (.setElement unaddressable element))

/-- What a write gives back when it is refused: no element, or nothing if it never gives any. -/
def Operation.refusal : Operation α → Outcome α
  | setElements _ _ _ | putTitle _ _ _ => .done
  | _ => .cell none

/-- The title by which a write finds one of its coordinates, with the direction in which it looks. -/
def Operation.sought : Operation α → Option (Axis × String)
  | setElementByColumnTitle _ title _ => some (.column, title)
  | setElementByRowTitle title _ _ => some (.row, title)
  | _ => none

/-- The title that a write looks for in vain. -/
def Operation.missing (c : Content α) (write : Operation α) : Option (Axis × String) :=
  write.sought.filter fun sought => ((c.stripes sought.1).positionOfTitle sought.2).isNone

namespace Content

/-- No content grows to such a position. -/
theorem growToCell_unaddressable (c : Content α) {row column : Nat}
    (beyond : row = unaddressable ∨ column = unaddressable) : c.growToCell row column = none := by
  rw [growToCell, if_neg]
  omega

end Content

namespace Edit

section Titles

variable (e : Edit α ω)

theorem putTitle_unaddressable (axis : Axis) (title : Option String) :
    e.putTitle axis unaddressable title = e := by
  rw [putTitle, if_neg (Nat.lt_irrefl _)]

/-- What a search for a title leaves: a title that no stripe has gets an empty stripe, which is announced
    before it has its title. -/
def afterSearch (axis : Axis) (title : String) : Edit α ω :=
  if ((e.content.stripes axis).positionOfTitle title).isSome then e
  else (e.appendEmpty axis).quietly (·.setTitle axis (e.content.count axis) (some title))

theorem positionForTitle_eq (axis : Axis) (title : String) :
    (e.positionForTitle axis title).2 = e.afterSearch axis title := by
  rw [positionForTitle, afterSearch]
  cases (e.content.stripes axis).positionOfTitle title with
  | some position => rfl
  | none =>
    dsimp only
    rw [growAlong_succ]
    rfl

end Titles

section Cells

variable [DecidableEq α] (e : Edit α ω)

theorem setElement_unaddressable {row column : Nat} (element : Option α)
    (beyond : row = unaddressable ∨ column = unaddressable) :
    e.setElement row column element = (none, e) := by
  rw [setElement, if_neg]
  omega

theorem setElements_unaddressable (axis : Axis) (elements : List (Option α)) :
    e.setElements axis unaddressable elements = e := by
  rw [setElements, if_neg (Nat.lt_irrefl _)]

theorem setElementByColumnTitle_unaddressable (title : String) (element : Option α) :
    e.setElementByColumnTitle unaddressable title element = (none, e.afterSearch .column title) := by
  rw [setElementByColumnTitle, setElement_unaddressable _ _ (.inl rfl), positionForTitle_eq]

theorem setElementByRowTitle_unaddressable (title : String) (element : Option α) :
    e.setElementByRowTitle title unaddressable element = (none, e.afterSearch .row title) := by
  rw [setElementByRowTitle, setElement_unaddressable _ _ (.inr rfl), positionForTitle_eq]

/-- A reference to a stripe knows one coordinate; the other is refused all the same. -/
theorem setElement_unaddressable_viaStripe (h : StripeRef) (element : Option α) :
    h.setElement unaddressable element e = (none, e) := by
  rw [StripeRef.setElement]
  split
  · cases h.axis with
    | row => exact e.setElement_unaddressable element (.inr rfl)
    | column => exact e.setElement_unaddressable element (.inl rfl)
  · rfl

end Cells

end Edit

namespace Operation

variable [Element α] {write : Operation α}

/-- A refused write gives nothing and leaves what the search for its title leaves. -/
theorem Unaddressable.run_eq (beyond : write.Unaddressable) (e : Edit α ω) :
    write.run e = (write.refusal, match write.sought with
      | some (axis, title) => e.afterSearch axis title
      | none => e) := by
  cases beyond with
  | cell element beyond => exact congrArg (Outcome.giving .cell) (e.setElement_unaddressable element beyond)
  | byColumnTitle title element =>
    exact congrArg (Outcome.giving .cell) (e.setElementByColumnTitle_unaddressable title element)
  | byRowTitle title element =>
    exact congrArg (Outcome.giving .cell) (e.setElementByRowTitle_unaddressable title element)
  | stripe axis elements => exact congrArg Outcome.quiet (e.setElements_unaddressable axis elements)
  | titled axis name => exact congrArg Outcome.quiet (e.putTitle_unaddressable axis (some name))
  | viaStripe h element =>
    exact congrArg (Outcome.giving .cell) (e.setElement_unaddressable_viaStripe h element)

/-- A write at a position that no table reaches gives nothing, leaves the table as it was and tells
    nobody anything, unless it looks for a title in vain: then one empty stripe with that title stays
    behind, and observers are told that it was added.  A content does not grow to such a position
    either. -/
theorem run_unaddressable (beyond : write.Unaddressable) (c : Content α) (observers : ω)
    (tell : ω → Notice α → ω) :
    (write.missing c = none → write.run ⟨c, observers, tell⟩ = (write.refusal, ⟨c, observers, tell⟩)) ∧
    (∀ axis title, write.missing c = some (axis, title) →
      let grown := c.appendEmpty axis
      write.run ⟨c, observers, tell⟩ =
        (write.refusal, ⟨grown.setTitle axis (c.count axis) (some title),
          tell observers ⟨.added axis (c.count axis), grown⟩, tell⟩)) ∧
    ∀ row column, row = unaddressable ∨ column = unaddressable → c.growToCell row column = none := by
  refine ⟨fun present => ?_, fun axis title missing => ?_, fun row column => c.growToCell_unaddressable⟩
  · rw [beyond.run_eq]
    split
    · next axis title sought =>
      rw [missing, sought, Option.filter_eq_none_iff] at present
      have found : ((c.stripes axis).positionOfTitle title).isSome := by
        simpa [Option.isSome_iff_ne_none] using present (axis, title) rfl
      rw [Edit.afterSearch, if_pos found]
    · rfl
  · obtain ⟨sought, none⟩ := Option.filter_eq_some_iff.mp missing
    have absent : ((c.stripes axis).positionOfTitle title).isSome = false := by
      simpa using none
    rw [beyond.run_eq, sought]
    simp only [Edit.afterSearch, absent, Bool.false_eq_true, if_false]
    rfl

/-- The title is there, so the write is refused and nothing is left behind. -/
theorem run_unaddressable_titled :
    let c := Content.run (.rows [[some "a"]]) [.setTitle .column 0 (some "head")]
    let write : Operation String := .setElementByColumnTitle unaddressable "head" (some "v")
    write.Unaddressable ∧ write.missing c = none ∧
      write.run (Edit.recorded c) = (.cell none, Edit.recorded c) := by
  intro c write
  have present : write.missing c = none := by decide +kernel
  have beyond : write.Unaddressable := .byColumnTitle "head" (some "v")
  exact ⟨beyond, present, (run_unaddressable beyond c [] _).1 present⟩

/-- The title is not there: the write is refused, but a column stays behind and was announced. -/
theorem run_unaddressable_grows :
    let c := Content.run (.rows [[some "a"]]) []
    let write : Operation String := .setElementByColumnTitle unaddressable "new" (some "v")
    write.Unaddressable ∧ write.result c = .cell none ∧
      (write.leaves c).columnCount = c.columnCount + 1 ∧
        (write.told c).map (·.event.name) = ["added_column"] :=
  ⟨.byColumnTitle "new" (some "v"), by decide +kernel, by decide +kernel, by decide +kernel⟩

end Operation

end LiveTable
