import LiveTable.Proofs.Content.Growth
import LiveTable.Proofs.Edit.Steps

/-! Two ways to grow one table.  A content grows by itself and reports by which positions; a table grows
    with its observers told of every new stripe.  Both append one stripe after the other, columns before
    rows, so they leave the same content down to its identities.  The report names exactly the positions
    that were appended, and asking again for a cell or a title finds it where it is and appends
    nothing. -/

namespace LiveTable

variable {α ω : Type}

namespace Edit

/-- A table finds or makes the stripe of a title as its content does by itself. -/
theorem positionForTitle_content (e : Edit α ω) (axis : Axis) (title : String) :
    (e.positionForTitle axis title).1 = (e.content.growToTitle axis title).1 ∧
      (e.positionForTitle axis title).2.content = (e.content.growToTitle axis title).2.2 := by
  rw [positionForTitle, Content.growToTitle]
  cases (e.content.stripes axis).positionOfTitle title with
  | some position => exact ⟨rfl, rfl⟩
  | none =>
    refine ⟨rfl, ?_⟩
    dsimp only
    rw [content_quietly, growAlong_succ, appendEmpty, content_announce]

/-- A title that is there is found without any change. -/
theorem positionForTitle_of_some {e : Edit α ω} {axis : Axis} {title : String} {position : Nat}
    (known : (e.content.stripes axis).positionOfTitle title = some position) :
    e.positionForTitle axis title = (position, e) := by
  rw [positionForTitle, known]

end Edit

namespace Content

variable {c : Content α} {axis : Axis}

/-- Growing to a cell gives the address of the cell in the grown content, and the positions of what was
    appended. -/
theorem growToCell_eq (c : Content α) {row column : Nat} (ar : row < unaddressable)
    (ac : column < unaddressable) :
    let grown := c.growTo (row + 1) (column + 1)
    ∃ key, c.growToCell row column = some (key, c.growthTo grown, grown) ∧
      grown.cellKey? row column = some key := by
  intro grown
  have tall : row < grown.rowCount := by
    rw [rowCount_growTo]
    omega
  have wide : column < grown.columnCount := by
    rw [columnCount_growTo]
    omega
  obtain ⟨key, inside⟩ := exists_cellKey? tall wide
  refine ⟨key, ?_, inside⟩
  rw [growToCell, if_pos ⟨ar, ac⟩]
  exact Option.map_eq_some_iff.mpr ⟨key, inside, rfl⟩

/-- A cell of the table is found without any change. -/
theorem growToCell_of_cellKey? {row column : Nat} {key : CellKey} (ar : row < unaddressable)
    (ac : column < unaddressable) (inside : c.cellKey? row column = some key) :
    c.growToCell row column = some (key, c.growthTo c, c) := by
  obtain ⟨r, s, at_row, at_column, -⟩ := (cellKey?_eq_some c row column).mp inside
  have same : c.growTo (row + 1) (column + 1) = c :=
    growTo_of_le (Stripes.idAt_lt at_row) (Stripes.idAt_lt at_column)
  obtain ⟨key', found, key_eq⟩ := growToCell_eq c ar ac
  rw [same] at found key_eq
  obtain rfl : key = key' := Option.some.inj (inside.symm.trans key_eq)
  exact found

/-- A title that is there is found without any change. -/
theorem growToTitle_of_some {title : String} {position : Nat}
    (known : (c.stripes axis).positionOfTitle title = some position) :
    c.growToTitle axis title = (position, {}, c) := by
  rw [growToTitle, known]

/-- What growing to a title reports. -/
theorem growth_growToTitle (c : Content α) (axis : Axis) (title : String) :
    (c.growToTitle axis title).2.1 =
      if ((c.stripes axis).positionOfTitle title).isSome then {}
        else c.growthTo (c.growToTitle axis title).2.2 := by
  rw [growToTitle]
  cases (c.stripes axis).positionOfTitle title with
  | some position => rfl
  | none =>
    have counts (b : Axis) (grown : Content α) (p : Nat) (given : Option String) :
        (grown.setTitle axis p given).count b = grown.count b := by
      rw [count_eq, ids_setTitle, ← count_eq]
    simp [growthTo, rowCount, columnCount, counts]

/-- A content grows by itself as a table grows with its observers.  For every cell that a table can reach
    it gives the address that the cell has afterwards and the positions of the stripes that were
    appended; these have no title and meet null cells, everything else is where it was, and asking again
    gives the same address and appends nothing.  What is left is the content of a table that grew to the
    same size.  Growing to a title leaves the position and the content that a table leaves which looks
    for the title, and both find it at once when they are asked again. -/
theorem growth_alike (reached : c.Reachable) (observers : ω) (tell : ω → Notice α → ω) :
    let e : Edit α ω := ⟨c, observers, tell⟩
    (∀ row column, row < unaddressable → column < unaddressable → ∃ key grown,
      c.growToCell row column =
        some (key, ⟨(c.rowCount, grown.rowCount), (c.columnCount, grown.columnCount)⟩, grown) ∧
      grown.cellKey? row column = some key ∧
      c.Grows (Axis.pick (List.replicate (row + 1 - c.rowCount) none)
        (List.replicate (column + 1 - c.columnCount) none)) grown ∧
      (∃ growth, grown.growToCell row column = some (key, growth, grown) ∧ growth.isEmpty) ∧
      (e.growTo (row + 1) (column + 1)).content = grown) ∧
    ∀ axis title, ∃ position growth grown,
      c.growToTitle axis title = (position, growth, grown) ∧
      (growth = if ((c.stripes axis).positionOfTitle title).isSome then {} else
        ⟨(c.rowCount, grown.rowCount), (c.columnCount, grown.columnCount)⟩) ∧
      c.Grows (axis.only (c.lacking axis title)) grown ∧
      (e.positionForTitle axis title).1 = position ∧
      (e.positionForTitle axis title).2.content = grown ∧
      grown.growToTitle axis title = (position, {}, grown) ∧
      (e.positionForTitle axis title).2.positionForTitle axis title = e.positionForTitle axis title := by
  intro e
  refine ⟨fun row column ar ac => ?_, fun axis title => ?_⟩
  · obtain ⟨key, found, inside⟩ := growToCell_eq c ar ac
    exact ⟨key, c.growTo (row + 1) (column + 1), found, inside, reached.valid.grows_growTo _ _,
      ⟨_, growToCell_of_cellKey? ar ac inside, by simp [Growth.isEmpty, growthTo]⟩, Edit.content_growTo ..⟩
  · obtain ⟨-, grows, known⟩ := reached.valid.grows_growToTitle axis title
    obtain ⟨position, content⟩ := e.positionForTitle_content axis title
    have known' : ((e.positionForTitle axis title).2.content.stripes axis).positionOfTitle title =
        some (e.positionForTitle axis title).1 := by
      rw [content, position]
      exact known
    exact ⟨_, _, _, rfl, growth_growToTitle c axis title, grows, position, content, growToTitle_of_some known,
      Edit.positionForTitle_of_some known'⟩

/-- A table that was turned over grows by a row and a column, and by the column of a title. -/
theorem growth_alike_turned :
    let c := run (.rows [[some "a", none], [some "b", some "c"]]) [.setTitle .row 0 (some "t"), .transpose]
    c.Reachable ∧
      (∃ key grown, c.growToCell 2 2 = some (key, ⟨(2, 3), (2, 3)⟩, grown) ∧ grown.cellKey? 2 2 = some key ∧
        grown.titles .column = [some "t", none, none] ∧ grown.element 1 1 = some "c") ∧
      ∃ growth grown, c.growToTitle .column "u" = (2, growth, grown) ∧
        grown.titles .column = [some "t", none, some "u"] ∧
          grown.growToTitle .column "u" = (2, {}, grown) := by
  intro c
  have reached : c.Reachable := ⟨.rows _, _, rfl⟩
  obtain ⟨cells, titles⟩ := growth_alike reached () fun _ _ => ()
  have rows : c.rowCount = 2 := by decide +kernel
  have columns : c.columnCount = 2 := by decide +kernel
  have headed : c.titles .column = [some "t", none] := by decide +kernel
  refine ⟨reached, ?_, ?_⟩
  · obtain ⟨key, grown, found, inside, grows, -⟩ := cells 2 2 (by decide) (by decide)
    have tall : grown.rowCount = 3 := (grows.count .row).trans (by decide +kernel)
    have wide : grown.columnCount = 3 := (grows.count .column).trans (by decide +kernel)
    rw [rows, columns, tall, wide] at found
    refine ⟨key, grown, found, inside, (grows.titles .column).trans ?_, (grows.elements 1 1).trans ?_⟩
    · decide +kernel
    · decide +kernel
  · obtain ⟨position, growth, grown, found, -, grows, -, -, again, -⟩ := titles .column "u"
    have place : position = 2 := (congrArg Prod.fst found).symm.trans (by decide +kernel)
    rw [place] at found again
    exact ⟨growth, grown, found, (grows.titles .column).trans (by decide +kernel), again⟩

end Content

end LiveTable
