import LiveTable.Proofs.Edit.Steps

/-! An operation does the same to a table whoever observes it.  Two edits are alike when they edit the
    same content and their observers are related, and stay related whatever both are told.  Every
    operation gives the same result on alike edits and leaves them alike.  So it is enough to know what
    an operation does when its notices are only written down: all other observers end where those
    notices, told one after the other, bring them. -/

namespace LiveTable

variable {α β ω ω' : Type}

namespace Edit

/-- Edits of the same content with related observers. -/
structure Alike (R : ω → ω' → Prop) (e : Edit α ω) (e' : Edit α ω') : Prop where
  content : e'.content = e.content
  observers : R e.observers e'.observers
  tell : ∀ o o' n, R o o' → R (e.tell o n) (e'.tell o' n)

/-- The same result with alike edits. -/
structure AlikeWith (R : ω → ω' → Prop) (r : β × Edit α ω) (r' : β × Edit α ω') : Prop where
  result : r'.1 = r.1
  edit : Alike R r.2 r'.2

/-- Turning a result into an outcome keeps edits alike. -/
theorem AlikeWith.giving {R : ω → ω' → Prop} {r : β × Edit α ω} {r' : β × Edit α ω'} (h : AlikeWith R r r')
    (outcome : β → Outcome α) : AlikeWith R (Outcome.giving outcome r) (Outcome.giving outcome r') :=
  ⟨congrArg outcome h.result, h.edit⟩

namespace Alike

variable {R : ω → ω' → Prop} {e : Edit α ω} {e' : Edit α ω'}

theorem announce (h : Alike R e e') (change : Content α → Content α) (event : Event α) :
    Alike R (e.announce change event) (e'.announce change event) := by
  cases e
  cases e'
  obtain ⟨rfl, observers, tell⟩ := h
  exact ⟨rfl, tell _ _ _ observers, tell⟩

theorem quietly (h : Alike R e e') (change : Content α → Content α) :
    Alike R (e.quietly change) (e'.quietly change) := by
  cases e
  cases e'
  obtain ⟨rfl, observers, tell⟩ := h
  exact ⟨rfl, observers, tell⟩

/-- Doing something alike once for each member of a list. -/
theorem foldl {f : Edit α ω → β → Edit α ω} {f' : Edit α ω' → β → Edit α ω'}
    (each : ∀ e e' b, Alike R e e' → Alike R (f e b) (f' e' b)) (l : List β) (h : Alike R e e') :
    Alike R (l.foldl f e) (l.foldl f' e') := by
  induction l generalizing e e' with
  | nil => exact h
  | cons b rest ih => exact ih (each e e' b h)

/-! ### Growing -/

theorem appendEmpty (h : Alike R e e') (axis : Axis) :
    Alike R (e.appendEmpty axis) (e'.appendEmpty axis) := by
  rw [Edit.appendEmpty, Edit.appendEmpty, h.content]
  exact h.announce _ _

theorem appendEmpties (h : Alike R e e') (axis : Axis) (n : Nat) :
    Alike R (e.appendEmpties axis n) (e'.appendEmpties axis n) := by
  induction n generalizing e e' with
  | zero => exact h
  | succ n ih => exact ih (h.appendEmpty axis)

theorem growTo (h : Alike R e e') (rows columns : Nat) :
    Alike R (e.growTo rows columns) (e'.growTo rows columns) := by
  have wide := h.appendEmpties .column (columns - e.content.columnCount)
  simp only [Edit.growTo, h.content, wide.content]
  exact wide.appendEmpties .row _

theorem growAlong (h : Alike R e e') (axis : Axis) (own other : Nat) :
    Alike R (e.growAlong axis own other) (e'.growAlong axis own other) := by
  cases axis
  · exact h.growTo own other
  · exact h.growTo other own

/-! ### Cells -/

section Cells

variable [DecidableEq α]

theorem setElement (h : Alike R e e') (row column : Nat) (element : Option α) :
    AlikeWith R (e.setElement row column element) (e'.setElement row column element) := by
  have grown := h.growTo (row + 1) (column + 1)
  simp only [Edit.setElement, grown.content]
  split
  · refine ⟨rfl, ?_⟩
    dsimp only
    split
    · exact grown.quietly _
    · exact grown.announce _ _
  · exact ⟨rfl, h⟩

omit [DecidableEq α] in
theorem removeElement (h : Alike R e e') (row column : Nat) :
    AlikeWith R (e.removeElement row column) (e'.removeElement row column) := by
  simp only [Edit.removeElement, h.content]
  refine ⟨rfl, ?_⟩
  dsimp only
  split
  · exact h.announce _ _
  · exact h.quietly _

theorem writeAlong (h : Alike R e e') (axis : Axis) (position index : Nat)
    (elements : List (Option α)) (n : Nat) :
    Alike R (e.writeAlong axis position index elements n) (e'.writeAlong axis position index elements n) := by
  induction n generalizing e e' index elements with
  | zero => exact h
  | succ n ih => exact ih (h.setElement _ _ _).edit _ _

theorem convertAlong (h : Alike R e e') (axis : Axis) (position index : Nat)
    (f : Option α → Option α) (n : Nat) :
    Alike R (e.convertAlong axis position index f n) (e'.convertAlong axis position index f n) := by
  induction n generalizing e e' index with
  | zero => exact h
  | succ n ih =>
    rw [Edit.convertAlong, Edit.convertAlong, h.content]
    exact ih (h.setElement _ _ _).edit _

theorem convertRows (h : Alike R e e') (start stop : Nat) (f : Option α → Option α) :
    Alike R (e.convertRows start stop f) (e'.convertRows start stop f) := by
  rw [Edit.convertRows, Edit.convertRows, h.content]
  refine h.foldl (fun e e' row h => ?_) _
  rw [h.content]
  exact h.convertAlong .row row 0 f _

end Cells

/-! ### Stripes -/

theorem insertElements (h : Alike R e e') (axis : Axis) (position : Nat) (elements : List (Option α)) :
    AlikeWith R (e.insertElements axis position elements) (e'.insertElements axis position elements) := by
  have grown := h.growAlong axis position elements.length
  simp only [Edit.insertElements, grown.content]
  exact ⟨rfl, grown.announce (·.insertStripe axis position elements) _⟩

theorem addElements (h : Alike R e e') (axis : Axis) (elements : List (Option α)) :
    AlikeWith R (e.addElements axis elements) (e'.addElements axis elements) := by
  rw [Edit.addElements, Edit.addElements, h.content]
  exact h.insertElements axis _ elements

theorem setElements [DecidableEq α] (h : Alike R e e') (axis : Axis) (position : Nat)
    (elements : List (Option α)) :
    Alike R (e.setElements axis position elements) (e'.setElements axis position elements) := by
  have grown := h.growAlong axis (position + 1) elements.length
  simp only [Edit.setElements, grown.content]
  split
  · exact grown.writeAlong axis position 0 elements _
  · exact h

theorem removeAt (h : Alike R e e') (axis : Axis) (position : Nat) :
    AlikeWith R (e.removeAt axis position) (e'.removeAt axis position) := by
  simp only [Edit.removeAt, h.content]
  split
  · exact ⟨rfl, h.announce (·.removeStripe axis position) _⟩
  · exact ⟨rfl, h⟩

theorem swap (h : Alike R e e') (axis : Axis) (a b : Nat) :
    AlikeWith R (e.swap axis a b) (e'.swap axis a b) := by
  simp only [Edit.swap, h.content]
  split
  · refine ⟨rfl, ?_⟩
    dsimp only
    split
    · exact h.quietly _
    · exact h.announce _ _
  · exact ⟨rfl, h⟩

theorem moveRow (h : Alike R e e') (source target : Nat) :
    AlikeWith R (e.moveRow source target) (e'.moveRow source target) := by
  simp only [Edit.moveRow, h.content]
  split
  · refine ⟨rfl, ?_⟩
    dsimp only
    split
    · exact h.quietly _
    · exact h.announce _ _
  · exact ⟨rfl, h⟩

theorem sortRows (h : Alike R e e') (column : Nat) (descending : Bool) (order : α → α → Ordering) :
    AlikeWith R (e.sortRows column descending order) (e'.sortRows column descending order) := by
  simp only [Edit.sortRows, h.content]
  split
  · exact ⟨rfl, h⟩
  · refine ⟨rfl, ?_⟩
    dsimp only
    split
    · exact h
    · exact h.announce _ _

/-! ### Titles -/

theorem putTitle (h : Alike R e e') (axis : Axis) (position : Nat) (title : Option String) :
    Alike R (e.putTitle axis position title) (e'.putTitle axis position title) := by
  simp only [Edit.putTitle]
  split
  · exact (h.growAlong axis _ 0).quietly _
  · exact h

theorem putTitles (h : Alike R e e') (axis : Axis) (titles : List String) :
    Alike R (e.putTitles axis titles) (e'.putTitles axis titles) :=
  h.foldl (fun _ _ entry h => h.putTitle axis entry.2 (some entry.1)) titles.zipIdx

theorem positionForTitle (h : Alike R e e') (axis : Axis) (title : String) :
    AlikeWith R (e.positionForTitle axis title) (e'.positionForTitle axis title) := by
  simp only [Edit.positionForTitle, h.content]
  split
  · exact ⟨rfl, h⟩
  · exact ⟨rfl, (h.growAlong axis _ 0).quietly (·.setTitle axis _ (some title))⟩

theorem placeEntry (create : Bool) {row : List (Option α) × Edit α ω} {row' : List (Option α) × Edit α ω'}
    (h : AlikeWith R row row') (entry : String × Option α) :
    AlikeWith R (Edit.placeEntry create row entry) (Edit.placeEntry create row' entry) := by
  have column := h.edit.positionForTitle .column entry.1
  simp only [Edit.placeEntry, h.edit.content, h.result, column.result]
  split
  · exact ⟨rfl, h.edit⟩
  · split
    · exact ⟨rfl, column.edit⟩
    · exact h

theorem addEntries (h : Alike R e e') (entries : List (String × Option α)) (create : Bool) :
    AlikeWith R (e.addEntries entries create) (e'.addEntries entries create) := by
  have placed :
      ∀ (row : List (Option α) × Edit α ω) (row' : List (Option α) × Edit α ω'), AlikeWith R row row' →
      AlikeWith R (entries.foldl (Edit.placeEntry create) row)
        (entries.foldl (Edit.placeEntry create) row') := by
    induction entries with
    | nil => exact fun _ _ h => h
    | cons entry rest ih => exact fun _ _ h => ih _ _ (placeEntry create h entry)
  have row := placed ([], e) ([], e') ⟨rfl, h⟩
  simp only [Edit.addEntries, row.result]
  exact row.edit.addElements .row _

theorem titlesFromFirst [Element α] (h : Alike R e e') (axis : Axis) :
    Alike R (e.titlesFromFirst axis) (e'.titlesFromFirst axis) := by
  simp only [Edit.titlesFromFirst, h.content]
  split
  · exact ((h.quietly _).removeAt axis.cross 0).edit
  · exact h

theorem replace (h : Alike R e e') (source : Content α) : Alike R (e.replace source) (e'.replace source) := by
  have named : Alike R (e.clear.quietly ({ · with name := source.name }))
      (e'.clear.quietly ({ · with name := source.name })) := (h.announce Content.clear .cleared).quietly _
  exact ((named.growTo 0 source.columnCount).foldl
    (fun _ _ row h => (h.addElements .row row).edit) source.toRows).quietly
      fun c => (c.setTitles .row (source.titles .row)).setTitles .column (source.titles .column)

/-! ### Operations -/

theorem viaStripe [DecidableEq α] (h : Alike R e e') (ref : StripeRef) (operation : StripeOperation α) :
    AlikeWith R (operation.run ref e) (operation.run ref e') := by
  cases operation with
  | setElement index element =>
    simp only [StripeOperation.run, StripeRef.setElement, h.content]
    split
    · exact (h.setElement _ _ element).giving _
    · exact ⟨rfl, h⟩
  | setElements elements =>
    simp only [StripeOperation.run, Outcome.quiet, StripeRef.setElements, h.content]
    split
    · exact ⟨rfl, h.writeAlong _ _ _ _ _⟩
    · exact ⟨rfl, h⟩
  | convert f =>
    simp only [StripeOperation.run, Outcome.quiet, StripeRef.convert, h.content]
    split
    · exact ⟨rfl, h.convertAlong _ _ _ _ _⟩
    · exact ⟨rfl, h⟩
  | putTitle title =>
    simp only [StripeOperation.run, Outcome.quiet, StripeRef.putTitle, h.content]
    split
    · exact ⟨rfl, h.putTitle _ _ _⟩
    · exact ⟨rfl, h⟩
  | remove =>
    simp only [StripeOperation.run, StripeRef.remove, h.content]
    split
    · exact (h.removeAt ref.axis _).giving _
    · exact ⟨rfl, h⟩
  | switchWith other =>
    simp only [StripeOperation.run, StripeRef.switchWith, h.content]
    split
    · exact (h.swap ref.axis _ other).giving _
    · exact ⟨rfl, h⟩
  | moveTo target =>
    simp only [StripeOperation.run, StripeRef.moveTo, h.content]
    split
    · exact (h.moveRow _ target).giving _
    · exact ⟨rfl, h⟩

theorem viaCell [DecidableEq α] (h : Alike R e e') (ref : CellRef) (operation : CellOperation α) :
    AlikeWith R (operation.run ref e) (operation.run ref e') := by
  cases operation with
  | setElement element =>
    simp only [CellOperation.run, CellRef.setElement, h.content]
    split
    · exact (h.setElement _ _ element).giving _
    · exact ⟨rfl, h⟩
  | clear =>
    simp only [CellOperation.run, CellRef.clear, h.content]
    split
    · exact (h.removeElement _ _).giving _
    · exact ⟨rfl, h⟩

/-- Every operation gives the same result on alike edits and leaves them alike. -/
theorem run [Element α] (h : Alike R e e') (operation : Operation α) :
    AlikeWith R (operation.run e) (operation.run e') := by
  cases operation with
  | setElement row column element => exact (h.setElement row column element).giving _
  | setElementByColumnTitle row title element =>
    have column := h.positionForTitle .column title
    simp only [Operation.run, Edit.setElementByColumnTitle, column.result]
    exact (column.edit.setElement row _ element).giving _
  | setElementByRowTitle title column element =>
    have row := h.positionForTitle .row title
    simp only [Operation.run, Edit.setElementByRowTitle, row.result]
    exact (row.edit.setElement _ column element).giving _
  | setElementAt rowTitle columnTitle element =>
    have row := h.positionForTitle .row rowTitle
    have column := row.edit.positionForTitle .column columnTitle
    simp only [Operation.run, Edit.setElementAt, row.result, column.result]
    exact (column.edit.setElement _ _ element).giving _
  | removeElement row column => exact (h.removeElement row column).giving _
  | insertElements axis position elements => exact (h.insertElements axis position elements).giving _
  | addElements axis elements => exact (h.addElements axis elements).giving _
  | addEntries entries create => exact (h.addEntries entries create).giving _
  | setElements axis position elements => exact ⟨rfl, h.setElements axis position elements⟩
  | removeAt axis position => exact (h.removeAt axis position).giving _
  | swap axis a b => exact (h.swap axis a b).giving _
  | moveRow source target => exact (h.moveRow source target).giving _
  | transpose => exact ⟨rfl, h.announce _ _⟩
  | clear => exact ⟨rfl, h.announce _ _⟩
  | setName name => exact ⟨rfl, h.quietly ({ · with name := some name })⟩
  | putTitle axis position title => exact ⟨rfl, h.putTitle axis position _⟩
  | clearTitle axis position => exact ⟨rfl, h.quietly (·.setTitle axis position none)⟩
  | putTitles axis titles => exact ⟨rfl, h.putTitles axis titles⟩
  | addColumnTitle title =>
    simp only [Operation.run, Edit.addColumnTitle, h.content]
    exact ⟨rfl, h.putTitle .column _ _⟩
  | titlesFromFirst axis => exact ⟨rfl, h.titlesFromFirst axis⟩
  | sortRows column descending order => exact (h.sortRows column descending order).giving _
  | convertRows start stop f => exact ⟨rfl, h.convertRows start stop f⟩
  | replace source => exact ⟨rfl, h.replace source⟩
  | viaStripe ref operation => exact h.viaStripe ref operation
  | viaCell ref operation => exact h.viaCell ref operation

/-- So does putting the rows of a store into a table. -/
theorem hydrate (h : Alike R e e') (stored : List (Option Nat × List (Option α))) :
    AlikeWith R (Edit.hydrate stored e) (Edit.hydrate stored e') := by
  rw [Edit.hydrate, Edit.hydrate]
  generalize ([] : List StripeId) = loaded
  induction stored generalizing e e' loaded with
  | nil => exact ⟨rfl, h⟩
  | cons row rest ih =>
    obtain ⟨position?, elements⟩ := row
    cases position? with
    | none =>
      have added := h.addElements .row elements
      simp only [List.foldl_cons, added.result, added.edit.content]
      exact ih added.edit _
    | some position =>
      have added := h.insertElements .row position elements
      simp only [List.foldl_cons, added.result, added.edit.content]
      exact ih added.edit _

end Alike

/-- The edit of a table whose notices are only written down. -/
def recorded (c : Content α) : Edit α (List (Notice α)) := ⟨c, [], fun told n => told ++ [n]⟩

/-- Observers that have been told the notices written down so far. -/
theorem alike_recorded (e : Edit α ω) :
    Alike (fun told observers => observers = told.foldl e.tell e.observers) (recorded e.content) e :=
  ⟨rfl, rfl, fun told _ n same => by simp [recorded, same]⟩

end Edit

namespace Operation

variable [Element α]

/-- What an operation gives back, done to a table with this content. -/
def result (operation : Operation α) (c : Content α) : Outcome α := (operation.run (Edit.recorded c)).1

/-- The content that an operation leaves. -/
def leaves (operation : Operation α) (c : Content α) : Content α :=
  (operation.run (Edit.recorded c)).2.content

/-- The notices that an operation gives, in their order. -/
def told (operation : Operation α) (c : Content α) : List (Notice α) :=
  (operation.run (Edit.recorded c)).2.observers

/-- Result, content and notices of an operation are the same whoever observes it. -/
theorem run_spec (operation : Operation α) (e : Edit α ω) :
    (operation.run e).1 = operation.result e.content ∧
      (operation.run e).2.content = operation.leaves e.content ∧
        (operation.run e).2.observers = (operation.told e.content).foldl e.tell e.observers :=
  have alike := (Edit.alike_recorded e).run operation
  ⟨alike.result, alike.edit.content, alike.edit.observers⟩

end Operation

end LiveTable
