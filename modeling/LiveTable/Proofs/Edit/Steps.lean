import LiveTable.Proofs.Content.Lines
import LiveTable.Proofs.Content.Run
import LiveTable.Workspace.Attach
import Mathlib.Logic.Relation

/-! Every operation is a sequence of steps.  A step changes the content once: either the change is one
    that observers are told about, and they are told at once, or it is one that goes unannounced.
    Whatever one step preserves is therefore preserved by every operation, in whatever state it finds the
    table.  The scope of an operation says beforehand what its steps keep to: it takes single stripes out
    of one direction at most, leaving the titles of that direction alone, and most operations never
    change the order of stripes or empty the table. -/

namespace LiveTable

variable {α ω : Type}

/-- A change that observers are told about, and the event that tells of it. -/
inductive Content.Shift (c : Content α) : Event α → Content α → Prop where
  | inserted (axis : Axis) (position : Nat) (elements : List (Option α)) :
      Shift c (.added axis (min position (c.count axis))) (c.insertStripe axis position elements)
  | removed {axis : Axis} {position : Nat} {stripe : Removed α}
      (found : c.removed? axis position = some stripe) :
      Shift c (.removed axis position stripe) (c.removeStripe axis position)
  | written {row column : Nat} {k : CellKey} {element : Option α} (inside : c.cellKey? row column = some k)
      (other : c.element row column ≠ element) :
      Shift c (.updatedCell row column (c.element row column)) (c.set row column element)
  | cleared : Shift c .cleared c.clear
  | swapped {axis : Axis} {a b : Nat} (both : c.hasBoth axis a b) (other : a ≠ b) :
      Shift c .reordered (c.swap axis a b)
  | moved {source target : Nat} (both : c.hasBoth .row source target) (other : source ≠ target) :
      Shift c .reordered (c.moveRow source target)
  | sorted (order : List Nat) (perm : order.Perm (List.range c.rowCount))
      (other : order ≠ List.range c.rowCount) :
      Shift c .reordered (c.reorderRows order)
  | turned : Shift c .transposed c.transpose

/-- A change that goes unannounced: of a title or the name, or one that leaves every element where it is. -/
inductive Content.Still (c : Content α) : Content α → Prop where
  | titled (axis : Axis) (position : Nat) (title : Option String) : Still c (c.setTitle axis position title)
  | renamed (name : Option String) : Still c { c with name := name }
  | rewritten (row column : Nat) : Still c (c.set row column (c.element row column))
  | swapped (axis : Axis) (a : Nat) : Still c (c.swap axis a a)
  | moved (a : Nat) : Still c (c.moveRow a a)

/-- Either kind of change is one that a run of changes can make. -/
theorem Content.Shift.exists_change {c c' : Content α} {event : Event α} (shift : c.Shift event c') :
    ∃ change : Change α, c' = change.apply c := by
  cases shift with
  | inserted axis position elements => exact ⟨.insert axis position elements, rfl⟩
  | removed => exact ⟨.remove _ _, rfl⟩
  | written => exact ⟨.set _ _ _, rfl⟩
  | cleared => exact ⟨.clear, rfl⟩
  | swapped => exact ⟨.swap _ _ _, rfl⟩
  | moved => exact ⟨.moveRow _ _, rfl⟩
  | sorted order => exact ⟨.reorderRows order, rfl⟩
  | turned => exact ⟨.transpose, rfl⟩

theorem Content.Still.exists_change {c c' : Content α} (still : c.Still c') :
    ∃ change : Change α, c' = change.apply c := by
  cases still with
  | titled axis position title => exact ⟨.setTitle axis position title, rfl⟩
  | renamed name => exact ⟨.rename name, rfl⟩
  | rewritten row column => exact ⟨.set row column _, rfl⟩
  | swapped axis a => exact ⟨.swap axis a a, rfl⟩
  | moved a => exact ⟨.moveRow a a, rfl⟩

theorem Content.Shift.valid {c c' : Content α} {event : Event α} (shift : c.Shift event c') (h : c.Valid) :
    c'.Valid := by
  obtain ⟨change, rfl⟩ := shift.exists_change
  exact h.change change

theorem Content.Still.valid {c c' : Content α} (still : c.Still c') (h : c.Valid) : c'.Valid := by
  obtain ⟨change, rfl⟩ := still.exists_change
  exact h.change change

/-- What the changes of an operation keep to. -/
structure Scope where
  /-- The direction that single stripes are taken out of; the titles there are left alone. -/
  thinned : Option Axis := none
  /-- Whether stripes that stay may come to stand in another order. -/
  reorders : Bool := false
  /-- Whether all stripes may be taken out at once. -/
  clears : Bool := false

/-- What one event keeps to. -/
def Event.scope : Event α → Scope
  | .removed axis _ _ => { thinned := some axis }
  | .reordered => { reorders := true }
  | .cleared => { clears := true }
  | _ => {}

/-- An event keeps to a scope. -/
structure Scope.Admits (scope : Scope) (event : Event α) : Prop where
  thinned : ∀ axis, event.scope.thinned = some axis → scope.thinned = some axis
  reorders : event.scope.reorders → scope.reorders
  clears : event.scope.clears → scope.clears

/-- The scope of an operation through a reference. -/
def StripeOperation.scope (h : StripeRef) : StripeOperation α → Scope
  | remove => { thinned := some h.axis }
  | switchWith _ => { reorders := true }
  | moveTo _ => { reorders := true }
  | _ => {}

/-- The scope of an operation. -/
def Operation.scope : Operation α → Scope
  | removeAt axis _ => { thinned := some axis }
  | titlesFromFirst axis => { thinned := some axis.cross }
  | swap _ _ _ => { reorders := true }
  | moveRow _ _ => { reorders := true }
  | sortRows _ _ _ => { reorders := true }
  | clear => { clears := true }
  | replace _ => { clears := true }
  | viaStripe h operation => operation.scope h
  | _ => {}

namespace Edit

/-- One change within an edit, with the notice of it if it is announced.  It keeps to the given scope. -/
inductive Step (scope : Scope) : Edit α ω → Edit α ω → Prop where
  | announced {c c' : Content α} {event : Event α} {observers : ω} {tell : ω → Notice α → ω}
      (shift : c.Shift event c') (within : scope.Admits event) :
      Step scope ⟨c, observers, tell⟩ ⟨c', tell observers ⟨event, c'⟩, tell⟩
  | quiet {c c' : Content α} {observers : ω} {tell : ω → Notice α → ω} (still : c.Still c')
      (titled : ∀ axis, scope.thinned = some axis → c'.titles axis = c.titles axis) :
      Step scope ⟨c, observers, tell⟩ ⟨c', observers, tell⟩

/-- Any number of changes, one after the other. -/
def Steps (scope : Scope) : Edit α ω → Edit α ω → Prop := Relation.ReflTransGen (Step scope)

namespace Steps

variable {e e' e'' : Edit α ω} {scope : Scope}

theorem refl (e : Edit α ω) : e.Steps scope e := Relation.ReflTransGen.refl

theorem trans (first : e.Steps scope e') (later : e'.Steps scope e'') : e.Steps scope e'' :=
  Relation.ReflTransGen.trans first later

/-- What every step preserves, any number of steps preserve. -/
theorem preserve {P : Edit α ω → Prop} (step : ∀ e e', Step scope e e' → P e → P e')
    (steps : e.Steps scope e') (h : P e) : P e' := by
  induction steps with
  | refl => exact h
  | tail _ last ih => exact step _ _ last ih

theorem valid (steps : e.Steps scope e') (h : e.content.Valid) : e'.content.Valid := by
  refine steps.preserve (P := fun e => e.content.Valid) (fun e e' step h => ?_) h
  cases step with
  | announced shift => exact shift.valid h
  | quiet still => exact still.valid h

theorem reachable (steps : e.Steps scope e') (h : e.content.Reachable) : e'.content.Reachable := by
  refine steps.preserve (P := fun e => e.content.Reachable) (fun e e' step h => ?_) h
  have change : ∃ change : Content.Change α, e'.content = change.apply e.content := by
    cases step with
    | announced shift => exact shift.exists_change
    | quiet still => exact still.exists_change
  obtain ⟨change, same⟩ := change
  exact same ▸ h.change change

/-- Observers come and go only between operations. -/
theorem tell_eq (steps : e.Steps scope e') : e'.tell = e.tell :=
  steps.preserve (P := fun e' => e'.tell = e.tell)
    (fun _ _ step same => by cases step <;> exact same) rfl

/-- What keeps to the least of scopes may be done where the order may change or the table be emptied. -/
theorem widen (steps : e.Steps {} e') (titled : scope.thinned = none) : e.Steps scope e' := by
  induction steps with
  | refl => exact .refl e
  | tail _ last ih =>
    refine Relation.ReflTransGen.tail ih ?_
    cases last with
    | announced shift within =>
      refine .announced shift ⟨fun axis here => ?_, fun here => ?_, fun here => ?_⟩
      · cases within.thinned axis here
      · cases within.reorders here
      · cases within.clears here
    | quiet still => exact .quiet still fun axis here => nomatch titled.symm.trans here

end Steps

variable (e : Edit α ω)

theorem steps_announce (change : Content α → Content α) {event : Event α} {scope : Scope}
    (shift : e.content.Shift event (change e.content)) (within : event.scope = scope) :
    e.Steps scope (e.announce change event) := by
  cases e
  exact .single (.announced shift (within ▸ ⟨fun _ => id, id, id⟩))

theorem steps_quietly (change : Content α → Content α) (still : e.content.Still (change e.content)) :
    e.Steps {} (e.quietly change) := by
  cases e
  exact .single (.quiet still nofun)

@[simp] theorem content_announce (change : Content α → Content α) (event : Event α) :
    (e.announce change event).content = change e.content := by
  cases e
  rfl

@[simp] theorem content_quietly (change : Content α → Content α) :
    (e.quietly change).content = change e.content := by
  cases e
  rfl

/-! ### Growing -/

theorem steps_appendEmpty (axis : Axis) : e.Steps {} (e.appendEmpty axis) := by
  refine steps_announce e _ ?_ rfl
  have place : min (e.content.count axis) (e.content.count axis) = e.content.count axis := Nat.min_self _
  rw [← place]
  exact .inserted axis (e.content.count axis) []

theorem steps_appendEmpties (axis : Axis) (n : Nat) : e.Steps {} (e.appendEmpties axis n) := by
  induction n generalizing e with
  | zero => exact .refl e
  | succ n ih => exact (steps_appendEmpty e axis).trans (ih _)

theorem content_appendEmpties (axis : Axis) (n : Nat) :
    (e.appendEmpties axis n).content = e.content.appendEmpties axis n := by
  induction n generalizing e with
  | zero => rfl
  | succ n ih => rw [appendEmpties, ih, appendEmpty, content_announce, Content.appendEmpties]

theorem steps_growTo (rows columns : Nat) : e.Steps {} (e.growTo rows columns) :=
  (steps_appendEmpties e .column _).trans (steps_appendEmpties _ .row _)

@[simp] theorem content_growTo (rows columns : Nat) :
    (e.growTo rows columns).content = e.content.growTo rows columns := by
  rw [growTo, content_appendEmpties, content_appendEmpties, Content.growTo]

theorem steps_growAlong (axis : Axis) (own other : Nat) : e.Steps {} (e.growAlong axis own other) := by
  cases axis
  · exact steps_growTo e own other
  · exact steps_growTo e other own

/-- One stripe more than there are is one stripe appended. -/
theorem growAlong_succ (axis : Axis) :
    e.growAlong axis (e.content.count axis + 1) 0 = e.appendEmpty axis := by
  cases axis with
  | row =>
    have wide : e.appendEmpties .column (0 - e.content.columnCount) = e := by rw [Nat.zero_sub, appendEmpties]
    have one : e.content.count .row + 1 - e.content.rowCount = 1 := Nat.add_sub_cancel_left ..
    rw [growAlong, growTo, wide, one]
    rfl
  | column =>
    have one : e.content.count .column + 1 - e.content.columnCount = 1 := Nat.add_sub_cancel_left ..
    rw [growAlong, growTo, one, Nat.zero_sub]
    rfl

/-! ### Cells -/

theorem steps_setElement [DecidableEq α] (row column : Nat) (element : Option α) :
    e.Steps {} (e.setElement row column element).2 := by
  simp only [setElement]
  split
  · refine (steps_growTo e (row + 1) (column + 1)).trans ?_
    dsimp only
    split
    · next same =>
      subst same
      exact steps_quietly _ _ (.rewritten row column)
    · next other =>
      have hr : row < (e.growTo (row + 1) (column + 1)).content.rowCount := by
        rw [content_growTo, Content.rowCount_growTo]
        omega
      have hc : column < (e.growTo (row + 1) (column + 1)).content.columnCount := by
        rw [content_growTo, Content.columnCount_growTo]
        omega
      obtain ⟨k, inside⟩ := Content.exists_cellKey? hr hc
      exact steps_announce _ _ (.written inside other) rfl
  · exact .refl e

theorem steps_removeElement (row column : Nat) : e.Steps {} (e.removeElement row column).2 := by
  simp only [removeElement]
  split
  · next some =>
    obtain ⟨x, previous⟩ := Option.isSome_iff_exists.mp some
    have inside : ∃ k, e.content.cellKey? row column = Option.some k := by
      obtain ⟨k, key, -⟩ := Option.bind_eq_some_iff.mp previous
      exact ⟨k, key⟩
    obtain ⟨k, inside⟩ := inside
    exact steps_announce e _ (.written inside (by simp [previous])) rfl
  · next null =>
    have previous : e.content.element row column = none := by simpa using null
    have still := Content.Still.rewritten (c := e.content) row column
    rw [previous] at still
    exact steps_quietly e _ still

theorem steps_writeAlong [DecidableEq α] (axis : Axis) (position index : Nat)
    (elements : List (Option α)) (n : Nat) :
    e.Steps {} (e.writeAlong axis position index elements n) := by
  induction n generalizing e index elements with
  | zero => exact .refl e
  | succ n ih => exact (steps_setElement e _ _ _).trans (ih _ _ _)

theorem steps_convertAlong [DecidableEq α] (axis : Axis) (position index : Nat)
    (f : Option α → Option α) (n : Nat) : e.Steps {} (e.convertAlong axis position index f n) := by
  induction n generalizing e index with
  | zero => exact .refl e
  | succ n ih => exact (steps_setElement e _ _ _).trans (ih _ _)

/-- Doing something that is a sequence of steps once for each member of a list. -/
theorem steps_foldl {β : Type} {f : Edit α ω → β → Edit α ω} (each : ∀ (e : Edit α ω) b, e.Steps {} (f e b))
    (l : List β) : e.Steps {} (l.foldl f e) := by
  induction l generalizing e with
  | nil => exact .refl e
  | cons b rest ih => exact (each e b).trans (ih _)

theorem steps_convertRows [DecidableEq α] (start stop : Nat) (f : Option α → Option α) :
    e.Steps {} (e.convertRows start stop f) :=
  steps_foldl e (fun e row => steps_convertAlong e .row row 0 f _) _

/-! ### Stripes -/

theorem steps_insertElements (axis : Axis) (position : Nat) (elements : List (Option α)) :
    e.Steps {} (e.insertElements axis position elements).2 := by
  refine (steps_growAlong e axis position elements.length).trans ?_
  exact steps_announce _ (·.insertStripe axis position elements) (.inserted axis position elements) rfl

theorem content_insertElements (axis : Axis) (position : Nat) (elements : List (Option α)) :
    (e.insertElements axis position elements).2.content =
      (e.growAlong axis position elements.length).content.insertStripe axis position elements :=
  content_announce ..

theorem steps_addElements (axis : Axis) (elements : List (Option α)) :
    e.Steps {} (e.addElements axis elements).2 :=
  steps_insertElements e axis _ elements

theorem steps_setElements [DecidableEq α] (axis : Axis) (position : Nat) (elements : List (Option α)) :
    e.Steps {} (e.setElements axis position elements) := by
  rw [setElements]
  split
  · exact (steps_growAlong e axis _ _).trans (steps_writeAlong _ axis position 0 elements _)
  · exact .refl e

theorem steps_removeAt (axis : Axis) (position : Nat) :
    e.Steps { thinned := some axis } (e.removeAt axis position).2 := by
  simp only [removeAt]
  split
  · next found => exact steps_announce e (·.removeStripe axis position) (.removed found) rfl
  · exact .refl e

/-- A stripe that is there is reported when it is taken out. -/
theorem exists_removed? {c : Content α} {axis : Axis} {p : Nat} {own : StripeId}
    (at? : (c.stripes axis).idAt p = some own) : ∃ stripe, c.removed? axis p = some stripe := by
  obtain ⟨s, found, -⟩ := Option.map_eq_some_iff.mp at?
  exact ⟨_, by rw [Content.removed?, found, Content.elements?, at?]; rfl⟩

theorem content_removeAt (axis : Axis) (position : Nat) :
    (e.removeAt axis position).2.content = e.content.removeStripe axis position := by
  rw [removeAt]
  split
  · exact content_announce ..
  · next absent =>
    cases at? : (e.content.stripes axis).idAt position with
    | none => rw [Content.removeStripe_of_none _ _ _ at?]
    | some own =>
      obtain ⟨stripe, found⟩ := exists_removed? at?
      cases absent.symm.trans found

theorem content_swap (axis : Axis) (a b : Nat) : (e.swap axis a b).2.content = e.content.swap axis a b := by
  rw [swap]
  split
  · dsimp only
    split
    · exact content_quietly ..
    · exact content_announce ..
  · next apart => rw [Content.swap_of_not_hasBoth _ apart]

theorem content_moveRow (source target : Nat) :
    (e.moveRow source target).2.content = e.content.moveRow source target := by
  rw [moveRow]
  split
  · dsimp only
    split
    · exact content_quietly ..
    · exact content_announce ..
  · next apart => rw [Content.moveRow_of_not_hasBoth _ apart]

/-- Sorting rearranges the rows, or it leaves the table as it is. -/
theorem content_sortRows (column : Nat) (descending : Bool) (order : α → α → Ordering) :
    (e.sortRows column descending order).2.content = e.content ∨
      ∃ places, (e.sortRows column descending order).2.content = e.content.reorderRows places := by
  rw [sortRows]
  split
  · exact .inl rfl
  · dsimp only
    split
    · exact .inl rfl
    · exact .inr ⟨_, content_announce ..⟩

theorem steps_swap (axis : Axis) (a b : Nat) : e.Steps { reorders := true } (e.swap axis a b).2 := by
  simp only [swap]
  split
  · next both =>
    dsimp only
    split
    · next same =>
      subst same
      exact (steps_quietly e _ (.swapped axis a)).widen rfl
    · next other => exact steps_announce e _ (.swapped both other) rfl
  · exact .refl e

theorem steps_moveRow (source target : Nat) : e.Steps { reorders := true } (e.moveRow source target).2 := by
  simp only [moveRow]
  split
  · next both =>
    dsimp only
    split
    · next same =>
      subst same
      exact (steps_quietly e _ (.moved source)).widen rfl
    · next other => exact steps_announce e _ (.moved both other) rfl
  · exact .refl e

/-- Sorting keys names every position once. -/
theorem perm_sortedPositions (order : α → α → Ordering) (descending : Bool) (keys : List (Option α)) :
    (sortedPositions order descending keys).Perm (List.range keys.length) := by
  have positions : keys.zipIdx.map Prod.snd = List.range keys.length := by simp [List.range_eq_range']
  rw [← positions]
  exact (List.mergeSort_perm ..).map Prod.snd

theorem steps_sortRows (column : Nat) (descending : Bool) (order : α → α → Ordering) :
    e.Steps { reorders := true } (e.sortRows column descending order).2 := by
  simp only [sortRows]
  split
  · exact .refl e
  · next keys column? =>
    have length : keys.length = e.content.rowCount := by
      rw [Content.columnElements?, Content.elements?_eq] at column?
      exact Content.length_of_mem_lines (List.mem_of_getElem? column?)
    have perm := perm_sortedPositions order descending keys
    dsimp only
    split
    · exact .refl e
    · next other =>
      rw [length] at perm other
      exact steps_announce e _ (.sorted _ perm other) rfl

/-! ### Titles -/

/-- Titles of one direction can be given while stripes are taken out of the other. -/
theorem steps_setTitles {scope : Scope} (axis : Axis) (other : scope.thinned ≠ some axis)
    (titles : List (Option String)) : e.Steps scope (e.quietly (·.setTitles axis titles)) := by
  simp only [Content.setTitles]
  generalize titles.zipIdx = entries
  induction entries generalizing e with
  | nil => cases e; exact .refl _
  | cons entry rest ih =>
    have step : e.Steps scope (e.quietly (·.setTitle axis entry.2 entry.1)) := by
      cases e
      refine .single (.quiet (.titled ..) fun b here => ?_)
      obtain rfl | rfl := Axis.eq_or_eq_cross axis b
      · exact absurd here other
      · rw [Content.titles, Content.stripes_setTitle_cross, Content.titles]
    refine step.trans ?_
    cases e
    exact ih _

theorem steps_putTitle (axis : Axis) (position : Nat) (title : Option String) :
    e.Steps {} (e.putTitle axis position title) := by
  rw [putTitle]
  split
  · exact (steps_growAlong e axis _ 0).trans (steps_quietly _ _ (.titled axis position title))
  · exact .refl e

theorem steps_putTitles (axis : Axis) (titles : List String) : e.Steps {} (e.putTitles axis titles) :=
  steps_foldl e (fun e (entry : String × Nat) => steps_putTitle e axis entry.2 (some entry.1)) titles.zipIdx

theorem steps_positionForTitle (axis : Axis) (title : String) :
    e.Steps {} (e.positionForTitle axis title).2 := by
  rw [positionForTitle]
  split
  · exact .refl e
  · refine (steps_growAlong e axis (e.content.count axis + 1) 0).trans ?_
    exact steps_quietly _ (·.setTitle axis (e.content.count axis) (some title)) (.titled axis _ _)

theorem steps_placeEntry (create : Bool) (row : List (Option α) × Edit α ω) (entry : String × Option α) :
    row.2.Steps {} (placeEntry create row entry).2 := by
  rw [placeEntry]
  split
  · exact .refl _
  · split
    · exact steps_positionForTitle row.2 .column entry.1
    · exact .refl _

theorem steps_addEntries (entries : List (String × Option α)) (create : Bool) :
    e.Steps {} (e.addEntries entries create).2 := by
  have placed : ∀ (entries : List (String × Option α)) (row : List (Option α) × Edit α ω),
      row.2.Steps {} (entries.foldl (placeEntry create) row).2 := by
    intro entries
    induction entries with
    | nil => exact fun row => .refl _
    | cons entry rest ih => exact fun row => (steps_placeEntry create row entry).trans (ih _)
  exact (placed entries ([], e)).trans (steps_addElements _ .row _)

theorem steps_titlesFromFirst [Element α] (axis : Axis) :
    e.Steps { thinned := some axis.cross } (e.titlesFromFirst axis) := by
  have other : some axis.cross ≠ some axis := fun same => Axis.cross_ne axis (Option.some.inj same)
  rw [titlesFromFirst]
  split
  · exact (steps_setTitles e axis other _).trans (steps_removeAt _ axis.cross 0)
  · exact .refl e

theorem steps_setAllTitles (rowTitles columnTitles : List (Option String)) :
    e.Steps {} (e.quietly fun c => (c.setTitles .row rowTitles).setTitles .column columnTitles) := by
  have first : e.Steps {} (e.quietly (·.setTitles .row rowTitles)) :=
    steps_setTitles e .row (by simp) rowTitles
  refine first.trans ?_
  cases e
  exact steps_setTitles _ .column (by simp) columnTitles

/-- What comes after the clear that a replacement begins with. -/
theorem steps_replace_cleared (source : Content α) : e.clear.Steps {} (e.replace source) := by
  rw [replace]
  generalize hn : e.clear.quietly ({ · with name := source.name }) = named
  have started : e.clear.Steps {} named := by
    rw [← hn]
    exact steps_quietly _ _ (.renamed _)
  have filled := (started.trans (steps_growTo named 0 source.columnCount)).trans
    (steps_foldl _ (fun e row => steps_addElements e .row row) source.toRows)
  exact filled.trans (steps_setAllTitles _ (source.titles .row) (source.titles .column))

theorem steps_replace (source : Content α) : e.Steps { clears := true } (e.replace source) :=
  (steps_announce e _ .cleared rfl).trans ((steps_replace_cleared e source).widen rfl)

/-! ### Operations -/

theorem steps_viaStripe [DecidableEq α] (h : StripeRef) (operation : StripeOperation α) :
    e.Steps (operation.scope h) (operation.run h e).2 := by
  cases operation with
  | setElement index element =>
    simp only [StripeOperation.run, Outcome.giving, StripeRef.setElement]
    split
    · exact steps_setElement e _ _ _
    · exact .refl e
  | setElements elements =>
    simp only [StripeOperation.run, Outcome.quiet, StripeRef.setElements]
    split
    · exact steps_writeAlong e _ _ _ _ _
    · exact .refl e
  | convert f =>
    simp only [StripeOperation.run, Outcome.quiet, StripeRef.convert]
    split
    · exact steps_convertAlong e _ _ _ _ _
    · exact .refl e
  | putTitle title =>
    simp only [StripeOperation.run, Outcome.quiet, StripeRef.putTitle]
    split
    · exact steps_putTitle e _ _ _
    · exact .refl e
  | remove =>
    simp only [StripeOperation.run, Outcome.giving, StripeRef.remove]
    split
    · exact steps_removeAt e _ _
    · exact .refl e
  | switchWith other =>
    simp only [StripeOperation.run, Outcome.giving, StripeRef.switchWith]
    split
    · exact steps_swap e _ _ _
    · exact .refl e
  | moveTo target =>
    simp only [StripeOperation.run, Outcome.giving, StripeRef.moveTo]
    split
    · exact steps_moveRow e _ _
    · exact .refl e

theorem steps_viaCell [DecidableEq α] (h : CellRef) (operation : CellOperation α) :
    e.Steps {} (operation.run h e).2 := by
  cases operation with
  | setElement element =>
    simp only [CellOperation.run, Outcome.giving, CellRef.setElement]
    split
    · exact steps_setElement e _ _ _
    · exact .refl e
  | clear =>
    simp only [CellOperation.run, Outcome.giving, CellRef.clear]
    split
    · exact steps_removeElement e _ _
    · exact .refl e

/-- Every operation is a sequence of steps. -/
theorem steps_run [Element α] (operation : Operation α) : e.Steps operation.scope (operation.run e).2 := by
  cases operation with
  | setElement row column element => exact steps_setElement e row column element
  | setElementByColumnTitle row title element =>
    exact (steps_positionForTitle e .column title).trans (steps_setElement _ _ _ _)
  | setElementByRowTitle title column element =>
    exact (steps_positionForTitle e .row title).trans (steps_setElement _ _ _ _)
  | setElementAt rowTitle columnTitle element =>
    exact ((steps_positionForTitle e .row rowTitle).trans
      (steps_positionForTitle _ .column columnTitle)).trans
      (steps_setElement _ _ _ _)
  | removeElement row column => exact steps_removeElement e row column
  | insertElements axis position elements => exact steps_insertElements e axis position elements
  | addElements axis elements => exact steps_addElements e axis elements
  | addEntries entries create => exact steps_addEntries e entries create
  | setElements axis position elements => exact steps_setElements e axis position elements
  | removeAt axis position => exact steps_removeAt e axis position
  | swap axis a b => exact steps_swap e axis a b
  | moveRow source target => exact steps_moveRow e source target
  | transpose => exact steps_announce e _ .turned rfl
  | clear => exact steps_announce e _ .cleared rfl
  | setName name => exact steps_quietly e ({ · with name := some name }) (.renamed _)
  | putTitle axis position title => exact steps_putTitle e axis position _
  | clearTitle axis position =>
    exact steps_quietly e (·.setTitle axis position none) (.titled axis position none)
  | putTitles axis titles => exact steps_putTitles e axis titles
  | addColumnTitle title => exact steps_putTitle e .column _ _
  | titlesFromFirst axis => exact steps_titlesFromFirst e axis
  | sortRows column descending order => exact steps_sortRows e column descending order
  | convertRows start stop f => exact steps_convertRows e start stop f
  | replace source => exact steps_replace e source
  | viaStripe h operation => exact steps_viaStripe e h operation
  | viaCell h operation => exact steps_viaCell e h operation

/-- So is putting the rows of a store into a table. -/
theorem steps_hydrate (stored : List (Option Nat × List (Option α))) : e.Steps {} (e.hydrate stored).2 := by
  rw [hydrate]
  generalize ([] : List StripeId) = loaded
  induction stored generalizing e loaded with
  | nil => exact .refl e
  | cons row rest ih =>
    obtain ⟨_ | position, elements⟩ := row
    · exact (steps_addElements e .row elements).trans (ih _ _)
    · exact (steps_insertElements e .row position elements).trans (ih _ _)

end Edit

end LiveTable
