import LiveTable.Proofs.Content.Layout
import LiveTable.Proofs.Edit.Identities
import LiveTable.Proofs.Edit.Observers

/-! The notices of an operation are an exact script of what it does to a table.  Each event says what
    became of the layout since the notice before: which stripe was put in or taken out and where, which
    cell got another element, in which order the stripes of one direction now stand.  Between two notices
    only titles and the name may change, so the layout that the last notice showed is the layout that the
    operation leaves. -/

namespace LiveTable

open Grid (fit exchanged)

variable {α ω : Type}

/-! ### What an event says -/

/-- The layout changes as the event says, and only so.  A new stripe has an identity that was given out
    just then, as many elements as it crosses stripes, and no place beyond the end; a removed one is
    reported as it was. -/
def Event.Describes (before after : Content α) (event : Event α) : Prop :=
  match event with
  | .added axis position =>
    position ≤ (before.layout.ids axis).length ∧
      ∃ (id : StripeId) (elements : List (Option α)),
        (before.nextId ≤ id.value ∧ id.value < after.nextId ∧ ∀ b, id ∉ before.layout.ids b) ∧
        elements.length = (before.layout.ids axis.cross).length ∧
        after.layout = before.layout.insert axis position id elements
  | .removed axis position stripe =>
    (before.layout.ids axis)[position]? = some stripe.id ∧ before.title axis position = stripe.title ∧
      before.layout.line axis position = stripe.elements ∧ after.layout = before.layout.erase axis position
  | .updatedCell row column previous =>
    row < before.layout.rowIds.length ∧ column < before.layout.columnIds.length ∧
      before.layout.cell row column = previous ∧
      ∃ element, element ≠ previous ∧ after.layout = before.layout.overwrite row column element
  | .cleared => after.layout = {}
  | .reordered =>
    ∃ (axis : Axis) (places : List Nat),
      places.Perm (List.range (before.layout.ids axis).length) ∧
      places ≠ List.range (before.layout.ids axis).length ∧ after.layout = before.layout.permute axis places
  | .transposed => after.layout = before.layout.transpose

/-- Notices, each of which says what happened since the one before it, and the content that the last one
    shows.  Identities are given out in ascending order. -/
inductive Script (start : Content α) : List (Notice α) → Content α → Prop where
  | start : Script start [] start
  | tell {told : List (Notice α)} {last : Content α} {n : Notice α} (script : Script start told last)
      (describes : n.event.Describes last n.content) (later : last.nextId ≤ n.content.nextId) :
      Script start (told ++ [n]) n.content

/-- The notices before one of a script are a script, and its event tells what happened since. -/
theorem Script.before {start last : Content α} {told : List (Notice α)} (script : Script start told last)
    {front back : List (Notice α)} {n : Notice α} (eq : told = front ++ n :: back) :
    ∃ before, Script start front before ∧ n.event.Describes before n.content := by
  induction script generalizing back with
  | start => simp at eq
  | @tell told last m script describes later ih =>
    rcases List.eq_nil_or_concat back with rfl | ⟨back, final, rfl⟩
    · obtain ⟨rfl, same⟩ := List.append_inj' eq rfl
      obtain rfl : m = n := List.singleton_inj.mp same
      exact ⟨last, script, describes⟩
    · rw [List.concat_eq_append, ← List.cons_append, ← List.append_assoc] at eq
      exact ih (List.append_inj' eq rfl).1

/-- Notices that leave nothing out: the content has the layout that the last of them shows. -/
def Scripted (start : Content α) (told : List (Notice α)) (final : Content α) : Prop :=
  ∃ last, Script start told last ∧ final.layout = last.layout

namespace Content

variable {c c' : Content α} {event : Event α} {axis : Axis} {p : Nat}

/-- A stripe is reported with its identity, its title and its elements. -/
theorem removed?_eq_some {stripe : Removed α} (found : c.removed? axis p = some stripe) :
    (c.stripes axis).idAt p = some stripe.id ∧ c.title axis p = stripe.title ∧
      (c.lines axis)[p]? = some stripe.elements := by
  refine ⟨idAt_of_removed found, ?_⟩
  rw [removed?] at found
  split at found
  · next at? elements? =>
    obtain rfl := Option.some.inj found
    rw [title, at?, ← elements?_eq, elements?]
    exact ⟨rfl, rfl⟩
  · simp at found

/-! ### Steps -/

/-- An announced change is what its event says. -/
theorem Shift.describes (h : c.Valid) (shift : c.Shift event c') : event.Describes c c' := by
  cases shift with
  | inserted axis position elements =>
    have inside : min position (c.count axis) ≤ c.count axis := Nat.min_le_right ..
    refine ⟨by rwa [length_ids_layout], ⟨c.nextId⟩, fit (c.count axis.cross) elements,
      ⟨Nat.le_refl _, ?_, ?_⟩, ?_, ?_⟩
    · rw [nextId_insertStripe]
      exact Nat.lt_succ_self _
    · intro b
      rw [ids_layout]
      exact h.fresh b
    · rw [length_fit, length_ids_layout]
    · rw [← insertStripe_min, h.layout_insertStripe inside]
  | @removed axis position stripe found =>
    obtain ⟨at?, title, line⟩ := removed?_eq_some found
    refine ⟨?_, title, line_layout line, h.layout_removeStripe at?⟩
    rwa [ids_layout, ← Stripes.idAt_eq]
  | @written row column k element inside other =>
    obtain ⟨r, s, at_row, at_column, -⟩ := (cellKey?_eq_some c row column).mp inside
    refine ⟨?_, ?_, cell_layout c row column, element, other.symm, h.layout_set row column element⟩
    · rw [Stripes.idAt_eq] at at_row
      exact (List.getElem?_eq_some_iff.mp at_row).1
    · rw [Stripes.idAt_eq] at at_column
      exact (List.getElem?_eq_some_iff.mp at_column).1
  | cleared => exact layout_clear c
  | @swapped axis a b both other =>
    obtain ⟨ha, hb⟩ := hasBoth_iff.mp both
    refine ⟨axis, exchanged a b (List.range (c.count axis)), ?_, ?_, layout_swap both⟩
    · rw [length_ids_layout]
      exact exchanged_perm a b _
    · rw [length_ids_layout]
      exact exchanged_range_ne ha hb other
  | @moved source target both other =>
    obtain ⟨hs, ht⟩ := hasBoth_iff.mp both
    refine ⟨.row, Grid.moved source target (List.range c.rowCount), ?_, ?_, layout_moveRow both⟩
    · rw [length_ids_layout]
      exact moved_perm hs ht
    · rw [length_ids_layout]
      exact moved_range_ne hs ht other
  | sorted order perm other =>
    refine ⟨.row, order, ?_, ?_, layout_reorderRows perm⟩
    · rwa [length_ids_layout]
    · rwa [length_ids_layout]
  | turned => exact layout_transpose c

theorem Still.ids_eq (still : c.Still c') (b : Axis) : (c'.stripes b).ids = (c.stripes b).ids := by
  cases still with
  | titled axis position title => exact ids_setTitle c axis position title b
  | renamed name => rfl
  | rewritten row column => exact ids_set ..
  | swapped axis a =>
    obtain rfl | rfl := Axis.eq_or_eq_cross axis b
    · by_cases both : c.hasBoth b a a
      · rw [stripes_swap_self c both, Stripes.ids, Stripes.toList_swap_self, ← Stripes.ids]
      · rw [swap_of_not_hasBoth c both]
    · exact ids_swap_cross ..
  | moved a =>
    rw [moveRow, stripes_mapStripes]
    split
    · rw [Stripes.ids, Stripes.toList_move_self, ← Stripes.ids]
    · rfl

/-- A change that goes unannounced leaves the layout as it is. -/
theorem Still.layout_eq (still : c.Still c') : c'.layout = c.layout :=
  layout_congr still.ids_eq fun i j => still.rearranged.cellOn .row i j

end Content

/-- What an event says of one content it says of another with the same layout, the same identities given
    out, and the same titles where it reports one. -/
theorem Event.Describes.congr {event : Event α} {before last after : Content α}
    (h : event.Describes before after)
    (layout : before.layout = last.layout) (nextId : before.nextId = last.nextId)
    (titles : ∀ axis, event.scope.thinned = some axis → before.titles axis = last.titles axis) :
    event.Describes last after := by
  cases event with
  | removed axis position stripe =>
    have title : last.title axis position = before.title axis position := by
      rw [Content.title_eq, Content.title_eq, titles axis rfl]
    simp only [Event.Describes, ← layout, title]
    exact h
  | _ =>
    simp only [Event.Describes, ← layout, ← nextId]
    exact h

namespace Edit

/-- In the middle of an edit whose notices are written down, they leave nothing out so far. -/
structure MidScript (start : Content α) (scope : Scope) (e : Edit α (List (Notice α))) : Prop where
  valid : e.content.Valid
  tell : e.tell = fun told n => told ++ [n]
  scripted : ∃ last, Script start e.observers last ∧ e.content.layout = last.layout ∧
    e.content.nextId = last.nextId ∧ ∀ axis, scope.thinned = some axis →
      e.content.titles axis = last.titles axis

variable {start c : Content α} {scope : Scope} {e e' : Edit α (List (Notice α))}

theorem MidScript.step (h : MidScript start scope e) (step : Step scope e e') : MidScript start scope e' := by
  cases step with
  | @announced c c' event observers tell shift within =>
    obtain ⟨valid, rfl, last, script, layout, nextId, titles⟩ := h
    -- quiet changes since `last` have left what the event is about, so it also tells what became of `last`
    have describes : event.Describes last c' := (shift.describes valid).congr layout nextId
      fun axis here => titles axis (within.thinned axis here)
    have later : last.nextId ≤ c'.nextId := Nat.le_trans (Nat.le_of_eq nextId.symm) shift.nextId_le
    exact ⟨shift.valid valid, rfl, c', script.tell (n := ⟨event, c'⟩) describes later, rfl, rfl,
      fun _ _ => rfl⟩
  | @quiet c c' observers tell still titled =>
    obtain ⟨valid, rfl, last, script, layout, nextId, titles⟩ := h
    exact ⟨still.valid valid, rfl, last, script, still.layout_eq.trans layout,
      still.rearranged.nextId.trans nextId, fun axis here => (titled axis here).trans (titles axis here)⟩

/-- What consists of steps leaves nothing out. -/
theorem Steps.scripted (h : c.Valid) (steps : (recorded c).Steps scope e) :
    Scripted c e.observers e.content := by
  have begun : MidScript c scope (recorded c) := ⟨h, rfl, c, .start, rfl, rfl, fun _ _ => rfl⟩
  obtain ⟨-, -, last, script, layout, -, -⟩ := steps.preserve (fun _ _ step before => before.step step) begun
  exact ⟨last, script, layout⟩

/-- What a procedure comes to on a content, whoever observes it: it gives a result, tells notices that
    leave nothing out, and leaves a content behind. -/
structure ComesTo {β : Type} (procedure : (ω : Type) → Edit α ω → β × Edit α ω) (start : Content α)
    (result : β) (told : List (Notice α)) (final : Content α) : Prop where
  eq : ∀ (ω : Type) (observers : ω) (tell : ω → Notice α → ω),
    procedure ω ⟨start, observers, tell⟩ = (result, ⟨final, told.foldl tell observers, tell⟩)
  scripted : Scripted start told final
  valid : final.Valid

/-- It is enough to see what a procedure does when its notices are only written down. -/
theorem ComesTo.of_recorded {β : Type} {procedure : (ω : Type) → Edit α ω → β × Edit α ω} (h : c.Valid)
    (alike : ∀ {ω ω' : Type} {R : ω → ω' → Prop} {e : Edit α ω} {e' : Edit α ω'}, Alike R e e' →
      AlikeWith R (procedure ω e) (procedure ω' e'))
    (steps : ∀ {ω : Type} (e : Edit α ω), e.Steps scope (procedure ω e).2) :
    ∃ result told final, ComesTo procedure c result told final := by
  let done := procedure _ (recorded c)
  refine ⟨done.1, done.2.observers, done.2.content, fun ω observers tell => ?_, (steps _).scripted h,
    (steps _).valid h⟩
  have same := alike (alike_recorded ⟨c, observers, tell⟩)
  have told := (steps ⟨c, observers, tell⟩).tell_eq
  generalize procedure ω ⟨c, observers, tell⟩ = other at same told
  obtain ⟨result, content', observers', tell'⟩ := other
  obtain rfl : tell' = tell := told
  obtain ⟨rfl, rfl, rfl, -⟩ := same
  rfl

theorem exists_comesTo_run [Element α] (h : c.Valid) (operation : Operation α) :
    ∃ outcome told final, ComesTo (fun _ e => operation.run e) c outcome told final :=
  ComesTo.of_recorded h (fun same => same.run operation) fun e => steps_run e operation

theorem exists_comesTo_hydrate (h : c.Valid) (stored : List (Option Nat × List (Option α))) :
    ∃ loaded told final, ComesTo (fun _ e => e.hydrate stored) c loaded told final :=
  ComesTo.of_recorded h (fun same => same.hydrate stored) fun e => steps_hydrate e stored

end Edit

/-- Whatever is done to a table that some run of changes made, be it an operation or loading the rows of
    a store, the notices told are an exact script of it: each event says what became of the layout since
    the notice before, the first since the beginning, and the content left behind has the layout that the
    last notice shows.  Who observes the table makes no difference. -/
theorem Content.run_scripted [Element α] (origin : Content.Origin α) (changes : List (Content.Change α)) :
    let c := Content.run origin changes
    (∀ operation : Operation α, ∃ outcome told final,
      Edit.ComesTo (fun _ e => operation.run e) c outcome told final) ∧
    ∀ stored : List (Option Nat × List (Option α)), ∃ loaded told final,
      Edit.ComesTo (fun _ e => e.hydrate stored) c loaded told final := by
  intro c
  have valid : c.Valid := Content.valid_run origin changes
  exact ⟨Edit.exists_comesTo_run valid, Edit.exists_comesTo_hydrate valid⟩

/-- Writing into an empty table. -/
example : ((Edit.recorded ({} : Content String)).setElement 0 0 (some "a")).2.observers.map (·.event.name) =
    ["added_column", "added_row", "updated_cell"] := by
  decide +kernel

end LiveTable
