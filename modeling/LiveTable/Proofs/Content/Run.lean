import LiveTable.Proofs.Content.Valid

/-! Runs of changes.  A content starts empty, from rows or from a snapshot, and any list of changes is
    applied to it.  Every content that comes out is coherent: identities are handed out once, the maps of
    positions are exact, no cell outlives a stripe, and looking a cell up by identities is looking it up
    by their positions. -/

namespace LiveTable.Content

variable {α : Type} {c : Content α}

/-- The ways to make a content. -/
inductive Origin (α : Type) where
  | empty
  | rows (lines : List (List (Option α)))
  | snapshot (snapshot : Snapshot α)

/-- The content that a way to make one gives. -/
def Origin.content : Origin α → Content α
  | empty => {}
  | rows lines => ofRows lines
  | snapshot s => ofSnapshot s

/-- The changes of a content, as data. -/
inductive Change (α : Type) where
  | insert (axis : Axis) (position : Nat) (elements : List (Option α))
  | remove (axis : Axis) (position : Nat)
  | set (row column : Nat) (element : Option α)
  | swap (axis : Axis) (a b : Nat)
  | moveRow (source target : Nat)
  | reorderRows (order : List Nat)
  | transpose
  | clear
  | growTo (rows columns : Nat)
  | setTitle (axis : Axis) (position : Nat) (title : Option String)
  | rename (name : Option String)

/-- Applies a change. -/
def Change.apply (c : Content α) : Change α → Content α
  | insert axis position elements => c.insertStripe axis position elements
  | remove axis position => c.removeStripe axis position
  | set row column element => c.set row column element
  | swap axis a b => c.swap axis a b
  | moveRow source target => c.moveRow source target
  | reorderRows order => c.reorderRows order
  | transpose => c.transpose
  | clear => c.clear
  | growTo rows columns => c.growTo rows columns
  | setTitle axis position title => c.setTitle axis position title
  | rename name => { c with name := name }

/-- Applies changes one after the other. -/
def run (origin : Origin α) (changes : List (Change α)) : Content α :=
  changes.foldl Change.apply origin.content

/-- A content that some run makes. -/
def Reachable (c : Content α) : Prop := ∃ origin changes, c = run origin changes

theorem valid_origin (origin : Origin α) : origin.content.Valid := by
  cases origin with
  | empty => exact valid_empty
  | rows lines => exact valid_ofRows lines
  | snapshot s => exact valid_ofSnapshot s

theorem Valid.change (h : c.Valid) (change : Change α) : (change.apply c).Valid := by
  cases change with
  | insert axis position elements => exact h.insertStripe axis position elements
  | remove axis position => exact h.removeStripe axis position
  | set row column element => exact h.set row column element
  | swap axis a b => exact h.swap axis a b
  | moveRow source target => exact h.moveRow source target
  | reorderRows order => exact h.reorderRows order
  | transpose => exact h.transpose
  | clear => exact Valid.clear c
  | growTo rows columns => exact h.growTo rows columns
  | setTitle axis position title => exact h.setTitle axis position title
  | rename name => exact h.rename name

theorem Valid.changes (h : c.Valid) (changes : List (Change α)) : (changes.foldl Change.apply c).Valid := by
  induction changes generalizing c with
  | nil => exact h
  | cons change rest ih => exact ih (h.change change)

theorem valid_run (origin : Origin α) (changes : List (Change α)) : (run origin changes).Valid :=
  (valid_origin origin).changes changes

theorem Reachable.valid (h : c.Reachable) : c.Valid := by
  obtain ⟨origin, changes, rfl⟩ := h
  exact valid_run origin changes

theorem Reachable.change (h : c.Reachable) (change : Change α) : (change.apply c).Reachable := by
  obtain ⟨origin, changes, rfl⟩ := h
  exact ⟨origin, changes ++ [change], by simp [run]⟩

theorem Valid.nodup_ids (h : c.Valid) : (c.first.ids ++ c.second.ids).Nodup := by
  refine List.nodup_append.mpr ⟨h.first.nodup, h.second.nodup, ?_⟩
  rintro i here _ there rfl
  exact h.apart i here there

theorem Valid.below_nextId (h : c.Valid) {i : StripeId} (mem : i ∈ c.first.ids ++ c.second.ids) :
    i.value < c.nextId := by
  rcases List.mem_append.mp mem with here | there
  · exact h.firstBelow i here
  · exact h.secondBelow i there

/-- A cell that is not null is found at the positions of its two stripes. -/
theorem Valid.elementById_eq_element (h : c.Valid) {row column : StripeId} {x : α}
    (cell : c.elementById row column = some x) :
    ∃ p q, c.rows.positionOf row = some p ∧ c.columns.positionOf column = some q ∧
      c.element p q = some x := by
  have live : row ∈ (c.stripes .row).ids ∧ column ∈ (c.stripes Axis.row.cross).ids := h.mem_of_cellOn cell
  obtain ⟨p, hp⟩ := Option.isSome_iff_exists.mp ((h.indexed .row).isSome_positionOf.mpr live.1)
  obtain ⟨q, hq⟩ := Option.isSome_iff_exists.mp ((h.indexed .column).isSome_positionOf.mpr live.2)
  have atp : c.rows.idAt p = some row := (h.indexed .row row p).mp hp
  have atq : c.columns.idAt q = some column := (h.indexed .column column q).mp hq
  refine ⟨p, q, hp, hq, ?_⟩
  simpa [element, cellKey?, atp, atq, elementById] using cell

/-- Every run leaves a coherent content: the identities of both lists are distinct and older than the
    next one, the map of each list holds exactly its identities at their positions, every cell lies on a
    live stripe of the first list and one of the second, and a look-up by identities finds what a look-up
    by positions finds. -/
theorem run_coherent (origin : Origin α) (changes : List (Change α)) :
    let c := run origin changes
    (c.first.ids ++ c.second.ids).Nodup ∧
      (∀ i ∈ c.first.ids ++ c.second.ids, i.value < c.nextId) ∧
      (∀ ss ∈ [c.first, c.second],
        (∀ i, i ∈ ss.positions ↔ i ∈ ss.ids) ∧ ∀ p < ss.size, (ss.idAt p).bind ss.positionOf = some p) ∧
      (∀ k ∈ c.cells, k.first ∈ c.first.ids ∧ k.second ∈ c.second.ids) ∧
      ∀ row column, (c.elementById row column).isSome →
        ∃ p q, c.rows.positionOf row = some p ∧ c.columns.positionOf column = some q ∧
          c.elementById row column = c.element p q := by
  intro c
  have h : c.Valid := valid_run origin changes
  refine ⟨h.nodup_ids, fun i mem => h.below_nextId mem, ?_, ?_, ?_⟩
  · intro ss mem
    have indexed : ss.Indexed := by
      rcases List.mem_pair.mp mem with rfl | rfl
      · exact h.first
      · exact h.second
    refine ⟨fun i => ?_, fun p inside => ?_⟩
    · rw [← indexed.isSome_positionOf, Std.ExtTreeMap.mem_iff_isSome_getElem?]
      rfl
    · obtain ⟨i, at?⟩ : ∃ i, ss.idAt p = some i := by
        rw [Stripes.idAt_eq]
        exact ⟨_, List.getElem?_eq_getElem (by rwa [Stripes.length_ids])⟩
      rw [at?, Option.bind_some]
      exact (indexed i p).mpr at?
  · intro k mem
    rw [Std.ExtTreeMap.mem_iff_isSome_getElem?] at mem
    obtain ⟨x, cell⟩ := Option.isSome_iff_exists.mp mem
    exact h.live k x cell
  · intro row column some
    obtain ⟨x, cell⟩ := Option.isSome_iff_exists.mp some
    obtain ⟨p, q, hp, hq, found⟩ := h.elementById_eq_element cell
    exact ⟨p, q, hp, hq, cell.trans found.symm⟩

end LiveTable.Content
