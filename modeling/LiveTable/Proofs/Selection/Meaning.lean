import LiveTable.Proofs.Content.Lines
import LiveTable.Selection.Plan

/-! What a selection means, read off the contents of its tables.  All choices of one row from each table
    are gone through in the order of nested loops; those stay that meet every condition of every join and
    every filter, and each shows the elements that were asked for.  Then no row is kept twice if the
    selection is distinct, some are skipped, and at most so many are taken.  This has nothing to do with
    a plan or a search, and it knows of stages only because tests of whole rows are given them.  The
    lemmas behind the definitions say that a choice of rows meets a condition, and shows its elements, as
    the stages of these contents have it. -/

namespace LiveTable

variable {α : Type}

/-! ### Choices of rows -/

/-- A choice of rows: a table and a row of it for each step of a selection. -/
abbrev Choice := List (TableId × Nat)

/-- All choices of a row from each of several tables, in the order of nested loops. -/
def choices (tables : TableId → Content α) : List TableId → List Choice
  | [] => [[]]
  | t :: later =>
    (List.range (tables t).rowCount).flatMap fun row => (choices tables later).map ((t, row) :: ·)

/-- The position of a column of a content. -/
def ColumnPlace.find (c : Content α) : ColumnPlace → Option Nat
  | position k => if k < c.columnCount then some k else none
  | stripe id => (List.range c.columnCount).find? fun k => c.columns.idAt k == some id

/-- The table, the row and the column that a reference stands for: its column in the first step with its
    table. -/
def ColumnRef.find (tables : TableId → Content α) (choice : Choice) (r : ColumnRef) :
    Option (TableId × Nat × Nat) :=
  (choice.find? fun chosen => chosen.1 == r.table).bind fun (t, row) =>
    (r.place.find (tables t)).map fun k => (t, row, k)

/-- What a reference reads, which is null if there is nothing that it stands for. -/
def ColumnRef.read (tables : TableId → Content α) (choice : Choice) (r : ColumnRef) : Option α :=
  (r.find tables choice).bind fun (t, row, k) => (tables t).element row k

/-! ### Conditions -/

/-- A table as tests of whole rows see it. -/
def Stage.seen (t : TableId) (c : Content α) : Stage α where
  table := t
  name := c.name
  columnIds := (List.range c.columnCount).filterMap c.columns.idAt
  columnTitles := (List.range c.columnCount).map (c.title .column)
  rows := (List.range c.rowCount).map fun row => (List.range c.columnCount).map (c.element row)

/-- What a test of whole rows is given. -/
def Choice.joined (tables : TableId → Content α) (choice : Choice) : JoinedRow α where
  stages := choice.map fun chosen => .seen chosen.1 (tables chosen.1)
  rows := choice.map Prod.snd

/-- When a choice of rows meets a condition. -/
def Predicate.Meets (tables : TableId → Content α) (choice : Choice) : Predicate α → Prop
  | equalColumns a b => ∃ x, a.read tables choice = some x ∧ b.read tables choice = some x
  | columnValue columns _ test => ∀ r ∈ columns, test (r.read tables choice) = true
  | and ps => ∀ p, p ∈ ps → p.Meets tables choice
  | or ps => ∃ p, ∃ _ : p ∈ ps, p.Meets tables choice
  | not p => ¬p.Meets tables choice
  | custom _ test => test (choice.joined tables) = true

/-! ### What is shown -/

/-- The elements of a chosen row. -/
def wholeRow (tables : TableId → Content α) (chosen : TableId × Nat) : List (Option α) :=
  (List.range (tables chosen.1).columnCount).map ((tables chosen.1).element chosen.2)

/-- The elements of the row chosen in a step. -/
def rowOfStep (tables : TableId → Content α) (choice : Choice) (step : Nat) : List (Option α) :=
  (choice[step]?.map (wholeRow tables)).getD []

/-- Whether a request is for columns of the step in which it is made. -/
def Projection.isOwn : Projection → Bool
  | allColumns => true
  | column _ => true
  | reference _ => false
  | allOf _ => false

namespace Selection

/-- Whether a step asks for columns of its own. -/
def Asks (s : Selection α) (step : Nat) : Prop :=
  ∃ request ∈ s.projections, request.1 = step ∧ request.2.isOwn

instance (s : Selection α) (step : Nat) : Decidable (s.Asks step) := inferInstanceAs (Decidable (∃ _ ∈ _, _))

/-- The elements of a choice of rows that one request of a step shows.  All columns are those of the step
    and of the steps after it that do not ask for any. -/
def shownBy (s : Selection α) (tables : TableId → Content α) (choice : Choice) (step : Nat) :
    Projection → List (Option α)
  | .allColumns => (List.range choice.length).flatMap fun other =>
      if other = step ∨ step < other ∧ ¬s.Asks other then rowOfStep tables choice other else []
  | .column k => (rowOfStep tables choice step)[k]?.toList
  | .reference r => (r.find tables choice).toList.map fun (t, row, k) => (tables t).element row k
  | .allOf table => ((choice.find? fun chosen => chosen.1 == table).map (wholeRow tables)).getD []

/-- The elements of a choice of rows that a selection shows: those of the first row if it makes no request. -/
def shown (s : Selection α) (tables : TableId → Content α) (choice : Choice) : List (Option α) :=
  if s.projections = [] then rowOfStep tables choice 0
  else s.projections.flatMap fun (step, request) => s.shownBy tables choice step request

/-- When a choice of rows is in the result: it meets the conditions of all joins and all filters. -/
def Accepts (s : Selection α) (tables : TableId → Content α) (choice : Choice) : Prop :=
  (∀ step ∈ s.steps, ∀ p ∈ step.conditions, p.Meets tables choice) ∧ ∀ p ∈ s.filters, p.Meets tables choice

end Selection

/-! ### Stages of contents -/

/-- The first place of a list where something holds, found by going through its positions. -/
theorem find?_range_getElem? {β : Type} (q : β → Bool) (l : List β) :
    ((List.range l.length).find? fun k => l[k]?.any q) = l.findIdx? q := by
  refine Option.ext fun k => ?_
  rw [List.find?_range_eq_some, List.findIdx?_eq_some_iff_getElem]
  constructor
  · rintro ⟨here, mem, before⟩
    have inside : k < l.length := List.mem_range.mp mem
    refine ⟨inside, by simpa [inside] using here, fun j earlier => ?_⟩
    simpa [Nat.lt_trans earlier inside] using before j earlier
  · rintro ⟨inside, here, before⟩
    refine ⟨by simpa [inside] using here, List.mem_range.mpr inside, fun j earlier => ?_⟩
    simpa [Nat.lt_trans earlier inside] using before j earlier

namespace Stage

variable (t : TableId) (c : Content α)

theorem ofContent_eq_seen : ofContent t c = .seen t c := by
  have ids : c.columns.ids = (List.range c.columnCount).filterMap c.columns.idAt := by
    have at? : c.columns.idAt = (c.columns.ids[·]?) := funext c.columns.idAt_eq
    rw [at?, Content.columnCount, Content.count_eq]
    exact (Stripes.filterMap_getElem?_range _).symm
  rw [ofContent, Stage.seen, ids, Content.titles_eq_map, Content.toRows_eq_map]
  rfl

theorem length_columnIds_seen : (Stage.seen t c).columnIds.length = c.columnCount := by
  rw [← ofContent_eq_seen, Content.columnCount, Content.count_eq]
  rfl

theorem element_seen (row k : Nat) : (Stage.seen t c).element row k = c.element row k := by
  rw [← ofContent_eq_seen, Content.element_eq, ← Content.toRows_eq]
  rfl

theorem locate_seen (place : ColumnPlace) : (Stage.seen t c).locate place = place.find c := by
  have same := ofContent_eq_seen t c
  cases place with
  | position k => rw [locate, length_columnIds_seen, ColumnPlace.find]
  | stripe id =>
    have any (k : Nat) : (c.columns.idAt k == some id) = c.columns.ids[k]?.any (· == id) := by
      rw [Stripes.idAt_eq]
      cases c.columns.ids[k]? <;> rfl
    have count : c.columnCount = c.columns.ids.length := Content.count_eq c .column
    rw [← same, locate, ColumnPlace.find, count]
    simp only [any]
    exact (find?_range_getElem? (· == id) c.columns.ids).symm

end Stage

namespace Choice

variable {tables : TableId → Content α} {choice : Choice}

theorem findIdx?_stages_joined (table : TableId) :
    ((choice.joined tables).stages.findIdx? fun s => s.table == table) =
      choice.findIdx? fun chosen => chosen.1 == table := by
  rw [joined, List.findIdx?_map]
  rfl

/-- The element at a column of a step. -/
def elementAt (tables : TableId → Content α) (choice : Choice) (slot : Nat × Nat) : Option α :=
  (choice.joined tables).stageElement slot.1 slot.2

theorem elementAt_eq (slot : Nat × Nat) : choice.elementAt tables slot =
    choice[slot.1]?.bind fun (t, row) => (tables t).element row slot.2 := by
  simp only [elementAt, JoinedRow.stageElement, joined, List.getElem?_map]
  cases choice[slot.1]? with
  | none => rfl
  | some chosen => exact Stage.element_seen ..

/-- A reference that is resolved stands for a column of the step in which it is resolved. -/
theorem find_eq_resolve (r : ColumnRef) : r.find tables choice =
    (r.resolve (choice.joined tables).stages).bind fun slot =>
      choice[slot.1]?.map fun (t, row) => (t, row, slot.2) := by
  rw [ColumnRef.find, ColumnRef.resolve, findIdx?_stages_joined, List.find?_eq_bind_findIdx?_getElem?]
  cases choice.findIdx? fun chosen => chosen.1 == r.table with
  | none => rfl
  | some step =>
    simp only [joined, List.getElem?_map, Option.bind_some]
    cases at? : choice[step]? with
    | none => rfl
    | some chosen =>
      simp only [Option.map_some, Option.bind_some, Stage.locate_seen]
      cases r.place.find (tables chosen.1) with
      | none => rfl
      | some k => simp [at?]

theorem element_joined (r : ColumnRef) : (choice.joined tables).element r = r.read tables choice := by
  rw [JoinedRow.element, ColumnRef.read, find_eq_resolve]
  cases r.resolve (choice.joined tables).stages with
  | none => rfl
  | some slot =>
    simp only [Option.bind_some]
    refine (elementAt_eq slot).trans ?_
    cases choice[slot.1]? <;> rfl

end Choice

/-! ### Evaluating a condition -/

namespace Predicate

variable [DecidableEq α] {tables : TableId → Content α} {choice : Choice}

mutual

theorem holds_iff : ∀ p : Predicate α, p.holds (choice.joined tables) = true ↔ p.Meets tables choice
  | equalColumns a b => by
    rw [holds, Meets, Choice.element_joined, Choice.element_joined]
    cases a.read tables choice with
    | none => simp
    | some x =>
      cases b.read tables choice with
      | none => simp
      | some y => simpa using eq_comm
  | columnValue columns _ test => by
    simp [holds, Meets, Choice.element_joined]
  | and ps => by
    rw [holds, Meets]
    exact holdsAll_iff ps
  | or ps => by
    rw [holds, Meets]
    simpa using holdsAny_iff ps
  | not p => by
    rw [holds, Meets, ← holds_iff p]
    simp
  | custom _ test => by
    rw [holds, Meets]

theorem holdsAll_iff : ∀ ps : List (Predicate α),
    holdsAll (choice.joined tables) ps = true ↔ ∀ p, p ∈ ps → p.Meets tables choice
  | [] => by simp [holdsAll]
  | p :: rest => by
    rw [holdsAll, Bool.and_eq_true, holds_iff p, holdsAll_iff rest, List.forall_mem_cons]

theorem holdsAny_iff : ∀ ps : List (Predicate α),
    holdsAny (choice.joined tables) ps = true ↔ ∃ p, p ∈ ps ∧ p.Meets tables choice
  | [] => by simp [holdsAny]
  | p :: rest => by
    rw [holdsAny, Bool.or_eq_true, holds_iff p, holdsAny_iff rest]
    simp

end

instance (tables : TableId → Content α) (choice : Choice) (p : Predicate α) :
    Decidable (p.Meets tables choice) :=
  decidable_of_iff _ (holds_iff p)

end Predicate

namespace Selection

variable {s : Selection α} {tables : TableId → Content α} {choice : Choice}

instance [DecidableEq α] (s : Selection α) (tables : TableId → Content α) (choice : Choice) :
    Decidable (s.Accepts tables choice) :=
  inferInstanceAs (Decidable (_ ∧ _))

theorem accepts_iff [DecidableEq α] :
    s.Accepts tables choice ↔ ∀ p ∈ s.conditions, p.holds (choice.joined tables) = true := by
  simp only [Accepts, conditions, Predicate.holds_iff, List.mem_append, List.mem_flatMap]
  constructor
  · rintro ⟨joins, filters⟩ p (⟨step, mem, there⟩ | there)
    · exact joins step mem p there
    · exact filters p there
  · intro all
    exact ⟨fun step mem p there => all p (.inl ⟨step, mem, there⟩), fun p there => all p (.inr there)⟩

/-- The rows that a selection means. -/
def meaning [DecidableEq α] (s : Selection α) (tables : TableId → Content α) : List (List (Option α)) :=
  let met := (choices tables (s.steps.map JoinStep.table)).filter fun choice => s.Accepts tables choice
  let shown := met.map (s.shown tables)
  let kept := (if s.distinct then shown.eraseDups else shown).drop s.skip
  match s.top with
  | some count => kept.take count
  | none => kept

/-! ### Projecting a choice of rows -/

/-- All columns of a stage show the row chosen in its step. -/
theorem map_allOfStage (tables : TableId → Content α) (choice : Choice) (step : Nat) :
    (allOfStage (choice.joined tables).stages step).map (choice.elementAt tables) =
      rowOfStep tables choice step := by
  simp only [allOfStage, Choice.joined, List.getElem?_map, rowOfStep]
  cases at? : choice[step]? with
  | none => rfl
  | some chosen =>
    simp only [Option.map_some, Stage.length_columnIds_seen, List.map_map, Option.getD_some, wholeRow]
    refine List.map_congr_left fun k _ => ?_
    exact (Choice.elementAt_eq (step, k)).trans (by rw [at?]; rfl)

/-- A reference is resolved in a stage that there is. -/
theorem resolve_lt {stages : List (Stage α)} {r : ColumnRef} {i k : Nat}
    (h : r.resolve stages = some (i, k)) : i < stages.length := by
  rw [ColumnRef.resolve] at h
  split at h
  · simp at h
  · next found =>
    obtain ⟨column, -, same⟩ := Option.map_eq_some_iff.mp h
    obtain ⟨rfl, -⟩ := Prod.mk.inj same
    exact (List.findIdx?_eq_some_iff_findIdx_eq.mp found).1

theorem owns_iff (step : Nat) : s.owns step = true ↔ s.Asks step := by
  rw [owns, List.any_eq_true, Asks]
  refine exists_congr fun request => and_congr_right fun _ => ?_
  rw [Bool.and_eq_true, beq_iff_eq]
  refine and_congr_right fun _ => ?_
  cases request.2 <;> simp [Projection.isOwn]

theorem range_eq_append {step count : Nat} (inside : step < count) :
    List.range count = List.range step ++ step :: List.range' (step + 1) (count - (step + 1)) := by
  have from_step : step :: List.range' (step + 1) (count - (step + 1)) = List.range' step (count - step) := by
    rw [← List.range'_succ, show count - (step + 1) + 1 = count - step by omega]
  have joined := List.range'_append_1 (s := 0) (m := step) (n := count - step)
  rw [Nat.zero_add, Nat.add_sub_of_le (Nat.le_of_lt inside)] at joined
  rw [from_step, List.range_eq_range', List.range_eq_range', joined]

/-- What one position and those behind it give is what all positions give, the others giving nothing. -/
theorem flatMap_range_from {β : Type} {count : Nat} {line : Nat → List β}
    (beyond : ∀ k, count ≤ k → line k = []) (step : Nat) (silent : Nat → Prop) [DecidablePred silent] :
    ((List.range count).flatMap fun other =>
        if other = step ∨ step < other ∧ silent other then line other else []) =
      line step ++ (List.range' (step + 1) (count - (step + 1))).flatMap fun later =>
        if silent later then line later else [] := by
  have before {k : Nat} (upTo : k ≤ step) : ((List.range k).flatMap fun other =>
      if other = step ∨ step < other ∧ silent other then line other else []) = [] := by
    refine List.flatMap_eq_nil_iff.mpr fun other mem => if_neg ?_
    have earlier := List.mem_range.mp mem
    omega
  by_cases inside : step < count
  · rw [range_eq_append inside, List.flatMap_append, List.flatMap_cons, if_pos (.inl rfl),
      before (Nat.le_refl step), List.nil_append]
    congr 1
    refine List.flatMap_congr fun later mem => ?_
    have behind := (List.mem_range'_1.mp mem).1
    have iff : (later = step ∨ step < later ∧ silent later) ↔ silent later := by
      constructor
      · rintro (same | ⟨-, quiet⟩)
        · omega
        · exact quiet
      · exact fun quiet => .inr ⟨by omega, quiet⟩
    simp only [iff]
  · rw [before (by omega), beyond step (by omega), show count - (step + 1) = 0 by omega]
    rfl

theorem rowOfStep_of_length_le {step : Nat} (beyond : choice.length ≤ step) :
    rowOfStep tables choice step = [] := by
  rw [rowOfStep, List.getElem?_eq_none beyond]
  rfl

/-- One column of a stage shows one element of the row chosen in its step. -/
theorem map_filter_allOfStage (tables : TableId → Content α) (choice : Choice) (step k : Nat) :
    ((allOfStage (choice.joined tables).stages step).filter fun slot => slot.2 == k).map
      (choice.elementAt tables) = (rowOfStep tables choice step)[k]?.toList := by
  rw [← map_allOfStage, List.getElem?_map, allOfStage]
  cases (choice.joined tables).stages[step]? with
  | none => rfl
  | some stage =>
    have alone : (List.range stage.columnIds.length).filter (· == k) =
        if k < stage.columnIds.length then [k] else [] := by
      rw [List.filter_beq, List.nodup_range.count]
      simp only [List.mem_range]
      split <;> rfl
    simp only [List.filter_map, Function.comp_def, alone, List.getElem?_map]
    by_cases inside : k < stage.columnIds.length
    · simp [inside]
    · simp [inside]

/-- The columns that a request stands for show what it asks for. -/
theorem map_expand (step : Nat) : ∀ request : Projection,
    (s.expand (choice.joined tables).stages step request).map (choice.elementAt tables) =
      s.shownBy tables choice step request
  | .allColumns => by
    have later (other : Nat) :
        (if s.owns other then [] else allOfStage (choice.joined tables).stages other).map
            (choice.elementAt tables) =
          if ¬s.Asks other then rowOfStep tables choice other else [] := by
      by_cases asks : s.Asks other
      · rw [if_pos ((owns_iff other).mpr asks), if_neg (not_not_intro asks)]
        rfl
      · rw [if_neg (mt (owns_iff other).mp asks), if_pos asks, map_allOfStage]
    have length : (choice.joined tables).stages.length = choice.length := List.length_map ..
    rw [expand, List.map_append, map_allOfStage, List.map_flatMap, shownBy, length,
      flatMap_range_from (fun _ => rowOfStep_of_length_le) step fun other => ¬s.Asks other]
    simp only [later]
  | .column k => map_filter_allOfStage tables choice step k
  | .reference r => by
    rw [expand, shownBy, Choice.find_eq_resolve]
    cases found : r.resolve (choice.joined tables).stages with
    | none => rfl
    | some slot =>
      have inside : slot.1 < choice.length := Nat.lt_of_lt_of_eq (resolve_lt found) (List.length_map ..)
      simp only [Option.toList_some, List.map_cons, List.map_nil, Choice.elementAt_eq, Option.bind_some,
        List.getElem?_eq_getElem inside, Option.map_some]
  | .allOf table => by
    rw [expand, shownBy, Choice.findIdx?_stages_joined, List.find?_eq_bind_findIdx?_getElem?]
    cases choice.findIdx? fun chosen => chosen.1 == table with
    | none => rfl
    | some step => exact map_allOfStage tables choice step

/-- Projecting the stages of a choice of rows gives what the selection shows of it. -/
theorem projectRow_joined :
    projectRow (choice.joined tables).stages (s.projected (choice.joined tables).stages)
      (choice.joined tables).rows = s.shown tables choice := by
  rw [projectRow, projected, shown]
  by_cases none_asked : s.projections = []
  · rw [if_pos none_asked, if_pos (List.isEmpty_iff.mpr none_asked)]
    exact map_allOfStage tables choice 0
  · rw [if_neg none_asked, if_neg (mt List.isEmpty_iff.mp none_asked), List.map_flatMap]
    exact List.flatMap_congr fun request _ => map_expand request.1 request.2

end Selection

end LiveTable
