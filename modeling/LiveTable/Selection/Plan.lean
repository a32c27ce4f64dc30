import LiveTable.Content.Window
import LiveTable.Selection.Basic

/-! Running a selection.  A condition that reads one stage only thins out the rows of that stage
    beforehand; one that reads several is checked as soon as the deepest of them is bound; a condition
    that looks at whole joined rows waits for the last.  The joined rows then come out in the order of
    nested loops, and the search ends once a limit is reached. -/

namespace LiveTable

/-- The stages that a condition has to wait for. -/
inductive Reach where
  /-- It reads this stage and no other. -/
  | only (stage : Nat)
  /-- It reads several stages, this one being the deepest. -/
  | upTo (stage : Nat)
  /-- It may read every stage. -/
  | all
  deriving DecidableEq, Repr

namespace Predicate

variable {α : Type}

mutual

/-- The stages that a condition reads; `none` if it may read any. -/
def stagesRead (stages : List (Stage α)) : Predicate α → Option (List Nat)
  | equalColumns a b =>
    some ((a.resolve stages).toList.map Prod.fst ++ (b.resolve stages).toList.map Prod.fst)
  | columnValue columns _ _ => some (columns.filterMap fun r => (r.resolve stages).map Prod.fst)
  | and ps => stagesReadAll stages ps
  | or ps => stagesReadAll stages ps
  | not p => p.stagesRead stages
  | custom _ _ => none

/-- The stages that several conditions read. -/
def stagesReadAll (stages : List (Stage α)) : List (Predicate α) → Option (List Nat)
  | [] => some []
  | p :: rest =>
    match p.stagesRead stages, stagesReadAll stages rest with
    | some found, some others => some (found ++ others)
    | _, _ => none

end

/-- When a condition can be checked; one that reads no stage counts as reading the first. -/
def reach (stages : List (Stage α)) (p : Predicate α) : Reach :=
  match p.stagesRead stages with
  | none => .all
  | some found =>
    let deepest := found.foldl max 0
    if found.all (· == deepest) then .only deepest else .upTo deepest

end Predicate

/-- What is left to do at a stage: the rows still in question, and the conditions to check once one is
    bound. -/
structure Level (α : Type) where
  rows : List Nat
  checks : List (Predicate α) := []

namespace Selection

variable {α : Type}

/-- The tables of a selection as they stand. -/
def stages (s : Selection α) (tables : TableId → Content α) : List (Stage α) :=
  s.steps.map fun step => Stage.ofContent step.table (tables step.table)

/-- Whether a condition on one stage alone is met by a row of it. -/
def admits [DecidableEq α] (stages : List (Stage α)) (p : Predicate α) (stage row : Nat) : Bool :=
  p.holds ⟨stages, List.replicate stage 0 ++ [row]⟩

/-- Takes one condition into account. -/
def addCondition [DecidableEq α] (stages : List (Stage α)) (levels : List (Level α)) (p : Predicate α) :
    List (Level α) :=
  match p.reach stages with
  | .only stage =>
    levels.modify stage fun level => { level with rows := level.rows.filter (admits stages p stage) }
  | .upTo stage => levels.modify stage fun level => { level with checks := level.checks ++ [p] }
  | .all => levels.modify (levels.length - 1) fun level => { level with checks := level.checks ++ [p] }

/-- The levels of a search. -/
def levels [DecidableEq α] (s : Selection α) (stages : List (Stage α)) : List (Level α) :=
  s.conditions.foldl (addCondition stages) (stages.map fun stage => { rows := List.range stage.rows.length })

/-- Whether a stage asks for columns of its own by position or for all of them. -/
def owns (s : Selection α) (stage : Nat) : Bool :=
  s.projections.any fun request =>
    request.1 == stage &&
      match request.2 with
      | .allColumns => true
      | .column _ => true
      | _ => false

/-- All columns of a stage. -/
def allOfStage (stages : List (Stage α)) (stage : Nat) : List (Nat × Nat) :=
  match stages[stage]? with
  | some s => (List.range s.columnIds.length).map fun column => (stage, column)
  | none => []

/-- The columns that one request stands for. -/
def expand (s : Selection α) (stages : List (Stage α)) (stage : Nat) : Projection → List (Nat × Nat)
  | .allColumns =>
    allOfStage stages stage ++
      (List.range' (stage + 1) (stages.length - (stage + 1))).flatMap fun later =>
        if s.owns later then [] else allOfStage stages later
  | .column column => (allOfStage stages stage).filter fun slot => slot.2 == column
  | .reference r => (r.resolve stages).toList
  | .allOf table =>
    match stages.findIdx? fun candidate => candidate.table == table with
    | some found => allOfStage stages found
    | none => []

/-- The columns of the result, each as a stage and a position; without requests those of the first stage. -/
def projected (s : Selection α) (stages : List (Stage α)) : List (Nat × Nat) :=
  if s.projections.isEmpty then allOfStage stages 0
  else s.projections.flatMap fun request => s.expand stages request.1 request.2

/-- The number of joined rows after which the search may end; without duplicates there is no telling. -/
def limit (s : Selection α) : Option Nat := if s.distinct then none else s.top.map (s.skip + ·)

/-- A search in progress: whether it goes on, and what it has found, last first. -/
structure Progress (ρ : Type) where
  goesOn : Bool := true
  found : List ρ := []

/-- Tries the rows of one stage in order, as long as the search goes on. -/
def tryRows {ρ : Type} (keeps : List Nat → Bool) (next : List Nat → Progress ρ → Progress ρ)
    (bound : List Nat) : List Nat → Progress ρ → Progress ρ
  | [], progress => progress
  | row :: rest, progress =>
    if keeps (bound ++ [row]) then
      let progress := next (bound ++ [row]) progress
      if progress.goesOn then tryRows keeps next bound rest progress else progress
    else tryRows keeps next bound rest progress

/-- Searches the levels below some bound rows. -/
def descend [DecidableEq α] {ρ : Type} (stages : List (Stage α)) (limit : Option Nat) (emit : List Nat → ρ) :
    List (Level α) → List Nat → Progress ρ → Progress ρ
  | [], bound, progress =>
    let found := emit bound :: progress.found
    { goesOn := limit.all fun count => found.length < count, found := found }
  | level :: deeper, bound, progress =>
    tryRows (fun bound => level.checks.all fun p => p.holds ⟨stages, bound⟩)
      (descend stages limit emit deeper) bound level.rows progress

/-- The projection of a joined row. -/
def projectRow (stages : List (Stage α)) (slots : List (Nat × Nat)) (bound : List Nat) : List (Option α) :=
  slots.map fun (stage, column) => JoinedRow.stageElement ⟨stages, bound⟩ stage column

/-- The rows of a list without those that came before. -/
def dropRepeats [DecidableEq α] (rows : List (List (Option α))) : List (List (Option α)) :=
  (rows.foldl (fun unique row => if unique.contains row then unique else row :: unique) []).reverse

/-- The rows of a selection over given stages. -/
def rowsOver [DecidableEq α] (s : Selection α) (stages : List (Stage α)) : List (List (Option α)) :=
  let found :=
    (descend stages s.limit (projectRow stages (s.projected stages)) (s.levels stages) [] {}).found.reverse
  let kept := (if s.distinct then dropRepeats found else found).drop s.skip
  match s.top with
  | some count => kept.take count
  | none => kept

/-! ### The three forms of the result -/

variable [Element α]

/-- The result as rows. -/
def asRows (s : Selection α) (tables : TableId → Content α) : List (List (Option α)) :=
  s.rowsOver (s.stages tables)

/-- The title of a column of some stage. -/
def columnTitle (stages : List (Stage α)) (slot : Nat × Nat) : Option String :=
  (stages[slot.1]?.bind (·.columnTitles[slot.2]?)).join

/-- The result as a table: one column for each projected one, with its title, and the name of the table of the
    first. -/
def asTable (s : Selection α) (tables : TableId → Content α) : Content α :=
  let stages := s.stages tables
  let slots := s.projected stages
  let filled := Content.ofRows (s.rowsOver stages)
  let titled :=
    (filled.growTo filled.rowCount slots.length).setTitles .column (slots.map (columnTitle stages))
  { titled with name := (slots.head?.bind fun slot => stages[slot.1]?).bind Stage.name }

/-- The result by its first column.  Rows with a null key are left out and the last row of a key wins. -/
def asSortedMap (s : Selection α) (tables : TableId → Content α) : SortedMap α (List (Option α)) :=
  SortedMap.ofList ((s.asRows tables).filterMap fun row => (row.head?.join).map fun key => (key, row))

end Selection

end LiveTable
