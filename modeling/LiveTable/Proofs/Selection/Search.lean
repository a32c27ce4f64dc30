import LiveTable.Proofs.Selection.Meaning

/-! The search finds what the selection means.  Without a limit it enumerates the tuples that pass its
    levels, and taking one condition into account, wherever the planner puts it, takes from that
    enumeration exactly the tuples that fail the condition.  A limit cuts the enumeration off after so
    many tuples, which is no fewer than the result needs. -/

namespace LiveTable

variable {α : Type}

/-! ### What a condition depends on -/

namespace Predicate

variable {stages : List (Stage α)} {t u : List Nat}

theorem element_congr {r : ColumnRef} (same : ∀ i k, r.resolve stages = some (i, k) → t[i]? = u[i]?) :
    JoinedRow.element ⟨stages, t⟩ r = JoinedRow.element ⟨stages, u⟩ r := by
  rw [JoinedRow.element, JoinedRow.element]
  cases h : r.resolve stages with
  | none => rfl
  | some slot => simp [JoinedRow.stageElement, same slot.1 slot.2 h]

variable [DecidableEq α]

mutual

/-- Tuples with the same rows in the stages that a condition reads meet it both or neither. -/
theorem holds_congr : ∀ (p : Predicate α) {found : List Nat}, p.stagesRead stages = some found →
    (∀ i ∈ found, t[i]? = u[i]?) → p.holds ⟨stages, t⟩ = p.holds ⟨stages, u⟩
  | equalColumns a b, found, reads, same => by
    simp only [stagesRead, Option.some.injEq] at reads
    subst reads
    have left : JoinedRow.element ⟨stages, t⟩ a = JoinedRow.element ⟨stages, u⟩ a :=
      element_congr fun i k slot => same i (by simp [slot])
    have right : JoinedRow.element ⟨stages, t⟩ b = JoinedRow.element ⟨stages, u⟩ b :=
      element_congr fun i k slot => same i (by simp [slot])
    rw [holds, holds, left, right]
  | columnValue columns _ test, found, reads, same => by
    simp only [stagesRead, Option.some.injEq] at reads
    subst reads
    rw [holds, holds]
    refine Bool.eq_iff_iff.mpr ?_
    rw [List.all_eq_true, List.all_eq_true]
    refine forall₂_congr fun r mem => ?_
    have element : JoinedRow.element ⟨stages, t⟩ r = JoinedRow.element ⟨stages, u⟩ r :=
      element_congr fun i k slot => same i (List.mem_filterMap.mpr ⟨r, mem, by simp [slot]⟩)
    rw [element]
  | and ps, found, reads, same => by
    rw [holds, holds]
    exact holdsAll_congr ps reads same
  | or ps, found, reads, same => by
    rw [holds, holds]
    exact holdsAny_congr ps reads same
  | not p, found, reads, same => by
    rw [holds, holds, holds_congr p reads same]
  | custom _ _, found, reads, _ => by simp [stagesRead] at reads

theorem holdsAll_congr :
    ∀ (ps : List (Predicate α)) {found : List Nat}, stagesReadAll stages ps = some found →
    (∀ i ∈ found, t[i]? = u[i]?) → holdsAll ⟨stages, t⟩ ps = holdsAll ⟨stages, u⟩ ps
  | [], _, _, _ => by rw [holdsAll, holdsAll]
  | p :: rest, found, reads, same => by
    rw [stagesReadAll] at reads
    split at reads
    · next first others hp hrest =>
      obtain rfl := Option.some.inj reads
      rw [holdsAll, holdsAll, holds_congr p hp fun i mem => same i (List.mem_append_left _ mem),
        holdsAll_congr rest hrest fun i mem => same i (List.mem_append_right _ mem)]
    · simp at reads

theorem holdsAny_congr :
    ∀ (ps : List (Predicate α)) {found : List Nat}, stagesReadAll stages ps = some found →
    (∀ i ∈ found, t[i]? = u[i]?) → holdsAny ⟨stages, t⟩ ps = holdsAny ⟨stages, u⟩ ps
  | [], _, _, _ => by rw [holdsAny, holdsAny]
  | p :: rest, found, reads, same => by
    rw [stagesReadAll] at reads
    split at reads
    · next first others hp hrest =>
      obtain rfl := Option.some.inj reads
      rw [holdsAny, holdsAny, holds_congr p hp fun i mem => same i (List.mem_append_left _ mem),
        holdsAny_congr rest hrest fun i mem => same i (List.mem_append_right _ mem)]
    · simp at reads

end

end Predicate

namespace Selection

variable {stages : List (Stage α)}

/-! ### The planner's choice of a stage -/

mutual

/-- A condition reads stages that there are. -/
theorem lt_of_mem_stagesRead : ∀ (p : Predicate α) {found : List Nat}, p.stagesRead stages = some found →
    ∀ i ∈ found, i < stages.length
  | .equalColumns a b, found, reads, i, mem => by
    simp only [Predicate.stagesRead, Option.some.injEq] at reads
    subst reads
    simp only [List.mem_append, List.mem_map, Option.mem_toList, Prod.exists, exists_and_right,
      exists_eq_right] at mem
    rcases mem with ⟨k, slot⟩ | ⟨k, slot⟩
    · exact resolve_lt slot
    · exact resolve_lt slot
  | .columnValue columns _ _, found, reads, i, mem => by
    simp only [Predicate.stagesRead, Option.some.injEq] at reads
    subst reads
    obtain ⟨r, -, place⟩ := List.mem_filterMap.mp mem
    obtain ⟨slot, resolved, rfl⟩ := Option.map_eq_some_iff.mp place
    exact resolve_lt resolved
  | .and ps, found, reads, i, mem => by
    rw [Predicate.stagesRead] at reads
    exact lt_of_mem_stagesReadAll ps reads i mem
  | .or ps, found, reads, i, mem => by
    rw [Predicate.stagesRead] at reads
    exact lt_of_mem_stagesReadAll ps reads i mem
  | .not p, found, reads, i, mem => by
    rw [Predicate.stagesRead] at reads
    exact lt_of_mem_stagesRead p reads i mem
  | .custom _ _, found, reads, i, mem => by simp [Predicate.stagesRead] at reads

theorem lt_of_mem_stagesReadAll : ∀ (ps : List (Predicate α)) {found : List Nat},
    Predicate.stagesReadAll stages ps = some found → ∀ i ∈ found, i < stages.length
  | [], found, reads, i, mem => by
    simp only [Predicate.stagesReadAll, Option.some.injEq] at reads
    simp [← reads] at mem
  | p :: rest, found, reads, i, mem => by
    rw [Predicate.stagesReadAll] at reads
    split at reads
    · next first others hp hrest =>
      obtain rfl := Option.some.inj reads
      rcases List.mem_append.mp mem with here | later
      · exact lt_of_mem_stagesRead p hp i here
      · exact lt_of_mem_stagesReadAll rest hrest i later
    · simp at reads

end

theorem le_foldl_max : ∀ (l : List Nat) (start : Nat),
    start ≤ l.foldl max start ∧ ∀ i ∈ l, i ≤ l.foldl max start
  | [], start => by simp
  | i :: rest, start => by
    obtain ⟨here, there⟩ := le_foldl_max rest (max start i)
    rw [List.foldl_cons]
    refine ⟨by omega, fun j mem => ?_⟩
    rcases List.mem_cons.mp mem with rfl | later
    · omega
    · exact there j later

theorem foldl_max_lt {n : Nat} : ∀ (l : List Nat) {start : Nat}, start < n → (∀ i ∈ l, i < n) →
    l.foldl max start < n
  | [], _, low, _ => low
  | i :: rest, start, low, all => by
    have here := all i List.mem_cons_self
    exact foldl_max_lt rest (by omega) fun j mem => all j (List.mem_cons_of_mem _ mem)

/-- A condition that waits for a stage waits for one that there is and reads none beyond it. -/
theorem stagesRead_of_reach {p : Predicate α} {d : Nat} (positive : 0 < stages.length)
    (h : p.reach stages = .only d ∨ p.reach stages = .upTo d) :
    d < stages.length ∧ ∃ found, p.stagesRead stages = some found ∧ (∀ i ∈ found, i ≤ d) ∧
      (p.reach stages = .only d → ∀ i ∈ found, i = d) := by
  rw [Predicate.reach] at h ⊢
  cases reads : p.stagesRead stages with
  | none => simp [reads] at h
  | some found =>
    simp only [reads] at h ⊢
    have deepest := (le_foldl_max found 0).2
    have inside : found.foldl max 0 < stages.length :=
      foldl_max_lt found positive (lt_of_mem_stagesRead p reads)
    split at h
    · next all =>
      obtain rfl : found.foldl max 0 = d := by simpa using h
      rw [if_pos all]
      refine ⟨inside, found, rfl, deepest, fun _ i mem => ?_⟩
      simpa using List.all_eq_true.mp all i mem
    · next mixed =>
      obtain rfl : found.foldl max 0 = d := by simpa using h
      rw [if_neg mixed]
      exact ⟨inside, found, rfl, deepest, by simp⟩

section Enumerate

variable [DecidableEq α]

/-- The rows of a level that may follow some bound rows. -/
def accepted (stages : List (Stage α)) (level : Level α) (bound : List Nat) : List Nat :=
  level.rows.filter fun row => level.checks.all fun p => p.holds ⟨stages, bound ++ [row]⟩

/-- All tuples that pass the levels, below some bound rows. -/
def enumerate (stages : List (Stage α)) : List (Level α) → List Nat → List (List Nat)
  | [], bound => [bound]
  | level :: deeper, bound =>
    (accepted stages level bound).flatMap fun row => enumerate stages deeper (bound ++ [row])

/-- A tuple extends the bound rows by one row for each level. -/
theorem extends_of_mem_enumerate : ∀ {levels : List (Level α)} {bound t : List Nat},
    t ∈ enumerate stages levels bound → ∃ rest, t = bound ++ rest ∧ rest.length = levels.length
  | [], bound, t, mem => ⟨[], by simpa [enumerate] using mem, rfl⟩
  | level :: deeper, bound, t, mem => by
    obtain ⟨row, -, later⟩ := List.mem_flatMap.mp mem
    obtain ⟨rest, rfl, length⟩ := extends_of_mem_enumerate later
    exact ⟨row :: rest, by simp, by simp [length]⟩

/-- Letting a level accept only the rows with which the tuple so far meets a condition takes out the
    tuples that fail the condition on the rows up to that level. -/
theorem enumerate_modify (p : Predicate α) {f : Level α → Level α} {depth : Nat}
    (thins : ∀ level bound, bound.length = depth → accepted stages (f level) bound =
      (accepted stages level bound).filter fun row => p.holds ⟨stages, bound ++ [row]⟩) :
    ∀ (levels : List (Level α)) (bound : List Nat) {d : Nat}, bound.length + d = depth → d < levels.length →
      enumerate stages (levels.modify d f) bound =
        (enumerate stages levels bound).filter fun t => p.holds ⟨stages, t.take (depth + 1)⟩
  | [], _, _, _, inside => by simp at inside
  | level :: deeper, bound, 0, at?, _ => by
    have here (row : Nat) :
        (enumerate stages deeper (bound ++ [row])).filter (fun t => p.holds ⟨stages, t.take (depth + 1)⟩) =
          if p.holds ⟨stages, bound ++ [row]⟩ then enumerate stages deeper (bound ++ [row]) else [] := by
      have front : ∀ t ∈ enumerate stages deeper (bound ++ [row]), t.take (depth + 1) = bound ++ [row] := by
        intro t mem
        obtain ⟨rest, rfl, -⟩ := extends_of_mem_enumerate mem
        have length : (bound ++ [row]).length = depth + 1 := by simp [← at?]
        rw [← length, List.take_left]
      split
      · next yes => exact List.filter_eq_self.mpr fun t mem => by rw [front t mem, yes]
      · next no => exact List.filter_eq_nil_iff.mpr fun t mem => by rw [front t mem]; exact no
    rw [List.modify_zero_cons, enumerate, enumerate, thins level bound at?, List.filter_flatMap]
    simp only [here]
    generalize accepted stages level bound = rows
    induction rows with
    | nil => rfl
    | cons row rest ih =>
      rw [List.filter_cons, List.flatMap_cons, ← ih]
      split
      · rw [List.flatMap_cons]
      · rw [List.nil_append]
  | level :: deeper, bound, d + 1, at?, inside => by
    have each (row : Nat) : enumerate stages (deeper.modify d f) (bound ++ [row]) =
        (enumerate stages deeper (bound ++ [row])).filter fun t => p.holds ⟨stages, t.take (depth + 1)⟩ := by
      have length : (bound ++ [row]).length + d = depth := by
        rw [List.length_append, List.length_singleton]
        omega
      exact enumerate_modify p thins deeper _ length (by simpa using inside)
    rw [List.modify_succ_cons, enumerate, enumerate, List.filter_flatMap]
    simp only [each]

/-! ### Conditions -/

/-- A condition added to the checks of a level is checked on the rows up to that level. -/
theorem accepted_check (p : Predicate α) (level : Level α) (bound : List Nat) :
    accepted stages { level with checks := level.checks ++ [p] } bound =
      (accepted stages level bound).filter fun row => p.holds ⟨stages, bound ++ [row]⟩ := by
  simp [accepted, List.filter_filter, Bool.and_comm]

/-- A condition on one stage alone thins out the rows of that stage, whatever was bound before. -/
theorem accepted_rows {p : Predicate α} {d : Nat} (positive : 0 < stages.length)
    (only : p.reach stages = .only d) (level : Level α) {bound : List Nat} (at? : bound.length = d) :
    accepted stages { level with rows := level.rows.filter (admits stages p d) } bound =
      (accepted stages level bound).filter fun row => p.holds ⟨stages, bound ++ [row]⟩ := by
  obtain ⟨-, found, reads, -, alone⟩ := stagesRead_of_reach positive (.inl only)
  have same (row : Nat) : admits stages p d row = p.holds ⟨stages, bound ++ [row]⟩ := by
    refine Predicate.holds_congr p reads fun i mem => ?_
    obtain rfl := alone only i mem
    rw [List.getElem?_append_right (by simp), List.getElem?_append_right (by omega)]
    simp [at?]
  simp only [accepted, List.filter_filter]
  refine List.filter_congr fun row _ => ?_
  rw [same, Bool.and_comm]

/-- Taking one condition into account takes out the tuples that fail it. -/
theorem enumerate_addCondition {levels : List (Level α)} (positive : 0 < stages.length)
    (length : levels.length = stages.length) (p : Predicate α) :
    enumerate stages (addCondition stages levels p) [] =
      (enumerate stages levels []).filter fun t => p.holds ⟨stages, t⟩ := by
  have early {d : Nat} (h : p.reach stages = .only d ∨ p.reach stages = .upTo d) (t : List Nat) :
      p.holds ⟨stages, t.take (d + 1)⟩ = p.holds ⟨stages, t⟩ := by
    obtain ⟨-, found, reads, below, -⟩ := stagesRead_of_reach positive h
    refine Predicate.holds_congr p reads fun i mem => ?_
    rw [List.getElem?_take_of_lt (Nat.lt_succ_of_le (below i mem))]
  rw [addCondition]
  cases h : p.reach stages with
  | only d =>
    have inside := (stagesRead_of_reach positive (.inl h)).1
    refine (enumerate_modify p (fun level _ at? => accepted_rows positive h level at?) levels []
      (Nat.zero_add d) (by omega)).trans ?_
    exact List.filter_congr fun t _ => early (.inl h) t
  | upTo d =>
    have inside := (stagesRead_of_reach positive (.inr h)).1
    refine (enumerate_modify p (fun level bound _ => accepted_check p level bound) levels [] (Nat.zero_add d)
      (by omega)).trans ?_
    exact List.filter_congr fun t _ => early (.inr h) t
  | all =>
    refine (enumerate_modify p (fun level bound _ => accepted_check p level bound) levels [] (Nat.zero_add _)
      (by omega)).trans ?_
    refine List.filter_congr fun t mem => ?_
    obtain ⟨rest, rfl, whole⟩ := extends_of_mem_enumerate mem
    rw [List.take_of_length_le (by omega)]

/-- All tuples with one row position for each stage, in the order of nested loops. -/
def tuples : List (Stage α) → List (List Nat)
  | [] => [[]]
  | stage :: deeper => (List.range stage.rows.length).flatMap fun row => (tuples deeper).map (row :: ·)

theorem enumerate_ranges (stages : List (Stage α)) : ∀ (deeper : List (Stage α)) (bound : List Nat),
    enumerate stages (deeper.map fun stage => { rows := List.range stage.rows.length }) bound =
      (tuples deeper).map (bound ++ ·)
  | [], bound => by simp [enumerate, tuples]
  | stage :: deeper, bound => by
    have every :
        accepted stages { rows := List.range stage.rows.length } bound = List.range stage.rows.length := by
      simp [accepted]
    rw [List.map_cons, enumerate, every, tuples, List.map_flatMap]
    simp only [enumerate_ranges stages deeper, List.map_map]
    simp [Function.comp_def]

/-- The levels of a search enumerate the tuples that meet all conditions, in the order of nested loops. -/
theorem enumerate_levels (s : Selection α) (positive : 0 < stages.length) :
    enumerate stages (s.levels stages) [] =
      (tuples stages).filter fun t => ∀ p ∈ s.conditions, p.holds ⟨stages, t⟩ := by
  have each (ps : List (Predicate α)) (levels : List (Level α)) (length : levels.length = stages.length) :
      enumerate stages (ps.foldl (addCondition stages) levels) [] =
        (enumerate stages levels []).filter fun t => ∀ p ∈ ps, p.holds ⟨stages, t⟩ := by
    induction ps generalizing levels with
    | nil => exact (List.filter_eq_self.mpr fun t _ => by simp).symm
    | cons p rest ih =>
      have kept : (addCondition stages levels p).length = stages.length := by
        rw [addCondition]
        split <;> rw [List.length_modify, length]
      rw [List.foldl_cons, ih _ kept, enumerate_addCondition positive length, List.filter_filter]
      refine List.filter_congr fun t _ => ?_
      rw [Bool.eq_iff_iff]
      simp [and_comm]
  rw [levels, each _ _ (by simp), enumerate_ranges]
  simp

end Enumerate

/-! ### The limit -/

section Limit

variable {ρ : Type}

/-- Hands results to a search one after the other until it ends. -/
def feed (limit : Option Nat) : List ρ → Progress ρ → Progress ρ
  | [], progress => progress
  | result :: rest, progress =>
    let found := result :: progress.found
    let goesOn := limit.all fun count => decide (found.length < count)
    if goesOn then feed limit rest ⟨goesOn, found⟩ else ⟨goesOn, found⟩

theorem feed_append (limit : Option Nat) : ∀ (first later : List ρ) {progress : Progress ρ},
    progress.goesOn = true →
    feed limit (first ++ later) progress =
      if (feed limit first progress).goesOn then feed limit later (feed limit first progress)
      else feed limit first progress
  | [], later, progress, on => by simp [feed, on]
  | result :: rest, later, progress, _ => by
    rw [List.cons_append, feed, feed]
    split
    · next on => exact feed_append limit rest later on
    · rfl

/-- A search hands out the tuples that it enumerates. -/
theorem descend_eq_feed [DecidableEq α] (stages : List (Stage α)) (limit : Option Nat) (emit : List Nat → ρ) :
    ∀ (levels : List (Level α)) (bound : List Nat) {progress : Progress ρ}, progress.goesOn = true →
      descend stages limit emit levels bound progress =
        feed limit ((enumerate stages levels bound).map emit) progress
  | [], bound, progress, _ => by
    simp only [descend, enumerate, List.map_cons, List.map_nil, feed]
    split <;> rfl
  | level :: deeper, bound, progress, on => by
    rw [descend, enumerate, accepted]
    generalize level.rows = rows
    induction rows generalizing progress with
    | nil => rfl
    | cons row rest ih =>
      rw [tryRows, List.filter_cons]
      split
      · next met =>
        rw [List.flatMap_cons, List.map_append, feed_append limit _ _ on,
          descend_eq_feed stages limit emit deeper (bound ++ [row]) on]
        dsimp only
        split
        · next further => exact ih _ further
        · rfl
      · next failed => exact ih _ on

/-- A search without a limit finds everything. -/
theorem found_feed_none : ∀ (results : List ρ) (progress : Progress ρ),
    (feed none results progress).found = results.reverse ++ progress.found
  | [], _ => rfl
  | result :: rest, progress => by
    simp only [feed, Option.all_none, if_true]
    rw [found_feed_none rest]
    simp

/-- A search with a limit finds as many results as are missing, though one at least. -/
theorem found_feed_some (count : Nat) : ∀ (results : List ρ) (progress : Progress ρ),
    (feed (some count) results progress).found =
      (results.take (max (count - progress.found.length) 1)).reverse ++ progress.found
  | [], _ => by simp [feed]
  | result :: rest, progress => by
    have one :
        max (count - progress.found.length) 1 = max (count - progress.found.length) 1 - 1 + 1 := by omega
    rw [feed, one, List.take_succ_cons]
    split
    · next more =>
      have more : progress.found.length + 1 < count := by simpa using more
      have missing : max (count - progress.found.length) 1 - 1 =
          max (count - (result :: progress.found).length) 1 := by
        rw [List.length_cons]
        omega
      rw [found_feed_some count rest, missing]
      simp
    · next enough =>
      have enough : ¬progress.found.length + 1 < count := by simpa using enough
      have missing : max (count - progress.found.length) 1 - 1 = 0 := by omega
      simp [missing]

end Limit

/-- Keeping the first of each kind by looking back is what the library's function does. -/
theorem dropRepeats_eq [DecidableEq α] (rows : List (List (Option α))) :
    dropRepeats rows = rows.eraseDups := by
  have step : ∀ (rows seen : List (List (Option α))),
      (rows.foldl (fun unique row => if unique.contains row then unique else row :: unique) seen).reverse =
        List.eraseDupsBy.loop (· == ·) rows seen := by
    intro rows
    induction rows with
    | nil => exact fun seen => rfl
    | cons row rest ih =>
      intro seen
      rw [List.foldl_cons, ih, List.eraseDupsBy.loop]
      have same : (seen.any fun other => row == other) = seen.contains row := by
        rw [List.contains_eq_any_beq]
      rw [same]
      cases seen.contains row <;> rfl
  exact step rows []

/-! ### Choices of rows -/

variable {tables : TableId → Content α}

theorem length_of_mem_tuples : ∀ {stages : List (Stage α)} {t : List Nat}, t ∈ tuples stages →
    t.length = stages.length
  | [], t, mem => by
    obtain rfl := List.mem_singleton.mp mem
    rfl
  | stage :: deeper, t, mem => by
    obtain ⟨row, -, mem⟩ := List.mem_flatMap.mp mem
    obtain ⟨rest, deep, rfl⟩ := List.mem_map.mp mem
    rw [List.length_cons, length_of_mem_tuples deep, List.length_cons]

/-- The choices of rows are the tuples, each row with its table. -/
theorem choices_eq_map_tuples (tables : TableId → Content α) : ∀ ts : List TableId,
    choices tables ts = (tuples (ts.map fun t => Stage.ofContent t (tables t))).map ts.zip
  | [] => rfl
  | t :: later => by
    have height : (Stage.ofContent t (tables t)).rows.length = (tables t).rowCount := by
      rw [Stage.ofContent, Content.toRows_eq_map, List.length_map, List.length_range]
    rw [choices, List.map_cons, tuples, height, List.map_flatMap, choices_eq_map_tuples tables later]
    simp only [List.map_map, Function.comp_def, List.zip_cons_cons]

/-- A tuple of the stages of a selection is what a test of whole rows is given for the choice of its rows. -/
theorem joined_zip {ts : List TableId} {t : List Nat}
    (mem : t ∈ tuples (ts.map fun t => Stage.ofContent t (tables t))) :
    Choice.joined tables (ts.zip t) = ⟨ts.map fun t => Stage.ofContent t (tables t), t⟩ := by
  have length : t.length = ts.length := (length_of_mem_tuples mem).trans (List.length_map ..)
  have fsts : (ts.zip t).map Prod.fst = ts := List.map_fst_zip (by omega)
  have stages : ((ts.zip t).map fun chosen => Stage.seen chosen.1 (tables chosen.1)) =
      ((ts.zip t).map Prod.fst).map fun t => Stage.ofContent t (tables t) := by
    rw [List.map_map]
    exact List.map_congr_left fun chosen _ => (Stage.ofContent_eq_seen ..).symm
  rw [Choice.joined, stages, fsts, List.map_snd_zip (by omega)]

/-- The tuples that meet all conditions, projected, are the choices of rows in the result as the
    selection shows them. -/
theorem map_projectRow_tuples [DecidableEq α] (s : Selection α) (tables : TableId → Content α) :
    ((tuples (s.stages tables)).filter fun t => ∀ p ∈ s.conditions, p.holds ⟨s.stages tables, t⟩).map
        (projectRow (s.stages tables) (s.projected (s.stages tables))) =
      ((choices tables (s.steps.map JoinStep.table)).filter fun choice => s.Accepts tables choice).map
        (s.shown tables) := by
  have same : s.stages tables =
      (s.steps.map JoinStep.table).map fun t => Stage.ofContent t (tables t) := by
    rw [List.map_map]
    rfl
  rw [choices_eq_map_tuples, ← same, List.filter_map, List.map_map]
  have joined {t : List Nat} (mem : t ∈ tuples (s.stages tables)) :
      Choice.joined tables ((s.steps.map JoinStep.table).zip t) = ⟨s.stages tables, t⟩ := by
    rw [same] at mem ⊢
    exact joined_zip mem
  have met : (tuples (s.stages tables)).filter (fun t => ∀ p ∈ s.conditions, p.holds ⟨s.stages tables, t⟩) =
      (tuples (s.stages tables)).filter fun t => s.Accepts tables ((s.steps.map JoinStep.table).zip t) := by
    refine List.filter_congr fun t mem => ?_
    simp only [accepts_iff, joined mem]
  rw [met]
  refine List.map_congr_left fun t mem => ?_
  have shown : projectRow _ _ _ = s.shown tables ((s.steps.map JoinStep.table).zip t) := projectRow_joined
  rw [joined (List.mem_of_mem_filter mem)] at shown
  exact shown

/-- Running a selection gives what it means: neither thinning out the rows of one stage beforehand, nor
    checking conditions early, nor ending the search at the limit changes the result. -/
theorem asRows_eq_meaning [Element α] (s : Selection α) (tables : TableId → Content α) :
    s.asRows tables = s.meaning tables := by
  have positive : 0 < (s.stages tables).length := by
    rw [stages, List.length_map]
    exact List.length_pos_iff.mpr s.steps_ne_nil
  rw [asRows, rowsOver, meaning, descend_eq_feed _ s.limit _ _ [] rfl, enumerate_levels s positive,
    map_projectRow_tuples]
  generalize ((choices tables (s.steps.map JoinStep.table)).filter fun choice => s.Accepts tables choice).map
    (s.shown tables) = results
  cases distinct : s.distinct with
  | true =>
    have limit : s.limit = none := by simp [Selection.limit, distinct]
    simp only [limit, found_feed_none, List.append_nil, List.reverse_reverse, if_true]
    cases s.top <;> simp only [dropRepeats_eq]
  | false =>
    cases top : s.top with
    | none =>
      have limit : s.limit = none := by simp [Selection.limit, distinct, top]
      simp only [limit, found_feed_none, List.append_nil, List.reverse_reverse, Bool.false_eq_true, if_false]
    | some count =>
      have limit : s.limit = some (s.skip + count) := by simp [Selection.limit, distinct, top]
      simp only [limit, found_feed_some, List.append_nil, List.reverse_reverse, Bool.false_eq_true, if_false]
      rw [List.drop_take, List.take_take]
      congr 1
      simp only [List.length_nil]
      omega

/-- Two tables and the first of them again.  Rows of the same kind are joined, one filter wants a column
    that is not there to be null and the size not to be `z`, and another the third row to be the first.
    Two rows of kind `a` are left, one of kind `b` and one of kind `c`; without repetitions the second is
    taken and no more.  The column that is not there is asked for as well and is not shown. -/
theorem asRows_eq_meaning_joined :
    let tables : TableId → Content String := fun t =>
      if t = ⟨0⟩ then .ofRows [[some "a"], [some "b"], [some "c"]]
      else .ofRows [[some "a", some "x"], [some "b", some "y"], [some "a", some "x"], [some "a", some "z"],
        [some "c", some "y"], [none, some "w"]]
    let kind : ColumnRef := ⟨⟨0⟩, .position 0⟩
    let other : ColumnRef := ⟨⟨1⟩, .position 0⟩
    let size : ColumnRef := ⟨⟨1⟩, .position 1⟩
    let missing : ColumnRef := ⟨⟨0⟩, .position 7⟩
    let joined : Selection String :=
      (((start ⟨0⟩).project (.column 0)).join ⟨1⟩).on (.equalColumns kind other)
    let sized :=
      (joined.filter (.and [.columnIsNull missing, .not (.columnEquals size "z")])).project (.column 1)
    let again := (sized.join ⟨0⟩).filter (.custom [] fun j => j.rowIndex 0 == j.rowIndex 2)
    let s := { (again.project (.column 0)).project (.reference missing) with
      distinct := true, skip := 1, top := some 1 }
    s.asRows tables = [[some "b", some "y", some "b"]] := by
  intro tables kind other size missing joined sized again s
  exact (asRows_eq_meaning s tables).trans (by decide +kernel)

end Selection

end LiveTable
