import LiveTable.Content.Window
import LiveTable.Proofs.Content.Growth
import LiveTable.Proofs.Selection.Terminals
import LiveTable.Proofs.Workspace.Evolution

/-! The keyed views of a column.  The map of the rows, the map of one column by another, the map of a
    query for everything and the index of the column are worked out in four ways, and all show the
    elements of the column, ascending and without nulls.  The maps follow from the rows as a list; the
    index shows its column after every run, and two strictly ascending lists with the same members are
    the same. -/

namespace LiveTable

variable {α κ : Type}

namespace Content

/-! ### Maps of a content -/

/-- The element at a position in a row, also beside the table. -/
theorem getElem?_line_join (c : Content α) (row k : Nat) :
    ((List.range c.columnCount).map (c.element row))[k]?.join = c.element row k := by
  by_cases inside : k < c.columnCount
  · simp [inside]
  · simp [inside, element_of_le (.inr (Nat.le_of_not_lt inside))]

theorem exists_mem_toRows {c : Content α} {k : Nat} {a : α} :
    (∃ row ∈ c.toRows, row[k]?.join = some a) ↔ ∃ p, c.element p k = some a := by
  rw [toRows_eq_map]
  constructor
  · rintro ⟨row, mem, found⟩
    obtain ⟨p, -, rfl⟩ := List.mem_map.mp mem
    exact ⟨p, (getElem?_line_join c p k).symm.trans found⟩
  · rintro ⟨p, found⟩
    have inside : p < c.rowCount := by
      refine Nat.lt_of_not_le fun below => ?_
      rw [element_of_le (.inl below)] at found
      cases found
    exact ⟨_, List.mem_map_of_mem (List.mem_range.mpr inside), (getElem?_line_join c p k).trans found⟩

section Maps

variable [Ord α]

/-- The map of one column by another has the elements of the one in place of the rows. -/
theorem toSortedMapOf_eq (c : Content α) (key value : Nat) :
    c.toSortedMapOf key value = (c.toSortedMap key).map (Prod.map id fun row => row[value]?.join) := by
  have each (row : Nat) :
      (c.element row key).map (fun k => (k, c.element row value)) =
        ((((List.range c.columnCount).map (c.element row))[key]?.join).map fun k =>
          (k, (List.range c.columnCount).map (c.element row))).map
            (Prod.map id fun elements : List (Option α) => elements[value]?.join) := by
    rw [getElem?_line_join, Option.map_map]
    exact congrArg (Option.map · _) (funext fun k =>
      congrArg (Prod.mk k) (getElem?_line_join c row value).symm)
  rw [toSortedMapOf, toSortedMap, SortedMap.map_ofList, List.map_filterMap, toRows_eq_map, List.filterMap_map]
  exact congrArg SortedMap.ofList (List.filterMap_congr fun row _ => each row)

variable [DecidableEq α] [Std.LawfulEqOrd α] [Std.TransOrd α]

theorem latest_toSortedMap (c : Content α) (k : Nat) :
    (c.toSortedMap k).Latest (fun row => row[k]?.join) c.toRows :=
  SortedMap.latest_byKey _ _

theorem mem_keys_toSortedMap {c : Content α} {k : Nat} {a : α} :
    a ∈ (c.toSortedMap k).keys ↔ ∃ p, c.element p k = some a :=
  (c.latest_toSortedMap k).mem_keys.trans exists_mem_toRows

/-- An index that shows a column has the keys of the map of that column. -/
theorem keys_of_shows {c : Content α} {k : Nat} {x : ColumnIndex α} (shows : x.Shows c k) :
    x.groups.keys = (c.toSortedMap k).keys :=
  SortedMap.eq_of_mem_iff shows.ascending
    (SortedMap.ascending_keys (c.latest_toSortedMap k).ascending) fun a =>
    (shows.keys a).trans mem_keys_toSortedMap.symm

end Maps

end Content

namespace Selection

/-! ### The query for everything -/

theorem tuples_singleton (stage : Stage α) :
    tuples [stage] = (List.range stage.rows.length).map fun row => [row] := by
  rw [List.map_eq_flatMap]
  rfl

/-- The query for everything in a table gives its rows. -/
theorem asRows_start [Element α] (tables : TableId → Content α) (t : TableId) :
    (start t).asRows tables = (tables t).toRows := by
  let c := tables t
  let s : Selection α := start t
  let stage := Stage.ofContent t c
  have element (row column : Nat) : stage.element row column = c.element row column := by
    rw [Content.element_eq, ← Content.toRows_eq]
    rfl
  have slots : s.projected [stage] = (List.range c.columnCount).map fun column => (0, column) := by
    rw [Content.columnCount, Content.count_eq]
    rfl
  have levels : s.levels [stage] = [stage].map fun stage => { rows := List.range stage.rows.length } := rfl
  have line (row : Nat) : projectRow [stage] (s.projected [stage]) [row] =
      (List.range c.columnCount).map (c.element row) := by
    rw [slots, projectRow, List.map_map]
    exact List.map_congr_left fun column _ => element row column
  have rows :
      (enumerate [stage] (s.levels [stage]) []).map (projectRow [stage] (s.projected [stage])) =
        c.toRows := by
    have height : stage.rows.length = c.rowCount := c.length_toRows
    rw [levels, enumerate_ranges, tuples_singleton, height, List.map_map, List.map_map, Content.toRows_eq_map]
    exact List.map_congr_left fun row _ => line row
  -- nothing is left out, and without a limit the search hands out all that there is
  have found : s.asRows tables =
      (descend [stage] none (projectRow [stage] (s.projected [stage])) (s.levels [stage]) []
        {}).found.reverse := rfl
  rw [found, descend_eq_feed _ _ _ _ _ rfl, rows, found_feed_none, List.append_nil, List.reverse_reverse]

theorem asSortedMap_start [Element α] (tables : TableId → Content α) (t : TableId) :
    (start t).asSortedMap tables = (tables t).toSortedMap 0 := by
  rw [asSortedMap_eq, asRows_start]
  rfl

end Selection

namespace Workspace

variable [Element α] [JsonForm α] [BinaryForm α] [Ord κ] [Std.LawfulEqOrd α] [Std.TransOrd α]
  [Std.LawfulEqOrd κ] [Std.TransOrd κ]

/-- Asking for the index of a column that is there gives an index, and it shows the column. -/
theorem shows_indexOf (actions : List (Action α κ)) {t : TableId} {k : Nat}
    (inside : k < ((run actions).content t).columnCount) :
    ∃ i ws' x, (run actions).indexOf t k = some (i, ws') ∧ ws'.index? i = some (.column t x) ∧
      x.Shows ((run actions).content t) k := by
  have upToDate := upToDate_run actions
  generalize run actions = ws at *
  obtain ⟨id, at?⟩ : ∃ id, (ws.content t).columns.idAt k = some id := by
    rw [Content.columnCount, Content.count_eq] at inside
    exact ⟨_, (Stripes.idAt_eq ..).trans (List.getElem?_eq_getElem inside)⟩
  have mem : id ∈ ((ws.content t).stripes .column).ids := Stripes.mem_ids_of_idAt at?
  have there := hasTable_of_mem mem
  obtain ⟨⟨i, ws'⟩, asked⟩ : ∃ result, ws.indexOf t k = some result := by
    rw [indexOf, at?]
    exact ⟨_, rfl⟩
  obtain ⟨x, found, own⟩ := upToDate.index?_indexOf asked
  have gives := upToDate.indexOf there asked
  have same : ws'.content t = ws.content t := (spares_indexOf (s := ⟨0⟩) asked).content there
  have agrees : x.Agrees (ws.content t) := same ▸ (gives.serves.follows t x found).agrees
  exact ⟨i, ws', x, asked, found, agrees.shows (upToDate.valid t) own⟩

/-- The keyed views of a column agree.  The map of a table by a column has the elements of the column as
    its keys, ascending, each with the last row that holds it, whether or not there is such a column; the
    map of another column by it has the elements of these rows; a query for everything gives the map by
    the first column.  After every run, the index of a column has the same keys, be it asked for now or
    held since before. -/
theorem keyed_views_agree :
    (∀ (c : Content α) (k : Nat), (c.toSortedMap k).Latest (fun row => row[k]?.join) c.toRows ∧
      (∀ a, a ∈ (c.toSortedMap k).keys ↔ ∃ p, c.element p k = some a) ∧
      ∀ v, c.toSortedMapOf k v = (c.toSortedMap k).map (Prod.map id fun row => row[v]?.join)) ∧
    (∀ (tables : TableId → Content α) (t : TableId),
      (Selection.start t).asSortedMap tables = (tables t).toSortedMap 0) ∧
    ∀ (actions : List (Action α κ)) (t : TableId) (k : Nat),
      let ws := run actions
      let c := ws.content t
      k < c.columnCount →
        (∃ i ws' x, ws.indexOf t k = some (i, ws') ∧ ws'.index? i = some (.column t x) ∧
          x.groups.keys = (c.toSortedMap k).keys) ∧
        ∀ i x, ws.holdsIndex i → ws.index? i = some (.column t x) → c.columns.idAt k = some x.column →
          x.groups.keys = (c.toSortedMap k).keys := by
  refine ⟨fun c k => ⟨c.latest_toSortedMap k, fun a => Content.mem_keys_toSortedMap, c.toSortedMapOf_eq k⟩,
    Selection.asSortedMap_start, ?_⟩
  intro actions t k ws c inside
  refine ⟨?_, fun i x held found own => ?_⟩
  · obtain ⟨i, ws', x, asked, found, shows⟩ := shows_indexOf actions inside
    exact ⟨i, ws', x, asked, found, Content.keys_of_shows shows⟩
  · have upToDate := upToDate_run actions
    have agrees := (upToDate.follows i t x held found).agrees
    exact Content.keys_of_shows (agrees.shows (upToDate.valid t) own)

/-- The index was made before a column came in front of its own, a row was moved and a cell written;
    another key column stands beside the table. -/
theorem keyed_views_agree_edited :
    let actions : List (Action String RowKey) :=
      [.make (.rows [[some "b"], [some "a"], [some "b"]]) [] "t", .on ⟨0⟩ (.indexOf 0 "x"),
        .on ⟨0⟩ (.perform (.insertElements .column 0 [some "q", none, some "p"])),
        .on ⟨0⟩ (.perform (.moveRow 0 2)), .on ⟨0⟩ (.perform (.setElement 0 1 (some "c")))]
    let c := (run actions).content ⟨0⟩
    (c.toSortedMap 1).keys = ["b", "c"] ∧ (c.toSortedMap 1).get? "b" = some [some "q", some "b"] ∧
      (c.toSortedMapOf 1 7).get? "b" = some none ∧ (c.toSortedMap 7).keys = [] ∧
      ∃ x, (run actions).index? ⟨0⟩ = some (.column ⟨0⟩ x) ∧ x.groups.keys = ["b", "c"] := by
  intro actions c
  obtain ⟨maps, -, indexes⟩ := keyed_views_agree (α := String) (κ := RowKey)
  have keys : (c.toSortedMap 1).keys = ["b", "c"] := by decide +kernel
  have held : (run actions).holdsIndex ⟨0⟩ := by decide +kernel
  have here : c.columns.idAt 1 = some ⟨0⟩ := by decide +kernel
  have found : ((run actions).index? ⟨0⟩).any fun index => index.watches ⟨0⟩ && index.table == ⟨0⟩ := by
    decide +kernel
  refine ⟨keys, ((maps c 1).1.get? "b").trans (by decide +kernel), ?_, by decide +kernel, ?_⟩
  · rw [(maps c 1).2.2 7]
    decide +kernel
  · cases at? : (run actions).index? ⟨0⟩ with
    | none => simp [at?] at found
    | some index =>
      cases index with
      | keyed => simp [at?, Index.watches] at found
      | column t x =>
        simp only [at?, Option.any_some, Bool.and_eq_true, Index.watches, Index.table, beq_iff_eq] at found
        obtain ⟨own, rfl⟩ := found
        have agree := (indexes actions ⟨0⟩ 1 (by decide +kernel)).2 ⟨0⟩ x held at? (own ▸ here)
        exact ⟨x, rfl, agree.trans keys⟩

end Workspace

end LiveTable
