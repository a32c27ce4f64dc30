import LiveTable.Proofs.Grid.Refinement
import LiveTable.Proofs.Selection.Search
import LiveTable.Proofs.Workspace.Mirror
import Mathlib.Data.List.Induction

/-! Attaching a store that holds rows.  Its rows come in front of those of the table, one after the
    other, each making the table as wide as it is, and the former rows are then written behind the rows
    of the store.  The store keeps its own rows as they were: it holds the rows of the table if and only
    if none of them was too short. -/

namespace LiveTable

open Grid (fit)

variable {α κ β ω : Type}

/-! ### Rows made wider again and again -/

/-- Filling up the rows in front changes nothing if and only if they all have the width. -/
theorem append_eq_append_fit_iff {width : Nat} {stored : List (List (Option β))}
    (behind : List (List (Option β))) :
    stored ++ behind = stored.map (fit width) ++ behind ↔ ∀ row ∈ stored, row.length = width := by
  rw [List.append_left_inj]
  constructor
  · intro same row mem
    have fitted : row ∈ stored.map (fit width) := (congrArg (row ∈ ·) same).mp mem
    obtain ⟨short, -, rfl⟩ := List.mem_map.mp fitted
    exact length_fit ..
  · exact fun wide => (map_fit_of_length wide).symm

theorem insertIdx_append {l : List β} {n : Nat} (length : l.length = n) (b : β) (rest : List β) :
    (l ++ rest).insertIdx n b = l ++ b :: rest := by
  subst length
  induction l with
  | nil => rfl
  | cons a l ih => exact congrArg (a :: ·) ih

/-- A grid that is tall enough is only made wider. -/
theorem Grid.pad_of_le {g : Grid α} {rows : Nat} (tall : rows ≤ g.count .row) (columns : Nat) :
    g.pad rows columns = g.extend .column (columns - g.count .column) := by
  show (g.extend .column (columns - g.count .column)).extend .row (rows - g.count .row) = _
  rw [Nat.sub_eq_zero_of_le tall, extend_zero]

/-! ### Loading rows -/

namespace Content

variable {c c' : Content α} {stored : StoredRows α} {ids : List StripeId}

theorem ids_appendEmpties_cross (c : Content α) (axis : Axis) (n : Nat) :
    ((c.appendEmpties axis n).stripes axis.cross).ids = (c.stripes axis.cross).ids := by
  induction n generalizing c with
  | zero => rfl
  | succ n ih => rw [appendEmpties, ih, appendEmpty, ids_insertStripe_cross]

/-- Growing wider puts no rows in. -/
theorem ids_growTo {rows : Nat} (tall : rows ≤ c.rowCount) (columns : Nat) :
    (c.growTo rows columns).rows.ids = c.rows.ids := by
  rw [growTo_of_tall tall]
  exact ids_appendEmpties_cross c .column _

/-- What putting a row in between those of a table makes of it: all rows get as wide as the widest, and
    the new one has an identity and no title. -/
structure Takes (c : Content α) (position : Nat) (row : List (Option α)) (id : StripeId)
    (c' : Content α) : Prop where
  valid : c'.Valid
  width : c'.columnCount = max c.columnCount row.length
  rows : c'.toRows = (c.toRows.map (fit c'.columnCount)).insertIdx position (fit c'.columnCount row)
  titles : c'.titles .row = (c.titles .row).insertIdx position none
  ids : c'.rows.ids = c.rows.ids.insertIdx position id

theorem Takes.of_insertElements {e : Edit α ω} (h : e.content.Valid) {position : Nat}
    (inside : position ≤ e.content.rowCount) (row : List (Option α)) :
    ∃ id, e.content.Takes position row id (e.insertElements .row position row).2.content := by
  let grown := (e.growAlong .row position row.length).content
  let more := row.length - e.content.columnCount
  have valid : grown.Valid := Edit.valid_growAlong h .row position row.length
  have content : (e.insertElements .row position row).2.content = grown.insertStripe .row position row :=
    Edit.content_insertElements ..
  -- the table is tall enough already, so it only grows wider before the row is put in
  have grid : (e.insertElements .row position row).2.content.grid =
      (e.content.grid.extend .column more).insert .row position row := by
    have tall : position ≤ e.content.grid.count .row := (count_grid e.content .row).symm ▸ inside
    rw [(Edit.grid_insertElements h .row position row).2, Grid.padAlong, Grid.pad_of_le tall, count_grid]
    rfl
  have room : position ≤ grown.rows.size :=
    Nat.le_trans (Nat.le_max_right ..) (Nat.le_of_eq (Edit.count_growAlong e .row position row.length).symm)
  have rowIds : (grown.insertStripe .row position row).rows.ids =
      e.content.rows.ids.insertIdx position ⟨grown.nextId⟩ := by
    have same : grown.rows.ids = e.content.rows.ids :=
      (congrArg (fun c : Content α => c.rows.ids) (Edit.content_growTo ..)).trans
        (ids_growTo inside row.length)
    have put :
        (grown.insertStripe .row position row).rows = grown.rows.insertAt position { id := ⟨grown.nextId⟩ } :=
      stripes_insertStripe_self ..
    rw [put, Stripes.ids_insertAt, Nat.min_eq_left room, same]
  rw [content] at grid ⊢
  have valid' := valid.insertStripe .row position row
  -- from here on all is read off the grid and the identities
  generalize grown.insertStripe .row position row = c' at grid rowIds valid'
  have wide : (e.content.grid.extend .column more).count .column = e.content.columnCount + more := by
    rw [Grid.count_extend, count_grid]
    rfl
  have width : c'.columnCount = e.content.columnCount + more :=
    (count_grid c' .column).symm.trans ((congrArg (Grid.count · .column) grid).trans wide)
  refine ⟨⟨grown.nextId⟩, valid', ?_, ?_, congrArg Grid.rowTitles grid, rowIds⟩
  · show c'.columnCount = max e.content.columnCount row.length
    omega
  · have put : c'.toRows = (e.content.toRows.map (· ++ List.replicate more none)).insertIdx position
        (fit (e.content.columnCount + more) row) := wide ▸ congrArg Grid.rows grid
    have filled : e.content.toRows.map (· ++ List.replicate more none) =
        e.content.toRows.map (fit (e.content.columnCount + more)) :=
      List.map_congr_left fun old mem => length_of_mem_toRows mem ▸ append_replicate_eq_fit old more
    rw [put, filled, width]

/-- The new row is where it was put. -/
theorem Takes.idAt {position : Nat} {row : List (Option α)} {id : StripeId} (h : c.Takes position row id c')
    (inside : position ≤ c.rowCount) : c'.rows.idAt position = some id := by
  have length : c.rows.ids.length = c.rowCount := Stripes.length_ids _
  rw [Stripes.idAt_eq, h.ids, List.getElem?_insertIdx_self, if_pos (length ▸ inside)]

/-- What loading the rows of a store makes of a table: they stand in front of its former rows, under new
    identities and without titles, and all rows are as wide as the widest. -/
structure Loads (c : Content α) (stored : StoredRows α) (ids : List StripeId) (c' : Content α) : Prop where
  valid : c'.Valid
  width : c'.columnCount = (stored.map List.length).foldl max c.columnCount
  rows : c'.toRows = (stored ++ c.toRows).map (fit c'.columnCount)
  titles : c'.titles .row = List.replicate stored.length none ++ c.titles .row
  length : ids.length = stored.length
  ids : c'.rows.ids = ids ++ c.rows.ids

theorem Loads.nothing (h : c.Valid) : c.Loads [] [] c where
  valid := h
  width := rfl
  rows := (map_fit_of_length fun _ mem => length_of_mem_toRows mem).symm
  titles := rfl
  length := rfl
  ids := rfl

/-- No row is wider than the table. -/
theorem Loads.length_le (h : c.Loads stored ids c') :
    ∀ row ∈ stored ++ c.toRows, row.length ≤ c'.columnCount := by
  obtain ⟨start, all⟩ := Selection.le_foldl_max (stored.map List.length) c.columnCount
  intro row mem
  rw [h.width]
  rcases List.mem_append.mp mem with mem | mem
  · exact all _ (List.mem_map_of_mem mem)
  · exact length_of_mem_toRows mem ▸ start

/-- The rows that are loaded come first. -/
theorem Loads.le_rowCount (h : c.Loads stored ids c') : stored.length ≤ c'.rowCount := by
  rw [← length_toRows, h.rows, List.length_map, List.length_append]
  exact Nat.le_add_right ..

/-- One more row, put in behind those that are loaded already. -/
theorem Loads.takes {wide : Content α} {row : List (Option α)} {id : StripeId} (h : c.Loads stored ids c')
    (takes : c'.Takes stored.length row id wide) : c.Loads (stored ++ [row]) (ids ++ [id]) wide where
  valid := takes.valid
  width := by
    rw [takes.width, h.width, List.map_append, List.foldl_append]
    rfl
  rows := by
    have wider : c'.toRows.map (fit wide.columnCount) = (stored ++ c.toRows).map (fit wide.columnCount) := by
      rw [h.rows, List.map_map]
      exact List.map_congr_left fun old mem => fit_fit (h.length_le old mem)
    rw [takes.rows, wider, List.map_append, insertIdx_append (List.length_map ..)]
    simp
  titles := by
    rw [takes.titles, h.titles, insertIdx_append List.length_replicate, List.length_append,
      List.length_singleton, List.replicate_succ', List.append_assoc]
    rfl
  length := by
    rw [List.length_append, List.length_append, h.length]
    rfl
  ids := by
    rw [takes.ids, h.ids, insertIdx_append h.length, List.append_assoc]
    rfl

end Content

namespace Edit

theorem hydrate_concat (e : Edit α ω) (stored : List (Option Nat × List (Option α))) (position : Nat)
    (row : List (Option α)) :
    e.hydrate (stored ++ [(some position, row)]) =
      let inserted := (e.hydrate stored).2.insertElements .row position row
      ((e.hydrate stored).1 ++ (inserted.2.content.rows.idAt inserted.1).toList, inserted.2) := by
  rw [hydrate, List.foldl_append]
  rfl

/-- Rows that are to be loaded from the first position on are put in one behind the other. -/
theorem loads_hydrate (e : Edit α ω) (h : e.content.Valid) (stored : StoredRows α) :
    let loaded := e.hydrate (stored.zipIdx.map fun (row, position) => (some position, row))
    e.content.Loads stored loaded.1 loaded.2.content := by
  induction stored using List.reverseRecOn with
  | nil => exact .nothing h
  | append_singleton stored row ih =>
    have last : (stored ++ [row]).zipIdx = stored.zipIdx ++ [(row, stored.length)] := by
      rw [List.zipIdx_append, Nat.zero_add]
      rfl
    obtain ⟨id, takes⟩ := Content.Takes.of_insertElements ih.valid ih.le_rowCount row
    have found := takes.idAt ih.le_rowCount
    rw [last, List.map_append, List.map_singleton, hydrate_concat]
    dsimp only
    rw [(grid_insertElements ih.valid .row stored.length row).1, found]
    exact ih.takes takes

end Edit

namespace Workspace

section Missing

variable {c : Content α} {loaded former : List StripeId}

/-- The rows behind those that came from a store are given to it, each at its place. -/
theorem missing_eq (h : c.Valid) (ids : c.rows.ids = loaded ++ former) :
    missing c loaded =
      ((c.toRows.drop loaded.length).zipIdx loaded.length).map fun entry =>
        StoreCall.add entry.2 entry.1 := by
  have distinct : (loaded ++ former).Nodup := ids ▸ (h.indexed .row).nodup
  obtain ⟨front, back, stripes, rfl, rfl⟩ := List.map_eq_append_iff.mp ids
  let add (entry : Stripe × Nat) : Option (StoreCall α) :=
    if (front.map Stripe.id).contains entry.1.id then none
    else some (.add entry.2 (StoreCall.rowOf c entry.2))
  have came : front.zipIdx.filterMap add = [] := by
    refine List.filterMap_eq_nil_iff.mpr fun entry mem => if_pos ?_
    exact List.contains_iff_mem.mpr (List.mem_map_of_mem (List.fst_mem_of_mem_zipIdx mem))
  have stays : (back.zipIdx front.length).filterMap add =
      (back.zipIdx front.length).map fun entry => StoreCall.add entry.2 (StoreCall.rowOf c entry.2) := by
    rw [← List.filterMap_eq_map]
    refine List.filterMap_congr fun entry mem => if_neg fun came => ?_
    have here := List.mem_map_of_mem (f := Stripe.id) (List.fst_mem_of_mem_zipIdx mem)
    exact (List.disjoint_of_nodup_append distinct) (List.contains_iff_mem.mp came) here
  have split : missing c (front.map Stripe.id) = (front ++ back).zipIdx.filterMap add := by
    rw [missing, ← stripes]
  rw [split, List.zipIdx_append, List.filterMap_append, came, List.nil_append, Nat.zero_add, stays,
    List.length_map]
  have count : c.toRows.length = front.length + back.length := by
    rw [Content.length_toRows, ← List.length_append, ← stripes]
    rfl
  refine List.ext_getElem (by simp [count]) fun i inside inside' => ?_
  have here : front.length + i < c.toRows.length := by
    rw [count]
    exact Nat.add_lt_add_left (by simpa using inside) _
  simp [StoreCall.rowOf_eq, here]

end Missing

variable [Element α] [JsonForm α] [BinaryForm α] [Ord κ] {ws : Workspace α κ} {t : TableId} {s : StoreId}

/-- A reliable store that no table has yet is loaded when it is attached, and gets the former rows behind
    its own. -/
theorem Attached.loads_attachStore (h : ws.Attached t s 0) (sound : ws.Sound)
    (reliable : (ws.store s).Reliable) :
    (∃ ids, (ws.content t).Loads (ws.store s).rows ids ((ws.attachStore t s).content t)) ∧
      ((ws.attachStore t s).store s).rows =
        (ws.store s).rows ++ (ws.content t).toRows.map
          (fit ((ws.attachStore t s).content t).columnCount) := by
  rw [attachStore_eq, loadStore_eq reliable]
  dsimp only
  have loading : Spares t s ws (ws.setStore s (ws.store s)) := .setStore_self s
  have same : (ws.setStore s (ws.store s)).store s = ws.store s := loading.store h.hasStore
  have unlisted := h.spared loading
  have valid : ((ws.setStore s (ws.store s)).content t).Valid := sound t
  have content : (ws.setStore s (ws.store s)).content t = ws.content t := rfl
  generalize ws.setStore s (ws.store s) = ws₁ at same unlisted valid content ⊢
  rw [← content, ← same]
  obtain ⟨ids, told, final, comes⟩ := Edit.exists_comesTo_hydrate valid
    ((ws₁.store s).rows.zipIdx.map fun (row, position) => (some position, row))
  have loads : (ws₁.content t).Loads (ws₁.store s).rows ids final := by
    have loaded := Edit.loads_hydrate (Edit.unobserved (ws₁.content t)) valid (ws₁.store s).rows
    have done := comes.eq Unit () fun _ _ => ()
    dsimp only at loaded done
    rw [Edit.unobserved, done] at loaded
    exact loaded
  obtain ⟨edited, store⟩ := unlisted.edit_unlisted comes
  have final_eq := content_edit comes edited.hasTable
  have ids_eq : (ws₁.edit t (Edit.hydrate
      ((ws₁.store s).rows.zipIdx.map fun (row, position) => (some position, row)))).1 = ids :=
    congrArg Prod.fst (edit_eq comes)
  rw [ids_eq]
  generalize (ws₁.edit t _).2 = ws₂ at edited store final_eq ⊢
  obtain ⟨-, -, contents, pushed⟩ :=
    edited.push_all (store.symm ▸ same.symm ▸ reliable) (missing (ws₂.content t) ids)
  have behind : final.toRows.drop ids.length = (ws₁.content t).toRows.map (fit final.columnCount) := by
    rw [loads.rows, List.map_append, loads.length]
    exact List.drop_left' (List.length_map ..)
  have given : StoreCall.applyAll (ws₂.store s).rows (missing (ws₂.content t) ids) =
      .ok ((ws₁.store s).rows ++ (ws₁.content t).toRows.map (fit final.columnCount)) := by
    rw [store, final_eq, missing_eq loads.valid loads.ids, behind, loads.length]
    exact StoreCall.applyAll_add _ _
  rw [content_modifyTable (by intro; rfl), contents, final_eq]
  rw [final_eq] at pushed given
  exact ⟨⟨ids, loads⟩, pushed _ given⟩

/-- Take any run, and attach a store to a table: a store in memory, or one with a file to which every
    save succeeds, that no table has yet, whatever rows it holds.  Then the table has the rows of the
    store and behind them its former rows, all filled up with nulls to the width of the widest, and the
    former rows have the identities and the titles that they had.  The store holds its own rows as they
    were and behind them the former rows of the table, so it holds the rows of the table exactly if all
    its own were of that width. -/
theorem run_attachStore_merges (before : List (Action α κ)) (hasTable : (run before).hasTable t)
    (hasStore : (run before).hasStore s) (unlisted : ∀ u, s ∉ ((run before).table u).stores)
    (reliable : ((run before).store s).Reliable) :
    let ws := run before
    let merged := run (before ++ [.on t (.attachStore s)])
    let stored := (ws.store s).rows
    let former := (ws.content t).toRows
    let width := (stored.map List.length).foldl max (ws.content t).columnCount
    (merged.content t).toRows = (stored ++ former).map (fit width) ∧
      (merged.content t).rows.ids.drop stored.length = (ws.content t).rows.ids ∧
      (merged.content t).titles .row = List.replicate stored.length none ++ (ws.content t).titles .row ∧
      (merged.store s).rows = stored ++ former.map (fit width) ∧
      ((merged.store s).rows = (merged.content t).toRows ↔ ∀ row ∈ stored, row.length = width) := by
  have attached : (run before).Attached t s 0 :=
    ⟨hasTable, hasStore, List.count_eq_zero.mpr (unlisted t), fun u _ => unlisted u⟩
  have joined : run (before ++ [.on t (.attachStore s)]) = (run before).attachStore t s := by
    rw [run, List.foldl_append]
    exact if_pos hasTable
  obtain ⟨⟨ids, loads⟩, rows⟩ := attached.loads_attachStore (Sound.run before) reliable
  rw [← joined] at loads rows
  -- the runs themselves are not to be unfolded when their parts are compared
  generalize run (before ++ [.on t (.attachStore s)]) = merged at loads rows ⊢
  generalize run before = ws at loads rows ⊢
  have table_rows := loads.rows
  rw [loads.width] at rows table_rows
  dsimp only
  refine ⟨table_rows, ?_, loads.titles, rows, ?_⟩
  · rw [loads.ids]
    exact List.drop_left' loads.length
  · rw [rows, table_rows, List.map_append]
    exact append_eq_append_fit_iff _

/-- A store whose rows are as wide as any holds the rows of the table from then on; the titled row is
    behind them. -/
theorem run_attachStore_merges_wide :
    let before : List (Action String RowKey) :=
      [.make (.rows [[some "a"]]) [.setTitle .row 0 (some "r")] "t",
        .addStore
          (.file { file := some "f", form := .binary, rows := [[none, some "b"], [some "c", none]] }) "s"]
    let merged := run (before ++ [.on ⟨0⟩ (.attachStore ⟨0⟩)])
    (merged.content ⟨0⟩).toRows = [[none, some "b"], [some "c", none], [some "a", none]] ∧
      (merged.content ⟨0⟩).titles .row = [none, none, some "r"] ∧
      (merged.store ⟨0⟩).rows = (merged.content ⟨0⟩).toRows := by
  intro before merged
  have hasTable : (run before).hasTable ⟨0⟩ := by decide +kernel
  have hasStore : (run before).hasStore ⟨0⟩ := by decide +kernel
  have unlisted (u : TableId) : ⟨0⟩ ∉ ((run before).table u).stores := by
    rcases u with ⟨_ | n⟩
    · decide +kernel
    · exact fun mem => by cases mem
  have reliable : ((run before).store ⟨0⟩).Reliable := by
    rintro name here disk bytes
    obtain rfl : "f" = name := Option.some.inj here
    rfl
  obtain ⟨rows, -, titles, -, same⟩ := run_attachStore_merges before hasTable hasStore unlisted reliable
  exact ⟨rows.trans (by decide +kernel), titles.trans (by decide +kernel), same.mpr (by decide +kernel)⟩

/-- A row of a store that is too short is filled up in the table and not in the store. -/
theorem run_attachStore_ragged :
    let merged : Workspace String RowKey := run
      [.make (.rows [[some "b", some "c"]]) [] "t", .addStore (.memory [[some "a"]]) "s",
        .on ⟨0⟩ (.attachStore ⟨0⟩)]
    (merged.content ⟨0⟩).toRows = [[some "a", none], [some "b", some "c"]] ∧
      (merged.store ⟨0⟩).rows = [[some "a"], [some "b", some "c"]] ∧
      (merged.store ⟨0⟩).rows ≠ (merged.content ⟨0⟩).toRows := by
  decide +kernel

end Workspace

end LiveTable
