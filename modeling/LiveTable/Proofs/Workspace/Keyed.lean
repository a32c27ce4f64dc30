import LiveTable.Proofs.Workspace.Run

/-! Keyed indexes in a run of a workspace.  As long as its table lists it, a keyed index that some name
    holds shows the keys of the rows that are there: all events reach it, so it is never behind.  It may
    be taken off the list when its name is asked for with another kind of keys; from then on it stands
    still. -/

namespace LiveTable.Workspace

variable {α κ : Type}

/-- The positions of rows that are all there are the positions of these rows. -/
theorem map_idAt_rowPositions {ws : Workspace α κ} {t : TableId} (kept : ws.holdsTable t)
    (valid : (ws.content t).Valid)
    {rows : List StripeId} (live : ∀ r ∈ rows, ∃ p, (ws.content t).rows.positionOf r = some p) :
    (ws.rowPositions t rows).map (ws.content t).rows.idAt = rows.map some := by
  rw [rowPositions, if_pos kept, List.map_filterMap]
  have place (r : StripeId) (mem : r ∈ rows) :
      ((ws.content t).rows.positionOf r).map (ws.content t).rows.idAt = some (some r) := by
    obtain ⟨p, at_row⟩ := live r mem
    have at? : (ws.content t).rows.idAt p = some r := (valid.indexed .row r p).mp at_row
    rw [at_row, Option.map_some, at?]
  rw [List.filterMap_congr place]
  exact congrFun List.filterMap_eq_map rows

variable [Element α] [JsonForm α] [BinaryForm α] [Ord κ] [Std.LawfulEqOrd α] [Std.TransOrd α]
  [Std.LawfulEqOrd κ] [Std.TransOrd κ] {t : TableId} {i : IndexId}

/-- After every run, a keyed index that its table lists and some name holds shows the rows of the table:
    its keys are those of the rows, ascending, and looking a key up finds exactly the rows that have it,
    oldest first.  The two directions of the groups are inverse to each other, no key is without rows,
    and what is below a key and what is not make up the whole.  Its name and its rule for keys never
    change. -/
theorem run_keyed_shows (actions : List (Action α κ)) {x : KeyedIndex α κ}
    (listed : i ∈ ((run actions).table t).indexes) (held : (run actions).holdsIndex i)
    (index : (run actions).index? i = some (.keyed t x)) :
    let ws := run actions
    let c := ws.content t
    let g := x.groups
    x.Shows c ∧
      (ws.holdsTable t → ∀ k, (ws.rowPositions t (g.rows k)).map c.rows.idAt = (g.rows k).map some) ∧
      (∀ r k, g.keyOf.lookup r = some k ↔ r ∈ g.rows k) ∧
      (∀ entry ∈ g.rowsOf, entry.2 ≠ []) ∧
      (∀ k, ∃ below above, g.range? .unbounded (.excluded k) = some below ∧
        g.range? (.included k) .unbounded = some above ∧
          g.range? .unbounded .unbounded = some (below ++ above) ∧
        below ++ above = g.keys.map fun k => (k, g.rows k)) ∧
      ∀ later, ∃ x', (run (actions ++ later)).index? i = some (.keyed t x') ∧ x'.name = x.name ∧
        x'.extractor = x.extractor := by
  intro ws c g
  have upToDate := upToDate_run actions
  have valid : c.Valid := upToDate.valid t
  have agrees := Tracks.keyed upToDate t i listed held x index
  have shows := agrees.shows valid
  refine ⟨shows, fun kept k => map_idAt_rowPositions kept valid fun r mem => ?_,
    fun r k => Groups.Represents.lookup_eq_some agrees, Groups.Represents.nonempty agrees,
    Groups.Represents.range?_split agrees, fun later => ?_⟩
  · obtain ⟨p, at_row, -⟩ := (shows.rows k r).mp mem
    exact ⟨p, at_row⟩
  · rw [run, List.foldl_append]
    exact (upToDate.acts later).keepsKeys i t x index

/-- A column is put in front, a row is moved and a cell written, all while the index is listed. -/
theorem run_keyed_shows_edited :
    let actions : List (Action String RowKey) :=
      [.make (.rows [[some "b"], [some "a"], [some "b"]]) [] "t", .on ⟨0⟩ (.keyed "first" .first "x"),
        .on ⟨0⟩ (.perform (.insertElements .column 0 [some "q", none, some "p"])),
        .on ⟨0⟩ (.perform (.moveRow 0 2)), .on ⟨0⟩ (.perform (.setElement 0 0 (some "q")))]
    ∃ x, (run actions).index? ⟨0⟩ = some (.keyed ⟨0⟩ x) ∧ x.groups.keys = [.text "p", .text "q"] ∧
      x.Shows ((run actions).content ⟨0⟩) := by
  intro actions
  have listed : ⟨0⟩ ∈ ((run actions).table ⟨0⟩).indexes := by decide +kernel
  have held : (run actions).holdsIndex ⟨0⟩ := by decide +kernel
  have found : ((run actions).index? ⟨0⟩).any fun
      | .column _ _ => false
      | .keyed t x => t == ⟨0⟩ && x.groups.keys == [.text "p", .text "q"] := by decide +kernel
  cases at? : (run actions).index? ⟨0⟩ with
  | none => simp [at?] at found
  | some index =>
    cases index with
    | column => simp [at?] at found
    | keyed t x =>
      simp only [at?, Option.any_some, Bool.and_eq_true, beq_iff_eq] at found
      obtain ⟨rfl, keys⟩ := found
      exact ⟨x, rfl, keys, (run_keyed_shows actions listed held at?).1⟩

end LiveTable.Workspace
