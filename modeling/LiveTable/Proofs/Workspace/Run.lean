import LiveTable.Proofs.Index.Registry

/-! Runs of a workspace.  A workspace starts empty, and any list of actions is done to it: tables are
    made, edited and indexed, observers come and go, names are given and given up.  Whatever the order,
    every column index that some name holds is up to date after each action, so what it shows is what its
    column holds. -/

namespace LiveTable.Workspace

variable {α κ : Type} [Element α] [JsonForm α] [BinaryForm α] [Ord κ] {ws ws' ws'' : Workspace α κ}
    {t : TableId} {i : IndexId}

/-! ### Actions -/

/-- What can be done with a table of a workspace. -/
inductive TableAction (α κ : Type) where
  | perform (operation : Operation α)
  | clone (name : String)
  | transposed (name : String)
  | indexOf (column : Nat) (name : String)
  | indexOfColumn (owner : TableId) (handle : StripeRef) (name : String)
  | keyed (label : String) (extractor : Extractor α κ) (name : String)
  | attachStore (s : StoreId)
  | detachStore (s : StoreId)
  | attachHandler (h : HandlerId)
  | detachHandler (h : HandlerId)
  | setPolicy (policy : FaultPolicy)
  | addCollector (name : String)

/-- What can be done to a workspace.  A name can be made to stand for an index only if another name holds
    it. -/
inductive Action (α κ : Type) where
  | make (origin : Content.Origin α) (changes : List (Content.Change α)) (name : String)
  | on (t : TableId) (action : TableAction α κ)
  | addStore (store : Store α) (name : String)
  | addHandler (handler : Handler α) (name : String)
  | tell (s : StoreId) (call : StoreCall α)
  | load (s : StoreId)
  | writeFile (file : String) (bytes : List UInt8)
  | hold (name : String) (ref : Ref α)
  | drop (name : String)

/-- Gives a name to what has just been made. -/
def named {β : Type} (name : String) (ref : β → Ref α) (made : β × Workspace α κ) : Workspace α κ :=
  made.2.bind name (ref made.1)

/-- Does one thing with a table. -/
def TableAction.apply (ws : Workspace α κ) (t : TableId) : TableAction α κ → Workspace α κ
  | perform operation => (ws.perform t operation).2
  | clone name => named name .table (ws.cloneTable t)
  | transposed name => named name .table (ws.transposedCopy t)
  | indexOf column name => ((ws.indexOf t column).map (named name .index)).getD ws
  | indexOfColumn owner handle name => ((ws.indexOfColumn t owner handle).map (named name .index)).getD ws
  | keyed label extractor name => named name .index (ws.keyed t label extractor)
  | attachStore s => ws.attachStore t s
  | detachStore s => (ws.detachStore t s).2
  | attachHandler h => ws.attachHandler t h
  | detachHandler h => (ws.detachHandler t h).2
  | setPolicy policy => ws.setPolicy t policy
  | addCollector name => named name .collector (ws.addCollector t)

/-- Does one thing.  What is to be done with a table that does not exist is not done. -/
def act (ws : Workspace α κ) : Action α κ → Workspace α κ
  | .make origin changes name => named name .table (ws.addTable { content := Content.run origin changes })
  | .on t action => if ws.hasTable t then action.apply ws t else ws
  | .addStore store name => named name .store (ws.addStore store)
  | .addHandler handler name => named name .handler (ws.addHandler handler)
  | .tell s call => (ws.tell s call).2
  | .load s => (ws.load s).2
  | .writeFile file bytes => (ws.writeFile? file bytes).getD ws
  | .hold name (.index i) => if ws.holdsIndex i then ws.bind name (.index i) else ws
  | .hold name ref => ws.bind name ref
  | .drop name => ws.unbind name

/-- Does one thing after the other, from nothing on. -/
def run (actions : List (Action α κ)) : Workspace α κ := actions.foldl act {}

/-! ### Effects -/

omit [Element α] [JsonForm α] [BinaryForm α] [Ord κ] in
theorem undisturbed_named {β : Type} (name : String) {ref : β → Ref α} {made : β × Workspace α κ}
    (same : ws.Undisturbed made.2) (other : ∀ i, (ref made.1).holdsIndex i = false) :
    ws.Undisturbed (named name ref made) :=
  same.trans (undisturbed_bind made.2 name fun i held => by simp [other i] at held)

/-- What an action does to the tables and the indexes of a workspace.  A table is new, or one that is
    there is edited or asked for an index; all else, an operation on a table that is not there among it,
    disturbs nothing. -/
inductive Effect (ws : Workspace α κ) : Action α κ → Workspace α κ → Prop
  | undisturbed {action : Action α κ} {ws' : Workspace α κ} (same : ws.Undisturbed ws')
      (idle : ∀ u operation, action = .on u (.perform operation) → ¬ws.hasTable u) : Effect ws action ws'
  | made {origin : Content.Origin α} {changes : List (Content.Change α)} {name : String} {ws' : Workspace α κ}
      (same : (ws.addTable { content := Content.run origin changes }).2.Undisturbed ws') :
      Effect ws (.make origin changes name) ws'
  | cloned {u : TableId} {name : String} {ws' : Workspace α κ} (same : (ws.cloneTable u).2.Undisturbed ws') :
      Effect ws (.on u (.clone name)) ws'
  | turned {u : TableId} {name : String} {ws' : Workspace α κ}
      (same : (ws.transposedCopy u).2.Undisturbed ws') :
      Effect ws (.on u (.transposed name)) ws'
  | performed {u : TableId} (inside : ws.hasTable u) (operation : Operation α) :
      Effect ws (.on u (.perform operation)) (ws.perform u operation).2
  | attached {u : TableId} (inside : ws.hasTable u) (s : StoreId) :
      Effect ws (.on u (.attachStore s)) (ws.attachStore u s)
  | indexed {u : TableId} {action : TableAction α κ} {column : Nat} {result : IndexId × Workspace α κ}
      (inside : ws.hasTable u) (asks : ∀ operation, action ≠ .perform operation)
      (asked : ws.indexOf u column = some result) (name : String) : Effect ws (.on u action)
        (named name .index result)
  | keyed {u : TableId} (inside : ws.hasTable u) (label : String) (extractor : Extractor α κ)
      (name : String) :
      Effect ws (.on u (.keyed label extractor name)) (named name .index (ws.keyed u label extractor))

theorem effect_apply (inside : ws.hasTable t) (action : TableAction α κ) :
    ws.Effect (.on t action) (action.apply ws t) := by
  cases action with
  | perform operation => exact .performed inside operation
  | clone name => exact .cloned (undisturbed_named name (.refl _) fun _ => rfl)
  | transposed name => exact .turned (undisturbed_named name (.refl _) fun _ => rfl)
  | indexOf column name =>
    rw [TableAction.apply]
    cases asked : ws.indexOf t column with
    | none => exact .undisturbed (.refl ws) nofun
    | some result => exact .indexed inside (by simp) asked name
  | indexOfColumn owner handle name =>
    rw [TableAction.apply]
    cases asked : ws.indexOfColumn t owner handle with
    | none => exact .undisturbed (.refl ws) nofun
    | some result =>
      obtain ⟨column, -, there⟩ := Option.bind_eq_some_iff.mp asked
      exact .indexed inside (by simp) there name
  | keyed label extractor name => exact .keyed inside label extractor name
  | attachStore s => exact .attached inside s
  | detachStore s => exact .undisturbed (undisturbed_detachStore ws t s) nofun
  | attachHandler handler => exact .undisturbed (undisturbed_attachHandler ws t handler) nofun
  | detachHandler handler => exact .undisturbed (undisturbed_detachHandler ws t handler) nofun
  | setPolicy policy => exact .undisturbed (undisturbed_setPolicy ws t policy) nofun
  | addCollector name =>
    exact .undisturbed (undisturbed_named name (undisturbed_addCollector ws t) fun _ => rfl) nofun

/-- Every action has one of these effects. -/
theorem effect_act (ws : Workspace α κ) (action : Action α κ) : ws.Effect action (ws.act action) := by
  cases action with
  | make origin changes name => exact .made (undisturbed_named name (.refl _) fun _ => rfl)
  | on t action =>
    rw [act]
    split
    · next inside => exact effect_apply inside action
    · next absent =>
      refine .undisturbed (.refl ws) fun u operation same => ?_
      obtain ⟨rfl, -⟩ := Action.on.inj same
      exact absent
  | addStore store name =>
    exact .undisturbed (undisturbed_named name (.of_same rfl rfl rfl) fun _ => rfl) nofun
  | addHandler handler name =>
    exact .undisturbed (undisturbed_named name (.of_same rfl rfl rfl) fun _ => rfl) nofun
  | tell s call => exact .undisturbed (.of_same rfl rfl rfl) nofun
  | load s => exact .undisturbed (.of_same rfl rfl rfl) nofun
  | writeFile file bytes =>
    rw [act, writeFile?]
    cases ws.disk.write? file bytes with
    | none => exact .undisturbed (.refl ws) nofun
    | some disk => exact .undisturbed (.of_same rfl rfl rfl) nofun
  | hold name ref =>
    cases ref with
    | index j =>
      simp only [act]
      split
      · next holds =>
        exact .undisturbed (undisturbed_bind ws name fun i same => beq_iff_eq.mp same ▸ holds) nofun
      · exact .undisturbed (.refl ws) nofun
    | _ => exact .undisturbed (undisturbed_bind ws name fun i same => by cases same) nofun
  | drop name => exact .undisturbed (undisturbed_unbind ws name) nofun

/-! ### Indexes are up to date -/

variable [Std.LawfulEqOrd α] [Std.TransOrd α] [Std.LawfulEqOrd κ] [Std.TransOrd κ]

/-- Whatever is done, indexes that are held go on following their tables. -/
theorem UpToDate.continues (h : ws.UpToDate) {action : Action α κ} (effect : ws.Effect action ws') :
    ws.Continues ws' := by
  cases effect with
  | undisturbed same => exact h.undisturbed same
  | @made origin changes _ _ same =>
    exact (h.addTable (Content.valid_run origin changes) rfl).undisturbed same
  | @cloned u _ _ same =>
    have copied : ws.Continues (ws.cloneTable u).2 := h.addTable (h.valid u) rfl
    exact copied.undisturbed same
  | @turned u _ _ same =>
    have copied : ws.Continues (ws.cloneTable u).2 := h.addTable (h.valid u) rfl
    exact (copied.trans (copied.upToDate.perform (hasTable_new ws _) .transpose)).undisturbed same
  | performed inside operation => exact h.perform inside operation
  | attached inside s => exact h.attachStore inside s
  | indexed inside _ asked name => exact (h.indexOf inside asked).named name
  | keyed inside label extractor name => exact (h.keyed inside label extractor).named name

theorem UpToDate.act (h : ws.UpToDate) (action : Action α κ) : ws.Continues (ws.act action) :=
  h.continues (effect_act ws action)

theorem UpToDate.acts (h : ws.UpToDate) (actions : List (Action α κ)) :
    ws.Continues (actions.foldl Workspace.act ws) := by
  induction actions generalizing ws with
  | nil => exact .refl h
  | cons action rest ih => exact (h.act action).trans (ih (h.act action).upToDate)

theorem upToDate_run (actions : List (Action α κ)) : (run actions).UpToDate :=
  (UpToDate.acts Tracks.empty actions).upToDate

/-- After every run, an index that some name holds shows its column: if the stripe it was made for is a
    column, the keys are the elements of that column and each key has the cells that hold it; if not, the
    index is empty.  A range lists the keys between its ends, the two directions of the groups are
    inverse to each other, and no key is without rows.  It stays the index of the one column it was made
    for. -/
theorem run_index_shows (actions : List (Action α κ)) {x : ColumnIndex α} (held : (run actions).holdsIndex i)
    (index : (run actions).index? i = some (.column t x)) :
    let ws := run actions
    let c := ws.content t
    let g := x.groups
    (∀ q, c.columns.idAt q = some x.column → x.Shows c q ∧ (ws.holdsTable t → ∀ a,
        ws.cellPositions t x.column (g.rows a) =
          (g.rows a).map fun r => (c.rows.positionOf r).map fun p => (p, q))) ∧
      (x.column ∉ c.columns.ids → g.keyOf = [] ∧ g.rowsOf = []) ∧
      (∀ low high, g.range? low high = if g.used && low.inverted high then none
        else some ((g.keys.filter fun a => low.admitsFrom a && high.admitsUpTo a).map fun a =>
          (a, g.rows a))) ∧
      (∀ r a, g.keyOf.lookup r = some a ↔ r ∈ g.rows a) ∧
      (∀ entry ∈ g.rowsOf, entry.2 ≠ []) ∧
      ∀ later, ∃ x', (run (actions ++ later)).index? i = some (.column t x') ∧ x'.column = x.column := by
  intro ws c g
  have upToDate := upToDate_run actions
  have valid : c.Valid := upToDate.valid t
  obtain ⟨-, agrees, -⟩ := upToDate.follows i t x held index
  refine ⟨fun q at? => ⟨agrees.shows valid at?, fun kept a => ?_⟩, agrees.empty valid,
    Groups.Represents.range?_eq agrees, fun r a => Groups.Represents.lookup_eq_some agrees,
    Groups.Represents.nonempty agrees, fun later => ?_⟩
  · have column : c.columns.positionOf x.column = some q := (valid.indexed .column x.column q).mpr at?
    rw [cellPositions, if_pos kept]
    refine List.map_congr_left fun r _ => ?_
    rw [CellRef.coordinates, column]
    cases c.rows.positionOf r <;> rfl
  · rw [run, List.foldl_append]
    exact (upToDate.acts later).keepsColumns i t x index

/-- A row is removed, the table is turned over and back, and a cell is written, all while the index is
    held. -/
theorem run_index_shows_edited :
    let actions : List (Action String RowKey) :=
      [.make (.rows [[some "b"], [some "a"], [some "b"]]) [] "t", .on ⟨0⟩ (.indexOf 0 "x"),
        .on ⟨0⟩ (.perform (.removeAt .row 0)), .on ⟨0⟩ (.perform .transpose), .on ⟨0⟩ (.perform .transpose),
        .on ⟨0⟩ (.perform (.setElement 1 0 (some "c")))]
    ∃ x, (run actions).index? ⟨0⟩ = some (.column ⟨0⟩ x) ∧ x.groups.keys = ["a", "c"] ∧
      x.Shows ((run actions).content ⟨0⟩) 0 := by
  intro actions
  have held : (run actions).holdsIndex ⟨0⟩ := by decide +kernel
  have found : ((run actions).index? ⟨0⟩).any fun
      | .column t x => t == ⟨0⟩ && x.column == ⟨0⟩ && x.groups.keys == ["a", "c"]
      | .keyed _ _ => false := by decide +kernel
  have there : ((run actions).content ⟨0⟩).columns.idAt 0 = some ⟨0⟩ := by decide +kernel
  cases at? : (run actions).index? ⟨0⟩ with
  | none => simp [at?] at found
  | some index =>
    cases index with
    | keyed => simp [at?] at found
    | column t x =>
      simp only [at?, Option.any_some, Bool.and_eq_true, beq_iff_eq] at found
      obtain ⟨⟨rfl, column⟩, keys⟩ := found
      exact ⟨x, rfl, keys, ((run_index_shows actions held at?).1 0 (column ▸ there)).1⟩

end LiveTable.Workspace
