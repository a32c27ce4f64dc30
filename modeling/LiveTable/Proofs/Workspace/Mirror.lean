import LiveTable.Proofs.Store.Mirror
import LiveTable.Proofs.Workspace.Sound
import LiveTable.Proofs.Workspace.Spares

/-! A store that is attached to a table mirrors it.  Between two actions the store holds the rows of the
    table, and in the middle of an edit it holds, after every notice, the rows that the notice shows.  An
    edit is followed notice by notice along its script; everything else that is done spares both the
    table and the store. -/

namespace LiveTable.Workspace

variable {α κ : Type} [Element α] [JsonForm α] [BinaryForm α] [Ord κ] {ws ws' : Workspace α κ}
    {t u : TableId} {s : StoreId}

/-! ### The place of a store -/

/-- A store that a table lists so many times, and no other table. -/
structure Attached (ws : Workspace α κ) (t : TableId) (s : StoreId) (times : Nat) : Prop where
  hasTable : ws.hasTable t
  hasStore : ws.hasStore s
  listed : (ws.table t).stores.count s = times
  elsewhere : ∀ u, u ≠ t → s ∉ (ws.table u).stores

namespace Attached

variable {times : Nat}

omit [Element α] [JsonForm α] [BinaryForm α] [Ord κ]

theorem congr (h : ws.Attached t s times) (hasTable : ws'.hasTable t = ws.hasTable t)
    (hasStore : ws'.hasStore s = ws.hasStore s)
    (lists : ∀ u, (ws'.table u).stores.count s = (ws.table u).stores.count s) : ws'.Attached t s times where
  hasTable := hasTable.trans h.hasTable
  hasStore := hasStore.trans h.hasStore
  listed := (lists t).trans h.listed
  elsewhere u apart mem := by
    rw [← List.count_pos_iff, lists u, List.count_pos_iff] at mem
    exact h.elsewhere u apart mem

theorem spared (h : ws.Attached t s times) (same : Spares t s ws ws') : ws'.Attached t s times :=
  h.congr ((same.hasTable h.hasTable).trans h.hasTable.symm)
    ((same.hasStore h.hasStore).trans h.hasStore.symm)
    same.lists

theorem setStore (h : ws.Attached t s times) (store : Store α) (disk : Disk) :
    ({ ws with disk := disk }.setStore s store).Attached t s times :=
  h.congr rfl (congrArg (fun n => decide (s.value < n)) List.length_set) fun _ => rfl

theorem store_setStore (h : ws.Attached t s times) (store : Store α) (disk : Disk) :
    ({ ws with disk := disk }.setStore s store).store s = store := by
  rw [Workspace.store_setStore, if_pos ⟨rfl, h.hasStore⟩]

/-- The stores that are told before it and those that are told after it. -/
theorem split (h : ws.Attached t s 1) :
    ∃ front back, (ws.table t).stores = front ++ s :: back ∧ s ∉ front ∧ s ∉ back := by
  have mem : s ∈ (ws.table t).stores := List.count_pos_iff.mp (by rw [h.listed]; exact Nat.one_pos)
  obtain ⟨front, back, lists, first⟩ := List.eq_append_cons_of_mem mem
  refine ⟨front, back, lists, first, fun again => ?_⟩
  have once := h.listed
  rw [lists, List.count_append, List.count_cons_self, List.count_eq_zero_of_not_mem first] at once
  have := List.count_pos_iff.mpr again
  omega

end Attached

/-! ### Following a script -/

omit [Element α] [Ord κ] in
theorem Attached.tellStore (h : ws.Attached t s 1) {before : Content α}
    (keeps : (ws.store s).Keeps before.toRows)
    {n : Notice α} (describes : n.event.Describes before n.content) :
    (tellStore t n ws s).Attached t s 1 ∧ ((tellStore t n ws s).store s).Keeps n.content.toRows := by
  obtain ⟨quiet, kept⟩ := keeps.observe describes ws.disk
  rw [Workspace.tellStore]
  generalize (ws.store s).observe ws.disk n = answer at quiet kept
  obtain ⟨fault, store, disk⟩ := answer
  obtain rfl : fault = none := quiet
  exact ⟨h.setStore store disk, (h.store_setStore store disk).symm ▸ kept⟩

/-- Telling of a change brings the store from the rows before it to the rows after it. -/
theorem Attached.publish (h : ws.Attached t s 1) {before : Content α}
    (keeps : (ws.store s).Keeps before.toRows)
    {n : Notice α} (describes : n.event.Describes before n.content) :
    (publish t ws n).Attached t s 1 ∧ ((publish t ws n).store s).Keeps n.content.toRows := by
  obtain ⟨front, back, lists, unlisted, unlisted'⟩ := h.split
  rw [publish_eq, lists, List.foldl_append, List.foldl_cons]
  have early := (spares_tellIndexes (t := t) (s := s) n (ws.table t).indexes ws).trans
    (spares_tellStores (u := t) unlisted n _)
  generalize front.foldl (Workspace.tellStore t n) _ = ws₁ at early ⊢
  obtain ⟨attached, kept⟩ := (h.spared early).tellStore ((early.store h.hasStore).symm ▸ keeps) describes
  generalize Workspace.tellStore t n ws₁ s = ws₂ at attached kept ⊢
  have late := spares_tellStores (t := t) (u := t) unlisted' n ws₂
  generalize back.foldl (Workspace.tellStore t n) ws₂ = ws₃ at late ⊢
  have rest := late.trans (spares_tellRest (u := t) n ws₃)
  exact ⟨attached.spared rest, (rest.store attached.hasStore).symm ▸ kept⟩

/-- Telling the notices of a script one after the other. -/
theorem Attached.publish_all {start last : Content α} {told : List (Notice α)}
    (script : Script start told last)
    (h : ws.Attached t s 1) (keeps : (ws.store s).Keeps start.toRows) :
    (told.foldl (Workspace.publish t) ws).Attached t s 1 ∧
      ((told.foldl (Workspace.publish t) ws).store s).Keeps last.toRows := by
  induction script with
  | start => exact ⟨h, keeps⟩
  | tell _ describes _ ih =>
    rw [List.foldl_append]
    exact ih.1.publish ih.2 describes

/-! ### Edits -/

/-- A store that is attached to a table and to nothing else, and holds the rows of the table. -/
structure Mirrors (ws : Workspace α κ) (t : TableId) (s : StoreId) : Prop where
  attached : ws.Attached t s 1
  keeps : (ws.store s).Keeps (ws.content t).toRows

omit [Element α] [JsonForm α] [BinaryForm α] [Ord κ] in
theorem Mirrors.spared (h : ws.Mirrors t s) (same : Spares t s ws ws') : ws'.Mirrors t s := by
  refine ⟨h.attached.spared same, ?_⟩
  rw [same.store h.attached.hasStore, same.content h.attached.hasTable]
  exact h.keeps

section Edits

variable {β : Type} {procedure : (ω : Type) → Edit α ω → β × Edit α ω} {result : β} {told : List (Notice α)}
  {final : Content α}

/-- Whatever is done to any table, as long as it is a procedure whose notices are a script of it. -/
theorem Mirrors.edit (h : ws.Mirrors t s) (comes : Edit.ComesTo procedure (ws.content u) result told final) :
    (ws.edit u (procedure _)).2.Mirrors t s := by
  rw [edit_eq comes]
  by_cases same : u = t
  · subst same
    -- the store follows the script to `last`, which may differ from `final` in titles and the name only
    obtain ⟨last, script, layout⟩ := comes.scripted
    obtain ⟨attached, kept⟩ := h.attached.publish_all script h.keeps
    have rows : final.toRows = last.toRows := congrArg Layout.rows layout
    refine ⟨attached.congr (hasTable_modifyTable _) rfl (count_modifyTable fun _ => rfl), ?_⟩
    rw [content, table_modifyTable attached.hasTable, if_pos rfl, rows]
    exact kept
  · have told := spares_publish_all (t := t) told (h.attached.elsewhere u same)
    exact h.spared (told.trans (.modifyTable (fun here => absurd here same) fun _ => rfl))

end Edits

/-! ### Actions -/

/-- Whether an action leaves a store alone that a table has: it neither talks to the store directly, nor
    attaches it anywhere, nor detaches it from the table. -/
def Action.LeavesAlone (t : TableId) (s : StoreId) : Action α κ → Prop
  | .tell other _ => other ≠ s
  | .on _ (.attachStore other) => other ≠ s
  | .on u (.detachStore other) => ¬(u = t ∧ other = s)
  | _ => True

theorem Mirrors.perform (h : ws.Mirrors t s) (sound : ws.Sound) (operation : Operation α) :
    (ws.perform u operation).2.Mirrors t s := by
  obtain ⟨_, _, _, comes⟩ := Edit.exists_comesTo_run (sound u) operation
  exact h.edit comes

/-- The calls that give a store the rows of a content that did not come from it. -/
def missing (c : Content α) (loaded : List StripeId) : List (StoreCall α) :=
  c.rows.toList.zipIdx.filterMap fun (stripe, row) =>
    if loaded.contains stripe.id then none else some (.add row (StoreCall.rowOf c row))

/-- Attaching loads the rows of the store into the table, gives the store the others, and then lists it. -/
theorem attachStore_eq (ws : Workspace α κ) (t : TableId) (s : StoreId) :
    let loading := ws.loadStore t s
    let edited := loading.2.edit t (Edit.hydrate loading.1)
    ws.attachStore t s = ((missing (edited.2.content t) edited.1).foldl (push t s) edited.2).modifyTable t
      fun table => { table with stores := table.stores ++ [s] } :=
  rfl

/-- Attaching another store. -/
theorem Mirrors.attachStore (h : ws.Mirrors t s) (sound : ws.Sound) {other : StoreId} (apart : other ≠ s) :
    (ws.attachStore u other).Mirrors t s := by
  have loading : Spares t s ws (ws.loadStore u other).2 := spares_loadStore apart ws
  have loaded : (ws.loadStore u other).2.Sound := sound.undisturbed (undisturbed_loadStore ws u other)
  obtain ⟨_, _, _, comes⟩ := Edit.exists_comesTo_hydrate (loaded u) (ws.loadStore u other).1
  have edited := (h.spared loading).edit comes
  have pushed (calls : List (StoreCall α)) :=
    edited.spared (Spares.foldl calls _ fun ws call _ => spares_push (u := u) apart ws call)
  rw [attachStore_eq]
  exact (pushed _).spared (.modifyTable (fun _ _ => rfl) fun table => by simp [List.count_append, apart])

theorem Mirrors.apply (h : ws.Mirrors t s) (sound : ws.Sound) {action : TableAction α κ}
    (inside : ws.hasTable u) (alone : (Action.on u action).LeavesAlone t s) :
    (action.apply ws u).Mirrors t s := by
  cases action with
  | perform operation => exact h.perform sound operation
  | clone name =>
    have added : Spares t s ws (ws.cloneTable u).2 := .addTable rfl
    exact h.spared (spares_named name _ added)
  | transposed name =>
    have added : Spares t s ws (ws.cloneTable u).2 := .addTable rfl
    have copied : (ws.cloneTable u).2.Sound := sound.addTable (sound u)
    have turned : (ws.transposedCopy u).2.Mirrors t s := (h.spared added).perform copied .transpose
    exact turned.spared (spares_named name _ (.refl _))
  | indexOf column name =>
    rw [TableAction.apply]
    cases asked : ws.indexOf u column with
    | none => exact h
    | some result => exact h.spared (spares_named name _ (spares_indexOf asked))
  | indexOfColumn owner handle name =>
    rw [TableAction.apply]
    cases asked : ws.indexOfColumn u owner handle with
    | none => exact h
    | some result =>
      obtain ⟨column, -, there⟩ := Option.bind_eq_some_iff.mp asked
      exact h.spared (spares_named name _ (spares_indexOf there))
  | keyed label extractor name => exact h.spared (spares_named name _ (spares_keyed label extractor ws))
  | attachStore other => exact h.attachStore sound alone
  | detachStore other =>
    by_cases apart : other = s
    · -- the table is another one, which does not have the store
      subst apart
      have unlisted := h.attached.elsewhere u fun same => alone ⟨same, rfl⟩
      have same : (ws.table u).stores.filter (· != other) = (ws.table u).stores :=
        List.filter_eq_self.mpr fun s mem => bne_iff_ne.mpr fun equal => unlisted (equal ▸ mem)
      have kept : (ws.detachStore u other).2 = ws := modifyTable_fixed inside (by rw [same])
      rw [TableAction.apply, kept]
      exact h
    · exact h.spared (.modifyTable (fun _ _ => rfl) fun table =>
        List.count_filter (by simpa using Ne.symm apart))
  | attachHandler handler => exact h.spared (.modifyTable (fun _ _ => rfl) fun _ => rfl)
  | detachHandler handler => exact h.spared (.modifyTable (fun _ _ => rfl) fun _ => rfl)
  | setPolicy policy => exact h.spared (.modifyTable (fun _ _ => rfl) fun _ => rfl)
  | addCollector name =>
    have added : Spares t s ws { ws with collectors := ws.collectors ++ [[]] } := .of_same rfl rfl
    have set : Spares t s ws (ws.addCollector u).2 := added.trans (.modifyTable (fun _ _ => rfl) fun _ => rfl)
    exact h.spared (spares_named name _ set)

/-- What leaves the store alone leaves it holding the rows of its table. -/
theorem Mirrors.act (h : ws.Mirrors t s) (sound : ws.Sound) {action : Action α κ}
    (alone : action.LeavesAlone t s) : (ws.act action).Mirrors t s := by
  cases action with
  | make origin changes name => exact h.spared (spares_named name _ (.addTable rfl))
  | on u action =>
    rw [Workspace.act]
    split
    · next inside => exact h.apply sound inside alone
    · exact h
  | addStore store name => exact h.spared (spares_named name _ (.addStore store))
  | addHandler handler name => exact h.spared (.of_same rfl rfl)
  | tell other call => exact h.spared (.setStore alone _ _)
  | load other =>
    by_cases apart : other = s
    · -- reading the store is no harm: it hands its rows out and keeps them
      subst apart
      have same : ws.act (.load other) = ws.setStore other (ws.store other) := by
        simp only [Workspace.act, Workspace.load, h.keeps.reliable.load]
      exact same ▸ h.spared (.setStore_self other)
    · exact h.spared (.setStore apart _ ws.disk)
  | writeFile file bytes =>
    rw [Workspace.act, writeFile?]
    cases ws.disk.write? file bytes with
    | none => exact h
    | some disk => exact h.spared (.of_same rfl rfl)
  | hold name ref =>
    cases ref with
    | index j =>
      simp only [Workspace.act]
      split
      · exact h.spared (.of_same rfl rfl)
      · exact h
    | _ => exact h.spared (.of_same rfl rfl)
  | drop name => exact h.spared (.of_same rfl rfl)

theorem Mirrors.acts (h : ws.Mirrors t s) (sound : ws.Sound) {actions : List (Action α κ)}
    (alone : ∀ action ∈ actions, action.LeavesAlone t s) : (actions.foldl Workspace.act ws).Mirrors t s := by
  induction actions generalizing ws with
  | nil => exact h
  | cons action rest ih =>
    exact ih (h.act sound (alone action List.mem_cons_self)) (sound.act action) fun later mem =>
      alone later (List.mem_cons_of_mem action mem)

/-! ### Attaching -/

omit [Element α] [Ord κ] in
/-- Pushing calls to a reliable store changes no table, and does to its rows what the calls say if all
    can be done. -/
theorem Attached.push_all {times : Nat} (h : ws.Attached t s times) (reliable : (ws.store s).Reliable)
    (calls : List (StoreCall α)) :
    (calls.foldl (push t s) ws).Attached t s times ∧ ((calls.foldl (push t s) ws).store s).Reliable ∧
      (∀ u, (calls.foldl (push t s) ws).content u = ws.content u) ∧
      ∀ rows, StoreCall.applyAll (ws.store s).rows calls = .ok rows →
        ((calls.foldl (push t s) ws).store s).rows = rows := by
  induction calls generalizing ws with
  | nil => exact ⟨h, reliable, fun _ => rfl, fun rows done => by injection done⟩
  | cons call rest ih =>
    have told := reliable.tell call ws.disk
    have done (rows) (ok : call.apply (ws.store s).rows = .ok rows) :=
      (Store.Keeps.tell ⟨reliable, rfl⟩ ok ws.disk).2.rows
    have set := h.setStore ((ws.store s).tell ws.disk call).2.1 ((ws.store s).tell ws.disk call).2.2
    have reported : Spares t s _ (push t s ws call) := spares_reportAny _ t _
    have store : (push t s ws call).store s = ((ws.store s).tell ws.disk call).2.1 :=
      (reported.store set.hasStore).trans (h.store_setStore _ _)
    have content (u) : (push t s ws call).content u = ws.content u := (undisturbed_push t s ws call).content u
    obtain ⟨attached, reliable', contents, all⟩ := ih (set.spared reported) (store.symm ▸ told)
    refine ⟨attached, reliable', fun u => (contents u).trans (content u), fun rows ok => ?_⟩
    cases first : call.apply (ws.store s).rows with
    | error fault =>
      rw [StoreCall.applyAll, List.foldlM_cons, first] at ok
      cases ok
    | ok next =>
      rw [StoreCall.applyAll_cons first] at ok
      refine all rows ?_
      rw [store, done next first]
      exact ok

omit [Element α] [JsonForm α] [BinaryForm α] [Ord κ] in
theorem loadStore_eq (reliable : (ws.store s).Reliable) (t : TableId) :
    ws.loadStore t s =
      ((ws.store s).rows.zipIdx.map fun (row, position) =>
        (some position, row), ws.setStore s (ws.store s)) := by
  rw [loadStore, reliable.load]

/-- An edit of a table does not notice a store that no table has. -/
theorem Attached.edit_unlisted {β : Type} {procedure : (ω : Type) → Edit α ω → β × Edit α ω} {result : β}
    {told : List (Notice α)} {final : Content α} (h : ws.Attached t s 0)
    (comes : Edit.ComesTo procedure (ws.content t) result told final) :
    (ws.edit t (procedure _)).2.Attached t s 0 ∧ (ws.edit t (procedure _)).2.store s = ws.store s := by
  have spared := spares_publish_all (t := t) told (List.count_eq_zero.mp h.listed)
  rw [edit_eq comes]
  exact ⟨(h.spared spared).congr (hasTable_modifyTable _) rfl (count_modifyTable fun _ => rfl),
    spared.store h.hasStore⟩

omit [Element α] [JsonForm α] [BinaryForm α] [Ord κ] in
/-- Listing a store that no table has. -/
theorem Attached.list (h : ws.Attached t s 0) :
    (ws.modifyTable t fun table => { table with stores := table.stores ++ [s] }).Attached t s 1 := by
  refine ⟨(hasTable_modifyTable _).trans h.hasTable, h.hasStore, ?_, fun u apart => ?_⟩
  · rw [table_modifyTable h.hasTable, if_pos rfl, List.count_append, h.listed, List.count_singleton_self]
  · rw [table_modifyTable h.hasTable, if_neg (Ne.symm apart)]
    exact h.elsewhere u apart

/-- A reliable store that no table has is attached once, whatever it holds. -/
theorem Attached.attachStore (h : ws.Attached t s 0) (sound : ws.Sound) (reliable : (ws.store s).Reliable) :
    (ws.attachStore t s).Attached t s 1 ∧ ((ws.attachStore t s).store s).Reliable := by
  rw [attachStore_eq, loadStore_eq reliable]
  have loading : Spares t s ws (ws.setStore s (ws.store s)) := .setStore_self s
  have loaded : (ws.setStore s (ws.store s)).Sound := sound
  obtain ⟨_, _, _, comes⟩ := Edit.exists_comesTo_hydrate (loaded t)
    ((ws.store s).rows.zipIdx.map fun (row, position) => (some position, row))
  obtain ⟨edited, store⟩ := (h.spared loading).edit_unlisted comes
  have same := store.trans (loading.store h.hasStore)
  obtain ⟨pushed, kept, -⟩ := edited.push_all (same.symm ▸ reliable) (missing _ _)
  exact ⟨pushed.list, kept⟩

omit [Element α] [JsonForm α] [BinaryForm α] [Ord κ] in
theorem missing_nil (c : Content α) :
    missing c [] = (List.range c.rowCount).map fun row => StoreCall.add row (StoreCall.rowOf c row) := by
  have places : c.rows.toList.zipIdx.map Prod.snd = List.range c.rowCount := by
    rw [List.zipIdx_map_snd, ← List.range_eq_range']
    rfl
  rw [missing, ← places, List.map_map]
  exact congrFun List.filterMap_eq_map _

/-- An empty store gets the rows of the table. -/
theorem Attached.rows_attachStore (h : ws.Attached t s 0) (reliable : (ws.store s).Reliable)
    (empty : (ws.store s).rows = []) :
    ((ws.attachStore t s).store s).rows = ((ws.attachStore t s).content t).toRows := by
  have loading : Spares t s ws (ws.setStore s (ws.store s)) := .setStore_self s
  have loaded := h.spared loading
  have store : (ws.setStore s (ws.store s)).store s = ws.store s := loading.store h.hasStore
  rw [attachStore_eq, loadStore_eq reliable, empty]
  generalize ws.setStore s (ws.store s) = ws₁ at loaded store ⊢
  have edited : ws₁.edit t (Edit.hydrate []) =
      ([], ws₁.modifyTable t fun table => { table with content := ws₁.content t }) := rfl
  have attached : (ws₁.modifyTable t fun table => { table with content := ws₁.content t }).Attached t s 0 :=
    loaded.congr (hasTable_modifyTable _) rfl (count_modifyTable fun _ => rfl)
  have store' :
      (ws₁.modifyTable t fun table => { table with content := ws₁.content t }).store s = ws.store s := store
  simp only [List.zipIdx_nil, List.map_nil, edited]
  generalize ws₁.modifyTable t _ = ws₂ at attached store' ⊢
  obtain ⟨-, -, contents, all⟩ := attached.push_all (store'.symm ▸ reliable) (missing (ws₂.content t) [])
  rw [content_modifyTable (by intro; rfl), contents]
  refine all _ ?_
  rw [store', empty, missing_nil]
  exact StoreCall.applyAll_addAll _

/-! ### Runs -/

/-- Through a procedure on a table, notice by notice, a store takes what it is told without a fault,
    whatever is on the disk, and then holds the rows that the notice shows. -/
def FollowsThrough (ws : Workspace α κ) (t : TableId) (s : StoreId) {β : Type}
    (procedure : (ω : Type) → Edit α ω → β × Edit α ω) : Prop :=
  ∃ result told final, Edit.ComesTo procedure (ws.content t) result told final ∧
    ∀ front n back, told = front ++ n :: back →
      let amid := front.foldl (publish t) ws
      (∀ disk, ((amid.store s).observe disk n).1 = none) ∧
        ((publish t amid n).store s).rows = n.content.toRows

theorem Mirrors.followsThrough (h : ws.Mirrors t s) {β : Type}
    {procedure : (ω : Type) → Edit α ω → β × Edit α ω}
    {result : β} {told : List (Notice α)} {final : Content α}
    (comes : Edit.ComesTo procedure (ws.content t) result told final) : ws.FollowsThrough t s procedure := by
  refine ⟨result, told, final, comes, fun front n back eq => ?_⟩
  obtain ⟨last, script, -⟩ := comes.scripted
  obtain ⟨before, told, describes⟩ := script.before eq
  obtain ⟨attached, kept⟩ := h.attached.publish_all told h.keeps
  exact ⟨fun disk => (kept.observe describes disk).1, (attached.publish kept describes).2.rows⟩

/-- Take any run, and attach a store to a table: a store in memory, or one with a file to which every
    save succeeds, that no table has yet.  If it was empty before, or holds the rows of the table right
    after, it holds them after everything that leaves the store alone, and it follows every notice of
    whatever is done to the table next. -/
theorem run_store_mirrors (before after : List (Action α κ)) (hasTable : (run before).hasTable t)
    (hasStore : (run before).hasStore s) (unlisted : ∀ u, s ∉ ((run before).table u).stores)
    (reliable : ((run before).store s).Reliable)
    (same : ((run before).store s).rows = [] ∨
      let ws := run (before ++ [.on t (.attachStore s)])
      (ws.store s).rows = (ws.content t).toRows)
    (alone : ∀ action ∈ after, action.LeavesAlone t s) :
    let ws := run (before ++ .on t (.attachStore s) :: after)
    (ws.store s).rows = (ws.content t).toRows ∧
      (∀ operation : Operation α, ws.FollowsThrough t s fun _ e => operation.run e) ∧
      ∀ other, other ≠ s →
        (ws.loadStore t other).2.FollowsThrough t s fun _ e => e.hydrate (ws.loadStore t other).1 := by
  intro ws
  have attached : (run before).Attached t s 0 :=
    ⟨hasTable, hasStore, List.count_eq_zero.mpr (unlisted t), fun u _ => unlisted u⟩
  have sound := Sound.run before
  have joined : run (before ++ [.on t (.attachStore s)]) = (run before).attachStore t s := by
    rw [run, List.foldl_append]
    exact if_pos hasTable
  have start : ((run before).attachStore t s).Mirrors t s := by
    obtain ⟨once, kept⟩ := attached.attachStore sound reliable
    refine ⟨once, kept, ?_⟩
    rcases same with empty | same
    · exact attached.rows_attachStore reliable empty
    · rwa [joined] at same
  have mirrors : ws.Mirrors t s := by
    have all : ws = after.foldl act ((run before).attachStore t s) := by
      rw [← joined, run, ← List.foldl_append, List.append_assoc]
      rfl
    rw [all]
    exact start.acts (sound.attachStore t s) alone
  have sound' : ws.Sound := Sound.run _
  refine ⟨mirrors.keeps.rows, fun operation => ?_, fun other apart => ?_⟩
  · obtain ⟨_, _, _, comes⟩ := Edit.exists_comesTo_run (sound' t) operation
    exact mirrors.followsThrough comes
  · have loaded := sound'.undisturbed (undisturbed_loadStore ws t other)
    obtain ⟨_, _, _, comes⟩ := Edit.exists_comesTo_hydrate (loaded t) (ws.loadStore t other).1
    exact (mirrors.spared (spares_loadStore apart ws)).followsThrough comes

/-- A store with a file follows a table that is written into, turned over and loaded from another store. -/
theorem run_store_mirrors_loaded :
    let before : List (Action String RowKey) :=
      [.make (.rows [[some "a"], [none, some "b"]]) [] "t",
        .addStore (.file { file := some "f", form := .json }) "s", .addStore (.memory [[some "c"]]) "m"]
    let after : List (Action String RowKey) :=
      [.on ⟨0⟩ (.perform (.setElement 2 1 (some "d"))), .on ⟨0⟩ (.perform .transpose),
        .on ⟨0⟩ (.attachStore ⟨1⟩)]
    let ws := run (before ++ .on ⟨0⟩ (.attachStore ⟨0⟩) :: after)
    (ws.content ⟨0⟩).toRows = [[some "c", none, none], [some "a", none, none], [none, some "b", some "d"]] ∧
      (ws.store ⟨0⟩).rows = (ws.content ⟨0⟩).toRows := by
  intro before after ws
  have hasTable : (run before).hasTable ⟨0⟩ := by decide +kernel
  have hasStore : (run before).hasStore ⟨0⟩ := by decide +kernel
  have unlisted (u : TableId) : ⟨0⟩ ∉ ((run before).table u).stores := by
    rcases u with ⟨_ | n⟩
    · decide +kernel
    · exact fun mem => by cases mem
  have reliable : ((run before).store ⟨0⟩).Reliable := by
    rintro name here disk bytes
    obtain rfl : "f" = name := Option.some.inj here
    rfl
  have empty : ((run before).store ⟨0⟩).rows = [] := rfl
  have alone : ∀ action ∈ after, action.LeavesAlone ⟨0⟩ ⟨0⟩ := by
    simp [after, Action.LeavesAlone]
  have rows : (ws.content ⟨0⟩).toRows =
      [[some "c", none, none], [some "a", none, none], [none, some "b", some "d"]] := by decide +kernel
  exact ⟨rows, (run_store_mirrors before after hasTable hasStore unlisted reliable (.inl empty) alone).1⟩

end LiveTable.Workspace
