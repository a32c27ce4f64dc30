import LiveTable.Proofs.Workspace.Run

/-! What spares a table and a store.  Telling indexes, handlers and other stores, adding tables and
    stores, and all that is done to tables that do not list the store leaves the content of the one and
    the rows of the other as they are, and attaches the store nowhere else. -/

namespace LiveTable.Workspace

variable {α κ : Type} {ws ws' ws'' : Workspace α κ} {t u : TableId} {s other : StoreId}

/-! ### What spares a table and a store -/

/-- Whether there is such a store. -/
def hasStore (ws : Workspace α κ) (s : StoreId) : Bool := s.value < ws.stores.length

theorem store_setStore (ws : Workspace α κ) (other s : StoreId) (store : Store α) :
    (ws.setStore other store).store s = if other = s ∧ ws.hasStore s then store else ws.store s := by
  rw [Workspace.store, setStore, List.getElem?_set, Workspace.store, hasStore]
  by_cases same : other = s
  · subst same
    by_cases inside : other.value < ws.stores.length <;> simp [inside]
  · have apart : other.value ≠ s.value := fun equal => same (by cases other; cases s; simp_all)
    simp [same, apart]

theorem count_modifyTable {f : Table α → Table α}
    (lists : ∀ table, (f table).stores.count s = table.stores.count s)
    (v : TableId) : ((ws.modifyTable u f).table v).stores.count s = (ws.table v).stores.count s := by
  rw [table, table, Workspace.modifyTable, List.getElem?_modify]
  cases ws.tables[v.value]? with
  | none => rfl
  | some table => by_cases same : u.value = v.value <;> simp [same, lists]

/-- The table has the same content, the store is as it was, and no table lists the store more or less
    often. -/
structure Spares (t : TableId) (s : StoreId) (ws ws' : Workspace α κ) : Prop where
  hasTable : ws.hasTable t → ws'.hasTable t
  content : ws.hasTable t → ws'.content t = ws.content t
  hasStore : ws.hasStore s → ws'.hasStore s
  store : ws.hasStore s → ws'.store s = ws.store s
  lists : ∀ u, (ws'.table u).stores.count s = (ws.table u).stores.count s

namespace Spares

theorem refl (ws : Workspace α κ) : Spares t s ws ws := ⟨id, fun _ => rfl, id, fun _ => rfl, fun _ => rfl⟩

theorem trans (first : Spares t s ws ws') (later : Spares t s ws' ws'') : Spares t s ws ws'' where
  hasTable h := later.hasTable (first.hasTable h)
  content h := (later.content (first.hasTable h)).trans (first.content h)
  hasStore h := later.hasStore (first.hasStore h)
  store h := (later.store (first.hasStore h)).trans (first.store h)
  lists u := (later.lists u).trans (first.lists u)

theorem mem_lists (same : Spares t s ws ws') : s ∈ (ws'.table u).stores ↔ s ∈ (ws.table u).stores := by
  rw [← List.count_pos_iff, same.lists u, List.count_pos_iff]

/-- It is enough that the tables and the stores are the same. -/
theorem of_same (tables : ws'.tables = ws.tables) (stores : ws'.stores = ws.stores) : Spares t s ws ws' := by
  refine ⟨fun h => ?_, fun _ => ?_, fun h => ?_, fun _ => ?_, fun u => ?_⟩
  · rwa [Workspace.hasTable, tables]
  · rw [Workspace.content, table, tables, Workspace.content, table]
  · rwa [Workspace.hasStore, stores]
  · rw [Workspace.store, stores, Workspace.store]
  · rw [table, tables, table]

theorem modifyTable {f : Table α → Table α} (content : u = t → ∀ table, (f table).content = table.content)
    (lists : ∀ table, (f table).stores.count s = table.stores.count s) :
    Spares t s ws (ws.modifyTable u f) := by
  refine ⟨fun h => (hasTable_modifyTable f).trans h, fun h => ?_, id, fun _ => rfl, count_modifyTable lists⟩
  by_cases same : u = t
  · exact content_modifyTable (content same) t
  · rw [Workspace.content, table_modifyTable_of_ne f same, Workspace.content]

theorem addTable {table : Table α} (unattached : table.stores = []) :
    Spares t s ws (ws.addTable table).2 := by
  refine ⟨fun h => ?_, fun h => ?_, id, fun _ => rfl, fun u => ?_⟩
  · have inside : t.value < ws.tables.length := of_decide_eq_true h
    simp [Workspace.hasTable, Workspace.addTable]
    omega
  · have apart : t ≠ (ws.addTable table).1 := by
      rintro rfl
      simp [Workspace.hasTable, Workspace.addTable] at h
    rw [Workspace.content, table_addTable, if_neg apart, Workspace.content]
  · rw [table_addTable]
    split
    · next new => rw [new, table_new, unattached]
    · rfl

theorem setStore (apart : other ≠ s) (store : Store α) (disk : Disk) :
    Spares t s ws ({ ws with disk := disk }.setStore other store) := by
  refine ⟨id, fun _ => rfl, fun h => ?_, fun _ => ?_, fun _ => rfl⟩
  · rw [Workspace.hasStore, Workspace.setStore, List.length_set]
    exact h
  · rw [store_setStore, if_neg fun same => apart same.1]
    rfl

theorem setStore_self (s : StoreId) : Spares t s ws (ws.setStore s (ws.store s)) := by
  refine ⟨id, fun _ => rfl, fun h => ?_, fun _ => ?_, fun _ => rfl⟩
  · rw [Workspace.hasStore, Workspace.setStore, List.length_set]
    exact h
  · rw [store_setStore]
    split <;> rfl

theorem addStore (store : Store α) : Spares t s ws (ws.addStore store).2 := by
  refine ⟨id, fun _ => rfl, fun h => ?_, fun h => ?_, fun _ => rfl⟩
  · have inside : s.value < ws.stores.length := of_decide_eq_true h
    simp [Workspace.hasStore, Workspace.addStore]
    omega
  · have inside : s.value < ws.stores.length := of_decide_eq_true h
    rw [Workspace.store, Workspace.addStore, List.getElem?_append_left inside, Workspace.store]

theorem foldl {β : Type} {f : Workspace α κ → β → Workspace α κ} : ∀ (l : List β) (ws : Workspace α κ),
    (∀ (ws : Workspace α κ), ∀ b ∈ l, Spares t s ws (f ws b)) → Spares t s ws (l.foldl f ws)
  | [], ws, _ => refl ws
  | b :: rest, ws, each =>
    (each ws b List.mem_cons_self).trans (foldl rest (f ws b) fun ws c mem =>
      each ws c (List.mem_cons_of_mem b mem))

end Spares

theorem spares_report (ws : Workspace α κ) (u : TableId) (fault : ObserverFault) :
    Spares t s ws (ws.report u fault) := by
  rw [report]
  split
  · exact .of_same rfl rfl
  · exact .refl ws

theorem spares_reportAny (ws : Workspace α κ) (u : TableId) (fault : Option ObserverFault) :
    Spares t s ws (ws.reportAny u fault) := by
  cases fault with
  | none => exact .refl ws
  | some fault => exact spares_report ws u fault

theorem spares_tellHandler (n : Notice α) (ws : Workspace α κ) (h : HandlerId) :
    Spares t s ws (tellHandler u n ws h) := by
  have set (handler : Handler α) : Spares t s ws (ws.setHandler h handler) := .of_same rfl rfl
  exact (set _).trans (spares_reportAny _ u _)

theorem spares_tellIndexes [Element α] [Ord κ] (n : Notice α) (l : List IndexId) (ws : Workspace α κ) :
    Spares t s ws (l.foldl (tellIndex n) ws) := by
  refine Spares.foldl l ws fun ws i _ => ?_
  rw [tellIndex]
  split
  · exact .of_same rfl rfl
  · exact .refl ws

/-- What telling of a change comes to once indexes and stores have been told. -/
def tellRest (u : TableId) (n : Notice α) (ws : Workspace α κ) : Workspace α κ :=
  let told := (ws.table u).handlers.foldl (tellHandler u n) ws
  match n.event with
  | .removed .column _ stripe => told.dropIndexes u stripe.id
  | _ => told

theorem spares_tellRest (n : Notice α) (ws : Workspace α κ) : Spares t s ws (tellRest u n ws) := by
  have handlers : Spares t s ws ((ws.table u).handlers.foldl (tellHandler u n) ws) :=
    Spares.foldl _ ws fun ws h _ => spares_tellHandler n ws h
  rw [tellRest]
  split
  · exact handlers.trans (.modifyTable (fun _ _ => rfl) (fun _ => rfl))
  · exact handlers

/-! ### Indexes -/

theorem spares_named {β : Type} (name : String) (ref : β → Ref α) {made : β × Workspace α κ}
    (same : Spares t s ws made.2) : Spares t s ws (named name ref made) :=
  same.trans (.of_same rfl rfl)

theorem spares_setIndexes (l : List IndexId) (ws : Workspace α κ) : Spares t s ws (ws.setIndexes u l) :=
  .modifyTable (fun _ _ => rfl) (fun _ => rfl)

theorem spares_register (live : List IndexId) (index : Index α κ) (ws : Workspace α κ) :
    Spares t s ws (ws.register u live index).2 := by
  have added : Spares t s ws (ws.addIndex index).2 := .of_same rfl rfl
  exact added.trans (spares_setIndexes _ _)

theorem spares_indexOf [Ord α] {column : Nat} {result : IndexId × Workspace α κ}
    (asked : ws.indexOf u column = some result) : Spares t s ws result.2 := by
  obtain ⟨id, -, rfl⟩ := Option.map_eq_some_iff.mp asked
  dsimp only
  split
  · exact spares_setIndexes _ ws
  · exact spares_register _ _ ws

theorem spares_keyed [Ord κ] (name : String) (extractor : Extractor α κ) (ws : Workspace α κ) :
    Spares t s ws (ws.keyed u name extractor).2 := by
  simp only [Workspace.keyed]
  split
  · split
    · exact spares_setIndexes _ ws
    · exact spares_register _ _ ws
  · exact spares_register _ _ ws

/-! ### Observers -/

theorem spares_loadStore (apart : other ≠ s) (ws : Workspace α κ) :
    Spares t s ws (ws.loadStore u other).2 := by
  rw [loadStore]
  split
  · exact .setStore apart _ ws.disk
  · exact (Spares.setStore apart _ ws.disk).trans (spares_report _ u _)

section Stores

variable [JsonForm α] [BinaryForm α]

theorem spares_tellStore (apart : other ≠ s) (n : Notice α) (ws : Workspace α κ) :
    Spares t s ws (tellStore u n ws other) :=
  (Spares.setStore apart _ _).trans (spares_reportAny _ u _)

theorem spares_tellStores {l : List StoreId} (unlisted : s ∉ l) (n : Notice α) (ws : Workspace α κ) :
    Spares t s ws (l.foldl (tellStore u n) ws) := by
  refine Spares.foldl l ws fun ws other mem => spares_tellStore ?_ n ws
  rintro rfl
  exact unlisted mem

theorem spares_push (apart : other ≠ s) (ws : Workspace α κ) (call : StoreCall α) :
    Spares t s ws (push u other ws call) :=
  (Spares.setStore apart _ _).trans (spares_reportAny _ u _)

variable [Element α] [Ord κ]

theorem publish_eq (u : TableId) (ws : Workspace α κ) (n : Notice α) :
    publish u ws n = tellRest u n ((ws.table u).stores.foldl (tellStore u n)
      ((ws.table u).indexes.foldl (tellIndex n) ws)) := by
  have same : ((ws.table u).indexes.foldl (tellIndex n) ws).table u = ws.table u := by
    rw [table, (foldl_tellIndex_same n (ws.table u).indexes ws).2, table]
  rw [publish, same]
  rfl

/-- A table that does not list the store. -/
theorem spares_publish (unlisted : s ∉ (ws.table u).stores) (n : Notice α) :
    Spares t s ws (publish u ws n) := by
  rw [publish_eq]
  refine Spares.trans ?_ (spares_tellRest n _)
  exact (spares_tellIndexes n _ ws).trans (spares_tellStores unlisted n _)

theorem spares_publish_all (told : List (Notice α)) (unlisted : s ∉ (ws.table u).stores) :
    Spares t s ws (told.foldl (publish u) ws) := by
  induction told generalizing ws with
  | nil => exact .refl ws
  | cons n rest ih =>
    have first : Spares t s ws (publish u ws n) := spares_publish unlisted n
    exact first.trans (ih fun mem => unlisted (first.mem_lists.mp mem))

end Stores

end LiveTable.Workspace
