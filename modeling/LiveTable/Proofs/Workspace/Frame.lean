import LiveTable.Workspace.Attach
import LiveTable.Workspace.Index

/-! What the parts of a workspace have to do with each other.  Stores, handlers, collectors and files can
    change without any table or index noticing, and a change of one table or one index is a change of no
    other. -/

namespace LiveTable.Workspace

variable {α κ : Type} {ws ws' ws'' : Workspace α κ} {t u : TableId} {i j : IndexId}

/-! ### One table, one index -/

theorem getElem?_concat {β : Type} (l : List β) (b : β) (n : Nat) :
    (l ++ [b])[n]? = if n = l.length then some b else l[n]? := by
  rcases Nat.lt_trichotomy n l.length with before | rfl | beyond
  · rw [List.getElem?_append_left before, if_neg (Nat.ne_of_lt before)]
  · simp
  · rw [if_neg (Nat.ne_of_gt beyond), List.getElem?_eq_none (Nat.le_of_lt beyond), List.getElem?_eq_none]
    simpa using Nat.succ_le_of_lt beyond

/-- Whether there is such a table. -/
def hasTable (ws : Workspace α κ) (t : TableId) : Bool := t.value < ws.tables.length

theorem table_modifyTable_of_ne (f : Table α → Table α) (apart : t ≠ u) :
    (ws.modifyTable t f).table u = ws.table u := by
  have place : t.value ≠ u.value := fun same => apart (by cases t; cases u; simp_all)
  rw [table, modifyTable, List.getElem?_modify, table]
  simp [place]

theorem table_modifyTable (inside : ws.hasTable t) (f : Table α → Table α) (u : TableId) :
    (ws.modifyTable t f).table u = if t = u then f (ws.table u) else ws.table u := by
  have place : t.value < ws.tables.length := of_decide_eq_true inside
  by_cases same : t = u
  · subst same
    rw [if_pos rfl, table, modifyTable, List.getElem?_modify, table]
    simp [List.getElem?_eq_getElem place]
  · rw [if_neg same, table_modifyTable_of_ne f same]

theorem hasTable_modifyTable (f : Table α → Table α) : (ws.modifyTable t f).hasTable u = ws.hasTable u := by
  simp [hasTable, modifyTable]

/-- A change of a table that leaves its content alone is a change of no content. -/
theorem content_modifyTable {f : Table α → Table α} (keeps : ∀ table, (f table).content = table.content)
    (u : TableId) : (ws.modifyTable t f).content u = ws.content u := by
  rw [content, content, table, table, modifyTable, List.getElem?_modify]
  cases ws.tables[u.value]? with
  | none => rfl
  | some table => by_cases same : t.value = u.value <;> simp [same, keeps]

/-- A change that leaves its table as it was. -/
theorem modifyTable_fixed {f : Table α → Table α} (inside : ws.hasTable u)
    (fixed : f (ws.table u) = ws.table u) : ws.modifyTable u f = ws := by
  have here : u.value < ws.tables.length := of_decide_eq_true inside
  rw [table, List.getElem?_eq_getElem here, Option.getD_some] at fixed
  have same : ws.tables.modify u.value f = ws.tables := by
    refine List.ext_getElem? fun n => ?_
    rw [List.getElem?_modify]
    by_cases own : u.value = n
    · subst own
      simp [List.getElem?_eq_getElem here, fixed]
    · simp [own]
  rw [modifyTable, same]

theorem table_addTable (ws : Workspace α κ) (added : Table α) (u : TableId) :
    (ws.addTable added).2.table u = if u = (ws.addTable added).1 then added else ws.table u := by
  rw [table, addTable, getElem?_concat, table]
  by_cases same : u = ⟨ws.tables.length⟩
  · simp [same]
  · rw [if_neg same, if_neg fun equal => same (by cases u; simp_all)]

theorem table_new (ws : Workspace α κ) (added : Table α) : ws.table (ws.addTable added).1 = {} := by
  simp [table, addTable]

theorem hasTable_new (ws : Workspace α κ) (added : Table α) :
    (ws.addTable added).2.hasTable (ws.addTable added).1 := by
  simp [hasTable, addTable]

theorem index?_modifyIndex (ws : Workspace α κ) (i j : IndexId) (f : Index α κ → Index α κ) :
    (ws.modifyIndex i f).index? j = if i = j then (ws.index? j).map f else ws.index? j := by
  rw [index?, modifyIndex, List.getElem?_modify, index?]
  by_cases same : i = j
  · subst same
    simp
  · have apart : i.value ≠ j.value := fun equal => same (by cases i; cases j; simp_all)
    simp [same, apart]

/-- A new index is found where it was put, and those before it where they were. -/
theorem index?_addIndex (ws : Workspace α κ) (index : Index α κ) (j : IndexId) :
    (ws.addIndex index).2.index? j = if j = (ws.addIndex index).1 then some index else ws.index? j := by
  rw [index?, addIndex, getElem?_concat, index?]
  by_cases same : j = ⟨ws.indexes.length⟩
  · simp [same]
  · rw [if_neg same, if_neg fun equal => same (by cases j; simp_all)]

theorem index?_new (ws : Workspace α κ) (index : Index α κ) : ws.index? (ws.addIndex index).1 = none := by
  simp [index?, addIndex]

/-! ### Changes that indexes do not notice -/

/-- Tables have the same contents and indexes, indexes are the same, and no index is held anew. -/
structure Undisturbed (ws ws' : Workspace α κ) : Prop where
  hasTable : ∀ t, ws'.hasTable t = ws.hasTable t
  content : ∀ t, ws'.content t = ws.content t
  indexes : ∀ t, (ws'.table t).indexes = (ws.table t).indexes
  index? : ∀ i, ws'.index? i = ws.index? i
  held : ∀ i, ws'.holdsIndex i → ws.holdsIndex i

namespace Undisturbed

theorem refl (ws : Workspace α κ) : ws.Undisturbed ws :=
  ⟨fun _ => rfl, fun _ => rfl, fun _ => rfl, fun _ => rfl, fun _ => id⟩

theorem trans (first : ws.Undisturbed ws') (later : ws'.Undisturbed ws'') : ws.Undisturbed ws'' where
  hasTable t := (later.hasTable t).trans (first.hasTable t)
  content t := (later.content t).trans (first.content t)
  indexes t := (later.indexes t).trans (first.indexes t)
  index? i := (later.index? i).trans (first.index? i)
  held i h := first.held i (later.held i h)

/-- It is enough that the tables, the indexes and the names are the same. -/
theorem of_same (tables : ws'.tables = ws.tables) (indexes : ws'.indexes = ws.indexes)
    (names : ws'.names = ws.names) : ws.Undisturbed ws' := by
  refine ⟨fun t => ?_, fun t => ?_, fun t => ?_, fun i => ?_, fun i held => ?_⟩
  · rw [Workspace.hasTable, tables, Workspace.hasTable]
  · rw [Workspace.content, table, tables, Workspace.content, table]
  · rw [table, tables, table]
  · rw [Workspace.index?, indexes, Workspace.index?]
  · rwa [holdsIndex, ← names]

theorem modifyTable {f : Table α → Table α} (content : ∀ table, (f table).content = table.content)
    (indexes : ∀ table, (f table).indexes = table.indexes) : ws.Undisturbed (ws.modifyTable t f) := by
  refine ⟨fun u => hasTable_modifyTable f, content_modifyTable content, fun u => ?_, fun _ => rfl,
    fun _ => id⟩
  rw [table, table, Workspace.modifyTable, List.getElem?_modify]
  cases ws.tables[u.value]? with
  | none => rfl
  | some table => by_cases same : t.value = u.value <;> simp [same, indexes]

theorem foldl {β : Type} {f : Workspace α κ → β → Workspace α κ}
    (each : ∀ (ws : Workspace α κ) (b : β), ws.Undisturbed (f ws b)) :
    ∀ (l : List β) (ws : Workspace α κ), ws.Undisturbed (l.foldl f ws)
  | [], ws => refl ws
  | b :: rest, ws => (each ws b).trans (foldl each rest (f ws b))

end Undisturbed

theorem undisturbed_report (ws : Workspace α κ) (t : TableId) (fault : ObserverFault) :
    ws.Undisturbed (ws.report t fault) := by
  rw [report]
  split
  · exact .of_same rfl rfl rfl
  · exact .refl ws

theorem undisturbed_reportAny (ws : Workspace α κ) (t : TableId) (fault : Option ObserverFault) :
    ws.Undisturbed (ws.reportAny t fault) := by
  cases fault with
  | none => exact .refl ws
  | some fault => exact undisturbed_report ws t fault

theorem undisturbed_setHandler (ws : Workspace α κ) (h : HandlerId) (handler : Handler α) :
    ws.Undisturbed (ws.setHandler h handler) :=
  .of_same rfl rfl rfl

theorem undisturbed_setStore (ws : Workspace α κ) (s : StoreId) (store : Store α) (disk : Disk) :
    ws.Undisturbed ({ ws with disk := disk }.setStore s store) :=
  .of_same rfl rfl rfl

theorem undisturbed_tellHandler (t : TableId) (n : Notice α) (ws : Workspace α κ) (h : HandlerId) :
    ws.Undisturbed (tellHandler t n ws h) :=
  (undisturbed_setHandler ws h _).trans (undisturbed_reportAny _ t _)

theorem undisturbed_loadStore (ws : Workspace α κ) (t : TableId) (s : StoreId) :
    ws.Undisturbed (ws.loadStore t s).2 := by
  rw [loadStore]
  split
  · exact undisturbed_setStore ws s _ ws.disk
  · exact (undisturbed_setStore ws s _ ws.disk).trans (undisturbed_report _ t _)

theorem undisturbed_setPolicy (ws : Workspace α κ) (t : TableId) (policy : FaultPolicy) :
    ws.Undisturbed (ws.setPolicy t policy) :=
  .modifyTable (fun _ => rfl) (fun _ => rfl)

theorem undisturbed_addCollector (ws : Workspace α κ) (t : TableId) :
    ws.Undisturbed (ws.addCollector t).2 := by
  have collecting : ws.Undisturbed { ws with collectors := ws.collectors ++ [[]] } := .of_same rfl rfl rfl
  exact collecting.trans (undisturbed_setPolicy _ t _)

theorem undisturbed_attachHandler (ws : Workspace α κ) (t : TableId) (h : HandlerId) :
    ws.Undisturbed (ws.attachHandler t h) :=
  .modifyTable (fun _ => rfl) (fun _ => rfl)

theorem undisturbed_detachHandler (ws : Workspace α κ) (t : TableId) (h : HandlerId) :
    ws.Undisturbed (ws.detachHandler t h).2 :=
  .modifyTable (fun _ => rfl) (fun _ => rfl)

theorem undisturbed_detachStore (ws : Workspace α κ) (t : TableId) (s : StoreId) :
    ws.Undisturbed (ws.detachStore t s).2 :=
  .modifyTable (fun _ => rfl) (fun _ => rfl)

section Stores

variable [JsonForm α] [BinaryForm α]

theorem undisturbed_tellStore (t : TableId) (n : Notice α) (ws : Workspace α κ) (s : StoreId) :
    ws.Undisturbed (tellStore t n ws s) :=
  (undisturbed_setStore ws s _ _).trans (undisturbed_reportAny _ t _)

theorem undisturbed_push (t : TableId) (s : StoreId) (ws : Workspace α κ) (call : StoreCall α) :
    ws.Undisturbed (push t s ws call) :=
  (undisturbed_setStore ws s _ _).trans (undisturbed_reportAny _ t _)

end Stores

/-! ### Names -/

theorem holdsIndex_unbind (ws : Workspace α κ) (name : String) (held : (ws.unbind name).holdsIndex i) :
    ws.holdsIndex i := by
  obtain ⟨entry, mem, holds⟩ := List.any_eq_true.mp held
  exact List.any_eq_true.mpr ⟨entry, (List.mem_filter.mp mem).1, holds⟩

/-- Binding a name holds what it then stands for, and nothing else anew. -/
theorem holdsIndex_bind (ws : Workspace α κ) (name : String) {ref : Ref α}
    (held : (ws.bind name ref).holdsIndex i) : ref.holdsIndex i ∨ ws.holdsIndex i := by
  rw [holdsIndex, bind, List.any_cons, Bool.or_eq_true] at held
  exact held.imp_right (holdsIndex_unbind ws name)

theorem undisturbed_bind (ws : Workspace α κ) (name : String) {ref : Ref α}
    (other : ∀ i, ref.holdsIndex i → ws.holdsIndex i) : ws.Undisturbed (ws.bind name ref) :=
  ⟨fun _ => rfl, fun _ => rfl, fun _ => rfl, fun _ => rfl,
    fun i held => (holdsIndex_bind ws name held).elim (other i) id⟩

theorem undisturbed_unbind (ws : Workspace α κ) (name : String) : ws.Undisturbed (ws.unbind name) :=
  ⟨fun _ => rfl, fun _ => rfl, fun _ => rfl, fun _ => rfl, fun _ held => holdsIndex_unbind ws name held⟩

end LiveTable.Workspace
