import LiveTable.Handle
import LiveTable.Index.Column
import LiveTable.Index.Keyed
import LiveTable.Selection.Plan
import LiveTable.Store.Basic

/-! Workspaces: tables together with everything that observes or refers to them.  Tables, indexes, stores
    and handlers are known by identity and never go away; what a name stands for decides which of them
    still matter.  An index follows its table only while some name holds it, and it can look at its table
    only while some name holds the table or something made from it. -/

namespace LiveTable

/-- The identity of an index. -/
structure IndexId where
  value : Nat
  deriving DecidableEq, Repr

/-- The identity of a store. -/
structure StoreId where
  value : Nat
  deriving DecidableEq, Repr

/-- The identity of a handler. -/
structure HandlerId where
  value : Nat
  deriving DecidableEq, Repr

/-- The identity of a collector of faults. -/
structure CollectorId where
  value : Nat
  deriving DecidableEq, Repr

/-- What becomes of the faults of observers. -/
inductive FaultPolicy where
  | ignore
  | log
  | collect (collector : CollectorId)
  deriving DecidableEq, Repr

/-- A table with its observers, each kind in the order in which they were attached. -/
structure Table (α : Type) where
  content : Content α := {}
  indexes : List IndexId := []
  stores : List StoreId := []
  handlers : List HandlerId := []
  policy : FaultPolicy := .ignore

/-- An index of either kind, with the table it belongs to. -/
inductive Index (α κ : Type) where
  | column (table : TableId) (index : ColumnIndex α)
  | keyed (table : TableId) (index : KeyedIndex α κ)

namespace Index

variable {α κ : Type}

/-- Follows one change of the table. -/
def observe [Ord α] [Ord κ] (n : Notice α) : Index α κ → Index α κ
  | column table x => column table (x.observe n)
  | keyed table x => keyed table (x.observe n)

/-- The table of an index. -/
def table : Index α κ → TableId
  | column table _ => table
  | keyed table _ => table

/-- Whether an index is that of a column. -/
def watches (id : StripeId) : Index α κ → Bool
  | column _ x => x.column == id
  | keyed _ _ => false

/-- Whether an index goes by a name. -/
def isNamed (name : String) : Index α κ → Bool
  | column _ _ => false
  | keyed _ x => x.name == name

end Index

/-- What a name stands for. -/
inductive Ref (α : Type) where
  | table (id : TableId)
  | stripe (table : TableId) (handle : StripeRef)
  | cell (table : TableId) (handle : CellRef)
  | index (id : IndexId)
  | store (id : StoreId)
  | handler (id : HandlerId)
  | collector (id : CollectorId)
  | selection (selection : Selection α)

/-- Everything there is. -/
structure Workspace (α κ : Type) where
  tables : List (Table α) := []
  indexes : List (Index α κ) := []
  stores : List (Store α) := []
  handlers : List (Handler α) := []
  /-- The messages that each collector has received, oldest first. -/
  collectors : List (List String) := []
  disk : Disk := []
  names : List (String × Ref α) := []

/-- The tables that a condition refers to by column. -/
def Predicate.tables {α : Type} : Predicate α → List TableId
  | .equalColumns a b => [a.table, b.table]
  | .columnValue columns _ _ => columns.map ColumnRef.table
  | .and ps => ps.attach.flatMap fun ⟨p, _⟩ => p.tables
  | .or ps => ps.attach.flatMap fun ⟨p, _⟩ => p.tables
  | .not p => p.tables
  | .custom columns _ => columns.map ColumnRef.table

/-- The tables that a query refers to. -/
def Selection.tables {α : Type} (s : Selection α) : List TableId :=
  s.steps.map JoinStep.table ++ s.conditions.flatMap Predicate.tables ++
    s.projections.filterMap fun request =>
      match request.2 with
      | .reference r => some r.table
      | .allOf table => some table
      | _ => none

/-- Whether a name that stands for this keeps a table. -/
def Ref.holdsTable {α : Type} (id : TableId) : Ref α → Bool
  | table other => other == id
  | stripe other _ => other == id
  | cell other _ => other == id
  | selection s => s.tables.contains id
  | _ => false

/-- Whether a name that stands for this keeps an index. -/
def Ref.holdsIndex {α : Type} (id : IndexId) : Ref α → Bool
  | index other => other == id
  | _ => false

namespace Workspace

variable {α κ : Type}

/-- A table. -/
def table (ws : Workspace α κ) (t : TableId) : Table α := ws.tables[t.value]?.getD {}

/-- The content of a table. -/
def content (ws : Workspace α κ) (t : TableId) : Content α := (ws.table t).content

/-- An index. -/
def index? (ws : Workspace α κ) (i : IndexId) : Option (Index α κ) := ws.indexes[i.value]?

/-- A store. -/
def store (ws : Workspace α κ) (s : StoreId) : Store α := ws.stores[s.value]?.getD (.memory [])

/-- A handler. -/
def handler (ws : Workspace α κ) (h : HandlerId) : Handler α := ws.handlers[h.value]?.getD .silent

/-- The messages of a collector. -/
def messages (ws : Workspace α κ) (k : CollectorId) : List String := ws.collectors[k.value]?.getD []

/-- Changes a table. -/
def modifyTable (ws : Workspace α κ) (t : TableId) (f : Table α → Table α) : Workspace α κ :=
  { ws with tables := ws.tables.modify t.value f }

/-- Changes an index. -/
def modifyIndex (ws : Workspace α κ) (i : IndexId) (f : Index α κ → Index α κ) : Workspace α κ :=
  { ws with indexes := ws.indexes.modify i.value f }

/-- Replaces a store. -/
def setStore (ws : Workspace α κ) (s : StoreId) (store : Store α) : Workspace α κ :=
  { ws with stores := ws.stores.set s.value store }

/-- Replaces a handler. -/
def setHandler (ws : Workspace α κ) (h : HandlerId) (handler : Handler α) : Workspace α κ :=
  { ws with handlers := ws.handlers.set h.value handler }

/-- Adds a table. -/
def addTable (ws : Workspace α κ) (table : Table α) : TableId × Workspace α κ :=
  (⟨ws.tables.length⟩, { ws with tables := ws.tables ++ [table] })

/-- Adds an index. -/
def addIndex (ws : Workspace α κ) (index : Index α κ) : IndexId × Workspace α κ :=
  (⟨ws.indexes.length⟩, { ws with indexes := ws.indexes ++ [index] })

/-- Adds a store. -/
def addStore (ws : Workspace α κ) (store : Store α) : StoreId × Workspace α κ :=
  (⟨ws.stores.length⟩, { ws with stores := ws.stores ++ [store] })

/-- Adds a handler. -/
def addHandler (ws : Workspace α κ) (handler : Handler α) : HandlerId × Workspace α κ :=
  (⟨ws.handlers.length⟩, { ws with handlers := ws.handlers ++ [handler] })

/-- Says what becomes of the faults of the observers of a table. -/
def setPolicy (ws : Workspace α κ) (t : TableId) (policy : FaultPolicy) : Workspace α κ :=
  ws.modifyTable t fun table => { table with policy := policy }

/-- Adds a collector and makes a table report to it. -/
def addCollector (ws : Workspace α κ) (t : TableId) : CollectorId × Workspace α κ :=
  let k : CollectorId := ⟨ws.collectors.length⟩
  (k, { ws with collectors := ws.collectors ++ [[]] }.setPolicy t (.collect k))

/-- Adds a copy of a table.  Its observers stay behind; faults go where those of the table go. -/
def cloneTable (ws : Workspace α κ) (t : TableId) : TableId × Workspace α κ :=
  ws.addTable { content := ws.content t, policy := (ws.table t).policy }

/-- Writes a file, unless its name cannot be written. -/
def writeFile? (ws : Workspace α κ) (file : String) (bytes : List UInt8) : Option (Workspace α κ) :=
  (ws.disk.write? file bytes).map fun disk => { ws with disk := disk }

/-- What a name stands for. -/
def find? (ws : Workspace α κ) (name : String) : Option (Ref α) := ws.names.lookup name

/-- Makes a name stand for something, whatever it stood for before. -/
def bind (ws : Workspace α κ) (name : String) (ref : Ref α) : Workspace α κ :=
  { ws with names := (name, ref) :: ws.names.filter fun entry => entry.1 != name }

/-- Gives a name up. -/
def unbind (ws : Workspace α κ) (name : String) : Workspace α κ :=
  { ws with names := ws.names.filter fun entry => entry.1 != name }

/-- Whether some name keeps a table. -/
def holdsTable (ws : Workspace α κ) (t : TableId) : Bool := ws.names.any fun entry => entry.2.holdsTable t

/-- Whether some name keeps an index. -/
def holdsIndex (ws : Workspace α κ) (i : IndexId) : Bool := ws.names.any fun entry => entry.2.holdsIndex i

end Workspace

end LiveTable
