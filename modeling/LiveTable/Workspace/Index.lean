import LiveTable.Workspace.Observe

/-! Indexes of a table.  Asking for the index of a column, or for a keyed index by name, gives the one
    that is there as long as a name holds it.  A name that is asked for with another kind of keys takes
    the place of the old index, which is told of no further change. -/

namespace LiveTable.Workspace

variable {α κ : Type}

/-- The indexes of a table that some name holds. -/
def liveIndexes (ws : Workspace α κ) (t : TableId) : List IndexId := (ws.table t).indexes.filter ws.holdsIndex

/-- Replaces the list of indexes of a table. -/
def setIndexes (ws : Workspace α κ) (t : TableId) (indexes : List IndexId) : Workspace α κ :=
  ws.modifyTable t fun table => { table with indexes := indexes }

/-- Adds an index to a table behind the given ones. -/
def register (ws : Workspace α κ) (t : TableId) (live : List IndexId) (index : Index α κ) :
    IndexId × Workspace α κ :=
  let (i, ws) := ws.addIndex index
  (i, ws.setIndexes t (live ++ [i]))

/-- The index of a column, if the column exists. -/
def indexOf [Ord α] (ws : Workspace α κ) (t : TableId) (column : Nat) : Option (IndexId × Workspace α κ) :=
  ((ws.content t).columns.idAt column).map fun id =>
    let live := ws.liveIndexes t
    match live.find? fun i => (ws.index? i).any (·.watches id) with
    | some i => (i, ws.setIndexes t live)
    | none => ws.register t live (.column t (ColumnIndex.ofContent id (ws.content t)))

/-- The index of the column that stands where a handle finds its column in its own table. -/
def indexOfColumn [Ord α] (ws : Workspace α κ) (t owner : TableId) (h : StripeRef) :
    Option (IndexId × Workspace α κ) :=
  (h.index (ws.content owner)).bind (ws.indexOf t)

/-- The kind of keys of an index by name. -/
def keyKind? (ws : Workspace α κ) (i : IndexId) : Option KeyKind :=
  match ws.index? i with
  | some (.keyed _ x) => some x.extractor.kind
  | _ => none

/-- The keyed index of a name. -/
def keyed [Ord κ] (ws : Workspace α κ) (t : TableId) (name : String) (extractor : Extractor α κ) :
    IndexId × Workspace α κ :=
  let live := ws.liveIndexes t
  let create (others : List IndexId) : IndexId × Workspace α κ :=
    ws.register t others (.keyed t (KeyedIndex.ofContent name extractor (ws.content t)))
  match live.find? fun i => (ws.index? i).any (·.isNamed name) with
  | some i => if ws.keyKind? i = some extractor.kind then (i, ws.setIndexes t live) else create (live.erase i)
  | none => create live

/-- Where the cells of some rows in the column of an index stand, as far as they are still there; nothing
    once the table is gone. -/
def cellPositions (ws : Workspace α κ) (t : TableId) (column : StripeId) (rows : List StripeId) :
    List (Option (Nat × Nat)) :=
  if ws.holdsTable t then rows.map fun row => CellRef.coordinates ⟨row, column⟩ (ws.content t) else []

/-- Where some rows stand, leaving out those that are gone; nothing once the table is gone. -/
def rowPositions (ws : Workspace α κ) (t : TableId) (rows : List StripeId) : List Nat :=
  if ws.holdsTable t then rows.filterMap (ws.content t).rows.positionOf else []

/-- Where the column of an index stands; nowhere once the table is gone. -/
def columnPosition (ws : Workspace α κ) (t : TableId) (column : StripeId) : Option Nat :=
  if ws.holdsTable t then (ws.content t).columns.positionOf column else none

end LiveTable.Workspace
