import LiveTable.Format.Document
import LiveTable.Operation
import LiveTable.Workspace.Basic

/-! Telling observers.  Every notice of an edit goes to the indexes of the table, then to its stores,
    then to its handlers, each kind in the order of attachment; a fault is reported and stops neither the
    edit nor the other observers.  A document that takes the place of what a table holds is read as a
    whole before the table hears of it: one that cannot be read changes nothing. -/

namespace LiveTable.Workspace

variable {α κ : Type} [Element α] [JsonForm α] [BinaryForm α] [Ord κ]

omit [Element α] [JsonForm α] [BinaryForm α] [Ord κ] in
/-- Reports a fault of an observer of a table. -/
def report (ws : Workspace α κ) (t : TableId) (fault : ObserverFault) : Workspace α κ :=
  match (ws.table t).policy with
  | .collect k => { ws with collectors := ws.collectors.modify k.value (· ++ [fault.message]) }
  | _ => ws

omit [Element α] [JsonForm α] [BinaryForm α] [Ord κ] in
/-- Reports a fault if there is one. -/
def reportAny (ws : Workspace α κ) (t : TableId) (fault : Option ObserverFault) : Workspace α κ :=
  match fault with
  | some fault => ws.report t fault
  | none => ws

omit [JsonForm α] [BinaryForm α] in
/-- Lets an index follow a change, as long as a name holds it. -/
def tellIndex (n : Notice α) (ws : Workspace α κ) (i : IndexId) : Workspace α κ :=
  if ws.holdsIndex i then ws.modifyIndex i (Index.observe n) else ws

omit [Element α] [Ord κ] in
/-- Lets a store follow a change. -/
def tellStore (t : TableId) (n : Notice α) (ws : Workspace α κ) (s : StoreId) : Workspace α κ :=
  let (fault, store, disk) := (ws.store s).observe ws.disk n
  ({ ws with disk := disk }.setStore s store).reportAny t (fault.map ObserverFault.store)

omit [Element α] [JsonForm α] [BinaryForm α] [Ord κ] in
/-- Tells a handler of a change. -/
def tellHandler (t : TableId) (n : Notice α) (ws : Workspace α κ) (h : HandlerId) : Workspace α κ :=
  let (fault, handler) := (ws.handler h).observe n
  (ws.setHandler h handler).reportAny t fault

omit [Element α] [JsonForm α] [BinaryForm α] [Ord κ] in
/-- Lets go of the index of a column that was removed, and of those that no name holds. -/
def dropIndexes (ws : Workspace α κ) (t : TableId) (column : StripeId) : Workspace α κ :=
  ws.modifyTable t fun table =>
    { table with indexes := table.indexes.filter fun i =>
        ws.holdsIndex i && !(ws.index? i).any (·.watches column) }

/-- Tells all observers of a table of one change. -/
def publish (t : TableId) (ws : Workspace α κ) (n : Notice α) : Workspace α κ :=
  let ws := (ws.table t).indexes.foldl (tellIndex n) ws
  let ws := (ws.table t).stores.foldl (tellStore t n) ws
  let ws := (ws.table t).handlers.foldl (tellHandler t n) ws
  match n.event with
  | .removed .column _ stripe => ws.dropIndexes t stripe.id
  | _ => ws

/-- Edits a table and tells its observers. -/
def edit {β : Type} (ws : Workspace α κ) (t : TableId)
    (operation : Edit α (Workspace α κ) → β × Edit α (Workspace α κ)) : β × Workspace α κ :=
  let (result, e) := operation ⟨ws.content t, ws, publish t⟩
  (result, e.observers.modifyTable t fun table => { table with content := e.content })

/-- Runs an operation on a table and tells its observers. -/
def perform (ws : Workspace α κ) (t : TableId) (operation : Operation α) : Outcome α × Workspace α κ :=
  ws.edit t fun e => operation.run e

/-- Adds a copy of a table with rows and columns swapped. -/
def transposedCopy (ws : Workspace α κ) (t : TableId) : TableId × Workspace α κ :=
  let (copy, ws) := ws.cloneTable t
  (copy, (ws.perform copy .transpose).2)

/-! ### Taking documents over -/

/-- Replaces what a table holds by what was read, if anything was. -/
def takeOver (ws : Workspace α κ) (t : TableId) :
    Except FormatFault (Snapshot α) → Except FormatFault Unit × Workspace α κ
  | .ok s => (.ok (), (ws.perform t (.replace (.ofSnapshot s))).2)
  | .error fault => (.error fault, ws)

/-- Replaces what a table holds by what a document describes. -/
def takeText (ws : Workspace α κ) (t : TableId) (format : Format) (inclusion : Inclusion) (text : String) :
    Except FormatFault Unit × Workspace α κ :=
  ws.takeOver t (format.read text inclusion)

/-- Replaces what a table holds by what the bytes of a document describe. -/
def takeBytes (ws : Workspace α κ) (t : TableId) (format : Format) (inclusion : Inclusion)
    (bytes : List UInt8) : Except FormatFault Unit × Workspace α κ :=
  ws.takeOver t (format.readBytes bytes inclusion)

end LiveTable.Workspace
