import LiveTable.Workspace.Observe

/-! Attaching observers.  A store is loaded into the table first, then it is given the rows that did not
    come from it, so that both hold the same rows in the same order before the store starts to follow the
    table. -/

namespace LiveTable

/-- Puts stored rows into a table, each at its position or at the end, and gives the identities they got. -/
def Edit.hydrate {α ω : Type} (stored : List (Option Nat × List (Option α))) (e : Edit α ω) :
    List StripeId × Edit α ω :=
  stored.foldl (fun (loaded, e) (position, elements) =>
    let (row, e) := match position with
      | some position => e.insertElements .row position elements
      | none => e.addElements .row elements
    (loaded ++ (e.content.rows.idAt row).toList, e)) ([], e)

namespace Workspace

variable {α κ : Type} [Element α] [JsonForm α] [BinaryForm α] [Ord κ]

omit [Element α] [Ord κ] in
/-- Tells a store one thing on behalf of a table. -/
def push (t : TableId) (s : StoreId) (ws : Workspace α κ) (call : StoreCall α) : Workspace α κ :=
  let (fault, store, disk) := (ws.store s).tell ws.disk call
  ({ ws with disk := disk }.setStore s store).reportAny t (fault.map ObserverFault.store)

omit [Element α] [Ord κ] in
/-- Asks a store for its rows; one that fails has none. -/
def loadStore (ws : Workspace α κ) (t : TableId) (s : StoreId) :
    List (Option Nat × List (Option α)) × Workspace α κ :=
  match (ws.store s).load with
  | (.ok rows, store) => (rows, ws.setStore s store)
  | (.error fault, store) => ([], (ws.setStore s store).report t (.store fault))

/-- Attaches a store to a table. -/
def attachStore (ws : Workspace α κ) (t : TableId) (s : StoreId) : Workspace α κ :=
  let (stored, ws) := ws.loadStore t s
  let (loaded, ws) := ws.edit t (Edit.hydrate stored)
  let c := ws.content t
  let missing := c.rows.toList.zipIdx.filterMap fun (stripe, row) =>
    if loaded.contains stripe.id then none else some (StoreCall.add row (StoreCall.rowOf c row))
  (missing.foldl (push t s) ws).modifyTable t fun table => { table with stores := table.stores ++ [s] }

omit [Element α] [JsonForm α] [BinaryForm α] [Ord κ] in
/-- Detaches a store; `false` if it was not attached. -/
def detachStore (ws : Workspace α κ) (t : TableId) (s : StoreId) : Bool × Workspace α κ :=
  ((ws.table t).stores.contains s,
    ws.modifyTable t fun table => { table with stores := table.stores.filter (· != s) })

omit [Element α] [JsonForm α] [BinaryForm α] [Ord κ] in
/-- Attaches a handler. -/
def attachHandler (ws : Workspace α κ) (t : TableId) (h : HandlerId) : Workspace α κ :=
  ws.modifyTable t fun table => { table with handlers := table.handlers ++ [h] }

omit [Element α] [JsonForm α] [BinaryForm α] [Ord κ] in
/-- Detaches a handler; `false` if it was not attached. -/
def detachHandler (ws : Workspace α κ) (t : TableId) (h : HandlerId) : Bool × Workspace α κ :=
  ((ws.table t).handlers.contains h,
    ws.modifyTable t fun table => { table with handlers := table.handlers.filter (· != h) })

omit [Element α] [Ord κ] in
/-- Tells a store one thing directly and gives its answer. -/
def tell (ws : Workspace α κ) (s : StoreId) (call : StoreCall α) : Option StoreFault × Workspace α κ :=
  let (fault, store, disk) := (ws.store s).tell ws.disk call
  (fault, { ws with disk := disk }.setStore s store)

omit [Element α] [Ord κ] in
/-- Asks a store directly for its rows. -/
def load (ws : Workspace α κ) (s : StoreId) :
    Except StoreFault (List (Option Nat × List (Option α))) × Workspace α κ :=
  let (answer, store) := (ws.store s).load
  (answer, ws.setStore s store)

omit [Element α] [JsonForm α] [BinaryForm α] [Ord κ] in
/-- Takes the calls that a journal has written down since it was last looked at. -/
def takeCalls (ws : Workspace α κ) (s : StoreId) (j : Journal α) :
    List (Option (StoreCall α)) × Workspace α κ :=
  (j.calls, ws.setStore s (.journal { j with calls := [] }))

omit [Element α] [JsonForm α] [BinaryForm α] [Ord κ] in
/-- Takes the notices that a recorder has kept since it was last looked at, oldest first. -/
def takeNotices (ws : Workspace α κ) (h : HandlerId) (r : Recorder α) : List (Notice α) × Workspace α κ :=
  (r.notices.reverse, ws.setHandler h (.recorder { r with notices := [] }))

end Workspace

end LiveTable
