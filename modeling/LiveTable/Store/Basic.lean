import LiveTable.Store.File

/-! Stores: a store in memory, a store with a file, and a journal, which keeps no rows of its own but
    writes down every call and answers by a rule of its own, which may look at all that it has written
    down. -/

namespace LiveTable

/-- A store that answers every request for its rows alike and writes down each call. -/
structure Journal (α : Type) where
  /-- The rows it answers with, each at a position or, without one, at the end. -/
  stored : List (Option Nat × List (Option α)) := []
  /-- Whether it refuses the last of these calls, once it has written them down, oldest first. -/
  answer : List (Option (StoreCall α)) → Option StoreFault := fun _ => none
  /-- The calls since it was last looked at, oldest first; `none` is a request for all rows. -/
  calls : List (Option (StoreCall α)) := []

namespace Journal

variable {α : Type}

/-- The name of a call. -/
def callName : Option (StoreCall α) → String
  | none => "all"
  | some (.add _ _) => "add"
  | some (.update _ _) => "update"
  | some (.remove _) => "remove"
  | some .removeAll => "remove_all"

/-- The row a call is about, the first one for calls about all rows. -/
def callRow : Option (StoreCall α) → Nat
  | some (.add row _) => row
  | some (.update row _) => row
  | some (.remove row) => row
  | _ => 0

/-- A journal that refuses the calls of the given names. -/
def refusing (stored : List (Option Nat × List (Option α))) (refused : List String) : Journal α where
  stored := stored
  answer calls := calls.getLast?.bind fun call =>
    if refused.contains (callName call) then some (.rowOutOfRange (callRow call) 99) else none

/-- Writes a call down, and then refuses it or not. -/
def record (j : Journal α) (call : Option (StoreCall α)) : Option StoreFault × Journal α :=
  let calls := j.calls ++ [call]
  (j.answer calls, { j with calls := calls })

end Journal

/-- A store of any kind. -/
inductive Store (α : Type) where
  | memory (rows : StoredRows α)
  | file (store : FileStore α)
  | journal (journal : Journal α)

namespace Store

variable {α : Type} [JsonForm α] [BinaryForm α]

/-- Asks a store for all its rows, each with the position it is to be loaded at. -/
def load : Store α → Except StoreFault (List (Option Nat × List (Option α))) × Store α
  | memory rows => (.ok (rows.zipIdx.map fun (row, position) => (some position, row)), memory rows)
  | file s => (.ok (s.rows.zipIdx.map fun (row, position) => (some position, row)), file s)
  | journal j =>
    match j.record none with
    | (some fault, j) => (.error fault, journal j)
    | (none, j) => (.ok j.stored, journal j)

/-- Tells a store to do something. -/
def tell (disk : Disk) (call : StoreCall α) : Store α → Option StoreFault × Store α × Disk
  | memory rows =>
    match MemoryStore.tell rows call with
    | .ok rows => (none, memory rows, disk)
    | .error fault => (some fault, memory rows, disk)
  | file s =>
    let (fault, s, disk) := s.tell disk call
    (fault, file s, disk)
  | journal j =>
    let (fault, j) := j.record (some call)
    (fault, journal j, disk)

/-- Tells a store to do several things, giving up at the first that it refuses. -/
def tellAll (disk : Disk) (s : Store α) : List (StoreCall α) → Option StoreFault × Store α × Disk
  | [] => (none, s, disk)
  | call :: rest =>
    match s.tell disk call with
    | (some fault, s, disk) => (some fault, s, disk)
    | (none, s, disk) => s.tellAll disk rest

/-- Lets a store follow one change of a table. -/
def observe (disk : Disk) (s : Store α) (n : Notice α) : Option StoreFault × Store α × Disk :=
  s.tellAll disk (StoreCall.ofNotice n)

end Store

end LiveTable
