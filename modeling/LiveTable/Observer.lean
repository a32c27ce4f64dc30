import LiveTable.Content.Edit

/-! Observers: what they are told, how they may fail, and the handlers that a user attaches.  A notice
    pairs an event with the content as it was just after that change, which is all that an observer ever
    gets to see.  A mutation never fails because of an observer: the fault is handed to whoever collects
    the faults of the table. -/

namespace LiveTable

/-! ### Notices -/

/-- One change of a table. -/
inductive Event (α : Type) where
  /-- A stripe was inserted at a position; later stripes of its direction moved up by one. -/
  | added (axis : Axis) (position : Nat)
  /-- A stripe was taken out; later stripes of its direction moved down by one. -/
  | removed (axis : Axis) (position : Nat) (stripe : Removed α)
  /-- A cell got another element. -/
  | updatedCell (row column : Nat) (previous : Option α)
  /-- All stripes were taken out. -/
  | cleared
  /-- Stripes of one direction changed their order. -/
  | reordered
  /-- Rows and columns swapped roles. -/
  | transposed

/-- The name of an event. -/
def Event.name {α : Type} : Event α → String
  | .added .row _ => "added_row"
  | .added .column _ => "added_column"
  | .removed .row _ _ => "removed_row"
  | .removed .column _ _ => "removed_column"
  | .updatedCell _ _ _ => "updated_cell"
  | .cleared => "cleared"
  | .reordered => "reordered"
  | .transposed => "transposed"

/-- What observers are told: a change, and the content just after it. -/
structure Notice (α : Type) where
  event : Event α
  content : Content α

/-! ### Faults -/

/-- Why a store refused a call. -/
inductive StoreFault where
  /-- The file could not be accessed. -/
  | io
  /-- Decoding or encoding rows in JSON form failed. -/
  | json
  /-- Decoding or encoding rows in binary form failed. -/
  | binary
  /-- There is no such row. -/
  | rowOutOfRange (index len : Nat)
  deriving DecidableEq, Repr

/-- The wording of a fault, up to where the outside world would have its say. -/
def StoreFault.message : StoreFault → String
  | io => "I/O error"
  | json => "JSON error"
  | binary => "Bincode error"
  | rowOutOfRange index len => s!"Row index {index} out of range (store holds {len} rows)"

/-- Why an observer failed. -/
inductive ObserverFault where
  | store (fault : StoreFault)
  | handler (name message : String)
  deriving DecidableEq, Repr

/-- The wording of a failure. -/
def ObserverFault.message : ObserverFault → String
  | store fault => "Persistence error: " ++ fault.message
  | handler name message => s!"Event handler '{name}' failed: {message}"

/-! ### Handlers -/

/-- A handler that keeps what it is told and answers by a rule of its own, which may look at all that it
    has kept. -/
structure Recorder (α : Type) where
  /-- Whether it fails, as soon as it has kept these notices, latest first. -/
  answer : List (Notice α) → Option ObserverFault := fun _ => none
  /-- The notices since it was last looked at, latest first. -/
  notices : List (Notice α) := []

/-- A recorder with a name that fails on the events of the given names. -/
def Recorder.refusing {α : Type} (name : String) (refused : List String) : Recorder α where
  answer kept := kept.head?.bind fun n =>
    if refused.contains n.event.name then some (.handler name ("no " ++ n.event.name)) else none

/-- A handler of any kind; a silent one does nothing. -/
inductive Handler (α : Type) where
  | recorder (recorder : Recorder α)
  | silent

/-- Tells a handler of a change. -/
def Handler.observe {α : Type} (n : Notice α) : Handler α → Option ObserverFault × Handler α
  | recorder r =>
    let kept := n :: r.notices
    (r.answer kept, recorder { r with notices := kept })
  | silent => (none, silent)

end LiveTable
