import LiveTable.Handle

/-! Operations: everything that can be done to a table, as data.  Running one gives an outcome and the
    edited table; a run of operations is a list of them. -/

namespace LiveTable

/-- What can be done through a reference to a stripe. -/
inductive StripeOperation (α : Type) where
  | setElement (index : Nat) (element : Option α)
  | setElements (elements : List (Option α))
  | convert (f : Option α → Option α)
  | putTitle (title : Option String)
  | remove
  | switchWith (other : Nat)
  | moveTo (target : Nat)

/-- What can be done through a reference to a cell. -/
inductive CellOperation (α : Type) where
  | setElement (element : Option α)
  | clear

/-- What can be done to a table. -/
inductive Operation (α : Type) where
  | setElement (row column : Nat) (element : Option α)
  | setElementByColumnTitle (row : Nat) (columnTitle : String) (element : Option α)
  | setElementByRowTitle (rowTitle : String) (column : Nat) (element : Option α)
  | setElementAt (rowTitle columnTitle : String) (element : Option α)
  | removeElement (row column : Nat)
  | insertElements (axis : Axis) (position : Nat) (elements : List (Option α))
  | addElements (axis : Axis) (elements : List (Option α))
  | addEntries (entries : List (String × Option α)) (create : Bool)
  | setElements (axis : Axis) (position : Nat) (elements : List (Option α))
  | removeAt (axis : Axis) (position : Nat)
  | swap (axis : Axis) (a b : Nat)
  | moveRow (source target : Nat)
  | transpose
  | clear
  | setName (name : String)
  | putTitle (axis : Axis) (position : Nat) (title : String)
  | clearTitle (axis : Axis) (position : Nat)
  | putTitles (axis : Axis) (titles : List String)
  | addColumnTitle (title : String)
  | titlesFromFirst (axis : Axis)
  | sortRows (column : Nat) (descending : Bool) (order : α → α → Ordering)
  | convertRows (start stop : Nat) (f : Option α → Option α)
  | replace (source : Content α)
  | viaStripe (handle : StripeRef) (operation : StripeOperation α)
  | viaCell (handle : CellRef) (operation : CellOperation α)

/-- What an operation gives back. -/
inductive Outcome (α : Type) where
  | done
  | cell (element : Option α)
  | position (place : Nat)
  | success (succeeded : Bool)
  | elements (removed : Option (List (Option α)))
  deriving DecidableEq

namespace Outcome

variable {α β ω : Type}

/-- An edit without a result. -/
def quiet (e : Edit α ω) : Outcome α × Edit α ω := (.done, e)

/-- An edit with a result. -/
def giving (outcome : β → Outcome α) (result : β × Edit α ω) : Outcome α × Edit α ω :=
  (outcome result.1, result.2)

end Outcome

open Outcome (quiet giving)

variable {α ω : Type}

/-- Runs an operation through a reference to a stripe. -/
def StripeOperation.run [DecidableEq α] (h : StripeRef) (e : Edit α ω) :
    StripeOperation α → Outcome α × Edit α ω
  | setElement index element => giving .cell (h.setElement index element e)
  | setElements elements => quiet (h.setElements elements e)
  | convert f => quiet (h.convert f e)
  | putTitle title => quiet (h.putTitle title e)
  | remove => giving .elements (h.remove e)
  | switchWith other => giving .success (h.switchWith other e)
  | moveTo target => giving .success (h.moveTo target e)

/-- Runs an operation through a reference to a cell. -/
def CellOperation.run [DecidableEq α] (h : CellRef) (e : Edit α ω) : CellOperation α → Outcome α × Edit α ω
  | setElement element => giving .cell (h.setElement element e)
  | clear => giving .cell (h.clear e)

/-- Runs an operation. -/
def Operation.run [Element α] (e : Edit α ω) : Operation α → Outcome α × Edit α ω
  | setElement row column element => giving .cell (e.setElement row column element)
  | setElementByColumnTitle row title element => giving .cell (e.setElementByColumnTitle row title element)
  | setElementByRowTitle title column element => giving .cell (e.setElementByRowTitle title column element)
  | setElementAt rowTitle columnTitle element => giving .cell (e.setElementAt rowTitle columnTitle element)
  | removeElement row column => giving .cell (e.removeElement row column)
  | insertElements axis position elements => giving .position (e.insertElements axis position elements)
  | addElements axis elements => giving .position (e.addElements axis elements)
  | addEntries entries create => giving .position (e.addEntries entries create)
  | setElements axis position elements => quiet (e.setElements axis position elements)
  | removeAt axis position => giving .elements (e.removeAt axis position)
  | swap axis a b => giving .success (e.swap axis a b)
  | moveRow source target => giving .success (e.moveRow source target)
  | transpose => quiet e.transpose
  | clear => quiet e.clear
  | setName name => quiet (e.setName name)
  | putTitle axis position title => quiet (e.putTitle axis position (some title))
  | clearTitle axis position => quiet (e.clearTitle axis position)
  | putTitles axis titles => quiet (e.putTitles axis titles)
  | addColumnTitle title => giving .position (e.addColumnTitle title)
  | titlesFromFirst axis => quiet (e.titlesFromFirst axis)
  | sortRows column descending order => giving .success (e.sortRows column descending order)
  | convertRows start stop f => quiet (e.convertRows start stop f)
  | replace source => quiet (e.replace source)
  | viaStripe h operation => operation.run h e
  | viaCell h operation => operation.run h e

end LiveTable
