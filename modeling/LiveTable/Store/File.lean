import LiveTable.Binary
import LiveTable.Json.Form
import LiveTable.Store.Call
import LiveTable.Store.Disk

/-! File stores.  The rows are kept in memory; a store with a file loads it when it is opened and writes
    the whole file after every call that changed the rows.  A call that the rows refuse leaves the file
    alone, and a file that cannot be written leaves the changed rows in memory.  What the store answers
    then depends on who ran into the failure: the encoder hands on what it meets as a fault of its own
    form. -/

namespace LiveTable

/-- How the rows are written to the file. -/
inductive FileForm where
  | json
  | binary
  deriving DecidableEq, Repr

namespace FileForm

/-- The fault of a form. -/
def fault : FileForm → StoreFault
  | json => .json
  | binary => .binary

variable {α : Type} [JsonForm α] [BinaryForm α]

/-- The bytes of a file that holds the rows. -/
def encode (form : FileForm) (rows : StoredRows α) : List UInt8 :=
  match form with
  | json => (String.ofList (JsonForm.toJson rows).compact).toUTF8.toList
  | binary => BinaryForm.toBytes rows

/-- The rows that the bytes of a file stand for.  Whatever follows the rows in a binary file is ignored. -/
def decode (form : FileForm) (bytes : List UInt8) : Except StoreFault (StoredRows α) :=
  match form with
  | json =>
    match ((String.fromUTF8? ⟨bytes.toArray⟩).bind (Json.read? ·.toList)).bind JsonForm.ofJson? with
    | some rows => .ok rows
    | none => .error json.fault
  | binary =>
    match BinaryForm.read? bytes with
    | some (rows, _) => .ok rows
    | none => .error binary.fault

/-- The fault with which a failed save is answered. -/
def saveFault (form : FileForm) : SaveFailure → StoreFault
  | .access => .io
  | .encoding => form.fault

end FileForm

/-- A store with a file, or with none. -/
structure FileStore (α : Type) where
  file : Option String
  form : FileForm
  rows : StoredRows α := []

namespace FileStore

variable {α : Type} [JsonForm α] [BinaryForm α]

/-- Opens the store of a file, loading its rows if the file exists. -/
def openAt (disk : Disk) (file : String) (form : FileForm) : Except StoreFault (FileStore α) :=
  match disk.read? file with
  | none => .ok { file := some file, form := form }
  | some bytes => (form.decode bytes).map fun rows => { file := some file, form := form, rows := rows }

/-- What a call does to the rows of the store; a row that is not there is refused. -/
def change (call : StoreCall α) (rows : StoredRows α) : Except StoreFault (StoredRows α) :=
  match call with
  | .add row elements =>
    if row > rows.length then .error (.rowOutOfRange row rows.length) else .ok (rows.insertIdx row elements)
  | .update row elements =>
    match rows[row]? with
    | some _ => .ok (rows.set row elements)
    | none => .error (.rowOutOfRange row rows.length)
  | .remove row =>
    if row ≥ rows.length then .error (.rowOutOfRange row rows.length) else .ok (rows.eraseIdx row)
  | .removeAll => .ok []

omit [JsonForm α] [BinaryForm α] in
/-- A call does to the rows of a store with a file what it does to those of a store in memory. -/
theorem change_eq_tell (call : StoreCall α) (rows : StoredRows α) :
    change call rows = MemoryStore.tell rows call := by
  cases call <;> rfl

/-- Changes the rows, and then saves the file if there is one. -/
def modify (saver : Saver) (s : FileStore α) (disk : Disk)
    (change : StoredRows α → Except StoreFault (StoredRows α)) : Option StoreFault × FileStore α × Disk :=
  match change s.rows with
  | .error fault => (some fault, s, disk)
  | .ok rows =>
    let changed := { s with rows := rows }
    match s.file with
    | none => (none, changed, disk)
    | some file =>
      let (failure, disk) := saver.save disk file (s.form.encode rows)
      (failure.map s.form.saveFault, changed, disk)

/-- Follows a call with a way to save the file. -/
def follow (saver : Saver) (s : FileStore α) (disk : Disk) (call : StoreCall α) :
    Option StoreFault × FileStore α × Disk :=
  s.modify saver disk (change call)

section Follow

variable {saver : Saver} {s : FileStore α} {disk : Disk} {call : StoreCall α} {rows : StoredRows α}

theorem follow_refused {fault : StoreFault} (refused : change call s.rows = .error fault) :
    s.follow saver disk call = (some fault, s, disk) := by
  rw [follow, modify, refused]

theorem follow_unfiled (done : change call s.rows = .ok rows) (file : s.file = none) :
    s.follow saver disk call = (none, { s with rows := rows }, disk) := by
  rw [follow, modify, done]
  simp only [file]

theorem follow_filed {name : String} (done : change call s.rows = .ok rows) (file : s.file = some name) :
    s.follow saver disk call =
      ((saver.save disk name (s.form.encode rows)).1.map s.form.saveFault, { s with rows := rows },
        (saver.save disk name (s.form.encode rows)).2) := by
  rw [follow, modify, done]
  simp only [file]

/-- A store stays with its file and its form. -/
theorem follow_keeps (saver : Saver) (s : FileStore α) (disk : Disk) (call : StoreCall α) :
    (s.follow saver disk call).2.1.file = s.file ∧ (s.follow saver disk call).2.1.form = s.form := by
  cases done : change call s.rows with
  | error fault => rw [follow_refused done]; exact ⟨rfl, rfl⟩
  | ok rows =>
    cases file : s.file with
    | none => rw [follow_unfiled done file]; exact ⟨file, rfl⟩
    | some name => rw [follow_filed done file]; exact ⟨file, rfl⟩

end Follow

/-- Follows a call, writing the file to the disk. -/
def tell (s : FileStore α) (disk : Disk) (call : StoreCall α) : Option StoreFault × FileStore α × Disk :=
  s.follow Disk.saver disk call

end FileStore

end LiveTable
