import LiveTable.Proofs.Binary
import LiveTable.Proofs.Json.Form
import LiveTable.Store.Basic

/-! A store with a file and a store in memory that are told the same.  They hold the same rows at any
    time and refuse the same calls; all that the file adds is that it may not be saved, which is found
    out when the rows have changed already.  What stands in the file is known as soon as a call was
    saved, and stays known for as long as calls are only refused: it is the form of the rows, from which
    opening the file reads them back. -/

namespace LiveTable

variable {α : Type} [JsonForm α] [BinaryForm α]

/-! ### Forms of rows -/

/-- Rows are read from a file that holds them, and a binary file may hold more behind them. -/
theorem FileForm.decode_encode [JsonForm.Faithful α] [BinaryForm.Faithful α] (form : FileForm)
    {rows : StoredRows α}
    (fits : form = .binary → (form.encode rows).length < 0x10000000000000000) {rest : List UInt8}
    (alone : form = .binary ∨ rest = []) : form.decode (form.encode rows ++ rest) = .ok rows := by
  cases form with
  | json =>
    obtain rfl : rest = [] := alone.resolve_left nofun
    have legible : JsonForm.Legible rows :=
      JsonForm.legible_list fun row _ => JsonForm.legible_list fun cell _ => JsonForm.legible_option cell
    rw [List.append_nil, encode, decode, BinaryForm.fromUTF8?_toUTF8, Option.bind_some, String.toList_ofList,
      legible.writable.read?_compact, Option.bind_some, legible.read]
  | binary =>
    have read := BinaryForm.Faithful.legible rows (fits rfl) rest
    rw [encode, decode, read]

/-! ### Two stores side by side -/

omit [JsonForm α] [BinaryForm α] in
/-- The one reason for which rows refuse a call. -/
theorem FileStore.change_error {call : StoreCall α} {rows : StoredRows α} {fault : StoreFault}
    (refused : change call rows = .error fault) : ∃ index, fault = .rowOutOfRange index rows.length := by
  cases call with
  | removeAll => cases refused
  | _ row =>
    rw [change] at refused
    split at refused <;> cases refused
    exact ⟨row, rfl⟩

/-- A call, and how the file is saved after it. -/
structure SavedCall (α : Type) where
  call : StoreCall α
  saver : Saver

/-- Two stores that are told the same, one with a file and one in memory, and what both have answered so
    far. -/
structure Twins (α : Type) where
  filed : FileStore α
  disk : Disk
  memory : Store α
  answers : List (Option StoreFault × Option StoreFault) := []

namespace Twins

variable {t : Twins α} {told : SavedCall α}

/-- Tells both stores to do something. -/
def tell (t : Twins α) (told : SavedCall α) : Twins α :=
  let filed := t.filed.follow told.saver t.disk told.call
  let memory := t.memory.tell t.disk told.call
  ⟨filed.2.1, filed.2.2, memory.2.1, t.answers ++ [(filed.1, memory.1)]⟩

/-- Tells both stores to do several things. -/
def run (t : Twins α) (calls : List (SavedCall α)) : Twins α := calls.foldl tell t

/-- What the store with the file answered to the last call that was in range. -/
def lastInRange (t : Twins α) : Option (Option StoreFault) :=
  ((t.answers.map Prod.fst).filter fun
    | some (.rowOutOfRange _ _) => false
    | _ => true).getLast?

/-- All that a call can do to two stores with the same rows. -/
inductive Step (t : Twins α) (told : SavedCall α) : Twins α → Prop
  | refused {index : Nat}
      (out : FileStore.change told.call t.filed.rows = .error (.rowOutOfRange index t.filed.rows.length)) :
      Step t told { t with answers := t.answers ++
        [(some (.rowOutOfRange index t.filed.rows.length), some (.rowOutOfRange index t.filed.rows.length))] }
  | unfiled {rows : StoredRows α} (done : FileStore.change told.call t.filed.rows = .ok rows)
      (file : t.filed.file = none) :
      Step t told ⟨{ t.filed with rows := rows }, t.disk, .memory rows, t.answers ++ [(none, none)]⟩
  | saved {rows : StoredRows α} {name : String} {disk : Disk}
      (done : FileStore.change told.call t.filed.rows = .ok rows) (file : t.filed.file = some name)
      (save : told.saver.save t.disk name (t.filed.form.encode rows) = (none, disk)) :
      Step t told ⟨{ t.filed with rows := rows }, disk, .memory rows, t.answers ++ [(none, none)]⟩
  | failed {rows : StoredRows α} {name : String} {failure : SaveFailure} {disk : Disk}
      (done : FileStore.change told.call t.filed.rows = .ok rows) (file : t.filed.file = some name)
      (save : told.saver.save t.disk name (t.filed.form.encode rows) = (some failure, disk)) :
      Step t told ⟨{ t.filed with rows := rows }, disk, .memory rows,
        t.answers ++ [(some (t.filed.form.saveFault failure), none)]⟩

theorem step_tell (same : t.memory = .memory t.filed.rows) (told : SavedCall α) :
    t.Step told (t.tell told) := by
  obtain ⟨filed, disk, memory, answers⟩ := t
  obtain rfl : memory = .memory filed.rows := same
  have agree : MemoryStore.tell filed.rows told.call = FileStore.change told.call filed.rows :=
    (FileStore.change_eq_tell ..).symm
  rw [tell]
  cases done : FileStore.change told.call filed.rows with
  | error fault =>
    obtain ⟨index, rfl⟩ := FileStore.change_error done
    simp only [FileStore.follow_refused done, Store.tell, agree, done]
    exact .refused done
  | ok rows =>
    cases file : filed.file with
    | none =>
      simp only [FileStore.follow_unfiled done file, Store.tell, agree, done]
      exact .unfiled done file
    | some name =>
      simp only [FileStore.follow_filed done file, Store.tell, agree, done]
      cases save : told.saver.save disk name (filed.form.encode rows) with
      | mk failure written =>
        cases failure with
        | none => exact .saved done file save
        | some failure => exact .failed done file save

/-- What the store with the file answers when the rows have taken a call, by how saving the file has
    failed. -/
def AnswersSave (form : FileForm) (size : Nat) (answer : Option StoreFault) : Option SaveFailure → Prop
  | none => answer = none
  | some .access => answer = some .io
  | some .encoding => answer = some form.fault ∧ bufferSize < size

/-- How both stores answer a call. -/
theorem Step.answered {t' : Twins α} (step : t.Step told t') :
    ∃ answer expected, t'.answers = t.answers ++ [(answer, expected)] ∧
      (∀ fault, expected = some fault → ∃ index, fault = .rowOutOfRange index t.filed.rows.length) ∧
      (∀ index len, answer = some (.rowOutOfRange index len) ↔ expected = some (.rowOutOfRange index len)) ∧
      (∀ index len, answer = some (.rowOutOfRange index len) →
        t'.filed = t.filed ∧ t'.disk = t.disk ∧ t'.memory = t.memory) ∧
      (expected = none → AnswersSave t.filed.form (t.filed.form.encode t'.filed.rows).length answer
        (t.filed.file.bind fun name =>
          (told.saver.save t.disk name (t.filed.form.encode t'.filed.rows)).1)) := by
  cases step with
  | @refused index out =>
    refine ⟨_, _, rfl, ?_, fun _ _ => Iff.rfl, fun _ _ _ => ⟨rfl, rfl, rfl⟩, nofun⟩
    rintro fault ⟨⟩
    exact ⟨index, rfl⟩
  | unfiled done file =>
    refine ⟨_, _, rfl, nofun, fun _ _ => Iff.rfl, nofun, fun _ => ?_⟩
    rw [file]
    rfl
  | saved done file save =>
    refine ⟨_, _, rfl, nofun, fun _ _ => Iff.rfl, nofun, fun _ => ?_⟩
    rw [file, Option.bind_some, save]
    rfl
  | @failed rows name failure disk done file save =>
    have unlike (index len : Nat) : t.filed.form.saveFault failure ≠ .rowOutOfRange index len := by
      cases t.filed.form <;> cases failure <;> nofun
    refine ⟨_, _, rfl, nofun, fun index len => ⟨fun same => ?_, nofun⟩, fun index len same => ?_, fun _ => ?_⟩
    · exact absurd (Option.some.inj same) (unlike index len)
    · exact absurd (Option.some.inj same) (unlike index len)
    · rw [file, Option.bind_some, save]
      cases failure with
      | access => rfl
      | encoding => exact ⟨rfl, told.saver.early (congrArg Prod.fst save)⟩

/-- What holds of two stores that have been told the same from the same rows on: they have the same rows,
    and the file holds them if the last call that was in range was saved. -/
structure Alike (file : Option String) (form : FileForm) (t : Twins α) : Prop where
  sameFile : t.filed.file = file
  sameForm : t.filed.form = form
  sameRows : t.memory = .memory t.filed.rows
  kept : ∀ name, file = some name → t.lastInRange = some none →
    t.disk.read? name = some (form.encode t.filed.rows)

variable {file : Option String} {form : FileForm}

theorem Alike.step (h : Alike file form t) {t' : Twins α} (step : t.Step told t') : Alike file form t' := by
  obtain ⟨rfl, rfl, rows, kept⟩ := h
  cases step with
  | refused out =>
    refine ⟨rfl, rfl, rows, fun name here last => kept name here ?_⟩
    simpa [lastInRange] using last
  | unfiled done none => exact ⟨rfl, rfl, rfl, fun name here => nomatch none.symm.trans here⟩
  | @saved rows name disk done here save =>
    refine ⟨rfl, rfl, rfl, fun other same _ => ?_⟩
    obtain rfl : name = other := Option.some.inj (here.symm.trans same)
    have written := told.saver.saved (congrArg Prod.fst save)
    rwa [save] at written
  | @failed rows name failure disk done here save =>
    refine ⟨rfl, rfl, rfl, fun other same last => ?_⟩
    cases form : t.filed.form <;> cases failure <;>
      simp [lastInRange, form, FileForm.saveFault, FileForm.fault] at last

theorem Alike.tell (h : Alike file form t) (told : SavedCall α) : Alike file form (t.tell told) :=
  h.step (step_tell h.sameRows told)

theorem Alike.run (h : Alike file form t) (calls : List (SavedCall α)) : Alike file form (t.run calls) := by
  induction calls generalizing t with
  | nil => exact h
  | cons told rest ih => exact ih (h.tell told)

/-- A file that holds the rows is opened as the store that has them. -/
theorem Alike.openAt [JsonForm.Faithful α] [BinaryForm.Faithful α] (h : Alike file form t) {name : String}
    (here : file = some name) (last : t.lastInRange = some none)
    (fits : form = .binary → (form.encode t.filed.rows).length < 0x10000000000000000) {rest : List UInt8}
    (alone : form = .binary ∨ rest = []) {disk : Disk}
    (found : disk.read? name = (t.disk.read? name).map (· ++ rest)) :
    FileStore.openAt disk name form = .ok t.filed := by
  rw [h.kept name here last] at found
  have decoded := form.decode_encode fits alone
  obtain ⟨⟨_, _, rows⟩, _, _, _⟩ := t
  obtain ⟨rfl, rfl, -, -⟩ := h
  cases here
  rw [FileStore.openAt, found]
  exact congrArg (Except.map _) decoded

end Twins

end LiveTable
