import LiveTable.Proofs.Edit.Script
import LiveTable.Store.Basic

/-! A store that holds the rows of a table takes every notice without a fault, and then holds the rows
    that the notice shows.  The calls that a notice stands for are read first on plain rows, event by
    event; all that counts of the event is what it says of the layout.  A store follows them as long as
    nothing but its rows can refuse a call. -/

namespace LiveTable

variable {α : Type}

namespace StoreCall

/-- What a call makes of stored rows, whichever store keeps them; a row past the end is refused. -/
def apply (rows : StoredRows α) : StoreCall α → Except StoreFault (StoredRows α)
  | add row elements =>
    if row ≤ rows.length then .ok (rows.insertIdx row elements) else .error (.rowOutOfRange row rows.length)
  | update row elements =>
    if row < rows.length then .ok (rows.set row elements) else .error (.rowOutOfRange row rows.length)
  | remove row =>
    if row < rows.length then .ok (rows.eraseIdx row) else .error (.rowOutOfRange row rows.length)
  | removeAll => .ok []

theorem tell_eq_apply (call : StoreCall α) (rows : StoredRows α) :
    MemoryStore.tell rows call = call.apply rows := by
  cases call with
  | add row elements =>
    rw [MemoryStore.tell, MemoryStore.add, apply]
    split <;> split <;> first | rfl | omega
  | update row elements =>
    rw [MemoryStore.tell, MemoryStore.update, apply]
    by_cases inside : row < rows.length <;> simp [inside]
  | remove row =>
    rw [MemoryStore.tell, MemoryStore.remove, apply]
    split <;> split <;> first | rfl | omega
  | removeAll => rfl

theorem change_eq_apply (call : StoreCall α) (rows : StoredRows α) :
    FileStore.change call rows = call.apply rows :=
  (FileStore.change_eq_tell call rows).trans (call.tell_eq_apply rows)

/-- What several calls make of stored rows. -/
def applyAll (rows : StoredRows α) (calls : List (StoreCall α)) : Except StoreFault (StoredRows α) :=
  calls.foldlM StoreCall.apply rows

theorem applyAll_cons {rows rows' : StoredRows α} {call : StoreCall α} (done : call.apply rows = .ok rows')
    (rest : List (StoreCall α)) : applyAll rows (call :: rest) = applyAll rows' rest := by
  rw [applyAll, List.foldlM_cons, done]
  rfl

theorem applyAll_singleton {rows rows' : StoredRows α} {call : StoreCall α}
    (done : call.apply rows = .ok rows') : applyAll rows [call] = .ok rows' :=
  applyAll_cons done []

/-! ### Calls for every row -/

/-- Replacing rows one after the other, from a position on. -/
theorem applyAll_update : ∀ (new front old : StoredRows α), old.length = new.length →
    applyAll (front ++ old) ((new.zipIdx front.length).map fun entry => update entry.2 entry.1) =
      .ok (front ++ new)
  | [], _, [], _ => rfl
  | row :: new, front, other :: old, same => by
    have done : (update front.length row).apply (front ++ other :: old) = .ok ((front ++ [row]) ++ old) := by
      simp [apply]
    have next : front.length + 1 = (front ++ [row]).length := by simp
    rw [List.zipIdx_cons, List.map_cons, applyAll_cons done, next,
      applyAll_update new _ old (Nat.succ.inj same)]
    simp

/-- Adding rows one after the other behind those that are there. -/
theorem applyAll_add : ∀ new front : StoredRows α,
    applyAll front ((new.zipIdx front.length).map fun entry => add entry.2 entry.1) = .ok (front ++ new)
  | [], front => by rw [List.append_nil]; rfl
  | row :: new, front => by
    have done : (add front.length row).apply front = .ok (front ++ [row]) := by simp [apply]
    have next : front.length + 1 = (front ++ [row]).length := by simp
    rw [List.zipIdx_cons, List.map_cons, applyAll_cons done, next, applyAll_add new (front ++ [row])]
    simp

theorem rowOf_eq (c : Content α) (row : Nat) : rowOf c row = c.toRows[row]?.getD [] := by
  rw [rowOf, Content.rowElements?, Content.elements?_eq, Content.toRows_eq]

/-- One call for each row of a table, in order. -/
theorem map_rowOf (c : Content α) (call : Nat → List (Option α) → StoreCall α) :
    ((List.range c.rowCount).map fun row => call row (rowOf c row)) =
      c.toRows.zipIdx.map fun entry => call entry.2 entry.1 := by
  refine List.ext_getElem (by simp [Content.length_toRows]) fun row inside inside' => ?_
  have here : row < c.toRows.length := by simpa using inside'
  simp [rowOf_eq, here]

theorem applyAll_updateAll {rows : StoredRows α} {c : Content α} (same : rows.length = c.toRows.length) :
    applyAll rows (updateAll c) = .ok c.toRows := by
  rw [updateAll, map_rowOf c fun row elements => update row elements]
  exact applyAll_update c.toRows [] rows same

theorem applyAll_addAll (c : Content α) :
    applyAll [] ((List.range c.rowCount).map fun row => add row (rowOf c row)) = .ok c.toRows := by
  rw [map_rowOf c fun row elements => add row elements]
  exact applyAll_add c.toRows []

/-! ### Calls for a notice -/

theorem length_rowIds (c : Content α) : c.layout.rowIds.length = c.toRows.length :=
  (Content.length_ids_layout c .row).trans (Content.length_toRows c).symm

/-- The calls for a notice turn the rows before it into the rows that it shows. -/
theorem applyAll_ofNotice {before : Content α} {n : Notice α}
    (describes : n.event.Describes before n.content) :
    applyAll before.toRows (ofNotice n) = .ok n.content.toRows := by
  obtain ⟨event, c⟩ := n
  cases event with
  | added axis position =>
    obtain ⟨inside, id, elements, -, width, layout⟩ := describes
    have rows : c.toRows = (before.layout.insert axis position id elements).rows :=
      congrArg Layout.rows layout
    cases axis with
    | row =>
      have inside : position ≤ before.toRows.length := length_rowIds before ▸ inside
      have new : rowOf c position = elements := by
        have at? : (before.toRows.insertIdx position elements)[position]? = some elements := by
          rw [List.getElem?_insertIdx_self, if_pos inside]
        rw [rowOf_eq, rows, Layout.insert, Content.layout, at?, Option.getD_some]
      exact applyAll_singleton (by rw [new, apply, if_pos inside, rows]; rfl)
    | column =>
      -- every row is sent anew, to the place where it is
      have width : elements.length = before.toRows.length := width.trans (length_rowIds before)
      refine applyAll_updateAll ?_
      rw [rows]
      simp [Layout.insert, Content.layout, width]
  | removed axis position stripe =>
    obtain ⟨at?, -, -, layout⟩ := describes
    have rows : c.toRows = (before.layout.erase axis position).rows := congrArg Layout.rows layout
    cases axis with
    | row =>
      have inside : position < before.toRows.length :=
        length_rowIds before ▸ (List.getElem?_eq_some_iff.mp at?).1
      exact applyAll_singleton (by rw [apply, if_pos inside, rows]; rfl)
    | column =>
      refine applyAll_updateAll ?_
      rw [rows]
      exact (List.length_map ..).symm
  | updatedCell row column previous =>
    obtain ⟨inside, -, -, element, -, layout⟩ := describes
    have inside : row < before.toRows.length := length_rowIds before ▸ inside
    have rows : c.toRows = before.toRows.modify row (·.set column element) := congrArg Layout.rows layout
    have new : rowOf c row = before.toRows[row].set column element := by
      rw [rowOf_eq, rows]
      simp [inside]
    refine applyAll_singleton ?_
    rw [new, apply, if_pos inside, rows, List.modify_eq_set_getElem?, List.getElem?_eq_getElem inside]
    rfl
  | cleared =>
    have rows : c.toRows = [] := congrArg Layout.rows describes
    rw [rows]
    exact applyAll_singleton rfl
  | reordered =>
    obtain ⟨axis, places, perm, -, layout⟩ := describes
    have rows : c.toRows = (before.layout.permute axis places).rows := congrArg Layout.rows layout
    refine applyAll_updateAll ?_
    rw [rows]
    cases axis with
    | row => exact (length_permuted (by rwa [← length_rowIds])).symm
    | column => exact (List.length_map ..).symm
  | transposed => exact (applyAll_cons rfl _).trans (applyAll_addAll c)

end StoreCall

/-! ### Stores -/

namespace Store

/-- The rows that a store keeps; a journal keeps none. -/
def rows : Store α → StoredRows α
  | memory rows => rows
  | file s => s.rows
  | journal _ => []

/-- A store in memory, or a store with a file to which every save succeeds. -/
def Reliable : Store α → Prop
  | memory _ => True
  | file s => ∀ name ∈ s.file, ∀ (disk : Disk) (bytes : List UInt8), (disk.write? name bytes).isSome
  | journal _ => False

/-- A reliable store with the given rows. -/
structure Keeps (s : Store α) (rows : StoredRows α) : Prop where
  reliable : s.Reliable
  rows : s.rows = rows

variable [JsonForm α] [BinaryForm α] {s : Store α} {stored rows : StoredRows α}

/-- A store that is told something stays reliable, whether or not it does it. -/
theorem Reliable.tell (h : s.Reliable) (call : StoreCall α) (disk : Disk) :
    (s.tell disk call).2.1.Reliable := by
  cases s with
  | memory stored =>
    rw [Store.tell]
    split <;> exact h
  | file s =>
    have same : (s.tell disk call).2.1.file = s.file := (FileStore.follow_keeps ..).1
    exact fun name here => h name (same ▸ here)
  | journal => exact h.elim

omit [JsonForm α] [BinaryForm α] in
/-- Asking a reliable store for its rows gives them in order and leaves it as it is. -/
theorem Reliable.load (h : s.Reliable) :
    s.load = (.ok (s.rows.zipIdx.map fun (row, position) => (some position, row)), s) := by
  cases s with
  | memory => rfl
  | file => rfl
  | journal => exact h.elim

/-- A reliable store does what its rows allow. -/
theorem Keeps.tell (h : s.Keeps stored) {call : StoreCall α} (done : call.apply stored = .ok rows)
    (disk : Disk) : (s.tell disk call).1 = none ∧ (s.tell disk call).2.1.Keeps rows := by
  obtain ⟨reliable, rfl⟩ := h
  cases s with
  | memory stored =>
    have done : MemoryStore.tell stored call = .ok rows := (call.tell_eq_apply stored).trans done
    simp only [Store.tell, done]
    exact ⟨trivial, trivial, rfl⟩
  | file s =>
    have done : FileStore.change call s.rows = .ok rows := (call.change_eq_apply s.rows).trans done
    cases file : s.file with
    | none =>
      simp only [Store.tell, FileStore.tell, FileStore.follow_unfiled done file]
      exact ⟨trivial, reliable, rfl⟩
    | some name =>
      have written := reliable name file disk (s.form.encode rows)
      simp only [Store.tell, FileStore.tell, FileStore.follow_filed done file, Disk.save_saver]
      rw [if_pos written]
      exact ⟨rfl, reliable, rfl⟩
  | journal => exact reliable.elim

theorem Keeps.tellAll (h : s.Keeps stored) {calls : List (StoreCall α)}
    (done : StoreCall.applyAll stored calls = .ok rows) (disk : Disk) :
    (s.tellAll disk calls).1 = none ∧ (s.tellAll disk calls).2.1.Keeps rows := by
  induction calls generalizing s stored disk with
  | nil =>
    obtain rfl : stored = rows := by injection done
    exact ⟨rfl, h⟩
  | cons call rest ih =>
    cases first : call.apply stored with
    | error fault =>
      rw [StoreCall.applyAll, List.foldlM_cons, first] at done
      cases done
    | ok next =>
      rw [StoreCall.applyAll_cons first] at done
      obtain ⟨quiet, kept⟩ := h.tell first disk
      rw [Store.tellAll]
      generalize s.tell disk call = answer at quiet kept
      obtain ⟨fault, s', disk'⟩ := answer
      obtain rfl : fault = none := quiet
      exact ih kept done disk'

/-- A reliable store with the rows of a table takes each notice without a fault, and then has the rows
    that it shows. -/
theorem Keeps.observe {before : Content α} (h : s.Keeps before.toRows) {n : Notice α}
    (describes : n.event.Describes before n.content) (disk : Disk) :
    (s.observe disk n).1 = none ∧ (s.observe disk n).2.1.Keeps n.content.toRows :=
  h.tellAll (StoreCall.applyAll_ofNotice describes) disk

end Store

end LiveTable
