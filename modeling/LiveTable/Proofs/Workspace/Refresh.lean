import LiveTable.Proofs.Workspace.Isolation

/-! How far a store is refreshed.  When a column comes or goes, or stripes change their order, a store is
    told to update every row, one row after the other.  It gives up at the first row that it refuses: up
    to there it has been told every row once, and of the rows behind nothing, until something else brings
    them up to date.  The refusal is reported, once, to the collector of the table. -/

namespace LiveTable

variable {α κ : Type}

/-- The changes after which a store is told to update every row. -/
def Event.Refreshes : Event α → Prop
  | .added .column _ => True
  | .removed .column _ _ => True
  | .reordered => True
  | _ => False

/-- The call that brings a row up to date. -/
def StoreCall.ofRow (c : Content α) (row : Nat) : StoreCall α := .update row (rowOf c row)

theorem StoreCall.ofNotice_of_refreshes {n : Notice α} (refreshes : n.event.Refreshes) :
    ofNotice n = (List.range n.content.rowCount).map (ofRow n.content) := by
  obtain ⟨event, c⟩ := n
  cases event with
  | added axis position =>
    cases axis with
    | row => cases refreshes
    | column => rfl
  | removed axis position stripe =>
    cases axis with
    | row => cases refreshes
    | column => rfl
  | reordered => rfl
  | _ => cases refreshes

namespace Store

variable [JsonForm α] [BinaryForm α] {s : Store α} {c : Content α}

/-- A store after calls, told one after the other whatever it answers. -/
def called (s : Store α) (calls : List (StoreCall α)) : Store α :=
  calls.foldl (fun s call => (s.tell [] call).2.1) s

/-- The answer to the update of a row by a store that has been told to update the rows above it. -/
def answerTo (s : Store α) (c : Content α) (row : Nat) : Option StoreFault :=
  ((s.called ((List.range row).map (.ofRow c))).tell [] (.ofRow c row)).1

/-- What the updates of all rows make of a store, and its refusal if it refuses one.  It is told every
    row, or every row up to the first that it refuses. -/
inductive Refresh (s : Store α) (c : Content α) : Option StoreFault → Store α → Prop where
  | whole (accepted : ∀ row < c.rowCount, s.answerTo c row = none) :
      Refresh s c none (s.called ((List.range c.rowCount).map (.ofRow c)))
  | stopped {row : Nat} {fault : StoreFault} (inside : row < c.rowCount)
      (accepted : ∀ above < row, s.answerTo c above = none) (refused : s.answerTo c row = some fault) :
      Refresh s c (some fault) (s.called ((List.range (row + 1)).map (.ofRow c)))

/-- Every row has been told if no row but the last is refused. -/
theorem Refresh.called_all {fault : Option StoreFault} {s' : Store α} (refresh : s.Refresh c fault s')
    (accepts : ∀ row, row + 1 < c.rowCount → s.answerTo c row = none) :
    s' = s.called ((List.range c.rowCount).map (.ofRow c)) := by
  cases refresh with
  | whole => rfl
  | @stopped row fault inside _ refused =>
    have last : row + 1 = c.rowCount := by
      by_contra before
      rw [accepts row (by omega)] at refused
      cases refused
    rw [last]

theorem called_concat (s : Store α) (calls : List (StoreCall α)) (call : StoreCall α) :
    s.called (calls ++ [call]) = ((s.called calls).tell [] call).2.1 := List.foldl_concat ..

/-- What a journal has written down since it was last looked at. -/
def written : Store α → List (Option (StoreCall α))
  | journal j => j.calls
  | _ => []

/-- A store answers alike whatever is on the disk. -/
theorem tell_eq (s : Store α) (disk : Disk) (call : StoreCall α) :
    ∃ disk', s.tell disk call = ((s.tell [] call).1, (s.tell [] call).2.1, disk') := by
  obtain ⟨fault, s', told⟩ := s.tell_spec call
  obtain ⟨blank, alone⟩ := told []
  obtain ⟨disk', same⟩ := told disk
  exact ⟨disk', by rw [same, alone]⟩

/-- The updates of the rows that are left, when those above have been accepted. -/
theorem refresh_tellAll (n start : Nat) (total : start + n = c.rowCount)
    (accepted : ∀ row < start, s.answerTo c row = none) (disk : Disk) :
    ∃ fault s' disk', s.Refresh c fault s' ∧
      (s.called ((List.range start).map (.ofRow c))).tellAll disk ((List.range' start n).map (.ofRow c)) =
        (fault, s', disk') := by
  induction n generalizing start disk with
  | zero =>
    obtain rfl : start = c.rowCount := total
    exact ⟨none, _, disk, .whole accepted, rfl⟩
  | succ n ih =>
    obtain ⟨disk', told⟩ := (s.called ((List.range start).map (.ofRow c))).tell_eq disk (.ofRow c start)
    have next : s.called ((List.range (start + 1)).map (.ofRow c)) =
        ((s.called ((List.range start).map (.ofRow c))).tell [] (.ofRow c start)).2.1 := by
      rw [List.range_succ, List.map_append]
      exact called_concat ..
    rw [List.range'_succ, List.map_cons, tellAll, told, ← next]
    cases answer : s.answerTo c start with
    | some fault =>
      rw [show ((s.called ((List.range start).map (.ofRow c))).tell [] (.ofRow c start)).1 =
        some fault from answer]
      exact ⟨some fault, _, disk', .stopped (by omega) accepted answer, rfl⟩
    | none =>
      rw [show ((s.called ((List.range start).map (.ofRow c))).tell [] (.ofRow c start)).1 = none from answer]
      refine ih (start + 1) (by omega) (fun row below => ?_) disk'
      rcases Nat.lt_succ_iff_lt_or_eq.mp below with above | rfl
      · exact accepted row above
      · exact answer

theorem refresh_follow (s : Store α) {n : Notice α} (refreshes : n.event.Refreshes) :
    s.Refresh n.content (s.verdict n) (s.follow n) := by
  obtain ⟨fault, s', disk', refresh, told⟩ := refresh_tellAll (s := s) (c := n.content) n.content.rowCount 0
    (Nat.zero_add _) (fun row below => absurd below (Nat.not_lt_zero row)) []
  have observed : s.observe [] n = (fault, s', disk') := by
    rw [observe, StoreCall.ofNotice_of_refreshes refreshes, List.range_eq_range']
    exact told
  rw [verdict, follow, observed]
  exact refresh

end Store

namespace Workspace

variable [JsonForm α] [BinaryForm α] {ws : Workspace α κ} {t : TableId} {s : StoreId} {n : Notice α}
  {told : List (Notice α)} {earlier later : List (Recipient × Notice α)}

/-- Further deliveries give one more fault each at most. -/
theorem exists_faults_append (ws : Workspace α κ) (ds more : List (Recipient × Notice α)) :
    ∃ rest, rest.length ≤ more.length ∧ ws.faults (ds ++ more) = ws.faults ds ++ rest := by
  induction more using List.reverseRecOn with
  | nil => exact ⟨[], Nat.le_refl 0, by simp⟩
  | append_singleton more d ih =>
    obtain ⟨rest, length, faults⟩ := ih
    refine ⟨rest ++ (ws.answer (ds ++ more) d).toList, ?_, ?_⟩
    · have one : (ws.answer (ds ++ more) d).toList.length ≤ 1 := by
        cases ws.answer (ds ++ more) d <;> simp
      rw [List.length_append, List.length_append]
      exact Nat.add_le_add length one
    · rw [← List.append_assoc, faults_concat, faults, List.append_assoc]

theorem storeAfter_append (ws : Workspace α κ) (ds more : List (Recipient × Notice α)) (s : StoreId) :
    ws.storeAfter (ds ++ more) s = (heard (.store s) more).foldl Store.follow (ws.storeAfter ds s) := by
  rw [storeAfter, heard, List.filter_append, List.map_append, List.foldl_append]
  rfl

variable [Element α] [Ord κ]

/-- Of a change that refreshes it, a store of a table is told by the updates of all rows in their order,
    each once, if it refuses none but the last; else of those up to the first that it refuses, and of no
    other.  This holds for every delivery of such a change among whatever changes of the table.  The
    collector of the table receives the refusal, if there is one, between the faults of the deliveries
    before and those of the deliveries after this one. -/
theorem publish_refreshes (wired : ws.Wired t)
    (delivered : ws.deliveries t told = earlier ++ (.store s, n) :: later)
    (refreshes : n.event.Refreshes) :
    let ws' := told.foldl (publish t) ws
    let before := ws.storeAfter earlier s
    let after := ws.storeAfter (earlier ++ [(.store s, n)]) s
    ∃ fault, before.Refresh n.content fault after ∧
      ((∀ row, row + 1 < n.content.rowCount → before.answerTo n.content row = none) →
        after = before.called ((List.range n.content.rowCount).map (.ofRow n.content))) ∧
      ws'.store s = (heard (.store s) later).foldl Store.follow after ∧
      ∀ k, ws.hasCollector k → (ws.table t).policy = .collect k → ∃ rest, rest.length ≤ later.length ∧
        ws'.messages k = ws.messages k ++
          (ws.faults earlier ++ (fault.map ObserverFault.store).toList ++ rest).map
            ObserverFault.message := by
  intro ws' before after
  have followed : after = before.follow n := by
    show ws.storeAfter _ s = _
    rw [storeAfter_concat, if_pos rfl]
  have refresh : before.Refresh n.content (before.verdict n) after :=
    followed ▸ before.refresh_follow refreshes
  have split : ws.deliveries t told = earlier ++ [(.store s, n)] ++ later := by simpa using delivered
  have served : ws.Served t (ws.deliveries t told) ws' :=
    (Told.publish_all wired (.refl wired) told).served
  have there : ws.has (.store s) := by
    have mem : (Recipient.store s, n) ∈ ws.deliveries t told := by simp [delivered]
    obtain ⟨m, -, mem⟩ := List.mem_flatMap.mp mem
    obtain ⟨r, recipient, same⟩ := List.mem_map.mp mem
    cases same
    exact wired.recipients _ recipient
  refine ⟨before.verdict n, refresh, refresh.called_all, ?_, fun k collects policy => ?_⟩
  · rw [served.store s there, split, storeAfter_append]
  · obtain ⟨rest, length, faults⟩ := exists_faults_append ws (earlier ++ [(.store s, n)]) later
    refine ⟨rest, length, ?_⟩
    rw [served.messages k collects, reported, if_pos policy, split, faults, faults_concat]
    rfl

/-- A table of two rows with a journal that refuses updates, and a collector. -/
def reluctant : Workspace String RowKey :=
  run [.make (.rows [[some "a"], [some "b"]]) [] "table",
    .addStore (.journal (.refusing [] ["update"])) "journal",
    .on ⟨0⟩ (.attachStore ⟨0⟩), .on ⟨0⟩ (.addCollector "faults")]

/-- The journal refuses the first row of a table that got a second column. -/
theorem publish_refreshes_reluctant :
    let n : Notice String := ⟨.added .column 1, .ofRows [[some "a", some "x"], [some "b", some "y"]]⟩
    reluctant.Wired ⟨0⟩ ∧ (reluctant.store ⟨0⟩).answerTo n.content 0 = some (.rowOutOfRange 0 99) ∧
      ∃ fault, (reluctant.store ⟨0⟩).Refresh n.content fault ((publish ⟨0⟩ reluctant n).store ⟨0⟩) := by
  intro n
  have wired : reluctant.Wired ⟨0⟩ := wired_run _ (by decide +kernel) (by decide +kernel)
  have recipients : reluctant.recipients ⟨0⟩ = [.store ⟨0⟩] := by decide +kernel
  have delivered : reluctant.deliveries ⟨0⟩ [n] = [] ++ (.store ⟨0⟩, n) :: [] := by
    rw [deliveries, List.flatMap_singleton, recipients]
    rfl
  obtain ⟨fault, refresh, -, final, -⟩ := publish_refreshes wired delivered trivial
  exact ⟨wired, by decide +kernel, fault, final.symm ▸ refresh⟩

/-- When a column is added, the journal is told of the first row and never of the second, and one refusal is
    reported. -/
theorem refresh_stops_reluctant :
    let extended := reluctant.act (.on ⟨0⟩ (.perform (.addElements .column [some "x", some "y"])))
    (extended.content ⟨0⟩).toRows = [[some "a", some "x"], [some "b", some "y"]] ∧
      (extended.store ⟨0⟩).written = (reluctant.store ⟨0⟩).written ++
        [some (.update 0 [some "a", some "x"])] ∧
      extended.messages ⟨0⟩ = ["Persistence error: Row index 0 out of range (store holds 99 rows)"] := by
  decide +kernel

end Workspace

end LiveTable
