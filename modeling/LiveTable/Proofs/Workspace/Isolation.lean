import LiveTable.Proofs.Workspace.Delivery
import LiveTable.Proofs.Workspace.Sound

/-! Observers are isolated from the table and from each other.  The content of a table and the results of
    operations on it are the same with observers as without, and so are the changes that there are to be
    told of.  Each observer gets all of them, whatever the others answer: an index until its column is
    removed, a store or a handler as long as it is attached.  Every answer that is a fault is reported
    once, change by change in the order of delivery. -/

namespace LiveTable

variable {α κ : Type}

/-! ### What an index is told of -/

namespace Index

/-- Whether a change takes the column away that an index is of. -/
def ends (x : Index α κ) (n : Notice α) : Bool :=
  match n.event with
  | .removed .column _ stripe => x.watches stripe.id
  | _ => false

/-- The changes that an index is told of: all of them up to the one that takes its column away. -/
def hears (x : Index α κ) : List (Notice α) → List (Notice α)
  | [] => []
  | n :: rest => n :: if x.ends n then [] else x.hears rest

/-- An index after changes of its table. -/
def after [Ord α] [Ord κ] (x : Index α κ) (told : List (Notice α)) : Index α κ :=
  (x.hears told).foldl (fun x n => x.observe n) x

theorem hears_concat (x : Index α κ) (told : List (Notice α)) (n : Notice α) :
    x.hears (told ++ [n]) = if told.any x.ends then x.hears told else x.hears told ++ [n] := by
  induction told with
  | nil => simp [hears]
  | cons m rest ih =>
    rw [List.cons_append, hears, hears, ih, List.any_cons]
    by_cases ended : x.ends m
    · simp [ended]
    · by_cases later : rest.any x.ends <;> simp [ended, later]

variable [Ord α] [Ord κ]

theorem after_concat (x : Index α κ) (told : List (Notice α)) (n : Notice α) :
    x.after (told ++ [n]) = if told.any x.ends then x.after told else (x.after told).observe n := by
  rw [after, hears_concat, after]
  split
  · rfl
  · rw [List.foldl_append]
    rfl

/-- An index is of the same column whatever it is told. -/
theorem watches_observe (x : Index α κ) (n : Notice α) (id : StripeId) :
    (x.observe n).watches id = x.watches id := by
  cases x with
  | column t x => rw [observe, watches, ColumnIndex.column_observe, watches]
  | keyed => rfl

theorem watches_after (x : Index α κ) (told : List (Notice α)) (id : StripeId) :
    (x.after told).watches id = x.watches id := by
  rw [after]
  generalize x.hears told = heard
  induction heard generalizing x with
  | nil => rfl
  | cons n rest ih => exact (ih (x.observe n)).trans (x.watches_observe n id)

end Index

/-- The changes that operations make, one after the other, to a table with this content. -/
def Content.changes [Element α] (c : Content α) : List (Operation α) → List (Notice α)
  | [] => []
  | operation :: rest => operation.told c ++ (operation.leaves c).changes rest

namespace Workspace

variable [Element α] [Ord κ] {ws ws' : Workspace α κ} {t : TableId} {told : List (Notice α)} {n : Notice α}

/-- A workspace in which the indexes of a table have been told of these changes. -/
structure Followed (ws : Workspace α κ) (t : TableId) (told : List (Notice α)) (ws' : Workspace α κ) :
    Prop where
  hasTable : ws'.hasTable t
  names : ws'.names = ws.names
  distinct : (ws'.table t).indexes.Nodup
  listed : ∀ i, ws.holdsIndex i → (i ∈ (ws'.table t).indexes ↔
    i ∈ (ws.table t).indexes ∧ ¬(ws.index? i).any fun x => told.any x.ends)
  index? : ∀ i, ws'.index? i =
    if i ∈ (ws.table t).indexes ∧ ws.holdsIndex i then (ws.index? i).map (·.after told) else ws.index? i

variable [JsonForm α] [BinaryForm α]

omit [JsonForm α] [BinaryForm α] in
/-- Telling indexes changes nothing but indexes. -/
theorem exists_foldl_tellIndex (n : Notice α) : ∀ (l : List IndexId) (ws : Workspace α κ),
    ∃ indexes, l.foldl (tellIndex n) ws = { ws with indexes := indexes }
  | [], ws => ⟨ws.indexes, rfl⟩
  | i :: rest, ws => by
    rw [List.foldl_cons, tellIndex]
    split
    · exact exists_foldl_tellIndex n rest (ws.modifyIndex i (Index.observe n))
    · exact exists_foldl_tellIndex n rest ws

omit [Element α] [JsonForm α] [BinaryForm α] [Ord κ] in
/-- What every one of several steps keeps, all of them keep. -/
theorem foldl_keeps {β γ : Type} (part : Workspace α κ → γ) {step : Workspace α κ → β → Workspace α κ}
    (keeps : ∀ ws b, part (step ws b) = part ws) :
    ∀ (l : List β) (ws : Workspace α κ), part (l.foldl step ws) = part ws
  | [], _ => rfl
  | b :: rest, ws => (foldl_keeps part keeps rest (step ws b)).trans (keeps ws b)

omit [Element α] [JsonForm α] [BinaryForm α] [Ord κ] in
theorem reportAny_keeps (ws : Workspace α κ) (t : TableId) (fault : Option ObserverFault) :
    ((ws.reportAny t fault).tables, (ws.reportAny t fault).names) = (ws.tables, ws.names) := by
  obtain ⟨_, same, -⟩ := reportAny_eq ws t fault
  rw [same]

omit [Element α] [Ord κ] in
theorem tellStore_keeps (t : TableId) (n : Notice α) (ws : Workspace α κ) (s : StoreId) :
    ((tellStore t n ws s).tables, (tellStore t n ws s).names) = (ws.tables, ws.names) :=
  reportAny_keeps _ t _

omit [Element α] [JsonForm α] [BinaryForm α] [Ord κ] in
theorem tellHandler_keeps (t : TableId) (n : Notice α) (ws : Workspace α κ) (h : HandlerId) :
    ((tellHandler t n ws h).tables, (tellHandler t n ws h).names) = (ws.tables, ws.names) :=
  reportAny_keeps _ t _

/-- Observers are told of a change one after the other, and then the index of a column that was removed
    is let go. -/
theorem publish_parts (t : TableId) (ws : Workspace α κ) (n : Notice α) :
    ∃ served, served.tables = ws.tables ∧ served.names = ws.names ∧
      (∀ i, served.index? i = ((ws.table t).indexes.foldl (tellIndex n) ws).index? i) ∧
      Workspace.publish t ws n =
        match n.event with
        | .removed .column _ stripe => served.dropIndexes t stripe.id
        | _ => served := by
  let first := (ws.table t).indexes.foldl (tellIndex n) ws
  let second := (first.table t).stores.foldl (tellStore t n) first
  let third := (second.table t).handlers.foldl (tellHandler t n) second
  obtain ⟨names, tables⟩ := foldl_tellIndex_same n (ws.table t).indexes ws
  have kept : (third.tables, third.names) = (first.tables, first.names) :=
    (foldl_keeps (fun ws => (ws.tables, ws.names)) (tellHandler_keeps t n) _ second).trans
      (foldl_keeps (fun ws => (ws.tables, ws.names)) (tellStore_keeps t n) _ first)
  obtain ⟨kept_tables, kept_names⟩ := Prod.mk.inj kept
  have others : first.Undisturbed third :=
    (Undisturbed.foldl (undisturbed_tellStore t n) _ _).trans (.foldl (undisturbed_tellHandler t n) _ _)
  exact ⟨third, kept_tables.trans tables, kept_names.trans names, others.index?, rfl⟩

omit [JsonForm α] [BinaryForm α] in
theorem Followed.refl (there : ws.hasTable t) (distinct : (ws.table t).indexes.Nodup) :
    ws.Followed t [] ws where
  hasTable := there
  names := rfl
  distinct := distinct
  listed i _ := by cases ws.index? i <;> simp
  index? i := by
    have same (x : Index α κ) : x.after [] = x := rfl
    cases ws.index? i <;> simp [same]

omit [JsonForm α] [BinaryForm α] in
/-- What has become of an index when it has been told of one more change, before any is let go. -/
theorem Followed.index?_tellIndexes (h : ws.Followed t told ws') (n : Notice α) (i : IndexId) :
    ((ws'.table t).indexes.foldl (tellIndex n) ws').index? i =
      if i ∈ (ws.table t).indexes ∧ ws.holdsIndex i then (ws.index? i).map (·.after (told ++ [n]))
        else ws.index? i := by
  have held : ws'.holdsIndex i = ws.holdsIndex i := by rw [holdsIndex, h.names, holdsIndex]
  rw [index?_foldl_tellIndex n i _ ws' h.distinct, held, h.index?]
  by_cases told_of : i ∈ (ws.table t).indexes ∧ ws.holdsIndex i
  · rw [if_pos told_of, if_pos told_of]
    cases found : ws.index? i with
    | none => simp
    | some x =>
      have listed : i ∈ (ws'.table t).indexes ↔ ¬told.any x.ends := by
        simp [h.listed i told_of.2, told_of.1, found]
      simp only [listed, told_of.2, and_true, Option.map_some, x.after_concat]
      by_cases ended : told.any x.ends <;> simp [ended]
  · have unlisted : ¬(i ∈ (ws'.table t).indexes ∧ ws.holdsIndex i) := fun both =>
      told_of ⟨((h.listed i both.2).mp both.1).1, both.2⟩
    rw [if_neg told_of, if_neg told_of, if_neg unlisted]

/-- A table whose indexes are told of a change. -/
theorem Followed.publish (h : ws.Followed t told ws') (n : Notice α) :
    ws.Followed t (told ++ [n]) (Workspace.publish t ws' n) := by
  obtain ⟨served, tables, names, index?, published⟩ := publish_parts t ws' n
  have after (i : IndexId) : served.index? i = if i ∈ (ws.table t).indexes ∧ ws.holdsIndex i
      then (ws.index? i).map (·.after (told ++ [n])) else ws.index? i :=
    (index? i).trans (h.index?_tellIndexes n i)
  have table : served.table t = ws'.table t := by rw [Workspace.table, tables, Workspace.table]
  have there : served.hasTable t := by
    rw [Workspace.hasTable, tables]
    exact h.hasTable
  have distinct : (served.table t).indexes.Nodup := table ▸ h.distinct
  have listed_before (i : IndexId) (holds : ws.holdsIndex i) : i ∈ (served.table t).indexes ↔
      i ∈ (ws.table t).indexes ∧ ¬(ws.index? i).any fun x => told.any x.ends := by
    rw [table]
    exact h.listed i holds
  rw [published]
  have kept (lasts : ∀ x : Index α κ, x.ends n = false) : ws.Followed t (told ++ [n]) served := by
    refine ⟨there, names.trans h.names, distinct, fun i holds => ?_, after⟩
    rw [listed_before i holds]
    simp [lasts]
  have dropped {position : Nat} {stripe : Removed α} (event : n.event = .removed .column position stripe) :
      ws.Followed t (told ++ [n]) (served.dropIndexes t stripe.id) := by
    have held (i : IndexId) : served.holdsIndex i = ws.holdsIndex i := by
      rw [holdsIndex, names, h.names, holdsIndex]
    have ends (x : Index α κ) : x.ends n = x.watches stripe.id := by rw [Index.ends, event]
    have indexes :
        ((served.dropIndexes t stripe.id).table t).indexes = (served.table t).indexes.filter fun i =>
        served.holdsIndex i && !(served.index? i).any (·.watches stripe.id) := by
      rw [dropIndexes, table_modifyTable there, if_pos rfl]
    refine ⟨(hasTable_modifyTable _).trans there, names.trans h.names, ?_, fun i holds => ?_, after⟩
    · rw [indexes]
      exact distinct.filter _
    · rw [indexes, List.mem_filter, listed_before i holds, after i, held i]
      by_cases listed : i ∈ (ws.table t).indexes
      · cases ws.index? i with
        | none => simp [listed, holds]
        | some x => simp [listed, holds, ends, x.watches_after]
      · simp [listed]
  cases event : n.event with
  | removed axis position stripe =>
    cases axis with
    | row => exact kept fun x => by rw [Index.ends, event]
    | column => exact dropped event
  | _ => exact kept fun x => by rw [Index.ends, event]

theorem Followed.publish_all (h : ws.Followed t told ws') (more : List (Notice α)) :
    ws.Followed t (told ++ more) (more.foldl (Workspace.publish t) ws') := by
  induction more generalizing told ws' with
  | nil => simpa using h
  | cons n rest ih => simpa using ih (h.publish n)

omit [JsonForm α] [BinaryForm α] in
/-- The indexes do not see the content that a table is left with. -/
theorem Followed.leave (h : ws.Followed t told ws') (c : Content α) :
    ws.Followed t told (ws'.modifyTable t fun table => { table with content := c }) := by
  refine ⟨(hasTable_modifyTable _).trans h.hasTable, h.names, ?_, fun i holds => ?_, h.index?⟩
  · rw [table_modifyTable h.hasTable, if_pos rfl]
    exact h.distinct
  · rw [table_modifyTable h.hasTable, if_pos rfl]
    exact h.listed i holds

/-- A table whose recipients, too, are told of a change. -/
theorem Served.publish {ds : List (Recipient × Notice α)} (h : ws.Served t ds ws')
    (wired : ∀ r ∈ ws.recipients t, ws.has r) (n : Notice α) :
    ws.Served t (ds ++ (ws.recipients t).map fun r => (r, n)) (Workspace.publish t ws' n) := by
  have followed : ws.Served t ds ((ws'.table t).indexes.foldl (tellIndex n) ws') := by
    obtain ⟨indexes, same⟩ := exists_foldl_tellIndex n (ws'.table t).indexes ws'
    rw [same]
    exact h.of_same rfl rfl rfl rfl rfl rfl
  have told := followed.tellRecipients wired n
  rw [Workspace.publish]
  split
  · exact told.modifyTable (fun _ => rfl) (fun _ => rfl) (fun _ => rfl)
  · exact told

/-! ### Operations -/

/-- Where every delivery can arrive: the table and its stores and handlers are there, and no index is
    listed twice. -/
structure Wired (ws : Workspace α κ) (t : TableId) : Prop where
  there : ws.hasTable t
  recipients : ∀ r ∈ ws.recipients t, ws.has r
  distinct : (ws.table t).indexes.Nodup

theorem Served.publish_all (wired : ws.Wired t) (h : ws.Served t (ws.deliveries t told) ws')
    (more : List (Notice α)) :
    ws.Served t (ws.deliveries t (told ++ more)) (more.foldl (Workspace.publish t) ws') := by
  induction more generalizing told ws' with
  | nil => simpa using h
  | cons n rest ih =>
    have next : ws.Served t (ws.deliveries t (told ++ [n])) (Workspace.publish t ws' n) := by
      rw [deliveries_concat]
      exact h.publish wired.recipients n
    simpa using ih next

/-- A workspace in which all observers of a table have been told of these changes. -/
structure Told (ws : Workspace α κ) (t : TableId) (told : List (Notice α)) (ws' : Workspace α κ) : Prop where
  followed : ws.Followed t told ws'
  served : ws.Served t (ws.deliveries t told) ws'

namespace Told

theorem refl (wired : ws.Wired t) : ws.Told t [] ws := ⟨.refl wired.there wired.distinct, .refl ws t⟩

theorem publish_all (wired : ws.Wired t) (h : ws.Told t told ws') (more : List (Notice α)) :
    ws.Told t (told ++ more) (more.foldl (Workspace.publish t) ws') :=
  ⟨h.followed.publish_all more, h.served.publish_all wired more⟩

/-- The observers do not see the content that a table is left with. -/
theorem leave (h : ws.Told t told ws') (c : Content α) :
    ws.Told t told (ws'.modifyTable t fun table => { table with content := c }) :=
  ⟨h.followed.leave c, h.served.modifyTable (fun _ => rfl) (fun _ => rfl) (fun _ => rfl)⟩

/-- After an operation the observers have been told of its changes as well. -/
theorem perform (wired : ws.Wired t) (h : ws.Told t told ws') (operation : Operation α) :
    ws.Told t (told ++ operation.told (ws'.content t)) (ws'.perform t operation).2 := by
  rw [perform_eq]
  exact (h.publish_all wired _).leave _

end Told

/-! ### Runs -/

/-- Performs operations on a table one after the other, and gives what each of them gives back. -/
def performAll (ws : Workspace α κ) (t : TableId) : List (Operation α) → List (Outcome α) × Workspace α κ
  | [] => ([], ws)
  | operation :: rest =>
    let (outcome, ws) := ws.perform t operation
    let (outcomes, ws) := ws.performAll t rest
    (outcome :: outcomes, ws)

/-- After operations the observers have been told of all their changes. -/
theorem Told.performAll (wired : ws.Wired t) (operations : List (Operation α)) (h : ws.Told t told ws') :
    ws.Told t (told ++ (ws'.content t).changes operations) (ws'.performAll t operations).2 := by
  induction operations generalizing told ws' with
  | nil =>
    rw [Content.changes, List.append_nil]
    exact h
  | cons operation rest ih =>
    have later := ih (h.perform wired operation)
    rw [content_perform_eq h.followed.hasTable, List.append_assoc] at later
    exact later

/-- Outcomes and contents are the same for all tables of the same content. -/
theorem performAll_congr {other : Workspace α κ} {u : TableId} (operations : List (Operation α))
    (there : ws.hasTable t) (there' : other.hasTable u) (same : ws.content t = other.content u) :
    (ws.performAll t operations).1 = (other.performAll u operations).1 ∧
      (ws.performAll t operations).2.content t = (other.performAll u operations).2.content u := by
  induction operations generalizing ws other with
  | nil => exact ⟨rfl, same⟩
  | cons operation rest ih =>
    have contents : (ws.perform t operation).2.content t = (other.perform u operation).2.content u := by
      rw [content_perform_eq there, content_perform_eq there', same]
    have outcomes : (ws.perform t operation).1 = (other.perform u operation).1 := by
      rw [perform_eq, perform_eq, same]
    obtain ⟨later, final⟩ :=
      ih (hasTable_perform there operation) (hasTable_perform there' operation) contents
    exact ⟨congrArg₂ List.cons outcomes later, final⟩

/-- What has become of the observers of a table that made these changes.  Each is where the changes that
    were delivered to it bring it, told one after the other and by themselves; the collector of the table
    has received the faults of the deliveries, one for each delivery that was answered with a fault, in
    their order. -/
structure Informed (ws : Workspace α κ) (t : TableId) (changes : List (Notice α)) (ws' : Workspace α κ) :
    Prop where
  index? : ∀ i, ws'.index? i =
    if i ∈ (ws.table t).indexes ∧ ws.holdsIndex i then (ws.index? i).map (·.after changes) else ws.index? i
  store : ∀ s, ws.hasStore s → ws'.store s = ws.storeAfter (ws.deliveries t changes) s
  handler : ∀ h, ws.hasHandler h → ws'.handler h = ws.handlerAfter (ws.deliveries t changes) h
  messages : ∀ k, ws.hasCollector k →
    ws'.messages k = ws.messages k ++ ws.reported t k (ws.deliveries t changes)

/-- A table that is observed goes through the same contents, and its operations give the same results, as
    one that is not, and its observers are informed of the changes, which are a matter of the content and
    the operations alone. -/
theorem performAll_isolated (wired : ws.Wired t) (operations : List (Operation α)) :
    let unobserved : Workspace α κ := { tables := [{ content := ws.content t }] }
    (ws.performAll t operations).1 = (unobserved.performAll ⟨0⟩ operations).1 ∧
      (ws.performAll t operations).2.content t = (unobserved.performAll ⟨0⟩ operations).2.content ⟨0⟩ ∧
      ws.Informed t ((ws.content t).changes operations) (ws.performAll t operations).2 := by
  intro unobserved
  have same : ws.content t = unobserved.content ⟨0⟩ := rfl
  obtain ⟨outcomes, contents⟩ := performAll_congr operations wired.there rfl same
  obtain ⟨followed, served⟩ := Told.performAll wired operations (.refl wired)
  exact ⟨outcomes, contents, followed.index?, served.store, served.handler, served.messages⟩

/-- After every run a table is wired if its stores and handlers are there. -/
theorem wired_run [Std.LawfulEqOrd α] [Std.TransOrd α] [Std.LawfulEqOrd κ] [Std.TransOrd κ]
    (actions : List (Action α κ)) (there : (run actions).hasTable t)
    (recipients : ∀ r ∈ (run actions).recipients t, (run actions).has r) : (run actions).Wired t :=
  ⟨there, recipients, (upToDate_run actions).distinct t⟩

/-- A table with a journal that refuses updates, a store that was emptied behind its back, and a handler
    that fails on updates. -/
def failingObservers : Workspace String RowKey :=
  run [.make (.rows [[some "a"]]) [] "table", .addStore (.journal (.refusing [] ["update"])) "journal",
    .addStore (.memory []) "emptied", .addHandler
      (.recorder (.refusing "watcher" ["updated_cell"])) "watcher",
    .on ⟨0⟩ (.attachStore ⟨0⟩), .on ⟨0⟩ (.attachStore ⟨1⟩), .on ⟨0⟩ (.attachHandler ⟨0⟩),
    .on ⟨0⟩ (.addCollector "faults"), .tell ⟨1⟩ .removeAll]

/-- All three fail on an update, and only the store that was emptied fails on a new row. -/
theorem performAll_isolated_failing :
    failingObservers.Wired ⟨0⟩ ∧
    (failingObservers.performAll ⟨0⟩ [.setElement 0 0 (some "b"),
      .addElements .row [some "c"]]).2.messages ⟨0⟩ =
      ["Persistence error: Row index 0 out of range (store holds 99 rows)",
        "Persistence error: Row index 0 out of range (store holds 0 rows)",
        "Event handler 'watcher' failed: no updated_cell",
        "Persistence error: Row index 1 out of range (store holds 0 rows)"] := by
  have wired : failingObservers.Wired ⟨0⟩ := wired_run _ (by decide +kernel) (by decide +kernel)
  obtain ⟨-, -, informed⟩ :=
    performAll_isolated wired [.setElement 0 0 (some "b"), .addElements .row [some "c"]]
  have messages := informed.messages ⟨0⟩ (by decide +kernel)
  refine ⟨wired, messages.trans ?_⟩
  decide +kernel

end Workspace

end LiveTable
