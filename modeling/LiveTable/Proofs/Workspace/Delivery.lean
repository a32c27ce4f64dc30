import LiveTable.Proofs.Workspace.Spares

/-! How the changes of a table are delivered.  Every change goes to the stores and then to the handlers,
    each kind in the order of attachment, and whoever fails is reported and goes on being told.  So a
    store or handler ends where the changes delivered to it bring it, told one after the other and by
    themselves, and what is reported is what each recipient answers to each delivery, after all that was
    delivered to it before.  No answer of one recipient has a part in what another is told: even stores
    that share a disk do not, as a store never reads it again. -/

namespace LiveTable

variable {α κ : Type}

/-! ### Stores and the disk -/

section Stores

variable [JsonForm α] [BinaryForm α]

/-- The fault with which a store answers a change. -/
def Store.verdict (s : Store α) (n : Notice α) : Option StoreFault := (s.observe [] n).1

/-- What becomes of a store that is told of a change. -/
def Store.follow (s : Store α) (n : Notice α) : Store α := (s.observe [] n).2.1

/-- Whether a file can be written is a matter of its name, and how it fails to be one of its name and the
    bytes. -/
theorem FileStore.tell_spec (s : FileStore α) (call : StoreCall α) :
    ∃ fault s', ∀ disk, ∃ disk', s.tell disk call = (fault, s', disk') := by
  cases done : change call s.rows with
  | error fault => exact ⟨some fault, s, fun disk => ⟨disk, follow_refused done⟩⟩
  | ok rows =>
    cases file : s.file with
    | none => exact ⟨none, _, fun disk => ⟨disk, follow_unfiled done file⟩⟩
    | some name =>
      let failure := s.form.saveFault (Disk.failure name (s.form.encode rows))
      refine ⟨if name.toList.contains '/' then some failure else none, { s with rows := rows }, fun disk =>
        ⟨(disk.write? name (s.form.encode rows)).getD disk, ?_⟩⟩
      rw [tell, follow_filed done file, Disk.save_saver, Disk.isSome_write?]
      cases name.toList.contains '/' <;> rfl

theorem Store.tell_spec (s : Store α) (call : StoreCall α) :
    ∃ fault s', ∀ disk, ∃ disk', s.tell disk call = (fault, s', disk') := by
  cases s with
  | memory rows =>
    simp only [tell]
    cases MemoryStore.tell rows call with
    | error fault => exact ⟨some fault, _, fun disk => ⟨disk, rfl⟩⟩
    | ok rows => exact ⟨none, _, fun disk => ⟨disk, rfl⟩⟩
  | file s =>
    obtain ⟨fault, s', told⟩ := s.tell_spec call
    refine ⟨fault, file s', fun disk => ?_⟩
    obtain ⟨disk', same⟩ := told disk
    exact ⟨disk', by rw [tell, same]⟩
  | journal j => exact ⟨(j.record (some call)).1, journal (j.record (some call)).2, fun disk => ⟨disk, rfl⟩⟩

theorem Store.tellAll_spec (calls : List (StoreCall α)) (s : Store α) :
    ∃ fault s', ∀ disk, ∃ disk', s.tellAll disk calls = (fault, s', disk') := by
  induction calls generalizing s with
  | nil => exact ⟨none, s, fun disk => ⟨disk, rfl⟩⟩
  | cons call rest ih =>
    obtain ⟨fault, s₁, told⟩ := s.tell_spec call
    cases fault with
    | some fault =>
      refine ⟨some fault, s₁, fun disk => ?_⟩
      obtain ⟨disk', same⟩ := told disk
      exact ⟨disk', by rw [tellAll, same]⟩
    | none =>
      obtain ⟨fault, s', told_rest⟩ := ih s₁
      refine ⟨fault, s', fun disk => ?_⟩
      obtain ⟨disk₁, same⟩ := told disk
      obtain ⟨disk', same_rest⟩ := told_rest disk₁
      exact ⟨disk', by rw [tellAll, same]; exact same_rest⟩

/-- A store follows and answers alike whatever is on the disk. -/
theorem Store.observe_eq (s : Store α) (disk : Disk) (n : Notice α) :
    ∃ disk', s.observe disk n = (s.verdict n, s.follow n, disk') := by
  obtain ⟨fault, s', told⟩ := tellAll_spec (StoreCall.ofNotice n) s
  obtain ⟨blank, alone⟩ := told []
  obtain ⟨disk', same⟩ := told disk
  exact ⟨disk', by rw [verdict, follow, observe, observe, alone, same]⟩

end Stores

/-- The fault with which a handler answers a change. -/
def Handler.verdict (h : Handler α) (n : Notice α) : Option ObserverFault := (h.observe n).1

/-- What becomes of a handler that is told of a change. -/
def Handler.follow (h : Handler α) (n : Notice α) : Handler α := (h.observe n).2

namespace Workspace

/-! ### Deliveries -/

/-- Whoever is told of a change and can answer with a fault. -/
inductive Recipient where
  | store (id : StoreId)
  | handler (id : HandlerId)
  deriving DecidableEq

/-- The recipients of a table in the order in which they are told. -/
def recipients (ws : Workspace α κ) (t : TableId) : List Recipient :=
  (ws.table t).stores.map .store ++ (ws.table t).handlers.map .handler

/-- The deliveries of changes to the recipients of a table. -/
def deliveries (ws : Workspace α κ) (t : TableId) (told : List (Notice α)) : List (Recipient × Notice α) :=
  told.flatMap fun n => (ws.recipients t).map fun r => (r, n)

/-- What was delivered to one recipient. -/
def heard (r : Recipient) (ds : List (Recipient × Notice α)) : List (Notice α) :=
  (ds.filter fun d => d.1 = r).map Prod.snd

/-- Whether there is such a handler. -/
def hasHandler (ws : Workspace α κ) (h : HandlerId) : Bool := h.value < ws.handlers.length

theorem handler_setHandler (ws : Workspace α κ) (other h : HandlerId) (handler : Handler α) :
    (ws.setHandler other handler).handler h =
      if other = h ∧ ws.hasHandler h then handler else ws.handler h := by
  rw [Workspace.handler, setHandler, List.getElem?_set, Workspace.handler, hasHandler]
  by_cases same : other = h
  · subst same
    by_cases inside : other.value < ws.handlers.length <;> simp [inside]
  · have apart : other.value ≠ h.value := fun equal => same (by cases other; cases h; simp_all)
    simp [same, apart]

/-- Whether there is such a recipient. -/
def has (ws : Workspace α κ) : Recipient → Bool
  | .store s => ws.hasStore s
  | .handler h => ws.hasHandler h

/-- Whether there is such a collector. -/
def hasCollector (ws : Workspace α κ) (k : CollectorId) : Bool := k.value < ws.collectors.length

section Faults

variable [JsonForm α] [BinaryForm α]

/-- A store after these deliveries, each told to it by itself. -/
def storeAfter (ws : Workspace α κ) (ds : List (Recipient × Notice α)) (s : StoreId) : Store α :=
  (heard (.store s) ds).foldl Store.follow (ws.store s)

omit [JsonForm α] [BinaryForm α] in
/-- A handler after these deliveries, each told to it by itself. -/
def handlerAfter (ws : Workspace α κ) (ds : List (Recipient × Notice α)) (h : HandlerId) : Handler α :=
  (heard (.handler h) ds).foldl Handler.follow (ws.handler h)

/-- The fault with which the recipient of a delivery answers, after earlier deliveries. -/
def answer (ws : Workspace α κ) (earlier : List (Recipient × Notice α)) (d : Recipient × Notice α) :
    Option ObserverFault :=
  match d.1 with
  | .store s => ((ws.storeAfter earlier s).verdict d.2).map .store
  | .handler h => (ws.handlerAfter earlier h).verdict d.2

/-- The faults of deliveries, one for each that is answered with a fault. -/
def faults (ws : Workspace α κ) (ds : List (Recipient × Notice α)) : List ObserverFault :=
  ds.zipIdx.filterMap fun (d, place) => ws.answer (ds.take place) d

/-- What a collector gets to read of deliveries. -/
def reported (ws : Workspace α κ) (t : TableId) (k : CollectorId) (ds : List (Recipient × Notice α)) :
    List String :=
  if (ws.table t).policy = .collect k then (ws.faults ds).map ObserverFault.message else []

end Faults

variable {ws ws' ws'' : Workspace α κ} {t : TableId} {ds : List (Recipient × Notice α)} {n : Notice α}

theorem heard_concat (r : Recipient) (ds : List (Recipient × Notice α)) (d : Recipient × Notice α) :
    heard r (ds ++ [d]) = heard r ds ++ if d.1 = r then [d.2] else [] := by
  rw [heard, heard, List.filter_append, List.map_append]
  by_cases same : d.1 = r <;> simp [same]

theorem deliveries_concat (ws : Workspace α κ) (t : TableId) (told : List (Notice α)) (n : Notice α) :
    ws.deliveries t (told ++ [n]) = ws.deliveries t told ++ (ws.recipients t).map fun r => (r, n) := by
  rw [deliveries, List.flatMap_append, List.flatMap_singleton, deliveries]

section Serving

variable [JsonForm α] [BinaryForm α]

theorem storeAfter_concat (ws : Workspace α κ) (ds : List (Recipient × Notice α)) (r : Recipient)
    (n : Notice α) (s : StoreId) : ws.storeAfter (ds ++ [(r, n)]) s =
      if r = .store s then (ws.storeAfter ds s).follow n else ws.storeAfter ds s := by
  rw [storeAfter, heard_concat, List.foldl_append]
  split <;> rfl

omit [JsonForm α] [BinaryForm α] in
theorem handlerAfter_concat (ws : Workspace α κ) (ds : List (Recipient × Notice α)) (r : Recipient)
    (n : Notice α) (h : HandlerId) : ws.handlerAfter (ds ++ [(r, n)]) h =
      if r = .handler h then (ws.handlerAfter ds h).follow n else ws.handlerAfter ds h := by
  rw [handlerAfter, heard_concat, List.foldl_append]
  split <;> rfl

/-- One more delivery can give one more fault; those before it are what they were. -/
theorem faults_concat (ws : Workspace α κ) (ds : List (Recipient × Notice α)) (d : Recipient × Notice α) :
    ws.faults (ds ++ [d]) = ws.faults ds ++ (ws.answer ds d).toList := by
  have before :
      (ds.zipIdx.filterMap fun (d', place) => ws.answer ((ds ++ [d]).take place) d') = ws.faults ds := by
    refine List.filterMap_congr fun ⟨d', place⟩ mem => ?_
    have inside : place < ds.length := by simpa using List.snd_lt_of_mem_zipIdx mem
    dsimp only
    rw [List.take_append_of_le_length (Nat.le_of_lt inside)]
  have last : ([d].zipIdx ds.length).filterMap (fun (d', place) => ws.answer ((ds ++ [d]).take place) d') =
      (ws.answer ds d).toList := by
    rw [List.zipIdx_singleton, List.filterMap_cons, List.filterMap_nil]
    dsimp only
    rw [List.take_left]
    cases ws.answer ds d <;> rfl
  rw [faults, List.zipIdx_append, List.filterMap_append, before, Nat.zero_add, last]

/-! ### Reports -/

omit [JsonForm α] [BinaryForm α] in
/-- Reporting changes nothing but what collectors have received. -/
theorem reportAny_eq (ws : Workspace α κ) (t : TableId) (fault : Option ObserverFault) :
    ∃ collectors, ws.reportAny t fault = { ws with collectors := collectors } ∧
      collectors.length = ws.collectors.length := by
  cases fault with
  | none => exact ⟨ws.collectors, rfl, rfl⟩
  | some fault =>
    rw [reportAny, report]
    cases (ws.table t).policy with
    | collect k => exact ⟨_, rfl, List.length_modify ..⟩
    | _ => exact ⟨ws.collectors, rfl, rfl⟩

omit [JsonForm α] [BinaryForm α] in
/-- A fault is received by the collector of the table, once, and by no other. -/
theorem messages_reportAny (fault : Option ObserverFault) {k : CollectorId} (there : ws.hasCollector k) :
    (ws.reportAny t fault).messages k = ws.messages k ++
      if (ws.table t).policy = .collect k then fault.toList.map ObserverFault.message else [] := by
  have inside : k.value < ws.collectors.length := of_decide_eq_true there
  cases fault with
  | none => simp [reportAny]
  | some fault =>
    rw [reportAny, report]
    cases (ws.table t).policy with
    | collect other =>
      rw [messages, List.getElem?_modify, messages, List.getElem?_eq_getElem inside]
      by_cases same : other = k
      · simp [same]
      · have apart : other.value ≠ k.value := fun equal => same (by cases other; cases k; simp_all)
        simp [same, apart]
    | _ => simp

/-! ### Recipients told one by one -/

/-- A workspace in which the recipients of a table have got these deliveries. -/
structure Served (ws : Workspace α κ) (t : TableId) (ds : List (Recipient × Notice α))
    (ws' : Workspace α κ) : Prop where
  stores : (ws'.table t).stores = (ws.table t).stores
  handlers : (ws'.table t).handlers = (ws.table t).handlers
  policy : (ws'.table t).policy = (ws.table t).policy
  has : ∀ r, ws'.has r = ws.has r
  hasCollector : ∀ k, ws'.hasCollector k = ws.hasCollector k
  store : ∀ s, ws.has (.store s) → ws'.store s = ws.storeAfter ds s
  handler : ∀ h, ws.has (.handler h) → ws'.handler h = ws.handlerAfter ds h
  messages : ∀ k, ws.hasCollector k → ws'.messages k = ws.messages k ++ ws.reported t k ds

namespace Served

theorem refl (ws : Workspace α κ) (t : TableId) : ws.Served t [] ws where
  stores := rfl
  handlers := rfl
  policy := rfl
  has _ := rfl
  hasCollector _ := rfl
  store _ _ := rfl
  handler _ _ := rfl
  messages k _ := by simp [reported, faults]

/-- What leaves recipients and collectors alone delivers nothing. -/
theorem of_same (h : ws.Served t ds ws') (stores_of : (ws''.table t).stores = (ws'.table t).stores)
    (handlers_of : (ws''.table t).handlers = (ws'.table t).handlers)
    (policy_of : (ws''.table t).policy = (ws'.table t).policy) (stores : ws''.stores = ws'.stores)
    (handlers : ws''.handlers = ws'.handlers) (collectors : ws''.collectors = ws'.collectors) :
    ws.Served t ds ws'' where
  stores := stores_of.trans h.stores
  handlers := handlers_of.trans h.handlers
  policy := policy_of.trans h.policy
  has r := by
    rw [← h.has]
    cases r <;> simp only [Workspace.has, hasStore, hasHandler, stores, handlers]
  hasCollector k := by rw [← h.hasCollector, Workspace.hasCollector, collectors, Workspace.hasCollector]
  store s there := by rw [← h.store s there, Workspace.store, stores, Workspace.store]
  handler g there := by rw [← h.handler g there, Workspace.handler, handlers, Workspace.handler]
  messages k there := by rw [← h.messages k there, Workspace.messages, collectors, Workspace.messages]

/-- A change of a table that leaves its stores and handlers alone. -/
theorem modifyTable (h : ws.Served t ds ws') {u : TableId} {f : Table α → Table α}
    (stores : ∀ table, (f table).stores = table.stores)
    (handlers : ∀ table, (f table).handlers = table.handlers)
    (policy : ∀ table, (f table).policy = table.policy) : ws.Served t ds (ws'.modifyTable u f) := by
  have kept {β : Type} (part : Table α → β) (keeps : ∀ table, part (f table) = part table) :
      part ((ws'.modifyTable u f).table t) = part (ws'.table t) := by
    rw [table, table, Workspace.modifyTable, List.getElem?_modify]
    cases ws'.tables[t.value]? with
    | none => rfl
    | some table => by_cases same : u.value = t.value <;> simp [same, keeps]
  exact h.of_same (kept Table.stores stores) (kept Table.handlers handlers)
    (kept Table.policy policy) rfl rfl rfl

/-- An observer has been told of a change, and its answer is reported. -/
theorem report_answer (h : ws.Served t ds ws') (d : Recipient × Notice α) (tables : ws''.tables = ws'.tables)
    (collectors : ws''.collectors = ws'.collectors) (has : ∀ r, ws''.has r = ws'.has r)
    (store : ∀ s, ws.has (.store s) → ws''.store s = ws.storeAfter (ds ++ [d]) s)
    (handler : ∀ g, ws.has (.handler g) → ws''.handler g = ws.handlerAfter (ds ++ [d]) g) :
    ws.Served t (ds ++ [d]) (ws''.reportAny t (ws.answer ds d)) := by
  have table (u : TableId) : ws''.table u = ws'.table u := by rw [Workspace.table, tables, Workspace.table]
  have exists_collector (k : CollectorId) : ws''.hasCollector k = ws.hasCollector k := by
    rw [← h.hasCollector, Workspace.hasCollector, collectors, Workspace.hasCollector]
  have received (k : CollectorId) (there : ws.hasCollector k) :
      (ws''.reportAny t (ws.answer ds d)).messages k = ws.messages k ++ ws.reported t k (ds ++ [d]) := by
    have before : ws''.messages k = ws.messages k ++ ws.reported t k ds := by
      rw [← h.messages k there, Workspace.messages, collectors, Workspace.messages]
    rw [messages_reportAny _ ((exists_collector k).trans there), before, table, h.policy, reported,
      reported, faults_concat]
    split <;> simp
  obtain ⟨reports, same, length⟩ := reportAny_eq ws'' t (ws.answer ds d)
  rw [same] at received ⊢
  refine ⟨?_, ?_, ?_, fun r => ?_, fun k => ?_, store, handler, received⟩
  · rw [← h.stores, ← table]
    rfl
  · rw [← h.handlers, ← table]
    rfl
  · rw [← h.policy, ← table]
    rfl
  · rw [← h.has, ← has]
    cases r <;> rfl
  · rw [← exists_collector, Workspace.hasCollector, Workspace.hasCollector, length]

/-- A store is told of a change. -/
theorem tellStore (h : ws.Served t ds ws') {s : StoreId} (there : ws.has (.store s)) (n : Notice α) :
    ws.Served t (ds ++ [(.store s, n)]) (Workspace.tellStore t n ws' s) := by
  obtain ⟨disk, observed⟩ := (ws'.store s).observe_eq ws'.disk n
  have answered : ((ws'.store s).verdict n).map ObserverFault.store = ws.answer ds (.store s, n) := by
    rw [h.store s there]
    rfl
  simp only [Workspace.tellStore, observed, answered]
  refine h.report_answer _ rfl rfl (fun r => ?_) (fun other there' => ?_) (fun g there' => ?_)
  · cases r with
    | store other => exact congrArg (fun length => decide (other.value < length)) List.length_set
    | handler g => rfl
  · have inside : ({ ws' with disk := disk } : Workspace α κ).hasStore other :=
      (h.has (.store other)).trans there'
    have before : ({ ws' with disk := disk } : Workspace α κ).store other = ws.storeAfter ds other :=
      h.store other there'
    rw [storeAfter_concat, store_setStore, before, h.store s there]
    by_cases same : s = other
    · simp [same, inside]
    · simp [same]
  · rw [handlerAfter_concat, if_neg nofun]
    exact h.handler g there'

/-- A handler is told of a change. -/
theorem tellHandler (h : ws.Served t ds ws') {g : HandlerId} (there : ws.has (.handler g)) (n : Notice α) :
    ws.Served t (ds ++ [(.handler g, n)]) (Workspace.tellHandler t n ws' g) := by
  have answered : ((ws'.handler g).observe n).1 = ws.answer ds (.handler g, n) := by
    rw [h.handler g there]
    rfl
  simp only [Workspace.tellHandler, answered]
  refine h.report_answer _ rfl rfl (fun r => ?_) (fun s there' => ?_) (fun other there' => ?_)
  · cases r with
    | store s => rfl
    | handler other => exact congrArg (fun length => decide (other.value < length)) List.length_set
  · rw [storeAfter_concat, if_neg nofun]
    exact h.store s there'
  · rw [handlerAfter_concat, handler_setHandler, h.handler other there', h.handler g there]
    have inside : ws'.hasHandler other := (h.has (.handler other)).trans there'
    by_cases same : g = other
    · subst same
      simp [inside, Handler.follow]
    · simp [same]

/-- Recipients are told of a change one after the other. -/
theorem foldl {β : Type} {tell : Workspace α κ → β → Workspace α κ} (recipient : β → Recipient) {l : List β}
    (each : ∀ ds ws', ∀ b ∈ l, ws.Served t ds ws' → ws.Served t (ds ++ [(recipient b, n)]) (tell ws' b))
    (h : ws.Served t ds ws') : ws.Served t (ds ++ l.map fun b => (recipient b, n)) (l.foldl tell ws') := by
  induction l generalizing ds ws' with
  | nil => simpa using h
  | cons b rest ih =>
    have first := each ds ws' b List.mem_cons_self h
    have later := ih (fun ds ws' b mem => each ds ws' b (List.mem_cons_of_mem _ mem)) first
    simpa using later

/-- All recipients of a table are told of a change. -/
theorem tellRecipients (h : ws.Served t ds ws') (there : ∀ r ∈ ws.recipients t, ws.has r) (n : Notice α) :
    let stored := (ws'.table t).stores.foldl (Workspace.tellStore t n) ws'
    ws.Served t (ds ++ (ws.recipients t).map fun r => (r, n))
      ((stored.table t).handlers.foldl (Workspace.tellHandler t n) stored) := by
  intro stored
  have stores : ws.Served t (ds ++ (ws.table t).stores.map fun s => (.store s, n)) stored := by
    rw [← h.stores]
    refine h.foldl Recipient.store fun _ _ s mem served => served.tellStore (there _ ?_) n
    exact List.mem_append_left _ (List.mem_map_of_mem (h.stores ▸ mem))
  rw [stores.handlers, Workspace.recipients, List.map_append, List.map_map, List.map_map, ← List.append_assoc]
  exact stores.foldl Recipient.handler fun _ _ g mem served =>
    served.tellHandler (there _ (List.mem_append_right _ (List.mem_map_of_mem mem))) n

end Served

end Serving

end Workspace

end LiveTable
