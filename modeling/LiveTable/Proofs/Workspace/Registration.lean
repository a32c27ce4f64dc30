import LiveTable.Proofs.Workspace.Run
import Mathlib.Data.List.Induction

/-! Which indexes a table lists in a run of a workspace.  An index that some name holds is listed by its
    table, once and by no other, so it is counted and told of every change.  There are two exceptions:
    the index of a column that is gone, which has nothing more to follow, and a keyed index whose name
    has been asked for with another kind of keys in the meantime, because the new index takes its
    place. -/

namespace LiveTable.Workspace

variable {α κ : Type} {ws ws' ws'' : Workspace α κ} {t u : TableId} {i : IndexId} {ousted : IndexId → Prop}

/-! ### Keyed indexes stay on the list -/

/-- If the index is a keyed one, its table lists it. -/
def Registered (ws : Workspace α κ) (i : IndexId) : Prop :=
  ∀ t name extractor, ws.purpose? i = some (.keyed t name extractor) → i ∈ (ws.table t).indexes

/-- An index that was registered as long as it was held is so afterwards, unless it was ousted. -/
def Retains (ousted : IndexId → Prop) (ws ws' : Workspace α κ) : Prop :=
  ∀ i, ¬ousted i → (ws.holdsIndex i → ws.Registered i) → ws'.holdsIndex i → ws'.Registered i

namespace Retains

theorem refl (ws : Workspace α κ) : ws.Retains ousted ws := fun _ _ registered => registered

theorem trans (first : Retains ousted ws ws') (later : Retains ousted ws' ws'') : Retains ousted ws ws'' :=
  fun i safe registered => later i safe (first i safe registered)

/-- It is enough that no index is new or held anew, and that no held one is taken off a list. -/
theorem of_listed (purpose? : ∀ i, ws'.purpose? i = ws.purpose? i)
    (held : ∀ i, ws'.holdsIndex i → ws.holdsIndex i)
    (listed : ∀ i t name extractor, ws.purpose? i = some (.keyed t name extractor) → ws.holdsIndex i →
      i ∈ (ws.table t).indexes → i ∈ (ws'.table t).indexes) : Retains ousted ws ws' := by
  intro i _ registered holds t name extractor found
  have holds' := held i holds
  rw [purpose?] at found
  exact listed i t name extractor found holds' (registered holds' t name extractor found)

theorem foldl {β : Type} {f : Workspace α κ → β → Workspace α κ}
    (each : ∀ (ws : Workspace α κ) (b : β), ws.Retains ousted (f ws b)) : ∀ (l : List β) (ws : Workspace α κ),
    ws.Retains ousted (l.foldl f ws)
  | [], ws => refl ws
  | b :: rest, ws => (each ws b).trans (foldl each rest (f ws b))

end Retains

theorem Undisturbed.retains (same : ws.Undisturbed ws') : ws.Retains ousted ws' :=
  .of_listed same.purpose? same.held fun _ t _ _ _ _ mem => by rwa [same.indexes t]

theorem Retains.undisturbed (h : Retains ousted ws ws') (same : ws'.Undisturbed ws'') :
    Retains ousted ws ws'' :=
  h.trans same.retains

/-- A change of one table takes nothing off the lists of others. -/
theorem mem_indexes_modifyTable {f : Table α → Table α} (mem : i ∈ (ws.table u).indexes)
    (keeps : t = u → i ∈ (f (ws.table u)).indexes) : i ∈ ((ws.modifyTable t f).table u).indexes := by
  rw [table] at mem keeps
  rw [table, modifyTable, List.getElem?_modify]
  cases there : ws.tables[u.value]? with
  | none => simp [there] at mem
  | some table =>
    rw [there, Option.getD_some] at mem keeps
    by_cases same : t.value = u.value
    · have equal : t = u := by cases t; cases u; simp_all
      simpa [same] using keeps equal
    · simpa [same] using mem

theorem retains_addTable (ws : Workspace α κ) (table : Table α) :
    ws.Retains ousted (ws.addTable table).2 := by
  refine .of_listed (fun _ => rfl) (fun _ => id) fun i u _ _ _ _ mem => ?_
  rw [table_addTable, if_neg]
  · exact mem
  · rintro rfl
    rw [table_new] at mem
    simp at mem

/-- A table may keep only its indexes that are held. -/
theorem retains_setIndexes (ws : Workspace α κ) (t : TableId) :
    ws.Retains ousted (ws.setIndexes t (ws.liveIndexes t)) := by
  refine .of_listed (fun _ => rfl) (fun _ => id) fun i u _ _ _ holds mem => mem_indexes_modifyTable mem ?_
  rintro rfl
  exact List.mem_filter.mpr ⟨mem, holds⟩

/-- A new index takes the places of those that are ousted. -/
theorem retains_register (inside : ws.hasTable t) {l : List IndexId}
    (room : ∀ i ∈ ws.liveIndexes t, ¬ousted i → i ∈ l) {index : Index α κ} (own : index.table = t) :
    ws.Retains ousted (ws.register t l index).2 ∧
      (ws.register t l index).2.Registered (ws.register t l index).1 := by
  have new : (ws.register t l index).2.Registered (ws.register t l index).1 := by
    intro u name extractor purpose
    rw [purpose?, index?_register, if_pos rfl, Option.map_some, Option.some.injEq] at purpose
    cases index with
    | column => cases purpose
    | keyed v x =>
      obtain ⟨rfl, -, -⟩ := Index.Purpose.keyed.inj purpose
      obtain rfl : v = t := own
      rw [indexes_register inside, if_pos rfl]
      exact List.mem_append_right l (List.mem_singleton_self _)
  refine ⟨fun i safe registered holds => ?_, new⟩
  by_cases here : i = (ws.register t l index).1
  · exact here ▸ new
  · intro u name extractor purpose
    rw [purpose?, index?_register, if_neg here] at purpose
    have held : ws.holdsIndex i := holds
    have mem := registered held u name extractor purpose
    rw [indexes_register inside]
    split
    · next same =>
      subst same
      exact List.mem_append_left _ (room i (List.mem_filter.mpr ⟨mem, held⟩) safe)
    · exact mem

/-- Giving an index a name retains what is registered, if that index is. -/
theorem Retains.named {result : IndexId × Workspace α κ} (h : ws.Retains ousted result.2)
    (new : result.2.Registered result.1) (name : String) :
    ws.Retains ousted (Workspace.named name .index result) := by
  intro i safe registered holds
  rcases holdsIndex_bind result.2 name holds with here | held
  · obtain rfl : result.1 = i := beq_iff_eq.mp here
    exact new
  · exact h i safe registered held

/-! ### Editing -/

section Editing

variable [Element α] [JsonForm α] [BinaryForm α] [Ord κ]

/-- Telling observers takes only the indexes of columns, and those that are not held, off the list. -/
theorem retains_publish (t : TableId) (ws : Workspace α κ) (n : Notice α) :
    ws.Retains ousted (publish t ws n) := by
  obtain ⟨told, others, eq⟩ := publish_spec t ws n
  obtain ⟨names, tables⟩ := foldl_tellIndex_same n (ws.table t).indexes ws
  have following : ws.Retains ousted ((ws.table t).indexes.foldl (tellIndex n) ws) := by
    refine .of_listed (fun i => purpose?_foldl_tellIndex n i _ ws) (fun i held => ?_)
      fun i u _ _ _ _ mem => ?_
    · rwa [holdsIndex, names] at held
    · rwa [table, tables]
  have told_all := following.trans others.retains
  rw [eq]
  split
  · refine told_all.trans (.of_listed (fun _ => rfl) (fun _ => id)
      fun i u name extractor found holds mem => ?_)
    refine mem_indexes_modifyTable mem fun _ => List.mem_filter.mpr ⟨mem, ?_⟩
    obtain ⟨x, at?, -, -⟩ := purpose?_eq_keyed.mp found
    simp [holds, at?, Index.watches]
  · exact told_all

theorem retains_edit {β : Type} (ws : Workspace α κ) (t : TableId)
    {operation : Edit α (Workspace α κ) → β × Edit α (Workspace α κ)}
    {scope : Scope} (steps : ∀ e : Edit α (Workspace α κ), e.Steps scope (operation e).2) :
    ws.Retains ousted (ws.edit t operation).2 := by
  have kept := (steps ⟨ws.content t, ws, publish t⟩).preserve
    (P := fun e => e.tell = publish t ∧ ws.Retains ousted e.observers) (fun e e' step before => ?_)
    ⟨rfl, .refl ws⟩
  · exact kept.2.trans (.of_listed (fun _ => rfl) (fun _ => id) fun i u _ _ _ _ mem =>
      mem_indexes_modifyTable mem fun _ => mem)
  · obtain ⟨tell, kept⟩ := before
    cases step with
    | announced =>
      subst tell
      exact ⟨rfl, kept.trans (retains_publish t _ _)⟩
    | quiet => exact ⟨tell, kept⟩

theorem retains_perform (ws : Workspace α κ) (t : TableId) (operation : Operation α) :
    ws.Retains ousted (ws.perform t operation).2 :=
  retains_edit ws t fun e => Edit.steps_run e operation

theorem retains_attachStore (ws : Workspace α κ) (t : TableId) (s : StoreId) :
    ws.Retains ousted (ws.attachStore t s) := by
  have loading : ws.Retains ousted (ws.loadStore t s).2 := (undisturbed_loadStore ws t s).retains
  have edited := loading.trans (retains_edit _ t fun e => Edit.steps_hydrate e (ws.loadStore t s).1)
  exact edited.undisturbed ((Undisturbed.foldl (undisturbed_push t s) _ _).trans
    (.modifyTable (fun _ => rfl) (fun _ => rfl)))

end Editing

/-! ### Asking -/

section Asking

/-- Asking for the index of a column takes no keyed index off the list. -/
theorem retains_indexOf [Ord α] (inside : ws.hasTable t) {column : Nat} {result : IndexId × Workspace α κ}
    (asked : ws.indexOf t column = some result) (name : String) :
    ws.Retains ousted (named name .index result) := by
  suffices given : ws.Retains ousted result.2 ∧ result.2.Registered result.1 from given.1.named given.2 name
  obtain ⟨id, -, rfl⟩ := Option.map_eq_some_iff.mp asked
  cases found : (ws.liveIndexes t).find? fun i => (ws.index? i).any (·.watches id) with
  | some i =>
    simp only [found]
    refine ⟨retains_setIndexes ws t, fun u name extractor purpose => ?_⟩
    obtain ⟨x, at?, -, -⟩ := purpose?_eq_keyed.mp purpose
    have watches := List.find?_some found
    rw [show ws.index? i = some (.keyed u x) from at?] at watches
    cases watches
  | none =>
    simp only [found]
    exact retains_register inside (fun i mem _ => mem) rfl

/-- A name that is asked for with another kind of keys ousts the index that has it. -/
def Ousts (ws : Workspace α κ) (t : TableId) (name : String) (asked : Extractor α κ) (i : IndexId) : Prop :=
  ws.holdsIndex i ∧ ∃ extractor, ws.purpose? i = some (.keyed t name extractor) ∧ asked.kind ≠ extractor.kind

variable [Ord α] [Ord κ]

/-- Asking for a keyed index takes no other off the list than the one that it ousts. -/
theorem UpToDate.retains_keyed (h : ws.UpToDate) (inside : ws.hasTable t) (name : String)
    (extractor : Extractor α κ) : ws.Retains (ws.Ousts t name extractor) (ws.keyed t name extractor).2 ∧
      (ws.keyed t name extractor).2.Registered (ws.keyed t name extractor).1 := by
  simp only [Workspace.keyed]
  split
  · next i found =>
    have live := List.mem_filter.mp (List.mem_of_find?_eq_some found)
    obtain ⟨index, at?, own⟩ := h.owned t i live.1
    have isNamed := List.find?_some found
    rw [at?] at isNamed
    split
    · refine ⟨retains_setIndexes ws t, fun u other rule purpose => mem_indexes_modifyTable ?_ fun _ => ?_⟩
      · obtain ⟨x, at?', -, -⟩ := purpose?_eq_keyed.mp purpose
        obtain rfl := Option.some.inj (at?.symm.trans at?')
        obtain rfl : u = t := own
        exact live.1
      · exact List.mem_filter.mpr live
    · next other =>
      refine retains_register inside (fun j mem safe => (List.mem_erase_of_ne ?_).mpr mem) rfl
      rintro rfl
      cases index with
      | column => cases isNamed
      | keyed u x =>
        obtain rfl : u = t := own
        obtain rfl : x.name = name := beq_iff_eq.mp isNamed
        refine safe ⟨live.2, x.extractor, purpose?_eq_keyed.mpr ⟨x, at?, rfl, rfl⟩, fun same => other ?_⟩
        rw [keyKind?, at?, same]
  · exact retains_register inside (fun i mem _ => mem) rfl

end Asking

/-! ### Runs -/

section Runs

variable [Element α] [JsonForm α] [BinaryForm α] [Ord κ]

/-- The index had to make room for another one of its name, while it was held. -/
def Superseded (actions : List (Action α κ)) (i : IndexId) : Prop :=
  ∃ before t label extractor name after, actions = before ++ .on t (.keyed label extractor name) :: after ∧
    (run before).Ousts t label extractor i

theorem UpToDate.retains_act (h : ws.UpToDate) (action : Action α κ) :
    ws.Retains (fun i => ∃ t label extractor name, action = .on t (.keyed label extractor name) ∧
      ws.Ousts t label extractor i) (ws.act action) := by
  have effect := effect_act ws action
  generalize ws.act action = ws' at effect ⊢
  cases effect with
  | undisturbed same => exact same.retains
  | made same => exact (retains_addTable ws _).undisturbed same
  | cloned same => exact Retains.undisturbed (retains_addTable ws _) same
  | @turned u _ _ same =>
    exact ((retains_addTable ws _).trans (retains_perform _ (ws.cloneTable u).1 .transpose)).undisturbed same
  | @performed u _ operation => exact retains_perform ws u operation
  | @attached u _ s => exact retains_attachStore ws u s
  | indexed inside _ asked name => exact retains_indexOf inside asked name
  | @keyed u inside label extractor name =>
    obtain ⟨retains, new⟩ := h.retains_keyed inside label extractor
    refine Retains.named (fun i safe => retains i fun ousts => ?_) new name
    exact safe ⟨u, label, extractor, name, rfl, ousts⟩

/-- What keeps an index on the list: its column is still there, or no other index has taken its place. -/
def Lasts (actions : List (Action α κ)) (i : IndexId) : Index α κ → Prop
  | .column t x => ∃ axis, x.column ∈ (((run actions).content t).stripes axis).ids
  | .keyed _ _ => ¬Superseded actions i

variable [Std.LawfulEqOrd α] [Std.TransOrd α] [Std.LawfulEqOrd κ] [Std.TransOrd κ]

/-- A keyed index that is held is listed, unless it was superseded. -/
theorem registered_run (actions : List (Action α κ)) (held : (run actions).holdsIndex i)
    (lasting : ¬Superseded actions i) : (run actions).Registered i := by
  induction actions using List.reverseRecOn with
  | nil => simp [run, holdsIndex] at held
  | append_singleton before action ih =>
    have step : run (before ++ [action]) = (run before).act action := by simp [run]
    rw [step] at held ⊢
    refine (upToDate_run before).retains_act action i ?_ (fun holds => ih holds ?_) held
    · rintro ⟨t, label, extractor, name, rfl, ousts⟩
      exact lasting ⟨before, t, label, extractor, name, [], rfl, ousts⟩
    · rintro ⟨front, t, label, extractor, name, after, rfl, ousts⟩
      exact lasting ⟨front, t, label, extractor, name, after ++ [action], by simp, ousts⟩

/-- After every run, an index that some name holds is listed by its table exactly once, by no other
    table, and counted among its indexes, as long as its column is there or, for a keyed one, no other
    index has taken its place.  It agrees with its table, and every notice of the next change goes to
    it. -/
theorem run_index_registered (actions : List (Action α κ)) {index : Index α κ}
    (held : (run actions).holdsIndex i)
    (found : (run actions).index? i = some index) (lasts : Lasts actions i index) :
    let ws := run actions
    (ws.table index.table).indexes.count i = 1 ∧ (ws.liveIndexes index.table).count i = 1 ∧
      (∀ u, u ≠ index.table → i ∉ (ws.table u).indexes) ∧ index.Agrees (ws.content index.table) ∧
      ∀ n, (publish index.table ws n).index? i = some (index.observe n) := by
  intro ws
  have upToDate : ws.UpToDate := upToDate_run actions
  have listed : i ∈ (ws.table index.table).indexes := by
    cases index with
    | column t x =>
      obtain ⟨-, -, told⟩ := upToDate.follows i t x held found
      obtain ⟨axis, there⟩ := lasts
      exact told.resolve_right fun gone => gone.2 axis there
    | keyed t x =>
      exact registered_run actions held lasts t x.name x.extractor
        (purpose?_eq_keyed.mpr ⟨x, found, rfl, rfl⟩)
  have distinct := upToDate.distinct index.table
  refine ⟨List.count_eq_one_of_mem distinct listed,
    List.count_eq_one_of_mem (distinct.sublist List.filter_sublist) (List.mem_filter.mpr ⟨listed, held⟩),
    fun u other mem => ?_, ?_, fun n => ?_⟩
  · obtain ⟨index', found', own⟩ := upToDate.owned u i mem
    obtain rfl := Option.some.inj (found.symm.trans found')
    exact other own.symm
  · cases index with
    | column t x =>
      obtain ⟨known, agrees, -⟩ := upToDate.follows i t x held found
      exact ⟨known, agrees⟩
    | keyed t x => exact Tracks.keyed upToDate t i listed held x found
  · rw [index?_publish n distinct, if_pos ⟨listed, held⟩, found]
    rfl

/-- A name that is asked for twice with keys of one kind gives one index, which stays listed when the
    first name for it is given up. -/
theorem run_index_registered_twice :
    let actions : List (Action String RowKey) :=
      [.make (.rows [[some "a"]]) [] "t", .on ⟨0⟩ (.keyed "k" .joined "x"), .on ⟨0⟩ (.keyed "k" .first "y"),
        .drop "x"]
    (run actions).holdsIndex ⟨0⟩ ∧ ((run actions).liveIndexes ⟨0⟩).count ⟨0⟩ = 1 := by
  intro actions
  have held : (run actions).holdsIndex ⟨0⟩ := by decide +kernel
  have lasting : ¬Superseded actions ⟨0⟩ := by
    rintro ⟨before, t, label, asked, name, after, eq, holds, extractor, purpose, other⟩
    obtain ⟨x, there, -, rfl⟩ := purpose?_eq_keyed.mp purpose
    have old : (run before).keyKind? ⟨0⟩ = some x.extractor.kind := by rw [keyKind?, there]
    rcases before with _ | ⟨_, _ | ⟨_, _ | ⟨_, before⟩⟩⟩ <;>
      simp only [actions, List.nil_append, List.cons_append, List.cons.injEq, Action.on.injEq,
        TableAction.keyed.injEq, reduceCtorEq, false_and] at eq
    · obtain ⟨rfl, -⟩ := eq
      exact absurd holds (by decide +kernel)
    · obtain ⟨rfl, rfl, ⟨rfl, rfl, rfl, rfl⟩, -⟩ := eq
      have text : (run [.make (.rows [[some "a"]]) [] "t", .on ⟨0⟩ (.keyed "k" .joined "x")] :
          Workspace String RowKey).keyKind? ⟨0⟩ = some .text := by decide +kernel
      exact other (Option.some.inj (text.symm.trans old))
    · obtain ⟨-, -, -, eq⟩ := eq
      rcases before with _ | ⟨_, _ | ⟨_, _⟩⟩ <;> simp at eq
  have keyed : ((run actions).index? ⟨0⟩).any fun
      | .column _ _ => false
      | .keyed t _ => t == ⟨0⟩ := by decide +kernel
  cases found : (run actions).index? ⟨0⟩ with
  | none => simp [found] at keyed
  | some index =>
    cases index with
    | column => simp [found] at keyed
    | keyed t x =>
      obtain rfl : t = ⟨0⟩ := by simpa [found] using keyed
      exact ⟨held, (run_index_registered actions held found lasting).2.1⟩

/-- A name that is asked for with another kind of keys takes the old index off the list although it is
    held: it is not counted any more, and a write passes it by. -/
theorem run_index_superseded :
    let actions : List (Action String RowKey) :=
      [.make (.rows [[some "a"]]) [] "t", .on ⟨0⟩ (.keyed "k" .joined "x"), .on ⟨0⟩ (.keyed "k" .filled "y")]
    let written := run (actions ++ [.on ⟨0⟩ (.perform (.setElement 0 0 (some "b")))])
    (run actions).holdsIndex ⟨0⟩ ∧ ((run actions).table ⟨0⟩).indexes.count ⟨0⟩ = 0 ∧
      (run actions).liveIndexes ⟨0⟩ = [⟨1⟩] ∧ written.holdsIndex ⟨0⟩ ∧
      (written.content ⟨0⟩).element 0 0 = some "b" ∧
      ((written.index? ⟨0⟩).any fun
        | .column _ _ => false
        | .keyed _ x => x.groups.keys == [.text "a"]) := by
  decide +kernel

end Runs

end LiveTable.Workspace
