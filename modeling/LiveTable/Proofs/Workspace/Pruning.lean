import LiveTable.Proofs.Handle.Taking
import LiveTable.Proofs.Workspace.Isolation
import LiveTable.Proofs.Workspace.Registration

/-! When the index of a column is let go.  A table lets go of it when an event names its stripe as a
    column that was taken out, so an index that is held stays on the list exactly as long as no operation
    of the run has taken its stripe out as a column.  Two ways of losing the stripe are not among these:
    as a row, while the table is turned over, and with all others, when the table is cleared or replaced.
    The index of a stripe lost like that is counted among the indexes of the table for as long as a name
    holds it, and there is nothing that it could ever show. -/

namespace LiveTable

variable {α κ : Type}

theorem Content.has_or_gone {c : Content α} {i : StripeId} (known : i.value < c.nextId) :
    c.Has i ∨ c.Gone i := by
  by_cases has : c.Has i
  · exact .inl has
  · exact .inr ⟨known, fun axis mem => has ⟨axis, mem⟩⟩

/-- A change takes the column of an index away if its event names the column. -/
theorem Index.ends_column (t : TableId) (x : ColumnIndex α) (n : Notice α) :
    (Index.column t x : Index α κ).ends n ↔ n.event.Names .column x.column := by
  rw [Index.ends]
  constructor
  · split
    · next position stripe event => exact fun same => ⟨position, stripe, event, (beq_iff_eq.mp same).symm⟩
    · exact fun never => absurd never Bool.false_ne_true
  · rintro ⟨position, stripe, event, own⟩
    simp [event, Index.watches, own]

namespace Workspace

variable {ws ws' ws'' : Workspace α κ} {t u : TableId} {i : IndexId} {id : StripeId}
  {taken taken' : Option Axis → StripeId → Prop}

/-! ### Indexes that are carried on -/

/-- How the indexes of the columns of a table come out of what is done.  Each that is held is listed for
    a stripe that is there; or it was held before, is on the list if it was and its stripe has not been
    taken out as a column, and its stripe is there if it was and has not been taken out at all. -/
def Carries (taken : Option Axis → StripeId → Prop) (t : TableId) (ws ws' : Workspace α κ) : Prop :=
  ∀ i id, ws'.holdsIndex i → ws'.purpose? i = some (.column t id) →
    (i ∈ (ws'.table t).indexes ∧ (ws'.content t).Has id) ∨
    ws.holdsIndex i ∧ ws.purpose? i = some (.column t id) ∧
      (i ∈ (ws'.table t).indexes ↔ i ∈ (ws.table t).indexes ∧ ¬taken (some .column) id) ∧
      ((ws.content t).Has id → (ws'.content t).Has id ∨ ∃ direction, taken direction id)

/-- Nothing is taken out. -/
def untaken : Option Axis → StripeId → Prop := fun _ _ => False

namespace Carries

/-- It is enough that no index is new or held anew, and that held ones are listed as they were. -/
theorem of_listed (purpose? : ∀ i, ws'.purpose? i = ws.purpose? i)
    (held : ∀ i, ws'.holdsIndex i → ws.holdsIndex i)
    (listed : ∀ i id, ws.purpose? i = some (.column t id) → ws.holdsIndex i →
      (i ∈ (ws'.table t).indexes ↔ i ∈ (ws.table t).indexes ∧ ¬taken (some .column) id))
    (has : ∀ id, (ws.content t).Has id → (ws'.content t).Has id ∨ ∃ direction, taken direction id) :
    Carries taken t ws ws' := by
  intro i id holds found
  rw [purpose?] at found
  exact .inr ⟨held i holds, found, listed i id found (held i holds), has id⟩

theorem refl (ws : Workspace α κ) : Carries untaken t ws ws :=
  .of_listed (fun _ => rfl) (fun _ => id) (fun _ _ _ _ => by simp [untaken]) fun _ => .inl

theorem trans (first : Carries untaken t ws ws') (later : Carries untaken t ws' ws'') :
    Carries untaken t ws ws'' := by
  intro i id holds found
  rcases later i id holds found with new | ⟨holds', found', listed, has⟩
  · exact .inl new
  · simp only [untaken, not_false_eq_true, and_true, exists_false, or_false] at listed has
    rcases first i id holds' found' with ⟨listed', has'⟩ | ⟨held, old, listed', has'⟩
    · exact .inl ⟨listed.mpr listed', has has'⟩
    · exact .inr ⟨held, old, listed.trans listed', fun was => (has' was).imp_left has⟩

theorem congr (h : Carries taken t ws ws') (same : ∀ direction id, taken direction id ↔ taken' direction id) :
    Carries taken' t ws ws' := by
  obtain rfl : taken = taken' := funext fun direction => funext fun id => propext (same direction id)
  exact h

end Carries

theorem Undisturbed.carries (same : ws.Undisturbed ws') : Carries untaken t ws ws' :=
  .of_listed same.purpose? same.held (fun _ _ _ _ => by simp [same.indexes t, untaken])
    fun id has => .inl (same.content t ▸ has)

theorem Carries.undisturbed (h : Carries untaken t ws ws') (same : ws'.Undisturbed ws'') :
    Carries untaken t ws ws'' :=
  h.trans same.carries

/-- A new table has no indexes, and there are no indexes of it. -/
theorem carries_addTable {table : Table α} (unindexed : table.indexes = []) :
    Carries untaken t ws (ws.addTable table).2 := by
  refine .of_listed (fun _ => rfl) (fun _ => id) (fun i id _ _ => ?_) fun id has => .inl ?_
  · rw [table_addTable]
    split
    · next new =>
      subst new
      rw [unindexed, table_new]
      simp
    · simp [untaken]
  · rw [content, table_addTable, if_neg]
    · exact has
    · rintro rfl
      obtain ⟨axis, mem⟩ := has
      rw [content, table_new] at mem
      cases axis <;> cases mem

/-! ### Asking -/

/-- A table may keep only its indexes that are held. -/
theorem carries_setIndexes (inside : ws.hasTable u) :
    Carries untaken t ws (ws.setIndexes u (ws.liveIndexes u)) := by
  refine .of_listed (fun _ => rfl) (fun _ => id) (fun i id _ held => ?_) fun id has => .inl ?_
  · rw [setIndexes, table_modifyTable inside]
    split
    · next same =>
      subst same
      simp [liveIndexes, held, untaken]
    · simp [untaken]
  · rwa [content_setIndexes]

/-- If the index is that of a column, its table lists it, and its stripe is there. -/
def Attended (ws : Workspace α κ) (t : TableId) (i : IndexId) : Prop :=
  ∀ id, ws.purpose? i = some (.column t id) → i ∈ (ws.table t).indexes ∧ (ws.content t).Has id

/-- Giving a name to a new index, -/
theorem Carries.named {result : IndexId × Workspace α κ} (h : Carries untaken t ws result.2)
    (new : result.2.Attended t result.1) (name : String) :
    Carries untaken t ws (Workspace.named name .index result) := by
  intro i id holds purpose
  rcases holdsIndex_bind result.2 name holds with here | held
  · obtain rfl : result.1 = i := beq_iff_eq.mp here
    exact .inl (new id purpose)
  · exact h i id held purpose

/-- or to one that is held already. -/
theorem carries_named (inside : ws.hasTable u) (held : ws.holdsIndex i) (name : String) :
    Carries untaken t ws (named name .index (i, ws.setIndexes u (ws.liveIndexes u))) :=
  (carries_setIndexes inside).undisturbed (undisturbed_bind _ name fun _ same => beq_iff_eq.mp same ▸ held)

/-- A new index of a column is listed, the column being there, and no index of a column has to make room
    for it. -/
theorem carries_register (inside : ws.hasTable u) {l : List IndexId} {index : Index α κ}
    (own : index.table = u) (part : ∀ i ∈ l, i ∈ (ws.table u).indexes)
    (room : ∀ i ∈ ws.liveIndexes u, ∀ id, ws.purpose? i = some (.column u id) → i ∈ l)
    (there : ∀ id, index.purpose = .column u id → (ws.content u).Has id) (name : String) :
    Carries untaken t ws (named name .index (ws.register u l index)) := by
  have content : (ws.register u l index).2.content = ws.content := by
    rw [register_eq, content_enlist, content_setIndexes]
  have new : (ws.register u l index).2.Attended t (ws.register u l index).1 := by
    intro id purpose
    rw [purpose?, index?_register, if_pos rfl, Option.map_some, Option.some.injEq] at purpose
    obtain rfl : t = u := by
      cases index with
      | keyed => cases purpose
      | column v x => exact (Index.Purpose.column.inj purpose).1.symm.trans own
    rw [content, indexes_register inside, if_pos rfl]
    exact ⟨List.mem_append_right l (List.mem_singleton_self _), there id purpose⟩
  refine Carries.named (fun i id holds purpose => ?_) new name
  by_cases here : i = (ws.register u l index).1
  · exact .inl (here ▸ new id (here ▸ purpose))
  · rw [purpose?, index?_register, if_neg here] at purpose
    have held : ws.holdsIndex i := holds
    refine .inr ⟨held, purpose, ?_, fun has => .inl (content ▸ has)⟩
    rw [indexes_register inside]
    split
    · next same =>
      subst same
      simp only [List.mem_append, List.mem_singleton, here, or_false, untaken, not_false_eq_true, and_true]
      exact ⟨part i, fun listed => room i (List.mem_filter.mpr ⟨listed, held⟩) id purpose⟩
    · simp [untaken]

theorem carries_indexOf [Ord α] (inside : ws.hasTable u) {column : Nat} {result : IndexId × Workspace α κ}
    (asked : ws.indexOf u column = some result) (name : String) :
    Carries untaken t ws (named name .index result) := by
  obtain ⟨id, at?, rfl⟩ := Option.map_eq_some_iff.mp asked
  cases found : (ws.liveIndexes u).find? fun i => (ws.index? i).any (·.watches id) with
  | some i =>
    have live := List.mem_filter.mp (List.mem_of_find?_eq_some found)
    simp only [found]
    exact carries_named inside live.2 name
  | none =>
    simp only [found]
    refine carries_register inside rfl (fun i mem => (List.mem_filter.mp mem).1) (fun i mem _ _ => mem)
      (fun other same => ?_) name
    rw [Index.purpose, ColumnIndex.ofContent, ColumnIndex.column_rebuild] at same
    obtain ⟨-, rfl⟩ := Index.Purpose.column.inj same
    exact ⟨.column, Stripes.mem_ids_of_idAt at?⟩

/-- A keyed index is new or takes the place of a keyed one. -/
theorem carries_keyed [Ord κ] (inside : ws.hasTable u) (label : String) (extractor : Extractor α κ)
    (name : String) : Carries untaken t ws (named name .index (ws.keyed u label extractor)) := by
  have live (i : IndexId) (mem : i ∈ ws.liveIndexes u) : i ∈ (ws.table u).indexes :=
    (List.mem_filter.mp mem).1
  simp only [Workspace.keyed]
  split
  · next i found =>
    have held := (List.mem_filter.mp (List.mem_of_find?_eq_some found)).2
    have isNamed := List.find?_some found
    split
    · exact carries_named inside held name
    · refine carries_register inside rfl (fun j mem => live j (List.mem_of_mem_erase mem))
        (fun j mem id column => ?_)
        (fun id same => ?_) name
      · refine (List.mem_erase_of_ne ?_).mpr mem
        rintro rfl
        obtain ⟨x, at?, -⟩ := purpose?_eq_column.mp column
        rw [at?] at isNamed
        cases isNamed
      · cases same
  · refine carries_register inside rfl live (fun i mem _ _ => mem) (fun id same => ?_) name
    cases same

/-! ### Editing -/

section Editing

variable [Element α] [JsonForm α] [BinaryForm α] [Ord κ]

theorem names_publish (t : TableId) (ws : Workspace α κ) (n : Notice α) :
    (publish t ws n).names = ws.names := by
  obtain ⟨served, -, names, -, published⟩ := publish_parts t ws n
  rw [published]
  split <;> exact names

/-- Telling the observers of one table takes no index off the list of another. -/
theorem indexes_publish_of_ne (apart : u ≠ t) (ws : Workspace α κ) (n : Notice α) :
    ((publish u ws n).table t).indexes = (ws.table t).indexes := by
  obtain ⟨served, tables, -, -, published⟩ := publish_parts u ws n
  have same : (served.table t).indexes = (ws.table t).indexes := by rw [table, tables, table]
  rw [published]
  split
  · rw [dropIndexes, table_modifyTable_of_ne _ apart, same]
  · exact same

variable {β : Type} {procedure : (ω : Type) → Edit α ω → β × Edit α ω} {result : β} {told : List (Notice α)}
  {final : Content α}

theorem holdsIndex_edit (comes : Edit.ComesTo procedure (ws.content u) result told final) (i : IndexId) :
    (ws.edit u (procedure _)).2.holdsIndex i = ws.holdsIndex i := by
  have names : (told.foldl (publish u) ws).names = ws.names := foldl_keeps (·.names) (names_publish u) told ws
  rw [edit_eq comes, holdsIndex, modifyTable, names, holdsIndex]

theorem purpose?_edit_eq (comes : Edit.ComesTo procedure (ws.content u) result told final) (i : IndexId) :
    (ws.edit u (procedure _)).2.purpose? i = ws.purpose? i := by
  rw [edit_eq comes]
  exact foldl_keeps (·.purpose? i) (fun ws n => purpose?_publish u ws n i) told ws

theorem carries_edit_of_ne (comes : Edit.ComesTo procedure (ws.content u) result told final) (apart : u ≠ t) :
    Carries untaken t ws (ws.edit u (procedure _)).2 := by
  have indexes : ((ws.edit u (procedure _)).2.table t).indexes = (ws.table t).indexes := by
    rw [edit_eq comes, table_modifyTable_of_ne _ apart]
    exact foldl_keeps (fun ws => (ws.table t).indexes) (indexes_publish_of_ne apart) told ws
  refine .of_listed (purpose?_edit_eq comes) (fun i held => ?_) (fun i id _ _ => ?_) fun id has => .inl ?_
  · rwa [holdsIndex_edit comes] at held
  · simp [indexes, untaken]
  · rwa [content_edit_of_ne comes apart]

/-- An index of a column that an edit is told to be taken out is let go, and all others stay on the list. -/
theorem UpToDate.carries_edit (h : ws.UpToDate) (inside : ws.hasTable t)
    (comes : Edit.ComesTo procedure (ws.content t) result told final)
    (names : ∀ id, (ws.content t).Has id ∨ (ws.content t).Gone id →
      ((∃ n ∈ told, n.event.Names .column id) ↔ taken (some .column) id))
    (has : ∀ id, (ws.content t).Has id → final.Has id ∨ ∃ direction, taken direction id) :
    Carries taken t ws (ws.edit t (procedure _)).2 := by
  have followed : ws.Followed t told (ws.edit t (procedure _)).2 := by
    rw [edit_eq comes]
    exact (Followed.publish_all (.refl inside (h.distinct t)) told).leave final
  refine .of_listed (purpose?_edit_eq comes) (fun i held => ?_) (fun i id purpose held => ?_) fun id was => ?_
  · rwa [holdsIndex_edit comes] at held
  · obtain ⟨x, found, rfl⟩ := purpose?_eq_column.mp purpose
    have known := Content.has_or_gone (h.follows i t x held found).known
    have ends : (ws.index? i).any (fun x => told.any x.ends) ↔
        ∃ n ∈ told, n.event.Names .column x.column := by
      simp only [found, Option.any_some, List.any_eq_true, Index.ends_column]
    rw [followed.listed i held, ends, names x.column known]
  · rw [content_edit comes followed.hasTable]
    exact has id was

theorem UpToDate.carries_perform (h : ws.UpToDate) (inside : ws.hasTable u) (operation : Operation α) :
    Carries (fun direction id => u = t ∧ operation.TakesOut (ws.content t) direction id) t ws
      (ws.perform u operation).2 := by
  obtain ⟨_, told, final, comes⟩ := Edit.exists_comesTo_run (h.valid u) operation
  by_cases same : u = t
  · subst same
    obtain ⟨rfl, rfl⟩ := comes.written
    refine h.carries_edit inside comes (fun id known => ?_) fun id has => ?_
    · exact (Operation.told_names_iff (h.valid u) known).trans (and_iff_right rfl).symm
    · by_cases removes : operation.Removes (ws.content u) id
      · exact .inr ⟨_, rfl, has, removes, rfl⟩
      · exact .inl (Operation.has_leaves (h.valid u) has removes)
  · exact (carries_edit_of_ne comes same).congr fun direction id => by simp [untaken, same]

theorem UpToDate.carries_attachStore (h : ws.UpToDate) (inside : ws.hasTable u) (s : StoreId) :
    Carries untaken t ws (ws.attachStore u s) := by
  have loading := undisturbed_loadStore ws u s
  have loaded := (h.undisturbed loading).upToDate
  have inside' : (ws.loadStore u s).2.hasTable u := (loading.hasTable u).trans inside
  obtain ⟨_, told, final, comes⟩ := Edit.exists_comesTo_hydrate (loaded.valid u) (ws.loadStore u s).1
  have edited : Carries untaken t (ws.loadStore u s).2
      ((ws.loadStore u s).2.edit u (Edit.hydrate (ws.loadStore u s).1)).2 := by
    by_cases same : u = t
    · subst same
      refine loaded.carries_edit inside' comes (fun id known => ?_) fun id has => .inl ?_
      · obtain ⟨unnamed, -⟩ := Edit.has_hydrate (loaded.valid u) comes known
        refine iff_of_false ?_ not_false
        rintro ⟨n, mem, names⟩
        exact unnamed n mem .column names
      · exact (Edit.has_hydrate (loaded.valid u) comes (.inl has)).2 has
    · exact carries_edit_of_ne comes same
  exact (loading.carries.trans edited).undisturbed ((Undisturbed.foldl (undisturbed_push u s) _ _).trans
    (.modifyTable (fun _ => rfl) (fun _ => rfl)))

end Editing

/-! ### Actions -/

section Runs

variable [Element α] [JsonForm α] [BinaryForm α] [Ord κ]

/-- An action takes a stripe out of a table. -/
def Action.TakesOut (ws : Workspace α κ) (t : TableId) (direction : Option Axis) (id : StripeId)
    (action : Action α κ) : Prop :=
  ∃ operation, action = .on t (.perform operation) ∧ operation.TakesOut (ws.content t) direction id

omit [Element α] [JsonForm α] [BinaryForm α] [Ord κ] in
theorem Action.takesOut_perform {direction : Option Axis} {operation : Operation α} :
    (Action.on u (.perform operation)).TakesOut ws t direction id ↔
      u = t ∧ operation.TakesOut (ws.content t) direction id := by
  constructor
  · rintro ⟨_, same, takes⟩
    cases same
    exact ⟨rfl, takes⟩
  · rintro ⟨rfl, takes⟩
    exact ⟨operation, rfl, takes⟩

omit [Element α] [JsonForm α] [BinaryForm α] [Ord κ] in
/-- What is no operation on the table takes nothing out of it. -/
theorem Carries.idle (h : Carries untaken t ws ws') {action : Action α κ}
    (idle : ∀ operation, action = .on t (.perform operation) → ¬ws.hasTable t) :
    Carries (fun direction id => action.TakesOut ws t direction id) t ws ws' := by
  refine h.congr fun direction id => iff_of_false not_false ?_
  rintro ⟨operation, performs, ⟨axis, mem⟩, -⟩
  exact idle operation performs (hasTable_of_mem mem)

theorem UpToDate.carries_act (h : ws.UpToDate) (action : Action α κ) :
    Carries (fun direction id => action.TakesOut ws t direction id) t ws (ws.act action) := by
  have effect := effect_act ws action
  generalize ws.act action = ws' at effect ⊢
  cases effect with
  | undisturbed same idle => exact same.carries.idle (idle t)
  | @made origin changes _ _ same =>
    have made : Carries untaken t ws (ws.addTable { content := Content.run origin changes }).2 :=
      carries_addTable rfl
    exact (made.undisturbed same).idle nofun
  | @cloned u _ _ same =>
    have copied : Carries untaken t ws (ws.cloneTable u).2 := carries_addTable rfl
    exact (copied.undisturbed same).idle nofun
  | @turned u _ _ same =>
    have copied : Carries untaken t ws (ws.cloneTable u).2 := carries_addTable rfl
    have continues : ws.Continues (ws.cloneTable u).2 := h.addTable (h.valid u) rfl
    have turned :
        Carries untaken t (ws.cloneTable u).2
          ((ws.cloneTable u).2.perform (ws.cloneTable u).1 .transpose).2 :=
      (continues.upToDate.carries_perform (hasTable_new ws _) .transpose).congr fun direction id =>
        iff_of_false (fun takes => takes.2.2.1) not_false
    exact ((copied.trans turned).undisturbed same).idle nofun
  | performed inside operation =>
    exact (h.carries_perform inside operation).congr fun direction id => Action.takesOut_perform.symm
  | attached inside s => exact (h.carries_attachStore inside s).idle nofun
  | indexed inside asks asked name =>
    exact (carries_indexOf inside asked name).idle fun operation same =>
      absurd (Action.on.inj same).2 (asks operation)
  | keyed inside label extractor name => exact (carries_keyed inside label extractor name).idle nofun

/-! ### Runs -/

/-- An operation of a run took the stripe out. -/
def TakenOut (actions : List (Action α κ)) (t : TableId) (direction : Option Axis) (id : StripeId) : Prop :=
  ∃ before action after, actions = before ++ action :: after ∧ action.TakesOut (run before) t direction id

variable {actions before : List (Action α κ)} {direction other : Option Axis}

theorem takenOut_concat {action : Action α κ} : TakenOut (before ++ [action]) t direction id ↔
    TakenOut before t direction id ∨ action.TakesOut (run before) t direction id := by
  constructor
  · rintro ⟨front, action', back, eq, takes⟩
    rcases List.eq_nil_or_concat back with rfl | ⟨back, last, rfl⟩
    · obtain ⟨rfl, same⟩ := List.append_inj' eq rfl
      obtain rfl := List.singleton_inj.mp same
      exact .inr takes
    · rw [List.concat_eq_append, ← List.cons_append, ← List.append_assoc] at eq
      exact .inl ⟨front, action', back, (List.append_inj' eq rfl).1, takes⟩
  · rintro (⟨front, action', back, rfl, takes⟩ | takes)
    · exact ⟨front, action', back ++ [action], by simp, takes⟩
    · exact ⟨before, action, [], rfl, takes⟩

/-- What was taken out is gone. -/
theorem TakenOut.gone (taken : TakenOut actions t direction id) : ((run actions).content t).Gone id := by
  obtain ⟨before, action, after, rfl, takes⟩ := taken
  obtain ⟨operation, rfl, ⟨axis, mem⟩, removes, -⟩ := takes
  rw [run_append, List.foldl_cons]
  exact (gone_acts (Sound.run before) mem removes after).2

/-- It was taken out once, and in one way. -/
theorem TakenOut.unique (first : TakenOut actions t direction id) (again : TakenOut actions t other id) :
    direction = other := by
  induction actions using List.reverseRecOn with
  | nil =>
    obtain ⟨before, action, after, eq, -⟩ := first
    simp at eq
  | append_singleton before action ih =>
    have not_before {way way' : Option Axis} (takes : action.TakesOut (run before) t way id) :
        ¬TakenOut before t way' id := by
      obtain ⟨_, -, has, -⟩ := takes
      exact fun taken => taken.gone.not_has has
    rcases takenOut_concat.mp first with old | new
    · rcases takenOut_concat.mp again with old' | new'
      · exact ih old old'
      · exact absurd old (not_before new')
    · rcases takenOut_concat.mp again with old' | new'
      · exact absurd old' (not_before new)
      · obtain ⟨operation, rfl, -, -, rfl⟩ := new
        obtain ⟨-, -, -, thinned⟩ := Action.takesOut_perform.mp new'
        exact thinned

theorem TakenOut.append (taken : TakenOut actions t direction id) (later : List (Action α κ)) :
    TakenOut (actions ++ later) t direction id := by
  obtain ⟨before, action, after, rfl, takes⟩ := taken
  exact ⟨before, action, after ++ later, by simp, takes⟩

variable [Std.LawfulEqOrd α] [Std.TransOrd α] [Std.LawfulEqOrd κ] [Std.TransOrd κ]

/-- An index of a column that is held is on the list unless its stripe was taken out as a column, and its
    stripe is there unless it was taken out. -/
theorem carried_run (actions : List (Action α κ)) (held : (run actions).holdsIndex i)
    (purpose : (run actions).purpose? i = some (.column t id)) :
    (i ∈ ((run actions).table t).indexes ↔ ¬TakenOut actions t (some .column) id) ∧
      (((run actions).content t).Has id ∨ ∃ direction, TakenOut actions t direction id) := by
  -- on the last action, for what it takes out depends on all that was done before
  induction actions using List.reverseRecOn with
  | nil => simp [run, holdsIndex] at held
  | append_singleton before action ih =>
    have step : run (before ++ [action]) = (run before).act action := by simp [run]
    rw [step] at held purpose
    rcases (upToDate_run before).carries_act action i id held purpose with
      ⟨listed, has⟩ | ⟨held, purpose, listed, has⟩
    · rw [← step] at listed has
      exact ⟨⟨fun _ taken => taken.gone.not_has has, fun _ => listed⟩, .inl has⟩
    · obtain ⟨listed_before, has_before⟩ := ih held purpose
      rw [step, takenOut_concat, not_or, ← listed_before]
      refine ⟨listed, ?_⟩
      rcases has_before with was | ⟨direction, taken⟩
      · exact (has was).imp_right (Exists.imp fun direction takes => takenOut_concat.mpr (.inr takes))
      · exact .inr ⟨direction, takenOut_concat.mpr (.inl taken)⟩

/-- An index is counted though the stripe that it is of is not there. -/
def Dead (ws : Workspace α κ) (t : TableId) (i : IndexId) (id : StripeId) : Prop :=
  i ∈ ws.liveIndexes t ∧ ¬(ws.content t).Has id

theorem counted_run (actions : List (Action α κ)) (held : (run actions).holdsIndex i)
    (purpose : (run actions).purpose? i = some (.column t id)) :
    i ∈ (run actions).liveIndexes t ↔ ¬TakenOut actions t (some .column) id := by
  rw [liveIndexes, List.mem_filter, and_iff_left held]
  exact (carried_run actions held purpose).1

theorem has_run (actions : List (Action α κ)) (held : (run actions).holdsIndex i)
    (purpose : (run actions).purpose? i = some (.column t id)) :
    ((run actions).content t).Has id ↔ ∀ direction, ¬TakenOut actions t direction id := by
  constructor
  · exact fun has direction taken => taken.gone.not_has has
  · exact fun untaken => (carried_run actions held purpose).2.resolve_right (not_exists.mpr untaken)

theorem dead_run (actions : List (Action α κ)) (held : (run actions).holdsIndex i)
    (purpose : (run actions).purpose? i = some (.column t id)) :
    (run actions).Dead t i id ↔ TakenOut actions t (some .row) id ∨ TakenOut actions t none id := by
  rw [Dead, counted_run actions held purpose, has_run actions held purpose]
  constructor
  · rintro ⟨uncolumned, taken⟩
    obtain ⟨direction, taken⟩ := not_forall_not.mp taken
    rcases direction with _ | _ | _
    · exact .inr taken
    · exact .inl taken
    · exact absurd taken uncolumned
  · have only {way : Option Axis} (taken : TakenOut actions t way id) (other : way ≠ some .column) :
        ¬TakenOut actions t (some .column) id ∧ ¬∀ direction, ¬TakenOut actions t direction id :=
      ⟨fun column => other (taken.unique column), not_forall_not.mpr ⟨way, taken⟩⟩
    rintro (taken | taken)
    · exact only taken (by simp)
    · exact only taken (by simp)

/-- After every run, an index of a column that some name holds is counted unless its stripe was taken out
    as a column, and its stripe is there unless it was taken out at all.  So it is counted without its
    stripe exactly if the stripe was taken out as a row or with all others; and then it is counted,
    empty, for as long as some name holds it, whatever else is done. -/
theorem run_index_pruned (actions : List (Action α κ)) {x : ColumnIndex α} (held : (run actions).holdsIndex i)
    (found : (run actions).index? i = some (.column t x)) :
    (i ∈ (run actions).liveIndexes t ↔ ¬TakenOut actions t (some .column) x.column) ∧
      (((run actions).content t).Has x.column ↔ ∀ direction, ¬TakenOut actions t direction x.column) ∧
      ((run actions).Dead t i x.column ↔ TakenOut actions t (some .row) x.column ∨
        TakenOut actions t none x.column) ∧
      ((run actions).Dead t i x.column → ∀ later, (run (actions ++ later)).holdsIndex i →
        (run (actions ++ later)).Dead t i x.column ∧
          ∃ x', (run (actions ++ later)).index? i = some (.column t x') ∧ x'.column = x.column ∧
            x'.groups.keyOf = [] ∧ x'.groups.rowsOf = []) := by
  have purpose : (run actions).purpose? i = some (.column t x.column) :=
    purpose?_eq_column.mpr ⟨x, found, rfl⟩
  have cause := dead_run actions held purpose
  refine ⟨counted_run actions held purpose, has_run actions held purpose, cause, fun dead later held' => ?_⟩
  have purpose' : (run (actions ++ later)).purpose? i = some (.column t x.column) := by
    rw [run_append]
    exact ((upToDate_run actions).acts later).keepsPurposes i _ purpose
  have dead' : (run (actions ++ later)).Dead t i x.column :=
    (dead_run _ held' purpose').mpr ((cause.mp dead).imp (·.append later) (·.append later))
  obtain ⟨x', found', own⟩ := purpose?_eq_column.mp purpose'
  have upToDate : (run (actions ++ later)).UpToDate := upToDate_run _
  have absent : x'.column ∉ ((run (actions ++ later)).content t).columns.ids :=
    fun mem => dead'.2 ⟨.column, own ▸ mem⟩
  exact ⟨dead', x', found', own, (upToDate.follows i t x' held' found').agrees.empty
    (upToDate.valid t) absent⟩

/-- The table is turned over, and the stripe of the index is taken out as a row; then a cell is written. -/
theorem run_index_pruned_turned :
    let actions : List (Action String RowKey) :=
      [.make (.rows [[some "a"]]) [] "t", .on ⟨0⟩ (.indexOf 0 "x"), .on ⟨0⟩ (.perform .transpose),
        .on ⟨0⟩ (.perform (.removeAt .row 0))]
    let written := actions ++ [.on ⟨0⟩ (.perform (.setElement 0 0 (some "b")))]
    (run actions).Dead ⟨0⟩ ⟨0⟩ ⟨0⟩ ∧ (run written).Dead ⟨0⟩ ⟨0⟩ ⟨0⟩ := by
  intro actions written
  have held : (run actions).holdsIndex ⟨0⟩ := by decide +kernel
  have watches : ((run actions).index? ⟨0⟩).any fun index => index.watches ⟨0⟩ && index.table == ⟨0⟩ := by
    decide +kernel
  have row : (((run (actions.take 3)).content ⟨0⟩).stripes .row).idAt 0 = some ⟨0⟩ := by decide +kernel
  have taken : TakenOut actions ⟨0⟩ (some .row) ⟨0⟩ :=
    ⟨actions.take 3, _, [], rfl, _, rfl, ⟨.row, Stripes.mem_ids_of_idAt row⟩, row, rfl⟩
  cases found : (run actions).index? ⟨0⟩ with
  | none => simp [found] at watches
  | some index =>
    cases index with
    | keyed => simp [found, Index.watches] at watches
    | column t x =>
      simp only [found, Option.any_some, Bool.and_eq_true, Index.watches, Index.table, beq_iff_eq] at watches
      obtain ⟨own, rfl⟩ := watches
      obtain ⟨-, -, cause, lasting⟩ := run_index_pruned actions held found
      rw [own] at cause lasting
      have dead := cause.mpr (.inl taken)
      exact ⟨dead, (lasting dead [_] (by decide +kernel)).1⟩

/-- A column that is removed takes its index off the list.  Its stripe removed as a row, or the table
    cleared, does not: there is no stripe any more, but the index is counted. -/
theorem run_index_unpruned :
    let indexed : List (Action String RowKey) := [.make (.rows [[some "a"]]) [] "t", .on ⟨0⟩ (.indexOf 0 "x")]
    let removed := run (indexed ++ [.on ⟨0⟩ (.perform (.removeAt .column 0))])
    let turned := run (indexed ++ [.on ⟨0⟩ (.perform .transpose), .on ⟨0⟩ (.perform (.removeAt .row 0))])
    let cleared := run (indexed ++ [.on ⟨0⟩ (.perform .clear)])
    removed.liveIndexes ⟨0⟩ = [] ∧
      turned.liveIndexes ⟨0⟩ = [⟨0⟩] ∧ ((turned.index? ⟨0⟩).any fun index => index.watches ⟨0⟩) ∧
      (turned.content ⟨0⟩).columns.ids = [⟨1⟩] ∧ (turned.content ⟨0⟩).rows.ids = [] ∧
      cleared.liveIndexes ⟨0⟩ = [⟨0⟩] ∧ ((cleared.index? ⟨0⟩).any fun index => index.watches ⟨0⟩) ∧
      (cleared.content ⟨0⟩).columns.ids = [] ∧ (cleared.content ⟨0⟩).rows.ids = [] := by
  decide +kernel

end Runs

end Workspace

end LiveTable
