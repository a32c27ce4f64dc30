import LiveTable.Proofs.Index.Following

/-! Getting an index.  Whoever asks for an index is given one that follows its table from then on, be it
    one that is held already or a new one, and the others go on following theirs.  The same holds when a
    table is added, or when a store is loaded into a table. -/

namespace LiveTable.Workspace

variable {α κ : Type} {ws ws' ws'' : Workspace α κ} {contents : TableId → Content α} {t : TableId}
    {i : IndexId}

/-! ### New indexes and tables -/

/-- Adds an index to the workspace and to a table. -/
def enlist (ws : Workspace α κ) (t : TableId) (index : Index α κ) : Workspace α κ :=
  let (i, ws) := ws.addIndex index
  ws.modifyTable t fun table => { table with indexes := table.indexes ++ [i] }

theorem register_eq (ws : Workspace α κ) (t : TableId) (live : List IndexId) (index : Index α κ) :
    ws.register t live index = ((ws.addIndex index).1, (ws.setIndexes t live).enlist t index) := by
  simp only [register, setIndexes, enlist, addIndex, modifyTable, List.modify_modify_eq]
  rfl

theorem index?_register (ws : Workspace α κ) (t : TableId) (l : List IndexId) (index : Index α κ)
    (j : IndexId) :
    (ws.register t l index).2.index? j = if j = (ws.register t l index).1 then some index else ws.index? j :=
  index?_addIndex ws index j

theorem indexes_register (inside : ws.hasTable t) (l : List IndexId) (index : Index α κ) (u : TableId) :
    ((ws.register t l index).2.table u).indexes =
      if t = u then l ++ [(ws.register t l index).1] else (ws.table u).indexes := by
  have inside' : (ws.addIndex index).2.hasTable t := inside
  simp only [register, setIndexes, table_modifyTable inside']
  split <;> rfl

section Adding

variable [Ord α] [Ord κ]

/-- A workspace where every index that is held follows its table. -/
def UpToDate (ws : Workspace α κ) : Prop := ws.Tracks ws.content

/-- One workspace comes after another: it is up to date, and every index is still for the same. -/
structure Continues (ws ws' : Workspace α κ) : Prop where
  upToDate : ws'.UpToDate
  keepsPurposes : ws.KeepsPurposes ws'

theorem Continues.refl (h : ws.UpToDate) : ws.Continues ws := ⟨h, .of_index? fun _ => rfl⟩

theorem Continues.trans (first : ws.Continues ws') (later : ws'.Continues ws'') : ws.Continues ws'' :=
  ⟨later.upToDate, first.keepsPurposes.trans later.keepsPurposes⟩

/-- The index of a column remains the index of that column. -/
theorem Continues.keepsColumns (h : ws.Continues ws') (i : IndexId) (t : TableId) (x : ColumnIndex α)
    (found : ws.index? i = some (.column t x)) :
    ∃ x', ws'.index? i = some (.column t x') ∧ x'.column = x.column :=
  purpose?_eq_column.mp (h.keepsPurposes i _ (purpose?_eq_column.mpr ⟨x, found, rfl⟩))

/-- A keyed index keeps its name and its rule for keys. -/
theorem Continues.keepsKeys (h : ws.Continues ws') (i : IndexId) (t : TableId) (x : KeyedIndex α κ)
    (found : ws.index? i = some (.keyed t x)) :
    ∃ x', ws'.index? i = some (.keyed t x') ∧ x'.name = x.name ∧ x'.extractor = x.extractor :=
  purpose?_eq_keyed.mp (h.keepsPurposes i _ (purpose?_eq_keyed.mpr ⟨x, found, rfl, rfl⟩))

theorem UpToDate.undisturbed (h : ws.UpToDate) (same : ws.Undisturbed ws') : ws.Continues ws' := by
  refine ⟨?_, .of_same same.purpose?⟩
  have contents : ws'.content = ws.content := funext same.content
  rw [UpToDate, contents]
  exact Tracks.undisturbed h same

theorem Continues.undisturbed (h : ws.Continues ws') (same : ws'.Undisturbed ws'') : ws.Continues ws'' :=
  h.trans (h.upToDate.undisturbed same)

/-- One index, held or not, is fit to be held: it follows its table from here on. -/
structure Serves (ws : Workspace α κ) (contents : TableId → Content α) (i : IndexId) : Prop where
  follows : ∀ t x, ws.index? i = some (.column t x) → ws.Follows (contents t) t i x
  keyed : ∀ t, i ∈ (ws.table t).indexes → ∀ x, ws.index? i = some (.keyed t x) → x.Agrees (contents t)

/-- A table may take a new index that agrees with its content. -/
theorem Tracks.enlist (h : ws.Tracks contents) (inside : ws.hasTable t) {index : Index α κ}
    (own : index.table = t) (new : index.Agrees (contents t)) :
    (ws.enlist t index).Tracks contents ∧ (ws.enlist t index).Serves contents (ws.addIndex index).1 := by
  have index? (j : IndexId) : (ws.enlist t index).index? j =
      if j = (ws.addIndex index).1 then some index else ws.index? j := index?_addIndex ws index j
  have held (j : IndexId) : (ws.enlist t index).holdsIndex j = ws.holdsIndex j := rfl
  have indexes (u : TableId) : ((ws.enlist t index).table u).indexes =
      if t = u then (ws.table u).indexes ++ [(ws.addIndex index).1] else (ws.table u).indexes := by
    have inside' : (ws.addIndex index).2.hasTable t := inside
    simp only [Workspace.enlist, table_modifyTable inside']
    split <;> rfl
  have fresh (u : TableId) : (ws.addIndex index).1 ∉ (ws.table u).indexes := by
    intro mem
    obtain ⟨other, found, -⟩ := h.owned u _ mem
    rw [index?_new] at found
    cases found
  generalize (ws.addIndex index).1 = i at *
  generalize ws.enlist t index = ws' at *
  have added : ws'.Serves contents i := by
    refine ⟨fun u x found => ?_, fun u _ x found => ?_⟩
    · rw [index?, if_pos rfl] at found
      obtain rfl := Option.some.inj found
      obtain rfl : u = t := own
      exact ⟨new.1, new.2, .inl (by simp [indexes])⟩
    · rw [index?, if_pos rfl] at found
      obtain rfl := Option.some.inj found
      obtain rfl : u = t := own
      exact new
  have place {u : TableId} {j : IndexId} (mem : j ∈ (ws'.table u).indexes) :
      j ∈ (ws.table u).indexes ∨ t = u ∧ j = i := by
    rw [indexes] at mem
    split at mem
    · next same => exact (List.mem_append.mp mem).imp_right fun last => ⟨same, List.mem_singleton.mp last⟩
    · exact .inl mem
  refine ⟨⟨h.valid, fun u j mem => ?_, fun u => ?_, fun j u x holds found => ?_,
    fun u j mem holds x found => ?_⟩, added⟩
  · rcases place mem with old | ⟨rfl, rfl⟩
    · have other : j ≠ i := fun same => fresh u (same ▸ old)
      rw [index?, if_neg other]
      exact h.owned u j old
    · exact ⟨index, by rw [index?, if_pos rfl], own⟩
  · rw [indexes]
    split
    · refine List.nodup_append.mpr ⟨h.distinct u, List.nodup_singleton _, ?_⟩
      rintro j mem _ last rfl
      exact fresh u (List.mem_singleton.mp last ▸ mem)
    · exact h.distinct u
  · by_cases here : j = i
    · subst here
      exact added.follows u x found
    · rw [index?, if_neg here] at found
      obtain ⟨known, agrees, told⟩ := h.follows j u x (held j ▸ holds) found
      refine ⟨known, agrees, told.imp_left fun listed => ?_⟩
      rw [indexes]
      split
      · exact List.mem_append_left _ listed
      · exact listed
  · rcases place mem with old | ⟨rfl, rfl⟩
    · have other : j ≠ i := fun same => fresh u (same ▸ old)
      rw [index?, if_neg other] at found
      exact h.keyed u j old (held j ▸ holds) x found
    · exact added.keyed t mem x found

/-- A new table without indexes is followed by none. -/
theorem UpToDate.addTable (h : ws.UpToDate) {table : Table α} (valid : table.content.Valid)
    (unindexed : table.indexes = []) : ws.Continues (ws.addTable table).2 := by
  refine ⟨?_, .of_index? fun _ => rfl⟩
  have look := table_addTable ws table
  have fresh : ws.content (ws.addTable table).1 = {} := by rw [content, table_new]
  have index? (j : IndexId) : (ws.addTable table).2.index? j = ws.index? j := rfl
  have held (j : IndexId) : (ws.addTable table).2.holdsIndex j = ws.holdsIndex j := rfl
  generalize (ws.addTable table).1 = new at *
  generalize (ws.addTable table).2 = ws' at *
  have old {u : TableId} {i : IndexId} (mem : i ∈ (ws'.table u).indexes) : ws'.table u = ws.table u := by
    rw [look] at mem ⊢
    split at mem
    · simp [unindexed] at mem
    · next other => rw [if_neg other]
  refine ⟨fun u => ?_, fun u i mem => ?_, fun u => ?_, fun i u x holds found => ?_,
    fun u i mem holds x found => ?_⟩
  · rw [content, look]
    split
    · exact valid
    · exact h.valid u
  · rw [index?]
    exact h.owned u i (old mem ▸ mem)
  · rw [look]
    split
    · rw [unindexed]
      exact List.nodup_nil
    · exact h.distinct u
  · rw [held] at holds
    rw [index?] at found
    obtain ⟨known, agrees, told⟩ := h.follows i u x holds found
    have old : u ≠ new := by
      rintro rfl
      rw [fresh] at known
      exact Nat.not_lt_zero _ known
    have same : ws'.table u = ws.table u := by rw [look, if_neg old]
    rw [content, same]
    exact ⟨known, agrees, told.imp_left fun listed => same.symm ▸ listed⟩
  · rw [content, old mem]
    exact h.keyed u i (old mem ▸ mem) (held i ▸ holds) x (index? i ▸ found)

end Adding

/-! ### Asking for an index -/

section Asking

theorem hasTable_setIndexes (l : List IndexId) : (ws.setIndexes t l).hasTable t = ws.hasTable t :=
  hasTable_modifyTable _

theorem content_setIndexes (l : List IndexId) : (ws.setIndexes t l).content = ws.content :=
  funext fun u => content_modifyTable (by intro; rfl) u

theorem content_enlist (index : Index α κ) : (ws.enlist t index).content = ws.content :=
  funext fun u => content_modifyTable (by intro; rfl) u

variable [Ord α] [Ord κ]

/-- Whoever asks gets an index that follows its table, whether or not it was held before. -/
structure Gives (ws : Workspace α κ) (result : IndexId × Workspace α κ) : Prop where
  continues : ws.Continues result.2
  serves : result.2.Serves result.2.content result.1

/-- An index that is held already follows its table. -/
theorem Tracks.serves (h : ws.Tracks contents) (held : ws.holdsIndex i) : ws.Serves contents i :=
  ⟨fun u x found => h.follows i u x held found, fun u mem x found => h.keyed u i mem held x found⟩

theorem Gives.named {result : IndexId × Workspace α κ} (h : ws.Gives result) (name : String) :
    ws.Continues (result.2.bind name (.index result.1)) := by
  obtain ⟨⟨upToDate, kept⟩, new⟩ := h
  have serves {i : IndexId} (held : (result.2.bind name (.index result.1)).holdsIndex i) :
      result.2.Serves result.2.content i := by
    rcases holdsIndex_bind result.2 name held with here | held
    · obtain rfl : result.1 = i := beq_iff_eq.mp here
      exact new
    · exact Tracks.serves upToDate held
  refine ⟨⟨upToDate.valid, upToDate.owned, upToDate.distinct, fun i u x held found => ?_,
    fun u i mem held x found => (serves held).keyed u mem x found⟩, kept⟩
  obtain ⟨known, agrees, told⟩ := (serves held).follows u x found
  exact ⟨known, agrees, told⟩

/-- A table may keep only the held ones of its indexes, without those of no column. -/
theorem UpToDate.setIndexes (h : ws.UpToDate) (inside : ws.hasTable t) {l : List IndexId}
    (part : l.Sublist (ws.table t).indexes)
    (rest : ∀ i ∈ ws.liveIndexes t, i ∉ l → ∀ x, ws.index? i ≠ some (.column t x)) :
    ws.Continues (ws.setIndexes t l) := by
  refine ⟨?_, .of_index? fun _ => rfl⟩
  rw [UpToDate, content_setIndexes]
  refine Tracks.sublist h inside part fun i listed dropped held x found => ?_
  exact absurd found (rest i (List.mem_filter.mpr ⟨listed, held⟩) dropped x)

theorem UpToDate.register (h : ws.UpToDate) (inside : ws.hasTable t) {l : List IndexId}
    (part : l.Sublist (ws.table t).indexes)
    (rest : ∀ i ∈ ws.liveIndexes t, i ∉ l → ∀ x, ws.index? i ≠ some (.column t x)) {index : Index α κ}
    (own : index.table = t) (new : index.Agrees (ws.content t)) : ws.Gives (ws.register t l index) := by
  obtain ⟨kept, -⟩ := h.setIndexes inside part rest
  rw [register_eq]
  obtain ⟨tracks, serves⟩ := Tracks.enlist kept ((hasTable_setIndexes l).trans inside) own
    (by rwa [content_setIndexes])
  refine ⟨⟨?_, (keepsPurposes_addIndex ws index).trans (.of_index? fun _ => rfl)⟩, ?_⟩
  · rwa [UpToDate, content_enlist]
  · rw [content_enlist]
    exact serves

/-- Asking for the index of a column. -/
theorem UpToDate.indexOf [Std.LawfulEqOrd α] [Std.TransOrd α] (h : ws.UpToDate) (inside : ws.hasTable t)
    {column : Nat} {result : IndexId × Workspace α κ}
    (asked : ws.indexOf t column = some result) : ws.Gives result := by
  obtain ⟨id, at?, rfl⟩ := Option.map_eq_some_iff.mp asked
  have kept : ∀ i ∈ ws.liveIndexes t, i ∉ ws.liveIndexes t → ∀ x, ws.index? i ≠ some (.column t x) :=
    fun i mem out => absurd mem out
  cases found : (ws.liveIndexes t).find? fun i => (ws.index? i).any (·.watches id) with
  | some i =>
    have live := List.mem_of_find?_eq_some found
    have continues := h.setIndexes inside List.filter_sublist kept
    simp only [found]
    exact ⟨continues, Tracks.serves continues.upToDate (List.mem_filter.mp live).2⟩
  | none =>
    simp only [found]
    refine h.register inside List.filter_sublist kept rfl ⟨?_, ColumnIndex.agrees_rebuild (h.valid t) _⟩
    rw [ColumnIndex.ofContent, ColumnIndex.column_rebuild]
    have column : id ∈ ((ws.content t).stripes .column).ids := Stripes.mem_ids_of_idAt at?
    exact (h.valid t).below column

/-- What is given is the index of the column that was asked for. -/
theorem UpToDate.index?_indexOf (h : ws.UpToDate) {column : Nat} {result : IndexId × Workspace α κ}
    (asked : ws.indexOf t column = some result) :
    ∃ x, result.2.index? result.1 = some (.column t x) ∧
      (ws.content t).columns.idAt column = some x.column := by
  obtain ⟨id, at?, rfl⟩ := Option.map_eq_some_iff.mp asked
  cases found : (ws.liveIndexes t).find? fun i => (ws.index? i).any (·.watches id) with
  | some i =>
    have listed := (List.mem_filter.mp (List.mem_of_find?_eq_some found)).1
    obtain ⟨index, here, own⟩ := h.owned t i listed
    have watches := List.find?_some found
    rw [here] at watches
    cases index with
    | keyed => cases watches
    | column u x =>
      obtain rfl : u = t := own
      obtain rfl : x.column = id := beq_iff_eq.mp watches
      simp only [found]
      exact ⟨x, here, at?⟩
  | none =>
    simp only [found]
    refine ⟨_, (index?_addIndex ws _ _).trans (if_pos rfl), ?_⟩
    rw [ColumnIndex.ofContent, ColumnIndex.column_rebuild]
    exact at?

/-- Asking for a keyed index, which may take the place of another one but never of the index of a column. -/
theorem UpToDate.keyed [Std.LawfulEqOrd κ] [Std.TransOrd κ] (h : ws.UpToDate) (inside : ws.hasTable t)
    (name : String) (extractor : Extractor α κ) : ws.Gives (ws.keyed t name extractor) := by
  have kept : ∀ i ∈ ws.liveIndexes t, i ∉ ws.liveIndexes t → ∀ x, ws.index? i ≠ some (.column t x) :=
    fun i mem out => absurd mem out
  have new : (Index.keyed t (KeyedIndex.ofContent name extractor (ws.content t))).Agrees (ws.content t) :=
    KeyedIndex.agrees_rebuild _ _
  simp only [Workspace.keyed]
  split
  · next i found =>
    have live := List.mem_of_find?_eq_some found
    have isNamed := List.find?_some found
    split
    · have continues := h.setIndexes inside List.filter_sublist kept
      exact ⟨continues, Tracks.serves continues.upToDate (List.mem_filter.mp live).2⟩
    · refine h.register inside (List.erase_sublist.trans List.filter_sublist)
        (fun j mem out x here => ?_) rfl new
      obtain rfl : j = i := by
        by_contra other
        exact out ((List.mem_erase_of_ne other).mpr mem)
      rw [here] at isNamed
      cases isNamed
  · exact h.register inside List.filter_sublist kept rfl new

end Asking

/-! ### Editing a table -/

section Editing

variable [Element α] [JsonForm α] [BinaryForm α] [Ord κ] [Std.LawfulEqOrd α] [Std.TransOrd α]
  [Std.LawfulEqOrd κ] [Std.TransOrd κ]

theorem UpToDate.edit {β : Type} (h : ws.UpToDate) (inside : ws.hasTable t)
    {operation : Edit α (Workspace α κ) → β × Edit α (Workspace α κ)}
    {scope : Scope} (steps : ∀ e : Edit α (Workspace α κ), e.Steps scope (operation e).2) :
    ws.Continues (ws.edit t operation).2 :=
  ⟨Tracks.edit h inside steps, .of_same (purpose?_edit ws t steps)⟩

theorem UpToDate.perform (h : ws.UpToDate) (inside : ws.hasTable t) (operation : Operation α) :
    ws.Continues (ws.perform t operation).2 :=
  h.edit inside fun e => Edit.steps_run e operation

/-- Attaching a store edits the table by the rows of the store, and tells nobody but the store of the
    others. -/
theorem UpToDate.attachStore (h : ws.UpToDate) (inside : ws.hasTable t) (s : StoreId) :
    ws.Continues (ws.attachStore t s) := by
  have loading := undisturbed_loadStore ws t s
  have loaded := h.undisturbed loading
  have inside' : (ws.loadStore t s).2.hasTable t := (loading.hasTable t).trans inside
  have edited := loaded.trans
    (loaded.upToDate.edit inside' fun e => Edit.steps_hydrate e (ws.loadStore t s).1)
  exact edited.undisturbed ((Undisturbed.foldl (undisturbed_push t s) _ _).trans
    (.modifyTable (fun _ => rfl) (fun _ => rfl)))

end Editing

end LiveTable.Workspace
