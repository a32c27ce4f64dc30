import LiveTable.Proofs.Index.Column
import LiveTable.Proofs.Index.Keyed
import LiveTable.Proofs.Workspace.Frame

/-! How the indexes of a workspace follow their tables.  An index that some name holds agrees with the
    content of its table as long as the table lists it and tells it of changes.  The index of a column is
    let go of only when its column is gone, so that there is nothing more to hear; a keyed index may have
    to make room for another one and is then told nothing more.  The contents are given apart from the
    workspace, because in the middle of an edit the observers are already told of a content that the
    workspace does not have yet. -/

namespace LiveTable

/-! ### What an index is for -/

/-- What an index is for: a column of a table, or the keys of its rows under a name. -/
inductive Index.Purpose (α κ : Type) where
  | column (table : TableId) (column : StripeId)
  | keyed (table : TableId) (name : String) (extractor : Extractor α κ)

/-- The purpose that an index was made for. -/
def Index.purpose {α κ : Type} : Index α κ → Index.Purpose α κ
  | .column t x => .column t x.column
  | .keyed t x => .keyed t x.name x.extractor

/-- Following a change, an index goes on being for the same. -/
theorem Index.purpose_observe {α κ : Type} [Ord α] [Ord κ] (n : Notice α) (index : Index α κ) :
    (index.observe n).purpose = index.purpose := by
  cases index with
  | column t x => exact congrArg (Purpose.column t) (x.column_observe n)
  | keyed t x =>
    obtain ⟨name, extractor⟩ := x.observe_same n
    rw [Index.observe, Index.purpose, name, extractor, Index.purpose]

/-- An index of either kind agrees with a content. -/
def Index.Agrees {α κ : Type} [Ord α] [Ord κ] (c : Content α) : Index α κ → Prop
  | .column _ x => x.column.value < c.nextId ∧ x.Agrees c
  | .keyed _ x => x.Agrees c

end LiveTable

namespace LiveTable.Workspace

variable {α κ : Type} {ws ws' ws'' : Workspace α κ} {contents : TableId → Content α} {t : TableId}
    {i j : IndexId}

/-- What an index of a workspace is for. -/
def purpose? (ws : Workspace α κ) (i : IndexId) : Option (Index.Purpose α κ) :=
  (ws.index? i).map Index.purpose

theorem purpose?_eq_column {column : StripeId} :
    ws.purpose? i = some (.column t column) ↔ ∃ x, ws.index? i = some (.column t x) ∧ x.column = column := by
  rw [purpose?, Option.map_eq_some_iff]
  constructor
  · rintro ⟨index, found, same⟩
    cases index with
    | keyed => cases same
    | column u x =>
      obtain ⟨rfl, rfl⟩ := Index.Purpose.column.inj same
      exact ⟨x, found, rfl⟩
  · rintro ⟨x, found, rfl⟩
    exact ⟨_, found, rfl⟩

theorem purpose?_eq_keyed {name : String} {extractor : Extractor α κ} :
    ws.purpose? i = some (.keyed t name extractor) ↔
      ∃ x, ws.index? i = some (.keyed t x) ∧ x.name = name ∧ x.extractor = extractor := by
  rw [purpose?, Option.map_eq_some_iff]
  constructor
  · rintro ⟨index, found, same⟩
    cases index with
    | column => cases same
    | keyed u x =>
      obtain ⟨rfl, rfl, rfl⟩ := Index.Purpose.keyed.inj same
      exact ⟨x, found, rfl, rfl⟩
  · rintro ⟨x, found, rfl, rfl⟩
    exact ⟨_, found, rfl⟩

/-- Every index is still for the same. -/
def KeepsPurposes (ws ws' : Workspace α κ) : Prop :=
  ∀ i purpose, ws.purpose? i = some purpose → ws'.purpose? i = some purpose

namespace KeepsPurposes

theorem of_same (same : ∀ i, ws'.purpose? i = ws.purpose? i) : ws.KeepsPurposes ws' :=
  fun i _ found => (same i).trans found

theorem of_index? (same : ∀ i, ws'.index? i = ws.index? i) : ws.KeepsPurposes ws' :=
  of_same fun i => congrArg (Option.map Index.purpose) (same i)

theorem trans (first : ws.KeepsPurposes ws') (later : ws'.KeepsPurposes ws'') : ws.KeepsPurposes ws'' :=
  fun i purpose found => later i purpose (first i purpose found)

end KeepsPurposes

theorem Undisturbed.purpose? (same : ws.Undisturbed ws') (i : IndexId) : ws'.purpose? i = ws.purpose? i :=
  congrArg (Option.map Index.purpose) (same.index? i)

theorem keepsPurposes_addIndex (ws : Workspace α κ) (index : Index α κ) :
    ws.KeepsPurposes (ws.addIndex index).2 := by
  intro i purpose found
  rw [purpose?, index?_addIndex, if_neg]
  · exact found
  · rintro rfl
    rw [purpose?, index?_new] at found
    cases found

section Telling

variable [Element α] [Ord κ]

theorem purpose?_tellIndex (n : Notice α) (ws : Workspace α κ) (i j : IndexId) :
    (tellIndex n ws i).purpose? j = ws.purpose? j := by
  rw [tellIndex]
  split
  · rw [purpose?, index?_modifyIndex, purpose?]
    split
    · cases ws.index? j with
      | none => rfl
      | some index => exact congrArg some (index.purpose_observe n)
    · rfl
  · rfl

theorem purpose?_foldl_tellIndex (n : Notice α) (i : IndexId) : ∀ (l : List IndexId) (ws : Workspace α κ),
    (l.foldl (tellIndex n) ws).purpose? i = ws.purpose? i
  | [], _ => rfl
  | j :: rest, ws => (purpose?_foldl_tellIndex n i rest _).trans (purpose?_tellIndex n ws j i)

theorem tellIndex_same (n : Notice α) (ws : Workspace α κ) (i : IndexId) :
    (tellIndex n ws i).names = ws.names ∧ (tellIndex n ws i).tables = ws.tables := by
  rw [tellIndex]
  split <;> exact ⟨rfl, rfl⟩

theorem foldl_tellIndex_same (n : Notice α) : ∀ (l : List IndexId) (ws : Workspace α κ),
    (l.foldl (tellIndex n) ws).names = ws.names ∧ (l.foldl (tellIndex n) ws).tables = ws.tables
  | [], _ => ⟨rfl, rfl⟩
  | i :: rest, ws => by
    obtain ⟨names, tables⟩ := foldl_tellIndex_same n rest (tellIndex n ws i)
    obtain ⟨names', tables'⟩ := tellIndex_same n ws i
    exact ⟨names.trans names', tables.trans tables'⟩

/-- Telling indexes that are listed once tells each of them that is held once, and no other. -/
theorem index?_foldl_tellIndex (n : Notice α) (i : IndexId) :
    ∀ (l : List IndexId) (ws : Workspace α κ), l.Nodup →
    (l.foldl (tellIndex n) ws).index? i =
      if i ∈ l ∧ ws.holdsIndex i then (ws.index? i).map (Index.observe n) else ws.index? i
  | [], ws, _ => by simp
  | j :: rest, ws, distinct => by
    obtain ⟨fresh, distinct⟩ := List.nodup_cons.mp distinct
    have held : (tellIndex n ws j).holdsIndex i = ws.holdsIndex i := by
      rw [holdsIndex, (tellIndex_same n ws j).1, holdsIndex]
    rw [List.foldl_cons, index?_foldl_tellIndex n i rest _ distinct, held]
    by_cases here : i = j
    · subst here
      rw [if_neg fun both => fresh both.1, tellIndex]
      by_cases holds : ws.holdsIndex i
      · rw [if_pos holds, if_pos ⟨List.mem_cons_self, holds⟩, index?_modifyIndex, if_pos rfl]
      · rw [if_neg holds, if_neg fun both => holds both.2]
    · have same : (tellIndex n ws j).index? i = ws.index? i := by
        rw [tellIndex]
        split
        · rw [index?_modifyIndex, if_neg (Ne.symm here)]
        · rfl
      rw [same]
      simp only [List.mem_cons, here, false_or]

end Telling

section Follows

variable [Ord α] [Ord κ]

/-- The index of a column is up to date with a content, and stays so. -/
structure Follows (ws : Workspace α κ) (c : Content α) (t : TableId) (i : IndexId) (x : ColumnIndex α) :
    Prop where
  known : x.column.value < c.nextId
  agrees : x.Agrees c
  told : i ∈ (ws.table t).indexes ∨ c.Gone x.column

/-- Every table knows its own indexes, each once, and each index that is held follows its table: that of
    a column as long as there is anything to follow, and a keyed one as long as it is listed. -/
structure Tracks (ws : Workspace α κ) (contents : TableId → Content α) : Prop where
  valid : ∀ t, (contents t).Valid
  owned : ∀ t, ∀ i ∈ (ws.table t).indexes, ∃ index, ws.index? i = some index ∧ index.table = t
  distinct : ∀ t, (ws.table t).indexes.Nodup
  follows : ∀ i t x, ws.holdsIndex i → ws.index? i = some (.column t x) → ws.Follows (contents t) t i x
  keyed : ∀ t, ∀ i ∈ (ws.table t).indexes, ws.holdsIndex i → ∀ x, ws.index? i = some (.keyed t x) →
    x.Agrees (contents t)

namespace Tracks

theorem empty : ({} : Workspace α κ).Tracks ({} : Workspace α κ).content where
  valid _ := Content.valid_empty
  owned _ i mem := by simp [table] at mem
  distinct _ := List.nodup_nil
  follows i t x held := by simp [holdsIndex] at held
  keyed t i mem := by simp [table] at mem

theorem undisturbed (h : ws.Tracks contents) (same : ws.Undisturbed ws') : ws'.Tracks contents where
  valid := h.valid
  owned t i mem := by
    rw [same.indexes] at mem
    rw [same.index?]
    exact h.owned t i mem
  distinct t := same.indexes t ▸ h.distinct t
  follows i t x held index := by
    rw [same.index?] at index
    obtain ⟨known, agrees, told⟩ := h.follows i t x (same.held i held) index
    exact ⟨known, agrees, by rwa [same.indexes]⟩
  keyed t i mem held x index := by
    rw [same.indexes] at mem
    rw [same.index?] at index
    exact h.keyed t i mem (same.held i held) x index

/-- A table may let go of indexes that are not held, that are of no column or whose column is gone. -/
theorem sublist (h : ws.Tracks contents) (inside : ws.hasTable t) {f : Table α → Table α}
    (part : (f (ws.table t)).indexes.Sublist (ws.table t).indexes)
    (rest : ∀ i ∈ (ws.table t).indexes, i ∉ (f (ws.table t)).indexes → ws.holdsIndex i → ∀ x,
      ws.index? i = some (.column t x) → (contents t).Gone x.column) :
      (ws.modifyTable t f).Tracks contents := by
  have indexes (u : TableId) : ((ws.modifyTable t f).table u).indexes =
      if t = u then (f (ws.table u)).indexes else (ws.table u).indexes := by
    rw [table_modifyTable inside]
    split <;> rfl
  have listed {u : TableId} {i : IndexId} (mem : i ∈ ((ws.modifyTable t f).table u).indexes) :
      i ∈ (ws.table u).indexes := by
    rw [indexes] at mem
    split at mem
    · next same =>
      subst same
      exact part.subset mem
    · exact mem
  refine ⟨h.valid, fun u i mem => h.owned u i (listed mem), fun u => ?_, fun i u x held index => ?_,
    fun u i mem => h.keyed u i (listed mem)⟩
  · rw [indexes]
    split
    · next same =>
      subst same
      exact (h.distinct t).sublist part
    · exact h.distinct u
  · obtain ⟨known, agrees, told⟩ := h.follows i u x held index
    refine ⟨known, agrees, ?_⟩
    rw [indexes]
    split
    · next same =>
      subst same
      rcases told with listed | gone
      · by_cases kept : i ∈ (f (ws.table t)).indexes
        · exact .inl kept
        · exact .inr (rest i listed kept held x index)
      · exact .inr gone
    · exact told

end Tracks

end Follows

/-! ### Editing a table -/

theorem table_observe [Ord α] [Ord κ] (n : Notice α) (index : Index α κ) :
    (index.observe n).table = index.table := by
  cases index <;> rfl

namespace Tracks

variable [Element α] [Ord κ] {c' : Content α} {event : Event α}

omit [Element α] in
theorem valid_update [Ord α] (h : ws.Tracks contents) (valid : c'.Valid) (u : TableId) :
    (Function.update contents t c' u).Valid := by
  rw [Function.update_apply]
  split
  · exact valid
  · exact h.valid u

theorem quiet (h : ws.Tracks contents) (still : (contents t).Still c') (valid : c'.Valid) :
    ws.Tracks (Function.update contents t c') := by
  refine ⟨h.valid_update valid, h.owned, h.distinct, fun i u x holds found => ?_,
    fun u i mem holds x found => ?_⟩
  · obtain ⟨known, agrees, told⟩ := h.follows i u x holds found
    rw [Function.update_apply]
    split
    · next same =>
      subst same
      have rearranged := still.rearranged
      exact ⟨rearranged.nextId ▸ known, agrees.rearranged rearranged, told.imp_right rearranged.gone⟩
    · exact ⟨known, agrees, told⟩
  · have agrees := h.keyed u i mem holds x found
    rw [Function.update_apply]
    split
    · next same =>
      subst same
      exact agrees.still still
    · exact agrees

variable [Std.LawfulEqOrd α] [Std.TransOrd α] [Std.LawfulEqOrd κ] [Std.TransOrd κ]

/-- Telling the indexes of a table of a change makes them follow it. -/
theorem tell (h : ws.Tracks contents) (shift : (contents t).Shift event c') (valid : c'.Valid) :
    ((ws.table t).indexes.foldl (tellIndex ⟨event, c'⟩) ws).Tracks (Function.update contents t c') := by
  obtain ⟨names, tables⟩ := foldl_tellIndex_same ⟨event, c'⟩ (ws.table t).indexes ws
  have index? (i : IndexId) := index?_foldl_tellIndex ⟨event, c'⟩ i (ws.table t).indexes ws (h.distinct t)
  generalize (ws.table t).indexes.foldl (tellIndex ⟨event, c'⟩) ws = told at names tables index?
  have indexes (u : TableId) : (told.table u).indexes = (ws.table u).indexes := by rw [table, tables, table]
  have held (i : IndexId) : told.holdsIndex i = ws.holdsIndex i := by rw [holdsIndex, names, holdsIndex]
  refine ⟨h.valid_update valid, fun u i mem => ?_, fun u => indexes u ▸ h.distinct u,
    fun i u x holds found => ?_, fun u i mem holds x found => ?_⟩
  · rw [indexes] at mem
    obtain ⟨index, at?, own⟩ := h.owned u i mem
    rw [index?, at?]
    split
    · exact ⟨_, rfl, (table_observe _ index).trans own⟩
    · exact ⟨_, rfl, own⟩
  · rw [held] at holds
    rw [index?] at found
    by_cases listed : i ∈ (ws.table t).indexes
    -- it hears of the change, once since the list has no repeats
    · rw [if_pos ⟨listed, holds⟩] at found
      obtain ⟨index, at?, rfl⟩ := h.owned t i listed
      rw [at?, Option.map_some, Option.some.injEq] at found
      cases index with
      | keyed t x => simp [Index.observe] at found
      | column t old =>
        obtain ⟨rfl, rfl⟩ := Index.column.inj found
        obtain ⟨known, agrees, -⟩ := h.follows i _ old holds at?
        have stands : (Index.column t old : Index α κ).table = t := rfl
        rw [stands, Function.update_self] at *
        refine ⟨?_, agrees.observe (h.valid t) valid shift known, .inl (indexes t ▸ listed)⟩
        rw [ColumnIndex.column_observe]
        exact Nat.lt_of_lt_of_le known shift.nextId_le
    -- it hears nothing: either it is the index of another table, or its column is gone for good
    · rw [if_neg fun both => listed both.1] at found
      obtain ⟨known, agrees, told⟩ := h.follows i u x holds found
      rw [Function.update_apply]
      split
      · next same =>
        subst same
        have gone := told.resolve_left listed
        exact ⟨Nat.lt_of_lt_of_le known shift.nextId_le, agrees.gone (h.valid u) valid gone (shift.gone gone),
          .inr (shift.gone gone)⟩
      · exact ⟨known, agrees, indexes u ▸ told⟩
  · rw [indexes] at mem
    rw [held] at holds
    rw [index?] at found
    obtain ⟨index, at?, own⟩ := h.owned u i mem
    by_cases here : u = t
    · subst here
      rw [if_pos ⟨mem, holds⟩, at?, Option.map_some, Option.some.injEq] at found
      cases index with
      | column => cases found
      | keyed t old =>
        obtain ⟨rfl, rfl⟩ := Index.keyed.inj found
        rw [Function.update_self]
        exact (h.keyed t i mem holds old at?).observe (h.valid t) shift
    -- it is listed by another table, so it does not hear of this change
    · have unlisted : i ∉ (ws.table t).indexes := fun both => here <| by
        obtain ⟨index', at?', own'⟩ := h.owned t i both
        rw [at?, Option.some.injEq] at at?'
        rw [← own, at?', own']
      rw [if_neg fun both => unlisted both.1] at found
      rw [Function.update_of_ne here]
      exact h.keyed u i mem holds x found

end Tracks

section Publish

variable [Element α] [JsonForm α] [BinaryForm α] [Ord κ]

/-- Telling all observers lets the indexes follow, and then lets go of the index of a removed column. -/
theorem publish_spec (t : TableId) (ws : Workspace α κ) (n : Notice α) :
    ∃ told, ((ws.table t).indexes.foldl (tellIndex n) ws).Undisturbed told ∧
      publish t ws n =
        match n.event with
        | .removed .column _ stripe => told.dropIndexes t stripe.id
        | _ => told :=
  ⟨_, (Undisturbed.foldl (undisturbed_tellStore t n) _ _).trans
    (.foldl (undisturbed_tellHandler t n) _ _), rfl⟩

/-- Telling observers makes no table and changes no content. -/
theorem publish_frame (t : TableId) (ws : Workspace α κ) (n : Notice α) :
    (∀ u, (publish t ws n).hasTable u = ws.hasTable u) ∧ ∀ u, (publish t ws n).content u = ws.content u := by
  obtain ⟨told, others, eq⟩ := publish_spec t ws n
  have tables := (foldl_tellIndex_same n (ws.table t).indexes ws).2
  have hasTable (u : TableId) : told.hasTable u = ws.hasTable u := by
    rw [others.hasTable, Workspace.hasTable, tables, Workspace.hasTable]
  have content (u : TableId) : told.content u = ws.content u := by
    rw [others.content, Workspace.content, table, tables, Workspace.content, table]
  rw [eq]
  split
  · refine ⟨fun u => (hasTable_modifyTable _).trans (hasTable u), fun u => ?_⟩
    rw [dropIndexes]
    exact (content_modifyTable (by intro; rfl) u).trans (content u)
  · exact ⟨hasTable, content⟩

/-- The indexes that a table lists are told, each once as long as some name holds it, and no others. -/
theorem index?_publish (n : Notice α) (distinct : (ws.table t).indexes.Nodup) :
    (publish t ws n).index? i =
      if i ∈ (ws.table t).indexes ∧ ws.holdsIndex i then (ws.index? i).map (Index.observe n)
        else ws.index? i := by
  obtain ⟨told, others, eq⟩ := publish_spec t ws n
  have same := (others.index? i).trans (index?_foldl_tellIndex n i _ ws distinct)
  rw [eq]
  split <;> exact same

/-- Telling observers changes no index to one that is for something else. -/
theorem purpose?_publish (t : TableId) (ws : Workspace α κ) (n : Notice α) (i : IndexId) :
    (publish t ws n).purpose? i = ws.purpose? i := by
  obtain ⟨told, others, eq⟩ := publish_spec t ws n
  have same : told.purpose? i = ws.purpose? i := (others.purpose? i).trans (purpose?_foldl_tellIndex n i _ ws)
  rw [eq]
  split <;> exact same

theorem purpose?_edit {β : Type} (ws : Workspace α κ) (t : TableId)
    {operation : Edit α (Workspace α κ) → β × Edit α (Workspace α κ)}
    {scope : Scope} (steps : ∀ e : Edit α (Workspace α κ), e.Steps scope (operation e).2) (i : IndexId) :
    (ws.edit t operation).2.purpose? i = ws.purpose? i := by
  have kept := (steps ⟨ws.content t, ws, publish t⟩).preserve
    (P := fun e => e.tell = publish t ∧ e.observers.purpose? i = ws.purpose? i) (fun e e' step before => ?_)
    ⟨rfl, rfl⟩
  · exact kept.2
  · obtain ⟨tell, kept⟩ := before
    cases step with
    | announced =>
      subst tell
      exact ⟨rfl, (purpose?_publish t _ _ i).trans kept⟩
    | quiet => exact ⟨tell, kept⟩

variable [Std.LawfulEqOrd α] [Std.TransOrd α] [Std.LawfulEqOrd κ] [Std.TransOrd κ]

theorem Tracks.publish (h : ws.Tracks contents) (inside : ws.hasTable t) {event : Event α} {c' : Content α}
    (shift : (contents t).Shift event c') (valid : c'.Valid) :
    (publish t ws ⟨event, c'⟩).Tracks (Function.update contents t c') := by
  obtain ⟨told, others, eq⟩ := publish_spec t ws ⟨event, c'⟩
  have tracks := (h.tell shift valid).undisturbed others
  rw [eq]
  cases shift with
  | @removed axis position stripe found =>
    cases axis with
    | row => exact tracks
    | column =>
      have inside' : told.hasTable t := by
        rw [others.hasTable, Workspace.hasTable, (foldl_tellIndex_same ..).2]
        exact inside
      refine tracks.sublist inside' List.filter_sublist fun i listed dropped held x index => ?_
      have watches : x.column = stripe.id := by
        by_contra other
        refine dropped (List.mem_filter.mpr ⟨listed, ?_⟩)
        simp [held, index, Index.watches, other]
      rw [Function.update_self, watches]
      exact (h.valid t).gone_of_removed (Content.idAt_of_removed found)
  | _ => exact tracks

/-- In the middle of an edit, the observers follow the content of the edit. -/
structure MidEdit (ws : Workspace α κ) (t : TableId) (e : Edit α (Workspace α κ)) : Prop where
  tell : e.tell = publish t
  hasTable : e.observers.hasTable t
  content : ∀ u, e.observers.content u = ws.content u
  tracks : e.observers.Tracks (Function.update ws.content t e.content)

theorem MidEdit.step {e e' : Edit α (Workspace α κ)} {scope : Scope} (h : MidEdit ws t e)
    (step : Edit.Step scope e e') : MidEdit ws t e' := by
  cases step with
  | @announced c c' event observers tell shift =>
    obtain ⟨rfl, inside, content, tracks⟩ := h
    have valid : c.Valid := by simpa using tracks.valid t
    obtain ⟨hasTable, content'⟩ := publish_frame t observers ⟨event, c'⟩
    refine ⟨rfl, (hasTable t).trans inside, fun u => (content' u).trans (content u), ?_⟩
    have shift' : (Function.update ws.content t c t).Shift event c' := by rwa [Function.update_self]
    simpa only [Function.update_idem] using tracks.publish inside shift' (shift.valid valid)
  | @quiet c c' observers tell still =>
    obtain ⟨rfl, inside, content, tracks⟩ := h
    have valid : c.Valid := by simpa using tracks.valid t
    refine ⟨rfl, inside, content, ?_⟩
    have still' : (Function.update ws.content t c t).Still c' := by rwa [Function.update_self]
    simpa only [Function.update_idem] using tracks.quiet still' (still.valid valid)

/-- After an edit the indexes follow the edited content. -/
theorem Tracks.edit {β : Type} (h : ws.Tracks ws.content) (inside : ws.hasTable t)
    {operation : Edit α (Workspace α κ) → β × Edit α (Workspace α κ)}
    {scope : Scope} (steps : ∀ e : Edit α (Workspace α κ), e.Steps scope (operation e).2) :
    (ws.edit t operation).2.Tracks (ws.edit t operation).2.content := by
  have start : MidEdit ws t ⟨ws.content t, ws, Workspace.publish t⟩ :=
    ⟨rfl, inside, fun _ => rfl, by simpa using h⟩
  have done := (steps ⟨ws.content t, ws, Workspace.publish t⟩).preserve (P := MidEdit ws t)
    (fun _ _ step before => before.step step) start
  rw [Workspace.edit]
  generalize operation ⟨ws.content t, ws, Workspace.publish t⟩ = result at done
  obtain ⟨result, e⟩ := result
  have same : (e.observers.modifyTable t fun table => { table with content := e.content }).content =
      Function.update ws.content t e.content := by
    funext u
    rw [Workspace.content, table_modifyTable done.hasTable, Function.update_apply]
    by_cases here : t = u
    · rw [if_pos here, if_pos here.symm]
    · rw [if_neg here, if_neg (Ne.symm here)]
      exact done.content u
  show (e.observers.modifyTable t _).Tracks (Workspace.content _)
  rw [same]
  exact done.tracks.sublist done.hasTable (List.Sublist.refl _) fun i listed dropped => absurd listed dropped

end Publish

end LiveTable.Workspace
