import LiveTable.Proofs.Edit.Script
import LiveTable.Proofs.Workspace.Run

/-! Every table of a workspace is well-formed, whatever is done.  An edit tells its notices one after the
    other and then leaves a content that is well-formed again; all other actions leave the contents as
    they are or add a table with one that was made by changes. -/

namespace LiveTable.Workspace

variable {α κ : Type} {ws ws' : Workspace α κ}

/-- Every table is well-formed. -/
def Sound (ws : Workspace α κ) : Prop := ∀ u, (ws.content u).Valid

namespace Sound

theorem undisturbed (h : ws.Sound) (same : ws.Undisturbed ws') : ws'.Sound := fun u => by
  rw [same.content]
  exact h u

theorem addTable (h : ws.Sound) {table : Table α} (valid : table.content.Valid) :
    (ws.addTable table).2.Sound := by
  intro u
  rw [content, table_addTable]
  split
  · exact valid
  · exact h u

theorem setIndexes (h : ws.Sound) (t : TableId) (live : List IndexId) : (ws.setIndexes t live).Sound := by
  intro u
  rw [content_setIndexes]
  exact h u

theorem register (h : ws.Sound) (t : TableId) (live : List IndexId) (index : Index α κ) :
    (ws.register t live index).2.Sound := by
  intro u
  rw [register_eq, content_enlist, content_setIndexes]
  exact h u

theorem keyed [Ord κ] (h : ws.Sound) (t : TableId) (name : String) (extractor : Extractor α κ) :
    (ws.keyed t name extractor).2.Sound := by
  simp only [Workspace.keyed]
  split
  · split
    · exact h.setIndexes t _
    · exact h.register t _ _
  · exact h.register t _ _

theorem indexOf [Ord α] (h : ws.Sound) {t : TableId} {column : Nat} {result : IndexId × Workspace α κ}
    (asked : ws.indexOf t column = some result) : result.2.Sound := by
  obtain ⟨id, -, rfl⟩ := Option.map_eq_some_iff.mp asked
  dsimp only
  split
  · exact h.setIndexes t _
  · exact h.register t _ _

end Sound

variable [Element α] [JsonForm α] [BinaryForm α] [Ord κ]

/-! ### Edits -/

section Edits

variable {β : Type} {procedure : (ω : Type) → Edit α ω → β × Edit α ω} {result : β} {told : List (Notice α)}
  {final : Content α} {t : TableId}

/-- An edit tells all its notices, and then the table has the content that it leaves. -/
theorem edit_eq (comes : Edit.ComesTo procedure (ws.content t) result told final) :
    ws.edit t (procedure _) =
      (result, (told.foldl (publish t) ws).modifyTable t fun table => { table with content := final }) := by
  rw [edit, comes.eq]

/-- An operation gives its notices one after the other, and then the table has the content that it leaves. -/
theorem perform_eq (ws : Workspace α κ) (t : TableId) (operation : Operation α) :
    ws.perform t operation = (operation.result (ws.content t),
      ((operation.told (ws.content t)).foldl (publish t) ws).modifyTable t fun table =>
        { table with content := operation.leaves (ws.content t) }) := by
  obtain ⟨result, content, observers⟩ := operation.run_spec ⟨ws.content t, ws, publish t⟩
  simp only [perform, edit, result, content, observers]

theorem content_publish_all (told : List (Notice α)) (ws : Workspace α κ) (v : TableId) :
    (told.foldl (publish t) ws).content v = ws.content v := by
  induction told generalizing ws with
  | nil => rfl
  | cons n rest ih => exact (ih _).trans ((publish_frame t ws n).2 v)

theorem hasTable_publish_all (told : List (Notice α)) (ws : Workspace α κ) (v : TableId) :
    (told.foldl (publish t) ws).hasTable v = ws.hasTable v := by
  induction told generalizing ws with
  | nil => rfl
  | cons n rest ih => exact (ih _).trans ((publish_frame t ws n).1 v)

theorem hasTable_perform {u : TableId} (there : ws.hasTable u) (operation : Operation α) :
    (ws.perform t operation).2.hasTable u := by
  rw [perform_eq, hasTable_modifyTable, hasTable_publish_all]
  exact there

/-- An operation on a table that is there leaves it with the content that the operation leaves. -/
theorem content_perform_eq (there : ws.hasTable t) (operation : Operation α) :
    (ws.perform t operation).2.content t = operation.leaves (ws.content t) := by
  have after : ((operation.told (ws.content t)).foldl (publish t) ws).hasTable t :=
    (hasTable_publish_all _ ws t).trans there
  rw [perform_eq, content, table_modifyTable after, if_pos rfl]

/-- An edit leaves the table with the content that its procedure comes to. -/
theorem content_edit (comes : Edit.ComesTo procedure (ws.content t) result told final)
    (there : (ws.edit t (procedure _)).2.hasTable t) : (ws.edit t (procedure _)).2.content t = final := by
  rw [edit_eq comes, hasTable_modifyTable] at there
  rw [edit_eq comes, content, table_modifyTable there, if_pos rfl]

theorem Sound.edit (h : ws.Sound) (comes : Edit.ComesTo procedure (ws.content t) result told final) :
    (ws.edit t (procedure _)).2.Sound := by
  intro v
  rw [edit_eq comes]
  generalize hw : told.foldl (publish t) ws = ws₁
  have before : (ws₁.content v).Valid := by
    rw [← hw, content_publish_all]
    exact h v
  rw [content, table, modifyTable, List.getElem?_modify]
  rw [content, table] at before
  cases there : ws₁.tables[v.value]? with
  | none => simpa [there] using before
  | some table =>
    by_cases here : t.value = v.value
    · simpa [there, here] using comes.valid
    · simpa [there, here] using before

end Edits

/-! ### Actions -/

namespace Sound

theorem perform (h : ws.Sound) (t : TableId) (operation : Operation α) :
    (ws.perform t operation).2.Sound := by
  obtain ⟨_, _, _, comes⟩ := Edit.exists_comesTo_run (h t) operation
  exact h.edit comes

theorem attachStore (h : ws.Sound) (t : TableId) (s : StoreId) : (ws.attachStore t s).Sound := by
  have loaded := h.undisturbed (undisturbed_loadStore ws t s)
  obtain ⟨_, _, _, comes⟩ := Edit.exists_comesTo_hydrate (loaded t) (ws.loadStore t s).1
  exact (loaded.edit comes).undisturbed ((Undisturbed.foldl (undisturbed_push t s) _ _).trans
    (.modifyTable (fun _ => rfl) (fun _ => rfl)))

theorem act (h : ws.Sound) (action : Action α κ) : (ws.act action).Sound := by
  have effect := effect_act ws action
  generalize ws.act action = ws' at effect ⊢
  cases effect with
  | undisturbed same => exact h.undisturbed same
  | @made origin changes _ _ same => exact (h.addTable (Content.valid_run origin changes)).undisturbed same
  | @cloned u _ _ same =>
    have copied : (ws.cloneTable u).2.Sound := h.addTable (h u)
    exact copied.undisturbed same
  | @turned u _ _ same =>
    have copied : (ws.cloneTable u).2.Sound := h.addTable (h u)
    exact (copied.perform _ .transpose).undisturbed same
  | @performed u _ operation => exact h.perform u operation
  | @attached u _ s => exact h.attachStore u s
  | indexed _ _ asked => exact h.indexOf asked
  | @keyed u _ label extractor => exact h.keyed u label extractor

theorem run (actions : List (Action α κ)) : (Workspace.run actions).Sound := by
  have start : ({} : Workspace α κ).Sound := fun _ => Content.valid_empty
  rw [Workspace.run]
  generalize ({} : Workspace α κ) = ws at start ⊢
  induction actions generalizing ws with
  | nil => exact start
  | cons action rest ih => exact ih _ (start.act action)

end Sound

end LiveTable.Workspace
