import LiveTable.Proofs.Workspace.Sound
import LiveTable.Proofs.Workspace.Spares

/-! How the content of a table goes on while things are done to the workspace.  A table that was made
    stays there.  An operation on it makes of its content what the same operation makes of a table that
    nobody observes, loading a store puts the rows of the store in, and all else, be it done to this
    table or to another, leaves the content alone. -/

namespace LiveTable.Workspace

variable {α κ : Type} [Element α] [JsonForm α] [BinaryForm α] [Ord κ] {ws : Workspace α κ} {t u : TableId}

/-- What an action makes of the content of a table. -/
inductive Evolves (t : TableId) (c : Content α) : Action α κ → Content α → Prop where
  | performed (operation : Operation α) :
      Evolves t c (.on t (.perform operation)) (operation.run (Edit.unobserved c)).2.content
  | loaded (s : StoreId) (stored : List (Option Nat × List (Option α))) :
      Evolves t c (.on t (.attachStore s)) ((Edit.unobserved c).hydrate stored).2.content
  | untouched (action : Action α κ) : Evolves t c action c

/-- A table that was there before an action is there after it, and its content has gone on as the action
    says. -/
def Outlasts (t : TableId) (ws : Workspace α κ) (action : Action α κ) (ws' : Workspace α κ) : Prop :=
  ws.hasTable t → ws'.hasTable t ∧ Evolves t (ws.content t) action (ws'.content t)

namespace Outlasts

variable {ws' : Workspace α κ} {action : Action α κ}

omit [JsonForm α] [BinaryForm α] [Ord κ] in
theorem of_same (hasTable : ws.hasTable t → ws'.hasTable t)
    (content : ws.hasTable t → ws'.content t = ws.content t) : Outlasts t ws action ws' := by
  intro there
  rw [content there]
  exact ⟨hasTable there, .untouched action⟩

omit [JsonForm α] [BinaryForm α] [Ord κ] in
theorem undisturbed (same : ws.Undisturbed ws') : Outlasts t ws action ws' :=
  of_same (fun there => (same.hasTable t).trans there) fun _ => same.content t

omit [JsonForm α] [BinaryForm α] [Ord κ] in
theorem undisturbed_after {ws'' : Workspace α κ} (h : Outlasts t ws action ws')
    (same : ws'.Undisturbed ws'') : Outlasts t ws action ws'' := by
  intro there
  obtain ⟨there', evolves⟩ := h there
  exact ⟨(same.hasTable t).trans there', same.content t ▸ evolves⟩

omit [JsonForm α] [BinaryForm α] [Ord κ] in
theorem spared {s : StoreId} (same : Spares t s ws ws') : Outlasts t ws action ws' :=
  of_same same.hasTable same.content

end Outlasts

omit [Element α] [JsonForm α] [BinaryForm α] [Ord κ] in
/-- Only a table that is there has stripes. -/
theorem hasTable_of_mem {i : StripeId} {axis : Axis} (mem : i ∈ ((ws.content t).stripes axis).ids) :
    ws.hasTable t := by
  by_contra absent
  have beyond : ws.tables.length ≤ t.value := by simpa [hasTable] using absent
  rw [content, table, List.getElem?_eq_none beyond, Option.getD_none] at mem
  have empty : (({} : Content α).stripes axis).ids = [] := by cases axis <;> rfl
  rw [empty] at mem
  cases mem

/-! ### Edits -/

section Edits

variable {β : Type} {procedure : (ω : Type) → Edit α ω → β × Edit α ω} {result : β} {told : List (Notice α)}
  {final : Content α}

theorem hasTable_edit (comes : Edit.ComesTo procedure (ws.content u) result told final) (t : TableId) :
    (ws.edit u (procedure _)).2.hasTable t = ws.hasTable t := by
  rw [edit_eq comes, hasTable_modifyTable, hasTable_publish_all]

/-- An edit of another table. -/
theorem content_edit_of_ne (comes : Edit.ComesTo procedure (ws.content u) result told final) (apart : u ≠ t) :
    (ws.edit u (procedure _)).2.content t = ws.content t := by
  rw [edit_eq comes, ← content_publish_all told ws t, content, table_modifyTable_of_ne _ apart, content]

omit [Element α] [JsonForm α] [BinaryForm α] [Ord κ] in
/-- What a procedure comes to is what it leaves of a table that nobody observes. -/
theorem content_unobserved {c : Content α} (comes : Edit.ComesTo procedure c result told final) :
    (procedure _ (Edit.unobserved c)).2.content = final := by
  rw [Edit.unobserved, comes.eq]

end Edits

/-- What an operation makes of the content of a table, the others being left alone. -/
theorem content_perform (h : ws.Sound) (there : ws.hasTable t) (operation : Operation α) :
    (ws.perform t operation).2.content t = (operation.run (Edit.unobserved (ws.content t))).2.content := by
  obtain ⟨_, _, _, comes⟩ := Edit.exists_comesTo_run (h t) operation
  exact (content_edit comes ((hasTable_edit comes t).trans there)).trans (content_unobserved comes).symm

theorem outlasts_perform (h : ws.Sound) (u : TableId) (operation : Operation α) :
    Outlasts t ws (.on u (.perform operation)) (ws.perform u operation).2 := by
  intro there
  obtain ⟨_, _, _, comes⟩ := Edit.exists_comesTo_run (h u) operation
  refine ⟨(hasTable_edit comes t).trans there, ?_⟩
  by_cases same : u = t
  · subst same
    rw [content_perform h there]
    exact .performed operation
  · have unchanged : (ws.perform u operation).2.content t = ws.content t := content_edit_of_ne comes same
    rw [unchanged]
    exact .untouched _

theorem outlasts_attachStore (h : ws.Sound) (u : TableId) (s : StoreId) :
    Outlasts t ws (.on u (.attachStore s)) (ws.attachStore u s) := by
  intro there
  have loading := undisturbed_loadStore ws u s
  have there' : (ws.loadStore u s).2.hasTable t := (loading.hasTable t).trans there
  obtain ⟨_, _, final, comes⟩ := Edit.exists_comesTo_hydrate (h.undisturbed loading u) (ws.loadStore u s).1
  have listing : ((ws.loadStore u s).2.edit u (Edit.hydrate (ws.loadStore u s).1)).2.Undisturbed
      (ws.attachStore u s) :=
    (Undisturbed.foldl (undisturbed_push u s) _ _).trans (.modifyTable (fun _ => rfl) (fun _ => rfl))
  have edited := (hasTable_edit comes t).trans there'
  refine ⟨(listing.hasTable t).trans edited, ?_⟩
  rw [listing.content]
  by_cases same : u = t
  · subst same
    have final_eq := content_edit comes edited
    have hydrated := content_unobserved comes
    rw [loading.content] at hydrated
    rw [final_eq, ← hydrated]
    exact .loaded s _
  · rw [content_edit_of_ne comes same, loading.content]
    exact .untouched _

/-- The copy is a table of its own, and only the copy is turned over. -/
theorem outlasts_transposedCopy {action : Action α κ} (h : ws.Sound) (u : TableId) :
    Outlasts t ws action (ws.transposedCopy u).2 := by
  intro there
  have added : Spares t ⟨0⟩ ws (ws.cloneTable u).2 := .addTable rfl
  have copied : (ws.cloneTable u).2.Sound := h.addTable (h u)
  obtain ⟨_, _, _, comes⟩ := Edit.exists_comesTo_run (copied (ws.cloneTable u).1) .transpose
  have apart : (ws.cloneTable u).1 ≠ t := by
    rintro rfl
    simp [hasTable, cloneTable, addTable] at there
  have same : (ws.transposedCopy u).2.content t = ws.content t :=
    (content_edit_of_ne comes apart).trans (added.content there)
  have stays : (ws.transposedCopy u).2.hasTable t := (hasTable_edit comes t).trans (added.hasTable there)
  have leaves : Outlasts t ws action (ws.transposedCopy u).2 := .of_same (fun _ => stays) fun _ => same
  exact leaves there

/-! ### Actions -/

theorem outlasts_act (h : ws.Sound) (action : Action α κ) : Outlasts t ws action (ws.act action) := by
  have effect := effect_act ws action
  generalize ws.act action = ws' at effect ⊢
  cases effect with
  | undisturbed same => exact .undisturbed same
  | @made origin changes _ _ same =>
    have added : Spares t ⟨0⟩ ws (ws.addTable { content := Content.run origin changes }).2 := .addTable rfl
    exact (Outlasts.spared added).undisturbed_after same
  | @cloned u _ _ same =>
    have added : Spares t ⟨0⟩ ws (ws.cloneTable u).2 := .addTable rfl
    exact (Outlasts.spared added).undisturbed_after same
  | @turned u _ _ same => exact (outlasts_transposedCopy h u).undisturbed_after same
  | @performed u _ operation => exact outlasts_perform h u operation
  | @attached u _ s => exact outlasts_attachStore h u s
  | indexed _ _ asked name => exact .spared (s := ⟨0⟩) (spares_named name _ (spares_indexOf asked))
  | keyed _ label extractor name =>
    exact .spared (s := ⟨0⟩) (spares_named name _ (spares_keyed label extractor ws))

theorem run_append (actions later : List (Action α κ)) :
    run (actions ++ later) = later.foldl Workspace.act (run actions) :=
  List.foldl_append

theorem Sound.acts (h : ws.Sound) (actions : List (Action α κ)) : (actions.foldl Workspace.act ws).Sound := by
  induction actions generalizing ws with
  | nil => exact h
  | cons action rest ih => exact ih (h.act action)

/-- What every way of going on preserves, any number of actions preserve. -/
theorem preserved_acts {P : Content α → Prop} (h : ws.Sound) (there : ws.hasTable t)
    (each : ∀ {c c' : Content α} {action : Action α κ}, c.Valid → Evolves t c action c' → P c → P c')
    (start : P (ws.content t)) (actions : List (Action α κ)) :
    (actions.foldl Workspace.act ws).hasTable t ∧ P ((actions.foldl Workspace.act ws).content t) := by
  induction actions generalizing ws with
  | nil => exact ⟨there, start⟩
  | cons action rest ih =>
    obtain ⟨there', evolves⟩ := outlasts_act h action there
    exact ih (h.act action) there' (each (h t) evolves start)

end LiveTable.Workspace
