import LiveTable.Proofs.Handle.Counting
import LiveTable.Proofs.Handle.Reading
import LiveTable.Proofs.Workspace.Evolution

/-! What the modified flag of a handle tells.  No revision ever gets smaller, and a stripe with the
    revision that it had when the handle was made has the same title and the same element with each
    stripe that it crosses.  The one change that goes by unnoticed is a change of the order of rows while
    the stripe is a column: exchanging, moving or sorting rows is counted by no column, while exchanging
    columns is counted by every row. -/

namespace LiveTable

open Content (Counts)

variable {α κ : Type}

/-! ### Operations -/

/-- Whether an operation through a reference can change the order of the rows. -/
def StripeOperation.reordersRows (h : StripeRef) : StripeOperation α → Bool
  | .switchWith _ => h.axis == .row
  | .moveTo _ => true
  | _ => false

/-- Whether an operation can change the order of the rows. -/
def Operation.reordersRows : Operation α → Bool
  | swap axis _ _ => axis == .row
  | moveRow _ _ => true
  | sortRows _ _ _ => true
  | viaStripe h operation => operation.reordersRows h
  | _ => false

namespace Edit

variable {ω : Type} {e e' : Edit α ω} {scope : Scope} {ordered : StripeId → Prop}

theorem Steps.counts (steps : e.Steps scope e') (fixed : scope.reorders = false) (h : e.content.Valid) :
    Counts ordered e.content e'.content := by
  refine steps.preserve (P := fun e' => Counts ordered e.content e'.content)
    (fun _ _ step before => ?_) (.refl h)
  cases step with
  | announced shift within =>
    have unordered : _ = false := Bool.eq_false_iff.mpr fun reorders =>
      Bool.false_ne_true (fixed.symm.trans (within.reorders reorders))
    exact before.trans h (shift.counts before.valid unordered)
  | quiet still => exact before.trans h (still.counts before.valid)

theorem counts_swap (h : e.content.Valid) (axis : Axis) (a b : Nat)
    (unordered : axis = .row → ∀ i ∈ e.content.columns.ids, ¬ ordered i) :
    Counts ordered e.content (e.swap axis a b).2.content := by
  rw [content_swap]
  exact Content.counts_swap h axis a b unordered

theorem counts_moveRow (h : e.content.Valid) (source target : Nat)
    (unordered : ∀ i ∈ e.content.columns.ids, ¬ ordered i) :
    Counts ordered e.content (e.moveRow source target).2.content := by
  rw [content_moveRow]
  exact Content.counts_moveRow h source target unordered

theorem counts_sortRows (h : e.content.Valid) (column : Nat) (descending : Bool) (order : α → α → Ordering)
    (unordered : ∀ i ∈ e.content.columns.ids, ¬ ordered i) :
    Counts ordered e.content (e.sortRows column descending order).2.content := by
  rcases content_sortRows e column descending order with same | ⟨places, sorted⟩
  · rw [same]
    exact .refl h
  · rw [sorted]
    exact Content.counts_reorderRows h places unordered

/-- Whatever an operation changes is counted, but for the order of rows. -/
theorem counts_run [Element α] (h : e.content.Valid) (operation : Operation α)
    (unordered : operation.reordersRows → ∀ i ∈ e.content.columns.ids, ¬ ordered i) :
    Counts ordered e.content (operation.run e).2.content := by
  cases operation with
  | swap axis a b => exact counts_swap h axis a b fun row => unordered (beq_iff_eq.mpr row)
  | moveRow source target => exact counts_moveRow h source target (unordered rfl)
  | sortRows column descending order => exact counts_sortRows h column descending order (unordered rfl)
  | viaStripe ref operation =>
    cases operation with
    | switchWith other =>
      simp only [Operation.run, StripeOperation.run, Outcome.giving, StripeRef.switchWith]
      split
      · exact counts_swap h _ _ _ fun row => unordered (beq_iff_eq.mpr row)
      · exact .refl h
    | moveTo target =>
      simp only [Operation.run, StripeOperation.run, Outcome.giving, StripeRef.moveTo]
      split
      · exact counts_moveRow h _ _ (unordered rfl)
      · exact .refl h
    | _ => exact (steps_viaStripe e ref _).counts rfl h
  | _ => exact (steps_run e _).counts rfl h

end Edit

/-! ### Runs -/

namespace Workspace

variable [Element α] [JsonForm α] [BinaryForm α] [Ord κ] {ws : Workspace α κ} {t : TableId}
    {ordered : StripeId → Prop}

omit [JsonForm α] [BinaryForm α] [Ord κ] in
theorem Evolves.counts {c c' : Content α} {action : Action α κ} (h : c.Valid)
    (evolves : Evolves t c action c')
    (unordered : ∀ operation, action = .on t (.perform operation) → operation.reordersRows →
      ∀ i ∈ c.columns.ids, ¬ ordered i) : Counts ordered c c' := by
  have valid : (Edit.unobserved c).content.Valid := h
  cases evolves with
  | performed operation => exact Edit.counts_run valid operation (unordered operation rfl)
  | loaded s stored => exact (Edit.steps_hydrate (Edit.unobserved c) stored).counts rfl valid
  | untouched => exact .refl h

/-- While all this is done, the order of the rows of a table does not change at a moment when the stripe
    is a column. -/
def Steady (ws : Workspace α κ) (t : TableId) (later : List (Action α κ)) (i : StripeId) : Prop :=
  ∀ done operation todo, later = done ++ .on t (.perform operation) :: todo → operation.reordersRows →
    i ∉ ((done.foldl Workspace.act ws).content t).columns.ids

theorem counts_acts (h : ws.Sound) (there : ws.hasTable t) {later : List (Action α κ)}
    (steady : ∀ i, ordered i → ws.Steady t later i) :
    Counts ordered (ws.content t) ((later.foldl Workspace.act ws).content t) := by
  induction later generalizing ws with
  | nil => exact .refl (h t)
  | cons action rest ih =>
    obtain ⟨there', evolves⟩ := outlasts_act h action there
    have one : Counts ordered (ws.content t) ((ws.act action).content t) := by
      refine evolves.counts (h t) ?_
      rintro operation rfl reorders i mem ord
      exact steady i ord [] operation rest rfl reorders mem
    refine one.trans (h t) (ih (h.act action) there' fun i ord done operation todo eq => ?_)
    exact steady i ord (action :: done) operation todo (congrArg (action :: ·) eq)

/-- Take a handle of a stripe after any run and look at it again after any further run.  The revision of
    the stripe is not smaller, in whatever direction it stands now; unless it is greater, the title is
    the same and so is the element with each stripe that it crosses.  If the handle says that nothing was
    modified, all this holds of what it shows, and its elements are the same, in the same order, if the
    order of the rows was never changed while it was a column. -/
theorem run_revision_tells (actions later : List (Action α κ)) (t : TableId) {axis : Axis} {p : Nat}
    {ref : StripeRef} (taken : StripeRef.at? ((run actions).content t) axis p = some ref) :
    let c := (run actions).content t
    let c' := (run (actions ++ later)).content t
    (∀ b, ∀ s ∈ (c'.stripes b).toList, s.id = ref.id → ref.revision < s.revision ∨
      ref.revision = s.revision ∧ s.title = ref.title c ∧
        (c'.stripes b.cross).ids.Perm (c.stripes axis.cross).ids ∧
        (∀ j, c'.cellOn b ref.id j = c.cellOn axis ref.id j) ∧
        ((run actions).Steady t later ref.id → c'.along b ref.id = ref.elements c)) ∧
      (ref.isModified c' = false → ref.title c' = ref.title c ∧ (ref.elements c').Perm (ref.elements c) ∧
        ((run actions).Steady t later ref.id → ref.elements c' = ref.elements c)) := by
  intro c c'
  have sound := Sound.run actions
  have valid : c.Valid := sound t
  obtain ⟨before, found, rfl⟩ := Option.map_eq_some_iff.mp taken
  have mem : before ∈ (c.stripes axis).toList := List.mem_of_getElem? (Stripes.get?_eq .. ▸ found)
  have live := Content.mem_ids_of_mem_stripes mem
  have counts : Counts ((run actions).Steady t later) c c' := by
    show Counts _ c ((run (actions ++ later)).content t)
    rw [run_append]
    exact counts_acts sound (hasTable_of_mem live) fun _ steady => steady
  refine ⟨fun b s hs own => ?_, fun unmodified => ?_⟩
  · rcases counts.tells axis before mem b s hs own with more | ⟨rfl, unaltered⟩
    · exact .inl more
    · refine .inr ⟨rfl, (StripeRef.title_of_mem valid mem rfl).symm, unaltered.perm, unaltered.cells,
        fun steady => ?_⟩
      rw [StripeRef.elements_of_mem valid live]
      exact unaltered.along_eq steady
  · -- the stripe is found with the revision that the handle has
    obtain ⟨s, byId, same⟩ : ∃ s, (c'.stripes axis).byId before.id = some s ∧
      s.revision = before.revision := by
      rw [StripeRef.isModified] at unmodified
      split at unmodified
      · next s byId => exact ⟨s, byId, by simpa using unmodified⟩
      · cases unmodified
    obtain ⟨hs, own⟩ := (counts.valid.indexed axis).byId_eq_some.mp byId
    rcases counts.tells axis before mem axis s hs own with more | ⟨rfl, unaltered⟩
    · omega
    · have live' := Content.mem_ids_of_mem_stripes hs
      have now : StripeRef.elements ⟨axis, s.id, s.revision⟩ c' = c'.along axis s.id :=
        StripeRef.elements_of_mem counts.valid live'
      have then' : StripeRef.elements ⟨axis, s.id, s.revision⟩ c = c.along axis s.id :=
        StripeRef.elements_of_mem valid live
      refine ⟨?_, ?_, fun steady => ?_⟩
      · rw [StripeRef.title_of_mem counts.valid hs rfl, StripeRef.title_of_mem valid mem rfl]
      · rw [now, then']
        exact unaltered.along_perm
      · rw [now, then']
        exact unaltered.along_eq steady

/-- A row is moved while its handle is held: the handle is not modified, and nothing that it shows has
    changed. -/
theorem run_revision_tells_moved :
    let actions : List (Action String RowKey) :=
  [.make (.rows [[some "a", some "b"], [some "c", none]]) [] "t"]
    let moving : Action String RowKey := .on ⟨0⟩ (.perform (.moveRow 0 1))
    let ref : StripeRef := ⟨.row, ⟨2⟩, 0⟩
    let c' := (run (actions ++ [moving])).content ⟨0⟩
    ref.index c' = some 1 ∧ ref.isModified c' = false ∧
      ref.elements c' = ref.elements ((run actions).content ⟨0⟩) := by
  intro actions moving ref c'
  have taken : StripeRef.at? ((run actions).content ⟨0⟩) .row 0 = some ref := by decide +kernel
  have unmodified : ref.isModified c' = false := by decide +kernel
  have steady : (run actions).Steady ⟨0⟩ [moving] ref.id := by
    intro done operation todo eq _
    obtain rfl : done = [] := by
      cases done with
      | nil => rfl
      | cons action rest => simp at eq
    exact show (⟨2⟩ : StripeId) ∉ ((run actions).content ⟨0⟩).columns.ids by decide +kernel
  exact ⟨by decide +kernel, unmodified,
    ((run_revision_tells actions [moving] ⟨0⟩ taken).2 unmodified).2.2 steady⟩

/-- Rows change places while the handle of a column is held: its elements stand in another order, and the
    handle says that nothing was modified. -/
theorem run_revision_misses_swap :
    let actions : List (Action String RowKey) := [.make (.rows [[some "a"], [some "b"]]) [] "t"]
    let c := (run actions).content ⟨0⟩
    let c' := (run (actions ++ [.on ⟨0⟩ (.perform (.swap .row 0 1))])).content ⟨0⟩
    ∃ ref, StripeRef.at? c .column 0 = some ref ∧ ref.elements c = [some "a", some "b"] ∧
      ref.elements c' = [some "b", some "a"] ∧ ref.isModified c' = false :=
  ⟨⟨.column, ⟨0⟩, 2⟩, by decide +kernel⟩

end Workspace

end LiveTable
