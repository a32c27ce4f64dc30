import LiveTable.Proofs.Handle.Tracking

/-! What takes a stripe out of a table, and what is told of it.  A stripe leaves its table through an
    operation that takes single stripes out of one direction, and then an event names it and that
    direction, or through one that clears the table, and then no event names it.  All other operations,
    and loading the rows of a store, leave every stripe in the table. -/

namespace LiveTable

variable {α : Type} {c c' c'' : Content α} {event : Event α} {told : List (Notice α)} {scope : Scope}
    {axis b : Axis}
  {i : StripeId}

/-- A stripe is there, in whichever direction. -/
def Content.Has (c : Content α) (i : StripeId) : Prop := ∃ axis, i ∈ (c.stripes axis).ids

/-- An operation takes a stripe out of a table: by itself, out of this direction, or, if there is none,
    with all the others. -/
def Operation.TakesOut (c : Content α) (direction : Option Axis) (i : StripeId)
    (operation : Operation α) : Prop :=
  c.Has i ∧ operation.Removes c i ∧ operation.scope.thinned = direction

/-- An event names a stripe as taken out of a direction. -/
def Event.Names (axis : Axis) (i : StripeId) (event : Event α) : Prop :=
  ∃ position stripe, event = .removed axis position stripe ∧ stripe.id = i

namespace Content

/-! ### Changes -/

theorem Gone.not_has (gone : c.Gone i) : ¬c.Has i := not_exists.mpr gone.2

theorem Rearranged.has (same : c.Rearranged c') (has : c.Has i) : c'.Has i :=
  has.imp fun axis mem => (same.ids axis i).mpr mem

/-- A stripe is there when an event names it, and gone afterwards. -/
theorem Shift.of_names (h : c.Valid) (shift : c.Shift event c') (names : event.Names axis i) :
    c.Has i ∧ c'.Gone i := by
  obtain ⟨position, stripe, rfl, rfl⟩ := names
  cases shift with
  | removed found =>
    have at? := idAt_of_removed found
    exact ⟨⟨axis, Stripes.mem_ids_of_idAt at?⟩, h.gone_of_removed at?⟩

/-- A stripe stays unless the event names it or the table is cleared. -/
theorem Shift.has (h : c.Valid) (shift : c.Shift event c') (has : c.Has i) :
    c'.Has i ∨ (∃ axis, event.Names axis i) ∨ event.scope.clears ∧ c'.Gone i := by
  obtain ⟨b, mem⟩ := has
  cases shift with
  | inserted axis position elements =>
    refine .inl ⟨b, ?_⟩
    obtain rfl | rfl := Axis.eq_or_eq_cross axis b
    · exact (mem_ids_insertStripe elements).mpr (.inr mem)
    · rwa [ids_insertStripe_cross]
  | @removed axis position stripe found =>
    by_cases named : stripe.id = i
    · exact .inr (.inl ⟨axis, position, stripe, rfl, named⟩)
    · refine .inl ⟨b, ?_⟩
      obtain rfl | rfl := Axis.eq_or_eq_cross axis b
      · exact (h.mem_ids_removeStripe (idAt_of_removed found)).mpr ⟨mem, Ne.symm named⟩
      · rwa [ids_removeStripe_cross]
  | written => exact .inl ⟨b, by rwa [ids_set]⟩
  | cleared => exact .inr (.inr ⟨rfl, h.gone_clear mem⟩)
  | swapped => exact .inl ((rearranged_swap _ _ _).has ⟨b, mem⟩)
  | moved => exact .inl ((rearranged_moveRow _ _).has ⟨b, mem⟩)
  | sorted order => exact .inl ((rearranged_reorderRows order).has ⟨b, mem⟩)
  | turned => exact .inl ⟨b.cross, by rwa [stripes_transpose, Axis.cross_cross]⟩

end Content

namespace Edit

/-! ### Edits -/

/-- What has become of a stripe in an edit that told these notices: it stays, or one of them named it, or
    it was gone before or went with all the others, and no notice names it. -/
inductive Fate (scope : Scope) (c : Content α) (i : StripeId) (told : List (Notice α)) (c' : Content α) : Prop
  | stays (was : c.Has i) (has : c'.Has i) (unnamed : ∀ n ∈ told, ∀ axis, ¬n.event.Names axis i)
  | named {axis : Axis} (was : c.Has i) (within : scope.thinned = some axis) (gone : c'.Gone i)
      (only : ∀ b, (∃ n ∈ told, n.event.Names b i) ↔ b = axis)
  | lost (why : c.Gone i ∨ scope.clears) (gone : c'.Gone i)
      (unnamed : ∀ n ∈ told, ∀ axis, ¬n.event.Names axis i)

namespace Fate

theorem quiet (fate : Fate scope c i told c') (still : c'.Still c'') : Fate scope c i told c'' := by
  cases fate with
  | stays was has unnamed => exact .stays was (still.rearranged.has has) unnamed
  | named was within gone only => exact .named was within (still.rearranged.gone gone) only
  | lost why gone unnamed => exact .lost why (still.rearranged.gone gone) unnamed

theorem names_concat : (∃ n ∈ told ++ [⟨event, c'⟩], n.event.Names b i) ↔
    (∃ n ∈ told, n.event.Names b i) ∨ event.Names b i := by
  simp [or_and_right, exists_or]

theorem announced (fate : Fate scope c i told c') (valid : c'.Valid) (shift : c'.Shift event c'')
    (within : scope.Admits event) : Fate scope c i (told ++ [⟨event, c''⟩]) c'' := by
  have more (unnamed : ∀ n ∈ told, ∀ axis, ¬n.event.Names axis i) (new : ∀ axis, ¬event.Names axis i) :
      ∀ n ∈ told ++ [⟨event, c''⟩], ∀ axis, ¬n.event.Names axis i :=
    List.forall_mem_append.mpr ⟨unnamed, List.forall_mem_singleton.mpr new⟩
  -- what is gone is not named again
  have silent (gone : c'.Gone i) (axis : Axis) : ¬event.Names axis i := fun names =>
    gone.not_has (shift.of_names valid names).1
  cases fate with
  | stays was has unnamed =>
    rcases shift.has valid has with has' | ⟨axis, names⟩ | ⟨clears, gone⟩
    · exact .stays was has' (more unnamed fun axis names => (shift.of_names valid names).2.not_has has')
    · have gone := (shift.of_names valid names).2
      obtain ⟨position, stripe, rfl, own⟩ := names
      refine .named was (within.thinned axis rfl) gone fun b => ?_
      have first : ¬∃ n ∈ told, n.event.Names b i := fun ⟨n, mem, names⟩ => unnamed n mem b names
      rw [names_concat, or_iff_right first]
      constructor
      · rintro ⟨_, _, same, -⟩
        exact (Event.removed.inj same).1.symm
      · rintro rfl
        exact ⟨position, stripe, rfl, own⟩
    · refine .lost (.inr (within.clears clears)) gone (more unnamed ?_)
      rintro axis ⟨position, stripe, rfl, -⟩
      cases clears
  | named was thinned gone only =>
    refine .named was thinned (shift.gone gone) fun b => ?_
    rw [names_concat, or_iff_left (silent gone b)]
    exact only b
  | lost why gone unnamed => exact .lost why (shift.gone gone) (more unnamed (silent gone))

end Fate

/-- What consists of steps does one of the three to a stripe. -/
theorem Steps.fate {e : Edit α (List (Notice α))} (h : c.Valid) (known : c.Has i ∨ c.Gone i)
    (steps : (recorded c).Steps scope e) : Fate scope c i e.observers e.content := by
  have start : Fate scope c i [] c := by
    rcases known with has | gone
    · exact .stays has has (by simp)
    · exact .lost (.inl gone) gone (by simp)
  have done := steps.preserve (P := fun e => e.content.Valid ∧ e.tell = (fun told n => told ++ [n]) ∧
    Fate scope c i e.observers e.content) (fun e e' step before => ?_) ⟨h, rfl, start⟩
  · exact done.2.2
  · obtain ⟨valid, tell, fate⟩ := before
    cases step with
    | announced shift within =>
      obtain rfl := tell
      exact ⟨shift.valid valid, rfl, fate.announced valid shift within⟩
    | quiet still => exact ⟨still.valid valid, tell, fate.quiet still⟩

/-- Written down, the notices and the content of a procedure are the ones that it comes to. -/
theorem ComesTo.written {β : Type} {procedure : (ω : Type) → Edit α ω → β × Edit α ω} {result : β}
    {final : Content α} (comes : ComesTo procedure c result told final) :
    (procedure _ (recorded c)).2.observers = told ∧ (procedure _ (recorded c)).2.content = final := by
  have told_eq : told.foldl (fun told n => told ++ [n]) [] = told := by
    rw [List.foldl_append_eq_append, ← List.flatMap_def, List.flatMap_singleton', List.nil_append]
  rw [recorded, comes.eq]
  exact ⟨told_eq, rfl⟩

/-- Loading the rows of a store takes nothing out. -/
theorem has_hydrate {stored : List (Option Nat × List (Option α))} {loaded : List StripeId}
    {final : Content α}
    (h : c.Valid) (comes : ComesTo (fun _ e => e.hydrate stored) c loaded told final)
    (known : c.Has i ∨ c.Gone i) :
    (∀ n ∈ told, ∀ axis, ¬n.event.Names axis i) ∧ (c.Has i → final.Has i) := by
  have fate := (steps_hydrate (recorded c) stored).fate h known
  obtain ⟨rfl, rfl⟩ := comes.written
  cases fate with
  | stays was has unnamed => exact ⟨unnamed, fun _ => has⟩
  | named was within => cases within
  | lost why gone unnamed =>
    refine ⟨unnamed, fun has => ?_⟩
    rcases why with before | clears
    · exact absurd has before.not_has
    · cases clears

end Edit

/-! ### Operations -/

namespace Operation

variable [Element α] {operation : Operation α}

omit [Element α] in
/-- Taking single stripes out changes the places of the others in their direction. -/
theorem shifts_of_thinned (thinned : operation.scope.thinned = some axis) : operation.shifts = some axis := by
  cases operation with
  | viaStripe ref operation => cases operation <;> first | exact thinned | cases thinned
  | _ => first | exact thinned | cases thinned

omit [Element α] in
/-- Clearing a table takes every stripe out, but none by itself. -/
theorem removes_of_clears (clears : operation.scope.clears) :
    operation.Removes c i ∧ operation.scope.thinned = none := by
  cases operation with
  | viaStripe ref operation => cases operation <;> cases clears
  | clear => exact ⟨trivial, rfl⟩
  | replace => exact ⟨trivial, rfl⟩
  | _ => cases clears

/-- What an operation does not take out stays. -/
theorem has_leaves (h : c.Valid) (has : c.Has i) (untaken : ¬operation.Removes c i) :
    (operation.leaves c).Has i := by
  cases thinned : operation.scope.thinned with
  | some axis =>
    have keeps := (Edit.shifts_run h (shifts_of_thinned thinned)).1
    rw [(operation.run_spec (Edit.unobserved c)).2.1] at keeps
    obtain ⟨b, mem⟩ := has
    refine ⟨b, ?_⟩
    obtain rfl | rfl := Axis.eq_or_eq_cross axis b
    · exact keeps.stay i mem untaken
    · obtain ⟨new, ids, -⟩ := keeps.crossing
      exact ids ▸ List.mem_append_left new mem
  | none =>
    cases (Edit.steps_run (Edit.recorded c) operation).fate h (.inl has) with
    | stays was has' => exact has'
    | named was within => cases thinned.symm.trans within
    | lost why =>
      have clears := why.resolve_left fun gone => gone.not_has has
      exact absurd (removes_of_clears clears).1 untaken

theorem gone_leaves (h : c.Valid) (has : c.Has i) (removes : operation.Removes c i) :
    (operation.leaves c).Gone i := by
  obtain ⟨axis, mem⟩ := has
  exact Edit.gone_run (e := Edit.recorded c) h mem removes

/-- An event names a stripe and a direction exactly if the operation takes it out of that direction by
    itself. -/
theorem told_names_iff (h : c.Valid) (known : c.Has i ∨ c.Gone i) :
    (∃ n ∈ operation.told c, n.event.Names axis i) ↔ operation.TakesOut c (some axis) i := by
  have fate := (Edit.steps_run (Edit.recorded c) operation).fate h known
  constructor
  · rintro ⟨n, mem, names⟩
    cases fate with
    | stays was has unnamed => exact absurd names (unnamed n mem axis)
    | named was within gone only =>
      obtain rfl := (only axis).mp ⟨n, mem, names⟩
      exact ⟨was, by_contra fun untaken => gone.not_has (has_leaves h was untaken), within⟩
    | lost why gone unnamed => exact absurd names (unnamed n mem axis)
  · rintro ⟨has, removes, thinned⟩
    cases fate with
    | stays was has' => exact absurd has' (gone_leaves h has removes).not_has
    | named was within gone only => exact (only axis).mpr (Option.some.inj (thinned.symm.trans within))
    | lost why =>
      have clears := why.resolve_left fun gone => gone.not_has has
      cases thinned.symm.trans (removes_of_clears (c := c) (i := i) clears).2

end Operation

end LiveTable
