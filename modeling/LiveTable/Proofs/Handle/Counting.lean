import LiveTable.Proofs.Content.Layout
import LiveTable.Proofs.Handle.Keeping

/-! Stripes count their changes.  Between two moments of a table every stripe that is there at both has
    either counted a change, or it has the same title and the same element with each stripe that it
    crosses.  What is not counted is a change of the order of rows, as the columns see it: `ordered`
    tells for which stripes that does not happen, and these also cross their stripes in the same
    order. -/

namespace LiveTable

namespace Content

variable {α : Type} {c c' c'' : Content α} {axis axis' axis'' : Axis} {ordered : StripeId → Prop}
    {i : StripeId}
  {s t : Stripe} {event : Event α}

/-! ### What it is not to change -/

/-- A stripe crosses the same stripes as before, and has the same element with each. -/
structure Unaltered (ordered : StripeId → Prop) (c : Content α) (axis : Axis) (c' : Content α) (axis' : Axis)
    (i : StripeId) : Prop where
  perm : (c'.stripes axis'.cross).ids.Perm (c.stripes axis.cross).ids
  order : ordered i → (c'.stripes axis'.cross).ids = (c.stripes axis.cross).ids
  cells : ∀ j, c'.cellOn axis' i j = c.cellOn axis i j

namespace Unaltered

theorem of_ids (ids : (c'.stripes axis'.cross).ids = (c.stripes axis.cross).ids)
    (cells : ∀ j, c'.cellOn axis' i j = c.cellOn axis i j) : Unaltered ordered c axis c' axis' i :=
  ⟨.of_eq ids, fun _ => ids, cells⟩

theorem trans (first : Unaltered ordered c axis c' axis' i)
    (later : Unaltered ordered c' axis' c'' axis'' i) : Unaltered ordered c axis c'' axis'' i where
  perm := later.perm.trans first.perm
  order steady := (later.order steady).trans (first.order steady)
  cells j := (later.cells j).trans (first.cells j)

/-- The elements along the stripe are the same, perhaps in another order. -/
theorem along_perm (h : Unaltered ordered c axis c' axis' i) : (c'.along axis' i).Perm (c.along axis i) := by
  have same : c.along axis i = (c.stripes axis.cross).ids.map (c'.cellOn axis' i) :=
    List.map_congr_left fun j _ => (h.cells j).symm
  rw [same]
  exact h.perm.map _

theorem along_eq (h : Unaltered ordered c axis c' axis' i) (steady : ordered i) :
    c'.along axis' i = c.along axis i := by
  rw [along, h.order steady]
  exact List.map_congr_left fun j _ => h.cells j

end Unaltered

/-- Every stripe that is there at both moments has counted a change or is the same.  None comes back in
    between. -/
structure Counts (ordered : StripeId → Prop) (c c' : Content α) : Prop where
  valid : c'.Valid
  nextId : c.nextId ≤ c'.nextId
  gone : ∀ i, c.Gone i → c'.Gone i
  tells : ∀ axis, ∀ s ∈ (c.stripes axis).toList, ∀ axis', ∀ s' ∈ (c'.stripes axis').toList, s'.id = s.id →
    s.revision < s'.revision ∨ s' = s ∧ Unaltered ordered c axis c' axis' s.id

/-- A stripe has one direction. -/
theorem Valid.axis_unique (h : c.Valid) (here : i ∈ (c.stripes axis).ids)
    (there : i ∈ (c.stripes axis').ids) : axis' = axis := by
  obtain same | crossed := Axis.eq_or_eq_cross axis axis'
  · exact same
  · exact absurd (crossed ▸ there) (h.not_mem_cross here)

namespace Counts

/-- Where directions are not exchanged, it is enough to know of each stripe what it was before. -/
theorem of_stripes (h : c.Valid) (valid : c'.Valid) (nextId : c.nextId ≤ c'.nextId)
    (gone : ∀ i, c.Gone i → c'.Gone i)
    (each : ∀ b, ∀ s' ∈ (c'.stripes b).toList, s'.id = ⟨c.nextId⟩ ∨ ∃ s ∈ (c.stripes b).toList, s'.id = s.id ∧
      (s.revision < s'.revision ∨ s' = s ∧ Unaltered ordered c b c' b s.id)) : Counts ordered c c' where
  valid := valid
  nextId := nextId
  gone := gone
  tells axis s hs b s' hs' same := by
    rcases each b s' hs' with new | ⟨t, ht, own, counted⟩
    · have there := mem_ids_of_mem_stripes hs
      rw [← same, new] at there
      exact absurd there (h.fresh axis)
    · have eq : t.id = s.id := own.symm.trans same
      obtain rfl : b = axis := h.axis_unique (mem_ids_of_mem_stripes hs) (eq ▸ mem_ids_of_mem_stripes ht)
      obtain rfl : t = s := h.stripe_unique ht hs eq
      exact counted

theorem refl (h : c.Valid) : Counts ordered c c :=
  of_stripes h h (Nat.le_refl _) (fun _ => id) fun _ s mem =>
    .inr ⟨s, mem, rfl, .inr ⟨rfl, .of_ids rfl fun _ => rfl⟩⟩

theorem trans (h : c.Valid) (first : Counts ordered c c') (later : Counts ordered c' c'') :
    Counts ordered c c'' where
  valid := later.valid
  nextId := Nat.le_trans first.nextId later.nextId
  gone i before := later.gone i (first.gone i before)
  tells axis s hs axis'' s'' hs'' same := by
    -- a stripe that is there at both ends was there in between, for what is gone stays gone
    obtain ⟨axis', s', hs', same'⟩ : ∃ axis', ∃ s' ∈ (c'.stripes axis').toList, s'.id = s.id := by
      by_contra absent
      push Not at absent
      have between : c'.Gone s.id := by
        refine ⟨Nat.lt_of_lt_of_le (h.below (mem_ids_of_mem_stripes hs)) first.nextId, fun b mem => ?_⟩
        obtain ⟨s', hs', same'⟩ := List.mem_map.mp mem
        exact absent b s' hs' same'
      exact (later.gone _ between).2 axis'' (same ▸ mem_ids_of_mem_stripes hs'')
    have one := first.tells axis s hs axis' s' hs' same'
    have two := later.tells axis' s' hs' axis'' s'' hs'' (same.trans same'.symm)
    rcases one with more | ⟨rfl, unaltered⟩
    · rcases two with further | ⟨rfl, -⟩
      · exact .inl (Nat.lt_trans more further)
      · exact .inl more
    · exact two.imp_right fun ⟨eq, also⟩ => ⟨eq, unaltered.trans also⟩

/-- A change of the order or of titles. -/
theorem of_rearranged (same : c.Rearranged c') (h : c.Valid) (valid : c'.Valid)
    (each : ∀ b, ∀ s' ∈ (c'.stripes b).toList, ∃ s ∈ (c.stripes b).toList, s'.id = s.id ∧
      (s.revision < s'.revision ∨ s' = s ∧
        (ordered s.id → (c'.stripes b.cross).ids = (c.stripes b.cross).ids))) : Counts ordered c c' := by
  refine of_stripes h valid (Nat.le_of_eq same.nextId.symm) (fun _ => same.gone) fun b s' hs' => .inr ?_
  obtain ⟨s, hs, own, counted⟩ := each b s' hs'
  refine ⟨s, hs, own, counted.imp_right fun ⟨eq, order⟩ => ⟨eq, ?_, order, same.cellOn b s.id⟩⟩
  exact (List.perm_ext_iff_of_nodup (valid.indexed b.cross).nodup (h.indexed b.cross).nodup).mpr
    (same.ids b.cross)

end Counts

/-! ### Single changes -/

theorem counts_insertStripe (h : c.Valid) (axis : Axis) (p : Nat) (elements : List (Option α)) :
    Counts ordered c (c.insertStripe axis p elements) := by
  have shift := Shift.inserted (c := c) axis p elements
  refine .of_stripes h (shift.valid h) shift.nextId_le (fun _ => shift.gone) fun b s' hs' => ?_
  obtain rfl | rfl := Axis.eq_or_eq_cross axis b
  · rw [stripes_insertStripe_self, Stripes.toList_insertAt] at hs'
    rcases List.eq_or_mem_of_mem_insertIdx hs' with rfl | old
    · exact .inl rfl
    · have ne : s'.id ≠ ⟨c.nextId⟩ := fun new => h.fresh _ (new ▸ mem_ids_of_mem_stripes old)
      exact .inr ⟨s', old, rfl,
        .inr ⟨rfl, .of_ids (ids_insertStripe_cross elements) (cellOn_insertStripe_of_ne ne elements)⟩⟩
  · rw [stripes_insertStripe_cross, Stripes.toList_touchAll] at hs'
    obtain ⟨s, hs, rfl⟩ := List.mem_map.mp hs'
    exact .inr ⟨s, hs, rfl, .inl (Nat.lt_succ_self _)⟩

theorem counts_removeStripe (h : c.Valid) {axis : Axis} {p : Nat} {stripe : Removed α}
    (found : c.removed? axis p = some stripe) : Counts ordered c (c.removeStripe axis p) := by
  have shift := Shift.removed found
  have at? := idAt_of_removed found
  refine .of_stripes h (shift.valid h) shift.nextId_le (fun _ => shift.gone) fun b s' hs' => .inr ?_
  obtain rfl | rfl := Axis.eq_or_eq_cross axis b
  · have mem := mem_ids_of_mem_stripes hs'
    rw [stripes_removeStripe_self, Stripes.toList_removeAt] at hs'
    refine ⟨s', List.mem_of_mem_eraseIdx hs', rfl,
      .inr ⟨rfl, .of_ids (ids_removeStripe_cross ..) fun j => ?_⟩⟩
    rw [cellOn_removeStripe c _ p at?, if_neg fun both => ((h.mem_ids_removeStripe at?).mp mem).2 both.1]
  · rw [stripes_removeStripe_cross c axis p at?, Stripes.toList_touchAll] at hs'
    obtain ⟨s, hs, rfl⟩ := List.mem_map.mp hs'
    exact ⟨s, hs, rfl, .inl (Nat.lt_succ_self _)⟩

/-- A written cell is counted by its row and its column, and belongs to no other. -/
theorem counts_set (h : c.Valid) {row column : Nat} {k : CellKey} (inside : c.cellKey? row column = some k)
    (element : Option α) : Counts ordered c (c.set row column element) := by
  obtain ⟨r, r', at_row, at_column, -⟩ := (cellKey?_eq_some c row column).mp inside
  have gone (i) (h : c.Gone i) : (c.set row column element).Gone i :=
    ⟨(nextId_set ..).symm ▸ h.1, fun b mem => h.2 b (ids_set .. ▸ mem)⟩
  refine .of_stripes h (h.set ..) (Nat.le_of_eq (nextId_set ..).symm) gone fun b s' hs' => .inr ?_
  rw [stripes_set c row column element inside] at hs'
  rcases Stripes.of_mem_modify hs' with ⟨s, here, rfl⟩ | ⟨q, apart, elsewhere⟩
  · exact ⟨s, List.mem_of_getElem? (Stripes.get?_eq .. ▸ here), rfl, .inl (Nat.lt_succ_self _)⟩
  · have at_q := Stripes.idAt_of_get? elsewhere
    refine ⟨s', List.mem_of_getElem? (Stripes.get?_eq .. ▸ elsewhere), rfl,
      .inr ⟨rfl, .of_ids (ids_set ..) fun j => ?_⟩⟩
    cases b with
    | row =>
      have cell : (c.set row column element).cellOn .row s'.id j = _ :=
        cellOn_set at_row at_column element s'.id j
      exact cell.trans (if_neg fun (both : r = s'.id ∧ r' = j) =>
        apart ((h.indexed .row).position_unique at_q (both.1 ▸ at_row)))
    | column =>
      have cell : (c.set row column element).cellOn .column s'.id j = _ :=
        cellOn_set at_column at_row element s'.id j
      exact cell.trans (if_neg fun (both : r' = s'.id ∧ r = j) =>
        apart ((h.indexed .column).position_unique at_q (both.1 ▸ at_column)))

theorem counts_transpose (h : c.Valid) : Counts ordered c c.transpose := by
  have shift : c.Shift .transposed c.transpose := .turned
  refine ⟨shift.valid h, shift.nextId_le, fun _ => shift.gone, fun axis s hs b s' hs' same => .inr ?_⟩
  rw [stripes_transpose] at hs'
  obtain rfl : b.cross = axis := h.axis_unique (mem_ids_of_mem_stripes hs) (same ▸ mem_ids_of_mem_stripes hs')
  exact ⟨h.stripe_unique hs' hs same, .of_ids (by rw [stripes_transpose]) fun j => cellOn_transpose c s.id j⟩

theorem counts_setTitle (h : c.Valid) (axis : Axis) (p : Nat) (title : Option String) :
    Counts ordered c (c.setTitle axis p title) := by
  refine .of_rearranged (rearranged_setTitle axis p title) h (h.setTitle ..) fun b s' hs' => ?_
  obtain rfl | rfl := Axis.eq_or_eq_cross axis b
  · rw [stripes_setTitle_self] at hs'
    rcases Stripes.of_mem_modify hs' with ⟨s, here, rfl⟩ | ⟨q, -, elsewhere⟩
    · exact ⟨s, List.mem_of_getElem? (Stripes.get?_eq .. ▸ here), rfl, .inl (Nat.lt_succ_self _)⟩
    · exact ⟨s', List.mem_of_getElem? (Stripes.get?_eq .. ▸ elsewhere), rfl,
        .inr ⟨rfl, fun _ => ids_setTitle ..⟩⟩
  · rw [stripes_setTitle_cross] at hs'
    exact ⟨s', hs', rfl, .inr ⟨rfl, fun _ => ids_setTitle ..⟩⟩

/-! ### Changes of the order -/

/-- Rows in another order: no stripe counts it, and the columns cross them in another order. -/
theorem counts_mapRows {f : Stripes → Stripes} (h : c.Valid) (valid : (c.mapStripes .row f).Valid)
    (perm : (f c.rows).toList.Perm c.rows.toList) (unordered : ∀ i ∈ c.columns.ids, ¬ ordered i) :
    Counts ordered c (c.mapStripes .row f) := by
  refine .of_rearranged (rearranged_mapStripes .row fun _ => (perm.map Stripe.id).mem_iff) h valid
    fun b s' hs' => ?_
  cases b with
  | row =>
    rw [stripes_mapStripes_self] at hs'
    exact ⟨s', perm.mem_iff.mp hs', rfl,
      .inr ⟨rfl, fun _ => congrArg Stripes.ids (stripes_mapStripes_cross ..)⟩⟩
  | column =>
    have same : (c.mapStripes .row f).stripes .column = c.stripes .column := stripes_mapStripes_cross c .row f
    rw [same] at hs'
    exact ⟨s', hs', rfl,
      .inr ⟨rfl, fun steady => absurd steady (unordered s'.id (mem_ids_of_mem_stripes hs'))⟩⟩

/-- Rows that keep their order after all. -/
theorem counts_mapRows_same {f : Stripes → Stripes} (h : c.Valid) (valid : (c.mapStripes .row f).Valid)
    (same : (f c.rows).toList = c.rows.toList) : Counts ordered c (c.mapStripes .row f) := by
  have lists (b : Axis) : ((c.mapStripes .row f).stripes b).toList = (c.stripes b).toList := by
    cases b with
    | row =>
      rw [stripes_mapStripes_self]
      exact same
    | column => exact congrArg Stripes.toList (stripes_mapStripes_cross c .row f)
  refine .of_rearranged (rearranged_mapStripes .row fun i => ?_) h valid fun b s' hs' => ?_
  · exact iff_of_eq (congrArg (i ∈ ·.map Stripe.id) same)
  · exact ⟨s', lists b ▸ hs', rfl, .inr ⟨rfl, fun _ => congrArg (List.map Stripe.id) (lists b.cross)⟩⟩

/-- Exchanging columns is counted by every row. -/
theorem counts_swap_columns (h : c.Valid) (a b : Nat) : Counts ordered c (c.swap .column a b) := by
  by_cases both : c.hasBoth .column a b
  · have rows : (c.swap .column a b).stripes .row = (c.stripes .row).touchAll :=
      (stripes_swap_cross c both).trans (if_neg nofun)
    refine .of_rearranged (rearranged_swap .column a b) h (h.swap ..) fun d s' hs' => ?_
    cases d with
    | row =>
      rw [rows, Stripes.toList_touchAll] at hs'
      obtain ⟨s, hs, rfl⟩ := List.mem_map.mp hs'
      exact ⟨s, hs, rfl, .inl (Nat.lt_succ_self _)⟩
    | column =>
      rw [stripes_swap_self c both] at hs'
      exact ⟨s', Stripes.perm_swap.mem_iff.mp hs', rfl, .inr ⟨rfl, fun _ => ids_swap_cross ..⟩⟩
  · rw [swap_of_not_hasBoth c both]
    exact .refl h

theorem counts_swap (h : c.Valid) (axis : Axis) (a b : Nat)
    (unordered : axis = .row → ∀ i ∈ c.columns.ids, ¬ ordered i) : Counts ordered c (c.swap axis a b) := by
  cases axis with
  | column => exact counts_swap_columns h a b
  | row =>
    by_cases both : c.hasBoth .row a b
    · have valid := h.swap .row a b
      rw [swap_of_hasBoth c both] at valid ⊢
      exact counts_mapRows h valid Stripes.perm_swap (unordered rfl)
    · rw [swap_of_not_hasBoth c both]
      exact .refl h

theorem counts_moveRow (h : c.Valid) (source target : Nat) (unordered : ∀ i ∈ c.columns.ids, ¬ ordered i) :
    Counts ordered c (c.moveRow source target) :=
  counts_mapRows h (h.moveRow source target) Stripes.perm_move unordered

theorem counts_reorderRows (h : c.Valid) (order : List Nat) (unordered : ∀ i ∈ c.columns.ids, ¬ ordered i) :
    Counts ordered c (c.reorderRows order) :=
  counts_mapRows h (h.reorderRows order) (Stripes.perm_reorder _ order) unordered

/-- A change that goes unannounced. -/
theorem Still.counts (h : c.Valid) (still : c.Still c') : Counts ordered c c' := by
  cases still with
  | titled axis position title => exact counts_setTitle h axis position title
  | renamed name =>
    have same : c.Rearranged { c with name := name } := ⟨rfl, rfl, fun _ => rfl, fun _ _ => Iff.rfl⟩
    exact .of_rearranged same h (h.rename name) fun b s' hs' => ⟨s', hs', rfl, .inr ⟨rfl, fun _ => rfl⟩⟩
  | rewritten row column =>
    cases inside : c.cellKey? row column with
    | none =>
      rw [set_of_none c row column _ inside]
      exact .refl h
    | some k => exact counts_set h inside _
  | swapped axis a =>
    cases axis with
    | column => exact counts_swap_columns h a a
    | row =>
      by_cases both : c.hasBoth .row a a
      · have valid := h.swap .row a a
        rw [swap_of_hasBoth c both] at valid ⊢
        exact counts_mapRows_same h valid (Stripes.toList_swap_self ..)
      · rw [swap_of_not_hasBoth c both]
        exact .refl h
  | moved a => exact counts_mapRows_same h (h.moveRow a a) (Stripes.toList_move_self ..)

/-- A change that is announced, other than one of the order. -/
theorem Shift.counts (h : c.Valid) (shift : c.Shift event c') (fixed : event.scope.reorders = false) :
    Counts ordered c c' := by
  cases shift with
  | inserted axis position elements => exact counts_insertStripe h axis position elements
  | removed found => exact counts_removeStripe h found
  | written inside other => exact counts_set h inside _
  | cleared =>
    have shift : c.Shift .cleared c.clear := .cleared
    refine .of_stripes h (shift.valid h) shift.nextId_le (fun _ => shift.gone) fun b s' hs' => ?_
    rw [stripes_clear] at hs'
    cases hs'
  | swapped => cases fixed
  | moved => cases fixed
  | sorted => cases fixed
  | turned => exact counts_transpose h

end Content

end LiveTable
