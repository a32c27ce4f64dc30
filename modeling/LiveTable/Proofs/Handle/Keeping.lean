import LiveTable.Proofs.Content.Along
import LiveTable.Proofs.Edit.Identities

/-! Operations on the stripes of one direction, seen by the stripes that stay.  Stripes may come and go
    beside them and all of them may change places, but each keeps its title and its elements; where the
    other direction grows, null cells are appended.  This is what every single change of such an
    operation does, and it composes. -/

namespace LiveTable

namespace Content

variable {α : Type} {c c' c'' : Content α} {axis : Axis} {taken : StripeId → Prop} {i : StripeId} {p : Nat}

/-! ### Stripes by identity -/

theorem mem_ids_of_mem_stripes {s : Stripe} (mem : s ∈ (c.stripes axis).toList) :
    s.id ∈ (c.stripes axis).ids :=
  List.mem_map_of_mem mem

/-- An identity belongs to one stripe. -/
theorem Valid.stripe_unique (h : c.Valid) {s t : Stripe} (hs : s ∈ (c.stripes axis).toList)
    (ht : t ∈ (c.stripes axis).toList) (same : s.id = t.id) : s = t :=
  List.inj_on_of_nodup_map (h.indexed axis).nodup hs ht same

/-! ### Keeping lines -/

/-- The stripes of a direction stay, but for those that are taken out, and keep their titles and
    elements.  None comes back, and the other direction only grows at its end, by null cells. -/
structure KeepsLines (axis : Axis) (taken : StripeId → Prop) (c c' : Content α) : Prop where
  valid : c'.Valid
  nextId : c.nextId ≤ c'.nextId
  stay : ∀ i ∈ (c.stripes axis).ids, ¬ taken i → i ∈ (c'.stripes axis).ids
  old : ∀ i ∈ (c'.stripes axis).ids, i.value < c.nextId → i ∈ (c.stripes axis).ids
  titles : ∀ s ∈ (c.stripes axis).toList, ∀ s' ∈ (c'.stripes axis).toList, s'.id = s.id → s'.title = s.title
  crossing : ∃ new, (c'.stripes axis.cross).ids = (c.stripes axis.cross).ids ++ new ∧
    ∀ i ∈ (c.stripes axis).ids, i ∈ (c'.stripes axis).ids → ∀ j ∈ new, c'.cellOn axis i j = none
  cells : ∀ i ∈ (c.stripes axis).ids, i ∈ (c'.stripes axis).ids → ∀ j ∈ (c.stripes axis.cross).ids,
    c'.cellOn axis i j = c.cellOn axis i j

namespace KeepsLines

theorem refl (h : c.Valid) (axis : Axis) : KeepsLines axis taken c c where
  valid := h
  nextId := Nat.le_refl _
  stay _ mem _ := mem
  old _ mem _ := mem
  titles s hs s' hs' same := congrArg Stripe.title (h.stripe_unique hs' hs same)
  crossing := ⟨[], by simp, by simp⟩
  cells _ _ _ _ _ := rfl

theorem trans (h : c.Valid) (first : KeepsLines axis taken c c') (later : KeepsLines axis taken c' c'') :
    KeepsLines axis taken c c'' := by
  -- what is there at both ends was there all the time
  have between {i : StripeId} (mem : i ∈ (c.stripes axis).ids) (mem' : i ∈ (c''.stripes axis).ids) :
      i ∈ (c'.stripes axis).ids := later.old i mem' (Nat.lt_of_lt_of_le (h.below mem) first.nextId)
  refine ⟨later.valid, Nat.le_trans first.nextId later.nextId,
    fun i mem untaken => later.stay i (first.stay i mem untaken) untaken, fun i mem below => ?_,
    fun s hs s' hs' same => ?_, ?_, fun i mem mem' j hj => ?_⟩
  · exact first.old i (later.old i mem (Nat.lt_of_lt_of_le below first.nextId)) below
  · have there : s.id ∈ (c'.stripes axis).ids :=
      between (mem_ids_of_mem_stripes hs) (same ▸ mem_ids_of_mem_stripes hs')
    obtain ⟨m, hm, eq⟩ := List.mem_map.mp there
    rw [later.titles m hm s' hs' (same.trans eq.symm), first.titles s hs m hm eq]
  · obtain ⟨new, ids, null⟩ := first.crossing
    obtain ⟨new', ids', null'⟩ := later.crossing
    refine ⟨new ++ new', by rw [ids', ids, List.append_assoc], fun i mem mem' j hj => ?_⟩
    rcases List.mem_append.mp hj with hj | hj
    · rw [later.cells i (between mem mem') mem' j (by simp [ids, hj]), null i mem (between mem mem') j hj]
    · exact null' i (between mem mem') mem' j hj
  · obtain ⟨new, ids, -⟩ := first.crossing
    rw [later.cells i (between mem mem') mem' j (by simp [ids, hj]),
      first.cells i mem (between mem mem') j hj]

/-- The elements of a stripe that stays are followed by null cells. -/
theorem along (h : KeepsLines axis taken c c') (mem : i ∈ (c.stripes axis).ids)
    (mem' : i ∈ (c'.stripes axis).ids) :
    c'.along axis i = c.along axis i ++ List.replicate (c'.count axis.cross - c.count axis.cross) none := by
  obtain ⟨new, ids, null⟩ := h.crossing
  have length : c'.count axis.cross - c.count axis.cross = new.length := by
    rw [count_eq, count_eq, ids, List.length_append, Nat.add_sub_cancel_left]
  rw [Content.along, ids, List.map_append, Content.along, length]
  congr 1
  · exact List.map_congr_left (h.cells i mem mem')
  · exact List.eq_replicate_iff.mpr ⟨by simp, fun x hx => by
      obtain ⟨j, hj, rfl⟩ := List.mem_map.mp hx
      exact null i mem mem' j hj⟩

/-- The stripe behind those that the other direction had is new. -/
theorem new_of_crossing (h : KeepsLines axis taken c c')
    (at? : (c'.stripes axis.cross).idAt (c.count axis.cross) = some i) : i ∉ (c.stripes axis.cross).ids := by
  intro old
  obtain ⟨new, ids, -⟩ := h.crossing
  obtain ⟨q, inside, rfl⟩ := List.mem_iff_getElem.mp old
  have before : (c'.stripes axis.cross).idAt q = some (c.stripes axis.cross).ids[q] := by
    rw [Stripes.idAt_eq, ids, List.getElem?_append_left inside, List.getElem?_eq_getElem inside]
  have place := (h.valid.indexed axis.cross).position_unique before at?
  rw [count_eq] at place
  omega

end KeepsLines

/-! ### Single changes -/

theorem keepsLines_insertStripe (h : c.Valid) (axis : Axis) (p : Nat) (elements : List (Option α)) :
    KeepsLines axis taken c (c.insertStripe axis p elements) where
  valid := h.insertStripe axis p elements
  nextId := by
    rw [nextId_insertStripe]
    exact Nat.le_succ _
  stay i mem _ := (mem_ids_insertStripe elements).mpr (.inr mem)
  old i mem below := by
    rcases (mem_ids_insertStripe elements).mp mem with rfl | old
    · exact absurd below (Nat.lt_irrefl _)
    · exact old
  titles s hs s' hs' same := by
    rw [stripes_insertStripe_self, Stripes.toList_insertAt] at hs'
    rcases List.eq_or_mem_of_mem_insertIdx hs' with rfl | old
    · have there := mem_ids_of_mem_stripes hs
      rw [← same] at there
      exact absurd there (h.fresh axis)
    · rw [h.stripe_unique old hs same]
  crossing := ⟨[], by rw [ids_insertStripe_cross, List.append_nil], by simp⟩
  cells i mem _ j _ := cellOn_insertStripe_of_ne (fun same => h.fresh axis (same ▸ mem)) elements j

theorem keepsLines_appendEmpty_cross (h : c.Valid) (axis : Axis) :
    KeepsLines axis taken c (c.appendEmpty axis.cross) := by
  have stripes : (c.appendEmpty axis.cross).stripes axis = (c.stripes axis).touchAll := by
    cases axis <;> exact stripes_insertStripe_cross ..
  have ids : ((c.appendEmpty axis.cross).stripes axis).ids = (c.stripes axis).ids := by
    rw [stripes, Stripes.ids_touchAll]
  refine ⟨h.insertStripe .., ?_, fun i mem _ => ids ▸ mem, fun i mem _ => ids ▸ mem,
    fun s hs s' hs' same => ?_, ⟨[⟨c.nextId⟩], ?_, fun i _ _ j hj => ?_⟩, fun i _ _ j hj => ?_⟩
  · rw [appendEmpty, nextId_insertStripe]
    exact Nat.le_succ _
  · rw [stripes, Stripes.toList_touchAll] at hs'
    obtain ⟨t, ht, rfl⟩ := List.mem_map.mp hs'
    obtain rfl : t = s := h.stripe_unique ht hs same
    rfl
  · rw [appendEmpty, stripes_insertStripe_self, Stripes.ids_insertAt, count, Nat.min_self,
      ← Stripes.length_ids, List.insertIdx_length_self]
  · obtain rfl := List.mem_singleton.mp hj
    rw [← cellOn_cross, appendEmpty, h.cellOn_insertStripe_self]
    simp
  · rw [← cellOn_cross, appendEmpty, cellOn_insertStripe_of_ne, cellOn_cross]
    rintro rfl
    exact h.fresh axis.cross hj

theorem keepsLines_removeStripe (h : c.Valid) (axis : Axis) (p : Nat)
    (takes : ∀ i, (c.stripes axis).idAt p = some i → taken i) :
    KeepsLines axis taken c (c.removeStripe axis p) := by
  cases at? : (c.stripes axis).idAt p with
  | none =>
    rw [removeStripe_of_none c axis p at?]
    exact .refl h axis
  | some own =>
    refine ⟨h.removeStripe axis p, Nat.le_of_eq (nextId_removeStripe ..).symm,
      fun i mem untaken => (h.mem_ids_removeStripe at?).mpr ⟨mem, fun same => untaken (same ▸ takes own at?)⟩,
      fun i mem _ => ((h.mem_ids_removeStripe at?).mp mem).1, fun s hs s' hs' same => ?_,
      ⟨[], by rw [ids_removeStripe_cross, List.append_nil], by simp⟩, fun i _ mem j _ => ?_⟩
    · rw [stripes_removeStripe_self, Stripes.toList_removeAt] at hs'
      rw [h.stripe_unique (List.mem_of_mem_eraseIdx hs') hs same]
    · rw [cellOn_removeStripe c axis p at?, if_neg fun both => ((h.mem_ids_removeStripe at?).mp mem).2 both.1]

/-- Growing in either direction. -/
theorem keepsLines_appendEmpties (h : c.Valid) (axis b : Axis) (n : Nat) :
    KeepsLines axis taken c (c.appendEmpties b n) := by
  induction n generalizing c with
  | zero => exact .refl h axis
  | succ n ih =>
    have one : KeepsLines axis taken c (c.appendEmpty b) := by
      obtain rfl | rfl := Axis.eq_or_eq_cross axis b
      · exact keepsLines_insertStripe h _ _ []
      · exact keepsLines_appendEmpty_cross h axis
    exact one.trans h (ih one.valid)

theorem keepsLines_growTo (h : c.Valid) (axis : Axis) (rows columns : Nat) :
    KeepsLines axis taken c (c.growTo rows columns) :=
  (keepsLines_appendEmpties h axis .column _).trans h
    (keepsLines_appendEmpties (h.appendEmpties ..) axis .row _)

/-- A change of the order of a direction. -/
theorem Rearranged.keepsLines (same : c.Rearranged c') (h : c.Valid) (valid : c'.Valid)
    (perm : (c'.stripes axis).toList.Perm (c.stripes axis).toList)
    (cross : (c'.stripes axis.cross).ids = (c.stripes axis.cross).ids) : KeepsLines axis taken c c' where
  valid := valid
  nextId := Nat.le_of_eq same.nextId.symm
  stay i mem _ := (same.ids axis i).mpr mem
  old i mem _ := (same.ids axis i).mp mem
  titles s hs s' hs' eq := by rw [h.stripe_unique (perm.mem_iff.mp hs') hs eq]
  crossing := ⟨[], by rw [cross, List.append_nil], by simp⟩
  cells i _ _ j _ := same.cellOn axis i j

theorem keepsLines_swap (h : c.Valid) (axis : Axis) (a b : Nat) :
    KeepsLines axis taken c (c.swap axis a b) := by
  by_cases both : c.hasBoth axis a b
  · refine (rearranged_swap axis a b).keepsLines h (h.swap axis a b) ?_ (ids_swap_cross ..)
    rw [stripes_swap_self c both]
    exact Stripes.perm_swap
  · rw [swap_of_not_hasBoth c both]
    exact .refl h axis

theorem keepsLines_moveRow (h : c.Valid) (source target : Nat) :
    KeepsLines .row taken c (c.moveRow source target) := by
  refine (rearranged_moveRow source target).keepsLines h (h.moveRow source target) ?_ ?_
  · rw [moveRow, stripes_mapStripes_self]
    exact Stripes.perm_move
  · rw [moveRow, stripes_mapStripes_cross]

theorem keepsLines_reorderRows (h : c.Valid) (order : List Nat) :
    KeepsLines .row taken c (c.reorderRows order) := by
  refine (rearranged_reorderRows order).keepsLines h (h.reorderRows order) ?_ ?_
  · rw [reorderRows, stripes_mapStripes_self]
    exact Stripes.perm_reorder _ order
  · rw [reorderRows, stripes_mapStripes_cross]

/-- Giving titles to stripes is nothing to those that cross them. -/
theorem keepsLines_setTitle (h : c.Valid) (axis : Axis) (p : Nat) (title : Option String) :
    KeepsLines axis.cross taken c (c.setTitle axis p title) := by
  refine (rearranged_setTitle axis p title).keepsLines h (h.setTitle ..) ?_ (ids_setTitle ..)
  rw [stripes_setTitle_cross]

/-- Giving a title to a stripe that was not there is nothing to those that were. -/
theorem KeepsLines.setTitle_new (h : KeepsLines axis taken c c')
    (new : ∀ i, (c'.stripes axis).idAt p = some i → i ∉ (c.stripes axis).ids) (title : Option String) :
    KeepsLines axis taken c (c'.setTitle axis p title) := by
  have same := rearranged_setTitle (c := c') axis p title
  refine ⟨h.valid.setTitle .., Nat.le_trans h.nextId (Nat.le_of_eq same.nextId.symm),
    fun i mem untaken => (same.ids axis i).mpr (h.stay i mem untaken),
    fun i mem => h.old i ((same.ids axis i).mp mem), fun s hs s' hs' eq => ?_, ?_, fun i mem mem' j hj => ?_⟩
  · rw [stripes_setTitle_self] at hs'
    rcases Stripes.of_mem_modify hs' with ⟨t, here, rfl⟩ | ⟨q, -, elsewhere⟩
    · exact absurd (eq ▸ mem_ids_of_mem_stripes hs) (new t.id (Stripes.idAt_of_get? here))
    · exact h.titles s hs s' (List.mem_of_getElem? (Stripes.get?_eq .. ▸ elsewhere)) eq
  · obtain ⟨more, ids, null⟩ := h.crossing
    refine ⟨more, by rw [ids_setTitle, ids], fun i mem mem' j hj => ?_⟩
    rw [same.cellOn]
    exact null i mem ((same.ids axis i).mp mem') j hj
  · rw [same.cellOn]
    exact h.cells i mem ((same.ids axis i).mp mem') j hj

theorem keepsLines_setTitles (h : c.Valid) (axis : Axis) (titles : List (Option String)) :
    KeepsLines axis.cross taken c (c.setTitles axis titles) := by
  rw [setTitles]
  generalize titles.zipIdx = entries
  induction entries generalizing c with
  | nil => exact .refl h axis.cross
  | cons entry rest ih =>
    have one : KeepsLines axis.cross taken c (c.setTitle axis entry.2 entry.1) := keepsLines_setTitle h ..
    exact one.trans h (ih one.valid)

end Content

end LiveTable
