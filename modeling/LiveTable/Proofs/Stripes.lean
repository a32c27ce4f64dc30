import LiveTable.Stripe
import Mathlib.Data.List.Induction
import Mathlib.Data.List.InsertIdx
import Mathlib.Data.List.Nodup
import Mathlib.Data.List.Perm.Basic

/-! What the operations on a list of stripes do to its order, and why the map of positions follows.  Each
    operation is first read as an operation on plain lists.  The map is `Indexed` when it is the inverse
    of the list; since an operation enters only the positions from the first shifted stripe on, the proof
    for each is that the entries before that position are still right. -/

namespace LiveTable.Stripes

variable {ss : Stripes} {s : Stripe} {i : StripeId} {p start : Nat}

/-! ### Lists -/

theorem eraseDups_concat {β : Type} [DecidableEq β] (l : List β) (b : β) :
    (l ++ [b]).eraseDups = l.eraseDups ++ if b ∈ l then [] else [b] := by
  rw [List.eraseDups_append, List.cons_removeAll]
  by_cases mem : b ∈ l <;> simp [mem, List.eraseDups_cons]

/-- A list without its repetitions stands in the order of first mention. -/
theorem pairwise_eraseDups (order : List Nat) :
    order.eraseDups.Pairwise fun p q => order.idxOf p < order.idxOf q := by
  induction order using List.reverseRecOn with
  | nil => exact List.Pairwise.nil
  | append_singleton order p ih =>
    have kept : ∀ q ∈ order.eraseDups, (order ++ [p]).idxOf q = order.idxOf q := fun q mem =>
      List.idxOf_append_of_mem (List.mem_eraseDups.mp mem)
    have front : order.eraseDups.Pairwise fun q r => (order ++ [p]).idxOf q < (order ++ [p]).idxOf r :=
      ih.imp_of_mem fun mem mem' before => by rwa [kept _ mem, kept _ mem']
    rw [eraseDups_concat]
    split
    · rwa [List.append_nil]
    · next first =>
      refine List.pairwise_append.mpr ⟨front, List.pairwise_singleton .., fun q mem r last => ?_⟩
      rw [List.mem_singleton.mp last, kept q mem, List.idxOf_append_of_notMem first]
      exact Nat.lt_add_right _ (List.idxOf_lt_length_of_mem (List.mem_eraseDups.mp mem))

theorem nodup_eraseDups (places : List Nat) : places.eraseDups.Nodup :=
  (pairwise_eraseDups places).imp fun before same => Nat.ne_of_lt before (congrArg places.idxOf same)

/-- A list that has no repetitions loses nothing. -/
theorem eraseDups_of_nodup {places : List Nat} (distinct : places.Nodup) : places.eraseDups = places := by
  induction places using List.reverseRecOn with
  | nil => rfl
  | append_singleton places p ih =>
    rw [← List.concat_eq_append, List.nodup_concat] at distinct
    obtain ⟨last, front⟩ := distinct
    rw [eraseDups_concat, ih front, if_neg last]

theorem filterMap_getElem?_range {β : Type} (l : List β) : (List.range l.length).filterMap (l[·]?) = l := by
  induction l with
  | nil => rfl
  | cons a rest ih =>
    rw [List.length_cons, List.range_succ_eq_map, List.filterMap_cons]
    simpa [List.filterMap_map, Function.comp_def] using ih

theorem length_toList (ss : Stripes) : ss.toList.length = ss.size := rfl

@[simp] theorem length_ids (ss : Stripes) : ss.ids.length = ss.size := by simp [ids, toList, size]

@[simp] theorem length_titles (ss : Stripes) : ss.titles.length = ss.size := by simp [titles, toList, size]

theorem get?_eq (ss : Stripes) (p : Nat) : ss.get? p = ss.toList[p]? := by simp [get?, toList]

theorem idAt_eq (ss : Stripes) (p : Nat) : ss.idAt p = ss.ids[p]? := by
  simp [idAt, get?_eq, ids, List.getElem?_map]

theorem idAt_of_get? (h : ss.get? p = some s) : ss.idAt p = some s.id := by simp [idAt, h]

theorem mem_ids_of_idAt (h : ss.idAt p = some i) : i ∈ ss.ids :=
  List.mem_of_getElem? (by rwa [idAt_eq] at h)

theorem lt_size_of_get? (h : ss.get? p = some s) : p < ss.size :=
  (Array.getElem?_eq_some_iff.mp h).1

theorem idAt_lt (h : ss.idAt p = some i) : p < ss.size := by
  rw [idAt_eq] at h
  simpa using (List.getElem?_eq_some_iff.mp h).1

theorem positionOfTitle_lt {title : String} (h : ss.positionOfTitle title = some p) : p < ss.size :=
  (Array.findIdx?_eq_some_iff_getElem.mp h).1

@[simp] theorem toList_reindexFrom (ss : Stripes) (start : Nat) :
    (ss.reindexFrom start).toList = ss.toList := rfl

@[simp] theorem ids_reindexFrom (ss : Stripes) (start : Nat) : (ss.reindexFrom start).ids = ss.ids := rfl

theorem toList_insertAt (ss : Stripes) (p : Nat) (s : Stripe) :
    (ss.insertAt p s).toList = ss.toList.insertIdx (min p ss.size) s := by
  have inside : min p ss.listed.size ≤ ss.listed.size := Nat.min_le_right ..
  simp [insertAt, toList, size, Array.insertIdxIfInBounds, inside, reindexFrom]

theorem toList_removeAt (ss : Stripes) (p : Nat) : (ss.removeAt p).toList = ss.toList.eraseIdx p := by
  cases h : ss.get? p with
  | some s => simp [removeAt, h, toList, reindexFrom]
  | none =>
    have outside : ss.toList.length ≤ p := by simpa [get?_eq] using h
    simp [removeAt, h, List.eraseIdx_of_length_le outside]

theorem toList_swap {a b : Nat} {t : Stripe} (ha : ss.get? a = some s) (hb : ss.get? b = some t) :
    (ss.swap a b).toList = (ss.toList.set a t).set b s := by
  obtain ⟨la, rfl⟩ := Array.getElem?_eq_some_iff.mp ha
  obtain ⟨lb, rfl⟩ := Array.getElem?_eq_some_iff.mp hb
  simp only [swap, ha, hb, toList, Array.swapIfInBounds, dif_pos la, dif_pos lb, Array.swap]
  simp

theorem toList_move {source target : Nat} (hs : ss.get? source = some s) (ht : target < ss.size) :
    (ss.move source target).toList = (ss.toList.eraseIdx source).insertIdx target s := by
  have inside : target ≤ (ss.listed.eraseIdxIfInBounds source).size := by
    have := lt_size_of_get? hs
    simp only [size] at ht this
    rw [Array.eraseIdxIfInBounds, dif_pos this, Array.size_eraseIdx]
    omega
  simp only [move, hs, ht, if_true, toList_reindexFrom]
  rw [toList, Array.insertIdxIfInBounds, dif_pos inside, Array.toList_insertIdx,
    Array.toList_eraseIdxIfInBounds]
  rfl

theorem toList_reorder (ss : Stripes) (order : List Nat) :
    (ss.reorder order).toList =
      (order.eraseDups ++ (List.range ss.size).filter fun p => !order.contains p).filterMap
        (ss.toList[·]?) := by
  have look : ss.get? = fun p => ss.toList[p]? := funext ss.get?_eq
  simp [reorder, toList, reindexFrom, look]

theorem toList_modify (ss : Stripes) (p : Nat) (f : Stripe → Stripe) :
    (ss.modify p f).toList = ss.toList.modify p f := by
  simp [modify, toList]

theorem toList_touchAll (ss : Stripes) : ss.touchAll.toList = ss.toList.map Stripe.touch := by
  simp [touchAll, toList]

/-- After a change of one stripe, each stripe is the changed one or stands elsewhere. -/
theorem of_mem_modify {f : Stripe → Stripe} (mem : s ∈ (ss.modify p f).toList) :
    (∃ t, ss.get? p = some t ∧ s = f t) ∨ ∃ q, q ≠ p ∧ ss.get? q = some s := by
  rw [toList_modify] at mem
  obtain ⟨q, at?⟩ := List.mem_iff_getElem?.mp mem
  rw [List.getElem?_modify] at at?
  obtain ⟨t, old, rfl⟩ := Option.map_eq_some_iff.mp at?
  rw [← get?_eq] at old
  by_cases here : p = q
  · subst here
    exact .inl ⟨t, old, by simp⟩
  · exact .inr ⟨q, fun same => here same.symm, by simpa [here] using old⟩

/-! ### Identities -/

theorem ids_insertAt (ss : Stripes) (p : Nat) (s : Stripe) :
    (ss.insertAt p s).ids = ss.ids.insertIdx (min p ss.size) s.id := by
  rw [ids, toList_insertAt, List.map_insertIdx]
  rfl

theorem ids_removeAt (ss : Stripes) (p : Nat) : (ss.removeAt p).ids = ss.ids.eraseIdx p := by
  rw [ids, toList_removeAt, ids, List.eraseIdx_map]

theorem ids_modify {f : Stripe → Stripe} (keeps : ∀ s, (f s).id = s.id) (ss : Stripes) (p : Nat) :
    (ss.modify p f).ids = ss.ids := by
  rw [ids, toList_modify]
  refine List.ext_getElem? fun q => ?_
  simp only [ids, List.getElem?_map, List.getElem?_modify]
  cases ss.toList[q]? with
  | none => rfl
  | some s => by_cases h : p = q <;> simp [h, keeps]

@[simp] theorem ids_touchAll (ss : Stripes) : ss.touchAll.ids = ss.ids := by
  simp [ids, toList_touchAll, Stripe.touch]

/-- A list is a rearrangement of the places that an order names, each at its first mention, and of the
    others. -/
theorem perm_positions (n : Nat) (order : List Nat) :
    ((order.eraseDups ++ (List.range n).filter fun p => !order.contains p).filter (· < n)).Perm
      (List.range n) := by
  have distinct : (order.eraseDups ++ (List.range n).filter fun p => !order.contains p).Nodup := by
    refine List.nodup_append.mpr ⟨nodup_eraseDups order, List.nodup_range.filter _, ?_⟩
    rintro a named b other rfl
    have := List.mem_eraseDups.mp named
    simp_all
  refine (List.perm_ext_iff_of_nodup (distinct.filter _) List.nodup_range).mpr fun p => ?_
  simp only [List.mem_filter, List.mem_append, List.mem_eraseDups, List.mem_range, decide_eq_true_eq]
  by_cases named : p ∈ order <;> simp [named]

theorem perm_reorder (ss : Stripes) (order : List Nat) : (ss.reorder order).toList.Perm ss.toList := by
  have inside (places : List Nat) :
      places.filterMap (ss.toList[·]?) = (places.filter (· < ss.size)).filterMap (ss.toList[·]?) := by
    rw [List.filterMap_filter]
    refine List.filterMap_congr fun p _ => ?_
    by_cases h : p < ss.size
    · simp [h]
    · simp [h, length_toList]
  have whole : (List.range ss.size).filterMap (ss.toList[·]?) = ss.toList :=
    filterMap_getElem?_range ss.toList
  have moved := (perm_positions ss.size order).filterMap (ss.toList[·]?)
  rw [whole] at moved
  rw [toList_reorder, inside]
  exact moved

theorem perm_move {source target : Nat} : (ss.move source target).toList.Perm ss.toList := by
  cases hs : ss.get? source with
  | none => simp [move, hs]
  | some s =>
    by_cases ht : target < ss.size
    · have at? : ss.toList[source]? = some s := by rw [← get?_eq]; exact hs
      obtain ⟨ls, rfl⟩ := List.getElem?_eq_some_iff.mp at?
      rw [toList_move hs ht]
      have room : target ≤ (ss.toList.eraseIdx source).length := by
        rw [List.length_eraseIdx_of_lt ls, length_toList]
        omega
      exact (List.perm_insertIdx _ _ room).trans (List.getElem_cons_eraseIdx_perm ls)
    · simp [move, hs, ht]

theorem perm_swap {a b : Nat} : (ss.swap a b).toList.Perm ss.toList := by
  cases ha : ss.get? a with
  | none => simp [swap, ha]
  | some s =>
    cases hb : ss.get? b with
    | none => simp [swap, ha, hb]
    | some t =>
      rw [toList_swap ha hb]
      rw [get?_eq] at ha hb
      obtain ⟨la, rfl⟩ := List.getElem?_eq_some_iff.mp ha
      obtain ⟨lb, rfl⟩ := List.getElem?_eq_some_iff.mp hb
      exact List.set_set_perm la lb

/-! ### Positions -/

/-- The map of positions is the inverse of the list. -/
def Indexed (ss : Stripes) : Prop := ∀ i p, ss.positionOf i = some p ↔ ss.idAt p = some i

namespace Indexed

/-- No identity stands at two positions. -/
theorem nodup (h : ss.Indexed) : ss.ids.Nodup := by
  rw [List.nodup_iff_getElem?_ne_getElem?]
  intro p q less inside same
  obtain ⟨i, at?⟩ : ∃ i, ss.ids[q]? = some i := ⟨_, List.getElem?_eq_getElem inside⟩
  have hp := (h i p).mpr (by rw [idAt_eq, same, at?])
  have hq := (h i q).mpr (by rw [idAt_eq, at?])
  simp only [hp, Option.some.injEq] at hq
  omega

/-- The keys of the map are the identities of the list. -/
theorem isSome_positionOf (h : ss.Indexed) : (ss.positionOf i).isSome ↔ i ∈ ss.ids := by
  rw [Option.isSome_iff_exists, List.mem_iff_getElem?]
  exact exists_congr fun p => by rw [h i p, idAt_eq]

theorem positionOf_eq_none (h : ss.Indexed) : ss.positionOf i = none ↔ i ∉ ss.ids := by
  rw [← h.isSome_positionOf, Bool.not_eq_true, Option.isSome_eq_false_iff, Option.isNone_iff_eq_none]

theorem position_unique (h : ss.Indexed) {q : Nat} (hp : ss.idAt p = some i) (hq : ss.idAt q = some i) :
    p = q :=
  Option.some.inj (((h i p).mpr hp).symm.trans ((h i q).mpr hq))

/-- The map of positions is known by the list. -/
theorem ext {other : Stripes} (h : ss.Indexed) (h' : other.Indexed) (same : ss.toList = other.toList) :
    ss = other := by
  have ids : ss.ids = other.ids := congrArg (List.map Stripe.id) same
  have positions : ss.positions = other.positions := by
    refine Std.ExtTreeMap.ext_getElem? fun i => Option.ext fun p => (h i p).trans ?_
    rw [idAt_eq, ids, ← idAt_eq]
    exact (h' i p).symm
  cases ss
  cases other
  rw [Stripes.mk.injEq]
  exact ⟨Array.toList_inj.mp same, positions⟩

/-- A stripe is found by its identity. -/
theorem byId_eq_some (h : ss.Indexed) : ss.byId i = some s ↔ s ∈ ss.toList ∧ s.id = i := by
  rw [byId, Option.bind_eq_some_iff]
  constructor
  · rintro ⟨p, found, at?⟩
    refine ⟨List.mem_of_getElem? (get?_eq ss p ▸ at?), ?_⟩
    have own := (h i p).mp found
    rw [idAt_of_get? at?] at own
    exact Option.some.inj own
  · rintro ⟨mem, rfl⟩
    obtain ⟨p, at?⟩ := List.mem_iff_getElem?.mp mem
    rw [← get?_eq] at at?
    exact ⟨p, (h s.id p).mpr (idAt_of_get? at?), at?⟩

/-- Taking a stripe out takes out its identity and no other. -/
theorem mem_ids_removeAt (h : ss.Indexed) {own : StripeId} (at? : ss.idAt p = some own) :
    i ∈ (ss.removeAt p).ids ↔ i ∈ ss.ids ∧ i ≠ own := by
  rw [ids_removeAt, List.mem_eraseIdx_iff_getElem?]
  constructor
  · rintro ⟨q, ne, there⟩
    rw [← idAt_eq] at there
    exact ⟨mem_ids_of_idAt there, fun same => ne (h.position_unique there (same ▸ at?))⟩
  · rintro ⟨mem, ne⟩
    obtain ⟨q, there⟩ := List.mem_iff_getElem?.mp mem
    refine ⟨q, fun same => ne ?_, there⟩
    rw [← idAt_eq, same, at?] at there
    exact (Option.some.inj there).symm

end Indexed

theorem enter_of_ne {listed : Array Stripe} {positions : Std.ExtTreeMap StripeId Nat}
    (other : (listed[p]?.map Stripe.id) ≠ some i) : (enter listed positions p)[i]? = positions[i]? := by
  simp only [enter]
  split
  · next s hs =>
    have : s.id ≠ i := fun same => other (by simp [hs, same])
    simp [Std.ExtTreeMap.getElem?_insert, this]
  · rfl

theorem enter_self {listed : Array Stripe} {positions : Std.ExtTreeMap StripeId Nat}
    (here : (listed[p]?.map Stripe.id) = some i) : (enter listed positions p)[i]? = some p := by
  obtain ⟨s, hs, rfl⟩ := Option.map_eq_some_iff.mp here
  simp [enter, hs]

/-- Entering positions leaves those of identities that stand elsewhere alone. -/
theorem foldl_enter_of_ne {listed : Array Stripe} :
    ∀ (places : List Nat) {positions : Std.ExtTreeMap StripeId Nat},
      (∀ p ∈ places, (listed[p]?.map Stripe.id) ≠ some i) →
      (places.foldl (enter listed) positions)[i]? = positions[i]?
  | [], _, _ => rfl
  | p :: rest, _, other => by
    rw [List.foldl_cons, foldl_enter_of_ne rest fun q hq => other q (List.mem_cons_of_mem _ hq)]
    exact enter_of_ne (other p List.mem_cons_self)

/-- Entering positions makes those of the identities found there right. -/
theorem foldl_enter_of_mem {listed : Array Stripe} :
    ∀ (places : List Nat) {positions : Std.ExtTreeMap StripeId Nat},
      (∀ q ∈ places, (listed[q]?.map Stripe.id) = some i → q = p) → p ∈ places →
      (listed[p]?.map Stripe.id) = some i → (places.foldl (enter listed) positions)[i]? = some p
  | q :: rest, _, only, found, here => by
    rw [List.foldl_cons]
    by_cases later : p ∈ rest
    · exact foldl_enter_of_mem rest (fun r hr => only r (List.mem_cons_of_mem _ hr)) later here
    · obtain rfl : p = q := (List.mem_cons.mp found).resolve_right later
      rw [foldl_enter_of_ne rest fun r hr again => later (only r (List.mem_cons_of_mem _ hr) again ▸ hr)]
      exact enter_self here

/-- Reindexing repairs a map whose entries for the identities before the first position are right. -/
theorem indexed_reindexFrom (distinct : ss.ids.Nodup)
    (before : ∀ i p, (∀ q, start ≤ q → ss.idAt q ≠ some i) →
      (ss.positionOf i = some p ↔ ss.idAt p = some i)) :
    (ss.reindexFrom start).Indexed := by
  have range_iff : ∀ q, q ∈ List.range' start (ss.listed.size - start) ↔ start ≤ q ∧ q < ss.size := by
    intro q
    simp only [List.mem_range'_1, size]
    omega
  have here_iff : ∀ q i, (ss.listed[q]?.map Stripe.id) = some i ↔ ss.idAt q = some i := fun _ _ => Iff.rfl
  have only : ∀ p q i, ss.idAt p = some i → ss.idAt q = some i → p = q := by
    intro p q i hp hq
    have inside := idAt_lt hp
    rw [idAt_eq] at hp hq
    exact (List.getElem?_inj (by simpa using inside) distinct).mp (hp.trans hq.symm)
  intro i p
  show ((List.range' start (ss.listed.size - start)).foldl (enter ss.listed) ss.positions)[i]? = some p ↔
    ss.idAt p = some i
  by_cases shifted : ∃ q, start ≤ q ∧ ss.idAt q = some i
  · obtain ⟨q, hq, at?⟩ := shifted
    rw [foldl_enter_of_mem _ (fun r _ hr => only r q i ((here_iff r i).mp hr) at?)
      ((range_iff q).mpr ⟨hq, idAt_lt at?⟩) ((here_iff q i).mpr at?)]
    refine ⟨fun same => Option.some.inj same ▸ at?, fun hp => congrArg some (only q p i at? hp)⟩
  · push Not at shifted
    rw [foldl_enter_of_ne _ fun q hq => shifted q ((range_iff q).mp hq).1]
    exact before i p shifted

/-- An operation that keeps the front of the list may reindex from there, once the entries of what it
    took out are gone from the map. -/
theorem Indexed.reindexFrom {changed : Stripes} (h : ss.Indexed) (distinct : changed.ids.Nodup)
    (kept : ∀ i ∈ changed.ids, changed.positionOf i = ss.positionOf i)
    (gone : ∀ i, i ∉ changed.ids → changed.positionOf i = none)
    (front : ∀ p, p < start → changed.idAt p = ss.idAt p) : (changed.reindexFrom start).Indexed := by
  refine indexed_reindexFrom distinct fun i p settled => ?_
  by_cases mem : i ∈ changed.ids
  · rw [kept i mem, h i p]
    obtain ⟨q, at?⟩ := List.mem_iff_getElem?.mp mem
    rw [← idAt_eq] at at?
    have before : q < start := by
      by_contra after
      exact settled q (Nat.le_of_not_lt after) at?
    have at?' : ss.idAt q = some i := front q before ▸ at?
    refine ⟨fun hp => h.position_unique hp at?' ▸ at?, fun hp => ?_⟩
    have : p < start := by
      by_contra after
      exact settled p (Nat.le_of_not_lt after) hp
    exact front p this ▸ hp
  · rw [gone i mem]
    exact ⟨fun none => by simp at none, fun hp => absurd (mem_ids_of_idAt hp) mem⟩

theorem indexed_empty : ({} : Stripes).Indexed := by
  intro i p
  simp [positionOf, idAt, get?]

theorem indexed_insertAt (h : ss.Indexed) (fresh : s.id ∉ ss.ids) (p : Nat) : (ss.insertAt p s).Indexed := by
  have room : min p ss.size ≤ ss.ids.length := by rw [length_ids]; exact Nat.min_le_right ..
  have perm := List.perm_insertIdx s.id ss.ids room
  have ids_eq := ids_insertAt ss p s
  show (Stripes.reindexFrom ⟨ss.listed.insertIdxIfInBounds (min p ss.size) s,
    ss.positions⟩ (min p ss.size)).Indexed
  refine h.reindexFrom (show (ss.insertAt p s).ids.Nodup from ?_) (fun _ _ => rfl) (fun i out => ?_)
    fun q before => ?_
  · rw [ids_eq]
    exact perm.nodup_iff.mpr (List.nodup_cons.mpr ⟨fresh, h.nodup⟩)
  · refine h.positionOf_eq_none.mpr fun mem => out ?_
    show i ∈ (ss.insertAt p s).ids
    rw [ids_eq]
    exact perm.mem_iff.mpr (List.mem_cons_of_mem _ mem)
  · show (ss.insertAt p s).idAt q = ss.idAt q
    have before : q < min p ss.size := before
    rw [idAt_eq, ids_eq, List.getElem?_insertIdx_of_lt before, ← idAt_eq]

theorem indexed_removeAt (h : ss.Indexed) (p : Nat) : (ss.removeAt p).Indexed := by
  cases hs : ss.get? p with
  | none => simpa [removeAt, hs] using h
  | some s =>
    have mem_iff := fun i => h.mem_ids_removeAt (i := i) (idAt_of_get? hs)
    have ids_eq := ids_removeAt ss p
    rw [ids_eq] at mem_iff
    simp only [removeAt, hs, ids_reindexFrom] at ids_eq ⊢
    refine h.reindexFrom (by rw [ids_eq]; exact h.nodup.sublist (List.eraseIdx_sublist ..)) (fun i mem => ?_)
      (fun i out => ?_) fun q before => ?_
    · have ne : s.id ≠ i := ((mem_iff i).mp (ids_eq ▸ mem)).2.symm
      simp [positionOf, Std.ExtTreeMap.getElem?_erase, ne]
    · rw [ids_eq, mem_iff] at out
      by_cases same : s.id = i
      · simp [positionOf, same]
      · have absent : i ∉ ss.ids := fun mem => out ⟨mem, fun eq => same eq.symm⟩
        have none_at : ss.positions[i]? = none := h.positionOf_eq_none.mpr absent
        simp [positionOf, Std.ExtTreeMap.getElem?_erase, none_at]
    · rw [idAt_eq, ids_eq, List.getElem?_eraseIdx_of_lt before, ← idAt_eq]

/-- Exchanging two stripes corrects two entries and leaves the others right. -/
theorem indexed_swap (h : ss.Indexed) (a b : Nat) : (ss.swap a b).Indexed := by
  cases ha : ss.get? a with
  | none => simpa [swap, ha] using h
  | some s =>
    cases hb : ss.get? b with
    | none => simpa [swap, ha, hb] using h
    | some t =>
      have la := lt_size_of_get? ha
      have lb := lt_size_of_get? hb
      have sa := idAt_of_get? ha
      have tb := idAt_of_get? hb
      have at_iff : ∀ i p, (ss.swap a b).idAt p = some i ↔
          if b = p then s.id = i else if a = p then t.id = i else ss.idAt p = some i := by
        intro i p
        rw [idAt_eq, ids, toList_swap ha hb, List.getElem?_map, List.getElem?_set, List.getElem?_set,
          List.length_set, length_toList, idAt, get?_eq]
        by_cases hbp : b = p
        · simp [hbp, hbp ▸ lb]
        · by_cases hap : a = p
          · simp [hbp, hap, hap ▸ la]
          · simp [hbp, hap]
      intro i p
      rw [at_iff]
      simp only [swap, ha, hb, positionOf, Std.ExtTreeMap.getElem?_insert, Std.LawfulEqOrd.compare_eq_iff_eq]
      have back := h i p
      simp only [positionOf] at back
      by_cases hsi : s.id = i
      · have := h.position_unique (hsi ▸ sa) (q := p)
        have := h.position_unique (p := b) (q := a) (i := i)
        grind
      · by_cases hti : t.id = i
        · have := h.position_unique (hti ▸ tb) (q := p)
          grind
        · grind

theorem indexed_move (h : ss.Indexed) (source target : Nat) : (ss.move source target).Indexed := by
  have perm : (ss.move source target).ids.Perm ss.ids := perm_move.map Stripe.id
  cases hs : ss.get? source with
  | none => simpa [move, hs] using h
  | some s =>
    by_cases ht : target < ss.size
    · have listed := toList_move hs ht
      simp only [move, hs, ht, if_true, toList_reindexFrom, ids_reindexFrom] at perm listed ⊢
      refine h.reindexFrom (perm.nodup_iff.mpr h.nodup) (fun _ _ => rfl) (fun i out => ?_) fun q before => ?_
      · exact h.positionOf_eq_none.mpr fun mem => out (perm.mem_iff.mpr mem)
      · rw [idAt, get?_eq, listed, List.getElem?_insertIdx_of_lt (by omega),
          List.getElem?_eraseIdx_of_lt (by omega), ← get?_eq]
        rfl
    · simpa [move, hs, ht] using h

theorem indexed_reorder (h : ss.Indexed) (order : List Nat) : (ss.reorder order).Indexed := by
  have perm : (ss.reorder order).ids.Perm ss.ids := (perm_reorder ss order).map Stripe.id
  refine h.reindexFrom (perm.nodup_iff.mpr h.nodup) (fun _ _ => rfl) (fun i out => ?_)
    fun q before => absurd before (Nat.not_lt_zero q)
  exact h.positionOf_eq_none.mpr fun mem => out (perm.mem_iff.mpr mem)

/-- Changing stripes in place changes neither the list of identities nor the map. -/
theorem Indexed.congr {other : Stripes} (h : ss.Indexed) (ids_eq : other.ids = ss.ids)
    (positions_eq : other.positions = ss.positions) : other.Indexed := by
  intro i p
  rw [positionOf, positions_eq, idAt_eq, ids_eq, ← idAt_eq]
  exact h i p

theorem indexed_modify {f : Stripe → Stripe} (keeps : ∀ s, (f s).id = s.id) (h : ss.Indexed) (p : Nat) :
    (ss.modify p f).Indexed :=
  h.congr (ids_modify keeps ss p) rfl

theorem indexed_touchAll (h : ss.Indexed) : ss.touchAll.Indexed := h.congr (ids_touchAll ss) rfl

end LiveTable.Stripes
