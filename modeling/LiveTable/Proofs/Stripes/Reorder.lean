import LiveTable.Proofs.Stripes
import Mathlib.Data.List.ReduceOption

/-! Rearranging stripes by an order that may be any list of positions: it may name a position more than
    once, leave positions out, and name some where there is no stripe.  One way to follow it is by slots:
    each stripe waits in a slot of its own until its position is called, and those that are never called
    come last.  What the calls so far have come to is told by the positions called, whence the outcome;
    and it is the list whose stripes stand in the order of their first mention. -/

namespace LiveTable.Stripes

variable {β : Type} {l : List β} {order : List Nat} {state : List β × List (Option β)} {p : Nat}
variable {ss : Stripes}

/-! ### Slots -/

/-- Calls one position: what waits in its slot is taken out and put behind what was taken before.  A slot
    that is empty or not there gives nothing. -/
def call (state : List β × List (Option β)) (p : Nat) : List β × List (Option β) :=
  match state.2[p]? with
  | some (some b) => (state.1 ++ [b], state.2.set p none)
  | _ => state

/-- Calls the positions of an order one after the other; whatever still waits then follows as it stands. -/
def callAll (order : List Nat) (l : List β) : List β :=
  let called := order.foldl call ([], l.map some)
  called.1 ++ called.2.reduceOption

/-- What calling the positions of an order has come to. -/
structure Called (l : List β) (order : List Nat) (state : List β × List (Option β)) : Prop where
  taken : state.1 = order.eraseDups.filterMap (l[·]?)
  waiting : ∀ p, state.2[p]? = l[p]?.map fun b => if p ∈ order then none else some b

theorem called_nil (l : List β) : Called l [] ([], l.map some) where
  taken := rfl
  waiting p := by simp

/-- A position that was called before, or that is not there, changes nothing. -/
theorem Called.skip (h : Called l order state) (nothing : p ∈ order ∨ l[p]? = none) :
    Called l (order ++ [p]) state where
  taken := by
    rw [h.taken, eraseDups_concat]
    split
    · rw [List.append_nil]
    · next first => simp [nothing.resolve_left first]
  waiting q := by
    rw [h.waiting]
    by_cases same : q = p
    · subst same
      rcases nothing with again | none
      · simp [again]
      · simp [none]
    · simp [same]

/-- A position that is called for the first time gives what stands there. -/
theorem Called.take {b : β} (h : Called l order state) (at? : l[p]? = some b) (first : p ∉ order) :
    Called l (order ++ [p]) (state.1 ++ [b], state.2.set p none) where
  taken := by
    rw [h.taken, eraseDups_concat, if_neg first, List.filterMap_append]
    simp [at?]
  waiting q := by
    have slot : state.2[p]? = some (some b) := by rw [h.waiting, at?, Option.map_some, if_neg first]
    have inside := (List.getElem?_eq_some_iff.mp slot).1
    rw [List.getElem?_set, h.waiting]
    by_cases same : p = q
    · subst same
      simp [inside, at?]
    · simp [same, Ne.symm same]

theorem Called.concat (h : Called l order state) (p : Nat) : Called l (order ++ [p]) (call state p) := by
  have slot := h.waiting p
  rw [call]
  cases at? : l[p]? with
  | none =>
    rw [slot, at?]
    exact h.skip (.inr at?)
  | some b =>
    rw [slot, at?, Option.map_some]
    by_cases again : p ∈ order
    · rw [if_pos again]
      exact h.skip (.inl again)
    · rw [if_neg again]
      exact h.take at? again

/-- The invariant holds before the first call, and each call keeps it. -/
theorem called_foldl (l : List β) (order : List Nat) :
    Called l order (order.foldl call ([], l.map some)) := by
  induction order using List.reverseRecOn with
  | nil => exact called_nil l
  | append_singleton order p ih =>
    rw [List.foldl_concat]
    exact ih.concat p

/-- Calling positions one after the other takes out what stands at them, each at its first call, and
    leaves the rest. -/
theorem callAll_eq (order : List Nat) (l : List β) :
    callAll order l =
      (order.eraseDups ++ (List.range l.length).filter fun p => !order.contains p).filterMap (l[·]?) := by
  obtain ⟨taken, waiting⟩ := called_foldl l order
  have slots : (order.foldl call ([], l.map some)).2 =
      (List.range l.length).map fun p => if order.contains p then none else l[p]? := by
    refine List.ext_getElem? fun p => ?_
    rw [waiting, List.getElem?_map]
    by_cases inside : p < l.length
    · rw [List.getElem?_range inside, List.getElem?_eq_getElem inside]
      by_cases called : p ∈ order <;> simp [called]
    · rw [List.getElem?_eq_none (Nat.le_of_not_lt inside), List.getElem?_eq_none (by simpa using inside)]
      rfl
  rw [callAll, taken, slots, List.reduceOption, List.filterMap_map, List.filterMap_append,
    List.filterMap_filter]
  refine congrArg _ (List.filterMap_congr fun p _ => ?_)
  by_cases called : p ∈ order <;> simp [called]

/-! ### First mention -/

/-- A list rearranged by an order: `named` are the positions that give what stands in front, `others`
    those that give the rest. -/
structure Arranged (order : List Nat) (before after : List β) (named others : List Nat) : Prop where
  parts : after.map some = (named ++ others).map (before[·]?)
  mem_named : ∀ p, p ∈ named ↔ p ∈ order ∧ p < before.length
  /-- What the order names comes as it is first mentioned. -/
  mentioned : named.Pairwise fun p q => order.idxOf p < order.idxOf q
  mem_others : ∀ p, p ∈ others ↔ p ∉ order ∧ p < before.length
  /-- What it does not name stays in its former order. -/
  former : others.Pairwise (· < ·)

theorem map_some_filterMap_getElem? (l : List β) (places : List Nat) :
    (places.filterMap (l[·]?)).map some = (places.filter (· < l.length)).map (l[·]?) := by
  induction places with
  | nil => rfl
  | cons p places ih =>
    by_cases inside : p < l.length
    · simp [inside, ih]
    · simp [inside, ih]

theorem arranged_reorder (ss : Stripes) (order : List Nat) :
    Arranged order ss.toList (ss.reorder order).toList (order.eraseDups.filter (· < ss.size))
      ((List.range ss.size).filter fun p => !order.contains p) where
  parts := by
    have inside : ((List.range ss.size).filter fun p => !order.contains p).filter (· < ss.size) =
        (List.range ss.size).filter fun p => !order.contains p :=
      List.filter_eq_self.mpr fun p mem => by simpa using (List.mem_filter.mp mem).1
    rw [toList_reorder, map_some_filterMap_getElem?, length_toList, List.filter_append, inside]
  mem_named p := by simp [length_toList]
  mentioned := (pairwise_eraseDups order).filter _
  mem_others p := by simp [length_toList, and_comm]
  former := List.pairwise_lt_range.filter _

/-- Rearranging is calling the positions of the order one after the other and entering every stripe anew,
    the map being written over. -/
theorem reorder_eq_callAll (ss : Stripes) (order : List Nat) :
    ss.reorder order = reindexFrom ⟨(callAll order ss.toList).toArray, ss.positions⟩ 0 := by
  have look : ss.get? = fun p => ss.toList[p]? := funext ss.get?_eq
  rw [callAll_eq, length_toList, reorder, look]

/-- Rearranging follows any order at all, with repetitions, positions outside the list and positions left
    out.  It comes to calling the positions one after the other, each stripe being taken out of its slot
    when it is first called: in front stand the stripes at the positions that the order names and that
    exist, as they are first mentioned, and then all others as they stood.  Every stripe is there as
    often as before, with its identity, title and revision, and although no entry is taken out of the map
    of positions, it is again the inverse of the list. -/
theorem reorder_rearranges (h : ss.Indexed) (order : List Nat) :
    let after := ss.reorder order
    after = reindexFrom ⟨(callAll order ss.toList).toArray, ss.positions⟩ 0 ∧
      (∃ named others, Arranged order ss.toList after.toList named others) ∧
      after.toList.Perm ss.toList ∧ after.Indexed :=
  ⟨reorder_eq_callAll ss order, ⟨_, _, arranged_reorder ss order⟩, perm_reorder ss order,
    indexed_reorder h order⟩

/-- An order that names one of four stripes twice, one that is not there, and leaves two out. -/
theorem reorder_rearranges_partly :
    let a : Stripe := ⟨⟨4⟩, some "a", 2⟩
    let b : Stripe := ⟨⟨7⟩, none, 0⟩
    let c : Stripe := ⟨⟨5⟩, some "c", 1⟩
    let d : Stripe := ⟨⟨9⟩, some "a", 3⟩
    let ss := ((((({} : Stripes).insertAt 0 a).insertAt 1 b).insertAt 2 c).insertAt 3 d)
    let after := ss.reorder [3, 9, 1, 3]
    ss.Indexed ∧ after.toList = [d, b, a, c] ∧ after.toList.Perm ss.toList ∧ after.Indexed := by
  intro a b c d ss after
  have indexed : ss.Indexed :=
    indexed_insertAt (indexed_insertAt (indexed_insertAt (indexed_insertAt indexed_empty (by decide) 0)
      (by decide +kernel) 1) (by decide +kernel) 2) (by decide +kernel) 3
  obtain ⟨called, -, perm, inverse⟩ := reorder_rearranges indexed [3, 9, 1, 3]
  exact ⟨indexed, (congrArg toList called).trans (by decide +kernel), perm, inverse⟩

end LiveTable.Stripes
