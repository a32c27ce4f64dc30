import LiveTable.Index.Groups
import LiveTable.Proofs.SortedMap

/-! What groups stand for.  Groups represent a function that gives some rows a key: the key of each row
    is the value of the function, the keys ascend, each key has the rows that the function sends to it,
    oldest first, and no key is without rows.  Putting a row under a key changes the function there and
    nowhere else. -/

namespace LiveTable.Groups

variable {κ : Type} [Ord κ]

/-! ### Rows of one key -/

theorem mem_addRow : ∀ {rows : List StripeId} {row r : StripeId}, r ∈ addRow rows row ↔ r = row ∨ r ∈ rows
  | [], row, r => by simp [addRow]
  | other :: rest, row, r => by
    rw [addRow]
    cases order : compare row other with
    | lt => rw [List.mem_cons]
    | eq =>
      obtain rfl := Std.LawfulEqOrd.eq_of_compare order
      simp
    | gt =>
      rw [List.mem_cons, mem_addRow, List.mem_cons]
      exact or_left_comm

/-- The rows of a key stand by age. -/
def Aged (rows : List StripeId) : Prop := rows.Pairwise fun a b => a.value < b.value

theorem aged_addRow : ∀ {rows : List StripeId} {row : StripeId}, Aged rows → Aged (addRow rows row)
  | [], row, _ => List.pairwise_singleton ..
  | other :: rest, row, h => by
    obtain ⟨below, later⟩ := List.pairwise_cons.mp h
    rw [addRow]
    cases order : compare row other with
    | lt =>
      have less : row.value < other.value := Nat.compare_eq_lt.mp order
      refine List.pairwise_cons.mpr ⟨fun r mem => ?_, h⟩
      rcases List.mem_cons.mp mem with rfl | mem
      · exact less
      · exact Nat.lt_trans less (below r mem)
    | eq => exact h
    | gt =>
      have greater : other.value < row.value := Nat.compare_eq_gt.mp order
      refine List.pairwise_cons.mpr ⟨fun r mem => ?_, aged_addRow later⟩
      rcases mem_addRow.mp mem with rfl | mem
      · exact greater
      · exact below r mem

/-! ### Groups of a function -/

/-- Groups hold the rows of a function by its values. -/
structure Represents (g : Groups κ) (f : StripeId → Option κ) : Prop where
  keyOf : ∀ r, g.keyOf.lookup r = f r
  ascending : g.rowsOf.Ascending
  aged : ∀ entry ∈ g.rowsOf, Aged entry.2
  nonempty : ∀ entry ∈ g.rowsOf, entry.2 ≠ []
  sound : ∀ entry ∈ g.rowsOf, ∀ r ∈ entry.2, f r = some entry.1
  complete : ∀ r k, f r = some k → ∃ rows, (k, rows) ∈ g.rowsOf ∧ r ∈ rows

theorem represents_empty : ({} : Groups κ).Represents fun _ => none where
  keyOf := by simp
  ascending := List.Pairwise.nil
  aged := by simp
  nonempty := by simp
  sound := by simp
  complete := by simp

theorem lookup_filter_ne {β : Type} (row r : StripeId) : ∀ l : List (StripeId × β),
    (l.filter fun entry => entry.1 != row).lookup r = if r = row then none else l.lookup r
  | [] => by simp
  | (s, b) :: rest => by
    have later := lookup_filter_ne row r rest
    rw [List.filter_cons, List.lookup_cons]
    by_cases same : s = row
    · subst same
      rw [if_neg (by simp), later]
      by_cases here : r = s
      · rw [if_pos here, if_pos here]
      · rw [if_neg here, if_neg here, beq_false_of_ne here]
    · rw [if_pos (bne_iff_ne.mpr same), List.lookup_cons, later]
      by_cases here : r = row
      · subst here
        rw [if_pos rfl, if_pos rfl, beq_false_of_ne (Ne.symm same)]
      · rw [if_neg here, if_neg here]

namespace Represents

variable {g : Groups κ} {f : StripeId → Option κ}

theorem congr (h : g.Represents f) {f' : StripeId → Option κ} (same : ∀ r, f r = f' r) : g.Represents f' :=
  funext same ▸ h

/-- The keys are the values of the function. -/
theorem mem_keys (h : g.Represents f) {k : κ} : k ∈ g.keys ↔ ∃ r, f r = some k := by
  rw [Groups.keys, SortedMap.keys, List.mem_map]
  constructor
  · rintro ⟨entry, mem, rfl⟩
    obtain ⟨r, rest, rows⟩ := List.exists_cons_of_ne_nil (h.nonempty entry mem)
    exact ⟨r, h.sound entry mem r (by simp [rows])⟩
  · rintro ⟨r, value⟩
    obtain ⟨rows, mem, -⟩ := h.complete r k value
    exact ⟨_, mem, rfl⟩

/-- Groups without rows are empty in both directions. -/
theorem eq_nil (h : g.Represents fun _ => none) : g.keyOf = [] ∧ g.rowsOf = [] := by
  constructor
  · cases listed : g.keyOf with
    | nil => rfl
    | cons entry rest =>
      have found := h.keyOf entry.1
      simp [listed] at found
  · refine List.eq_nil_iff_forall_not_mem.mpr fun entry mem => ?_
    obtain ⟨r, rest, rows⟩ := List.exists_cons_of_ne_nil (h.nonempty entry mem)
    simpa using h.sound entry mem r (by simp [rows])

variable [Std.LawfulEqOrd κ]

/-- The rows of a key are those that the function sends to it. -/
theorem mem_rows (h : g.Represents f) {k : κ} {r : StripeId} : r ∈ g.rows k ↔ f r = some k := by
  constructor
  · intro mem
    cases found : g.rowsOf.get? k with
    | none => simp [Groups.rows, found] at mem
    | some rows =>
      rw [Groups.rows, found, Option.getD_some] at mem
      exact h.sound _ ((SortedMap.get?_eq_some h.ascending).mp found) r mem
  · intro value
    obtain ⟨rows, here, mem⟩ := h.complete r k value
    rw [Groups.rows, (SortedMap.get?_eq_some h.ascending).mpr here]
    exact mem

/-- The two directions are inverse to each other. -/
theorem lookup_eq_some (h : g.Represents f) {k : κ} {r : StripeId} :
    g.keyOf.lookup r = some k ↔ r ∈ g.rows k := by
  rw [h.keyOf, h.mem_rows]

theorem aged_rows (h : g.Represents f) (k : κ) : Aged (g.rows k) := by
  cases found : g.rowsOf.get? k with
  | none =>
    rw [Groups.rows, found]
    exact List.Pairwise.nil
  | some rows =>
    rw [Groups.rows, found]
    exact h.aged _ ((SortedMap.get?_eq_some h.ascending).mp found)

/-- The pairs are the keys with their rows. -/
theorem rowsOf_eq (h : g.Represents f) : g.rowsOf = g.keys.map fun k => (k, g.rows k) := by
  rw [Groups.keys, SortedMap.keys, List.map_map]
  refine (List.map_id _).symm.trans (List.map_congr_left fun entry mem => ?_)
  have found := (SortedMap.get?_eq_some h.ascending).mpr (show (entry.1, entry.2) ∈ g.rowsOf from mem)
  simp [Groups.rows, found]

/-- A range lists the keys between its ends, ascending, with their rows. -/
theorem range?_eq (h : g.Represents f) (low high : Bound κ) :
    g.range? low high = if g.used && low.inverted high then none
      else some ((g.keys.filter fun k => low.admitsFrom k && high.admitsUpTo k).map fun k =>
        (k, g.rows k)) := by
  have listed := congrArg (SortedMap.between · low high) h.rowsOf_eq
  simp only [SortedMap.between, List.filter_map] at listed
  rw [Groups.range?, SortedMap.between, listed]
  rfl

variable [Std.TransOrd κ]

/-- Taking a row out takes its value away. -/
theorem remove (h : g.Represents f) (row : StripeId) :
    (g.remove row).Represents fun r => if r = row then none else f r := by
  rw [Groups.remove]
  cases value : g.keyOf.lookup row with
  | none =>
    refine h.congr fun r => ?_
    by_cases here : r = row
    · rw [if_pos here, here, ← h.keyOf, value]
    · rw [if_neg here]
  | some key =>
    have at_row : f row = some key := (h.keyOf row).symm.trans value
    have mem_left {r : StripeId} : r ∈ (g.rows key).filter (fun other => other != row) ↔
        f r = some key ∧ r ≠ row := by
      rw [List.mem_filter, h.mem_rows, bne_iff_ne]
    have keyOf (r : StripeId) : (g.keyOf.filter fun entry => entry.1 != row).lookup r =
        if r = row then none else f r := by
      rw [lookup_filter_ne, h.keyOf]
    dsimp only
    split
    · next none_left =>
      refine ⟨keyOf, SortedMap.ascending_erase h.ascending key, ?_, ?_, ?_, ?_⟩
      · exact fun entry mem => h.aged entry (SortedMap.mem_erase.mp mem).1
      · exact fun entry mem => h.nonempty entry (SortedMap.mem_erase.mp mem).1
      · intro entry mem r there
        obtain ⟨old, other⟩ := SortedMap.mem_erase.mp mem
        have sent := h.sound entry old r there
        rw [if_neg, sent]
        rintro rfl
        rw [sent] at at_row
        exact other (Option.some.inj at_row)
      · intro r k sent
        split at sent
        · simp at sent
        · next ne =>
          obtain ⟨rows, mem, there⟩ := h.complete r k sent
          refine ⟨rows, SortedMap.mem_erase.mpr ⟨mem, ?_⟩, there⟩
          rintro rfl
          have left := mem_left.mpr ⟨sent, ne⟩
          rw [List.isEmpty_iff.mp none_left] at left
          simp at left
    · next some_left =>
      refine ⟨keyOf, SortedMap.ascending_insert h.ascending key _, ?_, ?_, ?_, ?_⟩
      · intro entry mem
        rcases (SortedMap.mem_insert h.ascending).mp mem with rfl | ⟨old, -⟩
        · exact (h.aged_rows key).filter _
        · exact h.aged entry old
      · intro entry mem
        rcases (SortedMap.mem_insert h.ascending).mp mem with rfl | ⟨old, -⟩
        · exact fun empty => some_left (List.isEmpty_iff.mpr empty)
        · exact h.nonempty entry old
      · intro entry mem r there
        rcases (SortedMap.mem_insert h.ascending).mp mem with rfl | ⟨old, other⟩
        · obtain ⟨sent, ne⟩ := mem_left.mp there
          rw [if_neg ne, sent]
        · have sent := h.sound entry old r there
          rw [if_neg, sent]
          rintro rfl
          rw [sent] at at_row
          exact other (Option.some.inj at_row)
      · intro r k sent
        split at sent
        · simp at sent
        · next ne =>
          by_cases same : k = key
          · subst same
            exact ⟨_, (SortedMap.mem_insert h.ascending).mpr (.inl rfl), mem_left.mpr ⟨sent, ne⟩⟩
          · obtain ⟨rows, mem, there⟩ := h.complete r k sent
            exact ⟨rows, (SortedMap.mem_insert h.ascending).mpr (.inr ⟨mem, same⟩), there⟩

/-- Putting a row under a key gives it that value, and no key takes its value away. -/
theorem put (h : g.Represents f) (row : StripeId) (key : Option κ) :
    (g.put row key).Represents fun r => if r = row then key else f r := by
  have without := h.remove row
  cases key with
  | none => exact without
  | some k =>
    have mem_new {r : StripeId} : r ∈ addRow ((g.remove row).rows k) row ↔
        r = row ∨ r ≠ row ∧ f r = some k := by
      rw [mem_addRow, without.mem_rows]
      by_cases here : r = row <;> simp [here]
    refine ⟨fun r => ?_, SortedMap.ascending_insert without.ascending k _, ?_, ?_, ?_, ?_⟩
    · show List.lookup r ((row, k) :: (g.remove row).keyOf) = _
      rw [List.lookup_cons, without.keyOf]
      by_cases here : r = row
      · simp [here]
      · rw [beq_false_of_ne here]
        exact (if_neg here).trans (if_neg here).symm
    · intro entry mem
      rcases (SortedMap.mem_insert without.ascending).mp mem with rfl | ⟨old, -⟩
      · exact aged_addRow (without.aged_rows k)
      · exact without.aged entry old
    · intro entry mem
      rcases (SortedMap.mem_insert without.ascending).mp mem with rfl | ⟨old, -⟩
      · exact List.ne_nil_of_mem (mem_new.mpr (.inl rfl))
      · exact without.nonempty entry old
    · intro entry mem r there
      rcases (SortedMap.mem_insert without.ascending).mp mem with rfl | ⟨old, -⟩
      · rcases mem_new.mp there with here | ⟨ne, sent⟩
        · rw [if_pos here]
        · rw [if_neg ne, sent]
      · have sent := without.sound entry old r there
        split at sent
        · simp at sent
        · next ne => rw [if_neg ne, sent]
    · intro r k' sent
      by_cases same : k' = k
      · subst same
        refine ⟨_, (SortedMap.mem_insert without.ascending).mpr (.inl rfl), mem_new.mpr ?_⟩
        by_cases here : r = row
        · exact .inl here
        · exact .inr ⟨here, by rwa [if_neg here] at sent⟩
      · have ne : r ≠ row := by
          rintro rfl
          rw [if_pos rfl] at sent
          exact same (Option.some.inj sent).symm
        rw [if_neg ne] at sent
        obtain ⟨rows, mem, there⟩ := without.complete r k' (by rw [if_neg ne, sent])
        exact ⟨rows, (SortedMap.mem_insert without.ascending).mpr (.inr ⟨mem, same⟩), there⟩

end Represents

/-- The keys below a key and those from it on are all keys, in their order. -/
theorem filter_below_append_filter_from [Std.LawfulEqOrd κ] [Std.TransOrd κ] (k : κ) : ∀ {keys : List κ},
    keys.Pairwise (fun a b => compare a b = .lt) →
      (keys.filter fun a => (compare a k).isLT) ++ (keys.filter fun a => (compare k a).isLE) = keys
  | [], _ => rfl
  | a :: rest, ascending => by
    obtain ⟨below, later⟩ := List.pairwise_cons.mp ascending
    have ih := filter_below_append_filter_from k later
    cases order : compare a k with
    | lt =>
      have not_from : (compare k a).isLE = false := by simp [Std.OrientedCmp.gt_of_lt order]
      simp [order, not_from, ih]
    | eq | gt =>
      -- from the first key that is not below on, none is
      have from_a : (compare k a).isLE := by
        rw [Std.OrientedOrd.eq_swap, order]
        rfl
      have from_rest (b : κ) (mem : b ∈ rest) : (compare k b).isLE :=
        Std.TransCmp.isLE_trans from_a (by simp [below b mem])
      have none_below : rest.filter (fun b => (compare b k).isLT) = [] := by
        refine List.filter_eq_nil_iff.mpr fun b mem lt => ?_
        have := Std.OrientedCmp.gt_of_lt (Ordering.isLT_iff_eq_lt.mp lt)
        simpa [this] using from_rest b mem
      rw [none_below, List.nil_append] at ih
      simp [order, from_a, none_below, ih]

/-- The ranges on the two sides of a key make up the whole. -/
theorem Represents.range?_split [Std.LawfulEqOrd κ] [Std.TransOrd κ] {g : Groups κ} {f : StripeId → Option κ}
    (h : g.Represents f) (k : κ) : ∃ below above,
    g.range? .unbounded (.excluded k) = some below ∧ g.range? (.included k) .unbounded = some above ∧
      g.range? .unbounded .unbounded = some (below ++ above) ∧
      below ++ above = g.keys.map fun k => (k, g.rows k) := by
  have below := h.range?_eq .unbounded (.excluded k)
  have above := h.range?_eq (.included k) .unbounded
  have whole := h.range?_eq .unbounded .unbounded
  simp only [Bound.inverted, Bound.key?, Bool.and_false, Bool.false_eq_true, if_false, Bound.admitsFrom,
    Bound.admitsUpTo, Bool.true_and, Bool.and_true] at below above whole
  have ascending : g.keys.Pairwise fun a b => compare a b = .lt := SortedMap.ascending_keys h.ascending
  have split := filter_below_append_filter_from k ascending
  refine ⟨_, _, below, above, ?_, ?_⟩
  · rw [whole, ← List.map_append, split, List.filter_eq_self.mpr fun _ _ => rfl]
  · rw [← List.map_append, split]

/-- Putting rows one after the other gives each of them its value. -/
theorem represents_foldl_put [Std.LawfulEqOrd κ] [Std.TransOrd κ] (f : StripeId → Option κ) :
    ∀ (rows : List Stripe) {g : Groups κ} {old : StripeId → Option κ}, g.Represents old →
      (rows.foldl (fun g row => g.put row.id (f row.id)) g).Represents fun r =>
        if r ∈ rows.map Stripe.id then f r else old r
  | [], g, old, h => h.congr fun r => by simp
  | s :: rest, g, old, h => by
    refine (represents_foldl_put f rest (h.put s.id (f s.id))).congr fun r => ?_
    by_cases later : r ∈ rest.map Stripe.id
    · simp [later]
    · by_cases here : r = s.id
      · simp [here]
      · simp [later, here]

end LiveTable.Groups
