import LiveTable.SortedMap
import Mathlib.Data.List.Induction
import Mathlib.Data.List.Sort

/-! Sorted maps as sets of pairs.  A map with strictly ascending keys has one pair for each of its keys,
    so looking a key up, giving it a value and taking it out can each be said by which pairs are there
    afterwards.  A map that is made from a list of rows, some of which have a key, finds under each key
    the last row that has it. -/

namespace LiveTable.SortedMap

variable {κ β : Type} [Ord κ]

/-- The keys ascend strictly. -/
def Ascending (m : SortedMap κ β) : Prop := m.Pairwise fun a b => compare a.1 b.1 = .lt

theorem ascending_erase {m : SortedMap κ β} (h : m.Ascending) (key : κ) : (m.erase key).Ascending :=
  List.Pairwise.filter _ h

theorem ascending_keys {m : SortedMap κ β} (h : m.Ascending) :
    m.keys.Pairwise fun a b => compare a b = .lt := by
  rw [keys, List.pairwise_map]
  exact h

variable [Std.LawfulEqOrd κ]

theorem mem_erase {m : SortedMap κ β} {key : κ} {entry : κ × β} :
    entry ∈ m.erase key ↔ entry ∈ m ∧ entry.1 ≠ key := by
  rw [erase, List.mem_filter]
  simp

/-- A key has one value. -/
theorem value_unique {m : SortedMap κ β} (h : m.Ascending) {key : κ} {v w : β} (hv : (key, v) ∈ m)
    (hw : (key, w) ∈ m) : v = w := by
  induction m with
  | nil => simp at hv
  | cons first rest ih =>
    obtain ⟨below, later⟩ := List.pairwise_cons.mp h
    rcases List.mem_cons.mp hv with here | hv <;> rcases List.mem_cons.mp hw with there | hw
    · exact (Prod.mk.inj (here.trans there.symm)).2
    · have := below _ hw
      simp [← here] at this
    · have := below _ hv
      simp [← there] at this
    · exact ih later hv hw

theorem get?_eq_some {m : SortedMap κ β} (h : m.Ascending) {key : κ} {value : β} :
    m.get? key = some value ↔ (key, value) ∈ m := by
  constructor
  · intro found
    obtain ⟨entry, at?, rfl⟩ := Option.map_eq_some_iff.mp found
    have same := List.find?_some at?
    obtain rfl := Std.LawfulEqOrd.eq_of_compare (Ordering.isEq_iff_eq_eq.mp same)
    exact List.mem_of_find?_eq_some at?
  · intro mem
    cases found : m.get? key with
    | none =>
      have none_at := List.find?_eq_none.mp (Option.map_eq_none_iff.mp found) _ mem
      simp at none_at
    | some other =>
      obtain ⟨entry, at?, rfl⟩ := Option.map_eq_some_iff.mp found
      have same := List.find?_some at?
      obtain rfl := Std.LawfulEqOrd.eq_of_compare (Ordering.isEq_iff_eq_eq.mp same)
      rw [value_unique h mem (List.mem_of_find?_eq_some at?)]

variable [Std.TransOrd κ]

/-- Inserting keeps the order, and the inserted key has the one given value. -/
theorem insert_spec (key : κ) (value : β) : ∀ {m : SortedMap κ β}, m.Ascending →
    (m.insert key value).Ascending ∧
      ∀ entry, entry ∈ m.insert key value ↔ entry = (key, value) ∨ entry ∈ m ∧ entry.1 ≠ key
  | [], _ => by simp [insert, Ascending]
  | first :: rest, h => by
    obtain ⟨below, later⟩ := List.pairwise_cons.mp h
    rw [insert]
    cases order : compare key first.1 with
    | lt =>
      have ne : ∀ entry ∈ first :: rest, entry.1 ≠ key := by
        intro entry mem same
        rcases List.mem_cons.mp mem with rfl | mem
        · simp [same] at order
        · have := Std.TransCmp.lt_trans order (below entry mem)
          simp [same] at this
      refine ⟨List.pairwise_cons.mpr ⟨fun entry mem => ?_, h⟩, fun entry => ?_⟩
      · rcases List.mem_cons.mp mem with rfl | mem
        · exact order
        · exact Std.TransCmp.lt_trans order (below entry mem)
      · rw [List.mem_cons]
        exact or_congr_right ⟨fun mem => ⟨mem, ne entry mem⟩, And.left⟩
    | eq =>
      obtain rfl := Std.LawfulEqOrd.eq_of_compare order
      have ne : ∀ entry ∈ rest, entry.1 ≠ first.1 := by
        intro entry mem same
        have := below entry mem
        simp [same] at this
      refine ⟨List.pairwise_cons.mpr ⟨below, later⟩, fun entry => ?_⟩
      rw [List.mem_cons, List.mem_cons]
      refine or_congr_right ⟨fun mem => ⟨.inr mem, ne entry mem⟩, ?_⟩
      rintro ⟨rfl | mem, other⟩
      · exact absurd rfl other
      · exact mem
    | gt =>
      obtain ⟨ascending, mem_iff⟩ := insert_spec key value later
      have ne : first.1 ≠ key := by
        intro same
        simp [same] at order
      have first_lt : compare first.1 key = .lt := Std.OrientedCmp.gt_iff_lt.mp order
      refine ⟨List.pairwise_cons.mpr ⟨fun entry mem => ?_, ascending⟩, fun entry => ?_⟩
      · rcases (mem_iff entry).mp mem with rfl | ⟨mem, -⟩
        · exact first_lt
        · exact below entry mem
      · rw [List.mem_cons, mem_iff, List.mem_cons]
        constructor
        · rintro (rfl | same | ⟨mem, other⟩)
          · exact .inr ⟨.inl rfl, ne⟩
          · exact .inl same
          · exact .inr ⟨.inr mem, other⟩
        · rintro (same | ⟨rfl | mem, other⟩)
          · exact .inr (.inl same)
          · exact .inl rfl
          · exact .inr (.inr ⟨mem, other⟩)

theorem ascending_insert {m : SortedMap κ β} (h : m.Ascending) (key : κ) (value : β) :
    (m.insert key value).Ascending :=
  (insert_spec key value h).1

theorem mem_insert {m : SortedMap κ β} (h : m.Ascending) {key : κ} {value : β} {entry : κ × β} :
    entry ∈ m.insert key value ↔ entry = (key, value) ∨ entry ∈ m ∧ entry.1 ≠ key :=
  (insert_spec key value h).2 entry

omit [Std.LawfulEqOrd κ] in
/-- Strictly ascending keys are known by what is among them. -/
theorem eq_of_mem_iff {l l' : List κ} (h : l.Pairwise fun a b => compare a b = .lt)
    (h' : l'.Pairwise fun a b => compare a b = .lt) (same : ∀ key, key ∈ l ↔ key ∈ l') : l = l' := by
  have : Std.Irrefl fun a b : κ => compare a b = .lt := ⟨fun a less => by simp at less⟩
  have : Std.Antisymm fun a b : κ => compare a b = .lt := ⟨fun a b less more => by
    have := Std.TransCmp.lt_trans less more
    simp at this⟩
  exact h.eq_of_mem_iff h' same

theorem get?_insert [DecidableEq κ] {m : SortedMap κ β} (h : m.Ascending) (key other : κ) (value : β) :
    (m.insert key value).get? other = if other = key then some value else m.get? other := by
  refine Option.ext fun w => ?_
  rw [get?_eq_some (ascending_insert h key value), mem_insert h, Prod.mk.injEq]
  split
  · next same => simp [same, eq_comm]
  · next ne => simp [ne, get?_eq_some h]

/-! ### Maps of lists -/

omit [Std.LawfulEqOrd κ] [Std.TransOrd κ] in
theorem ofList_concat (entries : List (κ × β)) (entry : κ × β) :
    ofList (entries ++ [entry]) = (ofList entries).insert entry.1 entry.2 := by
  rw [ofList, List.foldl_append]
  rfl

theorem ascending_ofList (entries : List (κ × β)) : (ofList entries).Ascending := by
  induction entries using List.reverseRecOn with
  | nil => exact List.Pairwise.nil
  | append_singleton entries entry ih =>
    rw [ofList_concat]
    exact ascending_insert ih entry.1 entry.2

omit [Std.LawfulEqOrd κ] [Std.TransOrd κ] in
/-- Which place a pair takes does not depend on the values. -/
theorem map_insert {γ : Type} (f : β → γ) (key : κ) (value : β) : ∀ m : SortedMap κ β,
    (m.insert key value).map (Prod.map id f) = insert (m.map (Prod.map id f)) key (f value)
  | [] => rfl
  | first :: rest => by
    rw [insert, List.map_cons, insert]
    cases order : compare key first.1 with
    | lt => simp [order]
    | eq => simp [order]
    | gt => simp [order, map_insert f key value rest]

omit [Std.LawfulEqOrd κ] [Std.TransOrd κ] in
theorem map_ofList {γ : Type} (f : β → γ) (entries : List (κ × β)) :
    (ofList entries).map (Prod.map id f) = ofList (entries.map (Prod.map id f)) := by
  induction entries using List.reverseRecOn with
  | nil => rfl
  | append_singleton entries entry ih =>
    rw [List.map_append, List.map_singleton, ofList_concat, ofList_concat, map_insert, ih]
    rfl

/-- The rows of a list by their keys; rows without a key are left out. -/
def byKey (key : β → Option κ) (rows : List β) : SortedMap κ β :=
  ofList (rows.filterMap fun row => (key row).map fun k => (k, row))

/-- The map shows each key of the rows, ascending, with the last row that has it, and no other key. -/
structure Latest [DecidableEq κ] (m : SortedMap κ β) (key : β → Option κ) (rows : List β) : Prop where
  ascending : m.Ascending
  get? : ∀ k, m.get? k = (rows.filter fun row => key row = some k).getLast?

omit [Std.LawfulEqOrd κ] [Std.TransOrd κ] in
/-- One more row replaces the row that was there under its key. -/
theorem byKey_concat (key : β → Option κ) (rows : List β) (row : β) :
    byKey key (rows ++ [row]) = match key row with
      | some k => (byKey key rows).insert k row
      | none => byKey key rows := by
  rw [byKey, List.filterMap_append]
  cases own : key row with
  | some k =>
    have last : [row].filterMap (fun row => (key row).map fun k => (k, row)) = [(k, row)] := by simp [own]
    rw [last]
    exact ofList_concat _ (k, row)
  | none => simp [byKey, own]

variable [DecidableEq κ] {key : β → Option κ} {rows : List β}

theorem latest_byKey (key : β → Option κ) (rows : List β) : (byKey key rows).Latest key rows := by
  have ascending (rows : List β) : (byKey key rows).Ascending := ascending_ofList _
  refine ⟨ascending rows, fun k => ?_⟩
  induction rows using List.reverseRecOn with
  | nil => rfl
  | append_singleton rows row ih =>
    rw [byKey_concat, List.filter_append]
    cases own : key row with
    | none => simpa [own] using ih
    | some k' =>
      dsimp only
      rw [get?_insert (ascending rows)]
      by_cases same : k = k'
      · simp [own, same]
      · simpa [own, same, Ne.symm same] using ih

omit [Std.TransOrd κ] in
/-- The keys of the map are the keys of the rows. -/
theorem Latest.mem_keys {m : SortedMap κ β} (h : m.Latest key rows) {k : κ} :
    k ∈ m.keys ↔ ∃ row ∈ rows, key row = some k := by
  have found : k ∈ m.keys ↔ (m.get? k).isSome := by
    rw [Option.isSome_iff_exists, keys, List.mem_map]
    simp [get?_eq_some h.ascending]
  rw [found, h.get?]
  simp

end LiveTable.SortedMap
