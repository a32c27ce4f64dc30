import LiveTable.Index.Keyed
import LiveTable.Proofs.Content.Along
import LiveTable.Proofs.Edit.Script
import LiveTable.Proofs.Index.Groups

/-! The index by a computed key, and the table it follows.  An index `Agrees` with a content if its
    groups represent the key of each row, where a stripe that is no row has no key.  A key depends on all
    elements of a row, so a change of columns groups all rows anew; a change of one row leaves the
    elements of the other rows alone, and patching that row is enough. -/

namespace LiveTable

open Content (Shift Still)

/-! ### The order of keys -/

instance : Std.LawfulEqOrd RowKey where
  compare_self {a} := by
    cases a
    · exact Std.ReflOrd.compare_self (α := String)
    · exact Std.ReflOrd.compare_self (α := Int)
  eq_of_compare {a b} equal := by
    cases a <;> cases b
    · exact congrArg RowKey.text (Std.LawfulEqOrd.eq_of_compare equal)
    · cases equal
    · cases equal
    · exact congrArg RowKey.number (Std.LawfulEqOrd.eq_of_compare equal)

instance : Std.TransOrd RowKey where
  eq_swap {a b} := by
    cases a <;> cases b
    · exact Std.OrientedOrd.eq_swap (α := String)
    · rfl
    · rfl
    · exact Std.OrientedOrd.eq_swap (α := Int)
  isLE_trans {a b c} first later := by
    cases a <;> cases b <;> cases c
    case text.text.text => exact Std.TransOrd.isLE_trans (α := String) first later
    case number.number.number => exact Std.TransOrd.isLE_trans (α := Int) first later
    all_goals first | rfl | exact absurd first Bool.false_ne_true | exact absurd later Bool.false_ne_true

namespace KeyedIndex

variable {α κ : Type} {x : KeyedIndex α κ} {c c' : Content α} {event : Event α} {row : StripeId} {p : Nat}

/-! ### Agreement -/

/-- The key of the row at a position, if there is one. -/
def keyAt? (x : KeyedIndex α κ) (c : Content α) (p : Nat) : Option κ :=
  (c.rowElements? p).bind x.extractor.key

/-- The key of a row; a stripe that is no row has none. -/
def key? (x : KeyedIndex α κ) (c : Content α) (row : StripeId) : Option κ :=
  if row ∈ c.rows.ids then x.extractor.key (c.along .row row) else none

theorem key?_of_idAt (at? : c.rows.idAt p = some row) : x.key? c row = x.keyAt? c p := by
  have elements : c.rowElements? p = some (c.along .row row) := Content.elements?_of_idAt at?
  rw [key?, if_pos (Stripes.mem_ids_of_idAt at?), keyAt?, elements, Option.bind_some]

theorem key?_of_not_mem (absent : row ∉ c.rows.ids) : x.key? c row = none := if_neg absent

/-- A row keeps its key as long as it is a row and keeps its elements. -/
theorem key?_congr (mem : row ∈ c'.rows.ids ↔ row ∈ c.rows.ids)
    (along : c'.along .row row = c.along .row row) : x.key? c' row = x.key? c row := by
  rw [key?, along, key?]
  exact if_congr mem rfl rfl

theorem key?_of_extractor {y : KeyedIndex α κ} (same : y.extractor = x.extractor) (c : Content α) :
    y.key? c = x.key? c := by
  funext r
  rw [key?, same, key?]

variable [Ord κ]

/-- The groups are those of the keys of the rows. -/
def Agrees (x : KeyedIndex α κ) (c : Content α) : Prop := x.groups.Represents (x.key? c)

theorem Agrees.congr (h : x.Agrees c) (same : ∀ r, x.key? c' r = x.key? c r) : x.Agrees c' :=
  Groups.Represents.congr h fun r => (same r).symm

/-- A change that goes unannounced changes no key. -/
theorem Agrees.still (h : x.Agrees c) (still : c.Still c') : x.Agrees c' := by
  refine h.congr fun r => key?_congr ?_ ?_
  · rw [Content.rows, still.ids_eq, Content.rows]
  · exact Content.along_congr (still.ids_eq _) fun other => still.rearranged.cellOn .row r other

/-! ### What an index shows -/

/-- The index shows the rows of a table: their keys, each once and ascending, and for each key the rows
    that have it, oldest first. -/
structure Shows (x : KeyedIndex α κ) (c : Content α) : Prop where
  ascending : x.groups.keys.Pairwise fun k l => compare k l = .lt
  keys : ∀ k, k ∈ x.groups.keys ↔ ∃ p, x.keyAt? c p = some k
  aged : ∀ k, (x.groups.rows k).Pairwise fun r s => r.value < s.value
  rows : ∀ k r, r ∈ x.groups.rows k ↔ ∃ p, c.rows.positionOf r = some p ∧ x.keyAt? c p = some k

theorem Agrees.shows [Std.LawfulEqOrd κ] (h : x.Agrees c) (valid : c.Valid) : x.Shows c := by
  have place (r : StripeId) (k : κ) :
      x.key? c r = some k ↔ ∃ p, c.rows.positionOf r = some p ∧ x.keyAt? c p = some k := by
    constructor
    · intro found
      have mem : r ∈ c.rows.ids := by
        by_contra absent
        rw [key?_of_not_mem absent] at found
        cases found
      obtain ⟨p, at?⟩ := List.mem_iff_getElem?.mp mem
      rw [← Stripes.idAt_eq] at at?
      exact ⟨p, (valid.indexed .row r p).mpr at?, key?_of_idAt at? ▸ found⟩
    · rintro ⟨p, at_row, found⟩
      rw [key?_of_idAt ((valid.indexed .row r p).mp at_row), found]
  have represents : x.groups.Represents (x.key? c) := h
  refine ⟨SortedMap.ascending_keys represents.ascending, fun k => ?_, represents.aged_rows, fun k r => ?_⟩
  · rw [represents.mem_keys]
    constructor
    · rintro ⟨r, found⟩
      obtain ⟨p, -, here⟩ := (place r k).mp found
      exact ⟨p, here⟩
    · rintro ⟨p, here⟩
      obtain ⟨elements, at?, -⟩ := Option.bind_eq_some_iff.mp here
      obtain ⟨r, at_row, -⟩ := Option.map_eq_some_iff.mp at?
      exact ⟨r, (key?_of_idAt at_row).trans here⟩
  · rw [represents.mem_rows]
    exact place r k

/-! ### Following a change -/

@[simp] theorem name_updateRow (x : KeyedIndex α κ) (c : Content α) (p : Nat) :
    (x.updateRow c p).name = x.name := by
  rw [updateRow]
  split <;> rfl

@[simp] theorem extractor_updateRow (x : KeyedIndex α κ) (c : Content α) (p : Nat) :
    (x.updateRow c p).extractor = x.extractor := by
  rw [updateRow]
  split <;> rfl

/-- An index never changes its name or its rule for keys. -/
theorem observe_same (x : KeyedIndex α κ) (n : Notice α) :
    (x.observe n).name = x.name ∧ (x.observe n).extractor = x.extractor := by
  rcases n with ⟨event, c⟩
  cases event with
  | added axis =>
    cases axis with
    | row => exact ⟨name_updateRow .., extractor_updateRow ..⟩
    | column => exact ⟨rfl, rfl⟩
  | removed axis => cases axis <;> exact ⟨rfl, rfl⟩
  | updatedCell => exact ⟨name_updateRow .., extractor_updateRow ..⟩
  | _ => exact ⟨rfl, rfl⟩

variable [Std.LawfulEqOrd κ] [Std.TransOrd κ]

/-- An index that groups all rows anew agrees. -/
theorem agrees_rebuild (x : KeyedIndex α κ) (c : Content α) : (x.rebuild c).Agrees c := by
  have one_by_one :
      (x.rebuild c).groups = c.rows.toList.foldl (fun g row => g.put row.id (x.key? c row.id)) {} := by
    have rows := List.zipIdx_map_fst 0 c.rows.toList
    rw [rebuild]
    conv_rhs => rw [← rows, List.foldl_map]
    refine List.foldl_ext _ _ _ fun g entry mem => ?_
    have at? : c.rows.idAt entry.2 = some entry.1.id := by
      rw [Stripes.idAt, Stripes.get?_eq, List.mem_zipIdx_iff_getElem?.mp mem]
      rfl
    rw [key?_of_idAt at?]
    rfl
  rw [Agrees, one_by_one]
  refine (Groups.represents_foldl_put (x.key? c) c.rows.toList Groups.represents_empty).congr fun r => ?_
  split
  · rfl
  · next absent => exact (key?_of_not_mem absent).symm

/-- Putting one row anew is enough if the others have kept their keys. -/
theorem agrees_updateRow (h : x.Agrees c) (at? : c'.rows.idAt p = some row)
    (others : ∀ r, r ≠ row → x.key? c' r = x.key? c r) : (x.updateRow c' p).Agrees c' := by
  have elements : c'.rowElements? p = some (c'.along .row row) := Content.elements?_of_idAt at?
  have key : x.key? c' row = x.extractor.key (c'.along .row row) := if_pos (Stripes.mem_ids_of_idAt at?)
  have put : (x.updateRow c' p).groups = x.groups.put row (x.key? c' row) := by
    rw [updateRow, at?, elements, key]
  rw [Agrees, put, key?_of_extractor (extractor_updateRow ..)]
  refine (Groups.Represents.put h row (x.key? c' row)).congr fun r => ?_
  split
  · next here => rw [here]
  · next other => exact (others r other).symm

/-- An index that agrees and follows a change agrees with the changed content. -/
theorem Agrees.observe (h : x.Agrees c) (valid : c.Valid) (shift : c.Shift event c') :
    (x.observe ⟨event, c'⟩).Agrees c' := by
  cases shift with
  | inserted axis position elements =>
    cases axis with
    | row =>
      have at? : (c.insertStripe .row position elements).rows.idAt (min position (c.count .row)) =
          some ⟨c.nextId⟩ := Content.idAt_insertStripe_self elements
      refine agrees_updateRow h at? fun r other => key?_congr ?_ (Content.along_insertStripe_of_ne other _ _)
      exact (Content.mem_ids_insertStripe elements).trans (or_iff_right other)
    | column => exact agrees_rebuild x _
  | @removed axis position stripe found =>
    have at? := Content.idAt_of_removed found
    cases axis with
    | row =>
      have mem {r : StripeId} := valid.mem_ids_removeStripe (i := r) at?
      refine (Groups.Represents.remove h stripe.id).congr fun r => ?_
      split
      · next here => exact (key?_of_not_mem fun live => (mem.mp live).2 here).symm
      · next other =>
        refine (key?_congr ?_ (Content.along_removeStripe_of_ne at? other)).symm
        exact mem.trans (and_iff_left other)
    | column => exact agrees_rebuild x _
  | @written row column k element inside other =>
    obtain ⟨r, s, at_row, at_column, -⟩ := (Content.cellKey?_eq_some c row column).mp inside
    have ids : (c.set row column element).rows.ids = c.rows.ids := Content.ids_set c row column element .row
    have same_row : (c.set row column element).rows.idAt row = some r := by
      rw [Stripes.idAt_eq, ids, ← Stripes.idAt_eq, at_row]
    refine agrees_updateRow h same_row fun i other => key?_congr (by rw [ids]) ?_
    exact Content.along_set_of_ne at_row at_column other element
  | _ => exact agrees_rebuild x _

end KeyedIndex

end LiveTable
