import LiveTable.Json.Form
import LiveTable.Proofs.Json.Value

/-! JSON forms read back.  A value is legible if its JSON form can be written and is read as the value.
    Lists are legible if their members are, and so are snapshots if their cells are; what a snapshot
    leaves out because there is nothing to say is read as not being there. -/

namespace LiveTable

namespace JsonForm

variable {α : Type} [JsonForm α]

/-- A value whose JSON form can be written and is read as the value. -/
structure Legible (a : α) : Prop where
  writable : (toJson a).Writable
  read : ofJson? (toJson a) = some a

/-- Types of which every value is legible and none has the form of a missing one. -/
class Faithful (α : Type) [JsonForm α] : Prop where
  legible : ∀ a : α, Legible a
  present : ∀ a : α, toJson a ≠ .null

instance : Faithful String where
  legible s := ⟨.string s, rfl⟩
  present _ := nofun

instance : Faithful Int64 where
  legible n := by
    refine ⟨.integer _, ?_⟩
    have low := n.le_toInt
    have high := n.toInt_lt
    show (if -0x8000000000000000 ≤ n.toInt ∧ n.toInt < 0x8000000000000000
      then some (Int64.ofInt n.toInt) else none) = _
    rw [if_pos ⟨by omega, by omega⟩, Int64.ofInt_toInt]
  present _ := nofun

theorem legible_option [Faithful α] (a? : Option α) : Legible a? := by
  cases a? with
  | none => exact ⟨.null, rfl⟩
  | some a =>
    have legible := Faithful.legible a
    have present := Faithful.present a
    refine ⟨legible.writable, ?_⟩
    have read : ofJson? (α := Option α) (toJson a) = (ofJson? (toJson a)).map some := by
      cases form : toJson a with
      | null => exact absurd form present
      | _ => rfl
    exact read.trans (congrArg (Option.map some) legible.read)

theorem legible_list {as : List α} (each : ∀ a ∈ as, Legible a) : Legible as := by
  refine ⟨.array fun v mem => ?_, ?_⟩
  · obtain ⟨a, listed, rfl⟩ := List.mem_map.mp mem
    exact (each a listed).writable
  · show (as.map toJson).mapM ofJson? = some as
    induction as with
    | nil => rfl
    | cons a as ih =>
      rw [List.map_cons, List.mapM_cons, (each a List.mem_cons_self).read,
        ih fun b mem => each b (List.mem_cons_of_mem a mem)]
      rfl

theorem legible_titles (titles : List (Option String)) : Legible titles :=
  legible_list fun title _ => legible_option title

end JsonForm

namespace Snapshot

open JsonForm

variable {α β : Type} [JsonForm α] [JsonForm β] {s : Snapshot α} {key : String}

/-! ### Members that may be left out -/

/-- The member of a key, if there is a value for it. -/
def entry (key : String) (value? : Option Json) : List (Option String × Json) :=
  value?.toList.map fun v => (some key, v)

/-- The form of titles, if any are recorded. -/
def titlesForm (titles : List (Option String)) : Option Json :=
  if titles.isEmpty then none else some (JsonForm.toJson titles)

theorem toJson_eq (s : Snapshot α) :
    s.toJson = .object (entry "tableName" (s.name.map JsonForm.toJson) ++
      entry "columnTitles" (titlesForm s.columnTitles) ++ entry "rowTitles" (titlesForm s.rowTitles) ++
        entry "rows" (some (JsonForm.toJson s.rows))) := by
  have titles (key : String) (titles : List (Option String)) :
      entry key (titlesForm titles) = if titles.isEmpty then []
        else [(some key, JsonForm.toJson titles)] := by
    rw [titlesForm]
    split <;> rfl
  rw [toJson, titles, titles]
  cases s.name <;> rfl

theorem mem_entry {value? : Option Json} {m : Option String × Json} (mem : m ∈ entry key value?) :
    m.1.isSome ∧ some m.2 = value? := by
  obtain ⟨v, listed, rfl⟩ := List.mem_map.mp mem
  exact ⟨rfl, (Option.mem_toList.mp listed).symm⟩

theorem member_append (l m : List (Option String × Json)) (key : String) :
    member (l ++ m) key = member l key ++ member m key :=
  List.filterMap_append

theorem member_entry (key other : String) (value? : Option Json) :
    member (entry key value?) other = if key = other then value?.toList else [] := by
  cases value? with
  | none => split <;> rfl
  | some v => by_cases same : key = other <;> simp [member, entry, same]

/-- A member that is left out has the value that stands for its absence. -/
theorem optional?_eq {members : List (Option String × Json)} (value? : Option Json) {absent b : β}
    (found : member members key = value?.toList) (left_out : value? = none → b = absent)
    (read : ∀ v, value? = some v → JsonForm.ofJson? v = some b) : optional? members key absent = some b := by
  rw [optional?, found]
  cases value? with
  | none => exact congrArg some (left_out rfl).symm
  | some v => exact read v rfl

theorem optional?_titles {members : List (Option String × Json)} {titles : List (Option String)}
    (found : member members key = (titlesForm titles).toList) : optional? members key [] = some titles := by
  refine optional?_eq _ found (fun none => ?_) fun v some => ?_
  · rw [titlesForm] at none
    split at none
    · next empty => exact List.isEmpty_iff.mp empty
    · cases none
  · rw [titlesForm] at some
    split at some
    · cases some
    · exact Option.some.inj some ▸ (legible_titles titles).read

/-! ### Snapshots -/

/-- The form of a snapshot can be written if its rows can. -/
theorem writable_toJson (rows : Legible s.rows) : s.toJson.Writable := by
  have titles (titles : List (Option String)) : ∀ v, some v = titlesForm titles → v.Writable := by
    intro v form
    rw [titlesForm] at form
    split at form
    · cases form
    · exact Option.some.inj form ▸ (legible_titles titles).writable
  have name : ∀ v, some v = s.name.map JsonForm.toJson → v.Writable := by
    intro v form
    obtain ⟨name, -, rfl⟩ := Option.map_eq_some_iff.mp form.symm
    exact (Faithful.legible name).writable
  rw [toJson_eq]
  refine .object (fun m mem => ?_) fun m mem => ?_
  · simp only [List.mem_append] at mem
    rcases mem with ((mem | mem) | mem) | mem <;> exact (mem_entry mem).1
  · simp only [List.mem_append] at mem
    rcases mem with ((mem | mem) | mem) | mem
    · exact name _ (mem_entry mem).2
    · exact titles _ _ (mem_entry mem).2
    · exact titles _ _ (mem_entry mem).2
    · exact Option.some.inj (mem_entry mem).2 ▸ rows.writable

/-- A snapshot is read from its form if its rows are. -/
theorem ofJson?_toJson (rows : Legible s.rows) : ofJson? s.toJson = some s := by
  have writable := writable_toJson rows
  rw [toJson_eq] at writable ⊢
  generalize members : entry "tableName" _ ++ entry "columnTitles" _ ++ entry "rowTitles" _ ++
    entry "rows" _ = all at *
  have found (key : String) : member all key =
      (if "tableName" = key then (s.name.map JsonForm.toJson).toList else []) ++
        (if "columnTitles" = key then (titlesForm s.columnTitles).toList else []) ++
        (if "rowTitles" = key then (titlesForm s.rowTitles).toList else []) ++
        (if "rows" = key then [JsonForm.toJson s.rows] else []) := by
    rw [← members, member_append, member_append, member_append, member_entry, member_entry, member_entry,
      member_entry]
    rfl
  have keyed : all.all fun m => m.1.isSome := by
    cases writable with
    | object keyed _ => exact List.all_eq_true.mpr keyed
  have name : optional? all "tableName" none = some s.name := by
    refine optional?_eq (s.name.map JsonForm.toJson) (by simp [found]) (fun none => ?_) fun v form => ?_
    · exact Option.map_eq_none_iff.mp none
    · obtain ⟨name, given, rfl⟩ := Option.map_eq_some_iff.mp form
      rw [given]
      exact (legible_option (some name)).read
  have columnTitles : optional? all "columnTitles" [] = some s.columnTitles :=
    optional?_titles (by simp [found])
  have rowTitles : optional? all "rowTitles" [] = some s.rowTitles := optional?_titles (by simp [found])
  have listed : required? all "rows" = some s.rows := by
    have only : member all "rows" = [JsonForm.toJson s.rows] := by simp [found]
    rw [required?, only]
    exact rows.read
  rw [ofJson?, if_pos keyed, name, columnTitles, rowTitles, listed]
  rfl

end Snapshot

end LiveTable
