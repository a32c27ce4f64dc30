import LiveTable.Proofs.Edit.Growth
import LiveTable.Proofs.Grid.Snapshots
import Mathlib.Data.List.Induction

/-! Rows put together from entries that name their columns by titles.  The entries are taken one after
    the other, and a title that is missing may get a column on the way; every entry is looked up in the
    columns that are there when its turn comes.  A new column stands behind all others, so it is the
    column of no entry before, and in the end every element stands where its title is found in the table
    that came out. -/

namespace LiveTable

variable {α ω : Type}

namespace Content

variable {c c' : Content α} {entries : List (String × Option α)} {column : Nat}

/-- The titles of entries that no column has, each of them once, in the order in which they appear. -/
def missingTitles (c : Content α) (entries : List (String × Option α)) : List String :=
  ((entries.map Prod.fst).filter fun title => (c.columns.positionOfTitle title).isNone).eraseDups

/-- The titles of the columns that are made for entries. -/
def madeTitles (c : Content α) (create : Bool) (entries : List (String × Option α)) : List (Option String) :=
  if create then (c.missingTitles entries).map some else []

/-- The element that entries have for a column: that of the last entry whose title is found there. -/
def entryFor (c : Content α) (entries : List (String × Option α)) (column : Nat) : Option α :=
  (entries.reverse.find? fun entry => c.columns.positionOfTitle entry.1 == some column).bind Prod.snd

theorem entryFor_concat (c : Content α) (entries : List (String × Option α)) (entry : String × Option α)
    (column : Nat) :
    c.entryFor (entries ++ [entry]) column =
      if c.columns.positionOfTitle entry.1 = some column then entry.2 else c.entryFor entries column := by
  rw [entryFor, List.reverse_concat, List.find?_cons]
  by_cases here : c.columns.positionOfTitle entry.1 = some column
  · simp [here]
  · have miss : (c.columns.positionOfTitle entry.1 == some column) = false := by simpa using here
    rw [miss, if_neg here, entryFor]

/-- What entries have for a column depends on the titles that are found there. -/
theorem entryFor_congr (entries : List (String × Option α)) (same : ∀ title,
    c'.columns.positionOfTitle title = some column ↔ c.columns.positionOfTitle title = some column) :
    c'.entryFor entries column = c.entryFor entries column := by
  have agree : (fun entry : String × Option α => c'.columns.positionOfTitle entry.1 == some column) =
      fun entry => c.columns.positionOfTitle entry.1 == some column :=
    funext fun entry => Bool.eq_iff_iff.mpr (by simpa using same entry.1)
  rw [entryFor, agree, entryFor]

/-- One entry more needs a column if its title is not found among the columns made so far. -/
theorem Grows.madeTitles_concat (grown : c.Grows (Axis.only .column (c.madeTitles true entries)) c')
    (entry : String × Option α) :
    c.madeTitles true (entries ++ [entry]) = c.madeTitles true entries ++ c'.lacking .column entry.1 := by
  have found : (c'.columns.positionOfTitle entry.1).isSome ↔
      (c.columns.positionOfTitle entry.1).isSome ∨ entry.1 ∈ c.missingTitles entries := by
    rw [columns, grown.positionOfTitle, Option.isSome_or, Option.isSome_map, Axis.only_self, Bool.or_eq_true,
      List.isSome_idxOf?]
    simp [madeTitles, columns]
  have titles : c.missingTitles (entries ++ [entry]) = c.missingTitles entries ++
      if (c'.columns.positionOfTitle entry.1).isSome then [] else [entry.1] := by
    rw [missingTitles, List.map_append, List.filter_append, List.map_singleton, List.filter_singleton]
    by_cases known : (c.columns.positionOfTitle entry.1).isSome
    · have kept : (c.columns.positionOfTitle entry.1).isNone = false := by simpa using known
      rw [kept, cond_false, if_pos (found.mpr (.inl known)), List.append_nil, List.append_nil, missingTitles]
    · have unknown : (c.columns.positionOfTitle entry.1).isNone = true := by simpa using known
      have twice : (c'.columns.positionOfTitle entry.1).isSome ↔ entry.1 ∈ c.missingTitles entries :=
        found.trans (or_iff_right known)
      rw [unknown, cond_true, Stripes.eraseDups_concat]
      simp only [twice, missingTitles, List.mem_eraseDups]
  rw [madeTitles, if_pos rfl, titles, List.map_append, lacking, madeTitles, if_pos rfl,
    apply_ite (List.map some)]
  rfl

/-- A stripe that is made for a title is the only place where something else is found than before. -/
theorem Valid.positionOfTitle_growToTitle_iff (h : c.Valid) {axis : Axis} {own : String}
    (other : (c.growToTitle axis own).1 ≠ column) (title : String) :
    ((c.growToTitle axis own).2.2.stripes axis).positionOfTitle title = some column ↔
      (c.stripes axis).positionOfTitle title = some column := by
  obtain ⟨position, grows, -⟩ := h.grows_growToTitle axis own
  rw [grows.positionOfTitle, Axis.only_self, lacking]
  cases known : (c.stripes axis).positionOfTitle own with
  | some p => simp
  | none =>
    have last : c.count axis ≠ column := by
      rw [known] at position
      exact fun same => other (position.trans same)
    by_cases same : own = title
    · subst same
      simp [known, last]
    · simp [same]

end Content

namespace Edit

variable {e : Edit α ω}

/-! ### Taking one entry -/

theorem join_getElem?_place (elements : List (Option α)) (column : Nat) (element : Option α) (j : Nat) :
    (place elements column element)[j]?.join = if column = j then element else elements[j]?.join := by
  rw [place, List.getElem?_set]
  split
  · next here =>
    have inside : column < (elements ++ List.replicate (column + 1 - elements.length) none).length := by
      rw [List.length_append, List.length_replicate]
      omega
    rw [if_pos inside]
    rfl
  · rw [append_replicate_eq_fit, getElem?_fit_join (Nat.le_add_right ..)]

theorem length_place (elements : List (Option α)) (column : Nat) (element : Option α) :
    (place elements column element).length = max elements.length (column + 1) := by
  rw [place, List.length_set, List.length_append, List.length_replicate]
  omega

theorem columnCount_positionForTitle {title : String}
    (unknown : e.content.columns.positionOfTitle title = none) :
    (e.positionForTitle .column title).1 = e.content.columnCount ∧
      (e.positionForTitle .column title).2.content.columnCount = e.content.columnCount + 1 := by
  rw [positionForTitle, show (e.content.stripes .column).positionOfTitle title = none from unknown]
  refine ⟨rfl, ?_⟩
  show (Edit.quietly _ _).content.count .column = e.content.count .column + 1
  rw [content_quietly, Content.count_eq, Content.ids_setTitle, ← Content.count_eq, count_growAlong]
  exact Nat.max_eq_right (Nat.le_succ _)

/-- A row that is put together by titles is as long as the columns that it needs, and these are there. -/
theorem columnCount_placeEntry (create : Bool) (entry : String × Option α) {row : List (Option α) × Edit α ω}
    {start : Nat} (wide : row.2.content.columnCount = max start row.1.length) :
    (placeEntry create row entry).2.content.columnCount =
      max start (placeEntry create row entry).1.length := by
  rw [placeEntry]
  split
  · next column found =>
    have inside : column < row.2.content.columnCount := Stripes.positionOfTitle_lt found
    show row.2.content.columnCount = max start (place row.1 column entry.2).length
    rw [length_place]
    omega
  · next unknown =>
    split
    · obtain ⟨position, count⟩ := columnCount_positionForTitle unknown
      show (row.2.positionForTitle .column entry.1).2.content.columnCount = max start (place _ _ _).length
      rw [length_place, position, count]
      omega
    · exact wide

theorem columnCount_foldl_placeEntry (create : Bool) {start : Nat} :
    ∀ (entries : List (String × Option α)) {row : List (Option α) × Edit α ω},
      row.2.content.columnCount = max start row.1.length →
        (entries.foldl (placeEntry create) row).2.content.columnCount =
          max start (entries.foldl (placeEntry create) row).1.length
  | [], _, wide => wide
  | entry :: rest, _, wide =>
    columnCount_foldl_placeEntry create rest (columnCount_placeEntry create entry wide)

/-- With new columns allowed, the column of an entry is found or made. -/
theorem placeEntry_create (row : List (Option α) × Edit α ω) (entry : String × Option α) :
    placeEntry true row entry =
      (place row.1 (row.2.positionForTitle .column entry.1).1 entry.2,
        (row.2.positionForTitle .column entry.1).2) := by
  rw [placeEntry]
  cases known : row.2.content.columns.positionOfTitle entry.1 with
  | some column => rw [positionForTitle_of_some known]
  | none => rfl

/-- What has come of the entries taken so far: the columns that they need are there, and the row has the
    elements that the entries have for the columns. -/
structure Gathered (c : Content α) (create : Bool) (entries : List (String × Option α))
    (row : List (Option α) × Edit α ω) : Prop where
  grows : c.Grows (Axis.only .column (c.madeTitles create entries)) row.2.content
  elements : ∀ column, row.1[column]?.join = row.2.content.entryFor entries column

theorem gathered_nil (e : Edit α ω) (h : e.content.Valid) (create : Bool) :
    Gathered e.content create [] ([], e) where
  grows := (Content.Grows.refl h).congr fun axis => by
    cases create <;> cases axis <;> rfl
  elements _ := rfl

theorem Gathered.placeEntry {c : Content α} {create : Bool} {entries : List (String × Option α)}
    {row : List (Option α) × Edit α ω} (h : Gathered c create entries row) (entry : String × Option α) :
    Gathered c create (entries ++ [entry]) (placeEntry create row entry) := by
  cases create with
  | true =>
    obtain ⟨position, content⟩ := row.2.positionForTitle_content .column entry.1
    obtain ⟨-, grown, found⟩ := h.grows.valid.grows_growToTitle .column entry.1
    rw [placeEntry_create, position]
    refine ⟨?_, fun column => ?_⟩
    · rw [content]
      exact (h.grows.trans grown).congr fun axis => by rw [Axis.only_append, h.grows.madeTitles_concat]
    · rw [content, join_getElem?_place, Content.entryFor_concat, Content.columns, found, h.elements]
      by_cases here : (row.2.content.growToTitle .column entry.1).1 = column
      · simp [here]
      · have before := Content.entryFor_congr entries (h.grows.valid.positionOfTitle_growToTitle_iff here)
        rw [if_neg here, if_neg (by simpa using here), before]
  | false =>
    rw [Edit.placeEntry]
    cases known : row.2.content.columns.positionOfTitle entry.1 with
    | some place =>
      refine ⟨h.grows, fun column => ?_⟩
      rw [join_getElem?_place, Content.entryFor_concat, known, h.elements]
      simp
    | none =>
      refine ⟨h.grows, fun column => ?_⟩
      show row.1[column]?.join = row.2.content.entryFor (entries ++ [entry]) column
      rw [Content.entryFor_concat, known]
      exact h.elements column

theorem gathered_foldl {c : Content α} (h : c.Valid) (observers : ω) (tell : ω → Notice α → ω) (create : Bool)
    (entries : List (String × Option α)) :
    Gathered c create entries (entries.foldl (Edit.placeEntry create) ([], ⟨c, observers, tell⟩)) := by
  induction entries using List.reverseRecOn with
  | nil => exact gathered_nil ⟨c, observers, tell⟩ h create
  | append_singleton entries entry ih =>
    rw [List.foldl_concat]
    exact ih.placeEntry entry

/-! ### The row -/

/-- A row of entries is appended behind the last row, and each column shows in it what the entries have
    for the column in the table that came out: the element of the last entry whose title is found there,
    null or not, and null if there is none.  New columns, if they were asked for, carry the missing
    titles, each of them once and in the order in which they appear; otherwise there are none and an
    entry with a missing title has no effect.  Everything else is where it was, and the older rows are
    null in the new columns. -/
theorem addEntries_places {c : Content α} (reached : c.Reachable) (entries : List (String × Option α))
    (create : Bool) (observers : ω) (tell : ω → Notice α → ω) :
    let after := (⟨c, observers, tell⟩ : Edit α ω).addEntries entries create
    let c' := after.2.content
    after.1 = c.rowCount ∧
      c'.rowCount = c.rowCount + 1 ∧
      c'.columnCount = c.columnCount + (c.madeTitles create entries).length ∧
      c'.titles .row = c.titles .row ++ [none] ∧
      c'.titles .column = c.titles .column ++ c.madeTitles create entries ∧
      (∀ axis, (c.stripes axis).ids <+: (c'.stripes axis).ids) ∧
      (∀ column, c'.element c.rowCount column = c'.entryFor entries column) ∧
      (∀ row column, row ≠ c.rowCount → c'.element row column = c.element row column) ∧
      (∀ row column, row ≠ c.rowCount → c.columnCount ≤ column → c'.element row column = none) ∧
      c'.name = c.name ∧
      c'.transposed = c.transposed := by
  intro after c'
  let row := entries.foldl (placeEntry create) ([], (⟨c, observers, tell⟩ : Edit α ω))
  have gathered : Gathered c create entries row := gathered_foldl reached.valid observers tell create entries
  have width : row.2.content.columnCount = max c.columnCount row.1.length :=
    columnCount_foldl_placeEntry create entries (Nat.max_zero _).symm
  have fits : row.1.length ≤ row.2.content.columnCount := width ▸ Nat.le_max_right ..
  have height : row.2.content.rowCount = c.rowCount := gathered.grows.count .row
  have position : after.1 = row.2.content.rowCount :=
    (grid_insertElements gathered.grows.valid .row _ row.1).1
  have content : c' = row.2.content.insertStripe .row row.2.content.rowCount row.1 := content_addElements fits
  have titles (axis : Axis) : c'.titles axis =
      c.titles axis ++ Axis.only .column (c.madeTitles create entries) axis ++
        Axis.only .row [none] axis := by
    rw [← gathered.grows.titles, content]
    exact Content.titles_appendStripe ..
  have rowTitles : c'.titles .row = c.titles .row ++ [none] := (titles .row).trans (by simp [Axis.only])
  have columnTitles : c'.titles .column = c.titles .column ++ c.madeTitles create entries :=
    (titles .column).trans (by simp [Axis.only])
  have elements (r k : Nat) : c'.element r k = if r = c.rowCount then row.1[k]?.join else c.element r k := by
    rw [content, gathered.grows.valid.element_appendRow fits, gathered.grows.elements, height]
  have others (r k : Nat) (other : r ≠ c.rowCount) : c'.element r k = c.element r k :=
    (elements r k).trans (if_neg other)
  -- the row itself has no title, so the columns are found where they were when the last entry was taken
  have found (column : Nat) : c'.entryFor entries column = row.2.content.entryFor entries column := by
    have same : c'.columns.titles = row.2.content.columns.titles :=
      columnTitles.trans ((gathered.grows.titles .column).trans (by simp)).symm
    refine Content.entryFor_congr entries fun title => ?_
    rw [Stripes.positionOfTitle_eq, same, ← Stripes.positionOfTitle_eq]
  refine ⟨position.trans height, ?_, ?_, rowTitles, columnTitles, fun axis => ?_, fun column => ?_, others,
    fun r k other beyond => ?_, ?_, ?_⟩
  · rw [Content.rowCount, ← Content.length_titles, rowTitles, List.length_append, Content.length_titles]
    rfl
  · rw [Content.columnCount, ← Content.length_titles, columnTitles, List.length_append, Content.length_titles]
    rfl
  · rw [content]
    exact (gathered.grows.ids axis).trans (Content.ids_appendStripe .. ▸ List.prefix_append ..)
  · rw [elements, if_pos rfl, gathered.elements, found]
  · rw [others r k other]
    exact Content.element_of_le (.inr beyond)
  · rw [content, Content.name_insertStripe, gathered.grows.name]
  · rw [content, Content.transposed_insertStripe, gathered.grows.transposed]

/-- Two columns share a title and a third has none.  The entries name the shared title twice, the last
    time with null, and a title that is missing twice as well. -/
theorem addEntries_places_shared :
    let c := Content.run (.rows [[some "p", some "q", some "r"]])
      [.setTitle .column 0 (some "x"), .setTitle .column 2 (some "x")]
    let entries := [("x", some "a"), ("new", some "b"), ("x", none), ("new", some "c"), ("other", none)]
    c.Reachable ∧
      let after := (⟨c, (), fun _ _ => ()⟩ : Edit String Unit).addEntries entries true
      after.1 = 1 ∧ after.2.content.titles .column = [some "x", none, some "x", some "new", some "other"] ∧
        after.2.content.element 1 0 = none ∧ after.2.content.element 1 3 = some "c" ∧
        after.2.content.element 0 3 = none ∧ after.2.content.element 0 2 = some "r" := by
  intro c entries
  have reached : c.Reachable := ⟨.rows _, _, rfl⟩
  obtain ⟨position, -, -, -, titles, -, placed, others, fresh, -⟩ :=
    addEntries_places reached entries true () fun _ _ => ()
  have rows : c.rowCount = 1 := by decide +kernel
  have columns : c.columnCount = 3 := by decide +kernel
  rw [rows] at position placed others fresh
  rw [columns] at fresh
  refine ⟨reached, position, titles.trans ?_, (placed 0).trans ?_, (placed 3).trans ?_,
    fresh 0 3 (by decide) (Nat.le_refl 3), (others 0 2 (by decide)).trans ?_⟩
  · decide +kernel
  · decide +kernel
  · decide +kernel
  · decide +kernel

end Edit

end LiveTable
