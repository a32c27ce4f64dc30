import LiveTable.Json.Reader
import LiveTable.Proofs.Json.Token

/-! JSON values written and read.  A value that can be written has no member without a key and no number
    or string of which only the presence is known.  Its laid-out form, at whatever depth, and its compact
    form are scanned as the same tokens, and these are folded back into the value, whatever is still open
    around it. -/

namespace LiveTable.Json

/-- Values that have a written form. -/
inductive Writable : Json → Prop
  | null : Writable .null
  | bool (b : Bool) : Writable (.bool b)
  | integer (n : Int) : Writable (.integer n)
  | string (s : String) : Writable (.string (some s))
  | array {items : List Json} (each : ∀ v ∈ items, Writable v) : Writable (.array items)
  | object {members : List (Option String × Json)} (keyed : ∀ m ∈ members, m.1.isSome)
      (each : ∀ m ∈ members, Writable m.2) : Writable (.object members)

mutual

/-- The tokens of a value. -/
def tokens : Json → List Token
  | null => [.null]
  | bool b => [.bool b]
  | integer n => [.integer n]
  | real => [.real]
  | string s => [.string s]
  | array items => .openArray :: tokensOfItems items ++ [.closeArray]
  | object members => .openObject :: tokensOfMembers members ++ [.closeObject]

/-- The tokens of the items of an array. -/
def tokensOfItems : List Json → List Token
  | [] => []
  | [v] => v.tokens
  | v :: rest => v.tokens ++ .comma :: tokensOfItems rest

/-- The tokens of the members of an object. -/
def tokensOfMembers : List (Option String × Json) → List Token
  | [] => []
  | [(k, v)] => .string k :: .colon :: v.tokens
  | (k, v) :: rest => .string k :: .colon :: v.tokens ++ .comma :: tokensOfMembers rest

end

variable {depth : Nat} {items : List Json} {members : List (Option String × Json)} {v : Json}

/-! ### Lists -/

/-- Two texts with a comma between them. -/
theorem Scans.comma {a b : List Char} {ts us : List Token} (first : Scans a ts) (later : Scans b us) :
    Scans (a ++ ',' :: b) (ts ++ .comma :: us) := by
  have marked : Splits (a ++ [',']) (ts ++ [.comma]) := first.append (splits_punctuation rfl) rfl
  have both := marked.append_scans later
  simpa using both

/-- What is between brackets, if the text of the closing one ends it. -/
theorem Scans.bracketed {opening c : Char} {first last : Token} {inner tail : List Char} {ts : List Token}
    (h : Scans inner ts) (opens : punctuation? opening = some first) (closes : Splits (c :: tail) [last])
    (ends : endsWord c) : Splits (opening :: inner ++ c :: tail) (first :: ts ++ [last]) :=
  (splits_punctuation opens).append (h.append closes ends)

/-- A scalar is scanned as its one token. -/
theorem scans_scalar {t : Token} (h : v.Writable) (token : v.tokens = [t]) : Scans v.scalar v.tokens := by
  cases h with
  | null => exact scans_word (w := "null".toList) (by simp [endsWord, isSpace, punctuation?]) rfl
  | bool b =>
    cases b
    · exact scans_word (w := "false".toList) (by simp [endsWord, isSpace, punctuation?]) rfl
    · exact scans_word (w := "true".toList) (by simp [endsWord, isSpace, punctuation?]) rfl
  | integer n => exact scans_integer n
  | string s => exact (splits_quoted s).scans
  | array => simp [tokens] at token
  | object => simp [tokens] at token

/-! ### The laid-out form -/

/-- The items of an array, if each of them is scanned as its tokens. -/
theorem scans_prettyItems (depth : Nat) : ∀ {items : List Json}, items ≠ [] →
    (∀ v ∈ items, Scans (v.pretty depth) v.tokens) → Scans (prettyItems depth items) (tokensOfItems items)
  | [v], _, each => by
    rw [prettyItems, tokensOfItems]
    exact (splits_newLine depth).append_scans (each v List.mem_cons_self)
  | v :: w :: rest, _, each => by
    have first := (splits_newLine depth).append_scans (each v List.mem_cons_self)
    exact first.comma <|
      scans_prettyItems depth (List.cons_ne_nil w rest) fun u mem => each u (List.mem_cons_of_mem v mem)

/-- One member on a line of its own. -/
theorem scans_prettyMember (depth : Nat) (s : String) (value : Scans (v.pretty depth) v.tokens) :
    Scans (newLine depth ++ quoted s ++ ':' :: ' ' :: v.pretty depth) (.string s :: .colon :: v.tokens) := by
  have key : Splits (newLine depth ++ quoted s ++ ([':'] ++ [' '])) ([] ++ [.string s] ++ ([.colon] ++ [])) :=
    ((splits_newLine depth).append (splits_quoted s)).append
      ((splits_punctuation rfl).append (splits_blank rfl))
  have both := key.append_scans value
  simpa using both

/-- The members of an object, if the value of each of them is scanned as its tokens. -/
theorem scans_prettyMembers (depth : Nat) : ∀ {members : List (Option String × Json)}, members ≠ [] →
    (∀ m ∈ members, m.1.isSome) → (∀ m ∈ members, Scans (m.2.pretty depth) m.2.tokens) →
      Scans (prettyMembers depth members) (tokensOfMembers members)
  | [(some s, v)], _, _, each => by
    rw [prettyMembers, tokensOfMembers]
    exact scans_prettyMember depth s (each _ List.mem_cons_self)
  | (some s, v) :: m :: rest, _, keyed, each => by
    have first := scans_prettyMember depth s (each _ List.mem_cons_self)
    exact first.comma <| scans_prettyMembers depth (List.cons_ne_nil m rest)
      (fun n mem => keyed n (List.mem_cons_of_mem _ mem)) fun n mem => each n (List.mem_cons_of_mem _ mem)
  | (none, _) :: _, _, keyed, _ => nomatch keyed _ List.mem_cons_self

/-- The closing bracket on a line of its own. -/
theorem splits_closing {closing : Char} {last : Token} (closes : punctuation? closing = some last)
    (depth : Nat) : Splits (newLine depth ++ [closing]) [last] :=
  (splits_newLine depth).append (splits_punctuation closes)

/-- The laid-out form of a value that can be written is scanned as its tokens. -/
theorem Writable.scans_pretty (h : v.Writable) : ∀ depth, Scans (v.pretty depth) v.tokens := by
  induction h with
  | null => exact fun _ => scans_scalar .null rfl
  | bool b => exact fun _ => scans_scalar (.bool b) rfl
  | integer n => exact fun _ => scans_scalar (.integer n) rfl
  | string s => exact fun _ => scans_scalar (.string s) rfl
  | @array items _ ih =>
    intro depth
    cases items with
    | nil => exact ((splits_punctuation (c := '[') rfl).append (splits_punctuation (c := ']') rfl)).scans
    | cons v rest =>
      have inner := scans_prettyItems (depth + 1) (List.cons_ne_nil v rest) fun w mem => ih w mem (depth + 1)
      rw [pretty, tokens, List.append_assoc]
      exact (inner.bracketed rfl (splits_closing rfl depth) rfl).scans
  | @object members keyed _ ih =>
    intro depth
    cases members with
    | nil =>
      exact ((splits_punctuation (c := '\x7b') rfl).append (splits_punctuation (c := '\x7d') rfl)).scans
    | cons m rest =>
      have inner :=
        scans_prettyMembers (depth + 1) (List.cons_ne_nil m rest) keyed fun n mem => ih n mem (depth + 1)
      rw [pretty, tokens, List.append_assoc]
      exact (inner.bracketed rfl (splits_closing rfl depth) rfl).scans

/-! ### The compact form -/

theorem scans_compactItems : ∀ {items : List Json}, items ≠ [] → (∀ v ∈ items, Scans v.compact v.tokens) →
    Scans (compactItems items) (tokensOfItems items)
  | [v], _, each => each v List.mem_cons_self
  | v :: w :: rest, _, each => (each v List.mem_cons_self).comma <|
      scans_compactItems (List.cons_ne_nil w rest) fun u mem => each u (List.mem_cons_of_mem v mem)

theorem scans_compactMember (s : String) (value : Scans v.compact v.tokens) :
    Scans (quoted s ++ ':' :: v.compact) (.string s :: .colon :: v.tokens) := by
  have key : Splits (quoted s ++ [':']) ([.string s] ++ [.colon]) :=
    (splits_quoted s).append (splits_punctuation rfl)
  have both := key.append_scans value
  simpa using both

theorem scans_compactMembers : ∀ {members : List (Option String × Json)}, members ≠ [] →
    (∀ m ∈ members, m.1.isSome) → (∀ m ∈ members, Scans m.2.compact m.2.tokens) →
      Scans (compactMembers members) (tokensOfMembers members)
  | [(some s, v)], _, _, each => scans_compactMember s (each _ List.mem_cons_self)
  | (some s, v) :: m :: rest, _, keyed, each => by
    have first := scans_compactMember s (each _ List.mem_cons_self)
    exact first.comma <| scans_compactMembers (List.cons_ne_nil m rest)
      (fun n mem => keyed n (List.mem_cons_of_mem _ mem)) fun n mem => each n (List.mem_cons_of_mem _ mem)
  | (none, _) :: _, _, keyed, _ => nomatch keyed _ List.mem_cons_self

/-- The compact form of a value that can be written is scanned as its tokens. -/
theorem Writable.scans_compact (h : v.Writable) : Scans v.compact v.tokens := by
  induction h with
  | null => exact scans_scalar .null rfl
  | bool b => exact scans_scalar (.bool b) rfl
  | integer n => exact scans_scalar (.integer n) rfl
  | string s => exact scans_scalar (.string s) rfl
  | @array items _ ih =>
    rw [compact, tokens]
    cases items with
    | nil => exact ((splits_punctuation (c := '[') rfl).append (splits_punctuation (c := ']') rfl)).scans
    | cons v rest =>
      have inner := scans_compactItems (List.cons_ne_nil v rest) ih
      exact (inner.bracketed rfl (splits_punctuation rfl) rfl).scans
  | @object members keyed _ ih =>
    rw [compact, tokens]
    cases members with
    | nil =>
      exact ((splits_punctuation (c := '\x7b') rfl).append (splits_punctuation (c := '\x7d') rfl)).scans
    | cons m rest =>
      have inner := scans_compactMembers (List.cons_ne_nil m rest) keyed ih
      exact (inner.bracketed rfl (splits_punctuation rfl) rfl).scans

/-! ### Folding -/

/-- Items are folded one after the other behind those that an open array holds already. -/
theorem fold_tokensOfItems (rest : List Token) (stack : List Frame) :
    ∀ {items : List Json} (before : List Json),
    items ≠ [] → (∀ v ∈ items, ∀ mayClose stack rest,
      fold (.value mayClose) stack (v.tokens ++ rest) = fold (.after v) stack rest) → ∀ mayClose,
    fold (.value mayClose) (.array before :: stack) (tokensOfItems items ++ .closeArray :: rest) =
      fold (.after (.array (before.reverse ++ items))) stack rest
  | [v], before, _, each, mayClose => by
    rw [tokensOfItems, each v List.mem_cons_self, fold, List.reverse_cons]
  | v :: w :: items, before, _, each, mayClose => by
    have split : tokensOfItems (v :: w :: items) = v.tokens ++ .comma :: tokensOfItems (w :: items) := rfl
    rw [split, List.append_assoc, each v List.mem_cons_self, List.cons_append, fold,
      fold_tokensOfItems rest stack (v :: before) (List.cons_ne_nil w items) fun u mem =>
        each u (List.mem_cons_of_mem v mem)]
    simp

/-- Members are folded one after the other behind those that an open object holds already. -/
theorem fold_tokensOfMembers (rest : List Token) (stack : List Frame) :
    ∀ {members : List (Option String × Json)} (before : List (Option String × Json)), members ≠ [] →
      (∀ m ∈ members, ∀ mayClose stack rest,
        fold (.value mayClose) stack (m.2.tokens ++ rest) = fold (.after m.2) stack rest) → ∀ mayClose,
      fold (.key before mayClose) stack (tokensOfMembers members ++ .closeObject :: rest) =
        fold (.after (.object (before.reverse ++ members))) stack rest
  | [(k, v)], before, _, each, mayClose => by
    rw [tokensOfMembers, List.cons_append, List.cons_append, fold, fold, each _ List.mem_cons_self, fold,
      List.reverse_cons]
  | (k, v) :: m :: members, before, _, each, mayClose => by
    have split : tokensOfMembers ((k, v) :: m :: members) =
        .string k :: .colon :: v.tokens ++ .comma :: tokensOfMembers (m :: members) := rfl
    rw [split, List.append_assoc, List.cons_append, List.cons_append, fold, fold,
      each _ List.mem_cons_self, List.cons_append, fold,
      fold_tokensOfMembers rest stack ((k, v) :: before) (List.cons_ne_nil m members) fun n mem =>
        each n (List.mem_cons_of_mem _ mem)]
    simp

/-- The tokens of a value are folded into it. -/
theorem Writable.fold_tokens (h : v.Writable) : ∀ mayClose stack rest,
    fold (.value mayClose) stack (v.tokens ++ rest) = fold (.after v) stack rest := by
  induction h with
  | null => exact fun _ _ _ => rfl
  | bool b => exact fun _ _ _ => rfl
  | integer n => exact fun _ _ _ => rfl
  | string s => exact fun _ _ _ => rfl
  | @array items _ ih =>
    intro mayClose stack rest
    rw [tokens, List.append_assoc, List.cons_append, fold]
    cases items with
    | nil => rfl
    | cons v items => exact fold_tokensOfItems rest stack [] (List.cons_ne_nil v items) ih true
  | @object members _ _ ih =>
    intro mayClose stack rest
    rw [tokens, List.append_assoc, List.cons_append, fold]
    cases members with
    | nil => rfl
    | cons m members => exact fold_tokensOfMembers rest stack [] (List.cons_ne_nil m members) ih true

/-- A value is read from every text that is scanned as its tokens. -/
theorem Writable.read?_eq (h : v.Writable) {text : List Char} (scans : Scans text v.tokens) :
    read? text = some v := by
  have folded := h.fold_tokens false [] []
  rw [List.append_nil] at folded
  rw [read?, scans.tokens?, Option.bind_some, folded]
  rfl

theorem Writable.read?_pretty (h : v.Writable) : read? (v.pretty 0) = some v := h.read?_eq (h.scans_pretty 0)

theorem Writable.read?_compact (h : v.Writable) : read? v.compact = some v := h.read?_eq h.scans_compact

end LiveTable.Json
