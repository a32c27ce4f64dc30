import LiveTable.Text.CharSet

/-! Reading the brackets of a pattern.  Brackets hold characters, ranges, named sets and further
    brackets; `&&`, `--` and `~~` join what stands on their two sides, from left to right.  A `^` at the
    front asks for the characters outside, and a dash or a closing bracket stands for itself where it can
    mean nothing else.  Each reader comes with the fact that it leaves a shorter text. -/

namespace LiveTable

/-- Brackets that are still open: the set before the last operation, that operation, and the set read
    since. -/
structure Brackets where
  outside : Bool := false
  left : CharSet := .nothing
  operation : SetOperation := .union
  right : CharSet := .nothing

namespace Brackets

/-- The brackets with more in them. -/
def add (b : Brackets) (set : CharSet) : Brackets := { b with right := .joined .union b.right set }

/-- What stands between the brackets as one set. -/
def inside (b : Brackets) : CharSet := .joined b.operation b.left b.right

/-- The brackets with one more operation, whose right side is still to come. -/
def operate (b : Brackets) (operation : SetOperation) : Brackets :=
  { b with left := b.inside, operation := operation, right := .nothing }

/-- The set that the brackets stand for. -/
def close (b : Brackets) : CharSet := if b.outside then .outside b.inside else b.inside

/-- Brackets before anything but what stands at their front: dashes, or else a closing bracket. -/
def front (s : List Char) : Brackets × List Char :=
  match s with
  | '-' :: _ => ({ right := .one '-' }, s.dropWhile fun c => c = '-')
  | ']' :: rest => ({ right := .one ']' }, rest)
  | _ => ({}, s)

theorem length_front_le (s : List Char) : (front s).2.length ≤ s.length := by
  unfold front
  split
  · exact (List.dropWhile_sublist _).length_le
  · simp
  · simp

/-- Brackets that were just opened. -/
def start (s : List Char) : Brackets × List Char :=
  match s with
  | '^' :: rest => ({ (front rest).1 with outside := true }, (front rest).2)
  | _ => front s

theorem length_start_le (s : List Char) : (start s).2.length ≤ s.length := by
  unfold start
  split
  case h_1 rest => exact Nat.le_succ_of_le (length_front_le rest)
  case h_2 => exact length_front_le s

/-- Reads a name between colons and the bracket that closes it, after the one that opens it; a `^` before
    the name asks for the characters outside. -/
def named? (s : List Char) : Option (CharSet × List Char) :=
  match s with
  | ':' :: '^' :: rest => (plain rest).map fun found => (.outside found.1, found.2)
  | ':' :: rest => plain rest
  | _ => none
where
  plain (s : List Char) : Option (CharSet × List Char) :=
    match s.dropWhile fun c => c != ':' with
    | ':' :: ']' :: rest =>
      (CharSet.named? (String.ofList (s.takeWhile fun c => c != ':'))).map fun set => (set, rest)
    | _ => none

theorem plain_shorter {s rest : List Char} {set : CharSet} (found : named?.plain s = some (set, rest)) :
    rest.length < s.length := by
  unfold named?.plain at found
  split at found
  case h_1 behind cut =>
    simp only [Option.map_eq_some_iff, Prod.mk.injEq] at found
    obtain ⟨_, _, _, rfl⟩ := found
    have : (s.dropWhile fun c => c != ':').length ≤ s.length := (List.dropWhile_sublist _).length_le
    simp only [cut, List.length_cons] at this
    omega
  case h_2 => simp at found

theorem named?_shorter {s rest : List Char} {set : CharSet} (found : named? s = some (set, rest)) :
    rest.length < s.length := by
  unfold named? at found
  split at found
  case h_1 behind =>
    simp only [Option.map_eq_some_iff, Prod.mk.injEq] at found
    obtain ⟨⟨inner, _⟩, foundPlain, _, rfl⟩ := found
    have := plain_shorter foundPlain
    simp only [List.length_cons]
    omega
  case h_2 behind _ =>
    have := plain_shorter found
    simp only [List.length_cons]
    omega
  case h_3 => simp at found

/-- What may come next between brackets. -/
inductive Item where
  | close
  | opening (inner : Brackets)
  | operator (operation : SetOperation)
  | set (set : CharSet)

/-- Reads what comes next between brackets. -/
def next? (s : List Char) : Option (Item × List Char) :=
  match s with
  | [] => none
  | ']' :: rest => some (.close, rest)
  | '[' :: rest =>
    match named? rest with
    | some (set, behind) => some (.set set, behind)
    | none => some (.opening (start rest).1, (start rest).2)
  | '&' :: '&' :: rest => some (.operator .intersection, rest)
  | '-' :: '-' :: rest => some (.operator .difference, rest)
  | '~' :: '~' :: rest => some (.operator .symmetricDifference, rest)
  | c :: '-' :: ']' :: rest => some (.set (.one c), '-' :: ']' :: rest)
  | c :: '-' :: '-' :: rest => some (.set (.one c), '-' :: '-' :: rest)
  | low :: '-' :: high :: rest => if low ≤ high then some (.set (.range low high), rest) else none
  | c :: rest => some (.set (.one c), rest)

theorem next?_shorter {s rest : List Char} {item : Item} (found : next? s = some (item, rest)) :
    rest.length < s.length := by
  unfold next? at found
  split at found
  case h_1 => simp at found
  case h_3 behind =>
    split at found
    case h_1 foundNamed =>
      simp only [Option.some.injEq, Prod.mk.injEq] at found
      have := named?_shorter foundNamed
      simp only [← found.2, List.length_cons]
      omega
    case h_2 =>
      simp only [Option.some.injEq, Prod.mk.injEq] at found
      have := length_start_le behind
      simp only [← found.2, List.length_cons]
      omega
  case h_9 =>
    split at found
    case isTrue =>
      simp only [Option.some.injEq, Prod.mk.injEq] at found
      simp only [← found.2, List.length_cons]
      omega
    case isFalse => simp at found
  all_goals
    simp only [Option.some.injEq, Prod.mk.injEq] at found
    simp only [← found.2, List.length_cons]
    omega

/-- Reads up to the bracket that closes the outermost ones: the brackets around the innermost ones,
    these, and the text that is left. -/
def read (around : List Brackets) (b : Brackets) (s : List Char) : Option (CharSet × List Char) :=
  match _found : next? s with
  | none => none
  | some (.close, rest) =>
    match around with
    | [] => some (b.close, rest)
    | outer :: further => read further (outer.add b.close) rest
  | some (.opening inner, rest) => read (b :: around) inner rest
  | some (.operator operation, rest) => read around (b.operate operation) rest
  | some (.set set, rest) => read around (b.add set) rest
termination_by s.length
decreasing_by all_goals exact next?_shorter _found

theorem read_shorter {around : List Brackets} {b : Brackets} {s rest : List Char} {set : CharSet}
    (found : read around b s = some (set, rest)) : rest.length < s.length := by
  fun_induction read around b s with
  | case1 => simp at found
  | case2 b s rest' next =>
    simp only [Option.some.injEq, Prod.mk.injEq] at found
    exact found.2 ▸ next?_shorter next
  | case3 b s rest' next outer further ih => exact Nat.lt_trans (ih found) (next?_shorter next)
  | case4 around b s inner rest' next ih => exact Nat.lt_trans (ih found) (next?_shorter next)
  | case5 around b s operation rest' next ih => exact Nat.lt_trans (ih found) (next?_shorter next)
  | case6 around b s set rest' next ih => exact Nat.lt_trans (ih found) (next?_shorter next)

/-- Reads brackets after the one that opens them. -/
def set? (s : List Char) : Option (CharSet × List Char) := read [] (start s).1 (start s).2

theorem set?_shorter {s rest : List Char} {set : CharSet} (found : set? s = some (set, rest)) :
    rest.length < s.length :=
  Nat.lt_of_lt_of_le (read_shorter found) (length_start_le s)

end Brackets

end LiveTable
