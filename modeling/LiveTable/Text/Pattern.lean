import LiveTable.Text.Brackets

/-! Patterns on texts, searched anywhere in them.  A pattern is read from its usual spelling: characters
    stand for themselves, `^` and `$` for the ends of the text, `.` for any character but a line feed,
    brackets for one of several characters, a bar for a choice, and `*`, `+` and `?` for repetition.  A
    search keeps marks on the characters of the pattern: those that the character last read of the text
    may stand for, in any match that is under way.  So each character of the text takes one walk over the
    pattern. -/

namespace LiveTable

/-- A pattern with its marks. -/
inductive Pattern where
  /-- Matches the empty text alone. -/
  | empty
  | atStart
  | atEnd
  /-- One character of a set. -/
  | char (set : CharSet) (marked : Bool)
  | seq (a b : Pattern)
  | alt (a b : Pattern)
  /-- Any number of times, none included. -/
  | star (a : Pattern)
  /-- Any number of times but none. -/
  | plus (a : Pattern)
  deriving DecidableEq, Repr

namespace Pattern

/-- The pattern that matches one character of a set, without a mark. -/
def oneOf (set : CharSet) : Pattern := .char set false

/-- One pattern after another, without needless parts. -/
def join : Pattern → Pattern → Pattern
  | empty, b => b
  | a, empty => a
  | a, b => .seq a b

/-- Whether a pattern matches the empty text at a place that is, or is not, an end of the whole text. -/
def matchesEmpty (first last : Bool) : Pattern → Bool
  | empty => true
  | atStart => first
  | atEnd => last
  | char _ _ => false
  | seq a b => a.matchesEmpty first last && b.matchesEmpty first last
  | alt a b => a.matchesEmpty first last || b.matchesEmpty first last
  | star _ => true
  | plus a => a.matchesEmpty first last

/-- Whether a match under way may end here: nothing needs to follow one of the marks. -/
def matchesSoFar (last : Bool) : Pattern → Bool
  | empty => false
  | atStart => false
  | atEnd => false
  | char _ marked => marked
  | seq a b => b.matchesSoFar last || (a.matchesSoFar last && b.matchesEmpty false last)
  | alt a b => a.matchesSoFar last || b.matchesSoFar last
  | star a => a.matchesSoFar last
  | plus a => a.matchesSoFar last

/-- The marks after one more character, the first of the text or not; `enters` tells whether it may be
    the first that the pattern matches. -/
def after (first : Bool) (c : Char) (enters : Bool) : Pattern → Pattern
  | empty => .empty
  | atStart => .atStart
  | atEnd => .atEnd
  | char set _ => .char set (enters && set.contains c)
  | seq a b =>
    .seq (a.after first c enters)
      (b.after first c (a.matchesSoFar false || (enters && a.matchesEmpty first false)))
  | alt a b => .alt (a.after first c enters) (b.after first c enters)
  | star a => .star (a.after first c (enters || a.matchesSoFar false))
  | plus a => .plus (a.after first c (enters || a.matchesSoFar false))

/-- Whether a match ends somewhere in what is left of a text; it may be under way or start anywhere. -/
def search (p : Pattern) (first : Bool) : List Char → Bool
  | [] => p.matchesEmpty first true || p.matchesSoFar true
  | c :: rest =>
    p.matchesEmpty first false || p.matchesSoFar false || (p.after first c true).search false rest

/-- Whether some part of a text matches. -/
def isMatch (p : Pattern) (s : String) : Bool := p.search true s.toList

/-- What has been read of a group: finished choices, and the parts of the present one, last first. -/
structure Group where
  choices : List Pattern := []
  parts : List Pattern := []

namespace Group

/-- The parts of the present choice as one pattern. -/
def sequence (g : Group) : Pattern := g.parts.foldl (fun later part => part.join later) .empty

/-- The whole group as one pattern. -/
def close (g : Group) : Pattern :=
  g.choices.foldl (fun later choice => .alt choice later) g.sequence

/-- The group with one more part. -/
def push (g : Group) (p : Pattern) : Group := { g with parts := p :: g.parts }

/-- The group with its last part changed, if it has one. -/
def modifyLast? (g : Group) (f : Pattern → Pattern) : Option Group :=
  match g.parts with
  | [] => none
  | p :: before => some { g with parts := f p :: before }

/-- The group with its present choice finished. -/
def nextChoice (g : Group) : Group := { choices := g.sequence :: g.choices }

end Group

/-- Reads a pattern: the groups still open around the present one, and the present one. -/
def read (around : List Group) (g : Group) (s : List Char) : Option Pattern :=
  match s with
  | [] => if around.isEmpty then some g.close else none
  | '[' :: rest =>
    match _found : Brackets.set? rest with
    | some (set, behind) => read around (g.push (.oneOf set)) behind
    | none => none
  | '(' :: rest => read (g :: around) {} rest
  | ')' :: rest =>
    match around with
    | outer :: further => read further (outer.push g.close) rest
    | [] => none
  | '|' :: rest => read around g.nextChoice rest
  | '*' :: rest => (g.modifyLast? .star).bind fun g => read around g rest
  | '+' :: rest => (g.modifyLast? .plus).bind fun g => read around g rest
  | '?' :: rest => (g.modifyLast? fun p => .alt p .empty).bind fun g => read around g rest
  | '.' :: rest => read around (g.push (.oneOf (.outside (.one '\n')))) rest
  | '^' :: rest => read around (g.push .atStart) rest
  | '$' :: rest => read around (g.push .atEnd) rest
  | c :: rest => read around (g.push (.oneOf (.one c))) rest
termination_by s.length
decreasing_by
  · exact Nat.lt_trans (Brackets.set?_shorter _found) (Nat.lt_succ_self _)
  all_goals exact Nat.lt_succ_self _

/-- The pattern of a spelling. -/
def ofString? (s : String) : Option Pattern := read [] {} s.toList

end Pattern

end LiveTable
