import Std.Data.ExtTreeMap

/-! Stripes: the rows and columns of a table, seen as entries of an ordered list.  A stripe has an
    identity that is never reused, an optional title, and a revision that grows with every change to it.
    Beside the list a map tells where each identity stands; every change of the order enters only the
    positions that it shifted. -/

namespace LiveTable

/-- The identity of a row or column. -/
structure StripeId where
  value : Nat
  deriving DecidableEq, Repr

/-- The identity as messages show it. -/
def StripeId.label (i : StripeId) : String := s!"#{i.value}"

/-- Identities compare by age. -/
instance : Ord StripeId := ⟨compareOn StripeId.value⟩

instance : Std.TransOrd StripeId := inferInstanceAs (Std.TransCmp (compareOn StripeId.value))

instance : Std.LawfulEqOrd StripeId where
  eq_of_compare {a b} equal := by
    have values : a.value = b.value := Std.LawfulEqOrd.eq_of_compare equal
    cases a
    cases b
    simp_all

/-- One row or column: its identity, title and revision. -/
structure Stripe where
  id : StripeId
  title : Option String := none
  revision : Nat := 0
  deriving DecidableEq, Repr

namespace Stripe

/-- The stripe after one more change. -/
def touch (s : Stripe) : Stripe := { s with revision := s.revision + 1 }

/-- The stripe under another title; giving the same title again counts as a change. -/
def retitle (title : Option String) (s : Stripe) : Stripe := { s with title := title }.touch

end Stripe

/-- The stripes of one direction: the list in order, and where each identity stands in it. -/
structure Stripes where
  listed : Array Stripe := #[]
  positions : Std.ExtTreeMap StripeId Nat := ∅

namespace Stripes

/-- The number of stripes. -/
def size (ss : Stripes) : Nat := ss.listed.size

/-- Whether there is no stripe. -/
def isEmpty (ss : Stripes) : Bool := ss.listed.isEmpty

/-- The stripes, in order. -/
def toList (ss : Stripes) : List Stripe := ss.listed.toList

/-- The stripe at a position. -/
def get? (ss : Stripes) (position : Nat) : Option Stripe := ss.listed[position]?

/-- The identities, in order. -/
def ids (ss : Stripes) : List StripeId := ss.toList.map Stripe.id

/-- The titles, in order. -/
def titles (ss : Stripes) : List (Option String) := ss.toList.map Stripe.title

/-- The identity at a position. -/
def idAt (ss : Stripes) (position : Nat) : Option StripeId := (ss.get? position).map Stripe.id

/-- The position of an identity, as long as its stripe is in the list. -/
def positionOf (ss : Stripes) (id : StripeId) : Option Nat := ss.positions[id]?

/-- The stripe of an identity. -/
def byId (ss : Stripes) (id : StripeId) : Option Stripe := (ss.positionOf id).bind ss.get?

/-- The position of the first stripe with a title. -/
def positionOfTitle (ss : Stripes) (title : String) : Option Nat :=
  ss.listed.findIdx? fun s => s.title == some title

/-- Whether any stripe has a title. -/
def anyTitled (ss : Stripes) : Bool := ss.listed.any fun s => s.title.isSome

/-- Enters the position of one stripe. -/
def enter (listed : Array Stripe) (positions : Std.ExtTreeMap StripeId Nat) (position : Nat) :
    Std.ExtTreeMap StripeId Nat :=
  match listed[position]? with
  | some s => positions.insert s.id position
  | none => positions

/-- Enters the positions of all stripes from one on. -/
def reindexFrom (ss : Stripes) (start : Nat) : Stripes :=
  match ss with
  | ⟨listed, positions⟩ => ⟨listed, (List.range' start (listed.size - start)).foldl (enter listed) positions⟩

/-- Puts a stripe at a position, or at the end if the list is shorter. -/
def insertAt (ss : Stripes) (position : Nat) (s : Stripe) : Stripes :=
  match ss with
  | ⟨listed, positions⟩ =>
    let place := min position listed.size
    reindexFrom ⟨listed.insertIdxIfInBounds place s, positions⟩ place

/-- Takes a stripe out; nothing happens if there is none. -/
def removeAt (ss : Stripes) (position : Nat) : Stripes :=
  match ss.get? position with
  | some s => reindexFrom ⟨ss.listed.eraseIdxIfInBounds position, ss.positions.erase s.id⟩ position
  | none => ss

/-- Exchanges two stripes; nothing happens unless both exist. -/
def swap (ss : Stripes) (a b : Nat) : Stripes :=
  match ss.get? a, ss.get? b with
  | some s, some t => ⟨ss.listed.swapIfInBounds a b, (ss.positions.insert t.id a).insert s.id b⟩
  | _, _ => ss

/-- Takes a stripe out and puts it back at another position; nothing happens unless both positions exist. -/
def move (ss : Stripes) (source target : Nat) : Stripes :=
  match ss.get? source with
  | some s =>
    if target < ss.size then
      reindexFrom ⟨(ss.listed.eraseIdxIfInBounds source).insertIdxIfInBounds target s, ss.positions⟩
        (min source target)
    else ss
  | none => ss

/-- Rearranges the stripes: first those at the positions an order names, each at its first mention, then all
    others as they stood.  Positions outside the list name nothing. -/
def reorder (ss : Stripes) (order : List Nat) : Stripes :=
  let named := order.eraseDups
  let others := (List.range ss.size).filter fun position => !order.contains position
  reindexFrom ⟨((named ++ others).filterMap ss.get?).toArray, ss.positions⟩ 0

/-- Changes the stripe at a position, if there is one. -/
def modify (ss : Stripes) (position : Nat) (f : Stripe → Stripe) : Stripes :=
  match ss with
  | ⟨listed, positions⟩ => ⟨listed.modify position f, positions⟩

/-- Counts one change to every stripe. -/
def touchAll (ss : Stripes) : Stripes :=
  match ss with
  | ⟨listed, positions⟩ => ⟨listed.map Stripe.touch, positions⟩

end Stripes

end LiveTable
