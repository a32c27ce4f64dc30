/-! The binary form of stored rows.  A length is eight bytes, lowest first; a list is its length and its
    items; an optional value is a byte zero, or a byte one and the value; a text is the length of its
    UTF-8 bytes and those bytes; a number is eight bytes in two's complement.  Reading takes a value off
    the front and gives the rest. -/

namespace LiveTable

/-- Types whose values have a binary form. -/
class BinaryForm (α : Type) where
  toBytes : α → List UInt8
  read? : List UInt8 → Option (α × List UInt8)

namespace BinaryForm

/-- A number as a count of bytes, lowest first. -/
def littleEndian : Nat → Nat → List UInt8
  | 0, _ => []
  | count + 1, n => UInt8.ofNat (n % 256) :: littleEndian count (n / 256)

/-- The number that bytes stand for, lowest first. -/
def ofLittleEndian : List UInt8 → Nat
  | [] => 0
  | b :: rest => b.toNat + 256 * ofLittleEndian rest

/-- Takes a number of bytes off the front, if there are so many. -/
def take? (count : Nat) (bytes : List UInt8) : Option (List UInt8 × List UInt8) :=
  let front := bytes.take count
  if front.length = count then some (front, bytes.drop count) else none

/-- Takes a length off the front. -/
def length? (bytes : List UInt8) : Option (Nat × List UInt8) :=
  (take? 8 bytes).map fun (front, rest) => (ofLittleEndian front, rest)

/-- Takes a number of values off the front. -/
def readMany {α : Type} [BinaryForm α] : Nat → List UInt8 → Option (List α × List UInt8)
  | 0, bytes => some ([], bytes)
  | count + 1, bytes =>
    match read? bytes with
    | none => none
    | some (a, rest) => (readMany count rest).map fun (as, rest) => (a :: as, rest)

instance : BinaryForm String where
  toBytes s :=
    let bytes := s.toUTF8.toList
    littleEndian 8 bytes.length ++ bytes
  read? bytes := do
    let (length, rest) ← length? bytes
    let (front, rest) ← take? length rest
    let s ← String.fromUTF8? ⟨front.toArray⟩
    return (s, rest)

instance : BinaryForm Int64 where
  toBytes n := littleEndian 8 n.toUInt64.toNat
  read? bytes := (length? bytes).map fun (n, rest) => ((UInt64.ofNat n).toInt64, rest)

instance {α : Type} [BinaryForm α] : BinaryForm (Option α) where
  toBytes
    | none => [0]
    | some a => 1 :: toBytes a
  read?
    | 0 :: rest => some (none, rest)
    | 1 :: rest => (read? rest).map fun (a, rest) => (some a, rest)
    | _ => none

instance {α : Type} [BinaryForm α] : BinaryForm (List α) where
  toBytes as := littleEndian 8 as.length ++ as.flatMap toBytes
  read? bytes := (length? bytes).bind fun (count, rest) => readMany count rest

end BinaryForm

end LiveTable
