/-! Reading numerals into bounded ranges.  Digits are read from the left, and the first fault wins: at one
    character a wrong digit is reported before an overflow, but an overflow hides whatever follows it. -/

namespace LiveTable.Numeral

/-- Why a text is not a numeral of the wanted range. -/
inductive Fault where
  | empty
  | invalidDigit
  | tooLarge
  | tooSmall
  deriving DecidableEq, Repr

/-- The wording of a fault. -/
def Fault.message : Fault → String
  | .empty => "cannot parse integer from empty string"
  | .invalidDigit => "invalid digit found in string"
  | .tooLarge => "number too large to fit in target type"
  | .tooSmall => "number too small to fit in target type"

/-- The value of a digit; letters of either case stand for ten and above. -/
def digit? (radix : Nat) (c : Char) : Option Nat :=
  let value :=
    if '0' ≤ c ∧ c ≤ '9' then c.toNat - 48
    else if 'a' ≤ c ∧ c ≤ 'z' then c.toNat - 87
    else if 'A' ≤ c ∧ c ≤ 'Z' then c.toNat - 55
    else radix
  if value < radix then some value else none

/-- The number that `value` becomes once the given digits are written behind it; past `bound` it is
    `overflow`. -/
def readDigits (radix bound : Nat) (overflow : Fault) : Nat → List Char → Except Fault Nat
  | value, [] => .ok value
  | value, c :: rest =>
    match digit? radix c with
    | none => .error .invalidDigit
    | some d =>
      if bound < value * radix + d then .error overflow
      else readDigits radix bound overflow (value * radix + d) rest

/-- Reads a number from zero to `bound`; a plus sign may lead. -/
def readNatural (radix bound : Nat) : List Char → Except Fault Nat
  | [] => .error .empty
  | ['+'] => .error .invalidDigit
  | '+' :: digits => readDigits radix bound .tooLarge 0 digits
  | digits => readDigits radix bound .tooLarge 0 digits

/-- Reads a signed number of 64 bits in base ten; either sign may lead. -/
def readInteger : List Char → Except Fault Int64
  | [] => .error .empty
  | ['+'] => .error .invalidDigit
  | ['-'] => .error .invalidDigit
  | '+' :: digits => (readDigits 10 0x7fffffffffffffff .tooLarge 0 digits).map fun n => Int64.ofInt n
  | '-' :: digits => (readDigits 10 0x8000000000000000 .tooSmall 0 digits).map fun n => Int64.ofInt (-n)
  | digits => (readDigits 10 0x7fffffffffffffff .tooLarge 0 digits).map fun n => Int64.ofInt n

end LiveTable.Numeral
