import LiveTable.Element

/-! Elements read back from their written forms.  For texts there is nothing to do.  A number is written
    with the digits of its absolute value, which the reader adds up from the left; as the value only
    grows with every digit, a number inside the range never runs into its bound on the way. -/

namespace LiveTable

/-- Element types whose written forms are read as what was written. -/
class Element.Faithful (α : Type) [Element α] : Prop where
  ofText_text : ∀ a : α, Element.ofText (Element.text a) = .ok a

namespace Numeral

variable {n bound : Nat} {overflow : Fault}

theorem digit?_eq {c : Char} (digit : c.isDigit) : digit? 10 c = some (c.toNat - '0'.toNat) := by
  obtain ⟨low, high⟩ := Char.isDigit_iff_toNat.mp digit
  have between : '0' ≤ c ∧ c ≤ '9' := ⟨low, high⟩
  have small : c.toNat - '0'.toNat < 10 := Nat.sub_lt_left_of_lt_add low (Nat.lt_succ_of_le high)
  rw [digit?, if_pos between]
  exact if_pos small

/-- A value does not shrink when digits are written behind it. -/
theorem le_ofDigitChars (digits : List Char) (value : Nat) : value ≤ Nat.ofDigitChars 10 digits value := by
  induction digits generalizing value with
  | nil => exact Nat.le_of_eq Nat.ofDigitChars_nil.symm
  | cons c rest ih =>
    rw [Nat.ofDigitChars_cons]
    have later := ih (10 * value + (c.toNat - '0'.toNat))
    omega

theorem readDigits_eq (digits : List Char) (value : Nat) (all : ∀ c ∈ digits, c.isDigit)
    (within : Nat.ofDigitChars 10 digits value ≤ bound) :
    readDigits 10 bound overflow value digits = .ok (Nat.ofDigitChars 10 digits value) := by
  induction digits generalizing value with
  | nil => rw [readDigits, Nat.ofDigitChars_nil]
  | cons c rest ih =>
    rw [Nat.ofDigitChars_cons, Nat.mul_comm 10 value] at within ⊢
    have room := Nat.le_trans (le_ofDigitChars rest _) within
    rw [readDigits, digit?_eq (all c List.mem_cons_self)]
    dsimp only
    rw [if_neg (Nat.not_lt.mpr room), ih _ (fun d mem => all d (List.mem_cons_of_mem c mem)) within]

theorem readDigits_toDigits (overflow : Fault) (within : n ≤ bound) :
    readDigits 10 bound overflow 0 (Nat.toDigits 10 n) = .ok n := by
  have digits : ∀ c ∈ Nat.toDigits 10 n, c.isDigit :=
    fun c mem => Nat.isDigit_of_mem_toDigits (by decide) (by decide) mem
  rw [readDigits_eq _ _ digits (by rwa [Nat.ofDigitChars_ten_toDigits]), Nat.ofDigitChars_ten_toDigits]

/-- The digits of a number begin with a digit, not with a sign. -/
theorem exists_toDigits_cons (n : Nat) : ∃ c rest, Nat.toDigits 10 n = c :: rest ∧ c ≠ '+' ∧ c ≠ '-' := by
  cases digits : Nat.toDigits 10 n with
  | nil => exact absurd digits Nat.toDigits_ne_nil
  | cons c rest =>
    have mem : c ∈ Nat.toDigits 10 n := digits ▸ List.mem_cons_self
    have digit : c.isDigit := Nat.isDigit_of_mem_toDigits (by decide) (by decide) mem
    refine ⟨c, rest, rfl, ?_, ?_⟩ <;> rintro rfl <;> simp at digit

theorem readInteger_toDigits (within : n < 0x8000000000000000) :
    readInteger (Nat.toDigits 10 n) = .ok (Int64.ofInt n) := by
  have read := readDigits_toDigits .tooLarge (Nat.le_sub_one_of_lt within)
  obtain ⟨c, rest, digits, plus, minus⟩ := exists_toDigits_cons n
  rw [digits] at read ⊢
  have unsigned : readInteger (c :: rest) =
      (readDigits 10 0x7fffffffffffffff .tooLarge 0 (c :: rest)).map fun n => Int64.ofInt n := by
    unfold readInteger
    split <;> simp_all
  rw [unsigned, read]
  rfl

theorem readInteger_neg_toDigits (within : n ≤ 0x8000000000000000) :
    readInteger ('-' :: Nat.toDigits 10 n) = .ok (Int64.ofInt (-n)) := by
  have read := readDigits_toDigits .tooSmall within
  obtain ⟨c, rest, digits, -, -⟩ := exists_toDigits_cons n
  rw [digits] at read ⊢
  rw [readInteger, read]
  · rfl
  · simp

/-- Every number of 64 bits is inside the range that its own sign allows. -/
theorem readInteger_toString (n : Int64) : readInteger (toString n.toInt).toList = .ok n := by
  have below := n.toInt_lt
  have above := n.le_toInt
  have back : Int64.ofInt n.toInt = n := Int64.ofInt_toInt n
  rw [Int.toString_eq_repr]
  cases value : n.toInt with
  | ofNat m =>
    rw [value] at below back
    have within : m < 0x8000000000000000 := by
      simp only [Int.ofNat_eq_natCast] at below
      omega
    show readInteger (Nat.repr m).toList = .ok n
    rw [Nat.toList_repr, readInteger_toDigits within]
    exact congrArg Except.ok back
  | negSucc m =>
    -- below zero the range reaches one further
    rw [value] at above back
    have within : m + 1 ≤ 0x8000000000000000 := by
      rw [Int.negSucc_eq] at above
      omega
    show readInteger ("-" ++ Nat.repr (m + 1)).toList = .ok n
    rw [String.toList_append, Nat.toList_repr]
    show readInteger ('-' :: Nat.toDigits 10 (m + 1)) = .ok n
    rw [readInteger_neg_toDigits within]
    exact congrArg Except.ok back

end Numeral

namespace Element

instance : Faithful String where
  ofText_text _ := rfl

instance : Faithful Int64 where
  ofText_text n := Numeral.readInteger_toString n

end Element

end LiveTable
