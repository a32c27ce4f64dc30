import LiveTable.Binary

/-! The binary form read back.  Reading takes a value off the front, so a form is known by what is read
    from it whatever stands behind it; lists are then read one item after the other.  A length is written
    into eight bytes, which is enough for whatever fits into a file: every item takes at least one byte,
    so a form whose own length fits holds no list or text that is longer. -/

namespace LiveTable.BinaryForm

/-! ### Texts and their bytes -/

/-- The loop that lists bytes has read those before it, last first. -/
theorem toList_loop (bytes : ByteArray) (i : Nat) (read : List UInt8) :
    ByteArray.toList.loop bytes i read = read.reverse ++ bytes.data.toList.drop i := by
  induction i, read using ByteArray.toList.loop.induct bytes with
  | case1 i read inside ih =>
    have here : i < bytes.data.toList.length := inside
    have byte : bytes.get! i = bytes.data.toList[i] := getElem!_pos bytes.data i inside
    rw [ByteArray.toList.loop, if_pos inside, ih, List.drop_eq_getElem_cons here, byte, List.reverse_cons,
      List.append_assoc]
    rfl
  | case2 i read past =>
    have none_left : bytes.data.toList.drop i = [] := List.drop_of_length_le (Nat.le_of_not_lt past)
    rw [ByteArray.toList.loop, if_neg past, none_left, List.append_nil]

theorem toList_eq_data (bytes : ByteArray) : bytes.toList = bytes.data.toList := toList_loop bytes 0 []

/-- A text is read from its bytes. -/
theorem fromUTF8?_toUTF8 (s : String) : String.fromUTF8? ⟨s.toUTF8.toList.toArray⟩ = some s := by
  have bytes : (⟨s.toUTF8.toList.toArray⟩ : ByteArray) = s.toByteArray := by rw [toList_eq_data]; rfl
  rw [bytes, String.fromUTF8?, dif_pos s.isValidUTF8]
  rfl

/-- The first number that a count of bytes cannot hold. -/
def capacity : Nat → Nat
  | 0 => 1
  | count + 1 => 256 * capacity count

@[simp] theorem length_littleEndian (count n : Nat) : (littleEndian count n).length = count := by
  induction count generalizing n with
  | zero => rfl
  | succ count ih => rw [littleEndian, List.length_cons, ih]

theorem ofLittleEndian_littleEndian (count n : Nat) (small : n < capacity count) :
    ofLittleEndian (littleEndian count n) = n := by
  induction count generalizing n with
  | zero => exact (Nat.lt_one_iff.mp small).symm
  | succ count ih =>
    have rest : n / 256 < capacity count := by
      rw [capacity] at small
      omega
    have low : (UInt8.ofNat (n % 256)).toNat = n % 256 := UInt8.toNat_ofNat_of_lt' (Nat.mod_lt n (by decide))
    rw [littleEndian, ofLittleEndian, ih _ rest, low]
    exact Nat.mod_add_div n 256

theorem take?_append (front rest : List UInt8) : take? front.length (front ++ rest) = some (front, rest) := by
  rw [take?, List.take_left, List.drop_left]
  exact if_pos rfl

/-- A length that fits into eight bytes is read back. -/
theorem length?_append {n : Nat} (small : n < capacity 8) (rest : List UInt8) :
    length? (littleEndian 8 n ++ rest) = some (n, rest) := by
  have taken := take?_append (littleEndian 8 n) rest
  rw [length_littleEndian] at taken
  rw [length?, taken, Option.map_some]
  exact congrArg some (Prod.ext (ofLittleEndian_littleEndian 8 n small) rfl)

/-! ### Values -/

/-- A value that is read back from its binary form, whatever stands behind it. -/
def Legible {α : Type} [BinaryForm α] (a : α) : Prop := ∀ rest, read? (toBytes a ++ rest) = some (a, rest)

/-- Types of which every value is legible whose binary form fits into a file, and no form is empty. -/
class Faithful (α : Type) [BinaryForm α] : Prop where
  legible : ∀ a : α, (toBytes a).length < capacity 8 → Legible a
  solid : ∀ a : α, toBytes a ≠ []

instance : Faithful String where
  legible s fits rest := by
    let bytes := s.toUTF8.toList
    have small : bytes.length < capacity 8 := by
      have length : (toBytes s).length = 8 + bytes.length := by
        show (littleEndian 8 bytes.length ++ bytes).length = _
        rw [List.length_append, length_littleEndian]
      omega
    show (do
      let (length, rest) ← length? (littleEndian 8 bytes.length ++ bytes ++ rest)
      let (front, rest) ← take? length rest
      let s ← String.fromUTF8? ⟨front.toArray⟩
      return (s, rest)) = some (s, rest)
    rw [List.append_assoc, length?_append small]
    have read : String.fromUTF8? ⟨bytes.toArray⟩ = some s := fromUTF8?_toUTF8 s
    simp only [Option.bind_eq_bind, Option.bind_some, take?_append, read]
    rfl
  solid s := by
    intro empty
    have length := congrArg List.length empty
    simp [toBytes] at length

instance : Faithful Int64 where
  legible n _ rest := by
    have small : n.toUInt64.toNat < capacity 8 := n.toUInt64.toBitVec.isLt
    show (length? (littleEndian 8 n.toUInt64.toNat ++ rest)).map
      (fun (n, rest) => ((UInt64.ofNat n).toInt64, rest)) = _
    rw [length?_append small, Option.map_some]
    have number : (UInt64.ofNat n.toUInt64.toNat).toInt64 = n := by
      rw [UInt64.ofNat_toNat, Int64.toInt64_toUInt64]
    exact congrArg some (Prod.ext number rfl)
  solid n := by
    intro empty
    have length := congrArg List.length empty
    simp [toBytes] at length

instance {α : Type} [BinaryForm α] [Faithful α] : Faithful (Option α) where
  legible a? fits rest := by
    cases a? with
    | none => rfl
    | some a =>
      have form : toBytes (some a) = 1 :: toBytes a := rfl
      rw [form, List.length_cons] at fits
      have read := Faithful.legible a (by omega) rest
      show (read? (toBytes a ++ rest)).map (fun (found : α × List UInt8) => (some found.1, found.2)) = _
      rw [read]
      rfl
  solid a? := by cases a? <;> exact List.cons_ne_nil _ _

section Lists

variable {α : Type} [BinaryForm α]

/-- Items are read one after the other. -/
theorem readMany_flatMap {as : List α} (each : ∀ a ∈ as, Legible a) (rest : List UInt8) :
    readMany as.length (as.flatMap toBytes ++ rest) = some (as, rest) := by
  induction as with
  | nil => rfl
  | cons a as ih =>
    obtain ⟨first, later⟩ := List.forall_mem_cons.mp each
    rw [List.flatMap_cons, List.append_assoc, List.length_cons, readMany, first]
    dsimp only
    rw [ih later, Option.map_some]

/-- There are no more items than bytes in them. -/
theorem length_le_flatMap [Faithful α] (as : List α) : as.length ≤ (as.flatMap toBytes).length := by
  induction as with
  | nil => exact Nat.le_refl 0
  | cons a as ih =>
    have one : 0 < (toBytes a).length := List.length_pos_iff.mpr (Faithful.solid a)
    rw [List.flatMap_cons, List.length_append, List.length_cons]
    omega

theorem length_toBytes_le {as : List α} {a : α} (mem : a ∈ as) :
    (toBytes a).length ≤ (as.flatMap toBytes).length := by
  obtain ⟨before, after, rfl⟩ := List.append_of_mem mem
  rw [List.flatMap_append, List.flatMap_cons, List.length_append, List.length_append]
  omega

instance [Faithful α] : Faithful (List α) where
  legible as fits rest := by
    have form : toBytes as = littleEndian 8 as.length ++ as.flatMap toBytes := rfl
    rw [form, List.length_append, length_littleEndian] at fits
    have short := length_le_flatMap as
    have each : ∀ a ∈ as, Legible a := fun a mem => by
      have part := length_toBytes_le mem
      exact Faithful.legible a (by omega)
    show (length? (toBytes as ++ rest)).bind (fun (count, rest) => readMany count rest) = _
    rw [form, List.append_assoc, length?_append (by omega), Option.bind_some]
    exact readMany_flatMap each rest
  solid as := by
    intro empty
    have length := congrArg List.length empty
    simp [toBytes] at length

end Lists

end LiveTable.BinaryForm
