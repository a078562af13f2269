import Mathlib.Algebra.GroupWithZero.Nat
import Mathlib.Tactic.SplitIfs

/-!
# Names in byte order

Names are compared character by character, and what is stored of them is their bytes in UTF-8.
Both orders are the same.  The first byte of a character grows with its number, and where two first
bytes are equal, as many bytes follow, which are the digits of the numbers from the highest down.
-/

namespace SchemaLoom.ByteOrder

/-- The bytes of a text in UTF-8. -/
def bytes (text : String) : List UInt8 :=
  text.toUTF8.data.toList

theorem bytes_eq_flatMap (text : String) :
    bytes text = text.toList.flatMap String.utf8EncodeChar := by
  rw [bytes, String.toUTF8_eq_toByteArray, ← String.utf8Encode_toList, List.utf8Encode,
    List.toList_data_toByteArray]

/-! ## The bytes of a character -/

/-- How many bytes follow the first byte of a character. -/
def following (number : Nat) : Nat :=
  if number ≤ 0x7F then 0 else if number ≤ 0x7FF then 1 else if number ≤ 0xFFFF then 2 else 3

def firstByte (number : Nat) : Nat :=
  if number ≤ 0x7F then number
  else if number ≤ 0x7FF then number / 0x40 % 0x20 + 0xC0
  else if number ≤ 0xFFFF then number / 0x1000 % 0x10 + 0xE0
  else number / 0x40000 % 0x08 + 0xF0

/-- The last digits of a number to base 64, each marked as a byte that follows others. -/
def laterBytes : (count : Nat) → (number : Nat) → List UInt8
  | 0, _ => []
  | count + 1, number =>
    UInt8.ofNat (number / 64 ^ count % 64 + 0x80) :: laterBytes count number

theorem utf8EncodeChar_eq (char : Char) :
    String.utf8EncodeChar char =
      UInt8.ofNat (firstByte char.val.toNat) ::
        laterBytes (following char.val.toNat) char.val.toNat := by
  dsimp only [String.utf8EncodeChar]
  unfold firstByte following
  split_ifs <;> simp [laterBytes]

/-! ## Comparing characters -/

/-- Bytes are compared at the first place where they differ. -/
theorem cons_lt_cons_of_le {left right : Nat} {lefts rights : List UInt8} (hle : left ≤ right)
    (hright : right < 256) (hrest : left = right → lefts < rights) :
    UInt8.ofNat left :: lefts < UInt8.ofNat right :: rights := by
  rw [List.cons_lt_cons_iff]
  rcases Nat.lt_or_eq_of_le hle with hless | heq
  · exact .inl ((UInt8.ofNat_lt_iff_lt (Nat.lt_trans hless hright) hright).mpr hless)
  · exact .inr ⟨congrArg UInt8.ofNat heq, hrest heq⟩

theorem laterBytes_append_lt {left right : Nat} (hless : left < right) (lefts rights : List UInt8)
    {count : Nat} (hheads : left / 64 ^ count = right / 64 ^ count) :
    laterBytes count left ++ lefts < laterBytes count right ++ rights := by
  induction count with
  | zero =>
    simp only [Nat.pow_zero, Nat.div_one] at hheads
    omega
  | succ count ih =>
    have hle : left / 64 ^ count ≤ right / 64 ^ count := Nat.div_le_div_right (Nat.le_of_lt hless)
    rw [Nat.pow_succ, ← Nat.div_div_eq_div_mul, ← Nat.div_div_eq_div_mul] at hheads
    refine cons_lt_cons_of_le (by omega) (by omega) fun heq => ih ?_
    omega

/-- A lesser character has a lesser first byte, or it differs in the digits that follow. -/
theorem firstByte_le {left right : Nat} (hless : left < right) (hright : right < 0x110000) :
    firstByte left ≤ firstByte right ∧ firstByte right < 256 ∧
      (firstByte left = firstByte right →
        following left = following right ∧
          left / 64 ^ following right = right / 64 ^ following right) := by
  unfold firstByte following
  -- For each pair of lengths the ranges of the first bytes are apart, or the digits are linear.
  split_ifs <;> refine ⟨by omega, by omega, fun heq => ⟨by omega, by omega⟩⟩

/-- Whatever follows, the bytes of the lesser character come first. -/
theorem utf8EncodeChar_append_lt {left right : Char} (hless : left < right)
    (lefts rights : List UInt8) :
    String.utf8EncodeChar left ++ lefts < String.utf8EncodeChar right ++ rights := by
  have hnumbers := UInt32.lt_iff_toNat_lt.mp (Char.lt_def.mp hless)
  have hvalid : right.val.toNat < 0x110000 := by
    rcases right.valid with hlow | ⟨-, hhigh⟩
    · exact Nat.lt_trans hlow (by decide)
    · exact hhigh
  obtain ⟨hle, hbyte, hsame⟩ := firstByte_le hnumbers hvalid
  rw [utf8EncodeChar_eq, utf8EncodeChar_eq]
  refine cons_lt_cons_of_le hle hbyte fun heq => ?_
  obtain ⟨hfollowing, hheads⟩ := hsame heq
  rw [hfollowing]
  exact laterBytes_append_lt hnumbers lefts rights hheads

/-! ## Comparing texts -/

theorem flatMap_lt_of_lt {left right : List Char} (hless : left < right) :
    left.flatMap String.utf8EncodeChar < right.flatMap String.utf8EncodeChar := by
  induction hless with
  | nil =>
    rw [List.flatMap_cons, utf8EncodeChar_eq]
    exact List.nil_lt_cons _ _
  | rel hless => exact utf8EncodeChar_append_lt hless _ _
  | cons _ ih => exact List.append_left_lt ih

theorem bytes_lt_of_lt {left right : String} (hless : left < right) : bytes left < bytes right := by
  rw [bytes_eq_flatMap, bytes_eq_flatMap]
  exact flatMap_lt_of_lt (String.lt_iff.mp hless)

/-- Texts and their bytes are in the same order. -/
theorem bytes_lt_iff {left right : String} : bytes left < bytes right ↔ left < right := by
  refine ⟨fun hbytes => ?_, bytes_lt_of_lt⟩
  rcases Std.lt_trichotomy left right with hless | rfl | hgreater
  · exact hless
  · exact absurd hbytes (List.lt_irrefl _)
  · exact absurd hbytes (List.lt_asymm (bytes_lt_of_lt hgreater))

end SchemaLoom.ByteOrder
