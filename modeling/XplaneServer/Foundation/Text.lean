/-
  Foundation/Text.lean --- byte strings, and the parts of the C++ string library
  the server relies on.

  A `std::string` is the list of its bytes.  `std::map<std::string, V>` compares
  keys with `char_traits<char>::compare`, that is by unsigned bytes and then by
  length; this is core's lexicographic `compare` on `List UInt8`.
-/
import Mathlib.Algebra.Ring.Int.Defs
import Mathlib.Algebra.Ring.Nat
import Mathlib.Data.List.TakeWhile
import Std.Data.ExtTreeMap

set_option autoImplicit false

namespace XplaneServer.Foundation

/-- A `std::string`. -/
abbrev Bytes := List UInt8

/-- A `std::map` keyed by `std::string`. -/
abbrev StringMap (ν : Type) := Std.ExtTreeMap Bytes ν

/-- The bytes of an ASCII string literal. -/
def lit (s : String) : Bytes := s.toList.map Char.toUInt8

/-- The bytes of a C string: those before the first NUL. -/
def beforeNul (memory : Bytes) : Bytes := memory.takeWhile (· ≠ 0)

/-- `std::string(const char*)`: scan the memory the pointer leads into for its
first NUL.  `none` is the scan that runs off the end of that memory. -/
def stringOfPointer (memory : Bytes) : Option Bytes :=
  if 0 ∈ memory then some (beforeNul memory) else none

/-- `std::string::substr(pos)`, where `none` is the `std::out_of_range` thrown
for a position past the end. -/
def substr (s : Bytes) (pos : Nat) : Option Bytes :=
  if pos ≤ s.length then some (s.drop pos) else none

/-- Nothing is cut from a string without a NUL. -/
theorem beforeNul_eq_self {s : Bytes} (h : (0 : UInt8) ∉ s) : beforeNul s = s := by
  unfold beforeNul
  rw [List.takeWhile_eq_self_iff]
  intro b hb
  exact decide_eq_true (ne_of_mem_of_not_mem hb h)

/-- Only a string without a NUL is kept whole. -/
theorem beforeNul_eq_self_iff {s : Bytes} : beforeNul s = s ↔ (0 : UInt8) ∉ s := by
  refine ⟨fun h hmem => ?_, beforeNul_eq_self⟩
  rw [← h] at hmem
  have hkept := List.mem_takeWhile_imp hmem
  simp at hkept

/-- What follows a NUL is not read. -/
theorem beforeNul_append_nul (s rest : Bytes) :
    beforeNul (s ++ 0 :: rest) = beforeNul s := by
  unfold beforeNul
  induction s with
  | nil => simp
  | cons b s ih =>
      rw [List.cons_append, List.takeWhile_cons, List.takeWhile_cons, ih]

/-! ## `std::to_string` -/

/-- The decimal digits of a natural number. -/
def decimal (n : Nat) : Bytes := (Nat.toDigits 10 n).map Char.toUInt8

/-- `std::to_string(int)`. -/
def toStringInt (i : Int) : Bytes :=
  if i < 0 then lit "-" ++ decimal i.natAbs else decimal i.natAbs

/-- The reading of an IEEE 754 binary interchange format: an infinity, a NaN, or
`mantissa * 2 ^ exponent`, each with its sign bit. -/
inductive Ieee where
  | infinity (negative : Bool)
  | nan (negative : Bool)
  | finite (negative : Bool) (mantissa : Nat) (exponent : Int)

/-- Decode a bit pattern of the format with the given field widths. -/
def Ieee.ofBits (expBits manBits bits : Nat) : Ieee :=
  let negative := bits / 2 ^ (expBits + manBits) % 2 == 1
  let e := bits / 2 ^ manBits % 2 ^ expBits
  let m := bits % 2 ^ manBits
  let bias : Int := 2 ^ (expBits - 1) - 1
  if e = 2 ^ expBits - 1 then
    if m = 0 then .infinity negative else .nan negative
  else if e = 0 then .finite negative m (1 - bias - manBits)
  else .finite negative (2 ^ manBits + m) (e - bias - manBits)

/-- `x / d` rounded to the nearest integer, ties to even. -/
def roundHalfEven (x d : Nat) : Nat :=
  let q := x / d
  let r := x % d
  if 2 * r < d then q
  else if d < 2 * r then q + 1
  else if q % 2 = 0 then q else q + 1

/-- `printf("%f")`: the value rounded to six decimal places. -/
def formatFixed : Ieee → Bytes
  | .infinity negative => (if negative then lit "-" else []) ++ lit "inf"
  | .nan negative => (if negative then lit "-" else []) ++ lit "nan"
  | .finite negative m e =>
      let micros :=
        if 0 ≤ e then m * 2 ^ e.toNat * 10 ^ 6
        else roundHalfEven (m * 10 ^ 6) (2 ^ (-e).toNat)
      let fraction := decimal (micros % 10 ^ 6)
      (if negative then lit "-" else []) ++ decimal (micros / 10 ^ 6) ++ lit "." ++
        List.replicate (6 - fraction.length) 48 ++ fraction

/-- `std::to_string(float)`, on the bits of the float. -/
def toStringFloat (bits : UInt32) : Bytes := formatFixed (.ofBits 8 23 bits.toNat)

/-- `std::to_string(double)`, on the bits of the double. -/
def toStringDouble (bits : UInt64) : Bytes := formatFixed (.ofBits 11 52 bits.toNat)

/-- The byte of a decimal digit. -/
theorem toUInt8_of_isDigit {c : Char} (hc : c.isDigit) :
    c.toUInt8.toNat = c.toNat ∧ 48 ≤ c.toUInt8 ∧ c.toUInt8 ≤ 57 := by
  simp only [Char.isDigit, Bool.and_eq_true, decide_eq_true_eq] at hc
  obtain ⟨hlow, hhigh⟩ := hc
  have hlow' : 48 ≤ c.val.toNat := UInt32.le_iff_toNat_le.mp hlow
  have hhigh' : c.val.toNat ≤ 57 := UInt32.le_iff_toNat_le.mp hhigh
  have hbyte : c.toUInt8.toNat = c.val.toNat := by
    rw [Char.toUInt8, UInt32.toNat_toUInt8]
    exact Nat.mod_eq_of_lt (by omega)
  refine ⟨hbyte, ?_, ?_⟩
  · rw [UInt8.le_iff_toNat_le, hbyte]
    exact hlow'
  · rw [UInt8.le_iff_toNat_le, hbyte]
    exact hhigh'

/-- Decimal numerals are made of the bytes `'0'` to `'9'`. -/
theorem mem_decimal {n : Nat} {b : UInt8} (h : b ∈ decimal n) : 48 ≤ b ∧ b ≤ 57 := by
  unfold decimal at h
  obtain ⟨c, hc, rfl⟩ := List.mem_map.mp h
  exact (toUInt8_of_isDigit (Nat.isDigit_of_mem_toDigits (by decide) (by decide) hc)).2

/-- A printed integer is made of digits and the minus sign. -/
theorem mem_toStringInt {i : Int} {b : UInt8} (h : b ∈ toStringInt i) :
    b = 45 ∨ 48 ≤ b ∧ b ≤ 57 := by
  unfold toStringInt at h
  split at h
  · rcases List.mem_append.mp h with hminus | hdigit
    · have hbyte : lit "-" = [45] := by decide
      left
      simpa [hbyte] using hminus
    · exact Or.inr (mem_decimal hdigit)
  · exact Or.inr (mem_decimal h)

example : toStringDouble 0x3FF8000000000000 = lit "1.500000" := by decide
example : toStringFloat 0xC0490FDB = lit "-3.141593" := by decide

end XplaneServer.Foundation
