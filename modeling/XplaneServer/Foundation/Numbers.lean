/-
  Foundation/Numbers.lean --- `std::stoi`, `std::stof` and `std::stod`.

  Each reads the longest numeral the text begins with, after blanks and a sign,
  and ignores what follows it.  A text without a numeral is an
  `std::invalid_argument`, and a numeral outside the type an `std::out_of_range`;
  a float or double is out of range when it rounds to an infinity, or to zero
  although the numeral is not zero.  `stoi` reads back what `std::to_string`
  prints (`stoi_toStringInt`).
-/
import XplaneServer.Foundation.Text

set_option autoImplicit false

namespace XplaneServer.Foundation

/-- What the conversions throw. -/
inductive ConversionError where
  | invalidArgument
  | outOfRange
  deriving DecidableEq, Repr

/-! ## Digits -/

/-- `isspace` of the C locale. -/
def isSpace (b : UInt8) : Bool := b == 32 || (9 ≤ b && b ≤ 13)

/-- `tolower` of the C locale. -/
def toLower (b : UInt8) : UInt8 := if 65 ≤ b && b ≤ 90 then b + 32 else b

/-- The value of a hexadecimal digit. -/
def digitValue (b : UInt8) : Option Nat :=
  let b := toLower b
  if 48 ≤ b && b ≤ 57 then some (b.toNat - 48)
  else if 97 ≤ b && b ≤ 102 then some (b.toNat - 87)
  else none

/-- The digits of a base the text begins with, and the text after them. -/
def takeDigits (base : Nat) : Bytes → List Nat × Bytes
  | [] => ([], [])
  | b :: s =>
      match digitValue b with
      | some d =>
          if d < base then
            let (ds, rest) := takeDigits base s
            (d :: ds, rest)
          else ([], b :: s)
      | none => ([], b :: s)

/-- The number that digits denote. -/
def ofDigits (base : Nat) (ds : List Nat) : Nat := ds.foldl (fun n d => n * base + d) 0

/-- An optional sign, and whether it is a minus. -/
def takeSign : Bytes → Bool × Bytes
  | 43 :: s => (false, s)
  | 45 :: s => (true, s)
  | s => (false, s)

/-! ## Integers -/

/-- `std::stoi` -/
def stoi (s : Bytes) : Except ConversionError Int32 :=
  let (negative, s) := takeSign (s.dropWhile isSpace)
  let (ds, _) := takeDigits 10 s
  if ds = [] then .error .invalidArgument
  else
    let i : Int := if negative then -(ofDigits 10 ds : Int) else ofDigits 10 ds
    if -2 ^ 31 ≤ i ∧ i < 2 ^ 31 then .ok (Int32.ofInt i) else .error .outOfRange

/-! ## Bit patterns of IEEE 754 formats -/

section Format

variable (expBits manBits : Nat)

/-- The sign bit. -/
def signBit (negative : Bool) : Nat := if negative then 2 ^ (expBits + manBits) else 0

/-- The pattern of an infinity, which is the first above those of the finite
values. -/
def infinityBits : Nat := (2 ^ expBits - 1) * 2 ^ manBits

/-- `m * base ^ e` as a fraction. -/
def asFraction (base m : Nat) (e : Int) : Nat × Nat :=
  if 0 ≤ e then (m * base ^ e.toNat, 1) else (m, base ^ (-e).toNat)

/-- The pattern of the value nearest to a positive fraction, ties to even.  The
patterns of the finite values are in the order of the values, so a significand
that is rounded up to a power of two carries into the exponent. -/
def roundFraction (num den : Nat) : Nat :=
  let lowest : Int := 2 - 2 ^ (expBits - 1) - manBits
  let estimate : Int := num.log2 - den.log2
  let reached :=
    if 0 ≤ estimate then den * 2 ^ estimate.toNat ≤ num else den ≤ num * 2 ^ (-estimate).toNat
  let exponent := if reached then estimate else estimate - 1
  let quantum := max (exponent - manBits) lowest
  let significand :=
    if 0 ≤ quantum then roundHalfEven num (den * 2 ^ quantum.toNat)
    else roundHalfEven (num * 2 ^ (-quantum).toNat) den
  (quantum - lowest).toNat * 2 ^ manBits + significand

/-- The pattern of a value in a format, which may be narrower than its own: what
is too large becomes an infinity. -/
def Ieee.toBits : Ieee → Nat
  | .infinity negative => signBit expBits manBits negative + infinityBits expBits manBits
  | .nan negative =>
      signBit expBits manBits negative + infinityBits expBits manBits + 2 ^ (manBits - 1)
  | .finite negative m e =>
      let (num, den) := asFraction 2 m e
      signBit expBits manBits negative +
        if m = 0 then 0
        else min (infinityBits expBits manBits) (roundFraction expBits manBits num den)

end Format

/-! ## Reals -/

/-- A numeral `strtod` accepts, without its sign. -/
inductive Numeral where
  | infinity
  | nan
  | finite (mantissa base : Nat) (exponent : Int)

/-- Digits with an optional point among them: the number without the point, the
count of digits after it, and the text after both. -/
def scanMantissa (base : Nat) (s : Bytes) : Option (Nat × Nat × Bytes) :=
  let (whole, rest) := takeDigits base s
  let (fraction, rest) :=
    match rest with
    | 46 :: rest => takeDigits base rest
    | _ => ([], rest)
  if whole ++ fraction = [] then none
  else some (ofDigits base (whole ++ fraction), fraction.length, rest)

/-- An optional exponent after its marker; a marker without digits is none. -/
def scanExponent (marker : UInt8) (s : Bytes) : Int :=
  match s with
  | [] => 0
  | b :: s =>
      if toLower b = marker then
        let (negative, s) := takeSign s
        let (ds, _) := takeDigits 10 s
        if negative then -(ofDigits 10 ds : Int) else ofDigits 10 ds
      else 0

/-- The numeral after `0x`. -/
def scanHexadecimal (s : Bytes) : Option Numeral :=
  match s with
  | 48 :: x :: s =>
      if toLower x = 120 then
        (scanMantissa 16 s).map fun (m, places, rest) =>
          .finite m 2 (scanExponent 112 rest - 4 * places)
      else none
  | _ => none

/-- The numeral a text begins with. -/
def scanNumeral (s : Bytes) : Option Numeral :=
  let word := (s.take 3).map toLower
  if word = lit "inf" then some .infinity
  else if word = lit "nan" then some .nan
  else
    (scanHexadecimal s).or <|
      (scanMantissa 10 s).map fun (m, places, rest) =>
        .finite m 10 (scanExponent 101 rest - places)

/-- `strtod` for a format.  A power of the base that is far outside the range is
not computed: `10 ^ e` is at least `2 ^ (3 * e)` for a positive `e`, and at most
that for a negative one. -/
def stringToReal (expBits manBits : Nat) (s : Bytes) : Except ConversionError Nat :=
  let (negative, s) := takeSign (s.dropWhile isSpace)
  match scanNumeral s with
  | none => .error .invalidArgument
  | some .infinity => .ok ((Ieee.infinity negative).toBits expBits manBits)
  | some .nan => .ok ((Ieee.nan negative).toBits expBits manBits)
  | some (.finite m base e) =>
      let magnitude : Int := m.log2 + (if base = 10 then 3 else 1) * e
      if m = 0 then .ok (signBit expBits manBits negative)
      else if (0 ≤ e ∧ 2 ^ expBits < magnitude) ∨ magnitude < -2 ^ expBits then
        .error .outOfRange
      else
        let (num, den) := asFraction base m e
        let bits := roundFraction expBits manBits num den
        if bits = 0 ∨ infinityBits expBits manBits ≤ bits then .error .outOfRange
        else .ok (signBit expBits manBits negative + bits)

/-- `std::stof`, as the bits of the float. -/
def stof (s : Bytes) : Except ConversionError UInt32 :=
  (stringToReal 8 23 s).map UInt32.ofNat

/-- `std::stod`, as the bits of the double. -/
def stod (s : Bytes) : Except ConversionError UInt64 :=
  (stringToReal 11 52 s).map UInt64.ofNat

/-! ## Reading a printed integer -/

/-- A digit is read as what it denotes. -/
theorem digitValue_ofChar {c : Char} (hc : c.isDigit) :
    digitValue c.toUInt8 = some (c.toNat - 48) ∧ c.toNat - 48 < 10 := by
  obtain ⟨hbyte, hlow, hhigh⟩ := toUInt8_of_isDigit hc
  have hcase : ¬ 65 ≤ c.toUInt8 := fun h => absurd (UInt8.le_trans h hhigh) (by decide)
  have hlower : toLower c.toUInt8 = c.toUInt8 := by simp [toLower, hcase]
  refine ⟨by simp [digitValue, hlower, hlow, hhigh, hbyte], ?_⟩
  have hle : c.toUInt8.toNat ≤ 57 := UInt8.le_iff_toNat_le.mp hhigh
  omega

/-- A text of digits is taken to its end. -/
theorem takeDigits_ofChars {cs : List Char} (h : ∀ c ∈ cs, c.isDigit) :
    takeDigits 10 (cs.map Char.toUInt8) = (cs.map fun c => c.toNat - 48, []) := by
  induction cs with
  | nil => rfl
  | cons c cs ih =>
      obtain ⟨hvalue, hlt⟩ := digitValue_ofChar (h c List.mem_cons_self)
      have hrest := ih fun d hd => h d (List.mem_cons_of_mem c hd)
      rw [List.map_cons, takeDigits, hvalue]
      simp only [if_pos hlt, hrest, List.map_cons]

/-- The digits of a decimal numeral denote its number. -/
theorem takeDigits_decimal (n : Nat) :
    ∃ ds, takeDigits 10 (decimal n) = (ds, []) ∧ ds ≠ [] ∧ ofDigits 10 ds = n := by
  refine ⟨(Nat.toDigits 10 n).map fun c => c.toNat - 48, ?_, by simp, ?_⟩
  · exact takeDigits_ofChars fun c hc => Nat.isDigit_of_mem_toDigits (by decide) (by decide) hc
  · calc
      ofDigits 10 ((Nat.toDigits 10 n).map fun c => c.toNat - 48)
          = Nat.ofDigitChars 10 (Nat.toDigits 10 n) 0 := by
            simp [ofDigits, Nat.ofDigitChars_eq_foldl, List.foldl_map, Nat.mul_comm]
      _ = n := Nat.ofDigitChars_ten_toDigits

/-- It begins with neither a blank nor a sign. -/
theorem takeSign_decimal (n : Nat) :
    takeSign ((decimal n).dropWhile isSpace) = (false, decimal n) := by
  cases hn : decimal n with
  | nil => simp [decimal] at hn
  | cons b s =>
      have hlow : 48 ≤ b := (mem_decimal (hn ▸ List.mem_cons_self)).1
      have hblank : b ≠ 32 ∧ ¬ b ≤ 13 :=
        ⟨fun h => absurd (h ▸ hlow) (by decide),
          fun h => absurd (UInt8.le_trans hlow h) (by decide)⟩
      have hspace : isSpace b = false := by simp [isSpace, hblank]
      rw [List.dropWhile_cons, hspace]
      simp only [Bool.false_eq_true, if_false]
      unfold takeSign
      split
      · rename_i hplus
        cases hplus
        exact absurd hlow (by decide)
      · rename_i hminus
        cases hminus
        exact absurd hlow (by decide)
      · rfl

/-- **`std::stoi` undoes `std::to_string`.** -/
theorem stoi_toStringInt {i : Int} (hrange : -2 ^ 31 ≤ i ∧ i < 2 ^ 31) :
    stoi (toStringInt i) = .ok (Int32.ofInt i) := by
  obtain ⟨ds, hdigits, hne, hvalue⟩ := takeDigits_decimal i.natAbs
  unfold toStringInt
  by_cases hneg : i < 0
  · have hsign : takeSign ((lit "-" ++ decimal i.natAbs).dropWhile isSpace) =
        (true, decimal i.natAbs) := rfl
    have habs : -(i.natAbs : Int) = i := by omega
    rw [if_pos hneg, stoi, hsign]
    simp only [hdigits, if_neg hne, hvalue, if_true, habs, if_pos hrange]
  · have habs : (i.natAbs : Int) = i := by omega
    rw [if_neg hneg, stoi, takeSign_decimal]
    simp only [hdigits, if_neg hne, hvalue, Bool.false_eq_true, if_false, habs, if_pos hrange]

/-- Different integers are printed differently. -/
theorem decimal_injective : Function.Injective decimal := by
  intro m n h
  obtain ⟨ds, hdigits, -, hvalue⟩ := takeDigits_decimal m
  obtain ⟨ds', hdigits', -, hvalue'⟩ := takeDigits_decimal n
  rw [h, hdigits', Prod.mk.injEq] at hdigits
  rw [← hvalue, ← hvalue', hdigits.1]

theorem toStringInt_injective : Function.Injective toStringInt := by
  intro i j h
  have hminus : lit "-" = [45] := by decide
  have hdigit : ∀ n k, decimal n ≠ 45 :: decimal k := by
    intro n k heq
    have hmem : (45 : UInt8) ∈ decimal n := heq ▸ List.mem_cons_self
    exact absurd (mem_decimal hmem).1 (by decide)
  unfold toStringInt at h
  rw [hminus, List.singleton_append, List.singleton_append] at h
  split at h <;> split at h
  · have habs := decimal_injective (List.cons.inj h).2
    omega
  · exact absurd h.symm (hdigit _ _)
  · exact absurd h (hdigit _ _)
  · have habs := decimal_injective h
    omega

/-- And none as the empty text. -/
theorem toStringInt_ne_nil (i : Int) : toStringInt i ≠ [] := by
  unfold toStringInt decimal
  split <;> simp

example : stoi (lit " -42 items") = .ok (-42) := by decide
example : stoi (lit "2147483648") = .error .outOfRange := by decide
example : stof (lit "-3.14159274") = .ok 0xC0490FDB := by decide
example : stod (lit "0x1.8p0") = .ok 0x3FF8000000000000 := by decide

end XplaneServer.Foundation
