/-
  Foundation/Formats.lean --- the values of an IEEE 754 format, and the rounding
  of a fraction to the nearest of them.

  The pattern of a finite value, without its sign, is read as a natural number.
  It denotes a significand of at most `manBits + 1` bits times a power of two
  that is bounded below, and `roundFraction` gives the pattern of a nearest such
  number (`roundFraction_nearest`).
-/
import Mathlib.Algebra.Order.Field.Power
import Mathlib.Data.Nat.Log
import XplaneServer.Foundation.Nearest
import XplaneServer.Foundation.Numbers

set_option autoImplicit false

namespace XplaneServer.Foundation

/-- `roundHalfEven` is the rounding to a natural number. -/
theorem isHalfEven_roundHalfEven (x : Nat) {d : Nat} (hd : 0 < d) :
    IsHalfEven ((x : ℚ) / d) (roundHalfEven x d) := by
  have hd' : (0 : ℚ) < d := by exact_mod_cast hd
  have hsplit : (x : ℚ) / d = (x / d : ℕ) + ((x % d : ℕ) : ℚ) / d := by
    have hdiv : (x : ℚ) = d * (x / d : ℕ) + (x % d : ℕ) := by
      exact_mod_cast (Nat.div_add_mod x d).symm
    rw [div_eq_iff hd'.ne', add_mul, div_mul_cancel₀ _ hd'.ne', mul_comm]
    exact hdiv
  have hlow : (0 : ℚ) ≤ ((x % d : ℕ) : ℚ) / d := by positivity
  have hhigh : ((x % d : ℕ) : ℚ) / d < 1 := by
    rw [div_lt_one hd']
    exact_mod_cast Nat.mod_lt x hd
  have hhalf : ((x % d : ℕ) : ℚ) / d * (2 * d) = 2 * (x % d : ℕ) := by
    field_simp
  rw [hsplit]
  generalize ((x % d : ℕ) : ℚ) / d = f at hlow hhigh hhalf
  have hdown : |(x / d : ℕ) + f - (x / d : ℕ)| = f := by
    rw [add_sub_cancel_left, abs_of_nonneg hlow]
  have hup : |(x / d : ℕ) + f - (x / d + 1 : ℕ)| = 1 - f := by
    have hdiff : ((x / d : ℕ) : ℚ) + f - (x / d + 1 : ℕ) = -(1 - f) := by
      push_cast
      ring
    rw [hdiff, abs_neg, abs_of_pos (by linarith)]
  unfold roundHalfEven
  simp only
  split
  · rename_i hless
    have hf : 2 * f < 1 := by
      have hcast : (2 * (x % d : ℕ) : ℚ) < d := by exact_mod_cast hless
      nlinarith
    exact ⟨by rw [hdown]; linarith, fun htie => by rw [hdown] at htie; linarith⟩
  · split
    · rename_i hmore
      have hf : 1 < 2 * f := by
        have hcast : (d : ℚ) < 2 * (x % d : ℕ) := by exact_mod_cast hmore
        nlinarith
      exact ⟨by rw [hup]; linarith, fun htie => by rw [hup] at htie; linarith⟩
    · have hf : 2 * f = 1 := by
        have hcast : (2 * (x % d : ℕ) : ℚ) = d := by exact_mod_cast (by omega : 2 * (x % d) = d)
        nlinarith
      split
      · rename_i heven
        exact ⟨by rw [hdown]; linarith, fun _ => Nat.even_iff.mpr heven⟩
      · rename_i hodd
        exact ⟨by rw [hup]; linarith, fun _ => Nat.even_iff.mpr (by omega)⟩

/-! ## Patterns of finite values -/

section Pattern

variable (expBits manBits : Nat)

/-- The exponent of the smallest values. -/
def lowestExponent : Int := 2 - 2 ^ (expBits - 1) - manBits

/-- The value of a pattern without its sign bit, also beyond the finite ones. -/
def patternValue (b : Nat) : ℚ :=
  if b / 2 ^ manBits = 0 then (b : ℚ) * 2 ^ lowestExponent expBits manBits
  else (2 ^ manBits + b % 2 ^ manBits : ℕ) *
    2 ^ (lowestExponent expBits manBits + (b / 2 ^ manBits - 1 : ℕ))

variable {expBits manBits}

/-- A significand and a scale make a pattern: a significand that is as long as it
can be carries into the exponent. -/
theorem patternValue_encode {k s : Nat} (hs : s ≤ 2 * 2 ^ manBits)
    (hk : k = 0 ∨ 2 ^ manBits ≤ s) :
    patternValue expBits manBits (k * 2 ^ manBits + s) =
      s * 2 ^ (lowestExponent expBits manBits + k) := by
  have hpos : 0 < 2 ^ manBits := Nat.two_pow_pos manBits
  rcases Nat.lt_or_ge s (2 ^ manBits) with hsmall | hlarge
  · obtain rfl : k = 0 := hk.resolve_right (Nat.not_le.mpr hsmall)
    simp [patternValue, Nat.div_eq_of_lt hsmall]
  · obtain ⟨r, rfl⟩ := Nat.exists_eq_add_of_le hlarge
    rcases Nat.lt_or_ge r (2 ^ manBits) with hfits | hfull
    · have hcarry : k * 2 ^ manBits + (2 ^ manBits + r) = r + (k + 1) * 2 ^ manBits := by ring
      have hdiv : (r + (k + 1) * 2 ^ manBits) / 2 ^ manBits = k + 1 := by
        rw [Nat.add_mul_div_right _ _ hpos, Nat.div_eq_of_lt hfits, Nat.zero_add]
      have hmod : (r + (k + 1) * 2 ^ manBits) % 2 ^ manBits = r := by
        rw [Nat.add_mul_mod_self_right, Nat.mod_eq_of_lt hfits]
      rw [hcarry, patternValue, hdiv, hmod, if_neg (Nat.succ_ne_zero k), Nat.add_sub_cancel]
    · obtain rfl : r = 2 ^ manBits := by omega
      have hcarry : k * 2 ^ manBits + (2 ^ manBits + 2 ^ manBits) = (k + 2) * 2 ^ manBits := by
        ring
      have hscale : (2 : ℚ) ^ (lowestExponent expBits manBits + (k + 1 : ℕ)) =
          2 * 2 ^ (lowestExponent expBits manBits + k) := by
        rw [Nat.cast_succ, ← add_assoc, zpow_add_one₀ two_ne_zero, mul_comm]
      rw [hcarry, patternValue, Nat.mul_div_cancel _ hpos, Nat.mul_mod_left,
        if_neg (Nat.succ_ne_zero (k + 1)), Nat.add_sub_assoc (by decide), hscale]
      push_cast
      ring

/-- Every pattern is made so. -/
theorem exists_encode (manBits b : Nat) :
    ∃ k s, b = k * 2 ^ manBits + s ∧ s < 2 * 2 ^ manBits ∧ (k = 0 ∨ 2 ^ manBits ≤ s) := by
  have hpos : 0 < 2 ^ manBits := Nat.two_pow_pos manBits
  have hmod : b % 2 ^ manBits < 2 ^ manBits := Nat.mod_lt b hpos
  cases hfield : b / 2 ^ manBits with
  | zero =>
      have hlt : b < 2 ^ manBits := (Nat.div_eq_zero_iff_lt hpos).mp hfield
      exact ⟨0, b, by omega, by omega, Or.inl rfl⟩
  | succ k =>
      refine ⟨k, 2 ^ manBits + b % 2 ^ manBits, ?_, by omega, Or.inr (by omega)⟩
      calc
        b = (k + 1) * 2 ^ manBits + b % 2 ^ manBits := by
          rw [← hfield]
          exact (Nat.div_add_mod' b _).symm
        _ = k * 2 ^ manBits + (2 ^ manBits + b % 2 ^ manBits) := by ring

/-- What a pattern denotes. -/
theorem patternValue_decode (expBits manBits b : Nat) :
    ∃ k s : Nat, s < 2 * 2 ^ manBits ∧
      patternValue expBits manBits b = s * 2 ^ (lowestExponent expBits manBits + k) := by
  obtain ⟨k, s, rfl, hs, hk⟩ := exists_encode manBits b
  exact ⟨k, s, hs, patternValue_encode hs.le hk⟩

/-- **Patterns are in the order of their values.** -/
theorem patternValue_strictMono : StrictMono (patternValue expBits manBits) := by
  apply strictMono_nat_of_lt_succ
  intro b
  obtain ⟨k, s, rfl, hs, hk⟩ := exists_encode manBits b
  have hnext : k = 0 ∨ 2 ^ manBits ≤ s + 1 := by
    apply hk.imp_right
    intro h
    omega
  rw [patternValue_encode hs.le hk, add_assoc, patternValue_encode (by omega) hnext]
  apply mul_lt_mul_of_pos_right _ (by positivity)
  exact_mod_cast Nat.lt_succ_self s

@[simp] theorem patternValue_zero : patternValue expBits manBits 0 = 0 := by
  simp [patternValue]

/-- Beyond the finite values of a format with a wide exponent there is room for
one: whatever is within a unit of a finite value is finite. -/
theorem patternValue_add_one_le (hexp : 2 ≤ expBits) (hman : manBits < 2 ^ (expBits - 1))
    {b : Nat} (hb : b < infinityBits expBits manBits) :
    patternValue expBits manBits b + 1 ≤
      patternValue expBits manBits (infinityBits expBits manBits) := by
  have hpos : 0 < 2 ^ manBits := Nat.two_pow_pos manBits
  have hdouble : 2 ^ expBits = 2 * 2 ^ (expBits - 1) := by
    rw [← pow_succ']
    congr 1
    omega
  have hfour : 2 ≤ 2 ^ (expBits - 1) := by
    calc
      2 = 2 ^ 1 := rfl
      _ ≤ 2 ^ (expBits - 1) := Nat.pow_le_pow_right (by decide) (by omega)
  -- the last finite pattern and the first infinite one have the same scale
  obtain ⟨k, hk⟩ := Nat.exists_eq_add_of_le (show 3 ≤ 2 ^ expBits by omega)
  have hinf : infinityBits expBits manBits = k * 2 ^ manBits + 2 * 2 ^ manBits := by
    unfold infinityBits
    rw [hk, ← Nat.add_mul]
    congr 1
    omega
  have hle : b ≤ k * 2 ^ manBits + (2 * 2 ^ manBits - 1) := by omega
  have hscale : (1 : ℚ) ≤ 2 ^ (lowestExponent expBits manBits + k) := by
    apply one_le_zpow₀ one_le_two
    have hcast : ((2 ^ (expBits - 1) : ℕ) : Int) = 2 ^ (expBits - 1) := by push_cast; rfl
    unfold lowestExponent
    rw [← hcast]
    omega
  calc
    patternValue expBits manBits b + 1
        ≤ patternValue expBits manBits (k * 2 ^ manBits + (2 * 2 ^ manBits - 1)) + 1 := by
      gcongr
      exact patternValue_strictMono.monotone hle
    _ ≤ patternValue expBits manBits (k * 2 ^ manBits + (2 * 2 ^ manBits - 1)) +
          2 ^ (lowestExponent expBits manBits + k) := by gcongr
    _ = patternValue expBits manBits (k * 2 ^ manBits + 2 * 2 ^ manBits) := by
      rw [patternValue_encode (by omega) (Or.inr (by omega)),
        patternValue_encode le_rfl (Or.inr (by omega)), Nat.cast_pred (by omega)]
      ring
    _ = patternValue expBits manBits (infinityBits expBits manBits) := by rw [hinf]

/-! ## The nearest value -/

/-- A power of two with a sign in its exponent, as powers without one. -/
theorem zpow_split (e : Int) :
    (0 ≤ e → (2 : ℚ) ^ e = (2 ^ e.toNat : ℕ)) ∧
      (¬ 0 ≤ e → (2 : ℚ) ^ e = 1 / (2 ^ (-e).toNat : ℕ)) := by
  constructor
  · intro he
    have hnat : (e.toNat : Int) = e := Int.toNat_of_nonneg he
    conv_lhs => rw [← hnat]
    rw [zpow_natCast, Nat.cast_pow, Nat.cast_two]
  · intro he
    have hnat : -((-e).toNat : Int) = e := by omega
    conv_lhs => rw [← hnat]
    rw [zpow_neg, zpow_natCast, Nat.cast_pow, Nat.cast_two, one_div]

/-- A fraction against a power of two, without the division. -/
theorem zpow_le_div_iff (num : Nat) {den : Nat} (hden : 0 < den) (e : Int) :
    (if 0 ≤ e then den * 2 ^ e.toNat ≤ num else den ≤ num * 2 ^ (-e).toNat) ↔
      (2 : ℚ) ^ e ≤ num / den := by
  have hden' : (0 : ℚ) < den := by exact_mod_cast hden
  rw [le_div_iff₀ hden']
  split
  · rename_i he
    rw [(zpow_split e).1 he, mul_comm]
    exact_mod_cast Iff.rfl
  · rename_i he
    have hpos : (0 : ℚ) < (2 ^ (-e).toNat : ℕ) := by exact_mod_cast Nat.two_pow_pos _
    rw [(zpow_split e).2 he, div_mul_eq_mul_div, one_mul, div_le_iff₀ hpos]
    exact_mod_cast Iff.rfl

/-- A fraction scaled by a power of two and rounded, without the division. -/
theorem isHalfEven_scaled (num : Nat) {den : Nat} (hden : 0 < den) (q : Int) :
    IsHalfEven ((num : ℚ) / den / 2 ^ q)
      (if 0 ≤ q then roundHalfEven num (den * 2 ^ q.toNat)
        else roundHalfEven (num * 2 ^ (-q).toNat) den) := by
  split
  · rename_i hq
    have hround := isHalfEven_roundHalfEven num (Nat.mul_pos hden (Nat.two_pow_pos q.toNat))
    rwa [Nat.cast_mul, ← div_div, ← (zpow_split q).1 hq] at hround
  · rename_i hq
    have hround := isHalfEven_roundHalfEven (num * 2 ^ (-q).toNat) hden
    have hscale : (num : ℚ) / den / 2 ^ q = (num * 2 ^ (-q).toNat : ℕ) / den := by
      rw [(zpow_split q).2 hq, div_div_eq_mul_div, div_one, Nat.cast_mul, div_mul_eq_mul_div]
    rwa [hscale]

/-- Where a fraction lies between the powers of two. -/
theorem div_between {num den : Nat} (hnum : 0 < num) (hden : 0 < den) :
    (2 : ℚ) ^ ((num.log2 : Int) - den.log2 - 1) ≤ num / den ∧
      (num / den : ℚ) < 2 ^ ((num.log2 : Int) - den.log2 + 1) := by
  have hden' : (0 : ℚ) < den := by exact_mod_cast hden
  have hnumLow : (2 : ℚ) ^ (num.log2 : Int) ≤ num := by
    rw [zpow_natCast]
    exact_mod_cast Nat.log2_self_le hnum.ne'
  have hnumHigh : (num : ℚ) < 2 ^ ((num.log2 : Int) + 1) := by
    have hlt : num < 2 ^ (num.log2 + 1) := Nat.lt_log2_self
    exact_mod_cast hlt
  have hdenLow : (2 : ℚ) ^ (den.log2 : Int) ≤ den := by
    rw [zpow_natCast]
    exact_mod_cast Nat.log2_self_le hden.ne'
  have hdenHigh : (den : ℚ) < 2 ^ ((den.log2 : Int) + 1) := by
    have hlt : den < 2 ^ (den.log2 + 1) := Nat.lt_log2_self
    exact_mod_cast hlt
  constructor
  · rw [le_div_iff₀ hden']
    calc
      (2 : ℚ) ^ ((num.log2 : Int) - den.log2 - 1) * den
          ≤ 2 ^ ((num.log2 : Int) - den.log2 - 1) * 2 ^ ((den.log2 : Int) + 1) :=
        mul_le_mul_of_nonneg_left hdenHigh.le (by positivity)
      _ = 2 ^ (num.log2 : Int) := by
        rw [← zpow_add₀ two_ne_zero]
        congr 1
        ring
      _ ≤ num := hnumLow
  · rw [div_lt_iff₀ hden']
    calc
      (num : ℚ) < 2 ^ ((num.log2 : Int) + 1) := hnumHigh
      _ = 2 ^ ((num.log2 : Int) - den.log2 + 1) * 2 ^ (den.log2 : Int) := by
        rw [← zpow_add₀ two_ne_zero]
        congr 1
        ring
      _ ≤ 2 ^ ((num.log2 : Int) - den.log2 + 1) * den :=
        mul_le_mul_of_nonneg_left hdenLow (by positivity)

/-- What is computed for a positive fraction: the power of two it reaches, and
the significand at the scale this leaves. -/
theorem roundFraction_spec (expBits manBits : Nat) {num den : Nat} (hnum : 0 < num)
    (hden : 0 < den) :
    ∃ e q : Int, (2 : ℚ) ^ e ≤ num / den ∧ (num / den : ℚ) < 2 ^ (e + 1) ∧
      q = max (e - manBits) (lowestExponent expBits manBits) ∧
      ∃ n, IsHalfEven ((num : ℚ) / den / 2 ^ q) n ∧
        roundFraction expBits manBits num den =
          (q - lowestExponent expBits manBits).toNat * 2 ^ manBits + n := by
  obtain ⟨hlow, hhigh⟩ := div_between hnum hden
  unfold roundFraction
  simp only [zpow_le_div_iff num hden]
  split
  · rename_i hreached
    exact ⟨_, _, hreached, hhigh, rfl, _, isHalfEven_scaled num hden _, rfl⟩
  · rename_i hreached
    refine ⟨_, _, hlow, ?_, rfl, _, isHalfEven_scaled num hden _, rfl⟩
    rw [sub_add_cancel]
    exact lt_of_not_ge hreached

/-- The pattern is that of the significand at its scale. -/
theorem patternValue_roundFraction (expBits manBits : Nat) {num den : Nat} (hnum : 0 < num)
    (hden : 0 < den) :
    ∃ e q : Int, (2 : ℚ) ^ e ≤ num / den ∧
      q = max (e - manBits) (lowestExponent expBits manBits) ∧
      ∃ n, IsHalfEven ((num : ℚ) / den / 2 ^ q) n ∧
        patternValue expBits manBits (roundFraction expBits manBits num den) = n * 2 ^ q := by
  obtain ⟨e, q, hlow, hhigh, hq, n, hn, hbits⟩ :=
    roundFraction_spec expBits manBits hnum hden
  refine ⟨e, q, hlow, hq, n, hn, ?_⟩
  have hscale : (0 : ℚ) < 2 ^ q := by positivity
  have hle : n ≤ 2 * 2 ^ manBits := by
    apply hn.le_of_le
    rw [div_le_iff₀ hscale]
    calc
      (num / den : ℚ) ≤ 2 ^ (e + 1) := hhigh.le
      _ ≤ 2 ^ (1 + (manBits : Int) + q) := zpow_le_zpow_right₀ one_le_two (by omega)
      _ = ((2 * 2 ^ manBits : ℕ) : ℚ) * 2 ^ q := by
        rw [zpow_add₀ two_ne_zero, zpow_add₀ two_ne_zero, zpow_one, zpow_natCast]
        push_cast
        rfl
  have hfull : (q - lowestExponent expBits manBits).toNat = 0 ∨ 2 ^ manBits ≤ n := by
    rcases Nat.eq_zero_or_pos (q - lowestExponent expBits manBits).toNat with hzero | hpos
    · exact Or.inl hzero
    · right
      have hexact : (manBits : Int) + q = e := by omega
      apply hn.ge_of_ge
      rw [le_div_iff₀ hscale, Nat.cast_pow, Nat.cast_two, ← zpow_natCast, ← zpow_add₀ two_ne_zero,
        hexact]
      exact hlow
  have hexponent : lowestExponent expBits manBits +
      ((q - lowestExponent expBits manBits).toNat : Int) = q := by
    omega
  rw [hbits, patternValue_encode hle hfull, hexponent]

/-- **Conversion gives a nearest value.** -/
theorem roundFraction_nearest (expBits manBits : Nat) {num den : Nat} (hnum : 0 < num)
    (hden : 0 < den) (b : Nat) :
    |(num / den : ℚ) - patternValue expBits manBits (roundFraction expBits manBits num den)| ≤
      |(num / den : ℚ) - patternValue expBits manBits b| := by
  obtain ⟨e, q, hlow, hq, n, hn, hvalue⟩ :=
    patternValue_roundFraction expBits manBits hnum hden
  obtain ⟨k, s, hs, hb⟩ := patternValue_decode expBits manBits b
  rw [hvalue, hb]
  generalize (num / den : ℚ) = x at hlow hn
  have hscale : (0 : ℚ) < 2 ^ q := by positivity
  have hmultiple : ∀ j : ℤ, |x - n * 2 ^ q| ≤ |x - j * 2 ^ q| := by
    intro j
    have hunit : ∀ y : ℚ, |x - y * 2 ^ q| = |x / 2 ^ q - y| * 2 ^ q := by
      intro y
      rw [← abs_of_pos hscale, ← abs_mul, abs_of_pos hscale, sub_mul, div_mul_cancel₀ _ hscale.ne']
    rw [hunit, hunit]
    exact mul_le_mul_of_nonneg_right (hn.nearest j) hscale.le
  -- a value on the grid of the result's scale is not nearer; one that is not on it lies
  -- below the power of two, which is on it
  rcases le_or_gt q (lowestExponent expBits manBits + k) with hcoarse | hfine
  · obtain ⟨d, hd⟩ := Int.eq_ofNat_of_zero_le (sub_nonneg.mpr hcoarse)
    have hgrid : (s : ℚ) * 2 ^ (lowestExponent expBits manBits + k) =
        ((s * 2 ^ d : ℕ) : ℤ) * 2 ^ q := by
      have hexponent : lowestExponent expBits manBits + k = d + q := by omega
      rw [hexponent, zpow_add₀ two_ne_zero, zpow_natCast]
      push_cast
      ring
    rw [hgrid]
    exact hmultiple _
  · have hexact : (manBits : Int) + q = e := by omega
    have hpower : (2 : ℚ) ^ e = ((2 ^ manBits : ℕ) : ℤ) * 2 ^ q := by
      rw [← hexact, zpow_add₀ two_ne_zero, zpow_natCast]
      push_cast
      rfl
    have hunder : (s : ℚ) * 2 ^ (lowestExponent expBits manBits + k) ≤ 2 ^ e := by
      calc
        (s : ℚ) * 2 ^ (lowestExponent expBits manBits + k)
            ≤ (2 * 2 ^ manBits : ℕ) * 2 ^ (q - 1) := by
          gcongr
          · exact one_le_two
          · omega
        _ = 2 ^ e := by
          rw [← hexact, zpow_sub_one₀ two_ne_zero, zpow_add₀ two_ne_zero, zpow_natCast]
          push_cast
          ring
    calc
      |x - n * 2 ^ q| ≤ |x - 2 ^ e| := by
        rw [hpower]
        exact hmultiple _
      _ = x - 2 ^ e := abs_of_nonneg (by linarith)
      _ ≤ x - s * 2 ^ (lowestExponent expBits manBits + k) := by linarith
      _ ≤ |x - s * 2 ^ (lowestExponent expBits manBits + k)| := le_abs_self _

end Pattern

end XplaneServer.Foundation
