/-
  Foundation/Nearest.lean --- rounding to a nearest element, in general.

  Two roundings meet when a number is printed with finitely many places and read
  back into a format: to the nearest element of a grid, ties to even, and to a
  nearest element of a set.  The second does not undo the first, but it stays
  within reach of it: printed again, the number that was read has the same
  places (`IsHalfEven.stable`).  Nothing is asked of the set but that it contains
  the number that was printed.
-/
import Mathlib.Algebra.Order.Field.Basic
import Mathlib.Algebra.Order.Ring.Abs
import Mathlib.Algebra.Ring.Parity
import Mathlib.Data.Nat.Cast.Order.Field
import Mathlib.Tactic.FieldSimp
import Mathlib.Tactic.Linarith
import Mathlib.Tactic.Ring

set_option autoImplicit false

namespace XplaneServer.Foundation

section Rounding

variable {α : Type*} [Field α] [LinearOrder α] [IsStrictOrderedRing α]

/-- An element of a set that is nearest to a number. -/
def IsNearest (F : Set α) (t y : α) : Prop := y ∈ F ∧ ∀ z ∈ F, |t - y| ≤ |t - z|

/-- A natural number within a half of a number, and even at a half. -/
structure IsHalfEven (x : α) (n : ℕ) : Prop where
  near : 2 * |x - n| ≤ 1
  even : 2 * |x - n| = 1 → Even n

namespace IsHalfEven

variable {x : α} {n m : ℕ}

/-- Rounding leaves a natural number as it is. -/
theorem natCast (n : ℕ) : IsHalfEven (n : α) n := by
  constructor
  · simp
  · intro h
    simp at h

/-- Other integers are a half away or more. -/
theorem half_le (h : IsHalfEven x n) {k : ℤ} (hk : k ≠ n) : 1 ≤ 2 * |x - k| := by
  have hapart : (1 : α) ≤ |(k : α) - n| := by
    have hint : 1 ≤ |k - n| := Int.one_le_abs (sub_ne_zero.mpr hk)
    exact_mod_cast hint
  have htriangle : |(k : α) - n| ≤ |x - k| + |x - n| := by
    have hsplit : (k : α) - n = (x - n) - (x - k) := by ring
    rw [hsplit, add_comm]
    exact abs_sub _ _
  have hnear := h.near
  linarith

/-- No integer is nearer. -/
theorem nearest (h : IsHalfEven x n) (k : ℤ) : |x - n| ≤ |x - k| := by
  by_cases hk : k = n
  · rw [hk, Int.cast_natCast]
  · have hfar := h.half_le hk
    have hnear := h.near
    linarith

/-- A number under a natural number is rounded to one under it. -/
theorem le_of_le (h : IsHalfEven x n) (hx : x ≤ m) : n ≤ m := by
  by_contra hgt
  have hlt : ((m + 1 : ℕ) : α) ≤ n := by exact_mod_cast Nat.lt_of_not_le hgt
  have hnear := h.near
  have habs := neg_abs_le (x - n)
  push_cast at hlt
  linarith

/-- And a number over one to one over it. -/
theorem ge_of_ge (h : IsHalfEven x n) (hx : m ≤ x) : m ≤ n := by
  by_contra hlt
  have hgt : ((n + 1 : ℕ) : α) ≤ m := by exact_mod_cast Nat.lt_of_not_le hlt
  have hnear := h.near
  have habs := le_abs_self (x - n)
  push_cast at hgt
  linarith

/-- **Ties to even leave no choice.** -/
theorem unique (h : IsHalfEven x n) (h' : IsHalfEven x m) : n = m := by
  by_contra hne
  have hfar : 1 ≤ 2 * |x - m| := by
    have hfar := h.half_le (k := m) (by exact_mod_cast Ne.symm hne)
    simpa using hfar
  have hfar' : 1 ≤ 2 * |x - n| := by
    have hfar' := h'.half_le (k := n) (by exact_mod_cast hne)
    simpa using hfar'
  have htie : 2 * |x - n| = 1 := le_antisymm h.near hfar'
  have htie' : 2 * |x - m| = 1 := le_antisymm h'.near hfar
  obtain ⟨i, rfl⟩ := h.even htie
  obtain ⟨j, rfl⟩ := h'.even htie'
  -- two even numbers are two apart, which is more than twice a half
  have hapart : (2 : α) ≤ |((i + i : ℕ) : α) - (j + j : ℕ)| := by
    have hint : (2 : ℤ) ≤ |((i + i : ℕ) : ℤ) - (j + j : ℕ)| := by
      have hij : (i : ℤ) - j ≠ 0 := by
        intro h
        exact hne (by omega)
      have hone := Int.one_le_abs hij
      have hdouble : ((i + i : ℕ) : ℤ) - (j + j : ℕ) = 2 * ((i : ℤ) - j) := by
        push_cast
        ring
      rw [hdouble, abs_mul]
      simp only [Nat.abs_ofNat]
      omega
    exact_mod_cast hint
  have htriangle : |((i + i : ℕ) : α) - (j + j : ℕ)| ≤ |x - (j + j : ℕ)| + |x - (i + i : ℕ)| := by
    have hsplit : ((i + i : ℕ) : α) - (j + j : ℕ) =
        (x - (j + j : ℕ)) - (x - (i + i : ℕ)) := by ring
    rw [hsplit]
    exact abs_sub _ _
  linarith

/-- **Printing what was read.**  A number of a set is rounded to a grid, and the
result to a nearest element of the set: on the grid both are the same. -/
theorem stable {F : Set α} {s y : α} (hs : 0 < s) (h : IsHalfEven (x * s) n) (hx : x ∈ F)
    (hy : IsNearest F (n / s) y) : IsHalfEven (y * s) n := by
  have hscale : ∀ z : α, |z * s - n| = |n / s - z| * s := by
    intro z
    have hdiff : z * s - n = -((n / s - z) * s) := by
      field_simp
      ring
    rw [hdiff, abs_neg, abs_mul, abs_of_pos hs]
  have hle : |y * s - n| ≤ |x * s - n| := by
    rw [hscale, hscale]
    exact mul_le_mul_of_nonneg_right (hy.2 x hx) hs.le
  have hnear := h.near
  refine ⟨by linarith, fun htie => h.even ?_⟩
  linarith

/-- And the number that was read differs from the one that was printed by at most
one step of the grid. -/
theorem close {F : Set α} {s y : α} (hs : 0 < s) (h : IsHalfEven (x * s) n) (hx : x ∈ F)
    (hy : IsNearest F (n / s) y) : |y - x| * s ≤ 1 := by
  have hnear := h.near
  have hnear' := (h.stable hs hx hy).near
  have htriangle : |y - x| * s ≤ |y * s - n| + |x * s - n| := by
    have hsplit : (y - x) * s = (y * s - n) - (x * s - n) := by ring
    rw [← abs_of_pos hs, ← abs_mul, abs_of_pos hs, hsplit]
    exact abs_sub _ _
  linarith

end IsHalfEven

end Rounding

end XplaneServer.Foundation
