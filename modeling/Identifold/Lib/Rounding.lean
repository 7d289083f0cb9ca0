import Mathlib.Data.Nat.Digits.Lemmas

/-!
# Identifold.Lib.Rounding

Rounding to a binary significand, to nearest with ties to even: what a
floating-point format does to an integer in its range, and to a ratio of
natural numbers, such as a decimal literal denotes.
-/

namespace Rounding

variable {p n : Nat}

/-- The multiple of `unit` nearest to `n`; of two, the even one. -/
def halfEven (unit n : Nat) : Nat :=
  if 2 * (n % unit) < unit ∨ (2 * (n % unit) = unit ∧ n / unit % 2 = 0) then n / unit * unit
  else (n / unit + 1) * unit

/-- The number with a significand of `p` bits nearest to `n`. -/
def toNearest (p n : Nat) : Nat := halfEven (2 ^ (n.log2 + 1 - p)) n

@[simp] theorem halfEven_one (n : Nat) : halfEven 1 n = n := by
  simp [halfEven, Nat.mod_one]

/-- Numbers that fit the significand are exact. -/
theorem toNearest_of_lt (h : n < 2 ^ p) : toNearest p n = n := by
  by_cases hn : n = 0
  · subst hn
    simp [toNearest, halfEven]
  · have hlog : n.log2 < p := (Nat.log2_lt hn).mpr h
    have hunit : n.log2 + 1 - p = 0 := by omega
    rw [toNearest, hunit, Nat.pow_zero, halfEven_one]

/-! ## ratios -/

/-- The integer nearest to `num / den`; of two, the even one. -/
def nearest (num den : Nat) : Nat :=
  if 2 * (num % den) < den ∨ (2 * (num % den) = den ∧ num / den % 2 = 0) then num / den
  else num / den + 1

/-- The `e` with `2 ^ e ≤ num / den < 2 ^ (e + 1)`. -/
def binaryExponent (num den : Nat) : Int :=
  let e := (num.log2 : Int) - den.log2
  if den * 2 ^ e.toNat ≤ num * 2 ^ (-e).toNat then e else e - 1

/-- A binary floating-point format: the bits of the significand, the exponent
of the smallest unit, and the exponent from which on numbers are infinite. -/
structure Format where
  precision : Nat
  minExponent : Int
  maxExponent : Nat

/-- IEEE 754 binary64. -/
def binary64 : Format := ⟨53, -1074, 1024⟩

namespace Format

variable (format : Format)

/-- The exponent of the unit in which a ratio is written. -/
def unitExponent (num den : Nat) : Int :=
  max (binaryExponent num den + 1 - format.precision) format.minExponent

/-- The integer that the number nearest to `num / den` is, if it is one. -/
def integer? (num den : Nat) : Option Nat :=
  let u := format.unitExponent num den
  let significand := nearest (num * 2 ^ (-u).toNat) (den * 2 ^ u.toNat)
  if 0 ≤ u then
    if significand * 2 ^ u.toNat < 2 ^ format.maxExponent then some (significand * 2 ^ u.toNat)
    else none
  else if significand % 2 ^ (-u).toNat = 0 then some (significand / 2 ^ (-u).toNat)
  else none

end Format

@[simp] theorem nearest_one (n : Nat) : nearest n 1 = n := by
  simp [nearest, Nat.mod_one]

/-- Numbers that fit the significand are exact. -/
theorem integer?_of_lt (h : n < 2 ^ 53) : binary64.integer? n 1 = some n := by
  have hlog : n.log2 ≤ 52 := by
    by_cases hn : n = 0
    · simp [hn]
    · have := (Nat.log2_lt hn).mpr h
      omega
  have hexp : binaryExponent n 1 ≤ 52 := by
    unfold binaryExponent
    have hone : Nat.log2 1 = 0 := rfl
    simp only [hone]
    split <;> omega
  have hunit : binary64.unitExponent n 1 ≤ 0 := by
    unfold Format.unitExponent binary64
    simp only
    omega
  simp only [Format.integer?]
  generalize hu : binary64.unitExponent n 1 = u at hunit ⊢
  have hzero : u.toNat = 0 := by omega
  rw [hzero, Nat.pow_zero, Nat.mul_one, nearest_one]
  split
  · have hneg : (-u).toNat = 0 := by omega
    have hmax : n < 2 ^ binary64.maxExponent :=
      Nat.lt_of_lt_of_le h (Nat.pow_le_pow_right (by decide) (by decide))
    rw [hneg, Nat.pow_zero, Nat.mul_one, if_pos hmax]
  · have hpos : 0 < 2 ^ (-u).toNat := Nat.two_pow_pos _
    rw [if_pos (Nat.mul_mod_left n _), Nat.mul_div_cancel n hpos]

end Rounding
