import Mathlib.Algebra.Field.ZMod
import Identifold.Lib.Radix

/-!
# Identifold.Lib.CheckDigit

Which errors in a numeral its remainder modulo a prime detects.

A base that the prime does not divide is invertible modulo the prime, so two
numerals that differ in one digit have different remainders
(`value_mod_ne_of_substitution`).  Two digits that change places differ in
the remainder as long as the power of the base between their places is not
one modulo the prime (`value_mod_ne_of_transposition`): for neighbours this
is the base itself, and for any two places the order of the base bounds the
distance.
-/

namespace Radix

section Remainder

variable {b p : Nat}

/-- Remainders are compared in the ring of residues. -/
theorem mod_ne_mod_iff {m n : Nat} : m % p ≠ n % p ↔ (m : ZMod p) ≠ (n : ZMod p) := by
  rw [Ne, Ne, ZMod.natCast_eq_natCast_iff, Nat.ModEq]

/-- Different digits below the modulus stay different. -/
theorem sub_ne_zero_of_digits {x y : Nat} (hx : x < p) (hy : y < p) (hne : x ≠ y) :
    (x : ZMod p) - y ≠ 0 := by
  rw [sub_ne_zero, ← mod_ne_mod_iff, Nat.mod_eq_of_lt hx, Nat.mod_eq_of_lt hy]
  exact hne

variable [Fact p.Prime]

theorem pow_ne_zero_of_not_dvd (hb : b % p ≠ 0) (k : Nat) : (b : ZMod p) ^ k ≠ 0 := by
  apply pow_ne_zero
  intro hzero
  exact hb (Nat.mod_eq_zero_of_dvd ((ZMod.natCast_eq_zero_iff b p).mp hzero))

/-- **Substitution**: a changed digit changes the remainder. -/
theorem value_mod_ne_of_substitution (hb : b % p ≠ 0) (xs ys : List Nat) {x y : Nat} (hx : x < p)
    (hy : y < p) (hne : x ≠ y) : value b (xs ++ x :: ys) % p ≠ value b (xs ++ y :: ys) % p := by
  rw [mod_ne_mod_iff, ← sub_ne_zero]
  have hdifference : (value b (xs ++ x :: ys) : ZMod p) - value b (xs ++ y :: ys) =
      (x - y) * (b : ZMod p) ^ ys.length := by
    simp only [value_append, value_cons, List.length_cons, Nat.cast_add, Nat.cast_mul, Nat.cast_pow]
    ring
  rw [hdifference]
  exact mul_ne_zero (sub_ne_zero_of_digits hx hy hne) (pow_ne_zero_of_not_dvd hb _)

/-- **Transposition**: two digits that change places change the remainder,
unless the power of the base between their places is one. -/
theorem value_mod_ne_of_transposition (hb : b % p ≠ 0) (xs ys zs : List Nat) {x y : Nat}
    (hx : x < p) (hy : y < p) (hne : x ≠ y) (hpower : b ^ (ys.length + 1) % p ≠ 1 % p) :
    value b (xs ++ x :: (ys ++ y :: zs)) % p ≠ value b (xs ++ y :: (ys ++ x :: zs)) % p := by
  rw [mod_ne_mod_iff, ← sub_ne_zero]
  have hdifference : (value b (xs ++ x :: (ys ++ y :: zs)) : ZMod p) -
      value b (xs ++ y :: (ys ++ x :: zs)) =
      (x - y) * ((b : ZMod p) ^ (ys.length + 1) - 1) * (b : ZMod p) ^ zs.length := by
    simp only [value_append, value_cons, List.length_cons, List.length_append, Nat.cast_add,
      Nat.cast_mul, Nat.cast_pow]
    ring
  rw [hdifference]
  refine mul_ne_zero (mul_ne_zero (sub_ne_zero_of_digits hx hy hne) ?_) (pow_ne_zero_of_not_dvd hb _)
  rw [mod_ne_mod_iff] at hpower
  simpa [sub_ne_zero] using hpower

end Remainder

end Radix
