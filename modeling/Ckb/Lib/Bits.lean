import Mathlib.Data.Nat.Bitwise

/-!
# Masks on small words

A field packed into a machine word is read by masking.  A value below
`2 ^ n` has no bit at or above `n`, so a mask is only read at its low `n`
bits: a mask of high flag bits reads nothing of it, and the mask of the low
`n` bits reads all of it.
-/

namespace Bits

theorem land_mod_two_pow {value mask n : Nat} (small : value < 2 ^ n) :
    value &&& mask = value &&& (mask % 2 ^ n) := by
  apply Nat.eq_of_testBit_eq
  intro i
  rw [Nat.testBit_and, Nat.testBit_and, Nat.testBit_mod_two_pow]
  by_cases low : i < n
  · simp [low]
  · have beyond : value < 2 ^ i :=
      lt_of_lt_of_le small (Nat.pow_le_pow_right Nat.two_pos (by omega))
    simp [Nat.testBit_lt_two_pow beyond]

theorem land_eq_zero_of_lt {value mask n : Nat} (small : value < 2 ^ n)
    (flagsOnly : mask % 2 ^ n = 0) : value &&& mask = 0 := by
  rw [land_mod_two_pow small, flagsOnly, Nat.and_zero]

theorem land_low_of_lt {value n : Nat} (small : value < 2 ^ n) : value &&& (2 ^ n - 1) = value := by
  rw [Nat.and_two_pow_sub_one_eq_mod, Nat.mod_eq_of_lt small]

end Bits
