import Mathlib.Data.Nat.Bitwise
import Mathlib.Data.UInt
import Mathlib.Tactic

/-!
# Alignment of machine words

Rounding a word up to a multiple of a power of two, as machine code does it: add
the power less one and clear the low bits. The sum may wrap around only to be
brought back by the subtraction of one.
-/

namespace Alignment

/-- The next multiple of `alignment`, a power of two. -/
def alignUp (value alignment : UInt64) : UInt64 := (value + alignment - 1) &&& ~~~(alignment - 1)

/-- Clearing the low bits of a word. -/
theorem toNat_and_not_mask (x : UInt64) {mask : UInt64} {k : ℕ} (hk : k < 64)
    (hmask : mask.toNat = 2 ^ k - 1) : (x &&& ~~~mask).toNat = x.toNat / 2 ^ k * 2 ^ k := by
  have hpow : 2 ^ k < 2 ^ 64 := Nat.pow_lt_pow_right (by decide) hk
  have hpos : 0 < 2 ^ k := Nat.two_pow_pos k
  have hcompl : UInt64.size - 1 - (2 ^ k - 1) = 2 ^ 64 - (2 ^ k - 1 + 1) := by
    simp only [UInt64.size]
    omega
  apply Nat.eq_of_testBit_eq
  intro i
  rw [UInt64.toNat_and, UInt64.toNat_not, hmask, Nat.testBit_and, Nat.testBit_mul_two_pow,
    Nat.testBit_div_two_pow, hcompl, Nat.testBit_two_pow_sub_succ (by omega),
    Nat.testBit_two_pow_sub_one]
  by_cases hik : k ≤ i
  · by_cases hi : i < 64
    · simp [hi, hik, Nat.sub_add_cancel]
    · have hbit : x.toNat.testBit i = false := Nat.testBit_lt_two_pow
        (lt_of_lt_of_le x.toNat_lt (Nat.pow_le_pow_right (by decide) (by omega)))
      simp [hbit, hik]
  · have hlt : i < k := by omega
    simp [hlt, hik]

variable {value alignment : UInt64}

/-- Adding a power of two and subtracting one, when the result fits. -/
theorem toNat_add_sub_one (hpos : 0 < alignment.toNat)
    (hfit : value.toNat + (alignment.toNat - 1) < 2 ^ 64) :
    (value + alignment - 1).toNat = value.toNat + (alignment.toNat - 1) := by
  have hone : (1 : UInt64).toNat = 1 := rfl
  rw [UInt64.toNat_sub, UInt64.toNat_add, hone]
  have := alignment.toNat_lt
  by_cases hwrap : value.toNat + alignment.toNat < 2 ^ 64
  · rw [Nat.mod_eq_of_lt hwrap]
    omega
  · have heq : value.toNat + alignment.toNat = 2 ^ 64 := by omega
    rw [heq]
    omega

/-- Rounding up, on naturals. -/
theorem toNat_alignUp {k : ℕ} (hk : k < 64) (halign : alignment.toNat = 2 ^ k)
    (hfit : value.toNat + (2 ^ k - 1) < 2 ^ 64) :
    (alignUp value alignment).toNat = (value.toNat + (2 ^ k - 1)) / 2 ^ k * 2 ^ k := by
  have hpos : 0 < 2 ^ k := Nat.two_pow_pos k
  have hmask : (alignment - 1).toNat = 2 ^ k - 1 := by
    have hone : (1 : UInt64).toNat = 1 := rfl
    rw [UInt64.toNat_sub_of_le _ _ (by rw [UInt64.le_iff_toNat_le, halign, hone]; omega), halign,
      hone]
  rw [alignUp, toNat_and_not_mask _ hk hmask,
    toNat_add_sub_one (by omega) (by rwa [halign]), halign]

/-- The next multiple is a multiple, not below the value and less than one step above it. -/
theorem alignUp_bounds {k : ℕ} (hk : k < 64) (halign : alignment.toNat = 2 ^ k)
    (hfit : value.toNat + (2 ^ k - 1) < 2 ^ 64) :
    2 ^ k ∣ (alignUp value alignment).toNat ∧ value.toNat ≤ (alignUp value alignment).toNat ∧
      (alignUp value alignment).toNat < value.toNat + 2 ^ k := by
  rw [toNat_alignUp hk halign hfit]
  have hpos : 0 < 2 ^ k := Nat.two_pow_pos k
  refine ⟨Nat.dvd_mul_left _ _, ?_, ?_⟩
  · have := Nat.div_add_mod' (value.toNat + (2 ^ k - 1)) (2 ^ k)
    have := Nat.mod_lt (value.toNat + (2 ^ k - 1)) hpos
    omega
  · have := Nat.div_mul_le_self (value.toNat + (2 ^ k - 1)) (2 ^ k)
    omega

end Alignment
