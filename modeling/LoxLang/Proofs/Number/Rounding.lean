import LoxLang.Number.Decimal
import Mathlib

/-!
# Doubles that are rounded to themselves

A double is decoded into steps, and a quotient is rounded to the bits of the
nearest double. The second undoes the first: a quotient that is worth the steps
of a finite double is rounded to the bits of that double
(`nearestBits_of_exact`). Rounding depends on the quotient only, and not on how
it is written as numerator and denominator (`nearestBits_scale`).

A float is packed bits. Bits up to those of infinity are never bits of something
that is not a number, so they survive being packed (`toBits_ofBits`).
-/

namespace LoxLang.Number

set_option autoImplicit false

open Float.Model (Format)
open Float.Model.UnpackedFloat

/-! ## Bits of floats -/

/-- Bits up to those of infinity are the bits of their float. -/
theorem toBits_ofBits {bits : Nat} (small : bits ≤ infinityBits) :
    (Float.ofBits (UInt64.ofNat bits)).toBits.toNat = bits := by
  have bound : bits < 2 ^ 64 := Nat.lt_of_le_of_lt small (by decide)
  have number : ¬ (@isNaNBits Format.binary64 (BitVec.ofNat 64 bits)) := by
    simp only [isNaNBits, decide_eq_true_eq, not_and, not_not]
    intro full
    have word : @BitVec.toNat Format.binary64.numBits (BitVec.ofNat 64 bits) = bits :=
      Nat.mod_eq_of_lt bound
    have exponent : bits / 2 ^ 52 % 2 ^ 11 = 2 ^ 11 - 1 := by
      simpa [unpackExponent, Nat.shiftRight_eq_div_pow, word] using congrArg BitVec.toNat full
    have rest : bits % 2 ^ 52 = 0 := by
      simp only [infinityBits, Nat.pow_eq] at small
      omega
    refine BitVec.eq_of_toNat_eq ?_
    simpa [unpackMantissa, word] using rest
  have kept : pack Format.binary64 (unpack Format.binary64 (BitVec.ofNat 64 bits)) =
      BitVec.ofNat 64 bits := by
    rw [pack_unpack, if_neg number]
  have packed : (Float.ofBits (UInt64.ofNat bits)).toBits = UInt64.ofNat bits :=
    congrArg UInt64.ofBitVec kept
  rw [packed, UInt64.toNat_ofNat_of_lt' bound]

/-! ## Rounding -/

theorem divideToEven_scale (numerator denominator : Nat) {factor : Nat} (positive : 0 < factor) :
    divideToEven (numerator * factor) (denominator * factor) =
      divideToEven numerator denominator := by
  have twice : 2 * (numerator % denominator * factor) = 2 * (numerator % denominator) * factor := by
    rw [Nat.mul_assoc]
  simp only [divideToEven, Nat.mul_div_mul_right _ _ positive, Nat.mul_mod_mul_right, twice,
    Nat.mul_lt_mul_right positive]

/-- A quotient without a remainder is not rounded. -/
theorem divideToEven_of_mul (quotient : Nat) {denominator : Nat} (positive : 0 < denominator) :
    divideToEven (quotient * denominator) denominator = quotient := by
  simp [divideToEven, Nat.mul_div_cancel _ positive, positive]

/-- Rounding depends on the quotient only. -/
theorem nearestBits_scale (numerator denominator : Nat) {factor : Nat} (positive : 0 < factor) :
    nearestBits (numerator * factor) (denominator * factor) =
      nearestBits numerator denominator := by
  have steps : numerator * factor * stepsPerOne = numerator * stepsPerOne * factor :=
    Nat.mul_right_comm _ _ _
  have unit : ∀ exponent, denominator * factor * Nat.pow 2 exponent =
      denominator * Nat.pow 2 exponent * factor := fun _ => Nat.mul_right_comm _ _ _
  simp only [nearestBits, steps, unit, Nat.mul_div_mul_right _ _ positive,
    divideToEven_scale _ _ positive]

theorem nearestBits_le (numerator denominator : Nat) :
    nearestBits numerator denominator ≤ infinityBits :=
  Nat.min_le_left _ _

/-- What rounding makes of a whole number of steps. -/
theorem nearestBits_of_steps {numerator denominator steps : Nat} (positive : 0 < denominator)
    (exact_ : numerator * stepsPerOne = steps * denominator) :
    nearestBits numerator denominator =
      min infinityBits ((steps.log2 - 52) * Nat.pow 2 52 +
        divideToEven steps (Nat.pow 2 (steps.log2 - 52))) := by
  simp only [nearestBits, exact_, Nat.mul_div_cancel _ positive, Nat.mul_comm denominator,
    divideToEven_scale _ _ positive]

/-- **A finite double is rounded to itself.** -/
theorem nearestBits_of_exact {numerator denominator bits : Nat} (positive : 0 < denominator)
    (finite : bits < infinityBits)
    (exact_ : numerator * stepsPerOne = stepsOfBits bits * denominator) :
    nearestBits numerator denominator = bits := by
  rw [nearestBits_of_steps positive exact_]
  by_cases tiny : bits < Nat.pow 2 52
  · have steps : stepsOfBits bits = bits := by rw [stepsOfBits, if_pos tiny]
    have short : bits.log2 - 52 = 0 := by
      by_cases zero : bits = 0
      · rw [zero]; rfl
      · have := (Nat.log2_lt zero).mpr tiny
        omega
    have one : divideToEven bits (Nat.pow 2 0) = bits := by
      simpa using divideToEven_of_mul bits (Nat.one_pos)
    rw [steps, short, one, Nat.zero_mul, Nat.zero_add, Nat.min_eq_right (Nat.le_of_lt finite)]
  · -- a mantissa with 53 binary digits, moved up by the exponent
    have steps : stepsOfBits bits =
        (2 ^ 52 + bits % 2 ^ 52) * 2 ^ (bits / 2 ^ 52 - 1) := by
      rw [stepsOfBits, if_neg tiny]
      simp only [Nat.pow_eq]
    simp only [Nat.pow_eq, Nat.not_lt] at tiny ⊢
    have above : bits / 2 ^ 52 - 1 + 1 = bits / 2 ^ 52 := by omega
    have parts := Nat.div_add_mod bits (2 ^ 52)
    have mantissa := Nat.mod_lt bits (Nat.two_pow_pos 52)
    generalize bits / 2 ^ 52 - 1 = shift at steps above
    generalize bits % 2 ^ 52 = low at steps parts mantissa
    rw [← above] at parts
    have log : (stepsOfBits bits).log2 = 52 + shift := by
      rw [steps]
      refine (Nat.log2_eq_iff
        (Nat.ne_of_gt (Nat.mul_pos (by omega) (Nat.two_pow_pos _)))).mpr ⟨?_, ?_⟩
      · rw [Nat.pow_add]
        exact Nat.mul_le_mul_right _ (Nat.le_add_right _ _)
      · rw [Nat.add_right_comm, Nat.pow_add]
        exact Nat.mul_lt_mul_of_pos_right (by omega) (Nat.two_pow_pos _)
    have again : shift * 2 ^ 52 + (2 ^ 52 + low) = bits :=
      calc shift * 2 ^ 52 + (2 ^ 52 + low) = (shift + 1) * 2 ^ 52 + low := by
            rw [Nat.add_one_mul, Nat.add_assoc]
        _ = 2 ^ 52 * (shift + 1) + low := by rw [Nat.mul_comm]
        _ = bits := parts
    rw [log, Nat.add_sub_cancel_left, steps, divideToEven_of_mul _ (Nat.two_pow_pos _), again,
      Nat.min_eq_right (Nat.le_of_lt finite)]

end LoxLang.Number
