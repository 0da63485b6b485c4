/-!
# Doubles as whole numbers of a smallest step

Every finite double is a whole number of steps of `2 ^ (-1074)`, up to its
sign. Decoding (`stepsOfBits`) gives that number, and rounding
(`nearestBits`) goes the other way: it takes an arbitrary quotient to the
double nearest to it, a tie to the even mantissa. Both sides are arithmetic on
natural numbers, so nothing here depends on how the machine rounds.

The bits of a nonnegative double are ordered like the doubles themselves. A
double with mantissa `m` and exponent `e`, worth `m * 2 ^ e` steps, has the
bits `e * 2 ^ 52 + m`. The same formula holds below the normal range, where
`e = 0`, and it survives a mantissa that rounding carries to `2 ^ 53`.
-/

namespace LoxLang.Number

set_option autoImplicit false

/-- The number of smallest steps in one. -/
def stepsPerOne : Nat := Nat.pow 2 1074

/-- The bits of positive infinity, the first that no finite double has. -/
def infinityBits : Nat := 0x7ff * Nat.pow 2 52

/-- The bits of a double without its sign. -/
def magnitudeBits (number : Float) : Nat := number.toBits.toNat % Nat.pow 2 63

/-- Whether the sign bit is set, which it is for negative zero too. -/
def isNegative (number : Float) : Bool := Nat.pow 2 63 ≤ number.toBits.toNat

/-- The steps of the finite double that has these bits. -/
def stepsOfBits (bits : Nat) : Nat :=
  if bits < Nat.pow 2 52 then bits
  else (Nat.pow 2 52 + bits % Nat.pow 2 52) * Nat.pow 2 (bits / Nat.pow 2 52 - 1)

/-- A double without its sign. -/
inductive Magnitude where
  | notANumber
  | infinite
  | finite (steps : Nat)

/-- The magnitude that a double stands for. -/
def magnitude (number : Float) : Magnitude :=
  let bits := magnitudeBits number
  if bits < infinityBits then .finite (stepsOfBits bits)
  else if bits = infinityBits then .infinite
  else .notANumber

/-- A quotient rounded to the nearest whole number, a tie to the even one. -/
def divideToEven (numerator denominator : Nat) : Nat :=
  let quotient := numerator / denominator
  let twice := 2 * (numerator % denominator)
  if twice < denominator then quotient
  else if denominator < twice then quotient + 1
  else quotient + quotient % 2

/-- The bits of the double nearest to a quotient. Quotients past the largest
double by half a step or more give infinity. -/
def nearestBits (numerator denominator : Nat) : Nat :=
  let steps := numerator * stepsPerOne
  let exponent := Nat.log2 (steps / denominator) - 52
  let mantissa := divideToEven steps (denominator * Nat.pow 2 exponent)
  min infinityBits (exponent * Nat.pow 2 52 + mantissa)

end LoxLang.Number
