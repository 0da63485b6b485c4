import LoxLang.Number.Double

/-!
# Decimals that read back

A decimal is a whole coefficient and a power of ten. Reading one gives the
double nearest to it. In the other direction, `fewest` finds the decimal with
the fewest significant digits that reads back as a given double, and of the
two candidates with that many digits the nearer one.

For every digit count the candidates are the two neighbours of the value on
the grid of decimals with that many digits. Whether a candidate qualifies is
asked of the reader itself, so a result of the search reads back by
construction. Seventeen digits always suffice; the exact expansion stands
behind the search so that the function is total.
-/

namespace LoxLang.Number

set_option autoImplicit false

/-- The number `coefficient * 10 ^ exponent`. -/
structure Decimal where
  coefficient : Nat
  exponent : Int
  deriving DecidableEq, Repr

/-- The value of a run of decimal digits. -/
def digitsValue (digits : List Char) : Nat :=
  digits.foldl (fun value digit => 10 * value + (digit.toNat - '0'.toNat)) 0

/-- The double that a numeral with these digits before and after the point
stands for. -/
def ofDigits (whole fraction : List Char) : Float :=
  Float.ofBits (UInt64.ofNat
    (nearestBits (digitsValue (whole ++ fraction)) (Nat.pow 10 fraction.length)))

/-- Which of two equally near candidates is taken. -/
inductive Tie where
  | up
  | even
  deriving DecidableEq, Repr

namespace Decimal

/-- The bits of the double nearest to a decimal. -/
def nearestBits (decimal : Decimal) : Nat :=
  match decimal.exponent with
  | .ofNat power => Number.nearestBits (decimal.coefficient * Nat.pow 10 power) 1
  | .negSucc power => Number.nearestBits decimal.coefficient (Nat.pow 10 (power + 1))

/-- The decimal that equals the double with these bits. -/
def exact (bits : Nat) : Decimal :=
  ⟨stepsOfBits bits * Nat.pow 5 1074, -1074⟩

/-- The places after the point on the finest grid that is searched: the
smallest double still has eighteen digits in front of that place. -/
def finestPlace : Nat := 341

/-- A double as the search sees it: its bits, its value in steps of the finest
place, that value in whole units of the finest place, and the number of digits
of these. -/
structure Target where
  bits : Nat
  value : Nat
  units : Nat
  width : Nat

/-- The number of decimal digits of a number below `2 ^ 10000`. The binary
logarithm gives it up to two, as `1233 / 4096` is just below the decimal
logarithm of two. -/
def digitCount (number : Nat) : Nat :=
  let least := number.log2 * 1233 / 4096
  if number < Nat.pow 10 least then least
  else if number < Nat.pow 10 (least + 1) then least + 1
  else least + 2

/-- The target with these bits. -/
def Target.ofBits (bits : Nat) : Target :=
  let value := stepsOfBits bits * Nat.pow 10 finestPlace
  let units := value / stepsPerOne
  ⟨bits, value, units, digitCount units⟩

/-- The decimal on the grid with `count` digits that has this coefficient. -/
def Target.onGrid (target : Target) (count coefficient : Nat) : Decimal :=
  ⟨coefficient, (target.width - count : Nat) - (finestPlace : Int)⟩

/-- The candidate with `count` digits: a neighbour of the target on the grid
that reads back, the nearer one if both do. -/
def candidate? (tie : Tie) (target : Target) (count : Nat) : Option Decimal :=
  let unit := Nat.pow 10 (target.width - count)
  let below := target.units / unit
  let readsBack (coefficient : Nat) : Bool :=
    (target.onGrid count coefficient).nearestBits == target.bits
  if readsBack below then
    if readsBack (below + 1) then
      let gapBelow := target.value - below * unit * stepsPerOne
      let gapAbove := (below + 1) * unit * stepsPerOne - target.value
      let nearer :=
        if gapBelow < gapAbove then below
        else if gapAbove < gapBelow then below + 1
        else match tie with
          | .up => below + 1
          | .even => below + below % 2
      some (target.onGrid count nearer)
    else some (target.onGrid count below)
  else if readsBack (below + 1) then some (target.onGrid count (below + 1))
  else none

/-- Moves up to `fuel` trailing zeros of the coefficient into the exponent. -/
def trim : Nat → Decimal → Decimal
  | 0, decimal => decimal
  | fuel + 1, decimal =>
    if decimal.coefficient ≠ 0 ∧ decimal.coefficient % 10 = 0 then
      trim fuel ⟨decimal.coefficient / 10, decimal.exponent + 1⟩
    else decimal

/-- The decimal with the fewest digits that reads back as the finite double
with these bits. -/
def fewest (tie : Tie) (bits : Nat) : Decimal :=
  let target := Target.ofBits bits
  let found := (List.range 17).findSome? fun count => candidate? tie target (count + 1)
  (found.getD (exact bits)).trim 1100

end Decimal

end LoxLang.Number
