import LoxLang.Number.Decimal

/-!
# How numbers are written

Three texts share one rule and differ in one record. A number that is whole
is written with all its digits, the exact value and not a rounded one, and a
suffix of the record's choice. Any other number is written with the fewest
digits that read back, never with an exponent. The record also says from
which size on whole numbers are written by the second rule.

The text inside token objects (`objectText`) has its own rule, with an
exponent for very large and very small numbers.
-/

namespace LoxLang.Number

set_option autoImplicit false

/-- How whole numbers are written: exactly below a limit, if there is one, with a
suffix, and with the sign of a zero or without it. -/
structure WholeStyle where
  below : Option Nat
  suffix : String
  signsZero : Bool

/-- Printed values: every whole number in full, without a point. -/
def printedStyle : WholeStyle := ⟨none, "", true⟩

/-- Literals in a printed tree: every whole number in full, with one place. -/
def treeStyle : WholeStyle := ⟨none, ".0", true⟩

/-- The literal column of a token: whole numbers below `10 ^ 15` with one
place, and zero without a sign. -/
def columnStyle : WholeStyle := ⟨some (Nat.pow 10 15), ".0", false⟩

/-- Whether a style writes this whole number exactly. -/
def WholeStyle.covers (style : WholeStyle) (whole : Nat) : Bool :=
  match style.below with
  | none => true
  | some limit => whole < limit

/-- The given number of zeros. -/
def zeros (count : Nat) : List Char := List.replicate count '0'

/-- A decimal without an exponent; a point only where places follow it. -/
def Decimal.positional (decimal : Decimal) : List Char :=
  let digits := Nat.toDigits 10 decimal.coefficient
  match decimal.exponent with
  | .ofNat power => digits ++ zeros power
  | .negSucc power =>
    let places := power + 1
    if places < digits.length then
      digits.take (digits.length - places) ++ '.' :: digits.drop (digits.length - places)
    else '0' :: '.' :: (zeros (places - digits.length) ++ digits)

/-- The sign in front of a number. -/
def signText (number : Float) : String := if isNegative number then "-" else ""

/-- The sign in front of a whole number. -/
def WholeStyle.signText (style : WholeStyle) (number : Float) (whole : Nat) : String :=
  if whole = 0 ∧ style.signsZero = false then "" else Number.signText number

/-- The text of a number in a style. -/
def text (style : WholeStyle) (number : Float) : String :=
  match magnitude number with
  | .notANumber => "NaN"
  | .infinite => signText number ++ "inf"
  | .finite steps =>
    let whole := steps / stepsPerOne
    if steps % stepsPerOne = 0 ∧ style.covers whole then
      style.signText number whole ++ whole.repr ++ style.suffix
    else
      signText number ++
        String.ofList (Decimal.fewest .up (magnitudeBits number)).positional

/-- A decimal with an exponent, whose sign is always written. -/
def Decimal.scientific (decimal : Decimal) : List Char :=
  let digits := Nat.toDigits 10 decimal.coefficient
  let exponent := decimal.exponent + (digits.length - 1 : Nat)
  let places := match digits.drop 1 with
    | [] => []
    | rest => '.' :: rest
  let sign := if exponent < 0 then '-' else '+'
  digits.take 1 ++ places ++ 'e' :: sign :: Nat.toDigits 10 exponent.natAbs

/-- The text of a number in a token object: positional with at least one place
when the leading digit stands between `10 ^ (-5)` and `10 ^ 15`, else with an
exponent. -/
def objectText (number : Float) : String :=
  match magnitude number with
  | .notANumber => "null"
  | .infinite => "null"
  | .finite 0 => signText number ++ "0.0"
  | .finite _ =>
    let decimal := Decimal.fewest .even (magnitudeBits number)
    let leading := decimal.exponent + ((Nat.toDigits 10 decimal.coefficient).length - 1 : Nat)
    let digits :=
      if -5 ≤ leading ∧ leading ≤ 15 then
        decimal.positional ++ (if 0 ≤ decimal.exponent then ['.', '0'] else [])
      else decimal.scientific
    signText number ++ String.ofList digits

end LoxLang.Number
