import LoxLang.Proofs.Number.ReadBack
import LoxLang.Proofs.Token.Lexemes

/-!
# Numbers as lexemes

The lexemes that stand for numbers are the numerals. A number that a lexeme stands
for has few bits: it has no sign, and it is infinite at most. In the other
direction, the text of a finite number without a sign is a lexeme that stands for
this number. The text of infinity is a name. So a number is scanned back from its
text if and only if it is finite and has no sign (`lexeme_text_iff`).
-/

namespace LoxLang.Number

set_option autoImplicit false

open Float.Model (Format)
open Float.Model.UnpackedFloat (unpack unpackExponent)

/-! ## Bits -/

/-- A double is finite if its bits without the sign are below those of infinity. -/
theorem isFinite_iff (number : Float) :
    number.isFinite = true ↔ magnitudeBits number < infinityBits := by
  have exponent : (@unpackExponent Format.binary64 number.toBits.toBitVec).toNat =
      number.toBits.toNat / 2 ^ 52 % 2 ^ 11 := by
    simp [unpackExponent, Nat.shiftRight_eq_div_pow]
  have below : magnitudeBits number < infinityBits ↔
      ¬ @unpackExponent Format.binary64 number.toBits.toBitVec =
        -BitVec.ofNat Format.binary64.exponentBits 1 := by
    have ones : (-BitVec.ofNat Format.binary64.exponentBits 1).toNat = 2 ^ 11 - 1 := rfl
    have bound := number.toBits.toNat_lt
    rw [← BitVec.toNat_inj, exponent, ones]
    simp only [magnitudeBits, infinityBits, Nat.pow_eq]
    omega
  rw [below]
  change (unpack Format.binary64 number.toBits.toBitVec).isFinite = true ↔ _
  by_cases full : @unpackExponent Format.binary64 number.toBits.toBitVec =
      -BitVec.ofNat Format.binary64.exponentBits 1
  · simp only [unpack, full, if_true, not_true, iff_false]
    split <;> exact Bool.false_ne_true
  · simp only [unpack, full, if_false, not_false_eq_true, iff_true]
    split
    · split <;> rfl
    · rfl

/-- Without a sign, the bits of the magnitude are all there is. -/
theorem ofBits_magnitudeBits {number : Float} (unsigned : isNegative number = false) :
    Float.ofBits (UInt64.ofNat (magnitudeBits number)) = number := by
  have bound : number.toBits.toNat < Nat.pow 2 63 :=
    Nat.lt_of_not_le (of_decide_eq_false unsigned)
  rw [magnitudeBits, Nat.mod_eq_of_lt bound, UInt64.ofNat_toNat, Float.ofBits_toBits]

/-- Bits up to those of infinity have no sign among them. -/
theorem isNegative_ofBits {bits : Nat} (small : bits ≤ infinityBits) :
    isNegative (Float.ofBits (UInt64.ofNat bits)) = false := by
  rw [isNegative, toBits_ofBits small]
  exact decide_eq_false (Nat.not_le_of_lt (Nat.lt_of_le_of_lt small (by decide)))

theorem magnitudeBits_ofBits {bits : Nat} (small : bits ≤ infinityBits) :
    magnitudeBits (Float.ofBits (UInt64.ofNat bits)) = bits := by
  rw [magnitudeBits, toBits_ofBits small]
  exact Nat.mod_eq_of_lt (Nat.lt_of_le_of_lt small (by decide))

/-! ## Lexemes -/

/-- A numeral is a lexeme, which stands for the number with its bits. -/
theorem Numeral.lexeme {text : List Char} {bits : Nat} (found : Numeral text bits) :
    Lexer.Lexeme text (.token (.number (Float.ofBits (UInt64.ofNat bits)))) := by
  obtain @⟨whole, fraction, some, digits, written, value⟩ := found
  subst written value
  unfold numeral
  split
  next none =>
    subst none
    exact .whole some (by simpa using digits)
  next places => exact .decimal some places digits

/-- A lexeme for a number stands for one that is packed from few bits. -/
theorem exists_bits_of_lexeme {text : List Char} {value : Float}
    (lexeme : Lexer.Lexeme text (.token (.number value))) :
    ∃ bits, bits ≤ infinityBits ∧ value = Float.ofBits (UInt64.ofNat bits) := by
  cases lexeme with
  | whole | decimal => exact ⟨_, nearestBits_le _ _, rfl⟩

/-- A number that was scanned has no sign. -/
theorem isNegative_of_lexeme {text : List Char} {value : Float}
    (lexeme : Lexer.Lexeme text (.token (.number value))) : isNegative value = false := by
  obtain ⟨bits, small, rfl⟩ := exists_bits_of_lexeme lexeme
  exact isNegative_ofBits small

/-- A lexeme for a number is on one line. -/
theorem not_mem_lineEnd_of_lexeme {text : List Char} {value : Float}
    (lexeme : Lexer.Lexeme text (.token (.number value))) : '\n' ∉ text := by
  intro member
  cases lexeme with
  | whole _ all => cases all _ member
  | decimal _ _ all =>
      have digit : '\n'.isDigit = true := all _ (by simpa using member)
      cases digit

/-- The text of infinity is a word. -/
theorem text_infinity (style : WholeStyle) :
    text style (Float.ofBits (UInt64.ofNat infinityBits)) = "inf" := by
  have small : infinityBits ≤ infinityBits := Nat.le_refl _
  have sign : signText (Float.ofBits (UInt64.ofNat infinityBits)) = "" := by
    rw [signText, isNegative_ofBits small]
    rfl
  simp only [text, magnitude, magnitudeBits_ofBits small, Nat.lt_irrefl, if_false, if_true, sign]
  rfl

/-- **A number is scanned back from its text** if and only if it is finite and has
no sign. -/
theorem lexeme_text_iff {style : WholeStyle} (readable : style.Readable) {number : Float} :
    Lexer.Lexeme (text style number).toList (.token (.number number)) ↔
      number.isFinite = true ∧ isNegative number = false := by
  refine ⟨fun lexeme => ⟨?_, isNegative_of_lexeme lexeme⟩, fun ⟨finite, unsigned⟩ => ?_⟩
  · obtain ⟨bits, small, rfl⟩ := exists_bits_of_lexeme lexeme
    rw [isFinite_iff, magnitudeBits_ofBits small]
    refine Nat.lt_of_le_of_ne small ?_
    rintro rfl
    rw [text_infinity] at lexeme
    cases congrArg Lexer.Piece.meaning lexeme.first_eq
  · have numeral := numeral_text readable ((isFinite_iff number).mp finite) unsigned
    have lexeme := numeral.lexeme
    rwa [ofBits_magnitudeBits unsigned] at lexeme

end LoxLang.Number
