import LoxLang.Number.Text
import LoxLang.Proofs.Number.Rounding

/-!
# Written numbers read back

Whatever the style, the text of a finite number without a sign is a numeral,
digits with perhaps a point and further digits, and the double nearest to it is
the number itself (`numeral_text`). For a whole number the numeral is exact. For
any other it is a decimal that the search for the fewest digits has tried.
-/

namespace LoxLang.Number

set_option autoImplicit false

/-! ## Numerals -/

/-- Digits, and a point in front of further digits if there are any. -/
def numeral (whole fraction : List Char) : List Char :=
  if fraction = [] then whole else whole ++ '.' :: fraction

/-- A text is a numeral whose value is rounded to some bits. -/
inductive Numeral (text : List Char) (bits : Nat) : Prop where
  | mk {whole fraction : List Char} (some : whole ≠ [])
      (digits : ∀ char ∈ whole ++ fraction, char.isDigit = true)
      (written : text = numeral whole fraction)
      (value : bits = nearestBits (digitsValue (whole ++ fraction)) (Nat.pow 10 fraction.length))

/-! ## Digits -/

theorem digitsValue_append (front back : List Char) :
    digitsValue (front ++ back) = digitsValue front * 10 ^ back.length + digitsValue back := by
  calc digitsValue (front ++ back)
      = Nat.ofDigitChars 10 back (digitsValue front) := Nat.ofDigitChars_append 0
    _ = 10 ^ back.length * digitsValue front + digitsValue back :=
        Nat.ofDigitChars_eq_ofDigitChars_zero
    _ = digitsValue front * 10 ^ back.length + digitsValue back := by rw [Nat.mul_comm]

theorem digitsValue_toDigits (number : Nat) : digitsValue (Nat.toDigits 10 number) = number :=
  Nat.ofDigitChars_ten_toDigits

theorem digitsValue_zeros (count : Nat) : digitsValue (zeros count) = 0 := by
  have value : digitsValue (zeros count) = 10 ^ count * 0 := Nat.ofDigitChars_replicate_zero
  rwa [Nat.mul_zero] at value

theorem isDigit_of_mem_toDigits {number : Nat} {char : Char}
    (member : char ∈ Nat.toDigits 10 number) : char.isDigit = true :=
  Nat.isDigit_of_mem_toDigits (by decide) (by decide) member

theorem isDigit_of_mem_zeros {count : Nat} {char : Char} (member : char ∈ zeros count) :
    char.isDigit = true := by
  rw [List.eq_of_mem_replicate member]
  rfl

/-! ## Decimals -/

namespace Decimal

/-- Moving trailing zeros into the exponent does not change the value. -/
theorem nearestBits_trim (fuel : Nat) (decimal : Decimal) :
    (decimal.trim fuel).nearestBits = decimal.nearestBits := by
  induction fuel generalizing decimal with
  | zero => rfl
  | succ fuel ih =>
      rw [trim]
      split
      next ends =>
        rw [ih]
        obtain ⟨coefficient, exponent⟩ := decimal
        have tenfold : coefficient / 10 * 10 = coefficient :=
          Nat.div_mul_cancel (Nat.dvd_of_mod_eq_zero ends.2)
        cases exponent with
        | ofNat power =>
            have whole :
                coefficient / 10 * Nat.pow 10 (power + 1) = coefficient * Nat.pow 10 power := by
              simp only [Nat.pow_eq]
              rw [Nat.pow_succ', ← Nat.mul_assoc, tenfold]
            exact congrArg (Number.nearestBits · 1) whole
        | negSucc power =>
            have places : Number.nearestBits (coefficient / 10) (Nat.pow 10 power) =
                Number.nearestBits coefficient (Nat.pow 10 (power + 1)) := by
              rw [← nearestBits_scale (coefficient / 10) (Nat.pow 10 power) (by decide : 0 < 10),
                tenfold]
              rfl
            cases power with
            | zero =>
                refine Eq.trans ?_ places
                exact congrArg (Number.nearestBits · 1) (Nat.mul_one (coefficient / 10))
            | succ power => exact places
      next => rfl

/-- The exact decimal of a double is rounded to it. -/
theorem nearestBits_exact {bits : Nat} (finite : bits < infinityBits) :
    (exact bits).nearestBits = bits := by
  have tenfold : ∀ power, Nat.pow 10 power = Nat.pow 5 power * Nat.pow 2 power :=
    fun power => Nat.mul_pow 5 2 power
  have general : ∀ power places, stepsPerOne = Nat.pow 2 power → power = places + 1 →
      nearestBits ⟨stepsOfBits bits * Nat.pow 5 power, .negSucc places⟩ = bits := by
    intro power places unit same
    refine nearestBits_of_exact (Nat.pow_pos (by decide)) finite ?_
    rw [← same, unit, tenfold, ← Nat.mul_assoc]
  exact general 1074 1073 (by delta stepsPerOne; rfl) rfl

/-- A candidate reads back, since that was asked of it. -/
theorem nearestBits_candidate {tie : Tie} {target : Target} {count : Nat} {found : Decimal}
    (tried : candidate? tie target count = some found) : found.nearestBits = target.bits := by
  simp only [candidate?, beq_iff_eq] at tried
  split at tried
  next below =>
    split at tried
    next above =>
      -- every way to choose takes one of the two
      rw [← Option.some.inj tried]
      split
      · exact below
      · split
        · exact above
        · cases tie with
          | up => exact above
          | even =>
              rcases Nat.mod_two_eq_zero_or_one (target.units / Nat.pow 10 (target.width - count))
                with rest | rest
              · simpa only [rest, Nat.add_zero] using below
              · simpa only [rest] using above
    next => exact Option.some.inj tried ▸ below
  next =>
    split at tried
    next above => exact Option.some.inj tried ▸ above
    next => cases tried

/-- **The decimal with the fewest digits reads back.** -/
theorem nearestBits_fewest (tie : Tie) {bits : Nat} (finite : bits < infinityBits) :
    (fewest tie bits).nearestBits = bits := by
  rw [fewest, nearestBits_trim]
  cases tried : (List.range 17).findSome? fun count =>
      candidate? tie (Target.ofBits bits) (count + 1) with
  | none => exact nearestBits_exact finite
  | some found =>
      obtain ⟨_, _, candidate⟩ := List.exists_of_findSome?_eq_some tried
      exact nearestBits_candidate candidate

/-- A decimal without an exponent is a numeral, rounded as the decimal is. -/
theorem numeral_positional (decimal : Decimal) :
    Numeral decimal.positional decimal.nearestBits := by
  obtain ⟨coefficient, exponent⟩ := decimal
  have digits : ∀ char ∈ Nat.toDigits 10 coefficient, char.isDigit = true := fun _ =>
    isDigit_of_mem_toDigits
  have value := digitsValue_toDigits coefficient
  cases exponent with
  | ofNat power =>
      refine @Numeral.mk _ _ (Nat.toDigits 10 coefficient ++ zeros power) [] ?_ ?_
        (if_pos rfl).symm ?_
      · exact List.append_ne_nil_of_left_ne_nil Nat.toDigits_ne_nil _
      · intro char member
        rw [List.append_nil] at member
        rcases List.mem_append.mp member with front | back
        · exact digits char front
        · exact isDigit_of_mem_zeros back
      · rw [List.append_nil, digitsValue_append, digitsValue_zeros, value, zeros,
          List.length_replicate]
        rfl
  | negSucc power =>
      simp only [positional]
      split
      next inside =>
        -- the point stands among the digits
        have parts := List.take_append_drop ((Nat.toDigits 10 coefficient).length - (power + 1))
          (Nat.toDigits 10 coefficient)
        have places : ((Nat.toDigits 10 coefficient).drop
            ((Nat.toDigits 10 coefficient).length - (power + 1))).length = power + 1 := by
          rw [List.length_drop]
          omega
        refine .mk ?_ (by rwa [parts]) (if_neg ?_).symm (by rw [parts, value, places]; rfl)
        · refine List.ne_nil_of_length_pos ?_
          rw [List.length_take]
          omega
        · exact List.ne_nil_of_length_pos (by omega)
      next outside =>
        -- zeros fill the places in front of the digits
        have places : (zeros (power + 1 - (Nat.toDigits 10 coefficient).length) ++
            Nat.toDigits 10 coefficient).length = power + 1 := by
          rw [List.length_append, zeros, List.length_replicate]
          omega
        refine @Numeral.mk _ _ ['0'] _ (List.cons_ne_nil _ _) ?_ (if_neg ?_).symm ?_
        · intro char member
          rcases List.mem_append.mp member with zero | behind
          · rw [List.mem_singleton.mp zero]
            rfl
          · rcases List.mem_append.mp behind with front | back
            · exact isDigit_of_mem_zeros front
            · exact digits char back
        · exact List.ne_nil_of_length_pos (by omega)
        · rw [digitsValue_append, digitsValue_append, digitsValue_zeros, value, places,
            show digitsValue ['0'] = 0 from rfl]
          simp only [Nat.zero_mul, Nat.zero_add]
          rfl

end Decimal

/-! ## Texts of numbers -/

/-- A style whose whole numbers are numerals. -/
def WholeStyle.Readable (style : WholeStyle) : Prop := style.suffix = "" ∨ style.suffix = ".0"

/-- A whole number of steps is written in full, which is exact. -/
theorem nearestBits_of_whole {bits : Nat} (finite : bits < infinityBits)
    (whole : stepsOfBits bits % stepsPerOne = 0) :
    nearestBits (stepsOfBits bits / stepsPerOne) 1 = bits := by
  refine nearestBits_of_exact Nat.one_pos finite ?_
  rw [Nat.mul_one, Nat.div_mul_cancel (Nat.dvd_of_mod_eq_zero whole)]

/-- The digits of a whole number, with the suffix of a readable style. -/
theorem numeral_repr {style : WholeStyle} (readable : style.Readable) (whole : Nat) :
    Numeral (whole.repr ++ style.suffix).toList (nearestBits whole 1) := by
  have digits : ∀ char ∈ Nat.toDigits 10 whole, char.isDigit = true := fun _ =>
    isDigit_of_mem_toDigits
  have value := digitsValue_toDigits whole
  rw [String.toList_append, Nat.toList_repr]
  rcases readable with none | place
  · refine @Numeral.mk _ _ (Nat.toDigits 10 whole) [] Nat.toDigits_ne_nil ?_ ?_ ?_
    · rwa [List.append_nil]
    · rw [none, numeral, if_pos rfl]
      exact List.append_nil _
    · rw [List.append_nil, value]
      rfl
  · refine @Numeral.mk _ _ (Nat.toDigits 10 whole) ['0'] Nat.toDigits_ne_nil ?_ ?_ ?_
    · intro char member
      rcases List.mem_append.mp member with front | back
      · exact digits char front
      · rw [List.mem_singleton.mp back]
        rfl
    · rw [place]
      rfl
    · rw [digitsValue_append, value]
      exact (nearestBits_scale whole 1 (by decide : 0 < 10)).symm

/-- **The text of a finite number without a sign is a numeral that reads back.** -/
theorem numeral_text {style : WholeStyle} (readable : style.Readable) {number : Float}
    (finite : magnitudeBits number < infinityBits) (unsigned : isNegative number = false) :
    Numeral (text style number).toList (magnitudeBits number) := by
  have sign : signText number = "" := by rw [signText, unsigned]; rfl
  have plain (whole : Nat) : style.signText number whole = "" := by
    rw [WholeStyle.signText, sign, ite_self]
  simp only [text, magnitude, if_pos finite, sign, plain, String.empty_append]
  split
  next whole =>
    have exact_ := numeral_repr readable (stepsOfBits (magnitudeBits number) / stepsPerOne)
    rwa [nearestBits_of_whole finite whole.1] at exact_
  next =>
    have rounded := (Decimal.fewest .up (magnitudeBits number)).numeral_positional
    rwa [Decimal.nearestBits_fewest .up finite, ← String.toList_ofList (l := Decimal.positional _)]
      at rounded

end LoxLang.Number
