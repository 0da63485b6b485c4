import LoxLang.Proofs.Token.ByteScan
import LoxLang.Proofs.Token.Concatenation
import Mathlib.Data.List.TakeWhile

/-!
# The bytes of a source are scanned without a stop

The scan over bytes gives the answers of the lexer and never stops
(`Lexer.ByteScan.answer_ofSource`). What stands ahead of it are the bytes of the
characters that stand ahead of the lexer (`Lexer.ByteScan.At`).

A character that is not of ASCII has only bytes from 128 on. So a test that says
the same of all such characters says of each byte what it says of the character
(`Lexer.ByteScan.test_byte`). All loops are over such tests, and they end where
a character ends. That is why each text is cut out between two characters.
-/

namespace LoxLang

set_option autoImplicit false

namespace Lexer

theorem extract_of_splits {source : String} {start stop : source.Pos} {before text after : String}
    (front : start.Splits before (text ++ after)) (back : stop.Splits (before ++ text) after) :
    String.extract start stop = text := by
  obtain ⟨ordered, copied⟩ := String.copy_slice_eq_iff_splits.mpr ⟨before, after, front, back⟩
  rw [String.extract_eq_copy_slice start stop ordered, copied]

namespace ByteScan

/-! ## The bytes of characters -/

/-- The bytes of a text. -/
def encoded (text : List Char) : List UInt8 := text.flatMap String.utf8EncodeChar

@[simp] theorem encoded_nil : encoded [] = [] := rfl

@[simp] theorem encoded_append (front back : List Char) :
    encoded (front ++ back) = encoded front ++ encoded back := List.flatMap_append

theorem encoded_cons (char : Char) (rest : List Char) :
    encoded (char :: rest) = String.utf8EncodeChar char ++ encoded rest := rfl

theorem bytes_ofList (text : List Char) :
    (String.ofList text).toUTF8.data.toList = encoded text := by
  rw [String.toUTF8_eq_toByteArray, String.toByteArray_ofList]
  exact List.toList_data_toByteArray

theorem rawEndPos_ofList (text : List Char) :
    (String.ofList text).rawEndPos = ⟨(encoded text).length⟩ := by
  refine String.Pos.Raw.ext ?_
  rw [String.byteIdx_rawEndPos, ← String.size_toByteArray, String.toByteArray_ofList,
    List.utf8Encode, List.size_toByteArray]
  rfl

theorem toNat_ofUInt8 (byte : UInt8) : (Char.ofUInt8 byte).toNat = byte.toNat := rfl

/-- A character of ASCII is one byte. -/
theorem encoded_ascii {char : Char} (ascii : char.toNat < 128) :
    ∃ byte, String.utf8EncodeChar char = [byte] ∧ Char.ofUInt8 byte = char := by
  have small : char.val.toNat ≤ 127 := Nat.le_of_lt_succ ascii
  refine ⟨UInt8.ofNat char.toNat, if_pos small, ?_⟩
  refine Char.toNat_inj.mp ?_
  rw [toNat_ofUInt8, UInt8.toNat_ofNat']
  omega

/-- All bytes of another character are from 128 on. -/
theorem le_byte_of_not_ascii {char : Char} (other : 128 ≤ char.toNat) {byte : UInt8}
    (member : byte ∈ String.utf8EncodeChar char) : 128 ≤ byte.toNat := by
  have large : ¬ char.val.toNat ≤ 127 := Nat.not_le_of_lt other
  unfold String.utf8EncodeChar at member
  dsimp only at member
  rw [if_neg large] at member
  split at member
  · simp only [List.mem_cons, List.not_mem_nil, or_false] at member
    rcases member with rfl | rfl <;> simp <;> omega
  · split at member
    · simp only [List.mem_cons, List.not_mem_nil, or_false] at member
      rcases member with rfl | rfl | rfl <;> simp <;> omega
    · simp only [List.mem_cons, List.not_mem_nil, or_false] at member
      rcases member with rfl | rfl | rfl | rfl <;> simp <;> omega

/-- A test that says the same of all characters that are not of ASCII. -/
def Coarse (test : Char → Bool) : Prop :=
  ∃ verdict, ∀ char : Char, 128 ≤ char.toNat → test char = verdict

/-- Of a byte such a test says what it says of the character. -/
theorem test_byte {test : Char → Bool} (coarse : Coarse test) {char : Char} {byte : UInt8}
    (member : byte ∈ String.utf8EncodeChar char) : test (Char.ofUInt8 byte) = test char := by
  by_cases ascii : char.toNat < 128
  · obtain ⟨single, bytes, rfl⟩ := encoded_ascii ascii
    rw [bytes, List.mem_singleton] at member
    rw [member]
  · obtain ⟨verdict, same⟩ := coarse
    have high := le_byte_of_not_ascii (Nat.le_of_not_lt ascii) member
    rw [same char (Nat.le_of_not_lt ascii), same (Char.ofUInt8 byte) high]

theorem encodeChar_ne_nil (char : Char) : String.utf8EncodeChar char ≠ [] := by
  rw [← List.length_pos_iff, String.length_utf8EncodeChar]
  exact char.utf8Size_pos

/-- The bytes that pass such a test are those of the characters that pass it. -/
theorem takeWhile_encoded {test : Char → Bool} (coarse : Coarse test) (text : List Char) :
    (encoded text).takeWhile (test <| Char.ofUInt8 ·) = encoded (text.takeWhile test) := by
  induction text with
  | nil => rfl
  | cons char rest ih =>
      cases passes : test char with
      | true =>
          rw [encoded_cons, List.takeWhile_append_of_pos fun byte member => by
              rw [test_byte coarse member, passes], ih, List.takeWhile_cons_of_pos passes,
            encoded_cons]
      | false =>
          obtain ⟨byte, more, bytes⟩ := List.exists_cons_of_ne_nil (encodeChar_ne_nil char)
          have fails := test_byte coarse (bytes ▸ List.mem_cons_self : byte ∈ _)
          rw [encoded_cons, bytes, List.takeWhile_cons_of_neg (by simp [passes]),
            List.cons_append, List.takeWhile_cons_of_neg (by simp [fails, passes]), encoded_nil]

/-- A test that only characters of ASCII pass. -/
def OfAscii (test : Char → Bool) : Prop := ∀ char, test char = true → char.toNat < 128

theorem OfAscii.eq_false {test : Char → Bool} (ascii : OfAscii test) {char : Char}
    (foreign : 128 ≤ char.toNat) : test char = false :=
  Bool.eq_false_iff.mpr fun passes => Nat.not_lt_of_le foreign (ascii char passes)

theorem OfAscii.coarse {test : Char → Bool} (ascii : OfAscii test) : Coarse test :=
  ⟨false, fun _ foreign => ascii.eq_false foreign⟩

theorem ofAscii_beq {mark : Char} (ascii : mark.toNat < 128) : OfAscii (· == mark) :=
  fun _ same => by rwa [beq_iff_eq.mp same]

theorem ofAscii_isDigit : OfAscii Char.isDigit := fun char digit => by
  simp only [Char.isDigit, Bool.and_eq_true, decide_eq_true_eq, UInt32.le_iff_toNat_le,
    ge_iff_le] at digit
  exact Nat.lt_of_le_of_lt digit.2 (by decide)

theorem ofAscii_isNamePart : OfAscii isNamePart := fun char part => by
  simp only [isNamePart, isNameStart, Bool.or_eq_true, beq_iff_eq] at part
  rcases part with (alpha | rfl) | digit
  · delta Char.isAlpha at alpha
    delta Char.isUpper Char.isLower at alpha
    simp only [Bool.or_eq_true, Bool.and_eq_true, decide_eq_true_eq, UInt32.le_iff_toNat_le,
      ge_iff_le] at alpha
    rcases alpha with upper | lower
    · exact Nat.lt_of_le_of_lt upper.2 (by decide)
    · exact Nat.lt_of_le_of_lt lower.2 (by decide)
  · decide
  · exact ofAscii_isDigit char digit

/-- To differ from a character of ASCII is such a test. -/
theorem coarse_ne {mark : Char} (ascii : mark.toNat < 128) : Coarse (· != mark) := by
  refine ⟨true, fun char high => bne_iff_ne.mpr ?_⟩
  rintro rfl
  exact Nat.not_le_of_lt ascii high

/-- The line ends among the bytes are those among the characters. -/
theorem countP_encoded (text : List Char) :
    (encoded text).countP (Char.ofUInt8 · == '\n') = text.count '\n' := by
  induction text with
  | nil => rfl
  | cons char rest ih =>
      rw [encoded_cons, List.countP_append, ih, List.count_cons, Nat.add_comm]
      congr 1
      by_cases ends : char = '\n'
      · subst ends
        decide
      · have none : ∀ byte ∈ String.utf8EncodeChar char, ¬ (Char.ofUInt8 byte == '\n') = true := by
          intro byte member
          have same := test_byte (coarse_ne (by decide : '\n'.toNat < 128)) member
          rw [bne_iff_ne.mpr ends] at same
          simpa using same
        rw [List.countP_eq_zero.mpr none, if_neg (by simpa using ends)]

/-! ## Loops over bytes -/

/-- The bytes that are ahead. -/
def ahead (scan : ByteScan) : List UInt8 := scan.bytes.drop scan.pos

theorem length_ahead_lt (scan : ByteScan) : scan.ahead.length < scan.bytes.length + 1 := by
  rw [ahead, List.length_drop]
  omega

theorem current_eq (scan : ByteScan) : scan.current = Char.ofUInt8 (scan.ahead.headD 0) := by
  rw [current, ahead, List.headD_eq_head?_getD, List.head?_drop]

theorem atEnd_eq (scan : ByteScan) : scan.atEnd = scan.ahead.isEmpty := by
  rw [atEnd, ahead, Bool.eq_iff_iff, decide_eq_true_eq, List.isEmpty_iff, List.drop_eq_nil_iff]

theorem bump_of_ahead {scan : ByteScan} {byte : UInt8} {more : List UInt8}
    (next : scan.ahead = byte :: more) :
    bump scan = .ok (Char.ofUInt8 byte) (scan.moveTo (scan.pos + 1)) := by
  have there : scan.bytes[scan.pos]? = some byte := by
    rw [← List.head?_drop, ← ahead, next, List.head?_cons]
  rw [bump, there]

theorem ahead_move {scan : ByteScan} {byte : UInt8} {more : List UInt8}
    (next : scan.ahead = byte :: more) : (scan.moveTo (scan.pos + 1)).ahead = more := by
  rw [ahead, moveTo, ← List.drop_drop, ← ahead, next, List.drop_one, List.tail_cons]

theorem passWhile_succ (test : Char → Bool) (rounds : Nat) (scan : ByteScan) :
    passWhile test (rounds + 1) scan = if test scan.current then
      passWhile test rounds (scan.moveTo (scan.pos + 1)) else .ok () scan := rfl

theorem passQuoted_succ (rounds : Nat) (scan : ByteScan) :
    passQuoted (rounds + 1) scan = if !scan.atEnd && scan.current != quoteMark then
      match bump scan with
      | .ok char moved => passQuoted rounds (if char == '\n' then moved.newLine else moved)
      | .error stop reached => .error stop reached
    else .ok () scan := rfl

/-- A loop over bytes passes those that pass its test. -/
theorem passWhile_eq {test : Char → Bool} (stops : test '\x00' = false) :
    ∀ (rounds : Nat) (scan : ByteScan), scan.ahead.length < rounds →
      passWhile test rounds scan = .ok () (scan.moveTo
        (scan.pos + (scan.ahead.takeWhile (test <| Char.ofUInt8 ·)).length))
  | 0, _, less => absurd less (Nat.not_lt_zero _)
  | rounds + 1, scan, less => by
      rw [passWhile_succ, current_eq]
      cases next : scan.ahead with
      | nil =>
          have zero : test (Char.ofUInt8 (([] : List UInt8).headD 0)) = false := stops
          rw [zero]
          rfl
      | cons byte more =>
          rw [List.headD_cons]
          cases passes : test (Char.ofUInt8 byte) with
          | false =>
              rw [List.takeWhile_cons_of_neg (by simp [passes])]
              rfl
          | true =>
              have shorter : more.length < rounds := by
                rw [next] at less
                exact Nat.lt_of_succ_lt_succ less
              rw [if_pos rfl, passWhile_eq stops rounds _ (by rwa [ahead_move next]),
                ahead_move next, List.takeWhile_cons, if_pos passes, List.length_cons]
              simp only [moveTo, Nat.add_assoc, Nat.add_comm 1]

/-- The loop over a string passes all bytes up to a quote, with their lines. -/
theorem passQuoted_eq :
    ∀ (rounds : Nat) (scan : ByteScan), scan.ahead.length < rounds →
      passQuoted rounds scan = .ok ()
        { scan with
          pos := scan.pos + (scan.ahead.takeWhile (Char.ofUInt8 · != quoteMark)).length
          line := scan.line + (scan.ahead.takeWhile (Char.ofUInt8 · != quoteMark)).countP
            (Char.ofUInt8 · == '\n') }
  | 0, _, less => absurd less (Nat.not_lt_zero _)
  | rounds + 1, scan, less => by
      rw [passQuoted_succ, current_eq, atEnd_eq]
      cases next : scan.ahead with
      | nil => rfl
      | cons byte more =>
          rw [List.isEmpty_cons, Bool.not_false, Bool.true_and, List.headD_cons]
          cases passes : Char.ofUInt8 byte != quoteMark with
          | false =>
              rw [List.takeWhile_cons_of_neg (by simp [passes])]
              rfl
          | true =>
              have shorter : more.length < rounds := by
                rw [next] at less
                exact Nat.lt_of_succ_lt_succ less
              rw [if_pos rfl, List.takeWhile_cons, if_pos passes, List.length_cons,
                List.countP_cons]
              have moved := ahead_move next
              simp only [bump_of_ahead next]
              cases ends : Char.ofUInt8 byte == '\n' with
              | false =>
                rw [if_neg nofun, passQuoted_eq rounds _ (by rwa [moved]), moved]
                simp only [moveTo, Nat.add_assoc, Nat.add_comm 1, Bool.false_eq_true, if_false,
                  Nat.add_zero]
              | true =>
                rw [if_pos rfl, passQuoted_eq rounds _ (by exact moved ▸ shorter)]
                simp only [newLine, moveTo, ahead] at moved ⊢
                simp only [moved, Nat.add_assoc, Nat.add_comm 1, if_true]

/-! ## What stands ahead of a scan -/

/-- A scan stands between two texts that make up its source. -/
structure At (scan : ByteScan) (front back : List Char) : Prop where
  source : scan.source = String.ofList (front ++ back)
  bytes : scan.bytes = encoded (front ++ back)
  pos : scan.pos = (encoded front).length

/-- The scan behind a text, with the lines that end in it. -/
def past (scan : ByteScan) (text : List Char) : ByteScan :=
  { scan with pos := scan.pos + (encoded text).length, line := scan.line + text.count '\n' }

namespace At

variable {scan : ByteScan} {front back : List Char}

theorem past {text rest : List Char} (here : At scan front (text ++ rest)) :
    At (scan.past text) (front ++ text) rest where
  source := by rw [List.append_assoc]; exact here.source
  bytes := by rw [List.append_assoc]; exact here.bytes
  pos := by rw [encoded_append, List.length_append, ← here.pos]; rfl

theorem pastWhile (here : At scan front back) (test : Char → Bool) :
    At (scan.past (back.takeWhile test)) (front ++ back.takeWhile test) (back.dropWhile test) :=
  past (by rwa [List.takeWhile_append_dropWhile])

/-- The bytes ahead are those of the text ahead. -/
theorem ahead (here : At scan front back) : scan.ahead = encoded back := by
  rw [ByteScan.ahead, here.bytes, here.pos, encoded_append, List.drop_left]

theorem atEnd (here : At scan front back) : scan.atEnd = back.isEmpty := by
  rw [atEnd_eq, here.ahead]
  cases back with
  | nil => rfl
  | cons char rest => simp [encoded_cons, encodeChar_ne_nil char]

/-- The next byte passes a coarse test if the next character does. -/
theorem test_current {test : Char → Bool} (coarse : Coarse test) (stops : test '\x00' = false)
    (here : At scan front back) : test scan.current = back.head?.any test := by
  rw [current_eq, here.ahead]
  cases back with
  | nil => exact stops
  | cons char rest =>
      obtain ⟨byte, more, bytes⟩ := List.exists_cons_of_ne_nil (encodeChar_ne_nil char)
      rw [encoded_cons, bytes, List.cons_append, List.headD_cons]
      exact test_byte coarse (bytes ▸ List.mem_cons_self)

/-- A loop over bytes passes the characters that pass its test. -/
theorem pass_eq {test : Char → Bool} (coarse : Coarse test) (stops : test '\x00' = false)
    (oneLine : test '\n' = false) (here : At scan front back) :
    pass test scan = .ok () (scan.past (back.takeWhile test)) := by
  have none : (back.takeWhile test).count '\n' = 0 := List.count_eq_zero.mpr fun member => by
    rw [List.mem_takeWhile_imp member] at oneLine
    cases oneLine
  rw [pass, passWhile_eq stops _ scan scan.length_ahead_lt, here.ahead, takeWhile_encoded coarse,
    ByteScan.past, none]
  rfl

theorem passQuoted_eq (here : At scan front back) :
    passQuoted (scan.bytes.length + 1) scan =
      .ok () (scan.past (back.takeWhile (· != quoteMark))) := by
  rw [ByteScan.passQuoted_eq _ scan scan.length_ahead_lt, here.ahead,
    takeWhile_encoded (coarse_ne (by decide)), countP_encoded]
  rfl

theorem passLine_eq (here : At scan front back) :
    passLine scan = .ok () (scan.past (back.takeWhile (· != '\n'))) := by
  have within : ¬ scan.bytes.length < scan.pos := by
    rw [here.bytes, here.pos, encoded_append, List.length_append]
    omega
  have oneLine : (back.takeWhile (· != '\n')).count '\n' = 0 :=
    List.count_eq_zero.mpr fun member => by simpa using List.mem_takeWhile_imp member
  -- The place of the first line end is as far as the bytes that are none go.
  have length : (encoded (back.takeWhile (· != '\n'))).length =
      scan.ahead.findIdx (Char.ofUInt8 · == '\n') := by
    rw [← takeWhile_encoded (coarse_ne (by decide)), ← here.ahead,
      List.takeWhile_eq_take_findIdx_not, List.length_take,
      Nat.min_eq_left List.findIdx_le_length]
    simp only [bne, Bool.not_not]
  rw [passLine, if_neg within, ← ByteScan.ahead, ByteScan.past, oneLine, length]
  cases found : scan.ahead.findIdx? (Char.ofUInt8 · == '\n') with
  | some offset =>
      rw [(List.findIdx?_eq_some_iff_findIdx_eq.mp found).2]
      rfl
  | none =>
      rw [List.findIdx_eq_length_of_false fun byte member =>
          Bool.eq_false_iff.mpr (List.findIdx?_eq_none_iff.mp found byte member ▸ nofun),
        ByteScan.ahead, List.length_drop, Nat.add_sub_cancel' (Nat.le_of_not_lt within)]
      rfl

/-- The text between two places is cut out. -/
theorem slice_eq {text : List Char}
    (source : scan.source = String.ofList (front ++ (text ++ back))) :
    slice (encoded front).length (encoded (front ++ text)).length scan =
      .ok (String.ofList text) scan := by
  have first : scan.source = String.ofList front ++ (String.ofList text ++ String.ofList back) := by
    rw [source, String.ofList_append, String.ofList_append]
  have last : scan.source = String.ofList front ++ String.ofList text ++ String.ofList back := by
    rw [first, String.append_assoc]
  have start : (⟨(encoded front).length⟩ : String.Pos.Raw) = (String.ofList front).rawEndPos :=
    (rawEndPos_ofList front).symm
  have stop : (⟨(encoded (front ++ text)).length⟩ : String.Pos.Raw) =
      (String.ofList front ++ String.ofList text).rawEndPos := by
    rw [← String.ofList_append, rawEndPos_ofList]
  have proper : (encoded front).length ≤ (encoded (front ++ text)).length ∧
      String.Pos.Raw.IsValid scan.source ⟨(encoded front).length⟩ ∧
      String.Pos.Raw.IsValid scan.source ⟨(encoded (front ++ text)).length⟩ := by
    refine ⟨?_, String.Pos.Raw.isValid_iff_exists_append.mpr ⟨_, _, first, start⟩,
      String.Pos.Raw.isValid_iff_exists_append.mpr ⟨_, _, last, stop⟩⟩
    rw [encoded_append, List.length_append]
    exact Nat.le_add_right _ _
  rw [slice, dif_pos proper, extract_of_splits ⟨first, start⟩ ⟨last, stop⟩]

end At

/-! ## Tokens -/

section Pieces

variable {scan : ByteScan} {front : List Char} {rest : List Char}

theorem bind_of_ok {First Second : Type} {step : Step First} {start after : ByteScan}
    {found : First} (taken : step start = .ok found after) (next : First → Step Second) :
    (step >>= next) start = next found after := by
  simp only [Bind.bind, EStateM.bind, taken]

/-- The text from the start of a token on is its lexeme. -/
theorem lexeme_eq {text : List Char} (here : At scan (front ++ text) rest)
    (start : scan.start = (encoded front).length) :
    lexeme scan = .ok (String.ofList text) scan := by
  rw [lexeme, start, here.pos]
  exact At.slice_eq (by rw [← List.append_assoc]; exact here.source)

theorem past_append (scan : ByteScan) (front back : List Char) :
    scan.past (front ++ back) = (scan.past front).past back := by
  simp only [past, encoded_append, List.length_append, List.count_append, Nat.add_assoc]

theorem past_cons (scan : ByteScan) (char : Char) (rest : List Char) :
    scan.past (char :: rest) = (scan.past [char]).past rest := scan.past_append [char] rest

/-- A name is read with all its parts. -/
theorem name_eq {char : Char} (here : At scan (front ++ [char]) rest)
    (start : scan.start = (encoded front).length) :
    name scan =
      .ok (Piece.name char rest).meaning (scan.past (Piece.name char rest).text.tail) := by
  have behind := here.pastWhile isNamePart
  rw [List.append_assoc] at behind
  rw [name, bind_of_ok (here.pass_eq ofAscii_isNamePart.coarse rfl rfl),
    bind_of_ok (lexeme_eq behind start)]
  simp only [Piece.name, List.singleton_append, List.tail_cons]
  cases Keyword.ofText? (String.ofList (char :: rest.takeWhile isNamePart)) with
  | none => rfl
  | some word => rfl

theorem encoded_singleton {char : Char} (ascii : char.toNat < 128) :
    (encoded [char]).length = 1 := by
  obtain ⟨byte, bytes, -⟩ := encoded_ascii ascii
  rw [encoded_cons, bytes]
  rfl

/-- To go over a byte is to pass a character of ASCII. -/
theorem moveTo_eq_past {char : Char} (ascii : char.toNat < 128) (inLine : char ≠ '\n')
    (scan : ByteScan) : scan.moveTo (scan.pos + 1) = scan.past [char] := by
  rw [past, encoded_singleton ascii, List.count_singleton, if_neg (by simpa using inLine)]
  rfl

theorem closeString_eq {body after : List Char}
    (here : At scan (front ++ [quoteMark] ++ body) (quoteMark :: after))
    (start : scan.start = (encoded front).length) :
    closeString scan = .ok (.token (.string (String.ofList body))) (scan.past [quoteMark]) := by
  have first : scan.start + 1 = (encoded (front ++ [quoteMark])).length := by
    rw [encoded_append, List.length_append, encoded_singleton (by decide), start]
  have inner : slice (scan.start + 1) (scan.pos + 1 - 1) (scan.moveTo (scan.pos + 1)) =
      .ok (String.ofList body) (scan.moveTo (scan.pos + 1)) := by
    rw [first, Nat.add_sub_cancel, here.pos]
    exact At.slice_eq (by rw [← List.append_assoc]; exact here.source)
  rw [← moveTo_eq_past (by decide : quoteMark.toNat < 128) (by decide)]
  exact bind_of_ok inner _

/-- A string is read up to its closing quote, or up to the end. -/
theorem string_eq (here : At scan (front ++ [quoteMark]) rest)
    (start : scan.start = (encoded front).length) :
    string scan = .ok (Piece.string rest).meaning
      (scan.past (Piece.string rest).text.tail) := by
  have split := List.takeWhile_append_dropWhile (p := (· != quoteMark)) (l := rest)
  have behind := here.pastWhile (· != quoteMark)
  have looped : string scan = (ite _ _ _ : Step Meaning) _ := bind_of_ok here.passQuoted_eq _
  rw [looped, behind.atEnd]
  cases shape : rest.dropWhile (· != quoteMark) with
  | nil =>
      rw [shape, List.append_nil] at split
      simp only [Piece.string, shape, split]
      rfl
  | cons mark after =>
      have closing : mark = quoteMark := by
        have stops := List.head?_dropWhile_not (· != quoteMark) rest
        simpa [shape] using stops
      rw [shape, closing] at behind
      simp only [Piece.string, shape, List.isEmpty_cons, Bool.false_eq_true, if_false,
        List.tail_cons, past_append]
      exact closeString_eq behind start

/-- The value of a number is that of its digits in front of the point and behind
it. -/
theorem numeral_eq {whole fraction : List Char} (noPoint : '.' ∉ whole) {text : List Char}
    (shape : text = whole ∧ fraction = [] ∨ text = whole ++ '.' :: fraction)
    (here : At scan (front ++ text) rest) (start : scan.start = (encoded front).length) :
    numeral scan = .ok (.token (.number (Number.ofDigits whole fraction))) scan := by
  have passes : ∀ char ∈ whole, (char != '.') = true := fun char member =>
    bne_iff_ne.mpr fun same => noPoint (same ▸ member)
  have parts : text.takeWhile (· != '.') = whole ∧ (text.dropWhile (· != '.')).tail = fraction := by
    rcases shape with ⟨rfl, rfl⟩ | rfl
    · rw [List.takeWhile_eq_self_iff.mpr passes, List.dropWhile_eq_nil_iff.mpr passes]
      exact ⟨rfl, rfl⟩
    · rw [List.takeWhile_append_of_pos passes, List.dropWhile_append_of_pos passes]
      simp
  rw [numeral, bind_of_ok (lexeme_eq here start)]
  simp only [String.toList_ofList, parts]
  rfl

/-- Two bytes tell whether a point is next with a digit behind it. -/
theorem At.point_iff {after : List Char} (here : At scan front after) :
    (scan.current == '.' && scan.lookahead.isDigit) = true ↔
      ∃ next more, after = '.' :: next :: more ∧ next.isDigit = true := by
  have isPoint := ofAscii_beq (by decide : '.'.toNat < 128)
  rw [here.test_current isPoint.coarse (by decide), Bool.and_eq_true]
  cases after with
  | nil => simp
  | cons char more =>
      by_cases same : char = '.'
      · subst same
        have second : scan.lookahead.isDigit = more.head?.any Char.isDigit := by
          have behind : At (scan.past ['.']) (front ++ ['.']) more := here.past
          rw [← moveTo_eq_past (by decide) (by decide)] at behind
          exact behind.test_current ofAscii_isDigit.coarse (by decide)
        rw [second]
        cases more with
        | nil => simp
        | cons next more => simp
      · simp [same]

/-- A number without a point that a digit follows is its digits. -/
theorem number_of_no_point {digit : Char} (noPoint : ¬ ∃ next more,
    rest.dropWhile Char.isDigit = '.' :: next :: more ∧ next.isDigit = true) :
    Piece.number digit rest =
      ⟨.token (.number (Number.ofDigits (digit :: rest.takeWhile Char.isDigit) [])),
        digit :: rest.takeWhile Char.isDigit, rest.dropWhile Char.isDigit⟩ := by
  simp only [Piece.number]
  split
  next next more shape => rw [if_neg fun digit => noPoint ⟨next, more, shape, digit⟩, shape]
  next => rfl

/-- A number is read with its digits, and with those behind a point. -/
theorem number_eq {digit : Char} (here : At scan (front ++ [digit]) rest)
    (start : scan.start = (encoded front).length) (isDigit : digit.isDigit = true) :
    number scan = .ok (Piece.number digit rest).meaning
      (scan.past (Piece.number digit rest).text.tail) := by
  have coarse := ofAscii_isDigit.coarse
  have behind := here.pastWhile Char.isDigit
  have noPoint : '.' ∉ digit :: rest.takeWhile Char.isDigit := by
    rintro (_ | ⟨_, member⟩)
    · cases isDigit
    · cases List.mem_takeWhile_imp member
  have looped : number scan = (ite _ _ _ : Step Meaning) _ :=
    bind_of_ok (here.pass_eq coarse rfl rfl) _
  rw [looped]
  split
  next point =>
    obtain ⟨next, more, shape, isNext⟩ := behind.point_iff.mp point
    rw [shape] at behind
    have inFraction : At _ _ (next :: more) :=
      At.past (show At _ _ (['.'] ++ next :: more) from behind)
    have taken : (next :: more).takeWhile Char.isDigit = next :: more.takeWhile Char.isDigit := by
      rw [List.takeWhile_cons, if_pos isNext]
    have looped := bind_of_ok (inFraction.pass_eq coarse rfl rfl) fun _ => numeral
    have final := inFraction.pastWhile Char.isDigit
    have moved := moveTo_eq_past (by decide : '.'.toNat < 128) (by decide)
      (scan.past (rest.takeWhile Char.isDigit))
    rw [← moved] at looped
    refine looped.trans ?_
    rw [taken] at final
    rw [taken, moved]
    simp only [Piece.number, shape, isNext, if_true, List.cons_append, List.tail_cons]
    rw [past_append, past_cons _ '.' (next :: _)]
    simp only [List.append_assoc, List.singleton_append] at final
    exact numeral_eq noPoint (.inr rfl) final start
  next point =>
    rw [behind.point_iff] at point
    rw [number_of_no_point point]
    exact numeral_eq noPoint (.inl ⟨rfl, rfl⟩) (by simpa using behind) start

/-- A character that starts no token is passed over as a whole. -/
theorem unexpected_eq {char : Char} (here : At scan front (char :: rest))
    (start : scan.start = scan.pos) (inLine : char ≠ '\n') (pos : Nat) :
    unexpected (scan.moveTo pos) =
      .ok (.fault (.unexpectedCharacter char)) (scan.past [char]) := by
  have cut : slice scan.start scan.bytes.length (scan.moveTo pos) =
      .ok (String.ofList (char :: rest)) (scan.moveTo pos) := by
    rw [start, here.pos, here.bytes]
    have source := here.source
    rw [← List.append_nil (char :: rest)] at source
    exact At.slice_eq source
  have read : unexpected (scan.moveTo pos) = _ := bind_of_ok cut _
  have width : (encoded [char]).length = char.utf8Size := by
    rw [encoded_cons, encoded_nil, List.append_nil, String.length_utf8EncodeChar]
  rw [read, String.toList_ofList, List.headD_cons, past, width, List.count_singleton,
    if_neg (by simpa using inLine), ← start]
  rfl

/-- A punctuator is looked up, unless it starts a comment. -/
theorem first_of_punct {char : Char} {mark : Punct} (found : punct? char = some mark) :
    Piece.first char rest = if char == '/' && rest.head? == some '/' then Piece.comment rest
      else Piece.mark char rest := by
  unfold punct? at found
  split at found <;> first | rfl | cases found

theorem first_of_none {char : Char} (none : punct? char = none) :
    Piece.first char rest = if isBlank char then ⟨.blank, [char], rest⟩
      else if char == quoteMark then Piece.string rest
      else if char.isDigit then Piece.number char rest
      else if isNameStart char then Piece.name char rest
      else ⟨.fault (.unexpectedCharacter char), [char], rest⟩ := by
  have notSlash : (char == '/') = false := beq_eq_false_iff_ne.mpr fun same => by
    rw [same] at none
    cases none
  have noLonger : punctEqual? char = Option.none := by
    unfold punctEqual?
    split <;> first | rfl | cases none
  simp only [Piece.first, notSlash, Bool.false_and, Bool.false_eq_true, if_false, Piece.mark,
    noLonger, none]

theorem punct?_eq_none {char : Char} (foreign : 128 ≤ char.toNat) : punct? char = none := by
  unfold punct?
  split <;> first | rfl | exact absurd foreign (by decide)

theorem eat_eq {char : Char} (ascii : char.toNat < 128) (inLine : char ≠ '\n')
    (visible : char ≠ '\x00') (here : At scan front rest) :
    eat char scan = if rest.head? = some char then .ok true (scan.past [char])
      else .ok false scan := by
  have current := here.test_current (ofAscii_beq ascii).coarse (by simpa using visible.symm)
  rw [eat, here.atEnd, current, ← moveTo_eq_past ascii inLine]
  cases rest with
  | nil => rfl
  | cons next after => simp

/-- A punctuator of one character, with no equals sign behind it that counts. -/
theorem mark_of_other {char : Char} {shorter : Punct} (mark : punct? char = some shorter)
    (other : punctEqual? char = none ∨ rest.head? ≠ some '=') :
    Piece.mark char rest = ⟨.token (.punct shorter), [char], rest⟩ := by
  unfold Piece.mark
  split
  next longer after withEqual =>
    rcases other with none | differs
    · rw [none] at withEqual
      cases withEqual
    · exact absurd rfl differs
  next => rw [mark]

/-- A character that an equals sign makes a longer punctuator of. -/
theorem punctuator_eq {char : Char} {longer shorter : Punct} (mark : punct? char = some shorter)
    (withEqual : punctEqual? char = some longer) (here : At scan front rest) :
    punctuator longer shorter scan = .ok (Piece.mark char rest).meaning
      (scan.past (Piece.mark char rest).text.tail) := by
  have eaten := eat_eq (by decide : '='.toNat < 128) (by decide) (by decide) here
  split at eaten
  next equals =>
    obtain ⟨after, rfl⟩ : ∃ after, rest = '=' :: after := by
      cases rest with
      | nil => cases equals
      | cons next after => exact ⟨after, by rw [Option.some.inj equals]⟩
    rw [punctuator, bind_of_ok eaten]
    simp only [Piece.mark, withEqual]
    rfl
  next other =>
    rw [punctuator, bind_of_ok eaten, mark_of_other mark (.inr other)]
    rfl

/-- A slash is read, or a comment up to its line end. -/
theorem slash_eq (here : At scan front rest) :
    slash scan = .ok (Piece.first '/' rest).meaning
      (scan.past (Piece.first '/' rest).text.tail) := by
  have eaten := eat_eq (by decide : '/'.toNat < 128) (by decide) (by decide) here
  split at eaten
  next second =>
    obtain ⟨after, rfl⟩ : ∃ after, rest = '/' :: after := by
      cases rest with
      | nil => cases second
      | cons next after => exact ⟨after, by rw [Option.some.inj second]⟩
    have behind : At (scan.past ['/']) (front ++ ['/']) after := here.past
    rw [slash, bind_of_ok eaten]
    refine (bind_of_ok behind.passLine_eq _).trans ?_
    rw [← past_cons]
    rfl
  next other =>
    have noComment : Piece.first '/' rest = ⟨.token (.punct .slash), ['/'], rest⟩ := by
      rw [first_of_punct rfl, if_neg (by simpa using other), mark_of_other rfl (.inl rfl)]
    rw [slash, bind_of_ok eaten, noComment]
    rfl

section Foreign

variable {char : Char} (foreign : 128 ≤ char.toNat)

include foreign

theorem noMark (mark : Char) (ascii : mark.toNat < 128) : (char == mark) = false :=
  (ofAscii_beq ascii).eq_false foreign

theorem noName : isNameStart char = false := by
  have noPart := ofAscii_isNamePart.eq_false foreign
  rw [isNamePart, Bool.or_eq_false_iff] at noPart
  exact noPart.1

theorem other_foreign : other char = unexpected := by
  simp only [other, noMark foreign ' ' (by decide), noMark foreign '\r' (by decide),
    noMark foreign '\t' (by decide), noMark foreign '\n' (by decide),
    noMark foreign quoteMark (by decide), noName foreign, ofAscii_isDigit.eq_false foreign,
    Bool.or_false, Bool.false_eq_true, if_false]

theorem first_foreign :
    Piece.first char rest = ⟨.fault (.unexpectedCharacter char), [char], rest⟩ := by
  simp only [first_of_none (punct?_eq_none foreign), isBlank, noMark foreign ' ' (by decide),
    noMark foreign '\r' (by decide), noMark foreign '\t' (by decide),
    noMark foreign '\n' (by decide), noMark foreign quoteMark (by decide), noName foreign,
    ofAscii_isDigit.eq_false foreign, Bool.or_false, Bool.false_eq_true, if_false]

end Foreign

/-- What starts with a character of ASCII that is no punctuator. -/
theorem other_eq {char : Char} (ascii : char.toNat < 128) (inLine : char ≠ '\n')
    (none : punct? char = none) (here : At scan front (char :: rest))
    (start : scan.start = scan.pos) :
    other char (scan.past [char]) = .ok (Piece.first char rest).meaning
      ((scan.past [char]).past (Piece.first char rest).text.tail) := by
  have behind : At (scan.past [char]) (front ++ [char]) rest := here.past
  have begun : (scan.past [char]).start = (encoded front).length := start.trans here.pos
  have blank : isBlank char = (char == ' ' || char == '\r' || char == '\t') := by
    rw [isBlank, beq_eq_false_iff_ne.mpr inLine, Bool.or_false]
  rw [first_of_none none, other, blank, beq_eq_false_iff_ne.mpr inLine]
  split
  next => rfl
  next =>
    rw [if_neg nofun]
    split
    next quote =>
      obtain rfl := beq_iff_eq.mp quote
      exact string_eq behind begun
    next =>
      split
      next digit => exact number_eq behind begun digit
      next =>
        split
        next => exact name_eq behind begun
        next =>
          rw [← moveTo_eq_past ascii inLine]
          refine (unexpected_eq here start inLine _).trans ?_
          rw [moveTo_eq_past ascii inLine]
          rfl

/-- **A piece is read over its bytes.** -/
theorem piece_eq {char : Char} (here : At scan front (char :: rest))
    (start : scan.start = scan.pos) :
    piece scan = .ok (Piece.first char rest).meaning
      (scan.past (Piece.first char rest).text) := by
  by_cases ascii : char.toNat < 128
  · obtain ⟨byte, bytes, rfl⟩ := encoded_ascii ascii
    have bumped := bump_of_ahead (here.ahead.trans (by rw [encoded_cons, bytes]; rfl))
    rw [piece, bind_of_ok bumped]
    generalize Char.ofUInt8 byte = char at *
    by_cases lineEnd : char = '\n'
    · subst lineEnd
      rfl
    · have whole : scan.past (Piece.first char rest).text =
          (scan.past [char]).past (Piece.first char rest).text.tail := by
        obtain ⟨more, shape, -⟩ := cuts_first char rest
        rw [shape, past_cons, List.tail_cons]
      have behind : At (scan.past [char]) (front ++ [char]) rest := here.past
      rw [moveTo_eq_past ascii lineEnd, whole]
      by_cases isSlash : char = '/'
      · subst isSlash
        exact slash_eq behind
      · rw [if_neg (by simpa using isSlash)]
        cases mark : punct? char with
        | none => exact other_eq ascii lineEnd mark here start
        | some shorter =>
            rw [first_of_punct mark, if_neg (by simp [isSlash])]
            cases withEqual : punctEqual? char with
            | some longer => exact punctuator_eq mark withEqual behind
            | none =>
                rw [mark_of_other mark (.inl withEqual)]
                rfl
  · have foreign := Nat.le_of_not_lt ascii
    obtain ⟨byte, more, bytes⟩ := List.exists_cons_of_ne_nil (encodeChar_ne_nil char)
    have high : 128 ≤ (Char.ofUInt8 byte).toNat :=
      le_byte_of_not_ascii foreign (bytes ▸ List.mem_cons_self)
    have bumped := bump_of_ahead (here.ahead.trans (by rw [encoded_cons, bytes, List.cons_append]))
    have notSlash := (ofAscii_beq (by decide : '/'.toNat < 128)).eq_false high
    rw [piece, bind_of_ok bumped, notSlash, punct?_eq_none high, first_foreign foreign]
    simp only [Bool.false_eq_true, if_false, other_foreign high]
    exact unexpected_eq here start (fun same => absurd (same ▸ ascii) (by decide)) _

end Pieces

/-! ## Items -/

/-- A scan over bytes stands where a scan over characters does. -/
def Sees (scan : ByteScan) (other : Scan) : Prop :=
  (∃ front, At scan front other.ahead) ∧ scan.line = other.line ∧ scan.ended = other.ended

theorem length_le_encoded (text : List Char) : text.length ≤ (encoded text).length := by
  induction text with
  | nil => exact Nat.le_refl 0
  | cons char rest ih =>
      have some := List.length_pos_iff.mpr (encodeChar_ne_nil char)
      rw [encoded_cons, List.length_append, List.length_cons]
      omega

/-- A piece is passed over, or handed out as an item. -/
theorem nextFrom_cons (rounds : Nat) {scan : ByteScan} {front rest : List Char} {char : Char}
    (here : At scan front (char :: rest)) :
    ∃ reached, At reached (front ++ (Piece.first char rest).text) (Piece.first char rest).rest ∧
      reached.line = scan.line + (Piece.first char rest).lineEnds ∧ reached.ended = scan.ended ∧
      nextFrom (rounds + 1) scan = match (Piece.first char rest).meaning with
        | .blank => nextFrom rounds reached
        | .token kind =>
          .ok (.token ⟨kind, String.ofList (Piece.first char rest).text, reached.line⟩) reached
        | .fault cause => .ok (.fault ⟨cause, reached.line⟩) reached := by
  obtain ⟨more, shape, whole⟩ := cuts_first char rest
  have split : char :: rest = (Piece.first char rest).text ++ (Piece.first char rest).rest := by
    rw [shape, List.cons_append, whole]
  let begun : ByteScan := { scan with start := scan.pos }
  have there : At begun front (char :: rest) := ⟨here.source, here.bytes, here.pos⟩
  have behind : At (begun.past (Piece.first char rest).text) _ _ := (split ▸ there).past
  have step : nextFrom (rounds + 1) scan = (ite _ _ _ : Step Item) scan := rfl
  refine ⟨begun.past (Piece.first char rest).text, behind, rfl, rfl, ?_⟩
  rw [step, here.atEnd, List.isEmpty_cons, if_neg nofun]
  refine (bind_of_ok (piece_eq there rfl) _).trans ?_
  cases (Piece.first char rest).meaning with
  | blank => rfl
  | token kind => exact bind_of_ok (lexeme_eq behind here.pos) _
  | fault cause => rfl

/-- The next item is that of the characters. -/
theorem nextFrom_eq : ∀ (fuel rounds : Nat) (scan : ByteScan) (front text : List Char),
    At scan front text → scan.ended = false → text.length ≤ fuel → text.length < rounds →
    ∃ reached, nextFrom rounds scan = .ok (Scan.nextFrom fuel scan.line text).1 reached ∧
      reached.Sees (Scan.nextFrom fuel scan.line text).2
  | _, 0, _, _, _, _, _, _, less => absurd less (Nat.not_lt_zero _)
  | fuel, rounds + 1, scan, front, [], here, _, _, _ => by
      have step : nextFrom (rounds + 1) scan = (ite _ _ _ : Step Item) scan := rfl
      rw [step, here.atEnd, List.isEmpty_nil, if_pos rfl]
      have ended : Scan.nextFrom fuel scan.line [] =
          (.token ⟨.endOfInput, "", scan.line⟩, ⟨[], scan.line, true⟩) := by
        cases fuel with
        | zero => rfl
        | succ fuel => rfl
      rw [ended]
      exact ⟨_, rfl, ⟨front, here.source, here.bytes, here.pos⟩, rfl, rfl⟩
  | 0, _ + 1, _, _, _ :: _, _, _, enough, _ => absurd enough (Nat.not_succ_le_zero _)
  | fuel + 1, rounds + 1, scan, front, char :: rest, here, going, enough, less => by
      obtain ⟨reached, behind, line, ended, step⟩ := nextFrom_cons rounds here
      have shorter := length_rest_lt char rest
      rw [step]
      simp only [Scan.nextFrom, ← line]
      cases (Piece.first char rest).meaning with
      | blank =>
          exact nextFrom_eq fuel rounds reached _ _ behind (ended.trans going)
            (Nat.le_of_lt_succ (Nat.lt_of_lt_of_le shorter enough))
            (Nat.lt_of_lt_of_le shorter (Nat.le_of_lt_succ less))
      | token kind | fault cause => exact ⟨reached, rfl, ⟨_, behind⟩, rfl, ended.trans going⟩

theorem next_eq {scan : ByteScan} {other : Scan} (sees : scan.Sees other) :
    ∃ reached, next scan = .ok other.next.1 reached ∧ reached.Sees other.next.2 := by
  obtain ⟨⟨front, here⟩, line, ended⟩ := sees
  have step : next scan = (ite _ _ _ : Step (Option Item)) scan := rfl
  rw [step, Scan.next, ended]
  split
  next => exact ⟨scan, rfl, ⟨front, here⟩, line, ended⟩
  next going =>
    have enough : other.ahead.length < scan.bytes.length + 1 := by
      have length := length_le_encoded other.ahead
      rw [here.bytes, encoded_append, List.length_append]
      omega
    obtain ⟨reached, read, seen⟩ := nextFrom_eq _ _ scan front _ here
      (ended.trans (Bool.eq_false_iff.mpr going)) (Nat.le_refl _) enough
    rw [line] at read seen
    exact ⟨reached, bind_of_ok read _, seen⟩

/-- A scan over bytes answers as a scan over characters. -/
theorem answer_eq (count : Nat) : ∀ {scan : ByteScan} {other : Scan}, scan.Sees other →
    ∃ reached, answer count scan = .ok (other.answer count) reached := by
  induction count with
  | zero =>
      intro scan other sees
      obtain ⟨reached, read, -⟩ := next_eq sees
      exact ⟨reached, read⟩
  | succ count ih =>
      intro scan other sees
      obtain ⟨reached, read, seen⟩ := next_eq sees
      rw [answer, bind_of_ok read]
      exact ih seen

/-- **The bytes of a source are scanned without a stop**, and what is answered is
what the characters give. -/
theorem answer_ofSource (source : String) (count : Nat) :
    ∃ reached, answer count (ofSource source) = .ok ((Scan.start source).answer count) reached := by
  refine answer_eq count ⟨⟨[], ?_, ?_, rfl⟩, rfl, rfl⟩
  · exact String.ofList_toList.symm
  · rw [ofSource, ← bytes_ofList]
    exact congrArg (·.toUTF8.data.toList) String.ofList_toList.symm

end ByteScan

end Lexer

end LoxLang
