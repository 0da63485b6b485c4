import LoxLang.Proofs.Token.Spans

/-!
# The longest lexeme

The lexical grammar says which texts are lexemes, and what each one stands for
(`Lexer.Lexeme`). It knows nothing of the order in which characters are looked
at. A source is read by taking the longest lexeme that the text ahead starts
with, over and over. Where the text ahead starts with no lexeme there is a
fault, which is all the rest behind an opening quote and one character otherwise
(`Lexer.Munched`).

The piece that is cut off a text is decided by a few characters at its start.
It is the one that the longest lexeme asks for (`munched_first`), and there is
only one such piece (`Munched.unique`). So each span of a source is read into
what the longest lexeme at its place stands for (`longest_lexeme_is_read`).
-/

namespace LoxLang

set_option autoImplicit false

namespace Lexer

/-! ## The lexical grammar -/

/-- A character that a name may start with. -/
def IsLetter (char : Char) : Prop := char.isAlpha = true ∨ char = '_'

/-- The lexemes, each with what it stands for. -/
inductive Lexeme : List Char → Meaning → Prop where
  | white {char : Char} (white : char ∈ [' ', '\t', '\r', '\n']) : Lexeme [char] .blank
  | comment {more : List Char} (oneLine : '\n' ∉ more) : Lexeme ('/' :: '/' :: more) .blank
  | punct (mark : Punct) : Lexeme mark.text.toList (.token (.punct mark))
  | string {contents : List Char} (inner : quoteMark ∉ contents) :
      Lexeme (quoteMark :: (contents ++ [quoteMark]))
        (.token (.string (String.ofList contents)))
  | whole {digits : List Char} (some : digits ≠ [])
      (all : ∀ digit ∈ digits, digit.isDigit = true) :
      Lexeme digits (.token (.number (Number.ofDigits digits [])))
  | decimal {whole fraction : List Char} (front : whole ≠ []) (back : fraction ≠ [])
      (all : ∀ digit ∈ whole ++ fraction, digit.isDigit = true) :
      Lexeme (whole ++ '.' :: fraction) (.token (.number (Number.ofDigits whole fraction)))
  | keyword (word : Keyword) : Lexeme word.text.toList (.token (.keyword word))
  | name {char : Char} {more : List Char} (letter : IsLetter char)
      (others : ∀ other ∈ more, IsLetter other ∨ other.isDigit = true)
      (free : ∀ word : Keyword, word.text.toList ≠ char :: more) :
      Lexeme (char :: more) (.token .identifier)

/-- A lexeme that a text starts with, and no other one is longer. -/
structure Longest (text read : List Char) (meaning : Meaning) : Prop where
  start : read <+: text
  lexeme : Lexeme read meaning
  longest : ∀ other reading, other <+: text → Lexeme other reading → other.length ≤ read.length

/-- A text that starts with no lexeme. -/
def Unreadable (text : List Char) : Prop :=
  ∀ other reading, other <+: text → ¬ Lexeme other reading

/-- The piece that the longest lexeme cuts off a text. -/
inductive Munched (text : List Char) : Piece → Prop where
  | lexeme {read rest : List Char} {meaning : Meaning} (whole : read ++ rest = text)
      (longest : Longest text read meaning) : Munched text ⟨meaning, read, rest⟩
  | unterminated {rest : List Char} (shape : text = quoteMark :: rest) (none : Unreadable text) :
      Munched text ⟨.fault .unterminatedString, text, []⟩
  | unexpected {char : Char} {rest : List Char} (shape : text = char :: rest)
      (other : char ≠ quoteMark) (none : Unreadable text) :
      Munched text ⟨.fault (.unexpectedCharacter char), [char], rest⟩

/-! ## The classes of characters are apart -/

section Classes

variable {char : Char}

theorem isNameStart_iff : isNameStart char = true ↔ IsLetter char := by
  simp [isNameStart, IsLetter]

theorem isNamePart_iff : isNamePart char = true ↔ IsLetter char ∨ char.isDigit = true := by
  rw [isNamePart, Bool.or_eq_true, isNameStart_iff]

theorem not_isBlank_of_isNamePart (part : isNamePart char = true) : isBlank char = false := by
  rw [Bool.eq_false_iff]
  intro blank
  simp only [isBlank, Bool.or_eq_true, beq_iff_eq] at blank
  rcases blank with ((rfl | rfl) | rfl) | rfl <;> cases part

theorem ne_of_isNamePart (part : isNamePart char = true) {other : Char}
    (mark : isNamePart other = false) : char ≠ other := by
  rintro rfl
  rw [part] at mark
  cases mark

theorem isNamePart_of_isDigit (digit : char.isDigit = true) : isNamePart char = true :=
  isNamePart_iff.mpr (.inr digit)

theorem isNamePart_of_isLetter (letter : IsLetter char) : isNamePart char = true :=
  isNamePart_iff.mpr (.inl letter)

theorem not_isDigit_of_isLetter (letter : IsLetter char) : char.isDigit = false := by
  rcases letter with alpha | rfl
  · delta Char.isAlpha at alpha
    delta Char.isUpper Char.isLower at alpha
    simp only [Char.isDigit, Bool.or_eq_true, Bool.and_eq_true, decide_eq_true_eq,
      Bool.and_eq_false_iff, decide_eq_false_iff_not, UInt32.le_iff_toNat_le, ge_iff_le] at alpha ⊢
    simp at alpha ⊢
    omega
  · rfl

end Classes

/-! ## The first piece by its first character -/

section First

variable {char : Char}

theorem first_of_isBlank (blank : isBlank char = true) (rest : List Char) :
    Piece.first char rest = ⟨.blank, [char], rest⟩ := if_pos blank

theorem first_quoteMark (rest : List Char) : Piece.first quoteMark rest = Piece.string rest := rfl

theorem first_of_isDigit (digit : char.isDigit = true) (rest : List Char) :
    Piece.first char rest = Piece.number char rest := by
  have part := isNamePart_of_isDigit digit
  have slash : char ≠ '/' := ne_of_isNamePart part rfl
  have quote : char ≠ quoteMark := ne_of_isNamePart part rfl
  simp [Piece.first, not_isBlank_of_isNamePart part, slash, quote, digit]

theorem first_of_isLetter (letter : IsLetter char) (rest : List Char) :
    Piece.first char rest = Piece.name char rest := by
  have part := isNamePart_of_isLetter letter
  have slash : char ≠ '/' := ne_of_isNamePart part rfl
  have quote : char ≠ quoteMark := ne_of_isNamePart part rfl
  simp [Piece.first, not_isBlank_of_isNamePart part, slash, quote,
    not_isDigit_of_isLetter letter, isNameStart_iff.mpr letter]

end First

/-! ## The piece is a lexeme -/

/-- A piece is a lexeme or a fault. -/
def Piece.Grammatical (piece : Piece) : Prop :=
  match piece.meaning with
  | .fault _ => True
  | meaning => Lexeme piece.text meaning

theorem grammatical_comment {rest : List Char} (slash : rest.head? = some '/') :
    (Piece.comment rest).Grammatical := by
  rcases proper_comment slash with ⟨char, _, one⟩ | ⟨more, slashes, oneLine, _⟩
  · cases rest with
    | nil => cases slash
    | cons next more =>
        cases Option.some.inj slash
        cases one
  · rw [Piece.Grammatical, slashes]
    exact .comment oneLine

theorem grammatical_string (rest : List Char) : (Piece.string rest).Grammatical := by
  unfold Piece.string
  split
  · trivial
  · exact .string (not_mem_takeWhile_ne quoteMark rest)

theorem isDigit_of_mem_cons_takeWhile {digit : Char} (isDigit : digit.isDigit = true)
    (rest : List Char) : ∀ char ∈ digit :: rest.takeWhile Char.isDigit, char.isDigit = true :=
  List.forall_mem_cons.mpr ⟨isDigit, fun _ => List.mem_takeWhile_imp⟩

theorem grammatical_number {digit : Char} (isDigit : digit.isDigit = true) (rest : List Char) :
    (Piece.number digit rest).Grammatical := by
  have front := isDigit_of_mem_cons_takeWhile isDigit rest
  simp only [Piece.number]
  split
  next next more _ =>
    split
    next nextDigit =>
      refine .decimal (by simp) (by simp) fun char member => ?_
      rcases List.mem_append.mp member with before | after
      · exact front char before
      · exact isDigit_of_mem_cons_takeWhile nextDigit more char after
    next => exact .whole (by simp) front
  next => exact .whole (by simp) front

theorem grammatical_name {char : Char} (letter : IsLetter char) (rest : List Char) :
    (Piece.name char rest).Grammatical := by
  simp only [Piece.Grammatical, Piece.name]
  cases found : Keyword.ofText? (String.ofList (char :: rest.takeWhile isNamePart)) with
  | some word =>
      have spelled := List.find?_some found
      have same := Lexeme.keyword word
      rwa [eq_of_beq spelled, String.toList_ofList] at same
  | none =>
      refine .name letter (fun other member => isNamePart_iff.mp (List.mem_takeWhile_imp member)) ?_
      intro word spelled
      have differs := List.find?_eq_none.mp found word (by cases word <;> decide)
      rw [← spelled, String.ofList_toList] at differs
      simp at differs

theorem punct?_text {char : Char} {mark : Punct} (found : punct? char = some mark) :
    mark.text.toList = [char] := by
  unfold punct? at found
  split at found <;> cases found <;> rfl

theorem punctEqual?_text {char : Char} {mark : Punct} (found : punctEqual? char = some mark) :
    mark.text.toList = [char, '='] := by
  unfold punctEqual? at found
  split at found <;> cases found <;> rfl

theorem grammatical_mark (char : Char) (rest : List Char) :
    (Piece.mark char rest).Grammatical := by
  unfold Piece.mark
  split
  next longer after found =>
    rw [Piece.Grammatical, ← punctEqual?_text found]
    exact .punct longer
  next =>
    split
    next shorter found =>
      rw [Piece.Grammatical, ← punct?_text found]
      exact .punct shorter
    next => trivial

/-- **A piece that is no fault is a lexeme** with the meaning of the piece. -/
theorem grammatical_first (char : Char) (rest : List Char) :
    (Piece.first char rest).Grammatical := by
  unfold Piece.first
  split
  next blank =>
    refine .white ?_
    simp only [isBlank, Bool.or_eq_true, beq_iff_eq] at blank
    simp only [List.mem_cons, List.not_mem_nil, or_false]
    tauto
  next =>
    split
    next slashes =>
      simp only [Bool.and_eq_true, beq_iff_eq] at slashes
      exact grammatical_comment slashes.2
    next =>
      split
      · exact grammatical_string rest
      · split
        next digit => exact grammatical_number digit rest
        next =>
          split
          next letter => exact grammatical_name (isNameStart_iff.mp letter) rest
          next => exact grammatical_mark char rest

/-! ## No lexeme is longer -/

/-- Whether a piece is a fault. -/
def Meaning.isFault : Meaning → Bool
  | .fault _ => true
  | _ => false

/-- A piece that is no fault and at least as long as a lexeme. If it is as long,
then it means the same. -/
structure Piece.Covers (piece : Piece) (read : List Char) (meaning : Meaning) : Prop where
  sound : piece.meaning.isFault = false
  length : read.length ≤ piece.text.length
  meaning : piece.text = read → piece.meaning = meaning

/-- Characters that pass a test are in the run at the start of the text. -/
theorem length_le_takeWhile {test : Char → Bool} {front : List Char}
    (passes : ∀ char ∈ front, test char = true) (back : List Char) :
    front.length ≤ ((front ++ back).takeWhile test).length := by
  rw [List.takeWhile_append_of_pos passes, List.length_append]
  exact Nat.le_add_right _ _

theorem bne_of_not_mem {char : Char} {text : List Char} (outside : char ∉ text) :
    ∀ other ∈ text, (other != char) = true := by
  intro other member
  refine bne_iff_ne.mpr ?_
  rintro rfl
  exact outside member

theorem covers_comment {more : List Char} (oneLine : '\n' ∉ more) (after : List Char) :
    (Piece.first '/' ('/' :: (more ++ after))).Covers ('/' :: '/' :: more) .blank where
  sound := rfl
  length := by
    have passes : ∀ char ∈ '/' :: more, (char != '\n') = true :=
      List.forall_mem_cons.mpr ⟨rfl, bne_of_not_mem oneLine⟩
    exact Nat.succ_le_succ (length_le_takeWhile passes after)
  meaning _ := rfl

/-- A piece that starts with a punctuator of one character. -/
theorem covers_single {char : Char} {mark : Punct} (found : punct? char = some mark)
    (after : List Char) :
    (Piece.first char after).Covers [char] (.token (.punct mark)) := by
  rw [ByteScan.first_of_punct found]
  split
  next slashes =>
    refine ⟨rfl, Nat.succ_le_succ (Nat.zero_le _), fun one => ?_⟩
    simp only [Bool.and_eq_true, beq_iff_eq] at slashes
    cases after with
    | nil => cases slashes.2
    | cons next more =>
        cases Option.some.inj slashes.2
        cases (List.cons.inj one).2
  next =>
    unfold Piece.mark
    split
    next => exact ⟨rfl, by simp, fun one => by simp at one⟩
    next =>
      rw [found]
      exact ⟨rfl, Nat.le_refl _, fun _ => rfl⟩

theorem covers_double {char : Char} {shorter longer : Punct} (known : punct? char = some shorter)
    (found : punctEqual? char = some longer) (after : List Char) :
    (Piece.first char ('=' :: after)).Covers [char, '='] (.token (.punct longer)) := by
  have single : (char == '/' && ('=' :: after).head? == some '/') = false := by simp
  rw [ByteScan.first_of_punct known, single, if_neg Bool.false_ne_true]
  simp only [Piece.mark, found]
  exact ⟨rfl, Nat.le_refl _, fun _ => rfl⟩

theorem covers_string {contents : List Char} (inner : quoteMark ∉ contents) (after : List Char) :
    (Piece.first quoteMark (contents ++ quoteMark :: after)).Covers
      (quoteMark :: (contents ++ [quoteMark])) (.token (.string (String.ofList contents))) := by
  have passes := bne_of_not_mem inner
  have stops :
      (contents ++ quoteMark :: after).dropWhile (· != quoteMark) = quoteMark :: after := by
    rw [List.dropWhile_append_of_pos passes]
    exact List.dropWhile_cons_of_neg (by simp)
  have takes : (contents ++ quoteMark :: after).takeWhile (· != quoteMark) = contents := by
    rw [List.takeWhile_append_of_pos passes, List.takeWhile_cons_of_neg (by simp), List.append_nil]
  rw [first_quoteMark, Piece.string, stops, takes]
  exact ⟨rfl, Nat.le_refl _, fun _ => rfl⟩

/-- A number has all the digits at its start. -/
theorem covers_whole {digit : Char} {more : List Char} (isDigit : digit.isDigit = true)
    (all : ∀ char ∈ more, char.isDigit = true) (after : List Char) :
    (Piece.first digit (more ++ after)).Covers (digit :: more)
      (.token (.number (Number.ofDigits (digit :: more) []))) := by
  have digits := length_le_takeWhile all after
  have plain : (⟨.token (.number (Number.ofDigits
      (digit :: (more ++ after).takeWhile Char.isDigit) [])),
      digit :: (more ++ after).takeWhile Char.isDigit,
      (more ++ after).dropWhile Char.isDigit⟩ : Piece).Covers (digit :: more)
      (.token (.number (Number.ofDigits (digit :: more) []))) :=
    ⟨rfl, Nat.succ_le_succ digits, fun same =>
      congrArg (fun read => Meaning.token (.number (Number.ofDigits read []))) same⟩
  rw [first_of_isDigit isDigit]
  simp only [Piece.number]
  split
  · split
    · refine ⟨rfl, ?_, fun same => ?_⟩
      · simp only [List.length_cons, List.length_append]
        omega
      · have point : '.' ∈ digit :: more := by
          rw [← same]
          simp
        have only : ∀ char ∈ digit :: more, char.isDigit = true :=
          List.forall_mem_cons.mpr ⟨isDigit, all⟩
        cases only '.' point
    · exact plain
  · exact plain

theorem covers_decimal {digit next : Char} {more others : List Char}
    (isDigit : digit.isDigit = true) (all : ∀ char ∈ more, char.isDigit = true)
    (nextDigit : next.isDigit = true) (rest : ∀ char ∈ others, char.isDigit = true)
    (after : List Char) :
    (Piece.first digit (more ++ '.' :: next :: (others ++ after))).Covers
      (digit :: (more ++ '.' :: next :: others))
      (.token (.number (Number.ofDigits (digit :: more) (next :: others)))) := by
  have digits := length_le_takeWhile rest after
  have takes : (more ++ '.' :: next :: (others ++ after)).takeWhile Char.isDigit = more := by
    rw [List.takeWhile_append_of_pos all, List.takeWhile_cons_of_neg (by decide), List.append_nil]
  have stops : (more ++ '.' :: next :: (others ++ after)).dropWhile Char.isDigit =
      '.' :: next :: (others ++ after) := by
    rw [List.dropWhile_append_of_pos all, List.dropWhile_cons_of_neg (by decide)]
  rw [first_of_isDigit isDigit]
  simp only [Piece.number, takes, stops, nextDigit, if_true]
  refine ⟨rfl, ?_, fun same => ?_⟩
  · simp only [List.length_cons, List.length_append]
    omega
  · simp only [List.cons_append, List.cons.injEq, List.append_cancel_left_eq, true_and] at same
    dsimp only
    rw [same]

/-- A name has all the letters and digits at its start. -/
theorem length_le_name {char : Char} {more : List Char} (letter : IsLetter char)
    (others : ∀ other ∈ more, IsLetter other ∨ other.isDigit = true) (after : List Char) :
    (char :: more).length ≤ (Piece.first char (more ++ after)).text.length := by
  rw [first_of_isLetter letter]
  refine Nat.succ_le_succ (length_le_takeWhile (fun other member => ?_) after)
  exact isNamePart_iff.mpr (others other member)

theorem covers_name {char : Char} {more : List Char} (letter : IsLetter char)
    (others : ∀ other ∈ more, IsLetter other ∨ other.isDigit = true) (after : List Char) :
    (Piece.first char (more ++ after)).Covers (char :: more)
      (.token ((Keyword.ofText? (String.ofList (char :: more))).elim .identifier .keyword)) where
  sound := by
    rw [first_of_isLetter letter]
    rfl
  length := length_le_name letter others after
  meaning same := by
    rw [first_of_isLetter letter] at same ⊢
    simp only [Piece.name] at same ⊢
    rw [same]
    cases Keyword.ofText? (String.ofList (char :: more)) with
    | none => rfl
    | some word => rfl

/-- A reserved word is spelled like a name. -/
theorem text_shape (word : Keyword) : ∃ char more, word.text.toList = char :: more ∧
    IsLetter char ∧ ∀ other ∈ more, IsLetter other ∨ other.isDigit = true := by
  have spelled : word.text.toList.all Char.isAlpha = true := by cases word <;> decide
  have letters := List.all_eq_true.mp spelled
  cases text : word.text.toList with
  | nil =>
      have nonempty : word.text.toList ≠ [] := by cases word <;> decide
      exact absurd text nonempty
  | cons char more =>
      rw [text, List.forall_mem_cons] at letters
      refine ⟨char, more, rfl, .inl letters.1, fun other member => ?_⟩
      exact .inl (.inl (letters.2 other member))

theorem ofText?_text (word : Keyword) : Keyword.ofText? word.text = some word := by
  cases word <;> decide

theorem ofText?_eq_none {text : List Char} (free : ∀ word : Keyword, word.text.toList ≠ text) :
    Keyword.ofText? (String.ofList text) = none := by
  refine List.find?_eq_none.mpr fun word _ same => free word ?_
  rw [eq_of_beq same, String.toList_ofList]

/-- A punctuator has one character, or a second one that is an equals sign. -/
theorem punct_shape (mark : Punct) :
    ∃ char, (mark.text.toList = [char] ∧ punct? char = some mark) ∨
      (mark.text.toList = [char, '='] ∧ (punct? char).isSome ∧ punctEqual? char = some mark) :=
  ⟨mark.text.toList.headD ' ', by cases mark <;> decide⟩

/-- **The piece at the start of a text is as long as any lexeme there.** -/
theorem covers_first {read after rest : List Char} {char : Char} {meaning : Meaning}
    (lexeme : Lexeme read meaning) (whole : read ++ after = char :: rest) :
    (Piece.first char rest).Covers read meaning := by
  cases lexeme with
  | @white char' white =>
      obtain ⟨rfl, rfl⟩ := List.cons.inj whole
      have blank : isBlank char' = true := by
        simp only [List.mem_cons, List.not_mem_nil, or_false] at white
        simp only [isBlank, Bool.or_eq_true, beq_iff_eq]
        tauto
      rw [first_of_isBlank blank]
      exact ⟨rfl, Nat.le_refl _, fun _ => rfl⟩
  | comment oneLine =>
      obtain ⟨rfl, rfl⟩ := List.cons.inj whole
      exact covers_comment oneLine after
  | punct mark =>
      obtain ⟨first, ⟨text, found⟩ | ⟨text, known, found⟩⟩ := punct_shape mark
      · rw [text] at whole ⊢
        obtain ⟨rfl, rfl⟩ := List.cons.inj whole
        exact covers_single found _
      · obtain ⟨shorter, known⟩ := Option.isSome_iff_exists.mp known
        rw [text] at whole ⊢
        obtain ⟨rfl, rfl⟩ := List.cons.inj whole
        exact covers_double known found _
  | string inner =>
      rw [List.cons_append, List.append_assoc] at whole
      obtain ⟨rfl, rfl⟩ := List.cons.inj whole
      exact covers_string inner after
  | whole some all =>
      cases read with
      | nil => exact absurd rfl some
      | cons digit more =>
          obtain ⟨rfl, rfl⟩ := List.cons.inj whole
          obtain ⟨isDigit, others⟩ := List.forall_mem_cons.mp all
          exact covers_whole isDigit others after
  | @decimal front back some others all =>
      cases front with
      | nil => exact absurd rfl some
      | cons digit more =>
          cases back with
          | nil => exact absurd rfl others
          | cons next fraction =>
              rw [List.cons_append, List.cons_append, List.append_assoc] at whole
              obtain ⟨rfl, rfl⟩ := List.cons.inj whole
              obtain ⟨before, behind⟩ := List.forall_mem_append.mp all
              obtain ⟨isDigit, moreDigits⟩ := List.forall_mem_cons.mp before
              obtain ⟨nextDigit, lastDigits⟩ := List.forall_mem_cons.mp behind
              exact covers_decimal isDigit moreDigits nextDigit lastDigits after
  | keyword word =>
      obtain ⟨first, more, text, letter, others⟩ := text_shape word
      have spelled := ofText?_text word
      rw [← String.ofList_toList (s := word.text), text] at spelled
      rw [text] at whole ⊢
      obtain ⟨rfl, rfl⟩ := List.cons.inj whole
      have covers := covers_name letter others after
      rwa [spelled] at covers
  | name letter others free =>
      obtain ⟨rfl, rfl⟩ := List.cons.inj whole
      have covers := covers_name letter others after
      rwa [ofText?_eq_none free] at covers

/-! ## The longest lexeme decides -/

theorem Lexeme.ne_nil {read : List Char} {meaning : Meaning} (lexeme : Lexeme read meaning) :
    read ≠ [] := by
  cases lexeme with
  | punct mark => cases mark <;> decide
  | keyword word => cases word <;> decide
  | whole some _ => exact some
  | decimal _ _ _ => simp
  | _ => exact List.cons_ne_nil _ _

theorem not_lexeme_fault {read : List Char} (cause : LexicalCause) :
    ¬ Lexeme read (.fault cause) := nofun

/-- A lexeme by itself is read as a whole. -/
theorem Lexeme.first_eq {char : Char} {more : List Char} {meaning : Meaning}
    (lexeme : Lexeme (char :: more) meaning) :
    Piece.first char more = ⟨meaning, char :: more, []⟩ := by
  have covers := covers_first lexeme (List.append_nil _)
  obtain ⟨taken, text, whole⟩ := cuts_first char more
  have none : (Piece.first char more).rest = [] := by
    have lengths := congrArg List.length whole
    have long := covers.length
    rw [text] at long
    simp only [List.length_append, List.length_cons] at lengths long
    exact List.length_eq_zero_iff.mp (by omega)
  have all : (Piece.first char more).text = char :: more := by
    rw [none, List.append_nil] at whole
    rw [text, whole]
  rw [← covers.meaning all]
  conv_rhs => rw [← all, ← none]

/-- A lexeme stands for one thing. -/
theorem Lexeme.unique {read : List Char} {meaning other : Meaning} (one : Lexeme read meaning)
    (two : Lexeme read other) : meaning = other := by
  cases read with
  | nil => exact absurd rfl one.ne_nil
  | cons char more => exact congrArg Piece.meaning (one.first_eq.symm.trans two.first_eq)

/-- **The piece at the start of a text is cut off by the longest lexeme there.** -/
theorem munched_first (char : Char) (rest : List Char) :
    Munched (char :: rest) (Piece.first char rest) := by
  obtain ⟨more, text, whole⟩ := cuts_first char rest
  have proper := proper_first char rest
  have grammatical := grammatical_first char rest
  have covers {other : List Char} {reading : Meaning} (start : other <+: char :: rest)
      (lexeme : Lexeme other reading) : (Piece.first char rest).Covers other reading :=
    covers_first lexeme start.choose_spec
  have quoted (quote : char = quoteMark) (cause : Char) :
      (Piece.first char rest).meaning ≠ .fault (.unexpectedCharacter cause) := by
    rw [quote, first_quoteMark, Piece.string]
    split <;> simp
  generalize Piece.first char rest = piece at *
  obtain ⟨meaning, read, behind⟩ := piece
  dsimp only at text whole
  subst text
  have joined : char :: more ++ behind = char :: rest := congrArg (char :: ·) whole
  have longest (lexeme : Lexeme (char :: more) meaning) :
      Longest (char :: rest) (char :: more) meaning :=
    ⟨⟨behind, joined⟩, lexeme, fun _ _ start other => (covers start other).length⟩
  cases meaning with
  | blank | token kind => exact .lexeme joined (longest grammatical)
  | fault cause =>
      have none : Unreadable (char :: rest) := fun _ _ start other => by
        cases (covers start other).sound
      cases cause with
      | unterminatedString =>
          obtain ⟨rfl, tail, shape, -⟩ := proper
          cases shape
          rw [List.append_nil] at whole
          subst whole
          exact .unterminated rfl none
      | unexpectedCharacter found =>
          cases proper
          subst whole
          exact .unexpected rfl (fun quote => quoted quote _ rfl) none

/-- The longest lexeme cuts off one piece only. -/
theorem Munched.unique {text : List Char} {piece other : Piece} (one : Munched text piece)
    (two : Munched text other) : piece = other := by
  cases one with
  | @lexeme read rest meaning whole longest =>
      cases two with
      | @lexeme read' rest' meaning' whole' longest' =>
          have same : read = read' := by
            have le := longest'.longest _ _ longest.start longest.lexeme
            have ge := longest.longest _ _ longest'.start longest'.lexeme
            exact (List.prefix_of_prefix_length_le longest.start longest'.start le).eq_of_length
              (Nat.le_antisymm le ge)
          subst same
          rw [longest.lexeme.unique longest'.lexeme,
            List.append_cancel_left (whole.trans whole'.symm)]
      | unterminated _ none | unexpected _ _ none =>
          exact absurd longest.lexeme (none _ _ longest.start)
  | unterminated shape none =>
      cases two with
      | lexeme _ longest => exact absurd longest.lexeme (none _ _ longest.start)
      | unterminated _ _ => rfl
      | unexpected shape' other _ => exact absurd (List.cons.inj (shape'.symm.trans shape)).1 other
  | unexpected shape other none =>
      cases two with
      | lexeme _ longest => exact absurd longest.lexeme (none _ _ longest.start)
      | unterminated shape' _ => exact absurd (List.cons.inj (shape.symm.trans shape')).1 other
      | unexpected shape' _ _ =>
          obtain ⟨rfl, rfl⟩ := List.cons.inj (shape.symm.trans shape')
          rfl

/-! ## Spans -/

namespace Span

variable {source : String}

/-- The text from the start of a span on. -/
def ahead (span : Span source) : List Char := (String.extract span.start source.endPos).toList

/-- A span is the longest lexeme at its place, or a fault where there is none. -/
inductive Munches (span : Span source) : Option Item → Prop where
  | skipped (longest : Longest span.ahead span.text.toList .blank) : Munches span none
  | token (kind : Token.Kind) (longest : Longest span.ahead span.text.toList (.token kind)) :
      Munches span (some (.token ⟨kind, span.text, span.line⟩))
  | unterminated (error : LexicalError) (message : error.cause.message = "Unterminated string.")
      (line : error.line = span.line) (quote : span.ahead.head? = some quoteMark)
      (none : Unreadable span.ahead) (all : span.stop = source.endPos) :
      Munches span (some (.fault error))
  | unexpected (error : LexicalError) (char : Char)
      (message : error.cause.message = "Unexpected character: " ++ String.singleton char)
      (line : error.line = span.line) (other : char ≠ quoteMark) (none : Unreadable span.ahead)
      (text : span.text = String.singleton char) : Munches span (some (.fault error))

theorem ahead_of_splits {span : Span source} {before after : String}
    (front : span.start.Splits before after) : span.ahead = after.toList := by
  have whole : source.endPos.Splits (before ++ after) "" := by
    rw [← front.eq_append]
    exact source.splits_endPos
  rw [ahead, extract_of_splits (by rwa [String.append_empty]) whole]

/-- A piece that the longest lexeme cuts off is read into its item. -/
theorem munches_of_munched {span : Span source} {piece : Piece} {before : String}
    (munched : Munched span.ahead piece) (text : span.text = String.ofList piece.text)
    (back : span.stop.Splits (before ++ String.ofList piece.text) (String.ofList piece.rest)) :
    ∃ reading, span.Munches reading ∧ piece.items (1 + lineEnds before) = reading.toList := by
  have line : 1 + lineEnds before + piece.lineEnds = span.line := by
    rw [span.line_of_splits back, line_reached]
  have chars : span.text.toList = piece.text := by rw [text, String.toList_ofList]
  simp only [Piece.items, line, ← text]
  cases munched with
  | @lexeme read rest meaning _ longest =>
      have longest : Longest span.ahead span.text.toList meaning := chars ▸ longest
      cases meaning with
      | blank => exact ⟨_, .skipped longest, rfl⟩
      | token kind => exact ⟨_, .token kind longest, rfl⟩
      | fault cause => exact absurd longest.lexeme (not_lexeme_fault cause)
  | unterminated shape none =>
      have last : span.stop = source.endPos := back.eq_endPos_iff.mpr rfl
      have quote : span.ahead.head? = some quoteMark := by rw [shape, List.head?_cons]
      exact ⟨_, .unterminated ⟨.unterminatedString, span.line⟩ rfl rfl quote none last, rfl⟩
  | @unexpected char rest shape other none =>
      have one : span.text = String.singleton char := by rw [text, String.singleton_eq_ofList]
      exact ⟨_, .unexpected ⟨.unexpectedCharacter char, span.line⟩ char rfl rfl other none one, rfl⟩

end Span

/-- **The longest lexeme is read.** A source is tiled by spans, from each of which
the text ahead starts with some lexemes of the lexical grammar. If there are any,
the span is the longest of them, and it is skipped or read into the token that
the lexeme stands for. If there is none, then it is a fault: all the rest behind
a quote, and a single character otherwise. The items are those of the spans in
order, and then the end of the input. -/
theorem longest_lexeme_is_read (source : String) :
    ∃ (spans : List (Span source)) (readings : List (Option Item)),
      Tiles source.startPos spans ∧ List.Forall₂ Span.Munches spans readings ∧
      items source =
        readings.reduceOption ++ [.token ⟨.endOfInput, "", 1 + lineEnds source⟩] := by
  obtain ⟨body, cut, whole, -⟩ := exists_items source
  have start : source.startPos.Splits "" (String.ofList source.toList) := by
    rw [String.ofList_toList]
    exact source.splits_startPos
  have single (span : Span source) (before : String) (char : Char) (rest : List Char)
      (holds : span.Holds before char rest) : ∃ reading, span.Munches reading ∧
        (Piece.first char rest).items (1 + lineEnds before) = reading.toList := by
    refine Span.munches_of_munched ?_ holds.text holds.back
    rw [Span.ahead_of_splits holds.front, String.toList_ofList]
    exact munched_first char rest
  obtain ⟨spans, readings, tiles, munches, rfl⟩ := cut.tiles_of single start rfl
  exact ⟨spans, readings, tiles, munches, whole⟩

end Lexer

end LoxLang
