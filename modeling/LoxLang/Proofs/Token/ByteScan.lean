import LoxLang.Token.Lexer

/-!
# A scan over the bytes of a source

A scan of the lexer holds the characters that are ahead of it. The same items can
be read by an index into the UTF-8 bytes of a source that never changes. Such a
scan goes on by a byte, or jumps, and then cuts the text of a token out of the
source. To take a byte where there is none is a stop of its own, and so is to cut
out a text between two indices that are not, in this order, places between
characters.

`current` and `lookahead` see zero behind the last byte, as they do at a byte that
is zero. The line goes up by one at a line end between tokens, and at each one
that the loop over a string comes across.
-/

namespace LoxLang

set_option autoImplicit false

namespace Lexer

/-- Why a scan over bytes stops: it took a byte at an index without one, it cut
out a text between two indices that do not bound one, or a loop went on for more
rounds than there are bytes. -/
inductive ByteStop where
  | outOfRange (index : Nat)
  | badSlice (start stop : Nat)
  | outOfRounds

/-- Where a scan over bytes stands: the index where the current token starts, the
index of the next byte, the line, and whether the end of the input has been
handed out. -/
structure ByteScan where
  source : String
  bytes : List UInt8
  start : Nat
  pos : Nat
  line : Nat
  ended : Bool

namespace ByteScan

/-- A step of a scan over bytes. -/
abbrev Step (Result : Type) := EStateM ByteStop ByteScan Result

/-- The start of a source. -/
def ofSource (source : String) : ByteScan := ⟨source, source.toUTF8.data.toList, 0, 0, 1, false⟩

/-! ## Looking and moving -/

/-- Whether all bytes have been passed. -/
def atEnd (scan : ByteScan) : Bool := decide (scan.bytes.length ≤ scan.pos)

/-- The next byte, or zero behind the last one, as a character. -/
def current (scan : ByteScan) : Char := Char.ofUInt8 (scan.bytes[scan.pos]?.getD 0)

/-- The byte behind the next one, or zero. -/
def lookahead (scan : ByteScan) : Char := Char.ofUInt8 (scan.bytes[scan.pos + 1]?.getD 0)

/-- Goes to another index. -/
def moveTo (scan : ByteScan) (pos : Nat) : ByteScan := { scan with pos := pos }

/-- Goes to the next line. -/
def newLine (scan : ByteScan) : ByteScan := { scan with line := scan.line + 1 }

/-- Takes the next byte, which has to be there. -/
def bump : Step Char := fun scan =>
  match scan.bytes[scan.pos]? with
  | some byte => .ok (Char.ofUInt8 byte) (scan.moveTo (scan.pos + 1))
  | none => .error (.outOfRange scan.pos) scan

/-- Takes the next byte if it is a given character. -/
def eat (char : Char) : Step Bool := fun scan =>
  if !scan.atEnd && scan.current == char then .ok true (scan.moveTo (scan.pos + 1))
  else .ok false scan

/-- Cuts the text between two indices out of the source. -/
def slice (start stop : Nat) : Step String := fun scan =>
  if proper : start ≤ stop ∧ String.Pos.Raw.IsValid scan.source ⟨start⟩ ∧
      String.Pos.Raw.IsValid scan.source ⟨stop⟩ then
    .ok (String.extract (scan.source.pos ⟨start⟩ proper.2.1) (scan.source.pos ⟨stop⟩ proper.2.2))
      scan
  else .error (.badSlice start stop) scan

/-- The text of the current token. -/
def lexeme : Step String := fun scan => slice scan.start scan.pos scan

/-! ## Tokens -/

/-- Moves on while the next byte passes a test. -/
def passWhile (test : Char → Bool) : Nat → Step Unit
  | 0 => fun scan => .error .outOfRounds scan
  | rounds + 1 => fun scan =>
    if test scan.current then passWhile test rounds (scan.moveTo (scan.pos + 1)) else .ok () scan

/-- Moves on while the next byte passes a test, for as long as there are bytes. -/
def pass (test : Char → Bool) : Step Unit := fun scan =>
  passWhile test (scan.bytes.length + 1) scan

/-- Moves on to a quote or to the end, and counts the lines. -/
def passQuoted : Nat → Step Unit
  | 0 => fun scan => .error .outOfRounds scan
  | rounds + 1 => fun scan =>
    if !scan.atEnd && scan.current != quoteMark then
      match bump scan with
      | .ok char moved => passQuoted rounds (if char == '\n' then moved.newLine else moved)
      | .error stop reached => .error stop reached
    else .ok () scan

/-- Jumps to the next line end. The bytes from the index on have to be there. -/
def passLine : Step Unit := fun scan =>
  if scan.bytes.length < scan.pos then .error (.outOfRange scan.pos) scan
  else
    match (scan.bytes.drop scan.pos).findIdx? (Char.ofUInt8 · == '\n') with
    | some offset => .ok () (scan.moveTo (scan.pos + offset))
    | none => .ok () (scan.moveTo scan.bytes.length)

/-- The string in front of the quote that is next. -/
def closeString : Step Meaning := do
  modify fun scan => scan.moveTo (scan.pos + 1)
  let scan ← get
  return .token (.string (← slice (scan.start + 1) (scan.pos - 1)))

/-- A string whose opening quote has been taken. -/
def string : Step Meaning := do
  passQuoted ((← get).bytes.length + 1)
  if (← get).atEnd then return .fault .unterminatedString
  else closeString

/-- The number that is written in the text of the current token. -/
def numeral : Step Meaning := do
  let text := (← lexeme).toList
  return .token (.number
    (Number.ofDigits (text.takeWhile (· != '.')) (text.dropWhile (· != '.')).tail))

/-- A number whose first digit has been taken. -/
def number : Step Meaning := do
  pass Char.isDigit
  let scan ← get
  if scan.current == '.' && scan.lookahead.isDigit then
    set (scan.moveTo (scan.pos + 1))
    pass Char.isDigit
    numeral
  else numeral

/-- A name whose first character has been taken, or a reserved word. -/
def name : Step Meaning := do
  pass isNamePart
  match Keyword.ofText? (← lexeme) with
  | some word => return .token (.keyword word)
  | none => return .token .identifier

/-- A character that starts no token is passed over with all its bytes. -/
def unexpected : Step Meaning := do
  let scan ← get
  let char := (← slice scan.start scan.bytes.length).toList.headD '\uFFFD'
  set (scan.moveTo (scan.start + char.utf8Size))
  return .fault (.unexpectedCharacter char)

/-- A punctuator, which is a longer one with an equals sign behind it. -/
def punctuator (longer shorter : Punct) : Step Meaning := do
  if ← eat '=' then return .token (.punct longer)
  else return .token (.punct shorter)

/-- A slash, or the comment that a second one makes of it. -/
def slash : Step Meaning := do
  if ← eat '/' then
    passLine
    return .blank
  else return .token (.punct .slash)

/-- What starts with a character that is no punctuator and has been taken. -/
def other (char : Char) : Step Meaning :=
  if char == ' ' || char == '\r' || char == '\t' then return .blank
  else if char == '\n' then do
    modify newLine
    return .blank
  else if char == quoteMark then string
  else if char.isDigit then number
  else if isNameStart char then name
  else unexpected

/-- Reads one token, one fault or one blank. -/
def piece : Step Meaning := do
  let char ← bump
  if char == '/' then slash
  else
    match punct? char, punctEqual? char with
    | some shorter, some longer => punctuator longer shorter
    | some mark, none => return .token (.punct mark)
    | none, _ => other char

/-! ## One item after another -/

/-- The next item, with blanks passed over. -/
def nextFrom : Nat → Step Item
  | 0 => fun scan => .error .outOfRounds scan
  | rounds + 1 => do
    let scan ← get
    if scan.atEnd then
      set { scan with ended := true }
      return .token ⟨.endOfInput, "", scan.line⟩
    else
      set { scan with start := scan.pos }
      match ← piece with
      | .blank => nextFrom rounds
      | .token kind =>
        let text ← lexeme
        return .token ⟨kind, text, (← get).line⟩
      | .fault cause => return .fault ⟨cause, (← get).line⟩

/-- The next item. Behind the end of the input there is none. -/
def next : Step (Option Item) := do
  let scan ← get
  if scan.ended then return none
  else return some (← nextFrom (scan.bytes.length + 1))

/-- What the scan answers when it is asked once more after a number of times. -/
def answer : Nat → Step (Option Item)
  | 0 => next
  | count + 1 => do
    let _ ← next
    answer count

end ByteScan

end Lexer

end LoxLang
