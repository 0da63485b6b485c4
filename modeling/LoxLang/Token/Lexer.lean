import LoxLang.Diagnostic
import LoxLang.Number.Decimal

/-!
# From source text to tokens

The source is cut into pieces from left to right. A piece is a token, a blank
(white space or a comment) or a fault, and it is decided by the characters at
its start alone (`Piece.first`). The pieces put together are the source, so
the line reached after a piece is the line before it plus the line ends inside
it. A token carries the line reached at its end.

Names take as many letters as they can before they are compared with the
reserved words, and operators of two characters go before those of one.

A source can be read into all its items at once (`Lexer.items`) or asked for
one after another (`Lexer.Scan.next`).
-/

namespace LoxLang

set_option autoImplicit false

namespace Lexer

/-! ## Classes of characters -/

/-- White space between tokens. -/
def isBlank (char : Char) : Bool :=
  char == ' ' || char == '\r' || char == '\t' || char == '\n'

/-- The characters a name may start with. -/
def isNameStart (char : Char) : Bool := char.isAlpha || char == '_'

/-- The characters a name may go on with. -/
def isNamePart (char : Char) : Bool := isNameStart char || char.isDigit

/-- The character on both sides of a string. -/
def quoteMark : Char := '\x22'

/-- The punctuator of one character. -/
def punct? : Char → Option Punct
  | '(' => some .leftParen
  | ')' => some .rightParen
  | '\x7b' => some .leftBrace
  | '\x7d' => some .rightBrace
  | ',' => some .comma
  | '.' => some .dot
  | '-' => some .minus
  | '+' => some .plus
  | ';' => some .semicolon
  | '/' => some .slash
  | '*' => some .star
  | '!' => some .bang
  | '=' => some .equal
  | '<' => some .less
  | '>' => some .greater
  | _ => none

/-- The punctuator that a following equals sign makes of a character. -/
def punctEqual? : Char → Option Punct
  | '!' => some .bangEqual
  | '=' => some .equalEqual
  | '<' => some .lessEqual
  | '>' => some .greaterEqual
  | _ => none

/-! ## Pieces -/

/-- What a piece of source stands for. -/
inductive Meaning where
  | blank
  | token (kind : Token.Kind)
  | fault (cause : LexicalCause)

/-- A piece of source and what comes after it. -/
structure Piece where
  meaning : Meaning
  text : List Char
  rest : List Char

namespace Piece

/-- A comment, of which the first slash has been seen and the second is the
head of the rest. It stops in front of the line end. -/
def comment (rest : List Char) : Piece :=
  ⟨.blank, '/' :: rest.takeWhile (· != '\n'), rest.dropWhile (· != '\n')⟩

/-- A string whose opening quote has been seen. Without a closing quote all
the rest is one fault. -/
def string (rest : List Char) : Piece :=
  let body := rest.takeWhile (· != quoteMark)
  match rest.dropWhile (· != quoteMark) with
  | [] => ⟨.fault .unterminatedString, quoteMark :: rest, []⟩
  | _ :: after =>
    ⟨.token (.string (String.ofList body)), quoteMark :: (body ++ [quoteMark]), after⟩

/-- A number with its first digit. A point belongs to it only in front of
another digit. -/
def number (digit : Char) (rest : List Char) : Piece :=
  let whole := digit :: rest.takeWhile Char.isDigit
  let after := rest.dropWhile Char.isDigit
  match after with
  | '.' :: next :: more =>
    if next.isDigit then
      let fraction := next :: more.takeWhile Char.isDigit
      ⟨.token (.number (Number.ofDigits whole fraction)), whole ++ '.' :: fraction,
        more.dropWhile Char.isDigit⟩
    else ⟨.token (.number (Number.ofDigits whole [])), whole, after⟩
  | _ => ⟨.token (.number (Number.ofDigits whole [])), whole, after⟩

/-- A name with its first character, or the reserved word with that
spelling. -/
def name (char : Char) (rest : List Char) : Piece :=
  let text := char :: rest.takeWhile isNamePart
  let kind : Token.Kind := match Keyword.ofText? (String.ofList text) with
    | some word => .keyword word
    | none => .identifier
  ⟨.token kind, text, rest.dropWhile isNamePart⟩

/-- A punctuator, or a fault for a character that starts no token. -/
def mark (char : Char) (rest : List Char) : Piece :=
  match punctEqual? char, rest with
  | some longer, '=' :: after => ⟨.token (.punct longer), [char, '='], after⟩
  | _, _ =>
    match punct? char with
    | some shorter => ⟨.token (.punct shorter), [char], rest⟩
    | none => ⟨.fault (.unexpectedCharacter char), [char], rest⟩

/-- The piece that starts with a character, given what follows it. -/
def first (char : Char) (rest : List Char) : Piece :=
  if isBlank char then ⟨.blank, [char], rest⟩
  else if char == '/' && rest.head? == some '/' then comment rest
  else if char == quoteMark then string rest
  else if char.isDigit then number char rest
  else if isNameStart char then name char rest
  else mark char rest

/-- The line ends inside a piece. -/
def lineEnds (piece : Piece) : Nat := piece.text.count '\n'

end Piece

/-! ## The whole source -/

/-- What the source is read into, in order. -/
inductive Item where
  | token (found : Token)
  | fault (found : LexicalError)
  deriving DecidableEq, Repr

/-- The items from a given line on; the fuel is at least the number of
characters left. The last item is the end of the input. -/
def itemsFrom : Nat → Nat → List Char → List Item
  | 0, line, _ => [.token ⟨.endOfInput, "", line⟩]
  | _ + 1, line, [] => [.token ⟨.endOfInput, "", line⟩]
  | fuel + 1, line, char :: rest =>
    let piece := Piece.first char rest
    let reached := line + piece.lineEnds
    match piece.meaning with
    | .blank => itemsFrom fuel reached piece.rest
    | .token kind =>
      .token ⟨kind, String.ofList piece.text, reached⟩ :: itemsFrom fuel reached piece.rest
    | .fault cause => .fault ⟨cause, reached⟩ :: itemsFrom fuel reached piece.rest

/-- The items of a source text. -/
def items (source : String) : List Item :=
  itemsFrom source.toList.length 1 source.toList

/-- The token of an item. -/
def Item.token? : Item → Option Token
  | .token found => some found
  | .fault _ => none

/-- The fault of an item. -/
def Item.fault? : Item → Option LexicalError
  | .token _ => none
  | .fault found => some found

/-- The tokens of a source text, faults left out. -/
def tokens (source : String) : List Token := (items source).filterMap Item.token?

/-- The faults of a source text. -/
def faults (source : String) : List LexicalError := (items source).filterMap Item.fault?

/-! ## One item after another -/

/-- Where a scan stands: the text ahead, the line reached, and whether the end
of the input has been handed out. -/
structure Scan where
  ahead : List Char
  line : Nat
  ended : Bool

namespace Scan

/-- The start of a source text. -/
def start (source : String) : Scan := ⟨source.toList, 1, false⟩

/-- The next item from a given line on, with blanks passed over, and the scan
behind it; the fuel is at least the number of characters ahead. -/
def nextFrom : Nat → Nat → List Char → Item × Scan
  | 0, line, ahead => (.token ⟨.endOfInput, "", line⟩, ⟨ahead, line, true⟩)
  | _ + 1, line, [] => (.token ⟨.endOfInput, "", line⟩, ⟨[], line, true⟩)
  | fuel + 1, line, char :: rest =>
    let piece := Piece.first char rest
    let reached := line + piece.lineEnds
    match piece.meaning with
    | .blank => nextFrom fuel reached piece.rest
    | .token kind =>
      (.token ⟨kind, String.ofList piece.text, reached⟩, ⟨piece.rest, reached, false⟩)
    | .fault cause => (.fault ⟨cause, reached⟩, ⟨piece.rest, reached, false⟩)

/-- The next item and the scan behind it. Behind the end of the input there is
no item. -/
def next (scan : Scan) : Option Item × Scan :=
  if scan.ended then (none, scan)
  else
    let (item, behind) := nextFrom scan.ahead.length scan.line scan.ahead
    (some item, behind)

/-- What a scan answers when it is asked once more after a number of times. -/
def answer (scan : Scan) : Nat → Option Item
  | 0 => scan.next.1
  | count + 1 => scan.next.2.answer count

end Scan

end Lexer

end LoxLang
