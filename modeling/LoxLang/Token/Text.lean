import LoxLang.Number.Text
import LoxLang.Text.Quoted
import LoxLang.Token.Basic

/-!
# How tokens are written

A token has two texts: one line with its label, its lexeme and its literal,
and an object on one line. Labels are upper-case words.
-/

namespace LoxLang

set_option autoImplicit false

/-- The label of a punctuator. -/
def Punct.label : Punct → String
  | .leftParen => "LEFT_PAREN"
  | .rightParen => "RIGHT_PAREN"
  | .leftBrace => "LEFT_BRACE"
  | .rightBrace => "RIGHT_BRACE"
  | .comma => "COMMA"
  | .dot => "DOT"
  | .minus => "MINUS"
  | .plus => "PLUS"
  | .semicolon => "SEMICOLON"
  | .slash => "SLASH"
  | .star => "STAR"
  | .bang => "BANG"
  | .bangEqual => "BANG_EQUAL"
  | .equal => "EQUAL"
  | .equalEqual => "EQUAL_EQUAL"
  | .greater => "GREATER"
  | .greaterEqual => "GREATER_EQUAL"
  | .less => "LESS"
  | .lessEqual => "LESS_EQUAL"

/-- Every punctuator. -/
def Punct.all : List Punct :=
  [.leftParen, .rightParen, .leftBrace, .rightBrace, .comma, .dot, .minus, .plus, .semicolon,
    .slash, .star, .bang, .bangEqual, .equal, .equalEqual, .greater, .greaterEqual, .less,
    .lessEqual]

/-- The label of a reserved word is its spelling in capitals. -/
def Keyword.label (keyword : Keyword) : String := keyword.text.toUpper

namespace Token

/-- The label of a kind of token. -/
def Kind.label : Kind → String
  | .punct mark => mark.label
  | .keyword word => word.label
  | .identifier => "IDENTIFIER"
  | .string _ => "STRING"
  | .number _ => "NUMBER"
  | .endOfInput => "EOF"

/-- The kind with a label, where the two literal kinds take their value from
the caller. -/
def Kind.ofLabel? (contents : String) (value : Float) (label : String) : Option Kind :=
  let kinds := Punct.all.map Kind.punct ++ Keyword.all.map Kind.keyword ++
    [.identifier, .string contents, .number value, .endOfInput]
  kinds.find? fun kind => kind.label == label

/-- The literal column: the value of a literal, and a fixed word otherwise. -/
def literalText (token : Token) : String :=
  match token.kind with
  | .string contents => contents
  | .number value => Number.text Number.columnStyle value
  | _ => "null"

/-- The token on one line: label, lexeme, literal. -/
def text (token : Token) : String :=
  token.kind.label ++ " " ++ token.lexeme ++ " " ++ token.literalText

/-- The kind of a token inside its object. -/
def Kind.objectText (kind : Kind) : String :=
  match kind with
  | .string contents =>
    "\x7b\"STRING\":" ++ Text.Quoted.quote Text.Quoted.objectEscape contents ++ "\x7d"
  | .number value => "\x7b\"NUMBER\":" ++ Number.objectText value ++ "\x7d"
  | _ => "\"" ++ kind.label ++ "\""

/-- The token as an object on one line. -/
def objectText (token : Token) : String :=
  "\x7b\"token_type\":" ++ token.kind.objectText ++
    ",\"lexeme\":" ++ Text.Quoted.quote Text.Quoted.objectEscape token.lexeme ++
    ",\"line\":" ++ token.line.repr ++ "\x7d"

end Token

end LoxLang
