/-!
# Tokens

A token is a kind, the text it was read from and the line it ends on. The
kinds are the punctuators, the keywords, names, the two literals with their
values, and the end of the input.
-/

namespace LoxLang

set_option autoImplicit false

/-- The punctuators and operators. -/
inductive Punct where
  | leftParen | rightParen | leftBrace | rightBrace
  | comma | dot | minus | plus | semicolon | slash | star
  | bang | bangEqual | equal | equalEqual
  | greater | greaterEqual | less | lessEqual
  deriving DecidableEq, Repr

/-- The spelling of a punctuator. -/
def Punct.text : Punct → String
  | .leftParen => "("
  | .rightParen => ")"
  | .leftBrace => "\x7b"
  | .rightBrace => "\x7d"
  | .comma => ","
  | .dot => "."
  | .minus => "-"
  | .plus => "+"
  | .semicolon => ";"
  | .slash => "/"
  | .star => "*"
  | .bang => "!"
  | .bangEqual => "!="
  | .equal => "="
  | .equalEqual => "=="
  | .greater => ">"
  | .greaterEqual => ">="
  | .less => "<"
  | .lessEqual => "<="

/-- The reserved words. -/
inductive Keyword where
  | kwAnd | kwClass | kwElse | kwFalse | kwFor | kwFun | kwIf | kwNil
  | kwOr | kwPrint | kwReturn | kwSuper | kwThis | kwTrue | kwVar | kwWhile
  deriving DecidableEq, Repr

/-- The spelling of a reserved word. -/
def Keyword.text : Keyword → String
  | .kwAnd => "and"
  | .kwClass => "class"
  | .kwElse => "else"
  | .kwFalse => "false"
  | .kwFor => "for"
  | .kwFun => "fun"
  | .kwIf => "if"
  | .kwNil => "nil"
  | .kwOr => "or"
  | .kwPrint => "print"
  | .kwReturn => "return"
  | .kwSuper => "super"
  | .kwThis => "this"
  | .kwTrue => "true"
  | .kwVar => "var"
  | .kwWhile => "while"

/-- Every reserved word. -/
def Keyword.all : List Keyword :=
  [.kwAnd, .kwClass, .kwElse, .kwFalse, .kwFor, .kwFun, .kwIf, .kwNil,
    .kwOr, .kwPrint, .kwReturn, .kwSuper, .kwThis, .kwTrue, .kwVar, .kwWhile]

/-- The reserved word with a spelling. -/
def Keyword.ofText? (text : String) : Option Keyword :=
  Keyword.all.find? fun keyword => keyword.text == text

/-- What a token is. -/
inductive Token.Kind where
  | punct (mark : Punct)
  | keyword (word : Keyword)
  | identifier
  | string (contents : String)
  | number (value : Float)
  | endOfInput
  deriving DecidableEq, Repr

/-- A token: its kind, its text and the line it ends on. -/
structure Token where
  kind : Token.Kind
  lexeme : String
  line : Nat
  deriving DecidableEq, Repr

namespace Token

/-- Whether the token is a given punctuator. -/
def isPunct (mark : Punct) (token : Token) : Bool :=
  match token.kind with
  | .punct found => found == mark
  | _ => false

/-- Whether the token is a given reserved word. -/
def isKeyword (word : Keyword) (token : Token) : Bool :=
  match token.kind with
  | .keyword found => found == word
  | _ => false

/-- Whether the token is a name. -/
def isIdentifier (token : Token) : Bool :=
  match token.kind with
  | .identifier => true
  | _ => false

/-- Whether the token marks the end of the input. -/
def isEnd (token : Token) : Bool :=
  match token.kind with
  | .endOfInput => true
  | _ => false

end Token

end LoxLang
