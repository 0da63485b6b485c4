import LoxLang.Token.Basic

/-!
# Diagnostics

What can go wrong, as causes, and the wording of each cause. Faults of the
source text have a line. Faults of the grammar and of the scopes also have a
place, the token they were found at or the end of the input. Faults of a run
have a line. Faults of the output have neither.
-/

namespace LoxLang

set_option autoImplicit false

/-! ## Places -/

/-- The place of a fault: the end of the input or a token with a lexeme. -/
inductive Place where
  | atEnd
  | atLexeme (lexeme : String)
  deriving DecidableEq, Repr

/-- The words that point at a place. -/
def Place.text : Place → String
  | .atEnd => " at end"
  | .atLexeme lexeme => " at '" ++ lexeme ++ "'"

/-- The place of a token. -/
def Token.place (token : Token) : Place :=
  if token.isEnd then .atEnd else .atLexeme token.lexeme

/-- A cause with its line and place. -/
structure Located (Cause : Type) where
  cause : Cause
  line : Nat
  place : Place
  deriving DecidableEq, Repr

/-- A cause found at a token. -/
def Located.ofToken {Cause : Type} (cause : Cause) (token : Token) : Located Cause :=
  ⟨cause, token.line, token.place⟩

/-! ## Faults of the source text -/

/-- Why a piece of source is no token. -/
inductive LexicalCause where
  | unexpectedCharacter (char : Char)
  | unterminatedString
  deriving DecidableEq, Repr

/-- The wording of a lexical cause. -/
def LexicalCause.message : LexicalCause → String
  | .unexpectedCharacter char => "Unexpected character: " ++ char.toString
  | .unterminatedString => "Unterminated string."

/-- A fault of the source text. -/
structure LexicalError where
  cause : LexicalCause
  line : Nat
  deriving DecidableEq, Repr

/-! ## Faults of the grammar -/

/-- The two sorts of named bodies, which differ in wording only. -/
inductive Callee where
  | function
  | method
  deriving DecidableEq, Repr

/-- The word for a sort of body. -/
def Callee.word : Callee → String
  | .function => "function"
  | .method => "method"

/-- What the grammar asked for and did not find. -/
inductive Expectation where
  | className | superclassName | classBody | classEnd
  | calleeName (callee : Callee) | parameterList (callee : Callee) | calleeBody (callee : Callee)
  | parameterName | parameterListEnd
  | variableName | variableEnd
  | forClauses | forConditionEnd | forClausesEnd
  | valueEnd | expressionEnd | returnEnd | blockEnd
  | ifCondition | whileCondition | conditionEnd
  | propertyName | argumentListEnd | superDot | superMethod | groupEnd
  | expression | endOfExpression
  deriving DecidableEq, Repr

/-- The wording of an expectation. -/
def Expectation.text : Expectation → String
  | .className => "class name"
  | .superclassName => "superclass name"
  | .classBody => "'\x7b' before class body"
  | .classEnd => "'\x7d' after class body"
  | .calleeName callee => callee.word ++ " name"
  | .parameterList callee => "'(' after " ++ callee.word ++ " name"
  | .calleeBody callee => "'\x7b' before " ++ callee.word ++ " body"
  | .parameterName => "parameter name"
  | .parameterListEnd => "')' after parameters"
  | .variableName => "variable name"
  | .variableEnd => "';' after variable declaration"
  | .forClauses => "'(' after 'for'"
  | .forConditionEnd => "';' after loop condition"
  | .forClausesEnd => "')' after for clauses"
  | .valueEnd => "';' after value"
  | .expressionEnd => "';' after expression"
  | .returnEnd => "';' after return value"
  | .blockEnd => "'\x7d' after block"
  | .ifCondition => "'(' after 'if'"
  | .whileCondition => "'(' after 'while'"
  | .conditionEnd => "')' after condition"
  | .propertyName => "property name after '.'"
  | .argumentListEnd => "')' after arguments"
  | .superDot => "'.' after 'super'"
  | .superMethod => "superclass method name"
  | .groupEnd => "')' after expression"
  | .expression => "expression"
  | .endOfExpression => "end of expression"

/-- Why tokens do not follow the grammar. -/
inductive GrammarCause where
  | expected (expectation : Expectation)
  | invalidAssignmentTarget
  | tooManyParameters
  | tooManyArguments
  deriving DecidableEq, Repr

/-- The most parameters, and the most arguments, that a list may have. -/
def listLimit : Nat := 255

/-- The wording of a grammar cause. -/
def GrammarCause.message : GrammarCause → String
  | .expected expectation => "Expected " ++ expectation.text
  | .invalidAssignmentTarget => "Invalid assignment target"
  | .tooManyParameters => "Cannot have more than " ++ listLimit.repr ++ " parameters"
  | .tooManyArguments => "Cannot have more than " ++ listLimit.repr ++ " arguments"

/-- A fault of the grammar. -/
abbrev GrammarError := Located GrammarCause

/-! ## Faults of the scopes -/

/-- Why a tree breaks a rule on names, `return`, `this` or `super`. -/
inductive BindingCause where
  | alreadyDeclared
  | readInOwnInitializer
  | returnAtTopLevel
  | returnValueFromInitializer
  | thisOutsideClass
  | superOutsideClass
  | superWithoutSuperclass
  | inheritsFromItself
  deriving DecidableEq, Repr

/-- The wording of a binding cause. -/
def BindingCause.message : BindingCause → String
  | .alreadyDeclared => "Already a variable with this name in this scope."
  | .readInOwnInitializer => "Can't read local variable in its own initializer."
  | .returnAtTopLevel => "Can't return from top-level code."
  | .returnValueFromInitializer => "Can't return a value from an initializer."
  | .thisOutsideClass => "Can't use 'this' outside of a class."
  | .superOutsideClass => "Can't use 'super' outside of a class."
  | .superWithoutSuperclass => "Can't use 'super' in a class with no superclass."
  | .inheritsFromItself => "A class can't inherit from itself."

/-- A fault of the scopes. -/
abbrev BindingError := Located BindingCause

/-! ## Faults of a run -/

/-- Why a run stops. -/
inductive RuntimeCause where
  | undefinedVariable (name : String)
  | missingScope (distance : Nat) (name : String)
  | undefinedProperty (name : String)
  | operandNotNumber
  | operandsNotNumbers
  | operandsNotAddable
  | invalidUnaryOperator
  | invalidBinaryOperator
  | notCallable
  | wrongArgumentCount (expected found : Nat)
  | stackOverflow
  | noProperties
  | noFields
  | superclassNotClass
  | superNotHere
  deriving DecidableEq, Repr

/-- The wording of a runtime cause. -/
def RuntimeCause.message : RuntimeCause → String
  | .undefinedVariable name => "Undefined variable '" ++ name ++ "'."
  | .missingScope distance name =>
    "No scope " ++ distance.repr ++ " level(s) up for '" ++ name ++ "'."
  | .undefinedProperty name => "Undefined property '" ++ name ++ "'."
  | .operandNotNumber => "Operand must be a number."
  | .operandsNotNumbers => "Operands must be numbers."
  | .operandsNotAddable => "Operands must be two numbers or two strings."
  | .invalidUnaryOperator => "Invalid unary operator."
  | .invalidBinaryOperator => "Invalid binary operator."
  | .notCallable => "Can only call functions and classes."
  | .wrongArgumentCount expected found =>
    "Expected " ++ expected.repr ++ " arguments but got " ++ found.repr ++ "."
  | .stackOverflow => "Stack overflow."
  | .noProperties => "Only instances have properties."
  | .noFields => "Only instances have fields."
  | .superclassNotClass => "Superclass must be a class."
  | .superNotHere => "Can't use 'super' here."

/-- A fault of a run. -/
structure RuntimeError where
  cause : RuntimeCause
  line : Nat
  deriving DecidableEq, Repr

/-! ## Faults of the output -/

/-- Why a sink fails. -/
inductive SinkFault where
  | full
  | flushFailed
  deriving DecidableEq, Repr

/-- The wording of a sink fault. -/
def SinkFault.message : SinkFault → String
  | .full => "sink is full"
  | .flushFailed => "flush failed"

/-! ## All of them together -/

/-- Anything that can be reported. -/
inductive Diagnostic where
  | lexical (error : LexicalError)
  | grammar (error : GrammarError)
  | binding (error : BindingError)
  | runtime (error : RuntimeError)
  | output (fault : SinkFault)
  deriving DecidableEq, Repr

namespace Diagnostic

/-- The wording of the cause. -/
def message : Diagnostic → String
  | lexical error => error.cause.message
  | grammar error => error.cause.message
  | binding error => error.cause.message
  | runtime error => error.cause.message
  | output fault => fault.message

/-- The line, where there is one. -/
def line? : Diagnostic → Option Nat
  | lexical error => some error.line
  | grammar error => some error.line
  | binding error => some error.line
  | runtime error => some error.line
  | output _ => none

/-- The place, where there is one. -/
def place? : Diagnostic → Option Place
  | grammar error => some error.place
  | binding error => some error.place
  | _ => none

/-- Whether the fault was found before anything ran. -/
def isStatic : Diagnostic → Bool
  | lexical _ => true
  | grammar _ => true
  | binding _ => true
  | _ => false

/-- Whether the fault is one of a run. -/
def isRuntime : Diagnostic → Bool
  | runtime _ => true
  | _ => false

/-- The line in front of a static fault. -/
def heading (line : Nat) (place : String) (message : String) : String :=
  "[line " ++ line.repr ++ "] Error" ++ place ++ ": " ++ message

/-- The text that is shown for a diagnostic. -/
def text : Diagnostic → String
  | lexical error => heading error.line "" error.cause.message
  | grammar error => heading error.line error.place.text error.cause.message
  | binding error => heading error.line error.place.text error.cause.message
  | runtime error => error.cause.message ++ "\n[line " ++ error.line.repr ++ "]"
  | output fault => fault.message

end Diagnostic

end LoxLang
