import LoxLang.Diagnostic
import LoxLang.Tree.Basic

/-!
# Reading tokens

The state of a reader is what is left of the token stream, the errors reported
so far and the next free node number. A reading step either goes on with a
result or stops with a fault; the state is kept in both cases, so that reading
can go on behind a fault.

A step may also stop because its fuel is used up. The grammar hands out fuel
by the length of the stream, and that is always enough.
-/

namespace LoxLang

set_option autoImplicit false

/-- Tokens up to the end of the input, and the line of that end. -/
structure TokenStream where
  tokens : List Token
  endLine : Nat
  deriving DecidableEq, Repr

/-- The stream of a token list. The first end marker ends it. Without one it
ends on the line of the last token, and an empty list on line one. -/
def TokenStream.ofTokens (tokens : List Token) : TokenStream where
  tokens := tokens.takeWhile fun token => !token.isEnd
  endLine := match tokens.find? Token.isEnd with
    | some marker => marker.line
    | none => match tokens.getLast? with
      | some last => last.line
      | none => 1

/-- Where reading stands. -/
structure ReaderState where
  rest : List Token
  endLine : Nat
  errors : List GrammarError
  nextId : Nat

/-- Why reading stops. -/
inductive ReaderStop where
  | fault (error : GrammarError)
  | outOfFuel

/-- A reading step. -/
abbrev Reader (Result : Type) := EStateM ReaderStop ReaderState Result

namespace ReaderState

/-- The start of a stream. -/
def start (stream : TokenStream) (nextId : Nat) : ReaderState :=
  ⟨stream.tokens, stream.endLine, [], nextId⟩

/-- A cause located at the next token. -/
def located (state : ReaderState) (cause : GrammarCause) : GrammarError :=
  match state.rest with
  | token :: _ => ⟨cause, token.line, .atLexeme token.lexeme⟩
  | [] => ⟨cause, state.endLine, .atEnd⟩

/-- Adds an error to those reported. -/
def report (state : ReaderState) (error : GrammarError) : ReaderState :=
  { state with errors := state.errors ++ [error] }

end ReaderState

namespace Reader

variable {Result : Type}

/-- Stops because fuel is used up. -/
def outOfFuel : Reader Result := fun state => .error .outOfFuel state

/-- Stops with a fault at the next token. -/
def fail (expectation : Expectation) : Reader Result := fun state =>
  .error (.fault (state.located (.expected expectation))) state

/-- Reports a cause at the next token and goes on. -/
def reportHere (cause : GrammarCause) : Reader Unit := fun state =>
  .ok () (state.report (state.located cause))

/-- Reports a cause at a token and goes on. -/
def reportAt (token : Token) (cause : GrammarCause) : Reader Unit := fun state =>
  .ok () (state.report (Located.ofToken cause token))

/-- Draws a node number. -/
def freshId : Reader Nat := fun state =>
  .ok state.nextId { state with nextId := state.nextId + 1 }

/-- Whether the input has ended. -/
def atEnd : Reader Bool := fun state => .ok state.rest.isEmpty state

/-- Whether the next token passes a test; at the end none does. -/
def upcoming (test : Token → Bool) : Reader Bool := fun state =>
  match state.rest with
  | token :: _ => .ok (test token) state
  | [] => .ok false state

/-- Takes the next token if it passes a test. -/
def accept? (test : Token → Bool) : Reader (Option Token) := fun state =>
  match state.rest with
  | token :: rest =>
    if test token then .ok (some token) { state with rest := rest } else .ok none state
  | [] => .ok none state

/-- Takes the next token if it belongs to a class, with its place there. -/
def acceptAs? {Class : Type} (classify : Token → Option Class) :
    Reader (Option (Token × Class)) := fun state =>
  match state.rest with
  | token :: rest => match classify token with
    | some found => .ok (some (token, found)) { state with rest := rest }
    | none => .ok none state
  | [] => .ok none state

/-- Takes the next token, which has to pass a test. -/
def expect (test : Token → Bool) (expectation : Expectation) : Reader Token := fun state =>
  match state.rest with
  | token :: rest =>
    if test token then .ok token { state with rest := rest }
    else .error (.fault (state.located (.expected expectation))) state
  | [] => .error (.fault (state.located (.expected expectation))) state

/-- Takes the next token if it is a given punctuator. -/
def acceptPunct? (mark : Punct) : Reader (Option Token) := accept? (Token.isPunct mark)

/-- Takes the next token if it is a given reserved word. -/
def acceptKeyword? (word : Keyword) : Reader (Option Token) := accept? (Token.isKeyword word)

/-- Takes a given punctuator. -/
def expectPunct (mark : Punct) (expectation : Expectation) : Reader Token :=
  expect (Token.isPunct mark) expectation

/-- Takes a name. -/
def expectIdentifier (expectation : Expectation) : Reader Token :=
  expect Token.isIdentifier expectation

/-! ## Going on behind a fault -/

/-- Whether a token opens a declaration or a statement. -/
def opensStatement (token : Token) : Bool :=
  match token.kind with
  | .keyword word => match word with
    | .kwClass | .kwFun | .kwVar | .kwFor | .kwIf | .kwWhile | .kwPrint | .kwReturn => true
    | _ => false
  | _ => false

/-- Drops tokens until the last one dropped is a semicolon or the next one
opens a statement. -/
def boundaryAfter (dropped : Token) : List Token → List Token
  | [] => []
  | token :: rest =>
    if dropped.isPunct .semicolon || opensStatement token then token :: rest
    else boundaryAfter token rest

/-- The next statement boundary behind a fault; the token at the fault is
always dropped. -/
def boundary : List Token → List Token
  | [] => []
  | token :: rest => boundaryAfter token rest

/-- Runs a step. A fault is reported, and reading goes on at the next statement
boundary without a result. -/
def recover (step : Reader Result) : Reader (Option Result) := fun state =>
  match step state with
  | .ok result reached => .ok (some result) reached
  | .error (.fault error) reached =>
    .ok none { reached.report error with rest := boundary reached.rest }
  | .error .outOfFuel reached => .error .outOfFuel reached

end Reader

end LoxLang
