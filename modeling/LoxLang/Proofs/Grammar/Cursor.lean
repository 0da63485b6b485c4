import LoxLang.Proofs.Grammar.Plans

/-!
# A cursor over the tokens

The reader of the grammar holds the tokens that are left. The same rules can be
followed by an index into a list of tokens that never changes. Such a cursor
looks at the token at `current` and at the one before it, and moves on by one.
To look where no token stands is a stop of its own, `outOfRange`, which nothing
recovers from.

Only `peek` and `previous` look at tokens and only `advance` moves. All that
the rules do goes through these three, as in a parser over an array. What the
rules do is taken from their plans, step by step (`Cursor.follow`). The trail
of a cursor keeps each look with the index that the cursor stood at, and each
declaration with the indices in front of it and behind it.
-/

namespace LoxLang

set_option autoImplicit false

/-- What a cursor has done: looked at the next token or at the one before while
it stood at an index, or gone through a declaration from one index to another. -/
inductive Event where
  | next (current : Nat)
  | previous (current : Nat)
  | declared (start stop : Nat)
  deriving DecidableEq, Repr

/-- Where a cursor stands in its tokens, and what it has done so far. -/
structure Cursor where
  tokens : List Token
  current : Nat
  errors : List GrammarError
  nextId : Nat
  trail : List Event

/-- Why a cursor stops. -/
inductive CursorStop where
  | fault (error : GrammarError)
  | outOfFuel
  | outOfRange

namespace Cursor

/-- A step of a cursor. -/
abbrev Step (Result : Type) := EStateM CursorStop Cursor Result

/-- Tokens with an end marker behind them. One is added if the last token is
none, on the line of that token, or on line one if there is no token. -/
def closed (tokens : List Token) : List Token :=
  match tokens.getLast? with
  | some last => if last.isEnd then tokens else tokens ++ [⟨.endOfInput, "", last.line⟩]
  | none => [⟨.endOfInput, "", 1⟩]

/-- The index of the first end marker. -/
def firstEnd (tokens : List Token) : Nat := (closed tokens).findIdx Token.isEnd

/-- A cursor in front of a token list. -/
def start (tokens : List Token) (nextId : Nat) : Cursor := ⟨closed tokens, 0, [], nextId, []⟩

/-- Puts an event on the trail. -/
def note (cursor : Cursor) (event : Event) : Cursor :=
  { cursor with trail := cursor.trail ++ [event] }

variable {Result : Type}

/-! ## Looking and moving -/

/-- Stops for a reason. -/
def stop (reason : CursorStop) : Step Result := fun cursor => .error reason cursor

/-- Looks at the next token. -/
def peek : Step Token := fun cursor =>
  match cursor.tokens[cursor.current]? with
  | some token => .ok token (cursor.note (.next cursor.current))
  | none => .error .outOfRange (cursor.note (.next cursor.current))

/-- Looks at the token before. In front of the first token there is none. -/
def previous : Step Token := fun cursor =>
  match cursor.current with
  | 0 => .error .outOfRange (cursor.note (.previous 0))
  | before + 1 => match cursor.tokens[before]? with
    | some token => .ok token (cursor.note (.previous (before + 1)))
    | none => .error .outOfRange (cursor.note (.previous (before + 1)))

/-- Goes to the next index. -/
def move : Step Unit := fun cursor => .ok () { cursor with current := cursor.current + 1 }

/-- Whether the next token is an end marker. -/
def isAtEnd : Step Bool := do return (← peek).isEnd

/-- Moves unless the next token is an end marker, and looks at the token before. -/
def advance : Step Token := do
  if ← isAtEnd then previous
  else
    move
    previous

/-- Whether the next token is no end marker and passes a test. -/
def check (test : Token → Bool) : Step Bool := do
  if ← isAtEnd then return false
  else return test (← peek)

/-! ## The steps that rules are made of -/

/-- Draws a node number. -/
def freshId : Step Nat := fun cursor =>
  .ok cursor.nextId { cursor with nextId := cursor.nextId + 1 }

/-- Adds an error to those reported. -/
def report (error : GrammarError) : Step Unit := fun cursor =>
  .ok () { cursor with errors := cursor.errors ++ [error] }

/-- Reports a cause at a token and goes on. -/
def reportAt (token : Token) (cause : GrammarCause) : Step Unit :=
  report (Located.ofToken cause token)

/-- Reports a cause at the next token and goes on. -/
def reportHere (cause : GrammarCause) : Step Unit := do reportAt (← peek) cause

/-- Stops with a fault at the next token. -/
def fail (expectation : Expectation) : Step Result := do
  stop (.fault (Located.ofToken (.expected expectation) (← peek)))

/-- Takes the next token if it passes a test. -/
def accept? (test : Token → Bool) : Step (Option Token) := do
  if ← check test then return some (← advance)
  else return none

/-- Takes the next token if it belongs to a class, with its place there. -/
def acceptAs? {Class : Type} (classify : Token → Option Class) :
    Step (Option (Token × Class)) := do
  if ← isAtEnd then return none
  else
    match classify (← peek) with
    | some found => return some (← advance, found)
    | none => return none

/-- Takes the next token, which has to pass a test. -/
def expect (test : Token → Bool) (expectation : Expectation) : Step Token := do
  if ← check test then advance
  else fail expectation

/-! ## Going on behind a fault -/

/-- Advances to a statement boundary, in so many rounds at most: the token
before is a semicolon, or the next one opens a statement, or none is left. -/
def skip : Nat → Step Unit
  | 0 => stop .outOfFuel
  | rounds + 1 => do
    if ← isAtEnd then return
    else if (← previous).isPunct .semicolon then return
    else if Reader.opensStatement (← peek) then return
    else
      let _ ← advance
      skip rounds

/-- Advances over the token at a fault and on to a statement boundary. -/
def synchronize : Step Unit := do
  let _ ← advance
  fun cursor => skip (cursor.tokens.length - cursor.current) cursor

/-- Runs a step. A fault is reported, and the cursor goes on at the next
statement boundary without a result. -/
def recover (step : Step Result) : Step (Option Result) := fun cursor =>
  match step cursor with
  | .ok result reached => .ok (some result) reached
  | .error (.fault error) reached => (do
      report error
      synchronize
      return none : Step (Option Result)) reached
  | .error .outOfFuel reached => .error .outOfFuel reached
  | .error .outOfRange reached => .error .outOfRange reached

/-- Runs a declaration, and notes from where to where it went. -/
def charted (step : Step Result) : Step Result := fun cursor =>
  match step cursor with
  | .ok result reached => .ok result (reached.note (.declared cursor.current reached.current))
  | .error reason reached => .error reason reached

/-! ## The rules -/

/-- A declaration that is charted and recovered from, unless the input or the list
has ended. -/
def declared? (stop : Bool) (declaration : Step Stmt) : Step (Option (Option Stmt)) := do
  if stop || (← isAtEnd) then return none
  else return some (← charted (recover declaration))

/-- Goes through a plan, with the steps for the rules it calls on. -/
def follow (rules : {Result : Type} → Rule Result → Step Result) {Result : Type} :
    Plan Result → Step Result
  | .done result => pure result
  | .andThen first next => follow rules first >>= fun part => follow rules (next part)
  | .call rule => rules rule
  | .fail expectation => fail expectation
  | .limit count cause => if listLimit ≤ count then reportHere cause else pure ()
  | .reportAt token cause => reportAt token cause
  | .freshId => freshId
  | .atEnd => isAtEnd
  | .upcoming test => check test
  | .accept? test => accept? test
  | .acceptAs? classify => acceptAs? classify
  | .expect test expectation => expect test expectation
  | .declared? stop => declared? stop (rules .declaration)

/-- Goes through the plan of a rule, with fuel for the depth of calls. -/
def rule : Nat → {Result : Type} → Rule Result → Step Result
  | 0, _, _ => stop .outOfFuel
  | fuel + 1, _, found => follow (rule fuel) found.plan

/-- Declarations up to the first end marker. -/
def declarations (fuel : Nat) : Step (List Stmt) := rule fuel .declarations

/-- One expression that fills the input. -/
def expressionToEnd (fuel : Nat) : Step Expr := follow (rule fuel) Plan.expressionToEnd

end Cursor

end LoxLang
