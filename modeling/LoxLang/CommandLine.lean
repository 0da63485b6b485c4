import LoxLang.Session
import LoxLang.Text.Utf8
import LoxLang.Token.Text
import LoxLang.Tree.Printer

/-!
# Commands

What each command does with its input, as a function from bytes to what is
written on the two outputs and the exit code. Commands on a file take its
bytes, or nothing if there is no such file. The prompt takes the bytes of the
standard input.
-/

namespace LoxLang

set_option autoImplicit false

/-- The commands that work on a file. -/
inductive Command where
  | tokenize (objects : Bool)
  | parse
  | evaluate
  | run
  deriving DecidableEq, Repr

/-- What a command leaves: both outputs and an exit code. -/
structure Outcome where
  output : ByteArray
  errors : ByteArray
  exitCode : Nat

namespace Outcome

/-- An outcome with whole lines on both outputs. -/
def ofLines (output errors : List String) (exitCode : Nat) : Outcome :=
  let lines (texts : List String) : ByteArray :=
    (String.join (texts.map (· ++ "\n"))).toUTF8
  ⟨lines output, lines errors, exitCode⟩

/-- An outcome that says why the input could not be read. -/
def unreadable (reason : String) : Outcome := ofLines [] ["Error: " ++ reason] 1

/-- An outcome that says what could not be done, and why. -/
def unreadableBecause (what why : String) : Outcome :=
  unreadable (what ++ "\n\nCaused by:\n    " ++ why)

/-- The outcome of a session. -/
def ofSession (session : Session) (exitCode : Nat) : Outcome :=
  ⟨session.machine.output.written, session.errors.written, exitCode⟩

end Outcome

/-- The lexical faults of a source and the expression that fills it, or the
fault of the grammar. -/
def readExpression (source : String) : List LexicalError × Except GrammarError Expr :=
  (Lexer.faults source, Grammar.singleExpression (TokenStream.ofTokens (Lexer.tokens source)))

/-- Evaluates an expression on a new machine. All its names are global. There
is no outcome if the fuel does not suffice. -/
def evaluateExpression (fuel : Nat) (clock : Nat → Float) (expression : Expr) :
    Option (Except Diagnostic Value) :=
  match Eval.expression fuel expression (Machine.initial Sink.unlimited clock) with
  | .ok value _ => some (.ok value)
  | .error interrupt _ => interrupt.diagnostic?.map .error

/-- What the arguments of the command line ask for: a command on a file, or the
prompt. -/
inductive Request where
  | onFile (command : Command) (name : String)
  | prompt
  deriving DecidableEq, Repr

namespace Request

/-- The arguments without the options that ask for a log, which is not
kept. -/
def withoutLog : List String → List String
  | [] => []
  | "--log" :: rest => withoutLog rest
  | "--log-file" :: _ :: rest => withoutLog rest
  | argument :: rest => argument :: withoutLog rest

/-- The request that arguments make. Without a command the prompt is meant. -/
def ofArguments? (arguments : List String) : Option Request :=
  match withoutLog arguments with
  | [] => some .prompt
  | ["repl"] => some .prompt
  | ["tokenize", "--json", name] => some (.onFile (.tokenize true) name)
  | ["tokenize", name, "--json"] => some (.onFile (.tokenize true) name)
  | ["tokenize", name] => some (.onFile (.tokenize false) name)
  | ["parse", name] => some (.onFile .parse name)
  | ["evaluate", name] => some (.onFile .evaluate name)
  | ["run", name] => some (.onFile .run name)
  | _ => none

end Request

/-- More fuel than a run can use up in the lifetime of a computer. -/
def ampleFuel : Nat := Nat.pow 10 18

namespace Command

/-- The texts of lexical faults. -/
def faultTexts (faults : List LexicalError) : List String :=
  faults.map fun fault => (Diagnostic.lexical fault).text

/-- Writes the tokens of a source, one on a line. -/
def tokenizeSource (objects : Bool) (source : String) : Outcome :=
  let faults := Lexer.faults source
  let texts := (Lexer.tokens source).map fun token =>
    if objects then token.objectText else token.text
  Outcome.ofLines texts (faultTexts faults) (if faults.isEmpty then 0 else 65)

/-- Hands the expression that fills a source on, if there is no fault. -/
def withExpression (source : String) (use : Expr → Option Outcome) : Option Outcome :=
  let (faults, result) := readExpression source
  match result with
  | .error error =>
    some (Outcome.ofLines [] (faultTexts faults ++ [(Diagnostic.grammar error).text]) 65)
  | .ok expression =>
    if faults.isEmpty then use expression
    else some (Outcome.ofLines [] (faultTexts faults) 65)

/-- Writes the value of an expression. -/
def evaluateSource (fuel : Nat) (clock : Nat → Float) (expression : Expr) : Option Outcome :=
  match evaluateExpression fuel clock expression with
  | none => none
  | some (.ok value) => some (Outcome.ofLines [value.text] [] 0)
  | some (.error diagnostic) => some (Outcome.ofLines [] [diagnostic.text] 70)

/-- Runs a source as a program. -/
def runSource (fuel : Nat) (clock : Nat → Float) (source : String) : Option Outcome :=
  ((Session.start Sink.unlimited Sink.unlimited clock).run fuel source).map fun session =>
    Outcome.ofSession session session.exitCode

/-- What a command does with a source. -/
def onSource (fuel : Nat) (clock : Nat → Float) (source : String) : Command → Option Outcome
  | tokenize objects => some (tokenizeSource objects source)
  | parse => withExpression source fun expression =>
    some (Outcome.ofLines [expression.printed] [] 0)
  | evaluate => withExpression source (evaluateSource fuel clock)
  | run => runSource fuel clock source

/-- What a command does with a file of a given name. -/
def onFile (fuel : Nat) (clock : Nat → Float) (name : String) (bytes : Option (List UInt8))
    (command : Command) : Option Outcome :=
  let quoted := Text.Quoted.quote Text.Quoted.shownEscape name
  match bytes with
  | none => some (Outcome.unreadableBecause ("Failed to read file " ++ quoted)
      "No such file or directory (os error 2)")
  | some found => match Text.Utf8.decode found with
    | .error fault => some (Outcome.unreadableBecause ("File " ++ quoted ++ " is not valid UTF-8")
        fault.message)
    | .ok source => command.onSource fuel clock source

end Command

namespace Prompt

/-- The text in front of each line of input. -/
def text : String := "> "

/-- What is said about a line that is not text. -/
def notText : String := "Error: stream did not contain valid UTF-8\n"

/-- Cuts bytes behind each line end. -/
def lines : List UInt8 → List (List UInt8)
  | [] => []
  | byte :: rest =>
    match lines rest with
    | [] => [[byte]]
    | line :: more => if byte == 10 then [byte] :: line :: more else (byte :: line) :: more

/-- Runs one line and forgets its faults. -/
def runLine (fuel : Nat) (session : Session) (source : String) : Option Session :=
  (session.run fuel source).map Session.reset

/-- Runs lines one after another, with a prompt in front of each and a line end
behind the last. A line that is not text ends the session. -/
def runLines (fuel : Nat) (session : Session) : List (List UInt8) → Option Outcome
  | [] => some (Outcome.ofSession ((session.say text).say "\n") 0)
  | line :: rest =>
    match Text.Utf8.decode line with
    | .error _ =>
      let asked := session.say text
      some (Outcome.ofSession { asked with errors := asked.errors.write notText } 1)
    | .ok source => match runLine fuel (session.say text) source with
      | some next => runLines fuel next rest
      | none => none

/-- The prompt over a whole standard input. -/
def run (fuel : Nat) (clock : Nat → Float) (bytes : List UInt8) : Option Outcome :=
  runLines fuel (Session.start Sink.unlimited Sink.unlimited clock) (lines bytes)

end Prompt

end LoxLang
