import LoxLang.Grammar.Statement
import LoxLang.Run.Evaluation
import LoxLang.Scope.Resolution
import LoxLang.Token.Lexer

/-!
# Sessions

A session runs one source text after another on one machine, so that names
bound by one are seen by the next. Faults are written to an error sink and
recorded. As long as a static fault is recorded, sources are read and their
faults reported, and nothing is run.

A run takes fuel. It has no outcome if the fuel does not suffice.
-/

namespace LoxLang

set_option autoImplicit false

/-- A machine, the sink for faults, the recorded faults in order, and the next
free node number. -/
structure Session where
  machine : Machine
  errors : Sink
  diagnostics : List Diagnostic
  nextId : Nat

namespace Session

/-- A new session with its two sinks and a clock. -/
def start (output errors : Sink) (clock : Nat → Float) : Session :=
  ⟨Machine.initial output clock, errors, [], 0⟩

/-- Writes a fault to the error sink, as far as it fits, and records it. -/
def report (session : Session) (diagnostic : Diagnostic) : Session :=
  { session with
    errors := session.errors.write (diagnostic.text ++ "\n")
    diagnostics := session.diagnostics ++ [diagnostic] }

/-- Reports faults in order. -/
def reportAll (session : Session) (diagnostics : List Diagnostic) : Session :=
  diagnostics.foldl report session

/-- Forgets the recorded faults. -/
def reset (session : Session) : Session := { session with diagnostics := [] }

/-- Whether a static fault is recorded. -/
def hasStaticFault (session : Session) : Bool := session.diagnostics.any Diagnostic.isStatic

/-- Whether a fault of a run is recorded. -/
def hasRuntimeFault (session : Session) : Bool := session.diagnostics.any Diagnostic.isRuntime

/-- The exit code that the recorded faults ask for. -/
def exitCode (session : Session) : Nat :=
  if session.hasStaticFault then 65 else if session.hasRuntimeFault then 70 else 0

/-- The session with another clock. -/
def withClock (session : Session) (clock : Nat → Float) : Session :=
  { session with machine := { session.machine with clock := clock } }

/-- Writes text to the output. -/
def say (session : Session) (text : String) : Session :=
  { session with machine := { session.machine with
      output := session.machine.output.write text } }

/-- Reads a source text, reports its faults, and gives the declarations that
could be read. -/
def read (session : Session) (source : String) : List Stmt × Session :=
  let items := Lexer.items source
  let stream := TokenStream.ofTokens (items.filterMap Lexer.Item.token?)
  let program := Grammar.program stream session.nextId
  let scanned := session.reportAll ((items.filterMap Lexer.Item.fault?).map .lexical)
  let parsed := scanned.reportAll (program.errors.map .grammar)
  (program.statements, { parsed with nextId := program.nextId })

/-- The machine that a program is run on, with its distances put in. -/
def prepared (session : Session) (distances : List (Nat × Nat)) : Machine :=
  { session.machine with distances := session.machine.distances.insertAll distances }

/-- Runs statements whose names have been resolved to distances. -/
def execute (fuel : Nat) (session : Session) (program : List Stmt)
    (distances : List (Nat × Nat)) : Option Session :=
  match Eval.program fuel program (session.prepared distances) with
  | .ok () machine => some { session with machine := machine }
  | .error interrupt machine =>
    interrupt.diagnostic?.map fun diagnostic =>
      { session with machine := machine }.report diagnostic

/-- Runs a source text. -/
def run (fuel : Nat) (session : Session) (source : String) : Option Session :=
  let (program, reading) := session.read source
  if reading.hasStaticFault then some reading
  else match resolve program with
    | .error errors => some (reading.reportAll (errors.map .binding))
    | .ok distances => reading.execute fuel program distances

end Session

end LoxLang
