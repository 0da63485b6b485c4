import LoxLang.Run.Sink
import LoxLang.Run.Store
import LoxLang.Scope.Distance

/-!
# The machine

The state of a run and the single steps on it. A step ends with a result or
with an interrupt, and the state is kept in both cases. `within` and `nested`
run a step in another environment or one call deeper and undo that on every
way out.
-/

namespace LoxLang

set_option autoImplicit false

/-- The state of a run: the store, the current environment, the number of
calls in progress, the distance table, the output, and the clock with the
number of readings taken from it. -/
structure Machine where
  store : Store
  env : Env
  depth : Nat
  distances : DistanceTable
  output : Sink
  clock : Nat → Float
  readings : Nat

namespace Machine

/-- The greatest number of calls in progress. -/
def depthLimit : Nat := 4096

/-- A machine with nothing in its store. -/
def bare (output : Sink) (clock : Nat → Float) : Machine :=
  ⟨Store.initial, Env.global, 0, DistanceTable.empty, output, clock, 0⟩

/-- A machine whose global frame holds the built-in functions. -/
def initial (output : Sink) (clock : Nat → Float) : Machine :=
  { bare output clock with
    store := Store.initial.define Env.global "clock" (.native .clock) }

/-- The value that an occurrence of a name stands for: at its distance if it
has one, else in the global frame. -/
def value (machine : Machine) (occurrence : Occurrence) : Except RuntimeCause Value :=
  match machine.distances.find? occurrence.id with
  | some distance => machine.store.getAt machine.env distance occurrence.name
  | none => machine.store.get Env.global occurrence.name

/-- The frame that an assignment at an occurrence writes to. -/
def target (machine : Machine) (occurrence : Occurrence) : Except RuntimeCause Env :=
  match machine.distances.find? occurrence.id with
  | some distance => machine.store.frameAt machine.env distance occurrence.name
  | none => machine.store.holder Env.global occurrence.name

/-- The superclass and the instance that an occurrence of `super` stands for.
The instance is in the frame just inside the one that holds the superclass. -/
def superBinding? (machine : Machine) (occurrence : Occurrence) : Option (Class × Instance) :=
  match machine.distances.find? occurrence.id with
  | some (inner + 1) =>
    match machine.store.implicitAt? machine.env (inner + 1) "super",
        machine.store.implicitAt? machine.env inner "this" with
    | some (.cls parent), some (.object object) => some (parent, object)
    | _, _ => none
  | _ => none

end Machine

/-- Why a run is interrupted. -/
inductive Interrupt where
  | fault (error : RuntimeError)
  | output (problem : SinkFault)
  | outOfFuel

/-- The diagnostic of an interrupt, unless fuel was used up. -/
def Interrupt.diagnostic? : Interrupt → Option Diagnostic
  | .fault error => some (.runtime error)
  | .output problem => some (.output problem)
  | .outOfFuel => none

/-- A step of a run. -/
abbrev Eval (Result : Type) := EStateM Interrupt Machine Result

namespace Eval

variable {Result : Type}

/-- Stops because fuel is used up. -/
def outOfFuel : Eval Result := fun machine => .error .outOfFuel machine

/-- Stops with a fault at a line. -/
def raiseAt (line : Nat) (cause : RuntimeCause) : Eval Result := fun machine =>
  .error (.fault ⟨cause, line⟩) machine

/-- Stops with a fault at a token. -/
def raise (token : Token) (cause : RuntimeCause) : Eval Result := raiseAt token.line cause

/-- The current environment. -/
def env : Eval Env := fun machine => .ok machine.env machine

/-- Runs a step in another environment. -/
@[inline] def within (env : Env) (step : Eval Result) : Eval Result := fun machine =>
  let before := machine.env
  match step { machine with env := env } with
  | .ok result reached => .ok result { reached with env := before }
  | .error interrupt reached => .error interrupt { reached with env := before }

/-- Runs a step one call deeper. -/
@[inline] def nested (step : Eval Result) : Eval Result := fun machine =>
  match step { machine with depth := machine.depth + 1 } with
  | .ok result reached => .ok result { reached with depth := reached.depth - 1 }
  | .error interrupt reached => .error interrupt { reached with depth := reached.depth - 1 }

/-- Checks that one more call may be in progress. -/
def checkDepth (paren : Token) : Eval Unit := fun machine =>
  if Machine.depthLimit ≤ machine.depth then raise paren .stackOverflow machine
  else .ok () machine

/-! ## Names -/

/-- The value of an occurrence. -/
def lookUp (occurrence : Occurrence) : Eval Value := fun machine =>
  match machine.value occurrence with
  | .ok value => .ok value machine
  | .error cause => raiseAt occurrence.line cause machine

/-- Assigns to an occurrence. -/
def assign (occurrence : Occurrence) (value : Value) : Eval Unit := fun machine =>
  match machine.target occurrence with
  | .ok frame => .ok () { machine with
      store := machine.store.bindIn frame occurrence.name value }
  | .error cause => raiseAt occurrence.line cause machine

/-- Binds a name in the current environment. -/
def define (name : String) (value : Value) : Eval Unit := fun machine =>
  .ok () { machine with store := machine.store.define machine.env name value }

/-- Replaces the value of a name that the current environment binds. -/
def reassign (name : Token) (value : Value) : Eval Unit := fun machine =>
  match machine.store.holder machine.env name.lexeme with
  | .ok frame => .ok () { machine with
      store := machine.store.bindIn frame name.lexeme value }
  | .error cause => raise name cause machine

/-- A new environment inside a given one. -/
def child (env : Env) : Eval Env := fun machine =>
  let (inner, store) := machine.store.child env
  .ok inner { machine with store := store }

/-- A new environment inside a given one, with names bound to values. -/
def childWith (env : Env) (names : List String) (values : List Value) : Eval Env :=
  fun machine =>
    let (inner, store) := machine.store.child env
    .ok inner { machine with store := store.defineAll inner names values }

/-! ## Classes and instances -/

/-- Makes a class. -/
def newClass (name : String) (superclass : Option Class) (own : MethodTable) : Eval Class :=
  fun machine =>
    let (cls, store) := machine.store.newClass name superclass own
    .ok cls { machine with store := store }

/-- Makes an instance. -/
def newInstance (cls : Class) : Eval Instance := fun machine =>
  let (object, store) := machine.store.newInstance cls
  .ok object { machine with store := store }

/-- Binds a method to an instance. -/
def bindMethod (method : Closure) (object : Instance) : Eval Closure := fun machine =>
  let (bound, store) := machine.store.bindMethod method object
  .ok bound { machine with store := store }

/-- A field of an instance, or a method of its class bound to it. -/
def property (object : Instance) (name : Token) : Eval Value := fun machine =>
  match machine.store.field? object name.lexeme with
  | some value => .ok value machine
  | none => match object.cls.findMethod? name.lexeme with
    | some method => (Value.function <$> bindMethod method object) machine
    | none => raise name (.undefinedProperty name.lexeme) machine

/-- Sets a field of an instance. -/
def setField (object : Instance) (name : String) (value : Value) : Eval Unit := fun machine =>
  .ok () { machine with store := machine.store.setField object name value }

/-- A method of the superclass, bound to the current instance. -/
def superMethod (occurrence : Occurrence) (method : Token) : Eval Value := fun machine =>
  match machine.superBinding? occurrence with
  | none => raiseAt occurrence.line .superNotHere machine
  | some (parent, object) => match parent.findMethod? method.lexeme with
    | some found => (Value.function <$> bindMethod found object) machine
    | none => raise method (.undefinedProperty method.lexeme) machine

/-! ## The outside world -/

/-- Writes a line of text. -/
def printLine (text : String) : Eval Unit := fun machine =>
  let line := text ++ "\n"
  if machine.output.fits line then
    .ok () { machine with output := machine.output.write line }
  else .error (.output .full) { machine with output := machine.output.write line }

/-- Flushes the output. -/
def flush : Eval Unit := fun machine =>
  if machine.output.flushes then .ok () machine else .error (.output .flushFailed) machine

/-- Takes a reading of the clock. -/
def readClock : Eval Float := fun machine =>
  .ok (machine.clock machine.readings) { machine with readings := machine.readings + 1 }

end Eval

end LoxLang
