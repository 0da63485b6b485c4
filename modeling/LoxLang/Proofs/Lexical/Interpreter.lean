import LoxLang.Run.Evaluation

/-!
# Lexical scoping without distances

A second interpreter for the same trees. It knows nothing of frames, links or
a distance table. What a local name means is said by a scope, a map from names
to cells. A scope is never changed: a local declaration takes a new cell and
makes a scope in which the name stands for it. That scope is used for what the
declaration itself holds and for the statements behind it in the same block.
A name that is not in the scope is looked up in one table of global names.

A function is made with the scope at its declaration. Each making has a number
of its own, and the scope is kept under that number, which takes the place of
the environment in the value (`State.captured`). So two functions are the same
if they come from the same making. Binding a method to an instance makes a new
function whose scope holds the instance as `this`. The scope of the methods of
a class holds the superclass as `super`.

The order of evaluation, the operators, the faults and the limit on calls are
those of the machine.
-/

namespace LoxLang.Lexical

set_option autoImplicit false

/-- What names mean at a point: the cells of local names, the instance and the
superclass there, and whether a declaration at this point is local. -/
structure Scope where
  names : Bindings Nat
  this : Option Instance
  super : Option Class
  isLocal : Bool

/-- Outside of every block and function. -/
def Scope.global : Scope := ⟨[], none, none, false⟩

/-- The state of a run: the values of cells and of global names, the scopes of
all makings so far, the fields of instances, and what it has in common with a
machine. -/
structure State where
  cells : Array Value
  globals : Bindings Value
  captured : Array Scope
  fields : Array (Bindings Value)
  classCount : Nat
  depth : Nat
  output : Sink
  clock : Nat → Float
  readings : Nat

/-- The state before a program. -/
def State.initial (output : Sink) (clock : Nat → Float) : State :=
  ⟨#[], [("clock", .native .clock)], #[], #[], 0, 0, output, clock, 0⟩

namespace State

/-- The value of a name, if it has one. -/
def find? (state : State) (scope : Scope) (name : String) : Option Value :=
  match scope.names.find? name with
  | some cell => state.cells[cell]?
  | none => state.globals.find? name

/-- The scope in which a name is declared. A local name gets a new cell. -/
def declare (state : State) (scope : Scope) (name : String) : Scope × State :=
  if scope.isLocal then
    ({ scope with names := scope.names.insert name state.cells.size },
      { state with cells := state.cells.push .nil })
  else (scope, state)

/-- Gives a name its value, in its cell or else in the table of globals. -/
def define (state : State) (scope : Scope) (name : String) (value : Value) : State :=
  match scope.names.find? name with
  | some cell => { state with cells := state.cells.setIfInBounds cell value }
  | none => { state with globals := state.globals.insert name value }

/-- Declares names and gives them values, as far as there are values. -/
def defineAll (state : State) (scope : Scope) : List String → List Value → Scope × State
  | name :: names, value :: values =>
    let (inner, declared) := state.declare scope name
    (declared.define inner name value).defineAll inner names values
  | _, _ => (scope, state)

/-- A new making with a scope. -/
def capture (state : State) (scope : Scope) : Env × State :=
  (state.captured.size, { state with captured := state.captured.push scope })

/-- The scope of a making. -/
def scopeOf (state : State) (made : Env) : Scope := state.captured[made]?.getD .global

/-- A method bound to an instance is made anew, with the instance as `this`. -/
def bindMethod (state : State) (method : Closure) (object : Instance) : Closure × State :=
  let (made, bound) := state.capture { state.scopeOf method.env with this := some object }
  ({ method with env := made }, bound)

/-- A new class below a superclass, if there is one. -/
def newClass (state : State) (name : String) (superclass : Option Class) (own : MethodTable) :
    Class × State :=
  let inherited := match superclass with
    | some parent => parent.tables
    | none => []
  (⟨state.classCount, name, own :: inherited⟩, { state with classCount := state.classCount + 1 })

/-- A new instance of a class, without fields. -/
def newInstance (state : State) (cls : Class) : Instance × State :=
  (⟨state.fields.size, cls⟩, { state with fields := state.fields.push [] })

/-- The value of a field. -/
def field? (state : State) (object : Instance) (name : String) : Option Value :=
  match state.fields[object.id]? with
  | some bindings => bindings.find? name
  | none => none

/-- Sets a field. -/
def setField (state : State) (object : Instance) (name : String) (value : Value) : State :=
  { state with fields := state.fields.modify object.id fun bindings => bindings.insert name value }

end State

/-! ## Steps -/

/-- A step of a run. -/
abbrev Run (Result : Type) := EStateM Interrupt State Result

variable {Result : Type}

/-- Stops because fuel is used up. -/
def outOfFuel : Run Result := fun state => .error .outOfFuel state

/-- Stops with a fault at a line. -/
def raiseAt (line : Nat) (cause : RuntimeCause) : Run Result := fun state =>
  .error (.fault ⟨cause, line⟩) state

/-- Stops with a fault at a token. -/
def raise (token : Token) (cause : RuntimeCause) : Run Result := raiseAt token.line cause

/-- A result of the operators, with faults at a token. -/
def lift (token : Token) : Except RuntimeCause Value → Run Value
  | .ok value => pure value
  | .error cause => raise token cause

/-- The value that an occurrence of a name stands for. -/
def lookUp (scope : Scope) (occurrence : Occurrence) : Run Value := fun state =>
  match state.find? scope occurrence.name with
  | some value => .ok value state
  | none => raiseAt occurrence.line (.undefinedVariable occurrence.name) state

/-- The instance that an occurrence of `this` stands for. -/
def lookUpThis (scope : Scope) (occurrence : Occurrence) : Run Value :=
  match scope.this with
  | some object => pure (.object object)
  | none => raiseAt occurrence.line (.undefinedVariable occurrence.name)

/-- Assigns to an occurrence. The name has to have a value, unless it is
local. -/
def assign (scope : Scope) (occurrence : Occurrence) (value : Value) : Run Unit := fun state =>
  if scope.names.contains occurrence.name || state.globals.contains occurrence.name then
    .ok () (state.define scope occurrence.name value)
  else raiseAt occurrence.line (.undefinedVariable occurrence.name) state

/-- Declares a name. -/
def declare (scope : Scope) (name : String) : Run Scope := fun state =>
  let (inner, declared) := state.declare scope name
  .ok inner declared

/-- Gives a declared name its value. -/
def define (scope : Scope) (name : String) (value : Value) : Run Unit := fun state =>
  .ok () (state.define scope name value)

/-- Declares names with their values. -/
def defineAll (scope : Scope) (names : List String) (values : List Value) : Run Scope :=
  fun state =>
    let (inner, defined) := state.defineAll scope names values
    .ok inner defined

/-- The number of a new making with a scope. -/
def capture (scope : Scope) : Run Env := fun state =>
  let (made, captured) := state.capture scope
  .ok made captured

/-- The scope that a function was made with. -/
def capturedScope (closure : Closure) : Run Scope := fun state =>
  .ok (state.scopeOf closure.env) state

/-- Binds a method to an instance. -/
def bindMethod (method : Closure) (object : Instance) : Run Closure := fun state =>
  let (closure, bound) := state.bindMethod method object
  .ok closure bound

/-- Makes a class. -/
def newClass (name : String) (superclass : Option Class) (own : MethodTable) : Run Class :=
  fun state =>
    let (cls, made) := state.newClass name superclass own
    .ok cls made

/-- Makes an instance. -/
def newInstance (cls : Class) : Run Instance := fun state =>
  let (object, made) := state.newInstance cls
  .ok object made

/-- A field of an instance, or a method of its class bound to it. -/
def property (object : Instance) (name : Token) : Run Value := fun state =>
  match state.field? object name.lexeme with
  | some value => .ok value state
  | none => match object.cls.findMethod? name.lexeme with
    | some method => (Value.function <$> bindMethod method object) state
    | none => raise name (.undefinedProperty name.lexeme) state

/-- Sets a field of an instance. -/
def setField (object : Instance) (name : String) (value : Value) : Run Unit := fun state =>
  .ok () (state.setField object name value)

/-- A method of the superclass, bound to the instance. -/
def superMethod (scope : Scope) (occurrence : Occurrence) (method : Token) : Run Value :=
  match scope.super, scope.this with
  | some parent, some object => match parent.findMethod? method.lexeme with
    | some found => Value.function <$> bindMethod found object
    | none => raise method (.undefinedProperty method.lexeme)
  | _, _ => raiseAt occurrence.line .superNotHere

/-- Declares a class below a superclass, if there is one, and gives the scope
behind it. Its name is bound before its methods are made. -/
def declareClass (scope : Scope) (name : Token) (superclass : Option Class)
    (declarations : List FunctionDecl) : Run Scope := do
  let inner ← declare scope name.lexeme
  define inner name.lexeme .nil
  let made ← capture { inner with super := superclass.or inner.super }
  let cls ← newClass name.lexeme superclass (Eval.methodTable made declarations)
  define inner name.lexeme (.cls cls)
  pure inner

/-- What the call of a function gives back. -/
def callResult (closure : Closure) (flow : Flow) : Run Value :=
  if closure.isInitializer then do
    let scope ← capturedScope closure
    pure ((scope.this.map Value.object).getD .nil)
  else match flow with
    | .returned value => pure value
    | .normal => pure .nil

/-! ## The outside world -/

/-- Writes a line of text. -/
def printLine (text : String) : Run Unit := fun state =>
  let line := text ++ "\n"
  if state.output.fits line then .ok () { state with output := state.output.write line }
  else .error (.output .full) { state with output := state.output.write line }

/-- Flushes the output. -/
def flush : Run Unit := fun state =>
  if state.output.flushes then .ok () state else .error (.output .flushFailed) state

/-- Takes a reading of the clock. -/
def readClock : Run Float := fun state =>
  .ok (state.clock state.readings) { state with readings := state.readings + 1 }

/-- Checks that one more call may be in progress. -/
def checkDepth (paren : Token) : Run Unit := fun state =>
  if Machine.depthLimit ≤ state.depth then raise paren .stackOverflow state else .ok () state

/-- Runs a step one call deeper. -/
def nested (step : Run Result) : Run Result := fun state =>
  match step { state with depth := state.depth + 1 } with
  | .ok result reached => .ok result { reached with depth := reached.depth - 1 }
  | .error interrupt reached => .error interrupt { reached with depth := reached.depth - 1 }

/-! ## Evaluation -/

mutual

/-- The value of an expression. -/
def expression : Nat → Scope → Expr → Run Value
  | 0, _, _ => outOfFuel
  | _ + 1, _, .literal value => pure (.ofLiteral value)
  | fuel + 1, scope, .grouping inner => expression fuel scope inner
  | fuel + 1, scope, .unary operator operand => do
    let value ← expression fuel scope operand
    lift operator (Operator.unary operator value)
  | fuel + 1, scope, .binary left operator right => do
    let first ← expression fuel scope left
    let second ← expression fuel scope right
    lift operator (Operator.binary operator first second)
  | fuel + 1, scope, .logical left operator right => do
    let first ← expression fuel scope left
    if Operator.settles operator first then pure first else expression fuel scope right
  | _ + 1, scope, .var occurrence => lookUp scope occurrence
  | fuel + 1, scope, .assign occurrence value => do
    let assigned ← expression fuel scope value
    assign scope occurrence assigned
    pure assigned
  | fuel + 1, scope, .call callee paren arguments => do
    let called ← expression fuel scope callee
    let values ← expressions fuel scope arguments
    call fuel paren called values
  | fuel + 1, scope, .get object name => do
    match ← expression fuel scope object with
    | .object found => property found name
    | _ => raise name .noProperties
  | fuel + 1, scope, .set object name value => do
    match ← expression fuel scope object with
    | .object found =>
      let assigned ← expression fuel scope value
      setField found name.lexeme assigned
      pure assigned
    | _ => raise name .noFields
  | _ + 1, scope, .thisRef occurrence => lookUpThis scope occurrence
  | _ + 1, scope, .superRef occurrence method => superMethod scope occurrence method

/-- The values of a list of expressions. -/
def expressions : Nat → Scope → List Expr → Run (List Value)
  | 0, _, _ => outOfFuel
  | _ + 1, _, [] => pure []
  | fuel + 1, scope, first :: rest => do
    let value ← expression fuel scope first
    let values ← expressions fuel scope rest
    pure (value :: values)

/-- The result of a call, with faults at the closing parenthesis. -/
def call : Nat → Token → Value → List Value → Run Value
  | 0, _, _, _ => outOfFuel
  | fuel + 1, paren, called, values =>
    match called.callable? with
    | none => raise paren .notCallable
    | some callable =>
      if values.length = callable.arity then do
        checkDepth paren
        nested (apply fuel callable values)
      else raise paren (.wrongArgumentCount callable.arity values.length)

/-- What a callable value does with its arguments. -/
def apply : Nat → Callable → List Value → Run Value
  | 0, _, _ => outOfFuel
  | _ + 1, .native .clock, _ => Value.number <$> readClock
  | fuel + 1, .function closure, values => applyClosure fuel closure values
  | fuel + 1, .cls cls, values => do
    let object ← newInstance cls
    match cls.findMethod? initializerName with
    | none => pure (.object object)
    | some method =>
      let initializer ← bindMethod method object
      let _ ← applyClosure fuel initializer values
      pure (.object object)

/-- Runs the body of a function in its own scope, with the parameters
declared. -/
def applyClosure : Nat → Closure → List Value → Run Value
  | 0, _, _ => outOfFuel
  | fuel + 1, closure, values => do
    let scope ← capturedScope closure
    let inner ← defineAll { scope with isLocal := true }
      (closure.declaration.params.map Token.lexeme) values
    let flow ← statements fuel inner closure.declaration.body
    callResult closure flow

/-- The effect of a statement, and the scope behind it. -/
def statement : Nat → Scope → Stmt → Run (Flow × Scope)
  | 0, _, _ => outOfFuel
  | fuel + 1, scope, .expression value => do
    let _ ← expression fuel scope value
    pure (.normal, scope)
  | fuel + 1, scope, .print value => do
    let printed ← expression fuel scope value
    printLine printed.text
    pure (.normal, scope)
  | _ + 1, scope, .var name none => do
    let inner ← declare scope name.lexeme
    define inner name.lexeme .nil
    pure (.normal, inner)
  | fuel + 1, scope, .var name (some initializer) => do
    let inner ← declare scope name.lexeme
    let value ← expression fuel inner initializer
    define inner name.lexeme value
    pure (.normal, inner)
  | fuel + 1, scope, .block body => do
    let flow ← statements fuel { scope with isLocal := true } body
    pure (flow, scope)
  | fuel + 1, scope, .cond condition thenBranch elseBranch => do
    let value ← expression fuel scope condition
    if value.isTruthy then statement fuel scope thenBranch
    else match elseBranch with
      | some branch => statement fuel scope branch
      | none => pure (.normal, scope)
  | fuel + 1, scope, .loop condition body => do
    let flow ← rounds fuel scope condition body
    pure (flow, scope)
  | _ + 1, scope, .function declaration => do
    let inner ← declare scope declaration.name.lexeme
    let made ← capture inner
    define inner declaration.name.lexeme (.function ⟨declaration, made, false⟩)
    pure (.normal, inner)
  | _ + 1, scope, .ret _ none => pure (.returned .nil, scope)
  | fuel + 1, scope, .ret _ (some value) => do
    let returned ← expression fuel scope value
    pure (.returned returned, scope)
  | _ + 1, scope, .classDecl name none declarations => do
    let inner ← declareClass scope name none declarations
    pure (.normal, inner)
  | fuel + 1, scope, .classDecl name (some superclass) declarations => do
    match ← expression fuel scope superclass with
    | .cls parent =>
      let inner ← declareClass scope name (some parent) declarations
      pure (.normal, inner)
    | _ => raise (Eval.superclassToken name superclass) .superclassNotClass

/-- The effect of statements one after another, up to a `return`. -/
def statements : Nat → Scope → List Stmt → Run Flow
  | 0, _, _ => outOfFuel
  | _ + 1, _, [] => pure .normal
  | fuel + 1, scope, first :: rest => do
    match ← statement fuel scope first with
    | (.returned value, _) => pure (.returned value)
    | (.normal, behind) => statements fuel behind rest

/-- The rounds of a loop, up to a false condition or a `return`. -/
def rounds : Nat → Scope → Expr → Stmt → Run Flow
  | 0, _, _, _ => outOfFuel
  | fuel + 1, scope, condition, body => do
    let value ← expression fuel scope condition
    if value.isTruthy then
      match ← statement fuel scope body with
      | (.returned result, _) => pure (.returned result)
      | (.normal, _) => rounds fuel scope condition body
    else pure .normal

end

/-- The statements of a program one after another. -/
def topLevel (fuel : Nat) : Scope → List Stmt → Run Unit
  | _, [] => pure ()
  | scope, first :: rest => do
    let (_, behind) ← statement fuel scope first
    topLevel fuel behind rest

/-- Runs a program and flushes the output behind it. -/
def program (fuel : Nat) (found : List Stmt) : Run Unit := do
  topLevel fuel .global found
  flush

end LoxLang.Lexical
