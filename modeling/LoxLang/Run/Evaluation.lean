import LoxLang.Run.Machine
import LoxLang.Run.Operator

/-!
# Evaluation

Expressions have values, statements have effects and may end in a `return`.
Every rule runs on fuel, so that evaluation is a total function; a run that
needs more fuel than it was given is interrupted. A finished run is not
changed by more fuel.

Calls check in this order: whether the value can be called, whether the number
of arguments is right, and whether one more call may be in progress. Making an
instance counts as one call, together with the initializer that it runs.
-/

namespace LoxLang

set_option autoImplicit false

/-- How a statement ends. -/
inductive Flow where
  | normal
  | returned (value : Value)

namespace Eval

/-- A result of the operators, with faults at a token. -/
def lift (token : Token) : Except RuntimeCause Value → Eval Value
  | .ok value => pure value
  | .error cause => raise token cause

/-- The token that a superclass which is no class is reported at. -/
def superclassToken (name : Token) : Expr → Token
  | .var occurrence => occurrence.token
  | _ => name

/-- The methods of a class, closed over an environment. A later method
replaces an earlier one of the same name. -/
def methodTable (env : Env) (declarations : List FunctionDecl) : MethodTable :=
  declarations.foldl (fun table declaration =>
    table.insert declaration.name.lexeme ⟨declaration, env, declaration.isInitializer⟩) []

/-- The environment that the methods of a class close over: it holds the
superclass if there is one. -/
def methodEnv : Option Class → Eval Env
  | none => env
  | some parent => do childWith (← env) ["super"] [.cls parent]

/-- Declares a class below a superclass, if there is one. Its name is bound
before its methods are made. -/
def declareClass (name : Token) (superclass : Option Class) (declarations : List FunctionDecl) :
    Eval Unit := do
  define name.lexeme .nil
  let closed ← methodEnv superclass
  let cls ← newClass name.lexeme superclass (methodTable closed declarations)
  reassign name (.cls cls)

/-- The instance that an initializer is bound to. -/
def boundInstance (closure : Closure) : Eval Value := fun machine =>
  .ok ((machine.store.implicitAt? closure.env 0 "this").getD .nil) machine

/-- What the call of a function gives back. -/
def callResult (closure : Closure) (flow : Flow) : Eval Value :=
  if closure.isInitializer then boundInstance closure
  else match flow with
    | .returned value => pure value
    | .normal => pure .nil

mutual

/-- The value of an expression. -/
def expression : Nat → Expr → Eval Value
  | 0, _ => outOfFuel
  | _ + 1, .literal value => pure (.ofLiteral value)
  | fuel + 1, .grouping inner => expression fuel inner
  | fuel + 1, .unary operator operand => do
    let value ← expression fuel operand
    lift operator (Operator.unary operator value)
  | fuel + 1, .binary left operator right => do
    let first ← expression fuel left
    let second ← expression fuel right
    lift operator (Operator.binary operator first second)
  | fuel + 1, .logical left operator right => do
    let first ← expression fuel left
    if Operator.settles operator first then pure first else expression fuel right
  | _ + 1, .var occurrence => lookUp occurrence
  | fuel + 1, .assign occurrence value => do
    let assigned ← expression fuel value
    assign occurrence assigned
    pure assigned
  | fuel + 1, .call callee paren arguments => do
    let called ← expression fuel callee
    let values ← expressions fuel arguments
    call fuel paren called values
  | fuel + 1, .get object name => do
    match ← expression fuel object with
    | .object found => property found name
    | _ => raise name .noProperties
  | fuel + 1, .set object name value => do
    match ← expression fuel object with
    | .object found =>
      let assigned ← expression fuel value
      setField found name.lexeme assigned
      pure assigned
    | _ => raise name .noFields
  | _ + 1, .thisRef occurrence => lookUp occurrence
  | _ + 1, .superRef occurrence method => superMethod occurrence method

/-- The values of a list of expressions. -/
def expressions : Nat → List Expr → Eval (List Value)
  | 0, _ => outOfFuel
  | _ + 1, [] => pure []
  | fuel + 1, first :: rest => do
    let value ← expression fuel first
    let values ← expressions fuel rest
    pure (value :: values)

/-- The result of a call, with faults at the closing parenthesis. -/
def call : Nat → Token → Value → List Value → Eval Value
  | 0, _, _, _ => outOfFuel
  | fuel + 1, paren, called, values =>
    match called.callable? with
    | none => raise paren .notCallable
    | some callable =>
      if values.length = callable.arity then do
        checkDepth paren
        nested (apply fuel callable values)
      else raise paren (.wrongArgumentCount callable.arity values.length)

/-- What a callable value does with its arguments. -/
def apply : Nat → Callable → List Value → Eval Value
  | 0, _, _ => outOfFuel
  | _ + 1, .native .clock, _ => Value.number <$> readClock
  | fuel + 1, .function closure, values => applyClosure fuel closure values
  | fuel + 1, .cls cls, values => do
    let object ← newInstance cls
    match cls.findMethod? initializerName with
    | none => pure (.object object)
    | some method =>
      let initializer ← bindMethod method object
      let _ ← applyClosure fuel initializer values
      pure (.object object)

/-- Runs the body of a function in a new environment inside its own. -/
def applyClosure : Nat → Closure → List Value → Eval Value
  | 0, _, _ => outOfFuel
  | fuel + 1, closure, values => do
    let inner ← childWith closure.env (closure.declaration.params.map Token.lexeme) values
    let flow ← within inner (statements fuel closure.declaration.body)
    callResult closure flow

/-- The effect of a statement. -/
def statement : Nat → Stmt → Eval Flow
  | 0, _ => outOfFuel
  | fuel + 1, .expression value => do
    let _ ← expression fuel value
    pure .normal
  | fuel + 1, .print value => do
    let printed ← expression fuel value
    printLine printed.text
    pure .normal
  | _ + 1, .var name none => do
    define name.lexeme .nil
    pure .normal
  | fuel + 1, .var name (some initializer) => do
    let value ← expression fuel initializer
    define name.lexeme value
    pure .normal
  | fuel + 1, .block body => do
    let inner ← child (← env)
    within inner (statements fuel body)
  | fuel + 1, .cond condition thenBranch elseBranch => do
    let value ← expression fuel condition
    if value.isTruthy then statement fuel thenBranch
    else match elseBranch with
      | some branch => statement fuel branch
      | none => pure .normal
  | fuel + 1, .loop condition body => rounds fuel condition body
  | _ + 1, .function declaration => do
    let closure : Closure := ⟨declaration, ← env, false⟩
    define declaration.name.lexeme (.function closure)
    pure .normal
  | _ + 1, .ret _ none => pure (.returned .nil)
  | fuel + 1, .ret _ (some value) => do
    let returned ← expression fuel value
    pure (.returned returned)
  | _ + 1, .classDecl name none declarations => do
    declareClass name none declarations
    pure .normal
  | fuel + 1, .classDecl name (some superclass) declarations => do
    match ← expression fuel superclass with
    | .cls parent =>
      declareClass name (some parent) declarations
      pure .normal
    | _ => raise (superclassToken name superclass) .superclassNotClass

/-- The effect of statements one after another, up to a `return`. -/
def statements : Nat → List Stmt → Eval Flow
  | 0, _ => outOfFuel
  | _ + 1, [] => pure .normal
  | fuel + 1, first :: rest => do
    match ← statement fuel first with
    | .returned value => pure (.returned value)
    | .normal => statements fuel rest

/-- The rounds of a loop, up to a false condition or a `return`. -/
def rounds : Nat → Expr → Stmt → Eval Flow
  | 0, _, _ => outOfFuel
  | fuel + 1, condition, body => do
    let value ← expression fuel condition
    if value.isTruthy then
      match ← statement fuel body with
      | .returned result => pure (.returned result)
      | .normal => rounds fuel condition body
    else pure .normal

end

/-- The statements of a program one after another. A `return` outside of every
function ends its statement only. -/
def topLevel (fuel : Nat) : List Stmt → Eval Unit
  | [] => pure ()
  | first :: rest => do
    let _ ← statement fuel first
    topLevel fuel rest

/-- Runs a program and flushes the output behind it. -/
def program (fuel : Nat) (program : List Stmt) : Eval Unit := do
  topLevel fuel program
  flush

end Eval

end LoxLang
