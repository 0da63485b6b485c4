import LoxLang.Run.Evaluation

/-!
# The moments of a run

A moment of a run is a task that is begun in a state: an expression, a
statement, a call and so on, as the rules of evaluation divide the work. The
task at one moment begins further tasks, each in the state that those before
it have left (`Begins`), and so all the moments of a run are reached from the
one it starts with (`Visits`). A moment is visited whether or not its task, or
those behind it, come to an end.

There is one constructor of `Begins` for every place where a rule of
evaluation uses another. Its premises are the results that lead there.
-/

namespace LoxLang

set_option autoImplicit false

/-- The machine at the end of a step, whichever way it ends. -/
def Eval.reached {Result : Type} : EStateM.Result Interrupt Machine Result → Machine
  | .ok _ machine => machine
  | .error _ machine => machine

namespace Eval

variable {Result : Type}

/-- An outcome with its machine changed. -/
def onMachine (change : Machine → Machine) :
    EStateM.Result Interrupt Machine Result → EStateM.Result Interrupt Machine Result
  | .ok result machine => .ok result (change machine)
  | .error interrupt machine => .error interrupt (change machine)

theorem reached_onMachine (change : Machine → Machine)
    (outcome : EStateM.Result Interrupt Machine Result) :
    reached (onMachine change outcome) = change (reached outcome) := by
  cases outcome <;> rfl

theorem within_eq (env : Env) (step : Eval Result) (machine : Machine) :
    within env step machine =
      onMachine (fun after => { after with env := machine.env })
        (step { machine with env := env }) := by
  unfold within
  cases step { machine with env := env } <;> rfl

theorem nested_eq (step : Eval Result) (machine : Machine) :
    nested step machine = onMachine (fun after => { after with depth := after.depth - 1 })
      (step { machine with depth := machine.depth + 1 }) := by
  unfold nested
  cases step { machine with depth := machine.depth + 1 } <;> rfl

end Eval

/-- What a rule of evaluation is asked to do. -/
inductive Task where
  | expression (found : Expr)
  | expressions (found : List Expr)
  | call (paren : Token) (called : Value) (values : List Value)
  | apply (callable : Callable) (values : List Value)
  | applyClosure (closure : Closure) (values : List Value)
  | statement (found : Stmt)
  | statements (found : List Stmt)
  | rounds (condition : Expr) (body : Stmt)

/-- A task that is begun in a state with some fuel. -/
structure Moment where
  fuel : Nat
  task : Task
  machine : Machine

namespace Machine

/-- The machine inside a new block. -/
def inBlock (machine : Machine) : Machine :=
  { machine with
    store := (machine.store.child machine.env).2
    env := (machine.store.child machine.env).1 }

/-- The machine at the start of the body of a function. -/
def inBody (machine : Machine) (closure : Closure) (values : List Value) : Machine :=
  let (inner, store) := machine.store.child closure.env
  { machine with
    store := store.defineAll inner (closure.declaration.params.map Token.lexeme) values
    env := inner }

/-- A new instance with its initializer bound to it, and the machine with
both. -/
def withInitializer (machine : Machine) (cls : Class) (method : Closure) : Closure × Machine :=
  let (object, made) := machine.store.newInstance cls
  let (initializer, store) := made.bindMethod method object
  (initializer, { machine with store := store })

end Machine

open Eval

/-- A task begins another one, in the state that leads there. -/
inductive Begins : Moment → Moment → Prop where
  | grouping {fuel : Nat} {machine : Machine} {inner : Expr} :
      Begins ⟨fuel + 1, .expression (.grouping inner), machine⟩ ⟨fuel, .expression inner, machine⟩
  | unary {fuel : Nat} {machine : Machine} {operator : Token} {operand : Expr} :
      Begins ⟨fuel + 1, .expression (.unary operator operand), machine⟩
        ⟨fuel, .expression operand, machine⟩
  | binaryLeft {fuel : Nat} {machine : Machine} {left right : Expr} {operator : Token} :
      Begins ⟨fuel + 1, .expression (.binary left operator right), machine⟩
        ⟨fuel, .expression left, machine⟩
  | binaryRight {fuel : Nat} {machine middle : Machine} {left right : Expr} {operator : Token}
      {first : Value} (ran : expression fuel left machine = .ok first middle) :
      Begins ⟨fuel + 1, .expression (.binary left operator right), machine⟩
        ⟨fuel, .expression right, middle⟩
  | logicalLeft {fuel : Nat} {machine : Machine} {left right : Expr} {operator : Token} :
      Begins ⟨fuel + 1, .expression (.logical left operator right), machine⟩
        ⟨fuel, .expression left, machine⟩
  | logicalRight {fuel : Nat} {machine middle : Machine} {left right : Expr} {operator : Token}
      {first : Value} (ran : expression fuel left machine = .ok first middle)
      (unsettled : Operator.settles operator first = false) :
      Begins ⟨fuel + 1, .expression (.logical left operator right), machine⟩
        ⟨fuel, .expression right, middle⟩
  | assigned {fuel : Nat} {machine : Machine} {occurrence : Occurrence} {value : Expr} :
      Begins ⟨fuel + 1, .expression (.assign occurrence value), machine⟩
        ⟨fuel, .expression value, machine⟩
  | callee {fuel : Nat} {machine : Machine} {callee : Expr} {paren : Token}
      {arguments : List Expr} :
      Begins ⟨fuel + 1, .expression (.call callee paren arguments), machine⟩
        ⟨fuel, .expression callee, machine⟩
  | arguments {fuel : Nat} {machine middle : Machine} {callee : Expr} {paren : Token}
      {arguments : List Expr} {called : Value}
      (ran : expression fuel callee machine = .ok called middle) :
      Begins ⟨fuel + 1, .expression (.call callee paren arguments), machine⟩
        ⟨fuel, .expressions arguments, middle⟩
  | call {fuel : Nat} {machine middle last : Machine} {callee : Expr} {paren : Token}
      {arguments : List Expr} {called : Value} {values : List Value}
      (ran : expression fuel callee machine = .ok called middle)
      (passed : expressions fuel arguments middle = .ok values last) :
      Begins ⟨fuel + 1, .expression (.call callee paren arguments), machine⟩
        ⟨fuel, .call paren called values, last⟩
  | getObject {fuel : Nat} {machine : Machine} {object : Expr} {name : Token} :
      Begins ⟨fuel + 1, .expression (.get object name), machine⟩
        ⟨fuel, .expression object, machine⟩
  | setObject {fuel : Nat} {machine : Machine} {object value : Expr} {name : Token} :
      Begins ⟨fuel + 1, .expression (.set object name value), machine⟩
        ⟨fuel, .expression object, machine⟩
  | setValue {fuel : Nat} {machine middle : Machine} {object value : Expr} {name : Token}
      {found : Instance} (ran : expression fuel object machine = .ok (.object found) middle) :
      Begins ⟨fuel + 1, .expression (.set object name value), machine⟩
        ⟨fuel, .expression value, middle⟩
  | firstExpression {fuel : Nat} {machine : Machine} {first : Expr} {rest : List Expr} :
      Begins ⟨fuel + 1, .expressions (first :: rest), machine⟩ ⟨fuel, .expression first, machine⟩
  | otherExpressions {fuel : Nat} {machine middle : Machine} {first : Expr} {rest : List Expr}
      {value : Value} (ran : expression fuel first machine = .ok value middle) :
      Begins ⟨fuel + 1, .expressions (first :: rest), machine⟩ ⟨fuel, .expressions rest, middle⟩
  | apply {fuel : Nat} {machine : Machine} {paren : Token} {called : Value}
      {values : List Value} {callable : Callable} (found : called.callable? = some callable)
      (arity : values.length = callable.arity) (room : machine.depth < Machine.depthLimit) :
      Begins ⟨fuel + 1, .call paren called values, machine⟩
        ⟨fuel, .apply callable values, { machine with depth := machine.depth + 1 }⟩
  | applyClosure {fuel : Nat} {machine : Machine} {closure : Closure} {values : List Value} :
      Begins ⟨fuel + 1, .apply (.function closure) values, machine⟩
        ⟨fuel, .applyClosure closure values, machine⟩
  | initializer {fuel : Nat} {machine : Machine} {cls : Class} {values : List Value}
      {method : Closure} (found : cls.findMethod? initializerName = some method) :
      Begins ⟨fuel + 1, .apply (.cls cls) values, machine⟩
        ⟨fuel, .applyClosure (machine.withInitializer cls method).1 values,
          (machine.withInitializer cls method).2⟩
  | body {fuel : Nat} {machine : Machine} {closure : Closure} {values : List Value} :
      Begins ⟨fuel + 1, .applyClosure closure values, machine⟩
        ⟨fuel, .statements closure.declaration.body, machine.inBody closure values⟩
  | expression {fuel : Nat} {machine : Machine} {value : Expr} :
      Begins ⟨fuel + 1, .statement (.expression value), machine⟩ ⟨fuel, .expression value, machine⟩
  | printed {fuel : Nat} {machine : Machine} {value : Expr} :
      Begins ⟨fuel + 1, .statement (.print value), machine⟩ ⟨fuel, .expression value, machine⟩
  | initial {fuel : Nat} {machine : Machine} {name : Token} {value : Expr} :
      Begins ⟨fuel + 1, .statement (.var name (some value)), machine⟩
        ⟨fuel, .expression value, machine⟩
  | block {fuel : Nat} {machine : Machine} {body : List Stmt} :
      Begins ⟨fuel + 1, .statement (.block body), machine⟩
        ⟨fuel, .statements body, machine.inBlock⟩
  | condition {fuel : Nat} {machine : Machine} {condition : Expr} {thenBranch : Stmt}
      {elseBranch : Option Stmt} :
      Begins ⟨fuel + 1, .statement (.cond condition thenBranch elseBranch), machine⟩
        ⟨fuel, .expression condition, machine⟩
  | thenBranch {fuel : Nat} {machine middle : Machine} {condition : Expr} {thenBranch : Stmt}
      {elseBranch : Option Stmt} {value : Value}
      (ran : expression fuel condition machine = .ok value middle)
      (truthy : value.isTruthy = true) :
      Begins ⟨fuel + 1, .statement (.cond condition thenBranch elseBranch), machine⟩
        ⟨fuel, .statement thenBranch, middle⟩
  | elseBranch {fuel : Nat} {machine middle : Machine} {condition : Expr}
      {thenBranch elseBranch : Stmt} {value : Value}
      (ran : expression fuel condition machine = .ok value middle)
      (falsy : value.isTruthy = false) :
      Begins ⟨fuel + 1, .statement (.cond condition thenBranch (some elseBranch)), machine⟩
        ⟨fuel, .statement elseBranch, middle⟩
  | loop {fuel : Nat} {machine : Machine} {condition : Expr} {body : Stmt} :
      Begins ⟨fuel + 1, .statement (.loop condition body), machine⟩
        ⟨fuel, .rounds condition body, machine⟩
  | returned {fuel : Nat} {machine : Machine} {keyword : Token} {value : Expr} :
      Begins ⟨fuel + 1, .statement (.ret keyword (some value)), machine⟩
        ⟨fuel, .expression value, machine⟩
  | superclass {fuel : Nat} {machine : Machine} {name : Token} {superclass : Expr}
      {methods : List FunctionDecl} :
      Begins ⟨fuel + 1, .statement (.classDecl name (some superclass) methods), machine⟩
        ⟨fuel, .expression superclass, machine⟩
  | firstStatement {fuel : Nat} {machine : Machine} {first : Stmt} {rest : List Stmt} :
      Begins ⟨fuel + 1, .statements (first :: rest), machine⟩ ⟨fuel, .statement first, machine⟩
  | otherStatements {fuel : Nat} {machine middle : Machine} {first : Stmt} {rest : List Stmt}
      (ran : statement fuel first machine = .ok .normal middle) :
      Begins ⟨fuel + 1, .statements (first :: rest), machine⟩ ⟨fuel, .statements rest, middle⟩
  | roundCondition {fuel : Nat} {machine : Machine} {condition : Expr} {body : Stmt} :
      Begins ⟨fuel + 1, .rounds condition body, machine⟩ ⟨fuel, .expression condition, machine⟩
  | roundBody {fuel : Nat} {machine middle : Machine} {condition : Expr} {body : Stmt}
      {value : Value} (ran : expression fuel condition machine = .ok value middle)
      (truthy : value.isTruthy = true) :
      Begins ⟨fuel + 1, .rounds condition body, machine⟩ ⟨fuel, .statement body, middle⟩
  | nextRound {fuel : Nat} {machine middle last : Machine} {condition : Expr} {body : Stmt}
      {value : Value} (ran : expression fuel condition machine = .ok value middle)
      (truthy : value.isTruthy = true) (done : statement fuel body middle = .ok .normal last) :
      Begins ⟨fuel + 1, .rounds condition body, machine⟩ ⟨fuel, .rounds condition body, last⟩

theorem Begins.fuel_eq {moment next : Moment} (begins : Begins moment next) :
    moment.fuel = next.fuel + 1 := by
  cases begins <;> rfl

/-- The moments of the task that is begun at a moment, that one included. -/
inductive Visits : Moment → Moment → Prop where
  | here (moment : Moment) : Visits moment moment
  | begun {moment next last : Moment} (begins : Begins moment next) (behind : Visits next last) :
      Visits moment last

/-- The moments of a program that is run from a state: those of its statements,
each begun in the state that the one before it has left. -/
inductive Performs (fuel : Nat) : List Stmt → Machine → Moment → Prop where
  | first {first : Stmt} {rest : List Stmt} {machine : Machine} {moment : Moment}
      (visited : Visits ⟨fuel, .statement first, machine⟩ moment) :
      Performs fuel (first :: rest) machine moment
  | others {first : Stmt} {rest : List Stmt} {machine middle : Machine} {flow : Flow}
      {moment : Moment} (ran : statement fuel first machine = .ok flow middle)
      (performed : Performs fuel rest middle moment) :
      Performs fuel (first :: rest) machine moment

theorem Visits.trans {moment middle last : Moment} (visits : Visits moment middle)
    (further : Visits middle last) : Visits moment last := by
  induction visits with
  | here => exact further
  | begun begins _ ih => exact .begun begins (ih further)

theorem Performs.visits {fuel : Nat} {program : List Stmt} {machine : Machine}
    {moment last : Moment} (performs : Performs fuel program machine moment)
    (visits : Visits moment last) : Performs fuel program machine last := by
  induction performs with
  | first visited => exact .first (visited.trans visits)
  | others ran _ ih => exact .others ran (ih visits)

/-! ## Class statements and bound methods -/

/-- An execution of a class statement: the machine it begins in, the class that
its superclass stands for if it has one, and the machine behind the evaluation
of that name. -/
structure Declaration where
  fuel : Nat
  name : Token
  superclass : Option Expr
  methods : List FunctionDecl
  start : Machine
  parent : Option Class
  ready : Machine

namespace Declaration

/-- The moment at which the statement is begun. -/
def moment (declared : Declaration) : Moment :=
  ⟨declared.fuel + 1, .statement (.classDecl declared.name declared.superclass declared.methods),
    declared.start⟩

/-- The statement was begun, and its superclass stood for the class that is
named. -/
structure Happened (seen : Moment → Prop) (declared : Declaration) : Prop where
  begun : seen declared.moment
  denoted : match declared.superclass with
    | none => declared.parent = none ∧ declared.ready = declared.start
    | some superclass => ∃ parent, declared.parent = some parent ∧
        Eval.expression declared.fuel superclass declared.start = .ok (.cls parent) declared.ready

theorem Happened.mono {seen more : Moment → Prop} {declared : Declaration}
    (happened : declared.Happened seen) (le : ∀ moment, seen moment → more moment) :
    declared.Happened more :=
  ⟨le _ happened.begun, happened.denoted⟩

theorem Happened.isSome_parent {seen : Moment → Prop} {declared : Declaration}
    (happened : declared.Happened seen) : declared.parent.isSome = declared.superclass.isSome := by
  have denoted := happened.denoted
  cases superclass : declared.superclass with
  | none =>
      rw [superclass] at denoted
      rw [denoted.1]
      rfl
  | some found =>
      rw [superclass] at denoted
      obtain ⟨parent, same, _⟩ := denoted
      rw [same]
      rfl

end Declaration

/-- The places where a method is bound to an instance, and the stores they find:
a property of the instance, a method of the superclass of the instance at hand,
and the initializer of a new instance. -/
inductive Binding (seen : Moment → Prop) (method : Closure) (object : Instance) : Store → Prop where
  | property {fuel : Nat} {holder : Expr} {name : Token} {start ready : Machine}
      (begun : seen ⟨fuel + 1, .expression (.get holder name), start⟩)
      (evaluated : Eval.expression fuel holder start = .ok (.object object) ready)
      (noField : ready.store.field? object name.lexeme = none)
      (found : object.cls.findMethod? name.lexeme = some method) :
      Binding seen method object ready.store
  | super {fuel : Nat} {occurrence : Occurrence} {name : Token} {machine : Machine}
      {parent : Class} (begun : seen ⟨fuel + 1, .expression (.superRef occurrence name), machine⟩)
      (stands : machine.superBinding? occurrence = some (parent, object))
      (found : parent.findMethod? name.lexeme = some method) :
      Binding seen method object machine.store
  | initializer {fuel : Nat} {cls : Class} {values : List Value} {machine : Machine}
      (begun : seen ⟨fuel + 1, .apply (.cls cls) values, machine⟩)
      (found : cls.findMethod? initializerName = some method)
      (fresh : (machine.store.newInstance cls).1 = object) :
      Binding seen method object (machine.store.newInstance cls).2

theorem Binding.mono {seen more : Moment → Prop} {method : Closure} {object : Instance}
    {store : Store} (binding : Binding seen method object store)
    (le : ∀ moment, seen moment → more moment) : Binding more method object store := by
  cases binding with
  | property begun evaluated noField found => exact .property (le _ begun) evaluated noField found
  | super begun stands found => exact .super (le _ begun) stands found
  | initializer begun found fresh => exact .initializer (le _ begun) found fresh

end LoxLang
