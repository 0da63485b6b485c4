import LoxLang.Grammar.Statement

/-!
# What each rule of the grammar does

A rule of the grammar is a plan: which steps of a reader it takes and which other
rules it calls on. A plan is data, so what is to be shown of every rule is shown
for each kind of step once. `Rule.plan` says what each rule does, and
`Rule.read_succ` that a reader does just this with one unit of fuel less.
-/

namespace LoxLang

set_option autoImplicit false

/-- The rules that call on each other, with what a rule is given and what it
reads. -/
inductive Rule : Type → Type where
  | expression : Rule Expr
  | operand (tier : Option Tier) : Rule Expr
  | operandTail (tier : Tier) (left : Expr) : Rule Expr
  | unary : Rule Expr
  | callTail (callee : Expr) : Rule Expr
  | arguments (count : Nat) : Rule (List Expr)
  | primary : Rule Expr
  | parameters (count : Nat) : Rule (List Token)
  | declaration : Rule Stmt
  | classDeclaration : Rule Stmt
  | methods : Rule (List FunctionDecl)
  | function (callee : Callee) : Rule FunctionDecl
  | block : Rule (List Stmt)
  | blockBody : Rule (List Stmt)
  | statement : Rule Stmt
  | forStatement : Rule Stmt
  | ifStatement : Rule Stmt
  | whileStatement : Rule Stmt
  | declarations : Rule (List Stmt)

/-- What a rule does. An element of a list is reported if it is past the `limit`.
Only declarations are recovered from, and none is begun at the end of the input:
`declared?` gives nothing there or if it is told to stop, and otherwise what could
be read of a declaration. -/
inductive Plan : Type → Type 1 where
  | done {Result : Type} (result : Result) : Plan Result
  | andThen {Part Result : Type} (first : Plan Part) (next : Part → Plan Result) : Plan Result
  | call {Result : Type} (rule : Rule Result) : Plan Result
  | fail {Result : Type} (expectation : Expectation) : Plan Result
  | limit (count : Nat) (cause : GrammarCause) : Plan Unit
  | reportAt (token : Token) (cause : GrammarCause) : Plan Unit
  | freshId : Plan Nat
  | atEnd : Plan Bool
  | upcoming (test : Token → Bool) : Plan Bool
  | accept? (test : Token → Bool) : Plan (Option Token)
  | acceptAs? {Class : Type} (classify : Token → Option Class) : Plan (Option (Token × Class))
  | expect (test : Token → Bool) (expectation : Expectation) : Plan Token
  | declared? (stop : Bool) : Plan (Option (Option Stmt))

namespace Plan

instance : Monad Plan where
  pure := done
  bind := andThen

variable {Part Result : Type}

@[simp] theorem pure_eq (result : Result) : (pure result : Plan Result) = done result := rfl

@[simp] theorem bind_eq (first : Plan Part) (next : Part → Plan Result) :
    first >>= next = andThen first next := rfl

/-! ## The plans of clauses -/

@[simp] def acceptPunct? (mark : Punct) : Plan (Option Token) := accept? (Token.isPunct mark)

@[simp] def expectPunct (mark : Punct) (expectation : Expectation) : Plan Token :=
  expect (Token.isPunct mark) expectation

@[simp] def expectIdentifier (expectation : Expectation) : Plan Token :=
  expect Token.isIdentifier expectation

def assignment (target : Expr) (equals : Token) (value : Expr) : Plan Expr := do
  match target with
  | .var occurrence => return .assign ⟨← freshId, occurrence.token⟩ value
  | .get object name => return .set object name value
  | other =>
    reportAt equals .invalidAssignmentTarget
    return other

/-- What may be left out in front of a punctuator. -/
@[simp] def unlessNext (mark : Punct) (missing : Result) (plan : Plan Result) :
    Plan Result := do
  if ← upcoming (Token.isPunct mark) then return missing else plan

@[simp] def expressionUnless (mark : Punct) : Plan (Option Expr) :=
  unlessNext mark none do return some (← call .expression)

@[simp] def expressionStatement : Plan Stmt := do
  let value ← call .expression
  let _ ← expectPunct .semicolon .expressionEnd
  return .expression value

@[simp] def printStatement : Plan Stmt := do
  let value ← call .expression
  let _ ← expectPunct .semicolon .valueEnd
  return .print value

@[simp] def returnStatement (keyword : Token) : Plan Stmt := do
  let value ← expressionUnless .semicolon
  let _ ← expectPunct .semicolon .returnEnd
  return .ret keyword value

@[simp] def varDeclaration : Plan Stmt := do
  let name ← expectIdentifier .variableName
  let initializer ← match ← acceptPunct? .equal with
    | some _ => pure (some (← call .expression))
    | none => pure none
  let _ ← expectPunct .semicolon .variableEnd
  return .var name initializer

@[simp] def forInitializer : Plan (Option Stmt) := do
  match ← acceptPunct? .semicolon with
  | some _ => return none
  | none =>
    match ← accept? (Token.isKeyword .kwVar) with
    | some _ => return some (← varDeclaration)
    | none => return some (← expressionStatement)

@[simp] def superclass : Plan (Option Expr) := do
  match ← acceptPunct? .less with
  | none => return none
  | some _ =>
    let name ← expectIdentifier .superclassName
    return some (.var ⟨← freshId, name⟩)

/-- One expression that fills the input. -/
def expressionToEnd : Plan Expr := do
  let found ← call .expression
  if ← atEnd then return found else fail .endOfExpression

end Plan

open Plan in
/-- The plan of each rule. -/
@[simp] def Rule.plan {Result : Type} : Rule Result → Plan Result
  | expression => do
    let target ← call (operand (some .disjunction))
    match ← acceptPunct? .equal with
    | none => return target
    | some equals => assignment target equals (← call expression)
  | operand none => call unary
  | operand (some tier) => do call (operandTail tier (← call (operand tier.tighter?)))
  | operandTail tier left => do
    match ← accept? tier.isOperator with
    | none => return left
    | some operator =>
      let right ← call (operand tier.tighter?)
      call (operandTail tier (tier.node left operator right))
  | unary => do
    match ← accept? Reader.isUnaryOperator with
    | some operator => return .unary operator (← call unary)
    | none => call (callTail (← call primary))
  | callTail callee => do
    match ← acceptPunct? .leftParen with
    | some _ =>
      let arguments ← unlessNext .rightParen [] (call (arguments 0))
      let paren ← expectPunct .rightParen .argumentListEnd
      call (callTail (.call callee paren arguments))
    | none =>
      match ← acceptPunct? .dot with
      | some _ => call (callTail (.get callee (← expectIdentifier .propertyName)))
      | none => return callee
  | arguments count => do
    limit count .tooManyArguments
    let first ← call expression
    match ← acceptPunct? .comma with
    | none => return [first]
    | some _ => return first :: (← call (arguments (count + 1)))
  | primary => do
    match ← acceptAs? Reader.primaryHead? with
    | none => fail .expression
    | some (_, .literal value) => return .literal value
    | some (keyword, .thisWord) => return .thisRef ⟨← freshId, keyword⟩
    | some (keyword, .superWord) =>
      let _ ← expectPunct .dot .superDot
      let method ← expectIdentifier .superMethod
      return .superRef ⟨← freshId, keyword⟩ method
    | some (name, .name) => return .var ⟨← freshId, name⟩
    | some (_, .group) =>
      let inner ← call expression
      let _ ← expectPunct .rightParen .groupEnd
      return .grouping inner
  | parameters count => do
    limit count .tooManyParameters
    let first ← expectIdentifier .parameterName
    match ← acceptPunct? .comma with
    | none => return [first]
    | some _ => return first :: (← call (parameters (count + 1)))
  | declaration => do
    match ← acceptAs? Reader.declarationHead? with
    | some (_, .classWord) => call classDeclaration
    | some (_, .funWord) => return .function (← call (function .function))
    | some (_, .varWord) => varDeclaration
    | none => call statement
  | classDeclaration => do
    let name ← expectIdentifier .className
    let parent ← superclass
    let _ ← expectPunct .leftBrace .classBody
    let methods ← call methods
    let _ ← expectPunct .rightBrace .classEnd
    return .classDecl name parent methods
  | methods => do
    if (← upcoming (Token.isPunct .rightBrace)) || (← atEnd) then return []
    let method ← call (function .method)
    return method :: (← call methods)
  | function callee => do
    let name ← expectIdentifier (.calleeName callee)
    let _ ← expectPunct .leftParen (.parameterList callee)
    let params ← unlessNext .rightParen [] (call (parameters 0))
    let _ ← expectPunct .rightParen .parameterListEnd
    let _ ← expectPunct .leftBrace (.calleeBody callee)
    let body ← call block
    return ⟨← freshId, name, params, body⟩
  | block => do
    let body ← call blockBody
    let _ ← expectPunct .rightBrace .blockEnd
    return body
  | blockBody => do
    match ← declared? (← upcoming (Token.isPunct .rightBrace)) with
    | none => return []
    | some first => return first.toList ++ (← call blockBody)
  | statement => do
    match ← acceptAs? Reader.statementHead? with
    | some (_, .forWord) => call forStatement
    | some (_, .ifWord) => call ifStatement
    | some (_, .whileWord) => call whileStatement
    | some (keyword, .returnWord) => returnStatement keyword
    | some (_, .printWord) => printStatement
    | some (_, .brace) => return .block (← call block)
    | none => expressionStatement
  | forStatement => do
    let _ ← expectPunct .leftParen .forClauses
    let initializer ← forInitializer
    let condition ← expressionUnless .semicolon
    let _ ← expectPunct .semicolon .forConditionEnd
    let increment ← expressionUnless .rightParen
    let _ ← expectPunct .rightParen .forClausesEnd
    let body ← call statement
    return .counting initializer condition increment body
  | ifStatement => do
    let _ ← expectPunct .leftParen .ifCondition
    let condition ← call expression
    let _ ← expectPunct .rightParen .conditionEnd
    let thenBranch ← call statement
    match ← accept? (Token.isKeyword .kwElse) with
    | some _ => return .cond condition thenBranch (some (← call statement))
    | none => return .cond condition thenBranch none
  | whileStatement => do
    let _ ← expectPunct .leftParen .whileCondition
    let condition ← call expression
    let _ ← expectPunct .rightParen .conditionEnd
    return .loop condition (← call statement)
  | declarations => do
    match ← declared? false with
    | none => return []
    | some first => return first.toList ++ (← call declarations)

/-! ## Plans as readers -/

namespace Reader

variable {Result Other : Type}

theorem bind_of_ok {step : Reader Result} {start after : ReaderState} {result : Result}
    (reading : step start = .ok result after) (next : Result → Reader Other) :
    (step >>= next) start = next result after := by
  simp only [Bind.bind, EStateM.bind, reading]

theorem bind_of_error {step : Reader Result} {start after : ReaderState} {stop : ReaderStop}
    (reading : step start = .error stop after) (next : Result → Reader Other) :
    (step >>= next) start = .error stop after := by
  simp only [Bind.bind, EStateM.bind, reading]

end Reader

/-- The reader of a rule. -/
def Rule.read {Result : Type} (fuel : Nat) : Rule Result → Reader Result
  | expression => Reader.expression fuel
  | operand tier => Reader.operand fuel tier
  | operandTail tier left => Reader.operandTail fuel tier left
  | unary => Reader.unary fuel
  | callTail callee => Reader.callTail fuel callee
  | arguments count => Reader.arguments fuel count
  | primary => Reader.primary fuel
  | parameters count => Reader.parameters fuel count
  | declaration => Reader.declaration fuel
  | classDeclaration => Reader.classDeclaration fuel
  | methods => Reader.methods fuel
  | function callee => Reader.function fuel callee
  | block => Reader.block fuel
  | blockBody => Reader.blockBody fuel
  | statement => Reader.statement fuel
  | forStatement => Reader.forStatement fuel
  | ifStatement => Reader.ifStatement fuel
  | whileStatement => Reader.whileStatement fuel
  | declarations => Reader.declarations fuel

/-- A declaration that is recovered from, unless the input or the list has
ended. -/
def Reader.declared? (stop : Bool) (fuel : Nat) : Reader (Option (Option Stmt)) := do
  if stop || (← atEnd) then return none
  else return some (← recover (declaration fuel))

/-- The reader of a plan, with the fuel for the rules it calls on. -/
def Plan.read (fuel : Nat) {Result : Type} : Plan Result → Reader Result
  | done result => pure result
  | andThen first next => first.read fuel >>= fun part => (next part).read fuel
  | call rule => rule.read fuel
  | fail expectation => Reader.fail expectation
  | limit count cause => if listLimit ≤ count then Reader.reportHere cause else pure ()
  | reportAt token cause => Reader.reportAt token cause
  | freshId => Reader.freshId
  | atEnd => Reader.atEnd
  | upcoming test => Reader.upcoming test
  | accept? test => Reader.accept? test
  | acceptAs? classify => Reader.acceptAs? classify
  | expect test expectation => Reader.expect test expectation
  | declared? stop => Reader.declared? stop fuel

theorem Rule.read_zero {Result : Type} (rule : Rule Result) : rule.read 0 = Reader.outOfFuel := by
  cases rule <;> rfl

variable {fuel : Nat} {Result Other : Type}

theorem Plan.read_bind (first : Plan Other) (next : Other → Plan Result) :
    (first >>= next).read fuel = first.read fuel >>= fun part => (next part).read fuel := rfl

theorem Plan.read_assignment (target : Expr) (equals : Token) (value : Expr) :
    (Plan.assignment target equals value).read fuel = Reader.assignment target equals value := by
  cases target <;> rfl

theorem Plan.read_expressionUnless (mark : Punct) :
    (Plan.expressionUnless mark).read fuel = Reader.expressionUnless mark fuel :=
  bind_congr fun next => by cases next <;> rfl

theorem Plan.read_varDeclaration :
    Plan.varDeclaration.read fuel = Reader.varDeclaration fuel := by
  refine bind_congr fun name => bind_congr fun equals => ?_
  cases equals with
  | none => rfl
  | some _ =>
      refine Eq.trans ?_ (bind_map_left some (Reader.expression fuel) _).symm
      rfl

theorem Plan.read_forInitializer :
    Plan.forInitializer.read fuel = Reader.forInitializer fuel := by
  refine bind_congr fun semicolon => ?_
  cases semicolon with
  | some _ => rfl
  | none =>
      refine bind_congr fun word => ?_
      cases word with
      | none => rfl
      | some _ => exact congrArg (· >>= _) Plan.read_varDeclaration

theorem Plan.read_superclass : Plan.superclass.read fuel = Reader.superclass :=
  bind_congr fun less => by cases less <;> rfl

theorem Plan.read_expressionToEnd :
    Plan.expressionToEnd.read fuel = Reader.expressionToEnd fuel :=
  bind_congr fun _ => bind_congr fun ended => by cases ended <;> rfl

theorem Plan.read_unlessNext_bind (mark : Punct) (missing : Other) (plan : Plan Other)
    (next : Other → Plan Result) :
    (Plan.unlessNext mark missing plan >>= next).read fuel = (do
      if ← Reader.upcoming (Token.isPunct mark) then (next missing).read fuel
      else plan.read fuel >>= fun part => (next part).read fuel) := by
  refine (bind_assoc ..).trans (bind_congr fun found => ?_)
  cases found <;> rfl

theorem Plan.read_limit_bind (count : Nat) (cause : GrammarCause) (next : Unit → Plan Result) :
    (Plan.limit count cause >>= next).read fuel =
      if listLimit ≤ count then (do
        Reader.reportHere cause
        (next ()).read fuel)
      else (next ()).read fuel := by
  rw [read_bind, Plan.read]
  split <;> rfl

theorem Plan.read_declared?_bind (stop : Bool) (next : Option (Option Stmt) → Plan Result) :
    (Plan.declared? stop >>= next).read fuel = (do
      if stop || (← Reader.atEnd) then (next none).read fuel
      else
        let found ← Reader.recover (Reader.declaration fuel)
        (next (some found)).read fuel) := by
  refine (bind_assoc ..).trans (bind_congr fun ended => ?_)
  cases stop || ended with
  | true => rfl
  | false => exact bind_assoc ..

theorem Rule.read_succ (rule : Rule Result) : rule.read (fuel + 1) = rule.plan.read fuel := by
  cases rule with
  | expression =>
      refine bind_congr fun target => bind_congr fun equals => ?_
      cases equals with
      | none => rfl
      | some equals => exact bind_congr fun value => (Plan.read_assignment ..).symm
  | operand tier => cases tier <;> rfl
  | operandTail tier left | unary => exact bind_congr fun operator => by cases operator <;> rfl
  | callTail callee =>
      refine bind_congr fun paren => ?_
      cases paren with
      | none => exact bind_congr fun dot => by cases dot <;> rfl
      | some _ =>
          refine Eq.trans (bind_congr fun none => ?_) (Plan.read_unlessNext_bind ..).symm
          cases none <;> rfl
  | arguments count | parameters count =>
      refine Eq.trans (ite_congr rfl (fun _ => ?_) fun _ => ?_) (Plan.read_limit_bind ..).symm
      · refine bind_congr fun _ => bind_congr fun first => bind_congr fun comma => ?_
        cases comma <;> rfl
      · refine bind_congr fun first => bind_congr fun comma => ?_
        cases comma <;> rfl
  | primary =>
      refine bind_congr fun head => ?_
      rcases head with _ | ⟨_, head⟩
      · rfl
      · cases head <;> rfl
  | declaration =>
      refine bind_congr fun head => ?_
      rcases head with _ | ⟨_, head⟩
      · rfl
      · cases head with
        | varWord => exact Plan.read_varDeclaration.symm
        | _ => rfl
  | classDeclaration =>
      refine bind_congr fun name => ?_
      exact congrArg (· >>= _) Plan.read_superclass.symm
  | methods =>
      refine bind_congr fun closing => bind_congr fun ended => ?_
      simp only
      split <;> rfl
  | function callee =>
      refine bind_congr fun name => bind_congr fun _ => ?_
      refine Eq.trans (bind_congr fun none => ?_) (Plan.read_unlessNext_bind ..).symm
      cases none <;> rfl
  | block => rfl
  | blockBody =>
      refine bind_congr fun closing => Eq.trans ?_ (Plan.read_declared?_bind ..).symm
      rfl
  | statement =>
      refine bind_congr fun head => ?_
      rcases head with _ | ⟨token, head⟩
      · rfl
      · cases head with
        | returnWord => exact congrArg (· >>= _) (Plan.read_expressionUnless ..).symm
        | _ => rfl
  | forStatement =>
      simp only [read, Reader.forStatement, plan, Plan.read_bind, Plan.read_forInitializer,
        Plan.read_expressionUnless]
      rfl
  | ifStatement =>
      refine bind_congr fun _ => bind_congr fun condition => bind_congr fun _ => ?_
      refine bind_congr fun thenBranch => bind_congr fun word => ?_
      cases word <;> rfl
  | whileStatement => rfl
  | declarations =>
      refine Eq.trans ?_ (Plan.read_declared?_bind ..).symm
      rfl

end LoxLang
