import LoxLang.Grammar.Expression

/-!
# The grammar of statements and declarations

A program is a list of declarations. A fault inside a declaration is reported
and reading goes on at the next statement boundary, so one reading reports
every independent fault. This happens at every list of declarations, that of a
block included: a broken declaration inside a block does not spoil the block.
The methods of a class are no declarations of their own, and a fault in one
spoils the class.

`Grammar.program` reads a whole program and `Grammar.singleExpression` one
expression that fills the input. Both give as much fuel as the length of the
stream can use.
-/

namespace LoxLang

set_option autoImplicit false

namespace Reader

/-- What opens a declaration. -/
inductive DeclarationHead where
  | classWord
  | funWord
  | varWord

/-- The opening of a declaration that a token is. -/
def declarationHead? (token : Token) : Option DeclarationHead :=
  match token.kind with
  | .keyword .kwClass => some .classWord
  | .keyword .kwFun => some .funWord
  | .keyword .kwVar => some .varWord
  | _ => none

/-- What opens a statement other than an expression. -/
inductive StatementHead where
  | forWord
  | ifWord
  | whileWord
  | returnWord
  | printWord
  | brace

/-- The opening of a statement that a token is. -/
def statementHead? (token : Token) : Option StatementHead :=
  match token.kind with
  | .keyword .kwFor => some .forWord
  | .keyword .kwIf => some .ifWord
  | .keyword .kwWhile => some .whileWord
  | .keyword .kwReturn => some .returnWord
  | .keyword .kwPrint => some .printWord
  | .punct .leftBrace => some .brace
  | _ => none

/-- An expression, unless a given punctuator is next. -/
def expressionUnless (mark : Punct) (fuel : Nat) : Reader (Option Expr) := do
  if ← upcoming (Token.isPunct mark) then return none
  else return some (← expression fuel)

/-- An expression and the semicolon behind it. -/
def expressionStatement (fuel : Nat) : Reader Stmt := do
  let value ← expression fuel
  let _ ← expectPunct .semicolon .expressionEnd
  return .expression value

/-- A `print` statement behind its first word. -/
def printStatement (fuel : Nat) : Reader Stmt := do
  let value ← expression fuel
  let _ ← expectPunct .semicolon .valueEnd
  return .print value

/-- A `return` statement behind its first word. -/
def returnStatement (fuel : Nat) (keyword : Token) : Reader Stmt := do
  let value ← expressionUnless .semicolon fuel
  let _ ← expectPunct .semicolon .returnEnd
  return .ret keyword value

/-- The declaration of a variable behind its first word. -/
def varDeclaration (fuel : Nat) : Reader Stmt := do
  let name ← expectIdentifier .variableName
  let initializer ← match ← acceptPunct? .equal with
    | some _ => some <$> expression fuel
    | none => pure none
  let _ ← expectPunct .semicolon .variableEnd
  return .var name initializer

/-- The first clause of a counting loop. -/
def forInitializer (fuel : Nat) : Reader (Option Stmt) := do
  match ← acceptPunct? .semicolon with
  | some _ => return none
  | none =>
    match ← acceptKeyword? .kwVar with
    | some _ => return some (← varDeclaration fuel)
    | none => return some (← expressionStatement fuel)

/-- One or more parameters, of which `count` have been read before. Each one
past the limit is reported. -/
def parameters : Nat → Nat → Reader (List Token)
  | 0, _ => outOfFuel
  | fuel + 1, count => do
    if listLimit ≤ count then reportHere .tooManyParameters
    let first ← expectIdentifier .parameterName
    match ← acceptPunct? .comma with
    | none => return [first]
    | some _ => return first :: (← parameters fuel (count + 1))

/-- The name of a superclass, if there is one. -/
def superclass : Reader (Option Expr) := do
  match ← acceptPunct? .less with
  | none => return none
  | some _ =>
    let name ← expectIdentifier .superclassName
    return some (.var ⟨← freshId, name⟩)

mutual

/-- A declaration. -/
def declaration : Nat → Reader Stmt
  | 0 => outOfFuel
  | fuel + 1 => do
    match ← acceptAs? declarationHead? with
    | some (_, .classWord) => classDeclaration fuel
    | some (_, .funWord) => return .function (← function fuel .function)
    | some (_, .varWord) => varDeclaration fuel
    | none => statement fuel

/-- The declaration of a class behind its first word. -/
def classDeclaration : Nat → Reader Stmt
  | 0 => outOfFuel
  | fuel + 1 => do
    let name ← expectIdentifier .className
    let parent ← superclass
    let _ ← expectPunct .leftBrace .classBody
    let methods ← methods fuel
    let _ ← expectPunct .rightBrace .classEnd
    return .classDecl name parent methods

/-- The methods of a class up to its closing brace. -/
def methods : Nat → Reader (List FunctionDecl)
  | 0 => outOfFuel
  | fuel + 1 => do
    if (← upcoming (Token.isPunct .rightBrace)) || (← atEnd) then return []
    let method ← function fuel .method
    return method :: (← methods fuel)

/-- A named function with its parameters and body. -/
def function : Nat → Callee → Reader FunctionDecl
  | 0, _ => outOfFuel
  | fuel + 1, callee => do
    let name ← expectIdentifier (.calleeName callee)
    let _ ← expectPunct .leftParen (.parameterList callee)
    let params ← if ← upcoming (Token.isPunct .rightParen) then pure [] else parameters fuel 0
    let _ ← expectPunct .rightParen .parameterListEnd
    let _ ← expectPunct .leftBrace (.calleeBody callee)
    let body ← block fuel
    return ⟨← freshId, name, params, body⟩

/-- A block behind its opening brace. -/
def block : Nat → Reader (List Stmt)
  | 0 => outOfFuel
  | fuel + 1 => do
    let body ← blockBody fuel
    let _ ← expectPunct .rightBrace .blockEnd
    return body

/-- Declarations up to a closing brace or the end of the input. -/
def blockBody : Nat → Reader (List Stmt)
  | 0 => outOfFuel
  | fuel + 1 => do
    if (← upcoming (Token.isPunct .rightBrace)) || (← atEnd) then return []
    let first ← recover (declaration fuel)
    return first.toList ++ (← blockBody fuel)

/-- A statement that is no declaration. -/
def statement : Nat → Reader Stmt
  | 0 => outOfFuel
  | fuel + 1 => do
    match ← acceptAs? statementHead? with
    | some (_, .forWord) => forStatement fuel
    | some (_, .ifWord) => ifStatement fuel
    | some (_, .whileWord) => whileStatement fuel
    | some (keyword, .returnWord) => returnStatement fuel keyword
    | some (_, .printWord) => printStatement fuel
    | some (_, .brace) => return .block (← block fuel)
    | none => expressionStatement fuel

/-- A counting loop behind its first word. -/
def forStatement : Nat → Reader Stmt
  | 0 => outOfFuel
  | fuel + 1 => do
    let _ ← expectPunct .leftParen .forClauses
    let initializer ← forInitializer fuel
    let condition ← expressionUnless .semicolon fuel
    let _ ← expectPunct .semicolon .forConditionEnd
    let increment ← expressionUnless .rightParen fuel
    let _ ← expectPunct .rightParen .forClausesEnd
    let body ← statement fuel
    return .counting initializer condition increment body

/-- A conditional behind its first word. -/
def ifStatement : Nat → Reader Stmt
  | 0 => outOfFuel
  | fuel + 1 => do
    let _ ← expectPunct .leftParen .ifCondition
    let condition ← expression fuel
    let _ ← expectPunct .rightParen .conditionEnd
    let thenBranch ← statement fuel
    match ← acceptKeyword? .kwElse with
    | some _ => return .cond condition thenBranch (some (← statement fuel))
    | none => return .cond condition thenBranch none

/-- A loop with a condition behind its first word. -/
def whileStatement : Nat → Reader Stmt
  | 0 => outOfFuel
  | fuel + 1 => do
    let _ ← expectPunct .leftParen .whileCondition
    let condition ← expression fuel
    let _ ← expectPunct .rightParen .conditionEnd
    return .loop condition (← statement fuel)

end

/-- Declarations up to the end of the input. -/
def declarations : Nat → Reader (List Stmt)
  | 0 => outOfFuel
  | fuel + 1 => do
    if ← atEnd then return []
    let first ← recover (declaration fuel)
    return first.toList ++ (← declarations fuel)

/-- One expression that fills the input. -/
def expressionToEnd (fuel : Nat) : Reader Expr := do
  let found ← expression fuel
  if ← atEnd then return found else fail .endOfExpression

end Reader

namespace Grammar

/-- Fuel that no reading of a stream uses up: between two tokens taken, rules
nest less than sixteen deep. -/
def fuelFor (stream : TokenStream) : Nat := 16 * (stream.tokens.length + 1)

/-- What a program is read into: the declarations that could be read, the
errors, and the next free node number. -/
structure Program where
  statements : List Stmt
  errors : List GrammarError
  nextId : Nat

/-- Reads a program. Nodes are numbered from `nextId` on. -/
def program (stream : TokenStream) (nextId : Nat) : Program :=
  match Reader.declarations (fuelFor stream) (ReaderState.start stream nextId) with
  | .ok statements state => ⟨statements, state.errors, state.nextId⟩
  | .error _ state => ⟨[], state.errors, state.nextId⟩

/-- Reads one expression that fills the input. A fault that stops the reading
goes before those that do not. -/
def singleExpression (stream : TokenStream) : Except GrammarError Expr :=
  let start := ReaderState.start stream 0
  match Reader.expressionToEnd (fuelFor stream) start with
  | .ok found state => match state.errors with
    | [] => .ok found
    | error :: _ => .error error
  | .error (.fault error) _ => .error error
  | .error .outOfFuel state => .error (state.located (.expected .expression))

end Grammar

end LoxLang
