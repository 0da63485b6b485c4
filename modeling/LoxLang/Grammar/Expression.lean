import LoxLang.Grammar.Reader

/-!
# The grammar of expressions

Binary operators come in six tiers, from `or` down to the products. All of
them lead from the left, so one rule reads every tier: an operand of the
tighter tier, then operators of this tier with their right operands, as long
as there are any. Below the tiers are the unary operators, then calls and
property reads, then the primary expressions.

Assignment is read as a tier above `or`, from the right. Its target is read
like any expression and only then seen to be a name or a property. Any other
target is reported, and reading goes on with the target alone.
-/

namespace LoxLang

set_option autoImplicit false

/-- The tiers of binary operators, from the loosest to the tightest. -/
inductive Tier where
  | disjunction
  | conjunction
  | equality
  | comparison
  | term
  | factor
  deriving DecidableEq, Repr

namespace Tier

/-- The next tighter tier. Operands of the tightest one are unary. -/
def tighter? : Tier → Option Tier
  | disjunction => some conjunction
  | conjunction => some equality
  | equality => some comparison
  | comparison => some term
  | term => some factor
  | factor => none

/-- Whether a token is an operator of the tier. -/
def isOperator (tier : Tier) (token : Token) : Bool :=
  match tier with
  | disjunction => token.isKeyword .kwOr
  | conjunction => token.isKeyword .kwAnd
  | equality => token.isPunct .bangEqual || token.isPunct .equalEqual
  | comparison =>
    token.isPunct .greater || token.isPunct .greaterEqual ||
      token.isPunct .less || token.isPunct .lessEqual
  | term => token.isPunct .minus || token.isPunct .plus
  | factor => token.isPunct .star || token.isPunct .slash

/-- The node that an operator of the tier makes. -/
def node (tier : Tier) (left : Expr) (operator : Token) (right : Expr) : Expr :=
  match tier with
  | disjunction => .logical left operator right
  | conjunction => .logical left operator right
  | _ => .binary left operator right

end Tier

namespace Reader

/-- Whether a token is a unary operator. -/
def isUnaryOperator (token : Token) : Bool := token.isPunct .bang || token.isPunct .minus

/-- What a primary expression starts with. -/
inductive PrimaryHead where
  | literal (value : Literal)
  | thisWord
  | superWord
  | name
  | group

/-- The start of a primary expression that a token is. -/
def primaryHead? (token : Token) : Option PrimaryHead :=
  match token.kind with
  | .keyword .kwFalse => some (.literal (.bool false))
  | .keyword .kwTrue => some (.literal (.bool true))
  | .keyword .kwNil => some (.literal .nil)
  | .keyword .kwThis => some .thisWord
  | .keyword .kwSuper => some .superWord
  | .number value => some (.literal (.number value))
  | .string contents => some (.literal (.string contents))
  | .identifier => some .name
  | .punct .leftParen => some .group
  | _ => none

/-- The tree of an assignment, or a report at the equals sign if the target is
neither a name nor a property. -/
def assignment (target : Expr) (equals : Token) (value : Expr) : Reader Expr := do
  match target with
  | .var occurrence => return .assign ⟨← freshId, occurrence.token⟩ value
  | .get object name => return .set object name value
  | other =>
    reportAt equals .invalidAssignmentTarget
    return other

mutual

/-- An assignment, or an expression of the loosest tier. -/
def expression : Nat → Reader Expr
  | 0 => outOfFuel
  | fuel + 1 => do
    let target ← operand fuel (some .disjunction)
    match ← acceptPunct? .equal with
    | none => return target
    | some equals =>
      let value ← expression fuel
      assignment target equals value

/-- An expression of a tier, or a unary one. -/
def operand : Nat → Option Tier → Reader Expr
  | 0, _ => outOfFuel
  | fuel + 1, none => unary fuel
  | fuel + 1, some tier => do
    let left ← operand fuel tier.tighter?
    operandTail fuel tier left

/-- The operators of a tier behind a left operand. -/
def operandTail : Nat → Tier → Expr → Reader Expr
  | 0, _, _ => outOfFuel
  | fuel + 1, tier, left => do
    match ← accept? tier.isOperator with
    | none => return left
    | some operator =>
      let right ← operand fuel tier.tighter?
      operandTail fuel tier (tier.node left operator right)

/-- Unary operators in front of a call. -/
def unary : Nat → Reader Expr
  | 0 => outOfFuel
  | fuel + 1 => do
    match ← accept? isUnaryOperator with
    | some operator => return .unary operator (← unary fuel)
    | none =>
      let callee ← primary fuel
      callTail fuel callee

/-- Calls and property reads behind an expression. -/
def callTail : Nat → Expr → Reader Expr
  | 0, _ => outOfFuel
  | fuel + 1, callee => do
    match ← acceptPunct? .leftParen with
    | some _ =>
      let arguments ← if ← upcoming (Token.isPunct .rightParen) then pure [] else arguments fuel 0
      let paren ← expectPunct .rightParen .argumentListEnd
      callTail fuel (.call callee paren arguments)
    | none =>
      match ← acceptPunct? .dot with
      | some _ =>
        let name ← expectIdentifier .propertyName
        callTail fuel (.get callee name)
      | none => return callee

/-- One or more arguments, of which `count` have been read before. Each one
past the limit is reported. -/
def arguments : Nat → Nat → Reader (List Expr)
  | 0, _ => outOfFuel
  | fuel + 1, count => do
    if listLimit ≤ count then reportHere .tooManyArguments
    let first ← expression fuel
    match ← acceptPunct? .comma with
    | none => return [first]
    | some _ => return first :: (← arguments fuel (count + 1))

/-- A literal, a name, `this`, a method of the superclass, or a group. -/
def primary : Nat → Reader Expr
  | 0 => outOfFuel
  | fuel + 1 => do
    match ← acceptAs? primaryHead? with
    | none => fail .expression
    | some (_, .literal value) => return .literal value
    | some (keyword, .thisWord) => return .thisRef ⟨← freshId, keyword⟩
    | some (keyword, .superWord) =>
      let _ ← expectPunct .dot .superDot
      let method ← expectIdentifier .superMethod
      return .superRef ⟨← freshId, keyword⟩ method
    | some (name, .name) => return .var ⟨← freshId, name⟩
    | some (_, .group) =>
      let inner ← expression fuel
      let _ ← expectPunct .rightParen .groupEnd
      return .grouping inner

end

end Reader

end LoxLang
