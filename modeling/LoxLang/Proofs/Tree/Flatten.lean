import LoxLang.Proofs.Tree.WellFormed

/-!
# Expressions as tokens

An expression is written back as tokens in the order of the text
(`Expr.flatten`). A tree keeps the tokens of operators and names and the closing
parentheses of calls. The others are made up with their kind and spelling: those
of literals, of groups, of opening parentheses, commas, dots and equals signs. So
tokens are compared by what they mean (`Token.meaning`).

Not every tree can be read back, because a tree has no need of parentheses. Its
operands have to be at the right level (`Expr.Levelled`): at least as tight as
the operator that they belong to, and tighter to the right of an operator that
groups to the left.
-/

namespace LoxLang

set_option autoImplicit false

/-! ## Flattening -/

/-- What a token means: its kind, which holds the value of a literal, and the
spelling of a name. -/
def Token.meaning (token : Token) : Token.Kind × Option String :=
  (token.kind, if token.isIdentifier then some token.lexeme else none)

/-- A punctuator that no tree has kept. -/
def Punct.token (mark : Punct) : Token := ⟨.punct mark, mark.text, 0⟩

/-- A literal as a token. -/
def Literal.token : Literal → Token
  | nil => ⟨.keyword .kwNil, Keyword.kwNil.text, 0⟩
  | bool true => ⟨.keyword .kwTrue, Keyword.kwTrue.text, 0⟩
  | bool false => ⟨.keyword .kwFalse, Keyword.kwFalse.text, 0⟩
  | number value => ⟨.number value, "", 0⟩
  | string value => ⟨.string value, "", 0⟩

namespace Expr

mutual

/-- The tokens of an expression. -/
def flatten : Expr → List Token
  | literal value => [value.token]
  | unary operator operand => operator :: operand.flatten
  | binary left operator right => left.flatten ++ operator :: right.flatten
  | logical left operator right => left.flatten ++ operator :: right.flatten
  | grouping inner => Punct.leftParen.token :: (inner.flatten ++ [Punct.rightParen.token])
  | var occurrence => [occurrence.token]
  | assign occurrence value => occurrence.token :: Punct.equal.token :: value.flatten
  | call callee paren arguments =>
    callee.flatten ++ Punct.leftParen.token :: (flattenAll arguments ++ [paren])
  | get object name => object.flatten ++ [Punct.dot.token, name]
  | set object name value =>
    object.flatten ++ Punct.dot.token :: name :: Punct.equal.token :: value.flatten
  | thisRef occurrence => [occurrence.token]
  | superRef occurrence method => [occurrence.token, Punct.dot.token, method]

/-- The tokens of arguments, with commas between them. -/
def flattenAll : List Expr → List Token
  | [] => []
  | first :: rest => first.flatten ++ flattenMore rest

/-- The tokens of arguments with a comma in front of each. -/
def flattenMore : List Expr → List Token
  | [] => []
  | first :: rest => Punct.comma.token :: (first.flatten ++ flattenMore rest)

end

mutual

/-- The tokens that are kept in an expression, in the order of the text. -/
def kept : Expr → List Token
  | literal _ => []
  | unary operator operand => operator :: operand.kept
  | binary left operator right => left.kept ++ operator :: right.kept
  | logical left operator right => left.kept ++ operator :: right.kept
  | grouping inner => inner.kept
  | var occurrence => [occurrence.token]
  | assign occurrence value => occurrence.token :: value.kept
  | call callee paren arguments => callee.kept ++ (keptAll arguments ++ [paren])
  | get object name => object.kept ++ [name]
  | set object name value => object.kept ++ name :: value.kept
  | thisRef occurrence => [occurrence.token]
  | superRef occurrence method => [occurrence.token, method]

/-- The same for a list of expressions. -/
def keptAll : List Expr → List Token
  | [] => []
  | first :: rest => first.kept ++ keptAll rest

end

theorem flattenMore_eq {arguments : List Expr} (some : arguments ≠ []) :
    flattenMore arguments = Punct.comma.token :: flattenAll arguments := by
  cases arguments with
  | nil => exact absurd rfl some
  | cons first rest => rfl

end Expr

/-! ## Levels -/

/-- The levels of expressions, from the loosest to the tightest. -/
inductive Level where
  | assignment
  | disjunction
  | conjunction
  | equality
  | comparison
  | term
  | factor
  | unary
  | call
  | primary
  deriving DecidableEq, Repr

namespace Level

/-- The place of a level, counted from the loosest. -/
def rank : Level → Nat
  | assignment => 0
  | disjunction => 1
  | conjunction => 2
  | equality => 3
  | comparison => 4
  | term => 5
  | factor => 6
  | unary => 7
  | call => 8
  | primary => 9

theorem rank_injective {one other : Level} (same : one.rank = other.rank) : one = other := by
  cases one <;> cases other <;> first | rfl | cases same

instance : LE Level := ⟨fun one other => one.rank ≤ other.rank⟩

instance : LT Level := ⟨fun one other => one.rank < other.rank⟩

instance (one other : Level) : Decidable (one ≤ other) :=
  inferInstanceAs (Decidable (one.rank ≤ other.rank))

instance (one other : Level) : Decidable (one < other) :=
  inferInstanceAs (Decidable (one.rank < other.rank))

/-- The level of the operators between two operands. A token that is none
counts as the tightest level. -/
def ofOperator (token : Token) : Level :=
  match token.kind with
  | .keyword .kwOr => disjunction
  | .keyword .kwAnd => conjunction
  | .punct .bangEqual | .punct .equalEqual => equality
  | .punct .greater | .punct .greaterEqual | .punct .less | .punct .lessEqual => comparison
  | .punct .minus | .punct .plus => term
  | .punct .star | .punct .slash => factor
  | _ => primary

end Level

namespace Expr

/-- The level of an expression. -/
def level : Expr → Level
  | assign _ _ | set _ _ _ => .assignment
  | logical _ operator _ | binary _ operator _ => .ofOperator operator
  | unary _ _ => .unary
  | call _ _ _ | get _ _ => .call
  | literal _ | grouping _ | var _ | thisRef _ | superRef _ _ => .primary

/-- Whether a token is an operator that joins two conditions. -/
def isLogicalOperator (token : Token) : Bool := token.isKeyword .kwOr || token.isKeyword .kwAnd

mutual

/-- The operands of an expression are at the levels that their operators ask for.
Operators between two operands group to the left, assignments and unary operators
to the right. Operators and names are tokens of the right kind, and a call has no
more arguments than the limit. -/
def Levelled : Expr → Prop
  | literal _ => True
  | unary operator operand =>
    Reader.isUnaryOperator operator = true ∧ .unary ≤ operand.level ∧ operand.Levelled
  | binary left operator right =>
    isBinaryOperator operator = true ∧ .ofOperator operator ≤ left.level ∧
      .ofOperator operator < right.level ∧ left.Levelled ∧ right.Levelled
  | logical left operator right =>
    isLogicalOperator operator = true ∧ .ofOperator operator ≤ left.level ∧
      .ofOperator operator < right.level ∧ left.Levelled ∧ right.Levelled
  | grouping inner => inner.Levelled
  | var occurrence => occurrence.token.isIdentifier = true
  | assign occurrence value => occurrence.token.isIdentifier = true ∧ value.Levelled
  | call callee paren arguments =>
    paren.isPunct .rightParen = true ∧ .call ≤ callee.level ∧ arguments.length ≤ listLimit ∧
      callee.Levelled ∧ AllLevelled arguments
  | get object name => name.isIdentifier = true ∧ .call ≤ object.level ∧ object.Levelled
  | set object name value =>
    name.isIdentifier = true ∧ .call ≤ object.level ∧ object.Levelled ∧ value.Levelled
  | thisRef occurrence => occurrence.token.isKeyword .kwThis = true
  | superRef occurrence method =>
    occurrence.token.isKeyword .kwSuper = true ∧ method.isIdentifier = true

/-- The same for every expression of a list. -/
def AllLevelled : List Expr → Prop
  | [] => True
  | first :: rest => first.Levelled ∧ AllLevelled rest

end

end Expr

/-- The level of a tier of operators. Operands of the tightest one are unary. -/
def Tier.level : Option Tier → Level
  | some disjunction => .disjunction
  | some conjunction => .conjunction
  | some equality => .equality
  | some comparison => .comparison
  | some term => .term
  | some factor => .factor
  | none => .unary

namespace Tier

theorem rank_tighter (tier : Tier) : (level tier.tighter?).rank = (level (some tier)).rank + 1 := by
  cases tier <;> rfl

theorem level_injective {one other : Tier} (same : level (some one) = level (some other)) :
    one = other := by
  cases one <;> cases other <;> first | rfl | cases same

/-- What holds of a tier if it holds of the next tighter one holds of all tiers. -/
theorem induction {holds : Tier → Prop}
    (step : ∀ tier, (∀ next, tier.tighter? = some next → holds next) → holds tier) :
    ∀ tier, holds tier := by
  have factor : holds factor := step _ nofun
  have term : holds term := step _ fun _ same => Option.some.inj same ▸ factor
  have comparison : holds comparison := step _ fun _ same => Option.some.inj same ▸ term
  have equality : holds equality := step _ fun _ same => Option.some.inj same ▸ comparison
  have conjunction : holds conjunction := step _ fun _ same => Option.some.inj same ▸ equality
  have disjunction : holds disjunction := step _ fun _ same => Option.some.inj same ▸ conjunction
  intro tier
  cases tier <;> assumption

/-- All tiers are looser than the unary operators and tighter than assignment. -/
theorem rank_lt (tier : Tier) :
    Level.assignment < level (some tier) ∧ level (some tier) < Level.unary := by
  cases tier <;> exact ⟨by decide, by decide⟩

/-- An operator belongs to the tier of its level. -/
theorem ofOperator_eq_level {tier : Tier} {token : Token}
    (operates : tier.isOperator token = true) :
    Level.ofOperator token = level (some tier) := by
  unfold isOperator Token.isKeyword Token.isPunct at operates
  unfold Level.ofOperator
  cases kind : token.kind with
  | punct mark => cases tier <;> cases mark <;> simp_all [level]
  | keyword word => cases tier <;> cases word <;> simp_all [level]
  | _ => cases tier <;> simp_all

variable {tier : Tier} {operator : Token}

theorem flatten_node (tier : Tier) (left : Expr) (operator : Token) (right : Expr) :
    (tier.node left operator right).flatten = left.flatten ++ operator :: right.flatten := by
  cases tier <;> rfl

theorem level_node (operates : tier.isOperator operator = true) (left right : Expr) :
    (tier.node left operator right).level = level (some tier) := by
  rw [← ofOperator_eq_level operates]
  cases tier <;> rfl

/-- The right operand is tighter than the tier. -/
theorem levelled_node (operates : tier.isOperator operator = true) (left right : Expr) :
    (tier.node left operator right).Levelled ↔ level (some tier) ≤ left.level ∧
      level tier.tighter? ≤ right.level ∧ left.Levelled ∧ right.Levelled := by
  have place := ofOperator_eq_level operates
  have next : level (some tier) < right.level ↔ level tier.tighter? ≤ right.level := by
    show (level (some tier)).rank < _ ↔ (level tier.tighter?).rank ≤ _
    rw [rank_tighter]
    exact Iff.rfl
  rw [← next, ← place]
  cases tier <;>
    simp_all [node, Expr.Levelled, Expr.isBinaryOperator, Expr.isLogicalOperator, isOperator]

/-- Every operator between two operands belongs to a tier. -/
theorem exists_binary (operates : Expr.isBinaryOperator operator = true) :
    ∃ tier : Tier, tier.isOperator operator = true ∧
      ∀ left right, tier.node left operator right = .binary left operator right := by
  simp only [Expr.isBinaryOperator, Bool.or_eq_true] at operates
  rcases operates with ((found | found) | found) | found
  · exact ⟨equality, found, fun _ _ => rfl⟩
  · exact ⟨comparison, found, fun _ _ => rfl⟩
  · exact ⟨term, found, fun _ _ => rfl⟩
  · exact ⟨factor, found, fun _ _ => rfl⟩

theorem exists_logical (operates : Expr.isLogicalOperator operator = true) :
    ∃ tier : Tier, tier.isOperator operator = true ∧
      ∀ left right, tier.node left operator right = .logical left operator right := by
  simp only [Expr.isLogicalOperator, Bool.or_eq_true] at operates
  rcases operates with found | found
  · exact ⟨disjunction, found, fun _ _ => rfl⟩
  · exact ⟨conjunction, found, fun _ _ => rfl⟩

end Tier

end LoxLang
