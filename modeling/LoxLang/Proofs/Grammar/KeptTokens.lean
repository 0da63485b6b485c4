import LoxLang.Proofs.Precedence

/-!
# Tokens that a tree keeps

A tree keeps the tokens of operators and names, and the closing parentheses of
calls (`Expr.kept`). They are tokens of the input, in the order of the input
(`Grammar.kept_of_singleExpression`). So what holds of every token of a source,
its spelling for one, holds of every token in the tree. Of a literal a tree keeps
the value only, which is the value of some token.
-/

namespace LoxLang

set_option autoImplicit false

namespace Expr

mutual

/-- The values of the literals in an expression. -/
def literals : Expr → List Literal
  | literal value => [value]
  | unary _ operand => operand.literals
  | binary left _ right => left.literals ++ right.literals
  | logical left _ right => left.literals ++ right.literals
  | grouping inner => inner.literals
  | var _ => []
  | assign _ value => value.literals
  | call callee _ arguments => callee.literals ++ literalsAll arguments
  | get object _ => object.literals
  | set object _ value => object.literals ++ value.literals
  | thisRef _ => []
  | superRef _ _ => []

/-- The same for a list of expressions. -/
def literalsAll : List Expr → List Literal
  | [] => []
  | first :: rest => first.literals ++ literalsAll rest

end

/-! ## Literals are written as tokens -/

theorem flattenAll_sublist_flattenMore (arguments : List Expr) :
    (flattenAll arguments).Sublist (flattenMore arguments) := by
  cases arguments with
  | nil => exact .slnil
  | cons first rest => exact List.sublist_cons_self _ _

mutual

theorem literals_sublist_flatten : ∀ found : Expr,
    (found.literals.map Literal.token).Sublist found.flatten
  | literal _ => .refl _
  | unary _ operand => (literals_sublist_flatten operand).cons _
  | binary left _ right | logical left _ right => by
      rw [literals, List.map_append]
      exact (literals_sublist_flatten left).append ((literals_sublist_flatten right).cons _)
  | grouping inner =>
    ((literals_sublist_flatten inner).trans (List.sublist_append_left _ _)).cons _
  | var _ => List.nil_sublist _
  | assign _ value => ((literals_sublist_flatten value).cons _).cons _
  | call callee _ arguments => by
      rw [literals, List.map_append]
      exact (literals_sublist_flatten callee).append
        (((literalsAll_sublist_flattenAll arguments).trans (List.sublist_append_left _ _)).cons _)
  | get object _ => (literals_sublist_flatten object).trans (List.sublist_append_left _ _)
  | set object _ value => by
      rw [literals, List.map_append]
      exact (literals_sublist_flatten object).append
        ((((literals_sublist_flatten value).cons _).cons _).cons _)
  | thisRef _ => List.nil_sublist _
  | superRef _ _ => List.nil_sublist _

theorem literalsAll_sublist_flattenAll : ∀ found : List Expr,
    ((literalsAll found).map Literal.token).Sublist (flattenAll found)
  | [] => .slnil
  | first :: rest => by
      rw [literalsAll, List.map_append]
      exact (literals_sublist_flatten first).append
        ((literalsAll_sublist_flattenAll rest).trans (flattenAll_sublist_flattenMore rest))

end

end Expr

/-! ## Reading -/

namespace Grammar

/-- **A tree keeps tokens of the input, in their order.** -/
theorem kept_of_singleExpression {stream : TokenStream} {tree : Expr}
    (accepted : singleExpression stream = .ok tree) : tree.kept.Sublist stream.tokens :=
  (writes_of_singleExpression accepted).kept

/-- Of a literal the tree keeps the value, which some token of the input has. -/
theorem literal_of_singleExpression {stream : TokenStream} {tree : Expr}
    (accepted : singleExpression stream = .ok tree) {value : Literal}
    (member : value ∈ tree.literals) :
    ∃ token ∈ stream.tokens, token.kind = value.token.kind := by
  have written : value.token ∈ tree.flatten :=
    (Expr.literals_sublist_flatten tree).subset (List.mem_map_of_mem member)
  have meaning : value.token.meaning ∈ stream.tokens.map Token.meaning :=
    (writes_of_singleExpression accepted).tokens ▸ List.mem_map_of_mem written
  obtain ⟨token, found, same⟩ := List.mem_map.mp meaning
  exact ⟨token, found, congrArg Prod.fst same⟩

end Grammar

end LoxLang
