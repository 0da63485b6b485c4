import LoxLang.Number.Text
import LoxLang.Tree.Basic

/-!
# Printed trees

An expression in prefix form, with a pair of parentheses around every node
that has parts. Strings are printed bare, and operators by the text of their
token.
-/

namespace LoxLang

set_option autoImplicit false

/-- The text of a literal in a printed tree. -/
def Literal.treeText : Literal → String
  | .nil => "nil"
  | .bool true => "true"
  | .bool false => "false"
  | .number value => Number.text Number.treeStyle value
  | .string value => value

/-- A node with a head and parts, each part after one space. -/
def node (head : String) (parts : List String) : String :=
  "(" ++ head ++ String.join (parts.map (" " ++ ·)) ++ ")"

namespace Expr

mutual

/-- An expression in prefix form. -/
def printed : Expr → String
  | literal value => value.treeText
  | unary operator operand => node operator.lexeme [operand.printed]
  | binary left operator right => node operator.lexeme [left.printed, right.printed]
  | logical left operator right => node operator.lexeme [left.printed, right.printed]
  | grouping inner => node "group" [inner.printed]
  | var occurrence => occurrence.name
  | assign occurrence value => node "=" [occurrence.name, value.printed]
  | call callee _ arguments => node "call" (callee.printed :: printedAll arguments)
  | get object name => node "." [object.printed, name.lexeme]
  | set object name value => node "=" [node "." [object.printed, name.lexeme], value.printed]
  | thisRef _ => "this"
  | superRef _ method => node "super" [method.lexeme]

/-- Expressions in prefix form. -/
def printedAll : List Expr → List String
  | [] => []
  | expression :: rest => expression.printed :: printedAll rest

end

end Expr

end LoxLang
