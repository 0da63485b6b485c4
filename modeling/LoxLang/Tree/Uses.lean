import LoxLang.Tree.Basic

/-!
# The uses of names in a tree

All occurrences of names in a tree, with the way in which each is used. The
order is that of the text, except that an assignment comes before the
expression it assigns.
-/

namespace LoxLang

set_option autoImplicit false

/-- The ways in which a name is used. -/
inductive UseKind where
  | read
  | write
  | thisWord
  | superWord
  deriving DecidableEq, Repr

/-- An occurrence and the way it is used. -/
structure Use where
  kind : UseKind
  occurrence : Occurrence
  deriving DecidableEq, Repr

namespace Expr

mutual

/-- The uses of names in an expression. -/
def uses : Expr → List Use
  | literal _ => []
  | unary _ operand => operand.uses
  | binary left _ right => left.uses ++ right.uses
  | logical left _ right => left.uses ++ right.uses
  | grouping inner => inner.uses
  | var occurrence => [⟨.read, occurrence⟩]
  | assign occurrence value => ⟨.write, occurrence⟩ :: value.uses
  | call callee _ arguments => callee.uses ++ usesAll arguments
  | get object _ => object.uses
  | set object _ value => object.uses ++ value.uses
  | thisRef occurrence => [⟨.thisWord, occurrence⟩]
  | superRef occurrence _ => [⟨.superWord, occurrence⟩]

/-- The uses of names in a list of expressions. -/
def usesAll : List Expr → List Use
  | [] => []
  | first :: rest => first.uses ++ usesAll rest

end

/-- The uses of names in an expression that may be missing. -/
def usesOption : Option Expr → List Use
  | none => []
  | some found => found.uses

end Expr

mutual

/-- The uses of names in a statement. -/
def Stmt.uses : Stmt → List Use
  | .expression found => found.uses
  | .print found => found.uses
  | .var _ initializer => Expr.usesOption initializer
  | .block body => Stmt.usesAll body
  | .cond condition thenBranch none => condition.uses ++ thenBranch.uses
  | .cond condition thenBranch (some elseBranch) =>
    condition.uses ++ thenBranch.uses ++ elseBranch.uses
  | .loop condition body => condition.uses ++ body.uses
  | .function declaration => declaration.uses
  | .ret _ value => Expr.usesOption value
  | .classDecl _ superclass methods =>
    Expr.usesOption superclass ++ FunctionDecl.usesAll methods

/-- The uses of names in a list of statements. -/
def Stmt.usesAll : List Stmt → List Use
  | [] => []
  | first :: rest => first.uses ++ Stmt.usesAll rest

/-- The uses of names in a function. -/
def FunctionDecl.uses : FunctionDecl → List Use
  | ⟨_, _, _, body⟩ => Stmt.usesAll body

/-- The uses of names in a list of functions. -/
def FunctionDecl.usesAll : List FunctionDecl → List Use
  | [] => []
  | first :: rest => first.uses ++ FunctionDecl.usesAll rest

end

end LoxLang
