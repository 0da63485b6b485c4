import LoxLang.Token.Basic

/-!
# Trees

The tree of a program: expressions, statements and the declarations of
functions. Operators and names are kept as tokens, so that a fault can be
reported at the right line and a tree can hold operators that the grammar does
not know.

Every use of a name is an occurrence with a number of its own. The distance
table is keyed by these numbers. A function declaration has a number as well;
two functions made from different declarations are never the same.
-/

namespace LoxLang

set_option autoImplicit false

/-- One use of a name, with the number of its node. -/
structure Occurrence where
  id : Nat
  token : Token
  deriving DecidableEq, Repr

namespace Occurrence

/-- The name that is used. -/
def name (occurrence : Occurrence) : String := occurrence.token.lexeme

/-- The line of the use. -/
def line (occurrence : Occurrence) : Nat := occurrence.token.line

end Occurrence

/-- The literal values. -/
inductive Literal where
  | nil
  | bool (value : Bool)
  | number (value : Float)
  | string (value : String)
  deriving DecidableEq, Repr

/-- An expression. -/
inductive Expr where
  | literal (value : Literal)
  | unary (operator : Token) (operand : Expr)
  | binary (left : Expr) (operator : Token) (right : Expr)
  | logical (left : Expr) (operator : Token) (right : Expr)
  | grouping (inner : Expr)
  | var (occurrence : Occurrence)
  | assign (occurrence : Occurrence) (value : Expr)
  | call (callee : Expr) (paren : Token) (arguments : List Expr)
  | get (object : Expr) (name : Token)
  | set (object : Expr) (name : Token) (value : Expr)
  | thisRef (occurrence : Occurrence)
  | superRef (occurrence : Occurrence) (method : Token)
  deriving Repr

instance : Inhabited Expr := ⟨.literal .nil⟩

mutual

/-- A statement or declaration. -/
inductive Stmt where
  | expression (expression : Expr)
  | print (expression : Expr)
  | var (name : Token) (initializer : Option Expr)
  | block (body : List Stmt)
  | cond (condition : Expr) (thenBranch : Stmt) (elseBranch : Option Stmt)
  | loop (condition : Expr) (body : Stmt)
  | function (declaration : FunctionDecl)
  | ret (keyword : Token) (value : Option Expr)
  | classDecl (name : Token) (superclass : Option Expr) (methods : List FunctionDecl)

/-- The declaration of a function or method. -/
structure FunctionDecl where
  id : Nat
  name : Token
  params : List Token
  body : List Stmt

end

instance : Inhabited Stmt := ⟨.block []⟩

/-- The name of the method that runs when a class is called. -/
def initializerName : String := "init"

/-- Whether a method is the one that runs when its class is called. -/
def FunctionDecl.isInitializer (declaration : FunctionDecl) : Bool :=
  declaration.name.lexeme == initializerName

/-- A counting loop as a loop with a condition. The increment runs after each
round of the body, in a block with it. The initializer runs once in front, in a
block with the loop, so its variable is not seen outside. -/
def Stmt.counting (initializer : Option Stmt) (condition increment : Option Expr)
    (body : Stmt) : Stmt :=
  let round := match increment with
    | some step => .block [body, .expression step]
    | none => body
  let loop := Stmt.loop (condition.getD (.literal (.bool true))) round
  match initializer with
  | some start => .block [start, loop]
  | none => loop

end LoxLang
