import LoxLang.Bindings
import LoxLang.Diagnostic
import LoxLang.Tree.Basic

/-!
# Resolution of names

One walk over a tree finds, for every occurrence of a name, how many scopes
lie between it and the declaration it means. The walk keeps a stack of local
scopes, one for each scope that a run will open at that point: a block, the
parameters and body of a function, the scope that holds `this` around the
methods of a class, and around it the scope that holds `super` if there is a
superclass. The global scope is not on the stack, and names found in no local
scope are left out.

A name is first declared and later defined; between the two it must not be
read from its own scope. The walk also checks where `return`, `this` and
`super` may stand. Faults do not stop it, so all of them are found.
-/

namespace LoxLang

set_option autoImplicit false

/-- The names of a scope, each with whether it is defined yet. -/
abbrev LocalScope := Bindings Bool

/-- The body that a statement stands in. -/
inductive BodyKind where
  | topLevel
  | function
  | method
  | initializer
  deriving DecidableEq, Repr

/-- The class that a statement stands in. -/
inductive ClassKind where
  | outside
  | base
  | derived
  deriving DecidableEq, Repr

/-- What surrounds a statement. -/
structure Surroundings where
  body : BodyKind
  enclosing : ClassKind

/-- Where the walk stands: the local scopes, the innermost first, the distances
found, the latest first, and the faults in order. -/
structure Resolution where
  scopes : List LocalScope
  distances : List (Nat × Nat)
  errors : List BindingError

namespace Resolution

/-- The start of the walk. -/
def start : Resolution := ⟨[], [], []⟩

/-- Adds a fault at a token. -/
def report (cause : BindingCause) (token : Token) (walk : Resolution) : Resolution :=
  { walk with errors := walk.errors ++ [Located.ofToken cause token] }

/-- Adds a fault at a token if a condition holds. -/
def reportIf (condition : Bool) (cause : BindingCause) (token : Token) (walk : Resolution) :
    Resolution :=
  if condition then walk.report cause token else walk

/-- Opens a scope. -/
def openScope (scope : LocalScope) (walk : Resolution) : Resolution :=
  { walk with scopes := scope :: walk.scopes }

/-- Closes the innermost scope. -/
def closeScope (walk : Resolution) : Resolution :=
  { walk with scopes := walk.scopes.tail }

/-- Sets a name in the innermost scope. -/
def mark (name : String) (defined : Bool) (walk : Resolution) : Resolution :=
  match walk.scopes with
  | [] => walk
  | scope :: outer => { walk with scopes := scope.insert name defined :: outer }

/-- What the innermost scope knows of a name. -/
def innermost? (name : String) (walk : Resolution) : Option Bool :=
  match walk.scopes with
  | [] => none
  | scope :: _ => scope.find? name

/-- Declares a name in the innermost scope; it is not defined yet. A name that
is already there is a fault. -/
def declare (name : Token) (walk : Resolution) : Resolution :=
  (walk.mark name.lexeme false).reportIf (walk.innermost? name.lexeme).isSome
    .alreadyDeclared name

/-- Defines a name in the innermost scope. -/
def define (name : Token) (walk : Resolution) : Resolution :=
  walk.mark name.lexeme true

/-- Declares a name and defines it at once. -/
def introduce (name : Token) (walk : Resolution) : Resolution :=
  (walk.declare name).define name

/-- The number of scopes to step out of until one knows a name. -/
def distance? (name : String) (scopes : List LocalScope) : Option Nat :=
  scopes.findIdx? fun scope => scope.contains name

/-- Records the distance of an occurrence; a global name has none. -/
def bind (occurrence : Occurrence) (walk : Resolution) : Resolution :=
  match distance? occurrence.name walk.scopes with
  | some distance => { walk with distances := (occurrence.id, distance) :: walk.distances }
  | none => walk

/-- Checks that `super` stands in a class that has a superclass. -/
def checkSuper (enclosing : ClassKind) (keyword : Token) (walk : Resolution) : Resolution :=
  match enclosing with
  | .outside => walk.report .superOutsideClass keyword
  | .base => walk.report .superWithoutSuperclass keyword
  | .derived => walk

mutual

/-- The walk over an expression. -/
def expression (enclosing : ClassKind) : Expr → Resolution → Resolution
  | .literal _, walk => walk
  | .grouping inner, walk => expression enclosing inner walk
  | .unary _ operand, walk => expression enclosing operand walk
  | .binary left _ right, walk =>
    expression enclosing right (expression enclosing left walk)
  | .logical left _ right, walk =>
    expression enclosing right (expression enclosing left walk)
  | .var occurrence, walk =>
    (walk.reportIf (walk.innermost? occurrence.name == some false) .readInOwnInitializer
      occurrence.token).bind occurrence
  | .assign occurrence value, walk => (expression enclosing value walk).bind occurrence
  | .call callee _ arguments, walk =>
    expressions enclosing arguments (expression enclosing callee walk)
  | .get object _, walk => expression enclosing object walk
  | .set object _ value, walk =>
    expression enclosing object (expression enclosing value walk)
  | .thisRef occurrence, walk =>
    match enclosing with
    | .outside => walk.report .thisOutsideClass occurrence.token
    | _ => walk.bind occurrence
  | .superRef occurrence _, walk =>
    (walk.checkSuper enclosing occurrence.token).bind occurrence

/-- The walk over a list of expressions. -/
def expressions (enclosing : ClassKind) : List Expr → Resolution → Resolution
  | [], walk => walk
  | first :: rest, walk => expressions enclosing rest (expression enclosing first walk)

end

/-- The walk over an expression that may be missing. -/
def expression? (enclosing : ClassKind) : Option Expr → Resolution → Resolution
  | none, walk => walk
  | some found, walk => expression enclosing found walk

/-- Introduces the parameters of a function. -/
def introduceAll (params : List Token) (walk : Resolution) : Resolution :=
  params.foldl (fun walk param => walk.introduce param) walk

/-- The body kind of a method. -/
def methodKind (declaration : FunctionDecl) : BodyKind :=
  if declaration.isInitializer then .initializer else .method

/-- Whether a superclass is named like the class itself, and where. -/
def selfReference? (name : Token) : Option Expr → Option Token
  | some (.var occurrence) =>
    if occurrence.name == name.lexeme then some occurrence.token else none
  | _ => none

/-- The kind of a class with or without a superclass. -/
def classKind : Option Expr → ClassKind
  | none => .base
  | some _ => .derived

/-- Opens the scope that holds `super`, if there is a superclass. -/
def openSuper : Option Expr → Resolution → Resolution
  | none, walk => walk
  | some _, walk => walk.openScope [("super", true)]

/-- Closes the scope that holds `super`, if there is a superclass. -/
def closeSuper : Option Expr → Resolution → Resolution
  | none, walk => walk
  | some _, walk => walk.closeScope

/-- Reports a class that inherits from itself. -/
def checkSuperclass (name : Token) (superclass : Option Expr) (walk : Resolution) : Resolution :=
  match selfReference? name superclass with
  | some token => walk.report .inheritsFromItself token
  | none => walk

mutual

/-- The walk over a statement. -/
def statement (around : Surroundings) : Stmt → Resolution → Resolution
  | .expression found, walk => expression around.enclosing found walk
  | .print found, walk => expression around.enclosing found walk
  | .var name initializer, walk =>
    (expression? around.enclosing initializer (walk.declare name)).define name
  | .block body, walk => (statements around body (walk.openScope [])).closeScope
  | .cond condition thenBranch none, walk =>
    statement around thenBranch (expression around.enclosing condition walk)
  | .cond condition thenBranch (some elseBranch), walk =>
    statement around elseBranch
      (statement around thenBranch (expression around.enclosing condition walk))
  | .loop condition body, walk =>
    statement around body (expression around.enclosing condition walk)
  | .function declaration, walk =>
    function { around with body := .function } declaration (walk.introduce declaration.name)
  | .ret keyword value, walk =>
    expression? around.enclosing value
      ((walk.reportIf (around.body == .topLevel) .returnAtTopLevel keyword).reportIf
        (value.isSome && around.body == .initializer) .returnValueFromInitializer keyword)
  | .classDecl name superclass declarations, walk =>
    let enclosing := classKind superclass
    let named := (walk.introduce name).checkSuperclass name superclass
    let inside := openSuper superclass (expression? enclosing superclass named)
    let walked := methods enclosing declarations (inside.openScope [("this", true)])
    closeSuper superclass walked.closeScope

/-- The walk over a list of statements. -/
def statements (around : Surroundings) : List Stmt → Resolution → Resolution
  | [], walk => walk
  | first :: rest, walk => statements around rest (statement around first walk)

/-- The walk over a function: its parameters and body share a scope. -/
def function (around : Surroundings) : FunctionDecl → Resolution → Resolution
  | ⟨_, _, params, body⟩, walk =>
    (statements around body ((walk.openScope []).introduceAll params)).closeScope

/-- The walk over the methods of a class. -/
def methods (enclosing : ClassKind) : List FunctionDecl → Resolution → Resolution
  | [], walk => walk
  | first :: rest, walk =>
    methods enclosing rest (function ⟨methodKind first, enclosing⟩ first walk)

end

/-- The walk over a program. -/
def program (program : List Stmt) : Resolution :=
  statements ⟨.topLevel, .outside⟩ program start

end Resolution

/-- The distances of all occurrences in a program, or all its faults. -/
def resolve (program : List Stmt) : Except (List BindingError) (List (Nat × Nat)) :=
  let walk := Resolution.program program
  match walk.errors with
  | [] => .ok walk.distances
  | errors => .error errors

end LoxLang
