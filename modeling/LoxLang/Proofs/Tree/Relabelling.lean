import LoxLang.Proofs.Tree.WellFormed

/-!
# Relabelled trees

Nodes have numbers and tokens have lines, and neither means anything by itself:
a number only has to differ from those of other nodes, and a line is only ever
reported. A relabelling changes both and leaves the rest of a tree alone. What
the grammar, the resolution of names and a run make of a relabelled tree is the
relabelled result, as the modules on relabelling show for each of them.

Two trees are the same up to their node numbers if they are equal once all
numbers are forgotten (`Relabelling.forgetIds`).
-/

namespace LoxLang

set_option autoImplicit false

/-- New numbers for nodes and new lines for tokens. -/
structure Relabelling where
  id : Nat → Nat
  line : Nat → Nat

namespace Relabelling

/-- Nothing is changed. -/
def same : Relabelling := ⟨fun id => id, fun line => line⟩

/-- All node numbers become one. -/
def forgetIds : Relabelling := ⟨fun _ => 0, fun line => line⟩

/-- The numbers from a first one on are moved up, to make room. -/
def moveIds (first room : Nat) : Relabelling :=
  ⟨fun id => if id < first then id else id + room, fun line => line⟩

theorem injective_moveIds (first room : Nat) : Function.Injective (moveIds first room).id := by
  intro left right equal
  simp only [moveIds] at equal
  split at equal <;> split at equal <;> omega

end Relabelling

/-! ## Tokens and errors -/

/-- A token on a new line. -/
def Token.relabel (change : Relabelling) (token : Token) : Token :=
  { token with line := change.line token.line }

/-- An occurrence with a new number. -/
def Occurrence.relabel (change : Relabelling) (occurrence : Occurrence) : Occurrence :=
  ⟨change.id occurrence.id, occurrence.token.relabel change⟩

/-- A located cause on a new line. -/
def Located.relabel {Cause : Type} (change : Relabelling) (error : Located Cause) :
    Located Cause :=
  { error with line := change.line error.line }

/-- A fault of a run on a new line. -/
def RuntimeError.relabel (change : Relabelling) (error : RuntimeError) : RuntimeError :=
  { error with line := change.line error.line }

/-- A fault of the source text on a new line. -/
def LexicalError.relabel (change : Relabelling) (error : LexicalError) : LexicalError :=
  { error with line := change.line error.line }

/-- A diagnostic on a new line, if it has one. -/
def Diagnostic.relabel (change : Relabelling) : Diagnostic → Diagnostic
  | lexical error => lexical (error.relabel change)
  | grammar error => grammar (error.relabel change)
  | binding error => binding (error.relabel change)
  | runtime error => runtime (error.relabel change)
  | output fault => output fault

theorem Located.relabel_ofToken {Cause : Type} (change : Relabelling) (cause : Cause)
    (token : Token) :
    (Located.ofToken cause token).relabel change = Located.ofToken cause (token.relabel change) :=
  rfl

/-! ## Expressions -/

namespace Expr

mutual

/-- An expression with new numbers and lines. -/
def relabel (change : Relabelling) : Expr → Expr
  | literal value => literal value
  | unary operator operand => unary (operator.relabel change) (operand.relabel change)
  | binary left operator right =>
    binary (left.relabel change) (operator.relabel change) (right.relabel change)
  | logical left operator right =>
    logical (left.relabel change) (operator.relabel change) (right.relabel change)
  | grouping inner => grouping (inner.relabel change)
  | var occurrence => var (occurrence.relabel change)
  | assign occurrence value => assign (occurrence.relabel change) (value.relabel change)
  | call callee paren arguments =>
    call (callee.relabel change) (paren.relabel change) (relabelAll change arguments)
  | get object name => get (object.relabel change) (name.relabel change)
  | set object name value =>
    set (object.relabel change) (name.relabel change) (value.relabel change)
  | thisRef occurrence => thisRef (occurrence.relabel change)
  | superRef occurrence method => superRef (occurrence.relabel change) (method.relabel change)

/-- Expressions with new numbers and lines. -/
def relabelAll (change : Relabelling) : List Expr → List Expr
  | [] => []
  | first :: rest => first.relabel change :: relabelAll change rest

end

end Expr

/-! ## Statements -/

mutual

/-- A statement with new numbers and lines. -/
def Stmt.relabel (change : Relabelling) : Stmt → Stmt
  | .expression found => .expression (found.relabel change)
  | .print found => .print (found.relabel change)
  | .var name initializer => .var (name.relabel change) (initializer.map (Expr.relabel change))
  | .block body => .block (Stmt.relabelAll change body)
  | .cond condition thenBranch none =>
    .cond (condition.relabel change) (thenBranch.relabel change) none
  | .cond condition thenBranch (some elseBranch) =>
    .cond (condition.relabel change) (thenBranch.relabel change)
      (some (elseBranch.relabel change))
  | .loop condition body => .loop (condition.relabel change) (body.relabel change)
  | .function declaration => .function (declaration.relabel change)
  | .ret keyword value => .ret (keyword.relabel change) (value.map (Expr.relabel change))
  | .classDecl name superclass methods =>
    .classDecl (name.relabel change) (superclass.map (Expr.relabel change))
      (FunctionDecl.relabelAll change methods)

/-- Statements with new numbers and lines. -/
def Stmt.relabelAll (change : Relabelling) : List Stmt → List Stmt
  | [] => []
  | first :: rest => first.relabel change :: Stmt.relabelAll change rest

/-- A function with new numbers and lines. -/
def FunctionDecl.relabel (change : Relabelling) : FunctionDecl → FunctionDecl
  | ⟨id, name, params, body⟩ =>
    ⟨change.id id, name.relabel change, params.map (Token.relabel change),
      Stmt.relabelAll change body⟩

/-- Functions with new numbers and lines. -/
def FunctionDecl.relabelAll (change : Relabelling) : List FunctionDecl → List FunctionDecl
  | [] => []
  | first :: rest => first.relabel change :: FunctionDecl.relabelAll change rest

end

/-! ## Parts of relabelled trees -/

section Parts

variable (change : Relabelling)

@[simp] theorem Token.kind_relabel (token : Token) : (token.relabel change).kind = token.kind := rfl

@[simp] theorem Token.lexeme_relabel (token : Token) :
    (token.relabel change).lexeme = token.lexeme := rfl

@[simp] theorem Occurrence.name_relabel (occurrence : Occurrence) :
    (occurrence.relabel change).name = occurrence.name := rfl

theorem Stmt.relabelAll_append (front back : List Stmt) :
    Stmt.relabelAll change (front ++ back) =
      Stmt.relabelAll change front ++ Stmt.relabelAll change back := by
  induction front with
  | nil => rfl
  | cons first rest ih => simp only [List.cons_append, Stmt.relabelAll, ih]

theorem Stmt.relabelAll_toList_append (first : Option Stmt) (rest : List Stmt) :
    Stmt.relabelAll change (first.toList ++ rest) =
      (first.map (Stmt.relabel change)).toList ++ Stmt.relabelAll change rest := by
  cases first <;> rfl

@[simp] theorem FunctionDecl.name_relabel (declaration : FunctionDecl) :
    (declaration.relabel change).name = declaration.name.relabel change := by
  obtain ⟨id, name, params, body⟩ := declaration
  rfl

@[simp] theorem FunctionDecl.id_relabel (declaration : FunctionDecl) :
    (declaration.relabel change).id = change.id declaration.id := by
  obtain ⟨id, name, params, body⟩ := declaration
  rfl

@[simp] theorem FunctionDecl.params_relabel (declaration : FunctionDecl) :
    (declaration.relabel change).params = declaration.params.map (Token.relabel change) := by
  obtain ⟨id, name, params, body⟩ := declaration
  rfl

@[simp] theorem FunctionDecl.body_relabel (declaration : FunctionDecl) :
    (declaration.relabel change).body = Stmt.relabelAll change declaration.body := by
  obtain ⟨id, name, params, body⟩ := declaration
  rfl

@[simp] theorem FunctionDecl.isInitializer_relabel (declaration : FunctionDecl) :
    (declaration.relabel change).isInitializer = declaration.isInitializer := by
  obtain ⟨id, name, params, body⟩ := declaration
  rfl

theorem Stmt.relabel_cond (condition : Expr) (thenBranch : Stmt) (elseBranch : Option Stmt) :
    (Stmt.cond condition thenBranch elseBranch).relabel change =
      .cond (condition.relabel change) (thenBranch.relabel change)
        (elseBranch.map (Stmt.relabel change)) := by
  cases elseBranch <;> rfl

/-- A counting loop is made of relabelled parts. -/
theorem Stmt.relabel_counting (initializer : Option Stmt) (condition increment : Option Expr)
    (body : Stmt) :
    (Stmt.counting initializer condition increment body).relabel change =
      Stmt.counting (initializer.map (Stmt.relabel change))
        (condition.map (Expr.relabel change)) (increment.map (Expr.relabel change))
        (body.relabel change) := by
  cases initializer <;> cases condition <;> cases increment <;> rfl

/-- The node of an operator is made of relabelled parts. -/
theorem Tier.relabel_node (tier : Tier) (left : Expr) (operator : Token) (right : Expr) :
    (tier.node left operator right).relabel change =
      tier.node (left.relabel change) (operator.relabel change) (right.relabel change) := by
  cases tier <;> rfl

end Parts

/-! ## One relabelling behind the other -/

section Composition

/-- A relabelling and then another one. -/
def Relabelling.andThen (first second : Relabelling) : Relabelling :=
  ⟨fun id => second.id (first.id id), fun line => second.line (first.line line)⟩

variable (first second : Relabelling)

theorem Token.relabel_relabel (token : Token) :
    (token.relabel first).relabel second = token.relabel (first.andThen second) := rfl

theorem Occurrence.relabel_relabel (occurrence : Occurrence) :
    (occurrence.relabel first).relabel second = occurrence.relabel (first.andThen second) := rfl

mutual

theorem Expr.relabel_relabel : ∀ found : Expr,
    (found.relabel first).relabel second = found.relabel (first.andThen second)
  | .literal _ | .var _ | .thisRef _ | .superRef _ _ => rfl
  | .unary _ inner | .grouping inner | .assign _ inner | .get inner _ => by
      simp only [Expr.relabel, Token.relabel_relabel, Occurrence.relabel_relabel,
        Expr.relabel_relabel inner]
  | .binary left _ right | .logical left _ right | .set left _ right => by
      simp only [Expr.relabel, Token.relabel_relabel, Expr.relabel_relabel left,
        Expr.relabel_relabel right]
  | .call callee _ arguments => by
      simp only [Expr.relabel, Token.relabel_relabel, Expr.relabel_relabel callee,
        Expr.relabelAll_relabelAll arguments]

theorem Expr.relabelAll_relabelAll : ∀ found : List Expr,
    Expr.relabelAll second (Expr.relabelAll first found) =
      Expr.relabelAll (first.andThen second) found
  | [] => rfl
  | one :: rest => by
      simp only [Expr.relabelAll, Expr.relabel_relabel one, Expr.relabelAll_relabelAll rest]

end

theorem Expr.map_relabel_relabel (found : Option Expr) :
    (found.map (Expr.relabel first)).map (Expr.relabel second) =
      found.map (Expr.relabel (first.andThen second)) := by
  cases found with
  | none => rfl
  | some found => simp only [Option.map_some, Expr.relabel_relabel]

mutual

theorem Stmt.relabel_relabel : ∀ found : Stmt,
    (found.relabel first).relabel second = found.relabel (first.andThen second)
  | .expression _ | .print _ | .var _ _ | .ret _ _ => by
      simp only [Stmt.relabel, Token.relabel_relabel, Expr.relabel_relabel,
        Expr.map_relabel_relabel]
  | .block body => by simp only [Stmt.relabel, Stmt.relabelAll_relabelAll body]
  | .cond _ body none | .loop _ body => by
      simp only [Stmt.relabel, Expr.relabel_relabel, Stmt.relabel_relabel body]
  | .cond _ thenBranch (some elseBranch) => by
      simp only [Stmt.relabel, Expr.relabel_relabel, Stmt.relabel_relabel thenBranch,
        Stmt.relabel_relabel elseBranch]
  | .function declaration => by
      simp only [Stmt.relabel, FunctionDecl.relabel_relabel declaration]
  | .classDecl _ _ methods => by
      simp only [Stmt.relabel, Token.relabel_relabel, Expr.map_relabel_relabel,
        FunctionDecl.relabelAll_relabelAll methods]

theorem Stmt.relabelAll_relabelAll (found : List Stmt) :
    Stmt.relabelAll second (Stmt.relabelAll first found) =
      Stmt.relabelAll (first.andThen second) found := by
  cases found with
  | nil => rfl
  | cons one rest =>
      simp only [Stmt.relabelAll, Stmt.relabel_relabel one, Stmt.relabelAll_relabelAll rest]

theorem FunctionDecl.relabel_relabel : ∀ found : FunctionDecl,
    (found.relabel first).relabel second = found.relabel (first.andThen second)
  | ⟨_, _, params, body⟩ => by
      simp only [FunctionDecl.relabel, Stmt.relabelAll_relabelAll body, List.map_map]
      rfl

theorem FunctionDecl.relabelAll_relabelAll : ∀ found : List FunctionDecl,
    FunctionDecl.relabelAll second (FunctionDecl.relabelAll first found) =
      FunctionDecl.relabelAll (first.andThen second) found
  | [] => rfl
  | one :: rest => by
      simp only [FunctionDecl.relabelAll, FunctionDecl.relabel_relabel one,
        FunctionDecl.relabelAll_relabelAll rest]

end

end Composition

/-! ## Trees that a relabelling leaves alone -/

/-- A relabelling that keeps all lines, and the numbers of a list. -/
structure Relabelling.Fixes (change : Relabelling) (numbers : List Nat) : Prop where
  line : ∀ line, change.line line = line
  id : ∀ id ∈ numbers, change.id id = id

namespace Relabelling.Fixes

variable {change : Relabelling} {front back numbers : List Nat}

theorem left (fixes : change.Fixes (front ++ back)) : change.Fixes front :=
  ⟨fixes.line, fun id member => fixes.id id (List.mem_append.mpr (.inl member))⟩

theorem right (fixes : change.Fixes (front ++ back)) : change.Fixes back :=
  ⟨fixes.line, fun id member => fixes.id id (List.mem_append.mpr (.inr member))⟩

theorem token (fixes : change.Fixes numbers) (token : Token) : token.relabel change = token := by
  rw [Token.relabel, fixes.line]

theorem tokens (fixes : change.Fixes numbers) (tokens : List Token) :
    tokens.map (Token.relabel change) = tokens := by
  rw [show Token.relabel change = fun token => token from funext fixes.token, List.map_id']

theorem occurrence {occurrence : Occurrence} (fixes : change.Fixes [occurrence.id]) :
    occurrence.relabel change = occurrence := by
  rw [Occurrence.relabel, fixes.id _ List.mem_cons_self, fixes.token]

end Relabelling.Fixes

section Fixed

variable {change : Relabelling}

mutual

theorem Expr.relabel_fixed : ∀ found : Expr, change.Fixes found.numbers →
    found.relabel change = found
  | .literal _, _ => rfl
  | .unary _ inner, fixes | .grouping inner, fixes | .get inner _, fixes => by
      simp only [Expr.relabel, Expr.relabel_fixed inner fixes, fixes.token]
  | .binary left _ right, fixes | .logical left _ right, fixes | .set left _ right, fixes => by
      rw [Expr.relabel, Expr.relabel_fixed left fixes.left, Expr.relabel_fixed right fixes.right,
        fixes.token]
  | .var _, fixes | .thisRef _, fixes => by rw [Expr.relabel, Relabelling.Fixes.occurrence fixes]
  | .assign _ value, fixes => by
      rw [Expr.relabel, Expr.relabel_fixed value fixes.left, fixes.right.occurrence]
  | .call callee _ arguments, fixes => by
      rw [Expr.relabel, Expr.relabel_fixed callee fixes.left,
        Expr.relabelAll_fixed arguments fixes.right, fixes.token]
  | .superRef _ _, fixes => by
      rw [Expr.relabel, Relabelling.Fixes.occurrence fixes, fixes.token]

theorem Expr.relabelAll_fixed : ∀ found : List Expr, change.Fixes (Expr.numbersAll found) →
    Expr.relabelAll change found = found
  | [], _ => rfl
  | first :: rest, fixes => by
      rw [Expr.relabelAll, Expr.relabel_fixed first fixes.left,
        Expr.relabelAll_fixed rest fixes.right]

end

theorem Expr.map_relabel_fixed : ∀ found : Option Expr,
    change.Fixes (Expr.numbersOption found) → found.map (Expr.relabel change) = found
  | none, _ => rfl
  | some found, fixes => by rw [Option.map_some, Expr.relabel_fixed found fixes]

mutual

theorem Stmt.relabel_fixed : ∀ found : Stmt, change.Fixes found.numbers →
    found.relabel change = found
  | .expression found, fixes | .print found, fixes => by
      rw [Stmt.relabel, Expr.relabel_fixed found fixes]
  | .var _ value, fixes | .ret _ value, fixes => by
      rw [Stmt.relabel, Expr.map_relabel_fixed value fixes, fixes.token]
  | .block body, fixes => by rw [Stmt.relabel, Stmt.relabelAll_fixed body fixes]
  | .cond condition body none, fixes | .loop condition body, fixes => by
      rw [Stmt.relabel, Expr.relabel_fixed condition fixes.left,
        Stmt.relabel_fixed body fixes.right]
  | .cond condition thenBranch (some elseBranch), fixes => by
      rw [Stmt.relabel, Expr.relabel_fixed condition fixes.left,
        Stmt.relabel_fixed thenBranch fixes.right.left,
        Stmt.relabel_fixed elseBranch fixes.right.right]
  | .function declaration, fixes => by
      rw [Stmt.relabel, FunctionDecl.relabel_fixed declaration fixes]
  | .classDecl _ superclass methods, fixes => by
      rw [Stmt.relabel, Expr.map_relabel_fixed superclass fixes.left,
        FunctionDecl.relabelAll_fixed methods fixes.right, fixes.token]

/-- **A tree whose numbers are kept is kept**, if no line is changed. -/
theorem Stmt.relabelAll_fixed : ∀ found : List Stmt, change.Fixes (Stmt.numbersAll found) →
    Stmt.relabelAll change found = found
  | [], _ => rfl
  | first :: rest, fixes => by
      rw [Stmt.relabelAll, Stmt.relabel_fixed first fixes.left,
        Stmt.relabelAll_fixed rest fixes.right]

theorem FunctionDecl.relabel_fixed : ∀ found : FunctionDecl, change.Fixes found.numbers →
    found.relabel change = found
  | ⟨id, _, _, body⟩, fixes => by
      rw [FunctionDecl.relabel, Stmt.relabelAll_fixed body fixes.left, fixes.token, fixes.tokens,
        fixes.id id (List.mem_append.mpr (.inr List.mem_cons_self))]

theorem FunctionDecl.relabelAll_fixed : ∀ found : List FunctionDecl,
    change.Fixes (FunctionDecl.numbersAll found) → FunctionDecl.relabelAll change found = found
  | [], _ => rfl
  | first :: rest, fixes => by
      rw [FunctionDecl.relabelAll, FunctionDecl.relabel_fixed first fixes.left,
        FunctionDecl.relabelAll_fixed rest fixes.right]

end

end Fixed

end LoxLang
