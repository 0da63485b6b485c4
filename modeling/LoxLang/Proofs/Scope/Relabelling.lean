import LoxLang.Proofs.Scope.Placement
import LoxLang.Proofs.Tree.Relabelling

/-!
# Resolution of relabelled programs

The walk over a tree looks at names only. If the tree is relabelled, then the
distances are found for the new numbers and the faults on the new lines, and
what an earlier part of the walk has found does not matter
(`Resolution.statements_relabel`). So a program can be resolved in parts: no
name of a statement outside of all blocks is known to resolution behind it
(`resolve_append`).
-/

namespace LoxLang

set_option autoImplicit false

namespace Resolution

/-- A relabelled walk that was begun behind another one. -/
def relabel (change : Relabelling) (walk before : Resolution) : Resolution where
  scopes := walk.scopes
  distances := walk.distances.map (fun entry => (change.id entry.1, entry.2)) ++ before.distances
  errors := before.errors ++ walk.errors.map (Located.relabel change)

variable (change : Relabelling) (before : Resolution)

/-! ## The steps of the walk -/

section Steps

variable (walk : Resolution)

@[simp] theorem scopes_relabel : (walk.relabel change before).scopes = walk.scopes := rfl

theorem report_relabel (cause : BindingCause) (token : Token) :
    (walk.relabel change before).report cause (token.relabel change) =
      (walk.report cause token).relabel change before := by
  simp [report, relabel, Located.relabel_ofToken]

theorem reportIf_relabel (condition : Bool) (cause : BindingCause) (token : Token) :
    (walk.relabel change before).reportIf condition cause (token.relabel change) =
      (walk.reportIf condition cause token).relabel change before := by
  unfold reportIf
  split
  · exact report_relabel change before walk cause token
  · rfl

theorem openScope_relabel (scope : LocalScope) :
    (walk.relabel change before).openScope scope = (walk.openScope scope).relabel change before :=
  rfl

theorem closeScope_relabel :
    (walk.relabel change before).closeScope = walk.closeScope.relabel change before := rfl

theorem mark_relabel (name : String) (defined : Bool) :
    (walk.relabel change before).mark name defined =
      (walk.mark name defined).relabel change before := by
  simp only [mark, scopes_relabel]
  split <;> rfl

theorem innermost?_relabel (name : String) :
    (walk.relabel change before).innermost? name = walk.innermost? name := rfl

theorem declare_relabel (name : Token) :
    (walk.relabel change before).declare (name.relabel change) =
      (walk.declare name).relabel change before := by
  rw [declare, declare, Token.lexeme_relabel, mark_relabel, innermost?_relabel, reportIf_relabel]

theorem define_relabel (name : Token) :
    (walk.relabel change before).define (name.relabel change) =
      (walk.define name).relabel change before :=
  mark_relabel change before walk name.lexeme true

theorem introduce_relabel (name : Token) :
    (walk.relabel change before).introduce (name.relabel change) =
      (walk.introduce name).relabel change before := by
  rw [introduce, introduce, declare_relabel, define_relabel]

theorem introduceAll_relabel : ∀ (params : List Token) (walk : Resolution),
    (walk.relabel change before).introduceAll (params.map (Token.relabel change)) =
      (walk.introduceAll params).relabel change before
  | [], _ => rfl
  | param :: rest, walk => by
      have others := introduceAll_relabel rest (walk.introduce param)
      rw [← introduce_relabel] at others
      exact others

theorem bind_relabel (occurrence : Occurrence) :
    (walk.relabel change before).bind (occurrence.relabel change) =
      (walk.bind occurrence).relabel change before := by
  simp only [bind, scopes_relabel, Occurrence.name_relabel]
  split
  · simp [relabel, Occurrence.relabel]
  · rfl

theorem checkSuper_relabel (enclosing : ClassKind) (keyword : Token) :
    (walk.relabel change before).checkSuper enclosing (keyword.relabel change) =
      (walk.checkSuper enclosing keyword).relabel change before := by
  cases enclosing with
  | derived => rfl
  | _ => exact report_relabel change before walk _ keyword

theorem selfReference?_relabel (name : Token) (superclass : Option Expr) :
    selfReference? (name.relabel change) (superclass.map (Expr.relabel change)) =
      (selfReference? name superclass).map (Token.relabel change) := by
  cases superclass with
  | none => rfl
  | some found =>
      cases found with
      | var occurrence =>
          exact (apply_ite (Option.map (Token.relabel change))
            ((occurrence.name == name.lexeme) = true) (some occurrence.token) none).symm
      | _ => rfl

theorem checkSuperclass_relabel (name : Token) (superclass : Option Expr) :
    (walk.relabel change before).checkSuperclass (name.relabel change)
        (superclass.map (Expr.relabel change)) =
      (walk.checkSuperclass name superclass).relabel change before := by
  simp only [checkSuperclass, selfReference?_relabel]
  cases selfReference? name superclass with
  | none => rfl
  | some token => exact report_relabel change before walk _ token

theorem classKind_relabel (superclass : Option Expr) :
    classKind (superclass.map (Expr.relabel change)) = classKind superclass := by
  cases superclass <;> rfl

theorem openSuper_relabel (superclass : Option Expr) :
    openSuper (superclass.map (Expr.relabel change)) (walk.relabel change before) =
      (openSuper superclass walk).relabel change before := by
  cases superclass <;> rfl

theorem closeSuper_relabel (superclass : Option Expr) :
    closeSuper (superclass.map (Expr.relabel change)) (walk.relabel change before) =
      (closeSuper superclass walk).relabel change before := by
  cases superclass <;> rfl

end Steps

/-! ## Trees -/

mutual

theorem expression_relabel (enclosing : ClassKind) : ∀ (found : Expr) (walk : Resolution),
    expression enclosing (found.relabel change) (walk.relabel change before) =
      (expression enclosing found walk).relabel change before
  | .literal _, _ => rfl
  | .grouping inner, walk => expression_relabel enclosing inner walk
  | .unary _ operand, walk => expression_relabel enclosing operand walk
  | .binary left _ right, walk | .logical left _ right, walk => by
      rw [Expr.relabel, expression, expression_relabel enclosing left,
        expression_relabel enclosing right, expression]
  | .var occurrence, walk => by
      rw [Expr.relabel, expression, expression, Occurrence.name_relabel, innermost?_relabel,
        ← bind_relabel, ← reportIf_relabel]
      rfl
  | .assign occurrence value, walk => by
      rw [Expr.relabel, expression, expression_relabel enclosing value, bind_relabel, expression]
  | .call callee _ arguments, walk => by
      rw [Expr.relabel, expression, expression_relabel enclosing callee,
        expressions_relabel enclosing arguments, expression]
  | .get object _, walk => expression_relabel enclosing object walk
  | .set object _ value, walk => by
      rw [Expr.relabel, expression, expression_relabel enclosing value,
        expression_relabel enclosing object, expression]
  | .thisRef occurrence, walk => by
      cases enclosing with
      | outside => exact report_relabel change before walk _ occurrence.token
      | _ => exact bind_relabel change before walk occurrence
  | .superRef occurrence _, walk => by
      rw [Expr.relabel, expression, expression, ← bind_relabel, ← checkSuper_relabel]
      rfl

theorem expressions_relabel (enclosing : ClassKind) : ∀ (found : List Expr) (walk : Resolution),
    expressions enclosing (Expr.relabelAll change found) (walk.relabel change before) =
      (expressions enclosing found walk).relabel change before
  | [], _ => rfl
  | first :: rest, walk => by
      rw [Expr.relabelAll, expressions, expression_relabel enclosing first,
        expressions_relabel enclosing rest, expressions]

end

theorem expression?_relabel (enclosing : ClassKind) (found : Option Expr) (walk : Resolution) :
    expression? enclosing (found.map (Expr.relabel change)) (walk.relabel change before) =
      (expression? enclosing found walk).relabel change before := by
  cases found with
  | none => rfl
  | some found => exact expression_relabel change before enclosing found walk

mutual

theorem statement_relabel : ∀ (found : Stmt) (around : Surroundings) (walk : Resolution),
    statement around (found.relabel change) (walk.relabel change before) =
      (statement around found walk).relabel change before
  | .expression found, around, walk | .print found, around, walk =>
    expression_relabel change before around.enclosing found walk
  | .var name initializer, around, walk => by
      rw [Stmt.relabel, statement, declare_relabel, expression?_relabel, define_relabel, statement]
  | .block body, around, walk => by
      rw [Stmt.relabel, statement, openScope_relabel, statements_relabel body, closeScope_relabel,
        statement]
  | .cond condition thenBranch none, around, walk => by
      rw [Stmt.relabel, statement, expression_relabel, statement_relabel thenBranch, statement]
  | .cond condition thenBranch (some elseBranch), around, walk => by
      rw [Stmt.relabel, statement, expression_relabel, statement_relabel thenBranch,
        statement_relabel elseBranch, statement]
  | .loop condition body, around, walk => by
      rw [Stmt.relabel, statement, expression_relabel, statement_relabel body, statement]
  | .function declaration, around, walk => by
      rw [Stmt.relabel, statement, FunctionDecl.name_relabel, introduce_relabel,
        function_relabel declaration, statement]
  | .ret keyword value, around, walk => by
      rw [Stmt.relabel, statement, Option.isSome_map, reportIf_relabel, reportIf_relabel,
        expression?_relabel, statement]
  | .classDecl name superclass declarations, around, walk => by
      simp only [Stmt.relabel, statement, classKind_relabel, introduce_relabel,
        checkSuperclass_relabel, expression?_relabel, openSuper_relabel, openScope_relabel,
        methods_relabel (classKind superclass) declarations, closeScope_relabel,
        closeSuper_relabel]

/-- **The walk over a relabelled program is the relabelled walk.** -/
theorem statements_relabel : ∀ (found : List Stmt) (around : Surroundings) (walk : Resolution),
    statements around (Stmt.relabelAll change found) (walk.relabel change before) =
      (statements around found walk).relabel change before
  | [], _, _ => rfl
  | first :: rest, around, walk => by
      rw [Stmt.relabelAll, statements, statement_relabel first, statements_relabel rest, statements]

theorem function_relabel : ∀ (found : FunctionDecl) (around : Surroundings) (walk : Resolution),
    function around (found.relabel change) (walk.relabel change before) =
      (function around found walk).relabel change before
  | ⟨_, _, params, body⟩, around, walk => by
      rw [FunctionDecl.relabel, function, openScope_relabel, introduceAll_relabel,
        statements_relabel body, closeScope_relabel, function]

theorem methods_relabel (enclosing : ClassKind) : ∀ (found : List FunctionDecl)
    (walk : Resolution),
    methods enclosing (FunctionDecl.relabelAll change found) (walk.relabel change before) =
      (methods enclosing found walk).relabel change before
  | [], _ => rfl
  | first :: rest, walk => by
      have kind : methodKind (first.relabel change) = methodKind first := by
        rw [methodKind, methodKind, FunctionDecl.isInitializer_relabel]
      rw [FunctionDecl.relabelAll, methods, kind, function_relabel first,
        methods_relabel enclosing rest, methods]

end

theorem statements_append (around : Surroundings) : ∀ (front back : List Stmt)
    (walk : Resolution),
    statements around (front ++ back) walk = statements around back (statements around front walk)
  | [], _, _ => rfl
  | first :: rest, back, walk => statements_append around rest back (statement around first walk)

end Resolution

/-! ## Programs -/

/-- What resolution finds in a relabelled program. -/
theorem resolve_relabel (change : Relabelling) (found : List Stmt) :
    resolve (Stmt.relabelAll change found) = match resolve found with
      | .ok distances => .ok (distances.map fun entry => (change.id entry.1, entry.2))
      | .error errors => .error (errors.map (Located.relabel change)) := by
  have walked : Resolution.program (Stmt.relabelAll change found) =
      (Resolution.program found).relabel change Resolution.start :=
    Resolution.statements_relabel change Resolution.start found ⟨.topLevel, .outside⟩
      Resolution.start
  simp only [resolve, walked, Resolution.relabel, Resolution.start, List.append_nil,
    List.nil_append]
  cases (Resolution.program found).errors with
  | nil => rfl
  | cons error rest => rfl

theorem Stmt.afterAll_nil (body : List Stmt) : Stmt.afterAll [] body = [] := by
  induction body with
  | nil => rfl
  | cons first rest ih => rw [Stmt.afterAll, List.foldl_cons, Stmt.after_nil, ← Stmt.afterAll, ih]

/-- **Programs can be resolved one behind the other**, with the distances put
together. -/
theorem resolve_append {front back : List Stmt} {early late : List (Nat × Nat)}
    (wellFormed : Stmt.AllWellFormed front) (distinct : (Stmt.numbersAll front).Nodup)
    (first : resolve front = .ok early) (second : resolve back = .ok late) :
    resolve (front ++ back) = .ok (late ++ early) := by
  have walked := Resolution.walked_statements front ⟨.topLevel, .outside⟩ Resolution.start
    wellFormed distinct
  have closed : (Resolution.program front).scopes = [] :=
    walked.scopes.trans (Stmt.afterAll_nil front)
  simp only [resolve] at first second
  split at first
  next quiet =>
    split at second
    next silent =>
      cases first
      cases second
      have behind : Resolution.program (front ++ back) =
          (Resolution.program back).relabel .same (Resolution.program front) := by
        rw [Resolution.program, Resolution.statements_append]
        have kept : Stmt.relabelAll .same back = back :=
          Stmt.relabelAll_fixed back ⟨fun _ => rfl, fun _ _ => rfl⟩
        have moved := Resolution.statements_relabel .same (Resolution.program front) back
          ⟨.topLevel, .outside⟩ Resolution.start
        rw [kept] at moved
        rw [Resolution.program, ← moved, ← Resolution.program]
        simp [Resolution.relabel, Resolution.start, ← closed]
      simp only [resolve, behind, Resolution.relabel, quiet, silent, Relabelling.same]
      simp
    next => cases second
  next => cases first

end LoxLang
