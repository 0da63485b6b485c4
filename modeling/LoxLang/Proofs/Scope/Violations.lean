import LoxLang.Proofs.Scope.Placement
import LoxLang.Proofs.Tree.Parts

/-!
# The static rules of the language

A program has to follow rules on names, `return`, `this`, `super` and
superclasses. This module says where a program breaks them, from the text of the
program alone (`violations`): no scopes are opened, nothing is marked as declared
or defined, and there is no memory of the function or class that one is in. Each
construct answers for its own scope and its own methods, wherever it stands
(`Stmt.faults`). What belongs to no function or no class is looked for from the
outside.

Resolution walks over the tree once with such a memory. It reports each violation
once and nothing else (`Resolution.perm_violations`). For a statement in the
middle of the walk the memory stands for what is around it: the names that its
scope has declared before, the kind of the function and the kind of the class
(`Resolution.reported`).
-/

namespace LoxLang

set_option autoImplicit false

/-! ## Violations -/

/-- A fault at each of some tokens. -/
def BindingCause.atEach (cause : BindingCause) (tokens : List Token) : List BindingError :=
  tokens.map (Located.ofToken cause)

/-- The names of a list that an earlier one has declared before, where those in
front of the list are given. -/
def Token.repeated (earlier : List String) : List Token → List Token
  | [] => []
  | first :: rest =>
    (if first.lexeme ∈ earlier then [first] else []) ++ repeated (first.lexeme :: earlier) rest

/-- The tokens of the uses of one kind. -/
def Use.tokensOf (kind : UseKind) (uses : List Use) : List Token :=
  (uses.filter fun use => use.kind == kind).map fun use => use.occurrence.token

/-- The reads of a variable in its own initializer. -/
def Stmt.ownReads : Stmt → List Token
  | .var name (some initializer) =>
    (initializer.uses.filter fun use =>
      use.kind == .read && use.occurrence.name == name.lexeme).map fun use => use.occurrence.token
  | _ => []

/-- The faults of a local scope: of the parameters and the statements that share
it. -/
def scopeFaults (params : List Token) (body : List Stmt) : List BindingError :=
  BindingCause.alreadyDeclared.atEach
      (Token.repeated [] (params ++ body.filterMap Stmt.declared?)) ++
    BindingCause.readInOwnInitializer.atEach (body.flatMap Stmt.ownReads)

/-- The faults of a method of a class. -/
def methodFaults (superclass : Option Expr) (method : FunctionDecl) : List BindingError :=
  scopeFaults method.params method.body ++
    (if method.isInitializer then BindingCause.returnValueFromInitializer.atEach
      (((Stmt.returnsAll method.body).filter fun found => found.value.isSome).map Return.keyword)
    else []) ++
    (if superclass.isNone then BindingCause.superWithoutSuperclass.atEach
      (Use.tokensOf .superWord ((method.ownUses 0).map PlacedUse.use))
    else [])

/-- The name of a superclass that is the name of the class itself. -/
def ownSuperclass (name : Token) : Option Expr → List Token
  | some (.var occurrence) => if occurrence.name = name.lexeme then [occurrence.token] else []
  | _ => []

/-- The faults that a statement has by itself, apart from those of the statements
inside of it. -/
def Stmt.faults : Stmt → List BindingError
  | .block body => scopeFaults [] body
  | .function declaration => scopeFaults declaration.params declaration.body
  | .classDecl name superclass methods =>
    BindingCause.inheritsFromItself.atEach (ownSuperclass name superclass) ++
      methods.flatMap (methodFaults superclass)
  | _ => []

@[simp] theorem Stmt.faults_cond (condition : Expr) (thenBranch : Stmt)
    (elseBranch : Option Stmt) : (Stmt.cond condition thenBranch elseBranch).faults = [] := rfl

@[simp] theorem Stmt.faults_loop (condition : Expr) (body : Stmt) :
    (Stmt.loop condition body).faults = [] := rfl

/-- All violations of the static rules in a program. -/
def violations (program : List Stmt) : List BindingError :=
  (Stmt.withinAll program).flatMap Stmt.faults ++
    BindingCause.returnAtTopLevel.atEach ((Stmt.returnsAll program).map Return.keyword) ++
    BindingCause.thisOutsideClass.atEach
      (Use.tokensOf .thisWord ((Stmt.ownUsesAll 0 program).map PlacedUse.use)) ++
    BindingCause.superOutsideClass.atEach
      (Use.tokensOf .superWord ((Stmt.ownUsesAll 0 program).map PlacedUse.use))

@[simp] theorem BindingCause.atEach_nil (cause : BindingCause) : cause.atEach [] = [] := rfl

@[simp] theorem BindingCause.atEach_append (cause : BindingCause) (front back : List Token) :
    cause.atEach (front ++ back) = cause.atEach front ++ cause.atEach back :=
  List.map_append

@[simp] theorem Use.tokensOf_append (kind : UseKind) (front back : List Use) :
    Use.tokensOf kind (front ++ back) = Use.tokensOf kind front ++ Use.tokensOf kind back := by
  simp [Use.tokensOf]

theorem Token.repeated_append (front back : List Token) : ∀ earlier : List String,
    Token.repeated earlier (front ++ back) = Token.repeated earlier front ++
      Token.repeated ((front.map Token.lexeme).reverse ++ earlier) back := by
  induction front with
  | nil => exact fun _ => rfl
  | cons first rest ih =>
      intro earlier
      simp [Token.repeated, ih]

/-! ## Faults in the middle of a walk -/

namespace Resolution

/-- The faults of the returns in a body. -/
def returnFaults (body : BodyKind) (returns : List Return) : List BindingError :=
  match body with
  | .topLevel => BindingCause.returnAtTopLevel.atEach (returns.map Return.keyword)
  | .initializer => BindingCause.returnValueFromInitializer.atEach
      ((returns.filter fun found => found.value.isSome).map Return.keyword)
  | .function => []
  | .method => []

/-- The faults of the uses of `this` and `super` in a class. -/
def useFaults (enclosing : ClassKind) (uses : List Use) : List BindingError :=
  match enclosing with
  | .outside => BindingCause.thisOutsideClass.atEach (Use.tokensOf .thisWord uses) ++
      BindingCause.superOutsideClass.atEach (Use.tokensOf .superWord uses)
  | .base => BindingCause.superWithoutSuperclass.atEach (Use.tokensOf .superWord uses)
  | .derived => []

/-- Whether the innermost scope has declared a name and not defined it. -/
def unready (name : String) (scopes : Scopes) : Bool :=
  match scopes with
  | [] => false
  | scope :: _ => scope.find? name == some false

/-- The faults of the reads of names that are not defined yet. -/
def readFaults (scopes : Scopes) (uses : List Use) : List BindingError :=
  BindingCause.readInOwnInitializer.atEach
    ((uses.filter fun use => use.kind == .read && unready use.occurrence.name scopes).map
      fun use => use.occurrence.token)

/-- The faults of a declaration: the name may be declared already. -/
def declarationFaults (names : Option (List String)) (name : Token) : List BindingError :=
  match names with
  | none => []
  | some earlier => BindingCause.alreadyDeclared.atEach (Token.repeated earlier [name])

/-- The faults of the declarations in a local scope, behind those of some names.
Outside of all local scopes there are none. -/
def localFaults (names : Option (List String)) (body : List Stmt) : List BindingError :=
  match names with
  | none => []
  | some earlier =>
    BindingCause.alreadyDeclared.atEach (Token.repeated earlier (body.filterMap Stmt.declared?)) ++
      BindingCause.readInOwnInitializer.atEach (body.flatMap Stmt.ownReads)

/-- All faults that a statement has in its surroundings, behind the declarations
of some names. -/
def reported (around : Surroundings) (names : Option (List String)) (depth : Nat)
    (found : Stmt) : List BindingError :=
  found.faults ++ found.inside.flatMap Stmt.faults ++ returnFaults around.body found.returns ++
    useFaults around.enclosing ((found.ownUses depth).map PlacedUse.use) ++
    localFaults names [found]

/-- The same for a list of statements. -/
def reportedAll (around : Surroundings) (names : Option (List String)) (depth : Nat)
    (body : List Stmt) : List BindingError :=
  (Stmt.withinAll body).flatMap Stmt.faults ++ returnFaults around.body (Stmt.returnsAll body) ++
    useFaults around.enclosing ((Stmt.ownUsesAll depth body).map PlacedUse.use) ++
    localFaults names body

/-- The names that a scope has declared behind a statement. -/
def namesAfter (names : Option (List String)) (found : Stmt) : Option (List String) :=
  match found.declared? with
  | none => names
  | some name => names.map (name.lexeme :: ·)

@[simp] theorem returnFaults_nil (body : BodyKind) : returnFaults body [] = [] := by
  cases body <;> rfl

@[simp] theorem useFaults_nil (enclosing : ClassKind) : useFaults enclosing [] = [] := by
  cases enclosing <;> rfl

@[simp] theorem localFaults_nil (names : Option (List String)) : localFaults names [] = [] := by
  cases names <;> rfl

/-- A statement that declares nothing adds nothing to its scope. -/
theorem localFaults_of_plain (found : Stmt) (plain : found.isDeclaration = false)
    (names : Option (List String)) : localFaults names [found] = [] := by
  cases names with
  | none => rfl
  | some earlier =>
      cases found with
      | var _ _ => cases plain
      | function _ => cases plain
      | classDecl _ _ _ => cases plain
      | _ => rfl

theorem localFaults_function (declaration : FunctionDecl) (names : Option (List String)) :
    localFaults names [.function declaration] = declarationFaults names declaration.name := by
  cases names with
  | none => rfl
  | some earlier => exact List.append_nil _

theorem localFaults_classDecl (name : Token) (superclass : Option Expr)
    (methods : List FunctionDecl) (names : Option (List String)) :
    localFaults names [.classDecl name superclass methods] = declarationFaults names name := by
  cases names with
  | none => rfl
  | some earlier => exact List.append_nil _

/-- A superclass is a name, so there is no `this` or `super` in it. -/
theorem useFaults_superclass {superclass : Option Expr} (name : Expr.IsSuperclass superclass)
    (enclosing : ClassKind) : useFaults enclosing (Expr.usesOption superclass) = [] := by
  cases superclass with
  | none => exact useFaults_nil enclosing
  | some parent =>
      cases parent with
      | var occurrence => cases enclosing <;> rfl
      | _ => exact name.elim

theorem count_returnFaults_append (error : BindingError) (body : BodyKind)
    (front back : List Return) :
    (returnFaults body (front ++ back)).count error =
      (returnFaults body front).count error + (returnFaults body back).count error := by
  cases body <;> simp [returnFaults]

theorem count_useFaults_append (error : BindingError) (enclosing : ClassKind)
    (front back : List Use) :
    (useFaults enclosing (front ++ back)).count error =
      (useFaults enclosing front).count error + (useFaults enclosing back).count error := by
  cases enclosing <;> simp [useFaults]
  omega

theorem count_readFaults_append (error : BindingError) (scopes : Scopes) (front back : List Use) :
    (readFaults scopes (front ++ back)).count error =
      (readFaults scopes front).count error + (readFaults scopes back).count error := by
  simp [readFaults]

theorem count_localFaults_cons (error : BindingError) (names : Option (List String))
    (first : Stmt) (rest : List Stmt) :
    (localFaults names (first :: rest)).count error = (localFaults names [first]).count error +
      (localFaults (namesAfter names first) rest).count error := by
  cases names with
  | none => cases declared : first.declared? <;> simp [localFaults, namesAfter, declared]
  | some earlier =>
      cases declared : first.declared? <;>
        simp [localFaults, namesAfter, declared, Token.repeated] <;> omega

/-! ## What a walk reports -/

/-- What a part of the walk does: it leaves the scopes in a known state, and it
adds some faults, in any order. -/
structure Faulted (before after : Resolution) (behind : Scopes) (found : List BindingError) :
    Prop where
  scopes : after.scopes = behind
  errors : ∀ error, after.errors.count error = before.errors.count error + found.count error

namespace Faulted

variable {before middle after : Resolution} {behind further : Scopes}
  {found others : List BindingError}

theorem append (first : Faulted before middle behind found)
    (second : Faulted middle after further others) :
    Faulted before after further (found ++ others) where
  scopes := second.scopes
  errors error := by
    rw [second.errors, first.errors, List.count_append, Nat.add_assoc]

/-- Faults may be listed in another order. -/
theorem regroup (faulted : Faulted before after behind found)
    (same : ∀ error, found.count error = others.count error) :
    Faulted before after behind others :=
  ⟨faulted.scopes, fun error => by rw [faulted.errors, same]⟩

end Faulted

variable (walk : Resolution)

theorem faulted_quiet {walk after : Resolution} (errors : after.errors = walk.errors) :
    Faulted walk after after.scopes [] :=
  ⟨rfl, fun error => by rw [errors, List.count_nil, Nat.add_zero]⟩

theorem faulted_report (cause : BindingCause) (token : Token) :
    Faulted walk (walk.report cause token) walk.scopes (cause.atEach [token]) :=
  ⟨rfl, fun _ => List.count_append⟩

theorem faulted_reportIf (condition : Bool) (cause : BindingCause) (token : Token) :
    Faulted walk (walk.reportIf condition cause token) walk.scopes
      (cause.atEach (if condition then [token] else [])) := by
  cases condition with
  | false => exact faulted_quiet rfl
  | true => exact faulted_report walk cause token

theorem faulted_mark (name : String) (defined : Bool) :
    Faulted walk (walk.mark name defined) (Scopes.mark name defined walk.scopes) [] := by
  refine ⟨(walked_mark walk name defined).scopes, ?_⟩
  unfold mark
  split <;> exact fun _ => rfl

theorem faulted_bind (occurrence : Occurrence) :
    Faulted walk (walk.bind occurrence) walk.scopes [] := by
  refine ⟨(walked_bind walk occurrence).scopes, ?_⟩
  unfold bind
  split <;> exact fun _ => rfl

theorem faulted_checkSuper (enclosing : ClassKind) (occurrence : Occurrence) :
    Faulted walk (walk.checkSuper enclosing occurrence.token) walk.scopes
      (useFaults enclosing [⟨.superWord, occurrence⟩]) := by
  cases enclosing with
  | outside | base => exact faulted_report walk _ _
  | derived => exact faulted_quiet rfl

theorem faulted_read (occurrence : Occurrence) :
    Faulted walk (walk.reportIf (walk.innermost? occurrence.name == some false)
      .readInOwnInitializer occurrence.token) walk.scopes
      (readFaults walk.scopes [⟨.read, occurrence⟩]) := by
  have same : (walk.innermost? occurrence.name == some false) =
      unready occurrence.name walk.scopes := by
    unfold innermost? unready
    cases walk.scopes <;> rfl
  rw [same]
  have checked := faulted_reportIf walk (unready occurrence.name walk.scopes)
    .readInOwnInitializer occurrence.token
  cases early : unready occurrence.name walk.scopes <;> simpa [readFaults, early] using checked

/-! ### Expressions -/

/-- The faults of two parts are those of their uses together. -/
theorem Faulted.uses {before middle after : Resolution} {scopes : Scopes} {enclosing : ClassKind}
    {one two both : List Use}
    (first : Faulted before middle scopes (useFaults enclosing one ++ readFaults scopes one))
    (second : Faulted middle after middle.scopes
      (useFaults enclosing two ++ readFaults middle.scopes two))
    (order : both = one ++ two ∨ both = two ++ one) :
    Faulted before after scopes (useFaults enclosing both ++ readFaults scopes both) := by
  rw [first.scopes] at second
  refine (first.append second).regroup fun error => ?_
  rcases order with rfl | rfl
  all_goals
    simp only [List.count_append, count_useFaults_append, count_readFaults_append]
    omega

mutual

theorem faulted_expression (enclosing : ClassKind) : ∀ (found : Expr) (walk : Resolution),
    Faulted walk (expression enclosing found walk) walk.scopes
      (useFaults enclosing found.uses ++ readFaults walk.scopes found.uses)
  | .literal _, walk => by
      refine (faulted_quiet rfl).regroup fun error => ?_
      cases enclosing <;> rfl
  | .grouping inner, walk => faulted_expression enclosing inner walk
  | .unary _ operand, walk => faulted_expression enclosing operand walk
  | .binary left _ right, walk | .logical left _ right, walk =>
    (faulted_expression enclosing left walk).uses (faulted_expression enclosing right _) (.inl rfl)
  | .var occurrence, walk => by
      have checked := faulted_read walk occurrence
      have bound := faulted_bind (walk.reportIf (walk.innermost? occurrence.name == some false)
        .readInOwnInitializer occurrence.token) occurrence
      rw [checked.scopes] at bound
      refine (checked.append bound).regroup fun error => ?_
      cases enclosing <;> simp [useFaults, Expr.uses, Use.tokensOf]
  | .assign occurrence value, walk => by
      have first := faulted_expression enclosing value walk
      have second := faulted_bind (expression enclosing value walk) occurrence
      rw [first.scopes] at second
      refine (first.append second).regroup fun error => ?_
      cases enclosing <;> simp [useFaults, readFaults, Expr.uses, Use.tokensOf]
  | .call callee _ arguments, walk =>
    (faulted_expression enclosing callee walk).uses (faulted_expressions enclosing arguments _)
      (.inl rfl)
  | .get object _, walk => faulted_expression enclosing object walk
  | .set object _ value, walk =>
    (faulted_expression enclosing value walk).uses (faulted_expression enclosing object _)
      (.inr rfl)
  | .thisRef occurrence, walk => by
      cases enclosing with
      | outside => exact faulted_report walk _ _
      | base | derived => exact faulted_bind walk occurrence
  | .superRef occurrence _, walk => by
      have checked := faulted_checkSuper walk enclosing occurrence
      have bound := faulted_bind (walk.checkSuper enclosing occurrence.token) occurrence
      rw [checked.scopes] at bound
      exact checked.append bound

theorem faulted_expressions (enclosing : ClassKind) : ∀ (found : List Expr) (walk : Resolution),
    Faulted walk (expressions enclosing found walk) walk.scopes
      (useFaults enclosing (Expr.usesAll found) ++ readFaults walk.scopes (Expr.usesAll found))
  | [], walk => by
      refine (faulted_quiet rfl).regroup fun error => ?_
      cases enclosing <;> rfl
  | first :: rest, walk =>
    (faulted_expression enclosing first walk).uses (faulted_expressions enclosing rest _) (.inl rfl)

end

theorem faulted_expression? (enclosing : ClassKind) (found : Option Expr) :
    Faulted walk (expression? enclosing found walk) walk.scopes
      (useFaults enclosing (Expr.usesOption found) ++
        readFaults walk.scopes (Expr.usesOption found)) := by
  cases found with
  | none => exact faulted_expressions enclosing [] walk
  | some found => exact faulted_expression enclosing found walk

/-! ### Declarations -/

/-- The innermost scope knows the given names as defined, and no others. Outside
of all local scopes there are no names to know. -/
def Knows (scopes : Scopes) (names : Option (List String)) : Prop :=
  match scopes, names with
  | [], none => True
  | scope :: _, some known =>
    ∀ name, scope.find? name = if name ∈ known then some true else none
  | _, _ => False

/-- A name that is defined is ready to be read. -/
theorem Knows.readFaults {scopes : Scopes} {names : Option (List String)}
    (knows : Knows scopes names) (uses : List Use) : readFaults scopes uses = [] := by
  have ready : ∀ name, unready name scopes = false := by
    intro name
    cases scopes with
    | nil => rfl
    | cons scope outer =>
        cases names with
        | none => exact knows.elim
        | some known =>
            simp only [unready, knows name]
            split <;> rfl
  have none : (uses.filter fun use =>
      use.kind == .read && unready use.occurrence.name scopes) = [] :=
    List.filter_eq_nil_iff.mpr fun use _ => by simp [ready]
  rw [Resolution.readFaults, none]
  rfl

theorem Knows.mark {scopes : Scopes} {names : Option (List String)} (knows : Knows scopes names)
    (name : String) : Knows (scopes.mark name true) (names.map (name :: ·)) := by
  cases scopes with
  | nil => cases names with
    | none => exact trivial
    | some known => exact knows.elim
  | cons scope outer => cases names with
    | none => exact knows.elim
    | some known =>
        intro other
        by_cases same : other = name
        · simp [same]
        · rw [Bindings.find?_insert_of_ne same, knows other]
          simp [same]

theorem Knows.after {scopes : Scopes} {names : Option (List String)} (knows : Knows scopes names)
    (found : Stmt) : Knows (found.after scopes) (namesAfter names found) := by
  unfold Stmt.after namesAfter
  cases found.declared? with
  | none => exact knows
  | some name => exact knows.mark name.lexeme

theorem faulted_declare {names : Option (List String)} (knows : Knows walk.scopes names)
    (name : Token) :
    Faulted walk (walk.declare name) (Scopes.mark name.lexeme false walk.scopes)
      (declarationFaults names name) := by
  have marked := faulted_mark walk name.lexeme false
  have checked := faulted_reportIf (walk.mark name.lexeme false)
    (walk.innermost? name.lexeme).isSome .alreadyDeclared name
  rw [marked.scopes] at checked
  refine (marked.append checked).regroup fun error => ?_
  unfold Knows at knows
  unfold innermost? declarationFaults
  split at knows
  next none => simp [none]
  next scope outer known inner =>
    rw [inner]
    simp only [knows name.lexeme, Token.repeated]
    by_cases again : name.lexeme ∈ known <;> simp [again]
  · exact knows.elim

theorem faulted_introduce {names : Option (List String)} (knows : Knows walk.scopes names)
    (name : Token) :
    Faulted walk (walk.introduce name) (Scopes.mark name.lexeme true walk.scopes)
      (declarationFaults names name) := by
  have declared := faulted_declare walk knows name
  have defined := faulted_mark (walk.declare name) name.lexeme true
  rw [declared.scopes, Scopes.mark_mark] at defined
  exact (declared.append defined).regroup fun error => by rw [List.append_nil]

/-- Parameters are declared one after the other. -/
theorem faulted_introduceAll (params : List Token) : ∀ (walk : Resolution) (scope : LocalScope)
    (outer : Scopes) (earlier : List String), walk.scopes = scope :: outer →
      Knows walk.scopes (some earlier) → ∃ inner : LocalScope,
        Knows (inner :: outer) (some ((params.map Token.lexeme).reverse ++ earlier)) ∧
          Faulted walk (walk.introduceAll params) (inner :: outer)
            (BindingCause.alreadyDeclared.atEach (Token.repeated earlier params)) := by
  induction params with
  | nil =>
      intro walk scope outer earlier same knows
      refine ⟨scope, ?_, ?_⟩
      · rw [same] at knows
        exact knows
      · rw [← same]
        exact faulted_quiet rfl
  | cons param rest ih =>
      intro walk scope outer earlier same knows
      have first := faulted_introduce walk knows param
      have scopes := first.scopes
      rw [same] at scopes
      have known : Knows (walk.introduce param).scopes (some (param.lexeme :: earlier)) := by
        rw [first.scopes]
        exact knows.mark param.lexeme
      obtain ⟨inner, knows, others⟩ := ih _ _ outer _ scopes known
      refine ⟨inner, by simpa using knows, (first.append others).regroup fun error => ?_⟩
      simp [declarationFaults, Token.repeated]

/-! ### Statements -/

theorem faulted_ret (around : Surroundings) (keyword : Token) (value : Option Expr) :
    Faulted walk ((walk.reportIf (around.body == .topLevel) .returnAtTopLevel keyword).reportIf
        (value.isSome && around.body == .initializer) .returnValueFromInitializer keyword)
      walk.scopes (returnFaults around.body [⟨keyword, value⟩]) := by
  have placed := faulted_reportIf walk (around.body == .topLevel) .returnAtTopLevel keyword
  have checked := faulted_reportIf
    (walk.reportIf (around.body == .topLevel) .returnAtTopLevel keyword)
    (value.isSome && around.body == .initializer) .returnValueFromInitializer keyword
  rw [placed.scopes] at checked
  refine (placed.append checked).regroup fun error => ?_
  cases around.body <;> cases value <;> rfl

theorem faulted_checkSuperclass (name : Token) (superclass : Option Expr) :
    Faulted walk (walk.checkSuperclass name superclass) walk.scopes
      (BindingCause.inheritsFromItself.atEach (ownSuperclass name superclass)) := by
  unfold checkSuperclass
  cases superclass with
  | none => exact faulted_quiet rfl
  | some parent =>
      cases parent with
      | var occurrence =>
          by_cases same : occurrence.name = name.lexeme
          · simpa [selfReference?, ownSuperclass, same] using faulted_report walk _ _
          · simpa [selfReference?, ownSuperclass, same] using faulted_quiet rfl
      | _ => exact faulted_quiet rfl

/-- The faults of an expression where all names are ready to be read. -/
theorem faulted_ready {names : Option (List String)} (knows : Knows walk.scopes names)
    (enclosing : ClassKind) (found : Option Expr) :
    Faulted walk (expression? enclosing found walk) walk.scopes
      (useFaults enclosing (Expr.usesOption found)) := by
  have whole := faulted_expression? walk enclosing found
  rwa [knows.readFaults, List.append_nil] at whole

/-- A condition and a statement behind it that declares nothing. -/
theorem faulted_guarded {names : Option (List String)} (knows : Knows walk.scopes names)
    (around : Surroundings) (condition : Expr) {branch : Stmt}
    (plain : branch.isDeclaration = false) {errors : List BindingError}
    (inner : ∀ middle : Resolution, middle.scopes = walk.scopes →
      Faulted middle (statement around branch middle) (branch.after middle.scopes) errors) :
    Faulted walk (statement around branch (expression around.enclosing condition walk)) walk.scopes
      (useFaults around.enclosing condition.uses ++ errors) := by
  have test : Faulted walk (expression around.enclosing condition walk) walk.scopes _ :=
    faulted_ready walk knows around.enclosing (some condition)
  have behind := inner _ test.scopes
  rw [test.scopes, after_of_plain plain] at behind
  exact test.append behind

/-- A variable is not ready in its own initializer, and the others are. -/
theorem readFaults_mark {scopes : Scopes} {names : Option (List String)}
    (knows : Knows scopes names) (name : Token) (initializer : Option Expr) :
    readFaults (scopes.mark name.lexeme false) (Expr.usesOption initializer) =
      match names with
      | none => []
      | some _ => BindingCause.readInOwnInitializer.atEach
        (Stmt.ownReads (.var name initializer)) := by
  cases scopes with
  | nil => cases names with
    | none => exact Knows.readFaults knows _
    | some known => exact knows.elim
  | cons scope outer => cases names with
    | none => exact knows.elim
    | some known =>
        have early : ∀ other, unready other (Scopes.mark name.lexeme false (scope :: outer)) =
            (other == name.lexeme) := by
          intro other
          by_cases same : other = name.lexeme
          · simp [unready, Scopes.mark, same]
          · simp only [unready, Scopes.mark, Bindings.find?_insert_of_ne same, knows other]
            by_cases member : other ∈ known <;> simp [member, same]
        simp only [readFaults, early]
        cases initializer <;> rfl

/-- The methods of a class, with the scopes around them opened and closed. -/
theorem faulted_classBody (superclass : Option Expr) {found : List FunctionDecl}
    {errors : List BindingError}
    (inner : ∀ walk, Faulted walk (methods (classKind superclass) found walk) walk.scopes errors) :
    Faulted walk (closeSuper superclass (methods (classKind superclass) found
      ((openSuper superclass walk).openScope [("this", true)])).closeScope) walk.scopes errors := by
  have within := inner ((openSuper superclass walk).openScope [("this", true)])
  cases superclass with
  | none => exact ⟨congrArg List.tail within.scopes, within.errors⟩
  | some parent =>
      exact ⟨congrArg (fun scopes => scopes.tail.tail) within.scopes, within.errors⟩

/-- All faults of a function, apart from those of its name. -/
def reportedFunction (around : Surroundings) (depth : Nat) (found : FunctionDecl) :
    List BindingError :=
  scopeFaults found.params found.body ++ (found.inside.flatMap Stmt.faults ++
    returnFaults around.body (Stmt.returnsAll found.body) ++
    useFaults around.enclosing ((found.ownUses depth).map PlacedUse.use))

/-- What the walk remembers of a method is that it may be an initializer and that
its class may have no superclass. -/
theorem count_methodFaults (error : BindingError) (superclass : Option Expr)
    (method : FunctionDecl) :
    (reportedFunction ⟨methodKind method, classKind superclass⟩ 0 method).count error =
      (methodFaults superclass method).count error +
        (method.inside.flatMap Stmt.faults).count error := by
  have ended : returnFaults (methodKind method) (Stmt.returnsAll method.body) =
      if method.isInitializer then BindingCause.returnValueFromInitializer.atEach
        (((Stmt.returnsAll method.body).filter fun found => found.value.isSome).map Return.keyword)
      else [] := by
    unfold methodKind
    split <;> rfl
  have used : ∀ uses, useFaults (classKind superclass) uses =
      if superclass.isNone then
        BindingCause.superWithoutSuperclass.atEach (Use.tokensOf .superWord uses)
      else [] := by
    intro uses
    cases superclass <;> rfl
  simp only [reportedFunction, methodFaults, ended, used, List.count_append]
  omega

mutual

theorem faulted_statement : ∀ (found : Stmt) (around : Surroundings) (walk : Resolution)
    (names : Option (List String)) (depth : Nat), found.WellFormed → Knows walk.scopes names →
      Faulted walk (statement around found walk) (found.after walk.scopes)
        (reported around names depth found)
  | .expression found, around, walk, names, depth, _, knows => by
      refine (faulted_ready walk knows around.enclosing (some found)).regroup fun error => ?_
      simp [reported, Stmt.faults, Stmt.inside, Stmt.returns, Stmt.ownUses, Expr.usesOption,
        localFaults_of_plain (.expression found) rfl]
  | .print found, around, walk, names, depth, _, knows => by
      refine (faulted_ready walk knows around.enclosing (some found)).regroup fun error => ?_
      simp [reported, Stmt.faults, Stmt.inside, Stmt.returns, Stmt.ownUses, Expr.usesOption,
        localFaults_of_plain (.print found) rfl]
  | .var name initializer, around, walk, names, depth, _, knows => by
      have declared := faulted_declare walk knows name
      have value := faulted_expression? (walk.declare name) around.enclosing initializer
      rw [declared.scopes, readFaults_mark knows] at value
      have defined := faulted_mark (expression? around.enclosing initializer (walk.declare name))
        name.lexeme true
      rw [value.scopes, Scopes.mark_mark] at defined
      refine (declared.append (value.append defined)).regroup fun error => ?_
      cases names <;> simp [reported, Stmt.faults, Stmt.inside, Stmt.returns, Stmt.ownUses,
        declarationFaults, localFaults, Stmt.declared?]
      omega
  | .block body, around, walk, names, depth, wellFormed, knows => by
      have inner := faulted_statements body around (walk.openScope []) (some []) (depth + 1)
        wellFormed fun name => rfl
      have tail := congrArg List.tail inner.scopes
      rw [Stmt.tail_afterAll] at tail
      have whole : Faulted walk (statement around (.block body) walk) walk.scopes _ :=
        ⟨tail, inner.errors⟩
      refine whole.regroup fun error => ?_
      rw [reported, localFaults_of_plain (.block body) rfl]
      simp only [reportedAll, Stmt.faults, localFaults, scopeFaults, Stmt.inside, Stmt.returns,
        Stmt.ownUses, List.count_append, List.count_nil, List.nil_append]
      omega
  | .cond condition thenBranch none, around, walk, names, depth, ⟨_, inside, plain⟩, knows => by
      have guarded := faulted_guarded walk knows around condition plain fun middle same =>
        faulted_statement thenBranch around middle names depth inside (same ▸ knows)
      refine guarded.regroup fun error => ?_
      simp only [reported, Stmt.faults_cond, Stmt.inside, Stmt.returns, Stmt.ownUses,
        List.map_append, Use.map_use_allAt, List.flatMap_cons, List.count_append,
        List.count_nil, count_useFaults_append, localFaults_of_plain _ plain,
        localFaults_of_plain (.cond condition thenBranch none) rfl]
      omega
  | .cond condition thenBranch (some elseBranch), around, walk, names, depth,
      ⟨_, ⟨inside, plain⟩, other, bare⟩, knows => by
      have guarded := faulted_guarded walk knows around condition plain fun middle same =>
        faulted_statement thenBranch around middle names depth inside (same ▸ knows)
      have second := faulted_statement elseBranch around
        (statement around thenBranch (expression around.enclosing condition walk)) names depth
        other (guarded.scopes ▸ knows)
      rw [guarded.scopes, after_of_plain bare] at second
      refine (guarded.append second).regroup fun error => ?_
      simp only [reported, Stmt.faults_cond, Stmt.inside, Stmt.returns, Stmt.ownUses,
        List.map_append, Use.map_use_allAt, List.flatMap_cons,
        List.flatMap_append, List.count_append, List.count_nil, count_useFaults_append,
        count_returnFaults_append, localFaults_of_plain _ plain, localFaults_of_plain _ bare,
        localFaults_of_plain (.cond condition thenBranch (some elseBranch)) rfl]
      omega
  | .loop condition body, around, walk, names, depth, ⟨_, inside, plain⟩, knows => by
      have guarded := faulted_guarded walk knows around condition plain fun middle same =>
        faulted_statement body around middle names depth inside (same ▸ knows)
      refine guarded.regroup fun error => ?_
      simp only [reported, Stmt.faults_loop, Stmt.inside, Stmt.returns, Stmt.ownUses,
        List.map_append, Use.map_use_allAt, List.flatMap_cons, List.count_append,
        List.count_nil, count_useFaults_append, localFaults_of_plain _ plain,
        localFaults_of_plain (.loop condition body) rfl]
      omega
  | .function declaration, around, walk, names, depth, wellFormed, knows => by
      have named := faulted_introduce walk knows declaration.name
      have inner := faulted_function declaration { around with body := .function }
        (walk.introduce declaration.name) depth wellFormed
      rw [named.scopes] at inner
      refine (named.append inner).regroup fun error => ?_
      rw [reported, reportedFunction, Stmt.returns, returnFaults_nil, localFaults_function]
      simp only [Stmt.faults, Stmt.inside, Stmt.ownUses, returnFaults, List.count_append,
        List.count_nil]
      omega
  | .ret keyword value, around, walk, names, depth, _, knows => by
      have placed := faulted_ret walk around keyword value
      have inner := faulted_ready _ (placed.scopes ▸ knows) around.enclosing value
      rw [placed.scopes] at inner
      refine (placed.append inner).regroup fun error => ?_
      simp [reported, Stmt.faults, Stmt.inside, Stmt.returns, Stmt.ownUses,
        localFaults_of_plain (.ret keyword value) rfl]
  | .classDecl name superclass declarations, around, walk, names, depth,
      ⟨_, parentName, wellFormed⟩, knows => by
      have named := faulted_introduce walk knows name
      have checked := faulted_checkSuperclass (walk.introduce name) name superclass
      rw [named.scopes] at checked
      have known : Knows ((walk.introduce name).checkSuperclass name superclass).scopes
          (names.map (name.lexeme :: ·)) := by
        rw [checked.scopes]
        exact knows.mark name.lexeme
      have parent := faulted_ready _ known (classKind superclass) superclass
      rw [checked.scopes, useFaults_superclass parentName] at parent
      have inner := faulted_classBody (expression? (classKind superclass) superclass
        ((walk.introduce name).checkSuperclass name superclass)) superclass
        fun walk => faulted_methods superclass declarations walk wellFormed
      rw [parent.scopes] at inner
      refine (named.append (checked.append (parent.append inner))).regroup fun error => ?_
      rw [reported, Stmt.returns, returnFaults_nil, localFaults_classDecl, Stmt.ownUses,
        Use.map_use_allAt, useFaults_superclass parentName]
      simp only [Stmt.faults, Stmt.inside, List.count_append, List.count_nil]
      omega

theorem faulted_statements : ∀ (found : List Stmt) (around : Surroundings) (walk : Resolution)
    (names : Option (List String)) (depth : Nat), Stmt.AllWellFormed found →
      Knows walk.scopes names →
      Faulted walk (statements around found walk) (Stmt.afterAll walk.scopes found)
        (reportedAll around names depth found)
  | [], _, _, _, _, _, _ => by
      refine (faulted_quiet rfl).regroup fun error => ?_
      simp [reportedAll, Stmt.withinAll, Stmt.returnsAll, Stmt.ownUsesAll]
  | first :: rest, around, walk, names, depth, ⟨here, behind⟩, knows => by
      have early := faulted_statement first around walk names depth here knows
      have known : Knows (statement around first walk).scopes (namesAfter names first) := by
        rw [early.scopes]
        exact knows.after first
      have late := faulted_statements rest around (statement around first walk) _ depth behind known
      rw [early.scopes] at late
      refine (early.append late).regroup fun error => ?_
      simp only [reported, reportedAll, Stmt.withinAll, Stmt.returnsAll, Stmt.ownUsesAll,
        List.map_append, List.flatMap_cons, List.flatMap_append, List.count_append,
        List.cons_append, count_returnFaults_append, count_useFaults_append,
        count_localFaults_cons error names first rest]
      omega

theorem faulted_function : ∀ (found : FunctionDecl) (around : Surroundings) (walk : Resolution)
    (depth : Nat), found.WellFormed →
      Faulted walk (function around found walk) walk.scopes (reportedFunction around depth found)
  | ⟨id, name, params, body⟩, around, walk, depth, ⟨_, _, wellFormed⟩ => by
      obtain ⟨scope, knows, listed⟩ := faulted_introduceAll params (walk.openScope []) []
        walk.scopes [] rfl fun name => rfl
      have inner := faulted_statements body around ((walk.openScope []).introduceAll params) _
        (depth + 1) wellFormed (listed.scopes ▸ knows)
      have both := listed.append inner
      have tail := congrArg List.tail inner.scopes
      rw [Stmt.tail_afterAll, listed.scopes] at tail
      have whole : Faulted walk (function around ⟨id, name, params, body⟩ walk) walk.scopes _ :=
        ⟨tail, both.errors⟩
      refine whole.regroup fun error => ?_
      simp only [reportedFunction, reportedAll, scopeFaults, localFaults, FunctionDecl.inside,
        FunctionDecl.ownUses, List.append_nil, Token.repeated_append, BindingCause.atEach_append,
        List.count_append]
      omega

theorem faulted_methods (superclass : Option Expr) : ∀ (found : List FunctionDecl)
    (walk : Resolution), FunctionDecl.AllWellFormed found →
      Faulted walk (methods (classKind superclass) found walk) walk.scopes
        (found.flatMap (methodFaults superclass) ++
          (FunctionDecl.insideAll found).flatMap Stmt.faults)
  | [], walk, _ => faulted_quiet rfl
  | first :: rest, walk, ⟨here, behind⟩ => by
      have early := faulted_function first ⟨methodKind first, classKind superclass⟩ walk 0 here
      have late := faulted_methods superclass rest
        (function ⟨methodKind first, classKind superclass⟩ first walk) behind
      rw [early.scopes] at late
      refine (early.append late).regroup fun error => ?_
      have method := count_methodFaults error superclass first
      simp only [List.flatMap_cons, FunctionDecl.insideAll, List.flatMap_append, List.count_append]
        at method ⊢
      omega

end

/-- **The walk over a program finds its violations**, each of them once. -/
theorem perm_violations (found : List Stmt) (wellFormed : Stmt.AllWellFormed found) :
    (program found).errors.Perm (violations found) := by
  have walked := faulted_statements found ⟨.topLevel, .outside⟩ start none 0 wellFormed trivial
  refine List.perm_iff_count.mpr fun error => (walked.errors error).trans ?_
  simp only [start, reportedAll, violations, returnFaults, useFaults, localFaults,
    List.count_append, List.count_nil]
  omega

end Resolution

end LoxLang
