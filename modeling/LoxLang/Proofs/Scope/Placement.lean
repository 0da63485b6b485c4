import LoxLang.Proofs.Tree.WellFormed
import LoxLang.Scope.Distance
import LoxLang.Scope.Resolution

/-!
# Trees whose names are placed

A tree is scoped at a point if the number of every occurrence in it is placed
at the distance that the local scopes around it give to the name, and if the
checks on declarations, on `this`, `super` and `return` hold. This says of a
tree by itself what the walk of resolution establishes along the way: the
scopes are those in which a statement stands, and each declaration adds its
name for the statements behind it.

How a number is placed is left open (`Placing`), so that the same tree can be
looked at with a distance table that has grown since. The main statement is
`Resolution.walked_statements`: behind a walk without faults, the tree is
scoped for every placing that agrees with the distances found.
-/

namespace LoxLang

set_option autoImplicit false

open Resolution

/-- The local scopes around a point, the innermost first. -/
abbrev Scopes := List LocalScope

/-- Which distance, if any, a node number is placed at. -/
abbrev Placing := Nat → Option Nat → Prop

namespace Scopes

/-- Sets a name in the innermost scope. -/
def mark (name : String) (defined : Bool) : Scopes → Scopes
  | [] => []
  | scope :: outer => scope.insert name defined :: outer

/-- The innermost scope does not know a name. -/
def Fresh (name : String) : Scopes → Prop
  | [] => True
  | scope :: _ => scope.find? name = none

/-- A name is not one that the innermost scope has declared and not defined. -/
def Readable (name : String) : Scopes → Prop
  | [] => True
  | scope :: _ => scope.find? name ≠ some false

/-- The scope of the parameters of a function. -/
def ofParams (params : List Token) : LocalScope :=
  params.foldl (fun scope param => scope.insert param.lexeme true) []

/-- The scopes around the methods of a class that stands in given scopes. -/
def aroundMethods (superclass : Option Expr) (scopes : Scopes) : Scopes :=
  [("this", true)] :: match superclass with
    | none => scopes
    | some _ => [("super", true)] :: scopes

end Scopes

/-! ## Scoped trees -/

namespace Expr

mutual

/-- Every occurrence in an expression is placed by the scopes around it. -/
def Scoped (placed : Placing) (enclosing : ClassKind) (scopes : Scopes) : Expr → Prop
  | literal _ => True
  | grouping inner => inner.Scoped placed enclosing scopes
  | unary _ operand => operand.Scoped placed enclosing scopes
  | binary left _ right =>
    left.Scoped placed enclosing scopes ∧ right.Scoped placed enclosing scopes
  | logical left _ right =>
    left.Scoped placed enclosing scopes ∧ right.Scoped placed enclosing scopes
  | var occurrence =>
    scopes.Readable occurrence.name ∧
      placed occurrence.id (distance? occurrence.name scopes)
  | assign occurrence value =>
    value.Scoped placed enclosing scopes ∧
      placed occurrence.id (distance? occurrence.name scopes)
  | call callee _ arguments =>
    callee.Scoped placed enclosing scopes ∧ AllScoped placed enclosing scopes arguments
  | get object _ => object.Scoped placed enclosing scopes
  | set object _ value =>
    object.Scoped placed enclosing scopes ∧ value.Scoped placed enclosing scopes
  | thisRef occurrence =>
    enclosing ≠ .outside ∧ placed occurrence.id (distance? occurrence.name scopes)
  | superRef occurrence _ =>
    enclosing = .derived ∧ placed occurrence.id (distance? occurrence.name scopes)

/-- The same for every expression of a list. -/
def AllScoped (placed : Placing) (enclosing : ClassKind) (scopes : Scopes) : List Expr → Prop
  | [] => True
  | first :: rest =>
    first.Scoped placed enclosing scopes ∧ AllScoped placed enclosing scopes rest

end

/-- The same for an expression that may be missing. -/
def OptionScoped (placed : Placing) (enclosing : ClassKind) (scopes : Scopes) :
    Option Expr → Prop
  | none => True
  | some found => found.Scoped placed enclosing scopes

end Expr

/-- The name that a statement declares where it stands. -/
def Stmt.declared? : Stmt → Option Token
  | .var name _ => some name
  | .function declaration => some declaration.name
  | .classDecl name _ _ => some name
  | _ => none

/-- The scopes behind a statement. -/
def Stmt.after (scopes : Scopes) (found : Stmt) : Scopes :=
  match found.declared? with
  | some name => scopes.mark name.lexeme true
  | none => scopes

mutual

/-- Every occurrence in a statement is placed by the scopes around it. -/
def Stmt.Scoped (placed : Placing) : Surroundings → Scopes → Stmt → Prop
  | around, scopes, .expression found => found.Scoped placed around.enclosing scopes
  | around, scopes, .print found => found.Scoped placed around.enclosing scopes
  | around, scopes, .var name initializer =>
    scopes.Fresh name.lexeme ∧
      Expr.OptionScoped placed around.enclosing (scopes.mark name.lexeme false) initializer
  | around, scopes, .block body => Stmt.AllScoped placed around ([] :: scopes) body
  | around, scopes, .cond condition thenBranch none =>
    condition.Scoped placed around.enclosing scopes ∧ thenBranch.Scoped placed around scopes
  | around, scopes, .cond condition thenBranch (some elseBranch) =>
    condition.Scoped placed around.enclosing scopes ∧ thenBranch.Scoped placed around scopes ∧
      elseBranch.Scoped placed around scopes
  | around, scopes, .loop condition body =>
    condition.Scoped placed around.enclosing scopes ∧ body.Scoped placed around scopes
  | around, scopes, .function declaration =>
    scopes.Fresh declaration.name.lexeme ∧
      declaration.Scoped placed { around with body := .function }
        (scopes.mark declaration.name.lexeme true)
  | around, scopes, .ret _ value =>
    around.body ≠ .topLevel ∧ Expr.OptionScoped placed around.enclosing scopes value
  | _, scopes, .classDecl name superclass methods =>
    scopes.Fresh name.lexeme ∧ selfReference? name superclass = none ∧
      Expr.OptionScoped placed (classKind superclass) (scopes.mark name.lexeme true) superclass ∧
      FunctionDecl.AllScoped placed (classKind superclass)
        ((scopes.mark name.lexeme true).aroundMethods superclass) methods

/-- The same for a list of statements, each behind the declarations of those
in front of it. -/
def Stmt.AllScoped (placed : Placing) : Surroundings → Scopes → List Stmt → Prop
  | _, _, [] => True
  | around, scopes, first :: rest =>
    first.Scoped placed around scopes ∧ Stmt.AllScoped placed around (first.after scopes) rest

/-- The same for a function that stands in given scopes. Its parameters share
the scope of its body. -/
def FunctionDecl.Scoped (placed : Placing) : Surroundings → Scopes → FunctionDecl → Prop
  | around, scopes, ⟨_, _, params, body⟩ =>
    (params.map Token.lexeme).Nodup ∧
      Stmt.AllScoped placed around (Scopes.ofParams params :: scopes) body

/-- The same for the methods of a class. -/
def FunctionDecl.AllScoped (placed : Placing) (enclosing : ClassKind) :
    Scopes → List FunctionDecl → Prop
  | _, [] => True
  | scopes, first :: rest =>
    first.Scoped placed ⟨methodKind first, enclosing⟩ scopes ∧
      FunctionDecl.AllScoped placed enclosing scopes rest

end

theorem FunctionDecl.scoped_of_mem {placed : Placing} {enclosing : ClassKind}
    {scopes : Scopes} {method : FunctionDecl} : ∀ {methods : List FunctionDecl},
      FunctionDecl.AllScoped placed enclosing scopes methods → method ∈ methods →
        method.Scoped placed ⟨methodKind method, enclosing⟩ scopes
  | [], _, member => nomatch member
  | _ :: _, ⟨one, many⟩, member => by
      rcases List.mem_cons.mp member with rfl | later
      · exact one
      · exact FunctionDecl.scoped_of_mem many later

/-! ## Other placings -/

/-- A placing that keeps every number where another has it. -/
def Placing.Le (placed finer : Placing) : Prop :=
  ∀ id distance, placed id distance → finer id distance

section Monotone

variable {placed finer : Placing}

namespace Expr

mutual

theorem scoped_mono (le : placed.Le finer) {enclosing : ClassKind} {scopes : Scopes} :
    ∀ found : Expr, found.Scoped placed enclosing scopes → found.Scoped finer enclosing scopes
  | literal _, _ => trivial
  | grouping inner, inside | unary _ inner, inside | get inner _, inside =>
    scoped_mono le inner inside
  | binary left _ right, ⟨one, two⟩ | logical left _ right, ⟨one, two⟩
  | set left _ right, ⟨one, two⟩ => ⟨scoped_mono le left one, scoped_mono le right two⟩
  | var _, ⟨legal, here⟩ | thisRef _, ⟨legal, here⟩ | superRef _ _, ⟨legal, here⟩ =>
    ⟨legal, le _ _ here⟩
  | assign _ value, ⟨inside, here⟩ => ⟨scoped_mono le value inside, le _ _ here⟩
  | call callee _ arguments, ⟨one, many⟩ =>
    ⟨scoped_mono le callee one, allScoped_mono le arguments many⟩

theorem allScoped_mono (le : placed.Le finer) {enclosing : ClassKind} {scopes : Scopes} :
    ∀ found : List Expr, AllScoped placed enclosing scopes found →
      AllScoped finer enclosing scopes found
  | [], _ => trivial
  | first :: rest, ⟨one, many⟩ => ⟨scoped_mono le first one, allScoped_mono le rest many⟩

end

theorem optionScoped_mono (le : placed.Le finer) {enclosing : ClassKind} {scopes : Scopes} :
    ∀ found : Option Expr, OptionScoped placed enclosing scopes found →
      OptionScoped finer enclosing scopes found
  | none, _ => trivial
  | some found, inside => scoped_mono le found inside

end Expr

mutual

theorem Stmt.scoped_mono (le : placed.Le finer) : ∀ (around : Surroundings) (scopes : Scopes)
    (found : Stmt), found.Scoped placed around scopes → found.Scoped finer around scopes
  | _, _, .expression found, inside | _, _, .print found, inside =>
    Expr.scoped_mono le found inside
  | _, _, .var _ value, ⟨legal, inside⟩ | _, _, .ret _ value, ⟨legal, inside⟩ =>
    ⟨legal, Expr.optionScoped_mono le value inside⟩
  | around, _, .block body, inside => Stmt.allScoped_mono le around _ body inside
  | around, scopes, .cond condition body none, ⟨test, inside⟩
  | around, scopes, .loop condition body, ⟨test, inside⟩ =>
    ⟨Expr.scoped_mono le condition test, Stmt.scoped_mono le around scopes body inside⟩
  | around, scopes, .cond condition thenBranch (some elseBranch), ⟨test, one, two⟩ =>
    ⟨Expr.scoped_mono le condition test, Stmt.scoped_mono le around scopes thenBranch one,
      Stmt.scoped_mono le around scopes elseBranch two⟩
  | _, _, .function declaration, ⟨fresh, inside⟩ =>
    ⟨fresh, FunctionDecl.scoped_mono le _ _ declaration inside⟩
  | _, _, .classDecl _ superclass methods, ⟨fresh, other, above, inside⟩ =>
    ⟨fresh, other, Expr.optionScoped_mono le superclass above,
      FunctionDecl.allScoped_mono le _ _ methods inside⟩

theorem Stmt.allScoped_mono (le : placed.Le finer) : ∀ (around : Surroundings) (scopes : Scopes)
    (found : List Stmt), Stmt.AllScoped placed around scopes found →
      Stmt.AllScoped finer around scopes found
  | _, _, [], _ => trivial
  | around, scopes, first :: rest, ⟨one, many⟩ =>
    ⟨Stmt.scoped_mono le around scopes first one, Stmt.allScoped_mono le around _ rest many⟩

theorem FunctionDecl.scoped_mono (le : placed.Le finer) : ∀ (around : Surroundings)
    (scopes : Scopes) (found : FunctionDecl), found.Scoped placed around scopes →
      found.Scoped finer around scopes
  | around, _, ⟨_, _, _, body⟩, ⟨names, inside⟩ =>
    ⟨names, Stmt.allScoped_mono le around _ body inside⟩

theorem FunctionDecl.allScoped_mono (le : placed.Le finer) : ∀ (enclosing : ClassKind)
    (scopes : Scopes) (found : List FunctionDecl),
      FunctionDecl.AllScoped placed enclosing scopes found →
        FunctionDecl.AllScoped finer enclosing scopes found
  | _, _, [], _ => trivial
  | enclosing, scopes, first :: rest, ⟨one, many⟩ =>
    ⟨FunctionDecl.scoped_mono le _ scopes first one,
      FunctionDecl.allScoped_mono le enclosing scopes rest many⟩

end

end Monotone

/-! ## The scopes of a walk -/

namespace Scopes

/-- Marking a name twice leaves the last mark. -/
theorem mark_mark (name : String) (first second : Bool) (scopes : Scopes) :
    mark name second (mark name first scopes) = mark name second scopes := by
  cases scopes with
  | nil => rfl
  | cons scope outer =>
      have twice : ∀ scope : LocalScope,
          (scope.insert name first).insert name second = scope.insert name second := by
        intro scope
        induction scope with
        | nil => simp [Bindings.insert]
        | cons entry rest ih =>
            by_cases same : entry.1 = name
            · simp [Bindings.insert, same]
            · simp [Bindings.insert, same, ih]
      simp only [mark, twice]

@[simp] theorem tail_mark (name : String) (defined : Bool) (scopes : Scopes) :
    (mark name defined scopes).tail = scopes.tail := by
  cases scopes <;> rfl

end Scopes

/-- The scopes behind a list of statements. -/
def Stmt.afterAll (scopes : Scopes) (body : List Stmt) : Scopes := body.foldl Stmt.after scopes

/-- There is nothing to declare a name in outside of all local scopes. -/
@[simp] theorem Stmt.after_nil (found : Stmt) : found.after [] = [] := by
  unfold Stmt.after
  split <;> rfl

theorem Stmt.tail_after (found : Stmt) (scopes : Scopes) :
    (found.after scopes).tail = scopes.tail := by
  unfold Stmt.after
  split <;> simp

theorem Stmt.tail_afterAll (body : List Stmt) (scopes : Scopes) :
    (Stmt.afterAll scopes body).tail = scopes.tail := by
  induction body generalizing scopes with
  | nil => rfl
  | cons first rest ih =>
      rw [Stmt.afterAll, List.foldl_cons, ← Stmt.afterAll, ih, Stmt.tail_after]

/-! ## What a walk establishes -/

namespace Resolution

/-- What a part of the walk does: it adds distances for some numbers only, and
it leaves the scopes in a known state. If there is no fault up to its end, a
condition holds for every placing that agrees with the distances added. -/
structure Walked (ids : List Nat) (before after : Resolution) (behind : Scopes)
    (holds : Placing → Prop) : Prop where
  scopes : after.scopes = behind
  quiet : after.errors = [] → before.errors = []
  entries : ∃ added, after.distances = added ++ before.distances ∧
    (∀ entry ∈ added, entry.1 ∈ ids) ∧
    (after.errors = [] → ∀ placed : Placing,
      (∀ id ∈ ids, placed id (added.lookup id)) → holds placed)

theorem lookup_eq_none {ids : List Nat} {added : List (Nat × Nat)} {id : Nat}
    (among : ∀ entry ∈ added, entry.1 ∈ ids) (outside : id ∉ ids) : added.lookup id = none := by
  rw [List.lookup_eq_none_iff]
  intro entry member
  exact bne_iff_ne.mpr fun same => outside (same ▸ among entry member)

namespace Walked

variable {ids others : List Nat} {before middle after : Resolution} {behind further : Scopes}
  {holds final : Placing → Prop}

theorem mono (walked : Walked ids before after behind holds)
    (weaker : ∀ placed, holds placed → final placed) : Walked ids before after behind final where
  scopes := walked.scopes
  quiet := walked.quiet
  entries := by
    obtain ⟨added, same, among, good⟩ := walked.entries
    exact ⟨added, same, among, fun none placed agrees => weaker placed (good none placed agrees)⟩

/-- Two parts of the walk about different numbers. -/
theorem append (first : Walked ids before middle behind holds)
    (second : Walked others middle after further final)
    (apart : ∀ id ∈ ids, ∀ other ∈ others, id ≠ other) :
    Walked (ids ++ others) before after further fun placed => holds placed ∧ final placed where
  scopes := second.scopes
  quiet none := first.quiet (second.quiet none)
  entries := by
    obtain ⟨early, before_, among, good⟩ := first.entries
    obtain ⟨late, middle_, within, fine⟩ := second.entries
    refine ⟨late ++ early, by rw [middle_, before_, List.append_assoc], ?_, ?_⟩
    · intro entry member
      rcases List.mem_append.mp member with found | found
      · exact List.mem_append.mpr (.inr (within entry found))
      · exact List.mem_append.mpr (.inl (among entry found))
    · intro none placed agrees
      constructor
      · refine good (second.quiet none) placed fun id member => ?_
        have placing := agrees id (List.mem_append.mpr (.inl member))
        have outside : id ∉ others := fun found => apart id member id found rfl
        rwa [List.lookup_append, lookup_eq_none within outside, Option.none_or] at placing
      · refine fine none placed fun id member => ?_
        have placing := agrees id (List.mem_append.mpr (.inr member))
        have outside : id ∉ ids := fun found => apart id found id member rfl
        rwa [List.lookup_append, lookup_eq_none among outside, Option.or_none] at placing

/-- More numbers may be allowed than distances are added for. -/
theorem widen (walked : Walked ids before after behind holds)
    (among : ∀ id ∈ ids, id ∈ others) : Walked others before after behind holds where
  scopes := walked.scopes
  quiet := walked.quiet
  entries := by
    obtain ⟨added, same, within, good⟩ := walked.entries
    exact ⟨added, same, fun entry member => among _ (within entry member),
      fun none placed agrees => good none placed fun id member => agrees id (among id member)⟩

/-- The order of the numbers does not matter. -/
theorem swap (walked : Walked (ids ++ others) before after behind holds) :
    Walked (others ++ ids) before after behind holds :=
  walked.widen fun _ member => List.mem_append.mpr (List.mem_append.mp member).symm

/-- A part without occurrences in front of another. -/
theorem leading (first : Walked [] before middle behind holds)
    (second : Walked ids middle after further final) :
    Walked ids before after further fun placed => holds placed ∧ final placed :=
  first.append second (by simp)

/-- A part without occurrences behind another. -/
theorem trailing (first : Walked ids before middle behind holds)
    (second : Walked [] middle after further final) :
    Walked ids before after further fun placed => holds placed ∧ final placed := by
  have both := first.append second (by simp)
  rwa [List.append_nil] at both

end Walked

variable (walk : Resolution)

/-- A part that changes the scopes only. -/
theorem walked_scopes {walk after : Resolution} (distances : after.distances = walk.distances)
    (errors : after.errors = walk.errors) :
    Walked [] walk after after.scopes fun _ => True where
  scopes := rfl
  quiet none := errors ▸ none
  entries := ⟨[], distances, by simp, fun _ _ _ => trivial⟩

theorem walked_mark (name : String) (defined : Bool) :
    Walked [] walk (walk.mark name defined) (Scopes.mark name defined walk.scopes)
      fun _ => True := by
  have same : (walk.mark name defined).scopes = Scopes.mark name defined walk.scopes := by
    unfold mark Scopes.mark
    split <;> simp_all
  rw [← same]
  unfold mark
  split <;> exact walked_scopes rfl rfl

theorem walked_reportIf (condition : Bool) (cause : BindingCause) (token : Token) :
    Walked [] walk (walk.reportIf condition cause token) walk.scopes
      fun _ => condition = false := by
  cases condition with
  | false => exact (walked_scopes rfl rfl).mono fun _ _ => rfl
  | true =>
      have some : (walk.reportIf true cause token).errors ≠ [] := by simp [reportIf, report]
      exact ⟨rfl, fun none => absurd none some, [], rfl, by simp, fun none => absurd none some⟩

theorem walked_report (cause : BindingCause) (token : Token) :
    Walked [] walk (walk.report cause token) walk.scopes fun _ => False :=
  (walked_reportIf walk true cause token).mono fun _ never => nomatch never

theorem walked_declare (name : Token) :
    Walked [] walk (walk.declare name) (Scopes.mark name.lexeme false walk.scopes)
      fun _ => Scopes.Fresh name.lexeme walk.scopes := by
  have marked := walked_mark walk name.lexeme false
  have checked := walked_reportIf (walk.mark name.lexeme false)
    (walk.innermost? name.lexeme).isSome .alreadyDeclared name
  rw [marked.scopes] at checked
  refine (marked.trailing checked).mono fun _ ⟨_, new⟩ => ?_
  unfold innermost? at new
  unfold Scopes.Fresh
  split at new <;> simp_all

theorem walked_introduce (name : Token) :
    Walked [] walk (walk.introduce name) (Scopes.mark name.lexeme true walk.scopes)
      fun _ => Scopes.Fresh name.lexeme walk.scopes := by
  have declared := walked_declare walk name
  have defined := walked_mark (walk.declare name) name.lexeme true
  rw [declared.scopes, Scopes.mark_mark] at defined
  exact (declared.trailing defined).mono fun _ both => both.1

theorem walked_checkSuper (enclosing : ClassKind) (keyword : Token) :
    Walked [] walk (walk.checkSuper enclosing keyword) walk.scopes
      fun _ => enclosing = .derived := by
  cases enclosing with
  | outside | base => exact (walked_report walk _ _).mono fun _ never => never.elim
  | derived => exact (walked_scopes rfl rfl).mono fun _ _ => rfl

theorem walked_bind (occurrence : Occurrence) :
    Walked [occurrence.id] walk (walk.bind occurrence) walk.scopes fun placed =>
      placed occurrence.id (distance? occurrence.name walk.scopes) := by
  unfold bind
  split
  next distance found =>
    refine ⟨rfl, id, [(occurrence.id, distance)], rfl, by simp, fun _ placed agrees => ?_⟩
    rw [found]
    simpa using agrees occurrence.id (by simp)
  next missing =>
    refine ⟨rfl, id, [], rfl, by simp, fun _ placed agrees => ?_⟩
    rw [missing]
    simpa using agrees occurrence.id (by simp)

/-! ### Expressions -/

mutual

theorem walked_expression (enclosing : ClassKind) : ∀ (found : Expr) (walk : Resolution),
    found.numbers.Nodup → Walked found.numbers walk (expression enclosing found walk) walk.scopes
      fun placed => found.Scoped placed enclosing walk.scopes
  | .literal _, walk, _ => walked_scopes rfl rfl
  | .grouping inner, walk, distinct => walked_expression enclosing inner walk distinct
  | .unary _ operand, walk, distinct => walked_expression enclosing operand walk distinct
  | .binary left _ right, walk, distinct | .logical left _ right, walk, distinct => by
      obtain ⟨one, two, apart⟩ := List.nodup_append.mp distinct
      have first := walked_expression enclosing left walk one
      have second := walked_expression enclosing right (expression enclosing left walk) two
      rw [first.scopes] at second
      exact first.append second apart
  | .var occurrence, walk, _ => by
      have checked := walked_reportIf walk
        (walk.innermost? occurrence.name == some false) .readInOwnInitializer occurrence.token
      have bound := walked_bind (walk.reportIf (walk.innermost? occurrence.name == some false)
        .readInOwnInitializer occurrence.token) occurrence
      rw [checked.scopes] at bound
      refine (checked.leading bound).mono fun placed ⟨readable, found⟩ => ⟨?_, found⟩
      unfold innermost? at readable
      unfold Scopes.Readable
      split at readable <;> simp_all
  | .assign occurrence value, walk, distinct => by
      obtain ⟨one, _, apart⟩ := List.nodup_append.mp distinct
      have first := walked_expression enclosing value walk one
      have second := walked_bind (expression enclosing value walk) occurrence
      rw [first.scopes] at second
      exact first.append second apart
  | .call callee _ arguments, walk, distinct => by
      obtain ⟨one, two, apart⟩ := List.nodup_append.mp distinct
      have first := walked_expression enclosing callee walk one
      have second := walked_expressions enclosing arguments (expression enclosing callee walk) two
      rw [first.scopes] at second
      exact first.append second apart
  | .get object _, walk, distinct => walked_expression enclosing object walk distinct
  | .set object _ value, walk, distinct => by
      obtain ⟨one, two, apart⟩ := List.nodup_append.mp distinct
      have first := walked_expression enclosing value walk two
      have second := walked_expression enclosing object (expression enclosing value walk) one
      rw [first.scopes] at second
      have both := first.append second fun id here other there => (apart other there id here).symm
      exact both.swap.mono fun _ ⟨inner, outer⟩ => ⟨outer, inner⟩
  | .thisRef occurrence, walk, _ => by
      cases enclosing with
      | outside =>
          refine ((walked_report walk _ _).widen ?_).mono fun _ never => never.elim
          simp
      | base | derived => exact (walked_bind walk occurrence).mono fun _ found => ⟨nofun, found⟩
  | .superRef occurrence _, walk, _ => by
      have checked := walked_checkSuper walk enclosing occurrence.token
      have bound := walked_bind (walk.checkSuper enclosing occurrence.token) occurrence
      rw [checked.scopes] at bound
      exact checked.leading bound

theorem walked_expressions (enclosing : ClassKind) : ∀ (found : List Expr) (walk : Resolution),
    (Expr.numbersAll found).Nodup → Walked (Expr.numbersAll found) walk
      (expressions enclosing found walk) walk.scopes
        fun placed => Expr.AllScoped placed enclosing walk.scopes found
  | [], _, _ => walked_scopes rfl rfl
  | first :: rest, walk, distinct => by
      obtain ⟨one, two, apart⟩ := List.nodup_append.mp distinct
      have early := walked_expression enclosing first walk one
      have late := walked_expressions enclosing rest (expression enclosing first walk) two
      rw [early.scopes] at late
      exact early.append late apart

end

theorem walked_expression? (enclosing : ClassKind) (found : Option Expr)
    (distinct : (Expr.numbersOption found).Nodup) :
    Walked (Expr.numbersOption found) walk (expression? enclosing found walk) walk.scopes
      fun placed => Expr.OptionScoped placed enclosing walk.scopes found := by
  cases found with
  | none => exact walked_scopes rfl rfl
  | some found => exact walked_expression enclosing found walk distinct

/-! ### Statements -/

theorem walked_openScope (scope : LocalScope) :
    Walked [] walk (walk.openScope scope) (scope :: walk.scopes) fun _ => True :=
  walked_scopes rfl rfl

theorem walked_closeScope : Walked [] walk walk.closeScope walk.scopes.tail fun _ => True :=
  walked_scopes rfl rfl

/-- The parameters of a function have different names. -/
theorem walked_introduceAll (params : List Token) : ∀ (walk : Resolution) (scope : LocalScope)
    (outer : Scopes), walk.scopes = scope :: outer →
      Walked [] walk (walk.introduceAll params)
        (params.foldl (fun scope param => scope.insert param.lexeme true) scope :: outer)
        fun _ => (params.map Token.lexeme).Nodup ∧
          ∀ param ∈ params, scope.find? param.lexeme = none := by
  induction params with
  | nil =>
      intro walk scope outer same
      have kept : Walked [] walk walk walk.scopes fun _ => True := walked_scopes rfl rfl
      rw [same] at kept
      exact kept.mono fun _ _ => ⟨List.nodup_nil, by simp⟩
  | cons param rest ih =>
      intro walk scope outer same
      have first := walked_introduce walk param
      rw [same] at first
      have others := ih (walk.introduce param) (scope.insert param.lexeme true) outer first.scopes
      refine (first.leading others).mono fun _ ⟨fresh, distinct, unknown⟩ => ?_
      have differs : ∀ other ∈ rest, other.lexeme ≠ param.lexeme := by
        intro other member equal
        have missing := unknown other member
        rw [equal, Bindings.find?_insert_self] at missing
        cases missing
      refine ⟨List.nodup_cons.mpr ⟨fun found => ?_, distinct⟩, ?_⟩
      · obtain ⟨other, member, equal⟩ := List.mem_map.mp found
        exact differs other member equal
      · refine List.forall_mem_cons.mpr ⟨fresh, fun other member => ?_⟩
        have missing := unknown other member
        rwa [Bindings.find?_insert_of_ne (differs other member)] at missing

theorem walked_checkSuperclass (name : Token) (superclass : Option Expr) :
    Walked [] walk (walk.checkSuperclass name superclass) walk.scopes
      fun _ => selfReference? name superclass = none := by
  unfold checkSuperclass
  split
  next token same => exact (walked_report walk _ _).mono fun _ never => never.elim
  next none => exact (walked_scopes rfl rfl).mono fun _ _ => none

theorem walked_openSuper (superclass : Option Expr) :
    Walked [] walk (openSuper superclass walk) (match superclass with
      | none => walk.scopes
      | some _ => [("super", true)] :: walk.scopes) fun _ => True := by
  cases superclass with
  | none => exact walked_scopes rfl rfl
  | some found => exact walked_openScope walk _

/-- A statement that declares nothing leaves the scopes as they are. -/
theorem after_of_plain {found : Stmt} (plain : found.isDeclaration = false) (scopes : Scopes) :
    found.after scopes = scopes := by
  cases found with
  | var _ _ => cases plain
  | function _ => cases plain
  | classDecl _ _ _ => cases plain
  | _ => rfl

/-- The methods of a class, with the scopes around them opened and closed. -/
theorem walked_classBody (superclass : Option Expr) {found : List FunctionDecl}
    (inner : ∀ walk, Walked (FunctionDecl.numbersAll found) walk
      (methods (classKind superclass) found walk) walk.scopes fun placed =>
        FunctionDecl.AllScoped placed (classKind superclass) walk.scopes found) :
    Walked (FunctionDecl.numbersAll found) walk
      (closeSuper superclass (methods (classKind superclass) found
        ((openSuper superclass walk).openScope [("this", true)])).closeScope) walk.scopes
      fun placed => FunctionDecl.AllScoped placed (classKind superclass)
        (Scopes.aroundMethods superclass walk.scopes) found := by
  have above := walked_openSuper walk superclass
  have opened := walked_openScope (openSuper superclass walk) [("this", true)]
  rw [above.scopes] at opened
  have within := inner ((openSuper superclass walk).openScope [("this", true)])
  rw [opened.scopes] at within
  have closed := walked_closeScope (methods (classKind superclass) found
    ((openSuper superclass walk).openScope [("this", true)]))
  rw [within.scopes] at closed
  have whole := ((above.trailing opened).leading within).trailing closed
  cases superclass with
  | none => exact whole.mono fun _ ⟨⟨_, methods⟩, _⟩ => methods
  | some parent =>
      have outside := walked_closeScope (methods (classKind (some parent)) found
        ((openSuper (some parent) walk).openScope [("this", true)])).closeScope
      rw [closed.scopes] at outside
      exact (whole.trailing outside).mono fun _ ⟨⟨⟨_, methods⟩, _⟩, _⟩ => methods

mutual

theorem walked_statement : ∀ (found : Stmt) (around : Surroundings) (walk : Resolution),
    found.WellFormed → found.numbers.Nodup →
      Walked found.numbers walk (statement around found walk) (found.after walk.scopes)
        fun placed => found.Scoped placed around walk.scopes
  | .expression found, around, walk, _, distinct | .print found, around, walk, _, distinct =>
    walked_expression around.enclosing found walk distinct
  | .var name initializer, around, walk, _, distinct => by
      have declared := walked_declare walk name
      have value := walked_expression? (walk.declare name) around.enclosing initializer distinct
      rw [declared.scopes] at value
      have defined := walked_mark (expression? around.enclosing initializer (walk.declare name))
        name.lexeme true
      rw [value.scopes, Scopes.mark_mark] at defined
      exact (declared.leading (value.trailing defined)).mono fun _ ⟨fresh, inner, _⟩ =>
        ⟨fresh, inner⟩
  | .block body, around, walk, wellFormed, distinct => by
      have opened := walked_openScope walk []
      have inner := walked_statements body around (walk.openScope []) wellFormed distinct
      rw [opened.scopes] at inner
      have closed := walked_closeScope (statements around body (walk.openScope []))
      rw [inner.scopes, Stmt.tail_afterAll] at closed
      exact (opened.leading (inner.trailing closed)).mono fun _ ⟨_, body, _⟩ => body
  | .cond condition thenBranch none, around, walk, ⟨_, inside, plain⟩, distinct => by
      obtain ⟨one, two, apart⟩ := List.nodup_append.mp distinct
      have test := walked_expression around.enclosing condition walk one
      have branch := walked_statement thenBranch around
        (expression around.enclosing condition walk) inside two
      rw [test.scopes, after_of_plain plain] at branch
      exact test.append branch apart
  | .cond condition thenBranch (some elseBranch), around, walk,
      ⟨_, ⟨inside, plain⟩, other, bare⟩, distinct => by
      obtain ⟨one, rest, apart⟩ := List.nodup_append.mp distinct
      obtain ⟨two, three, parted⟩ := List.nodup_append.mp rest
      have test := walked_expression around.enclosing condition walk one
      have first := walked_statement thenBranch around
        (expression around.enclosing condition walk) inside two
      rw [test.scopes, after_of_plain plain] at first
      have second := walked_statement elseBranch around
        (statement around thenBranch (expression around.enclosing condition walk)) other three
      rw [first.scopes, after_of_plain bare] at second
      have branches := first.append second parted
      exact test.append branches apart
  | .loop condition body, around, walk, ⟨_, inside, plain⟩, distinct => by
      obtain ⟨one, two, apart⟩ := List.nodup_append.mp distinct
      have test := walked_expression around.enclosing condition walk one
      have round := walked_statement body around
        (expression around.enclosing condition walk) inside two
      rw [test.scopes, after_of_plain plain] at round
      exact test.append round apart
  | .function declaration, around, walk, wellFormed, distinct => by
      have named := walked_introduce walk declaration.name
      have inner := walked_function declaration { around with body := .function }
        (walk.introduce declaration.name) wellFormed distinct
      rw [named.scopes] at inner
      exact named.leading inner
  | .ret keyword value, around, walk, _, distinct => by
      have placed := walked_reportIf walk (around.body == .topLevel) .returnAtTopLevel keyword
      have checked := walked_reportIf
        (walk.reportIf (around.body == .topLevel) .returnAtTopLevel keyword)
        (value.isSome && around.body == .initializer) .returnValueFromInitializer keyword
      rw [placed.scopes] at checked
      have inner := walked_expression? ((walk.reportIf (around.body == .topLevel)
        .returnAtTopLevel keyword).reportIf (value.isSome && around.body == .initializer)
        .returnValueFromInitializer keyword) around.enclosing value distinct
      rw [checked.scopes] at inner
      refine ((placed.trailing checked).leading inner).mono fun _ ⟨⟨inside, _⟩, found⟩ => ?_
      exact ⟨by simpa using inside, found⟩
  | .classDecl name superclass declarations, around, walk, ⟨_, _, wellFormed⟩, distinct => by
      obtain ⟨one, two, apart⟩ := List.nodup_append.mp distinct
      have named := walked_introduce walk name
      have checked := walked_checkSuperclass (walk.introduce name) name superclass
      rw [named.scopes] at checked
      have parent := walked_expression? ((walk.introduce name).checkSuperclass name superclass)
        (classKind superclass) superclass one
      rw [checked.scopes] at parent
      have inner := walked_classBody (expression? (classKind superclass) superclass
        ((walk.introduce name).checkSuperclass name superclass)) superclass
        fun walk => walked_methods (classKind superclass) declarations walk wellFormed two
      rw [parent.scopes] at inner
      have parts := parent.append inner apart
      exact ((named.trailing checked).leading parts).mono
        fun _ ⟨⟨fresh, other⟩, above, methods⟩ => ⟨fresh, other, above, methods⟩

theorem walked_statements : ∀ (found : List Stmt) (around : Surroundings) (walk : Resolution),
    Stmt.AllWellFormed found → (Stmt.numbersAll found).Nodup →
      Walked (Stmt.numbersAll found) walk (statements around found walk)
        (Stmt.afterAll walk.scopes found)
        fun placed => Stmt.AllScoped placed around walk.scopes found
  | [], _, _, _, _ => walked_scopes rfl rfl
  | first :: rest, around, walk, ⟨here, behind⟩, distinct => by
      obtain ⟨one, two, apart⟩ := List.nodup_append.mp distinct
      have early := walked_statement first around walk here one
      have late := walked_statements rest around (statement around first walk) behind two
      rw [early.scopes] at late
      exact early.append late apart

theorem walked_function : ∀ (found : FunctionDecl) (around : Surroundings) (walk : Resolution),
    found.WellFormed → found.numbers.Nodup →
      Walked found.numbers walk (function around found walk) walk.scopes
        fun placed => found.Scoped placed around walk.scopes
  | ⟨id, name, params, body⟩, around, walk, ⟨_, _, wellFormed⟩, distinct => by
      have opened := walked_openScope walk []
      have listed := walked_introduceAll params (walk.openScope []) [] walk.scopes opened.scopes
      have inner := walked_statements body around ((walk.openScope []).introduceAll params)
        wellFormed (List.nodup_append.mp distinct).1
      rw [listed.scopes] at inner
      have closed := walked_closeScope
        (statements around body ((walk.openScope []).introduceAll params))
      rw [inner.scopes, Stmt.tail_afterAll] at closed
      have whole := (opened.trailing listed).leading (inner.trailing closed)
      refine (whole.widen fun _ member => ?_).mono fun _ ⟨⟨_, names, _⟩, body, _⟩ => ⟨names, body⟩
      exact List.mem_append.mpr (.inl member)

theorem walked_methods (enclosing : ClassKind) : ∀ (found : List FunctionDecl)
    (walk : Resolution), FunctionDecl.AllWellFormed found →
      (FunctionDecl.numbersAll found).Nodup →
        Walked (FunctionDecl.numbersAll found) walk (methods enclosing found walk) walk.scopes
          fun placed => FunctionDecl.AllScoped placed enclosing walk.scopes found
  | [], _, _, _ => walked_scopes rfl rfl
  | first :: rest, walk, ⟨here, behind⟩, distinct => by
      obtain ⟨one, two, apart⟩ := List.nodup_append.mp distinct
      have early := walked_function first ⟨methodKind first, enclosing⟩ walk here one
      have late := walked_methods enclosing rest
        (function ⟨methodKind first, enclosing⟩ first walk) behind two
      rw [early.scopes] at late
      exact early.append late apart

end

end Resolution

end LoxLang
