import LoxLang.Proofs.Run.Fitting
import LoxLang.Proofs.Tree.Parts

/-!
# Where `this` and `super` are placed

Between a use of `this` or `super` and the method around it there are only the
scopes of blocks and of functions, and none of these knows either word. So the
distance of such a use is told by its depth in the body of the method: the
scope with `this` is one further out than the scope of the body, and the scope
with `super` is one further out than that (`FunctionDecl.wordsPlaced`). Outside
of classes there are no such uses (`Stmt.noWords`).
-/

namespace LoxLang

set_option autoImplicit false

open Resolution

/-- A use of `this` or `super`. -/
def Use.IsWord (use : Use) : Prop := use.kind = .thisWord ∨ use.kind = .superWord

/-- A use of `this` or `super` stands in a class, and its number is placed as
far out as the word is from the scopes given, and by its own depth further. -/
structure PlacedUse.Sits (placed : Placing) (enclosing : ClassKind) (scopes : Scopes)
    (found : PlacedUse) : Prop where
  this : found.use.kind = .thisWord → enclosing ≠ .outside ∧
    placed found.use.occurrence.id ((distance? "this" scopes).map (· + found.depth))
  super : found.use.kind = .superWord → enclosing = .derived ∧
    placed found.use.occurrence.id ((distance? "super" scopes).map (· + found.depth))

namespace PlacedUse.Sits

variable {placed : Placing} {enclosing : ClassKind} {scopes inner : Scopes} {found : PlacedUse}

/-- Uses of variables are of no concern. -/
theorem of_plain {depth : Nat} {use : Use} (plain : ¬ use.IsWord) :
    Sits placed enclosing scopes ⟨depth, use⟩ :=
  ⟨fun this => absurd (.inl this) plain, fun super => absurd (.inr super) plain⟩

/-- Only the distances of the two words count. -/
theorem congr (this : distance? "this" inner = distance? "this" scopes)
    (super : distance? "super" inner = distance? "super" scopes)
    (sits : Sits placed enclosing inner found) : Sits placed enclosing scopes found :=
  ⟨fun word => this ▸ sits.this word, fun word => super ▸ sits.super word⟩

theorem of_mark {name : Token} (named : name.IsName) {defined : Bool}
    (sits : Sits placed enclosing (scopes.mark name.lexeme defined) found) :
    Sits placed enclosing scopes found :=
  sits.congr (Scopes.distance?_mark_of_ne named.ne_this.symm defined scopes)
    (Scopes.distance?_mark_of_ne named.ne_super.symm defined scopes)

/-- Seen from outside of a block or function, a use is one deeper. -/
theorem deeper {scope : LocalScope} (noThis : scope.contains "this" = false)
    (noSuper : scope.contains "super" = false)
    (sits : Sits placed enclosing (scope :: scopes) found) :
    Sits placed enclosing scopes found.deeper := by
  have further : ∀ known : Option Nat, (known.map (· + 1)).map (· + found.depth) =
      known.map (· + (found.depth + 1)) := by
    intro known
    cases known with
    | none => rfl
    | some distance =>
        refine congrArg some ?_
        show distance + 1 + found.depth = distance + (found.depth + 1)
        omega
  refine ⟨fun word => ?_, fun word => ?_⟩
  · have placedThere := sits.this word
    rw [Scopes.distance?_cons, noThis] at placedThere
    exact ⟨placedThere.1, further _ ▸ placedThere.2⟩
  · have placedThere := sits.super word
    rw [Scopes.distance?_cons, noSuper] at placedThere
    exact ⟨placedThere.1, further _ ▸ placedThere.2⟩

end PlacedUse.Sits

/-! ## Expressions -/

section Trees

variable {placed : Placing}

/-- All uses of a list sit in given scopes. -/
def PlacedUse.AllSit (placed : Placing) (enclosing : ClassKind) (scopes : Scopes)
    (found : List PlacedUse) : Prop :=
  ∀ use ∈ found, use.Sits placed enclosing scopes

namespace PlacedUse.AllSit

variable {enclosing : ClassKind} {scopes : Scopes} {front back : List PlacedUse}

theorem nil : AllSit placed enclosing scopes [] := by simp [AllSit]

theorem append (first : AllSit placed enclosing scopes front)
    (second : AllSit placed enclosing scopes back) :
    AllSit placed enclosing scopes (front ++ back) :=
  fun use member => (List.mem_append.mp member).elim (first use) (second use)

theorem deeper {scope : LocalScope} (noThis : scope.contains "this" = false)
    (noSuper : scope.contains "super" = false)
    (sit : AllSit placed enclosing (scope :: scopes) front) :
    AllSit placed enclosing scopes (front.map PlacedUse.deeper) := by
  intro use member
  obtain ⟨inner, among, rfl⟩ := List.mem_map.mp member
  exact (sit inner among).deeper noThis noSuper

theorem of_mark {name : Token} (named : name.IsName) {defined : Bool}
    (sit : AllSit placed enclosing (scopes.mark name.lexeme defined) front) :
    AllSit placed enclosing scopes front :=
  fun use member => (sit use member).of_mark named

end PlacedUse.AllSit

open PlacedUse

theorem Use.allAt_append (depth : Nat) (front back : List Use) :
    Use.allAt depth (front ++ back) = Use.allAt depth front ++ Use.allAt depth back :=
  List.map_append

theorem PlacedUse.allSit_single {enclosing : ClassKind} {scopes : Scopes} {use : Use}
    (sits : Sits placed enclosing scopes ⟨0, use⟩) :
    AllSit placed enclosing scopes (Use.allAt 0 [use]) := by
  intro found member
  rw [List.mem_singleton.mp member]
  exact sits

mutual

theorem Expr.allSit {enclosing : ClassKind} {scopes : Scopes} : ∀ found : Expr,
    found.WellFormed → found.Scoped placed enclosing scopes →
      AllSit placed enclosing scopes (Use.allAt 0 found.uses)
  | .literal _, _, _ => .nil
  | .grouping inner, wellFormed, inside | .get inner _, wellFormed, inside =>
    inner.allSit wellFormed inside
  | .unary _ operand, ⟨_, wellFormed⟩, inside => operand.allSit wellFormed inside
  | .binary left _ right, ⟨_, one, two⟩, ⟨first, second⟩ => by
      rw [Expr.uses, Use.allAt_append]
      exact (left.allSit one first).append (right.allSit two second)
  | .logical left _ right, ⟨one, two⟩, ⟨first, second⟩
  | .set left _ right, ⟨one, two⟩, ⟨first, second⟩ => by
      rw [Expr.uses, Use.allAt_append]
      exact (left.allSit one first).append (right.allSit two second)
  | .var _, _, _ => allSit_single (.of_plain (by simp [Use.IsWord]))
  | .assign occurrence value, ⟨_, wellFormed⟩, ⟨inside, _⟩ => by
      have target : AllSit placed enclosing scopes (Use.allAt 0 [⟨.write, occurrence⟩]) :=
        allSit_single (.of_plain (by simp [Use.IsWord]))
      exact target.append (value.allSit wellFormed inside)
  | .call callee _ arguments, ⟨one, many⟩, ⟨first, others⟩ => by
      rw [Expr.uses, Use.allAt_append]
      exact (callee.allSit one first).append (Expr.allSit_usesAll arguments many others)
  | .thisRef occurrence, wellFormed, ⟨inClass, here⟩ => by
      refine allSit_single ⟨fun _ => ⟨inClass, ?_⟩, nofun⟩
      rw [show occurrence.name = "this" from wellFormed] at here
      simpa using here
  | .superRef occurrence _, wellFormed, ⟨derived, here⟩ => by
      refine allSit_single ⟨nofun, fun _ => ⟨derived, ?_⟩⟩
      rw [show occurrence.name = "super" from wellFormed] at here
      simpa using here

theorem Expr.allSit_usesAll {enclosing : ClassKind} {scopes : Scopes} : ∀ found : List Expr,
    Expr.AllWellFormed found → Expr.AllScoped placed enclosing scopes found →
      AllSit placed enclosing scopes (Use.allAt 0 (Expr.usesAll found))
  | [], _, _ => .nil
  | first :: rest, ⟨one, many⟩, ⟨here, others⟩ => by
      rw [Expr.usesAll, Use.allAt_append]
      exact (first.allSit one here).append (Expr.allSit_usesAll rest many others)

end

theorem Expr.allSit_usesOption {enclosing : ClassKind} {scopes : Scopes} {found : Option Expr}
    (wellFormed : Expr.OptionWellFormed found)
    (inside : Expr.OptionScoped placed enclosing scopes found) :
    AllSit placed enclosing scopes (Use.allAt 0 (Expr.usesOption found)) := by
  cases found with
  | none => exact .nil
  | some value => exact value.allSit wellFormed inside

/-- The name of a superclass is a variable. -/
theorem Expr.allSit_superclass {enclosing : ClassKind} {scopes : Scopes}
    {superclass : Option Expr} (name : Expr.IsSuperclass superclass) :
    AllSit placed enclosing scopes (Use.allAt 0 (Expr.usesOption superclass)) := by
  cases superclass with
  | none => exact .nil
  | some found =>
      cases found with
      | var occurrence => exact allSit_single (.of_plain (by simp [Use.IsWord]))
      | _ => cases name

/-! ## Statements -/

/-- A declared name is neither of the words, so the scopes behind a statement
place them alike. -/
theorem PlacedUse.AllSit.of_after {enclosing : ClassKind} {scopes : Scopes}
    {uses : List PlacedUse} {found : Stmt} (wellFormed : found.WellFormed)
    (sit : AllSit placed enclosing (found.after scopes) uses) :
    AllSit placed enclosing scopes uses := by
  cases found with
  | var name initializer => exact sit.of_mark wellFormed.1
  | function declaration =>
      obtain ⟨id, name, params, body⟩ := declaration
      exact sit.of_mark wellFormed.1
  | classDecl name superclass methods => exact sit.of_mark wellFormed.1
  | _ => exact sit

mutual

/-- The uses of `this` and `super` in a statement sit in the scopes around
it. -/
theorem Stmt.allSit : ∀ (found : Stmt) (around : Surroundings) (scopes : Scopes),
    found.WellFormed → found.Scoped placed around scopes →
      AllSit placed around.enclosing scopes (found.ownUses 0)
  | .expression found, _, _, wellFormed, inside
  | .print found, _, _, wellFormed, inside => found.allSit wellFormed inside
  | .var _ _, _, _, ⟨named, wellFormed⟩, ⟨_, inside⟩ =>
    (Expr.allSit_usesOption wellFormed inside).of_mark named
  | .block body, around, scopes, wellFormed, inside => by
      rw [Stmt.ownUses, Stmt.ownUsesAll_succ]
      exact (Stmt.allSit_ownUsesAll body around _ wellFormed inside).deeper rfl rfl
  | .cond condition body none, around, scopes, ⟨one, two, _⟩, ⟨first, second⟩
  | .loop condition body, around, scopes, ⟨one, two, _⟩, ⟨first, second⟩ =>
    (condition.allSit one first).append (body.allSit around scopes two second)
  | .cond condition thenBranch (some elseBranch), around, scopes, ⟨one, ⟨two, _⟩, three, _⟩,
      ⟨first, second, third⟩ =>
    (condition.allSit one first).append ((thenBranch.allSit around scopes two second).append
      (elseBranch.allSit around scopes three third))
  | .function declaration, around, scopes, wellFormed, ⟨_, inside⟩ => by
      have sit := declaration.allSit { around with body := .function } _ wellFormed inside
      obtain ⟨id, name, params, body⟩ := declaration
      exact sit.of_mark wellFormed.1
  | .ret _ _, _, _, wellFormed, ⟨_, inside⟩ => Expr.allSit_usesOption wellFormed inside
  | .classDecl _ _ _, _, _, ⟨_, name, _⟩, _ => Expr.allSit_superclass name

theorem Stmt.allSit_ownUsesAll : ∀ (found : List Stmt) (around : Surroundings) (scopes : Scopes),
    Stmt.AllWellFormed found → Stmt.AllScoped placed around scopes found →
      AllSit placed around.enclosing scopes (Stmt.ownUsesAll 0 found)
  | [], _, _, _, _ => .nil
  | first :: rest, around, scopes, ⟨one, many⟩, ⟨here, others⟩ =>
    (first.allSit around scopes one here).append
      ((Stmt.allSit_ownUsesAll rest around _ many others).of_after one)

theorem FunctionDecl.allSit : ∀ (found : FunctionDecl) (around : Surroundings) (scopes : Scopes),
    found.WellFormed → found.Scoped placed around scopes →
      AllSit placed around.enclosing scopes (found.ownUses 0)
  | ⟨_, _, _, body⟩, around, _, ⟨_, named, wellFormed⟩, ⟨_, inside⟩ => by
      rw [FunctionDecl.ownUses_eq_map]
      exact (Stmt.allSit_ownUsesAll body around _ wellFormed inside).deeper
        (Scopes.contains_ofParams fun param member => (named param member).ne_this)
        (Scopes.contains_ofParams fun param member => (named param member).ne_super)

end

/-- Outside of classes there is neither `this` nor `super`. -/
theorem Stmt.noWords {found : Stmt} {body : BodyKind} {scopes : Scopes}
    (wellFormed : found.WellFormed) (inside : found.Scoped placed ⟨body, .outside⟩ scopes) :
    ∀ use ∈ found.ownUses 0, ¬ use.use.IsWord := by
  intro use member word
  have sits := found.allSit _ scopes wellFormed inside use member
  rcases word with this | super
  · exact (sits.this this).1 rfl
  · cases (sits.super super).1

/-! ## Methods -/

/-- The uses of `this` and `super` in the body of a method are placed at the
scopes around it, and `super` is used in classes with a superclass only. -/
structure FunctionDecl.WordsPlaced (placed : Placing) (superclass : Option Expr)
    (method : FunctionDecl) : Prop where
  this : ∀ depth occurrence, ⟨depth, ⟨.thisWord, occurrence⟩⟩ ∈ Stmt.ownUsesAll 0 method.body →
    placed occurrence.id (some (depth + 1))
  super : ∀ depth occurrence, ⟨depth, ⟨.superWord, occurrence⟩⟩ ∈ Stmt.ownUsesAll 0 method.body →
    superclass.isSome ∧ placed occurrence.id (some (depth + 2))

theorem FunctionDecl.WordsPlaced.mono {finer : Placing} {superclass : Option Expr}
    {method : FunctionDecl} (words : method.WordsPlaced placed superclass)
    (le : placed.Le finer) : method.WordsPlaced finer superclass :=
  ⟨fun depth occurrence member => le _ _ (words.this depth occurrence member),
    fun depth occurrence member => ⟨(words.super depth occurrence member).1,
      le _ _ (words.super depth occurrence member).2⟩⟩

theorem FunctionDecl.wordsPlaced_of_scoped {method : FunctionDecl} {body : BodyKind}
    {superclass : Option Expr} {scopes : Scopes} (wellFormed : method.WellFormed)
    (inside : method.Scoped placed ⟨body, classKind superclass⟩
      (scopes.aroundMethods superclass)) : method.WordsPlaced placed superclass := by
  -- seen from the scopes of the class, a use is one deeper than in the body
  have sits : ∀ depth use, ⟨depth, use⟩ ∈ Stmt.ownUsesAll 0 method.body →
      Sits placed (classKind superclass) (scopes.aroundMethods superclass) ⟨depth + 1, use⟩ := by
    intro depth use member
    refine method.allSit _ _ wellFormed inside ⟨depth + 1, use⟩ ?_
    rw [FunctionDecl.ownUses_eq_map]
    exact List.mem_map_of_mem member
  have this : distance? "this" (scopes.aroundMethods superclass) = some 0 := by
    unfold Scopes.aroundMethods
    rw [Scopes.distance?_cons]
    rfl
  refine ⟨fun depth occurrence member => ?_, fun depth occurrence member => ?_⟩
  · have there := ((sits depth _ member).this rfl).2
    rw [this] at there
    simpa [Nat.add_comm] using there
  · obtain ⟨derived, there⟩ := (sits depth _ member).super rfl
    cases superclass with
    | none => cases derived
    | some parent =>
        have super : distance? "super" (scopes.aroundMethods (some parent)) = some 1 := by
          rw [Scopes.aroundMethods, Scopes.distance?_cons, Scopes.distance?_cons]
          rfl
        rw [super] at there
        refine ⟨rfl, ?_⟩
        simpa [Nat.add_comm, Nat.add_left_comm] using there

/-- **In the methods of a class, depth tells the distance** of `this` and
`super`. -/
theorem FunctionDecl.wordsPlaced {superclass : Option Expr} {scopes : Scopes}
    {methods : List FunctionDecl} (wellFormed : FunctionDecl.AllWellFormed methods)
    (inside : FunctionDecl.AllScoped placed (classKind superclass)
      (scopes.aroundMethods superclass) methods) :
    ∀ method ∈ methods, method.WordsPlaced placed superclass := by
  induction methods with
  | nil => simp
  | cons first rest ih =>
      exact List.forall_mem_cons.mpr
        ⟨wordsPlaced_of_scoped wellFormed.1 inside.1, ih wellFormed.2 inside.2⟩

end Trees

end LoxLang
