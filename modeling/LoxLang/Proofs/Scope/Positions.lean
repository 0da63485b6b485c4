import LoxLang.Proofs.Run.Fitting
import LoxLang.Tree.Uses
import Mathlib.Data.List.Forall2

/-!
# Lexical scopes by position

Which scopes are around a use of a name, and which names each of them holds, can
be read off the place of the use in the program. The scopes are the blocks around
it and the bodies of functions and methods, each with its parameters. Around the
methods of a class there is a scope with `this`, and outside of it one with
`super` if there is a superclass (`Stmt.Stands`). A scope holds its parameters or
its word, and the names of the declarations directly in it that stand in front of
the use or that the use lies in (`LexicalScope.names`). There is no walk here and
no state that changes along the way.

In a tree that is scoped for some placing, every use is placed at the first of
the scopes around it that holds its name (`Stmt.Stands.placed_nearest`).
-/

namespace LoxLang

set_option autoImplicit false

open Resolution

/-- A lexical scope as it is seen from a use inside of it: its parameters or the
word that it holds by itself, and the statements directly in it up to the one
that the use lies in. -/
structure LexicalScope where
  own : List String
  statements : List Stmt

namespace LexicalScope

/-- The names that a scope holds for a use inside of it. -/
def names (scope : LexicalScope) : List String :=
  scope.own ++ (scope.statements.filterMap Stmt.declared?).map Token.lexeme

/-- A scope holds a name for a use inside of it. -/
def Holds (scope : LexicalScope) (name : String) : Prop := name ∈ scope.names

instance (scope : LexicalScope) (name : String) : Decidable (scope.Holds name) :=
  inferInstanceAs (Decidable (name ∈ scope.names))

/-- The scopes around the methods of a class. -/
def ofClass : Option Expr → List LexicalScope
  | none => [⟨["this"], []⟩]
  | some _ => [⟨["this"], []⟩, ⟨["super"], []⟩]

/-- The first of some scopes that holds a name, and how many are in front. -/
def nearest? (name : String) (scopes : List LexicalScope) : Option Nat :=
  scopes.findIdx? fun scope => decide (scope.Holds name)

/-- The scope at a distance holds a name, and none that is closer does. -/
def FirstAt (name : String) (scopes : List LexicalScope) (distance : Nat) : Prop :=
  (∃ scope, scopes[distance]? = some scope ∧ scope.Holds name) ∧
    ∀ closer ∈ scopes.take distance, ¬ closer.Holds name

theorem nearest?_eq_none_iff {name : String} {scopes : List LexicalScope} :
    nearest? name scopes = none ↔ ∀ scope ∈ scopes, ¬ scope.Holds name := by
  simp [nearest?, List.findIdx?_eq_none_iff]

theorem nearest?_eq_some_iff {name : String} {scopes : List LexicalScope} {distance : Nat} :
    nearest? name scopes = some distance ↔ FirstAt name scopes distance := by
  induction scopes generalizing distance with
  | nil => simp [nearest?, FirstAt]
  | cons scope outer ih =>
      rw [nearest?, List.findIdx?_cons, ← nearest?]
      by_cases here : scope.Holds name
      · cases distance <;> simp [FirstAt, here]
      · cases distance with
        | zero => simp [FirstAt, here]
        | succ further => simpa [FirstAt, here] using ih

end LexicalScope

/-- A use stands in a statement, with the scopes inside of the statement that are
around the use, the innermost first. -/
inductive Stmt.Stands (use : Use) : Stmt → List LexicalScope → Prop where
  | expression {found : Expr} (member : use ∈ found.uses) : Stands use (.expression found) []
  | print {found : Expr} (member : use ∈ found.uses) : Stands use (.print found) []
  | initializer {name : Token} {value : Expr} (member : use ∈ value.uses) :
      Stands use (.var name (some value)) []
  | block {before after : List Stmt} {inner : Stmt} {scopes : List LexicalScope}
      (inside : Stands use inner scopes) :
      Stands use (.block (before ++ inner :: after)) (scopes ++ [⟨[], before ++ [inner]⟩])
  | condition {test : Expr} {thenBranch : Stmt} {elseBranch : Option Stmt}
      (member : use ∈ test.uses) : Stands use (.cond test thenBranch elseBranch) []
  | thenBranch {test : Expr} {thenBranch : Stmt} {elseBranch : Option Stmt}
      {scopes : List LexicalScope} (inside : Stands use thenBranch scopes) :
      Stands use (.cond test thenBranch elseBranch) scopes
  | elseBranch {test : Expr} {thenBranch elseBranch : Stmt} {scopes : List LexicalScope}
      (inside : Stands use elseBranch scopes) :
      Stands use (.cond test thenBranch (some elseBranch)) scopes
  | loopCondition {test : Expr} {body : Stmt} (member : use ∈ test.uses) :
      Stands use (.loop test body) []
  | loopBody {test : Expr} {body : Stmt} {scopes : List LexicalScope}
      (inside : Stands use body scopes) : Stands use (.loop test body) scopes
  | function {id : Nat} {name : Token} {params : List Token} {before after : List Stmt}
      {inner : Stmt} {scopes : List LexicalScope} (inside : Stands use inner scopes) :
      Stands use (.function ⟨id, name, params, before ++ inner :: after⟩)
        (scopes ++ [⟨params.map Token.lexeme, before ++ [inner]⟩])
  | returned {keyword : Token} {value : Expr} (member : use ∈ value.uses) :
      Stands use (.ret keyword (some value)) []
  | superclass {name : Token} {parent : Expr} {methods : List FunctionDecl}
      (member : use ∈ parent.uses) : Stands use (.classDecl name (some parent) methods) []
  | method {name : Token} {superclass : Option Expr} {methods : List FunctionDecl} {id : Nat}
      {word : Token} {params : List Token} {before after : List Stmt} {inner : Stmt}
      {scopes : List LexicalScope} (member : ⟨id, word, params, before ++ inner :: after⟩ ∈ methods)
      (inside : Stands use inner scopes) :
      Stands use (.classDecl name superclass methods)
        (scopes ++ ⟨params.map Token.lexeme, before ++ [inner]⟩ :: LexicalScope.ofClass superclass)

/-- A use stands in a program with these scopes around it. The program as a whole
is no scope: its names are global. -/
def Stmt.StandsIn (use : Use) (program : List Stmt) (scopes : List LexicalScope) : Prop :=
  ∃ before inner after, program = before ++ inner :: after ∧ Stmt.Stands use inner scopes

/-! ## Every use stands somewhere -/

mutual

theorem Stmt.exists_stands {use : Use} : ∀ found : Stmt, use ∈ found.uses →
    ∃ scopes, Stmt.Stands use found scopes
  | .expression _, member => ⟨_, .expression member⟩
  | .print _, member => ⟨_, .print member⟩
  | .var _ none, member => nomatch member
  | .var _ (some _), member => ⟨_, .initializer member⟩
  | .block body, member => by
      obtain ⟨scopes, _, _, _, rfl, inside⟩ := Stmt.exists_standsIn body member
      exact ⟨_, .block inside⟩
  | .cond _ thenBranch none, member => by
      rcases List.mem_append.mp member with test | first
      · exact ⟨_, .condition test⟩
      · obtain ⟨_, inside⟩ := thenBranch.exists_stands first
        exact ⟨_, .thenBranch inside⟩
  | .cond _ thenBranch (some elseBranch), member => by
      rcases List.mem_append.mp member with front | second
      · rcases List.mem_append.mp front with test | first
        · exact ⟨_, .condition test⟩
        · obtain ⟨_, inside⟩ := thenBranch.exists_stands first
          exact ⟨_, .thenBranch inside⟩
      · obtain ⟨_, inside⟩ := elseBranch.exists_stands second
        exact ⟨_, .elseBranch inside⟩
  | .loop _ body, member => by
      rcases List.mem_append.mp member with test | round
      · exact ⟨_, .loopCondition test⟩
      · obtain ⟨_, inside⟩ := body.exists_stands round
        exact ⟨_, .loopBody inside⟩
  | .function ⟨_, _, _, body⟩, member => by
      obtain ⟨_, _, _, _, rfl, inside⟩ := Stmt.exists_standsIn body member
      exact ⟨_, .function inside⟩
  | .ret _ none, member => nomatch member
  | .ret _ (some _), member => ⟨_, .returned member⟩
  | .classDecl _ none methods, member => by
      obtain ⟨_, _, _, _, _, _, _, among, inside⟩ := FunctionDecl.exists_stands methods member
      exact ⟨_, .method among inside⟩
  | .classDecl _ (some _) methods, member => by
      rcases List.mem_append.mp member with parent | inner
      · exact ⟨_, .superclass parent⟩
      · obtain ⟨_, _, _, _, _, _, _, among, inside⟩ := FunctionDecl.exists_stands methods inner
        exact ⟨_, .method among inside⟩

/-- **Every use in a program stands in it.** -/
theorem Stmt.exists_standsIn {use : Use} : ∀ body : List Stmt, use ∈ Stmt.usesAll body →
    ∃ scopes, Stmt.StandsIn use body scopes
  | [], member => nomatch member
  | first :: rest, member => by
      rcases List.mem_append.mp member with here | later
      · obtain ⟨scopes, inside⟩ := first.exists_stands here
        exact ⟨scopes, [], first, rest, rfl, inside⟩
      · obtain ⟨scopes, before, inner, after, rfl, inside⟩ := Stmt.exists_standsIn rest later
        exact ⟨scopes, first :: before, inner, after, rfl, inside⟩

theorem FunctionDecl.exists_stands {use : Use} : ∀ methods : List FunctionDecl,
    use ∈ FunctionDecl.usesAll methods → ∃ id word params before inner after scopes,
      ⟨id, word, params, before ++ inner :: after⟩ ∈ methods ∧ Stmt.Stands use inner scopes
  | [], member => nomatch member
  | ⟨id, word, params, body⟩ :: rest, member => by
      rcases List.mem_append.mp member with here | later
      · obtain ⟨scopes, before, inner, after, rfl, inside⟩ := Stmt.exists_standsIn body here
        exact ⟨id, word, params, before, inner, after, scopes, List.mem_cons_self, inside⟩
      · obtain ⟨id, word, params, before, inner, after, scopes, among, inside⟩ :=
          FunctionDecl.exists_stands rest later
        exact ⟨id, word, params, before, inner, after, scopes, List.mem_cons_of_mem _ among, inside⟩

end

/-! ## Scopes of a walk and scopes by position -/

/-- A scope of a walk knows the names that a lexical scope holds. -/
def LexicalScope.Mirrors (known : LocalScope) (scope : LexicalScope) : Prop :=
  ∀ name, known.contains name = true ↔ scope.Holds name

namespace Scopes

/-- The scopes of a walk are those around a use, one by one. -/
abbrev Mirrored (scopes : Scopes) (around : List LexicalScope) : Prop :=
  List.Forall₂ LexicalScope.Mirrors scopes around

theorem contains_insert_iff {name other : String} {defined : Bool} {scope : LocalScope} :
    Bindings.contains other (scope.insert name defined) = true ↔
      other = name ∨ scope.contains other = true := by
  by_cases same : other = name
  · subst same
    simp [Bindings.contains]
  · rw [contains_insert_of_ne same]
    simp [same]

/-- **Both kinds of scopes give a name the same distance.** -/
theorem distance?_of_mirrored {scopes : Scopes} {around : List LexicalScope}
    (mirrored : scopes.Mirrored around) (name : String) :
    distance? name scopes = LexicalScope.nearest? name around := by
  induction mirrored with
  | nil => rfl
  | @cons known scope scopes around mirrors _ ih =>
      have same : known.contains name = decide (scope.Holds name) := by
        rw [Bool.eq_iff_iff, mirrors name, decide_eq_true_iff]
      rw [distance?_cons, ih, same, LexicalScope.nearest?, LexicalScope.nearest?,
        List.findIdx?_cons]

/-- Behind a statement its scope holds the name that it declares, too. -/
theorem Mirrored.after {scopes : Scopes} {own : List String} {front : List Stmt}
    {around : List LexicalScope} (mirrored : scopes.Mirrored (⟨own, front⟩ :: around))
    (found : Stmt) :
    Mirrored (found.after scopes) (⟨own, front ++ [found]⟩ :: around) := by
  cases mirrored with
  | @cons known _ outer _ mirrors others =>
      unfold Stmt.after
      split
      next token declares =>
        refine .cons (fun name => ?_) others
        rw [contains_insert_iff, mirrors name]
        simp only [LexicalScope.Holds, LexicalScope.names, List.filterMap_append, List.map_append,
          List.filterMap_cons, declares, List.filterMap_nil, List.map_cons, List.map_nil,
          List.mem_append, List.mem_singleton]
        rw [or_comm, or_assoc]
      next none =>
        refine .cons (fun name => ?_) others
        rw [mirrors name]
        simp [LexicalScope.Holds, LexicalScope.names, none]

theorem Mirrored.afterAll {own : List String} {around : List LexicalScope} (body : List Stmt) :
    ∀ {scopes : Scopes} {front : List Stmt}, scopes.Mirrored (⟨own, front⟩ :: around) →
      Mirrored (Stmt.afterAll scopes body) (⟨own, front ++ body⟩ :: around) := by
  induction body with
  | nil =>
      intro scopes front mirrored
      rwa [List.append_nil]
  | cons first rest ih =>
      intro scopes front mirrored
      have behind := ih (mirrored.after first)
      rwa [List.append_assoc] at behind

/-- From inside of a statement, its scope is the one behind it. -/
theorem Mirrored.inside {scopes : Scopes} {own : List String} {around : List LexicalScope}
    (mirrored : scopes.Mirrored (⟨own, []⟩ :: around)) (before : List Stmt) (inner : Stmt) :
    Mirrored (inner.after (Stmt.afterAll scopes before))
      (⟨own, before ++ [inner]⟩ :: around) :=
  (mirrored.afterAll before).after inner

theorem Mirrored.block {scopes : Scopes} {around : List LexicalScope}
    (mirrored : scopes.Mirrored around) : Mirrored ([] :: scopes) (⟨[], []⟩ :: around) :=
  .cons (fun name => by simp [Bindings.contains, LexicalScope.Holds, LexicalScope.names]) mirrored

theorem Mirrored.function {scopes : Scopes} {around : List LexicalScope}
    (mirrored : scopes.Mirrored around) (params : List Token) :
    Mirrored (ofParams params :: scopes) (⟨params.map Token.lexeme, []⟩ :: around) := by
  refine .cons (fun name => ?_) mirrored
  rw [Bindings.contains, find?_ofParams]
  simp [LexicalScope.Holds, LexicalScope.names]

theorem Mirrored.word {scopes : Scopes} {around : List LexicalScope}
    (mirrored : scopes.Mirrored around) (word : String) :
    Mirrored ([(word, true)] :: scopes) (⟨[word], []⟩ :: around) := by
  refine .cons (fun name => ?_) mirrored
  rw [← Bindings.insert.eq_1 word true, contains_insert_iff]
  simp [Bindings.contains, LexicalScope.Holds, LexicalScope.names]

theorem Mirrored.aroundMethods {scopes : Scopes} {around : List LexicalScope}
    (mirrored : scopes.Mirrored around) (superclass : Option Expr) :
    Mirrored (scopes.aroundMethods superclass) (LexicalScope.ofClass superclass ++ around) := by
  cases superclass with
  | none => exact mirrored.word "this"
  | some _ => exact (mirrored.word "super").word "this"

end Scopes

/-! ## Uses in scoped trees -/

section Placed

variable {placed : Placing}

mutual

/-- All uses in an expression are placed from the same scopes. -/
theorem Expr.placed_of_mem {enclosing : ClassKind} {scopes : Scopes} {use : Use} :
    ∀ found : Expr, found.Scoped placed enclosing scopes → use ∈ found.uses →
      placed use.occurrence.id (distance? use.occurrence.name scopes)
  | .literal _, _, member => nomatch member
  | .grouping inner, inside, member
  | .unary _ inner, inside, member
  | .get inner _, inside, member => inner.placed_of_mem inside member
  | .binary left _ right, ⟨one, two⟩, member
  | .logical left _ right, ⟨one, two⟩, member
  | .set left _ right, ⟨one, two⟩, member =>
    (List.mem_append.mp member).elim (left.placed_of_mem one) (right.placed_of_mem two)
  | .var _, ⟨_, here⟩, member
  | .thisRef _, ⟨_, here⟩, member
  | .superRef _ _, ⟨_, here⟩, member => by
      rw [List.mem_singleton.mp member]
      exact here
  | .assign _ value, ⟨inside, here⟩, member => by
      rcases List.mem_cons.mp member with rfl | later
      · exact here
      · exact value.placed_of_mem inside later
  | .call callee _ arguments, ⟨one, many⟩, member =>
    (List.mem_append.mp member).elim (callee.placed_of_mem one)
      (Expr.placed_of_mem_usesAll arguments many)

theorem Expr.placed_of_mem_usesAll {enclosing : ClassKind} {scopes : Scopes} {use : Use} :
    ∀ found : List Expr, Expr.AllScoped placed enclosing scopes found → use ∈ Expr.usesAll found →
      placed use.occurrence.id (distance? use.occurrence.name scopes)
  | [], _, member => nomatch member
  | first :: rest, ⟨one, many⟩, member =>
    (List.mem_append.mp member).elim (first.placed_of_mem one)
      (Expr.placed_of_mem_usesAll rest many)

end

/-- A statement of a list is scoped behind those in front of it. -/
theorem Stmt.scoped_of_append {around : Surroundings} {inner : Stmt} {after : List Stmt} :
    ∀ (before : List Stmt) (scopes : Scopes),
      Stmt.AllScoped placed around scopes (before ++ inner :: after) →
        inner.Scoped placed around (Stmt.afterAll scopes before)
  | [], _, ⟨here, _⟩ => here
  | first :: rest, scopes, ⟨_, behind⟩ => Stmt.scoped_of_append rest (first.after scopes) behind

theorem Stmt.wellFormed_of_append {inner : Stmt} {after : List Stmt} : ∀ before : List Stmt,
    Stmt.AllWellFormed (before ++ inner :: after) → inner.WellFormed
  | [], ⟨here, _⟩ => here
  | _ :: rest, ⟨_, behind⟩ => Stmt.wellFormed_of_append rest behind

/-- **A use is placed at the first scope around it that holds its name.** The
scopes are those inside of the statement and those that it stands in itself, of
which the innermost holds the name that the statement declares. -/
theorem Stmt.Stands.placed_nearest {use : Use} {found : Stmt} {inner : List LexicalScope}
    (stands : Stmt.Stands use found inner) :
    ∀ {around : Surroundings} {scopes : Scopes} {outer : List LexicalScope}, found.WellFormed →
      found.Scoped placed around scopes → (found.after scopes).Mirrored outer →
        placed use.occurrence.id
          (LexicalScope.nearest? use.occurrence.name (inner ++ outer)) := by
  -- An expression has no scopes of its own.
  have here {enclosing : ClassKind} {scopes : Scopes} {outer : List LexicalScope} {value : Expr}
      (member : use ∈ value.uses) (holds : value.Scoped placed enclosing scopes)
      (mirrored : scopes.Mirrored outer) : placed use.occurrence.id
        (LexicalScope.nearest? use.occurrence.name outer) := by
    rw [← Scopes.distance?_of_mirrored mirrored]
    exact value.placed_of_mem holds member
  induction stands with
  | expression member | print member => exact fun _ holds mirrored => here member holds mirrored
  | @initializer name value member =>
      intro around scopes outer _ holds mirrored
      have known := value.placed_of_mem holds.2 member
      rw [Scopes.distance?_mark name.lexeme _ false true] at known
      rw [List.nil_append, ← Scopes.distance?_of_mirrored mirrored]
      exact known
  | @block before after inner scopes _ ih =>
      intro around _ outer wellFormed holds mirrored
      rw [List.append_assoc]
      exact ih (Stmt.wellFormed_of_append before wellFormed)
        (Stmt.scoped_of_append before _ holds) (mirrored.block.inside before inner)
  | @condition _ _ elseBranch member =>
      intro around scopes outer _ holds mirrored
      cases elseBranch <;> exact here member holds.1 mirrored
  | @thenBranch _ _ elseBranch _ _ ih =>
      intro around scopes outer wellFormed holds mirrored
      cases elseBranch with
      | none =>
          refine ih wellFormed.2.1 holds.2 ?_
          rwa [after_of_plain wellFormed.2.2]
      | some other =>
          refine ih wellFormed.2.1.1 holds.2.1 ?_
          rwa [after_of_plain wellFormed.2.1.2]
  | elseBranch _ ih =>
      intro around scopes outer wellFormed holds mirrored
      refine ih wellFormed.2.2.1 holds.2.2 ?_
      rwa [after_of_plain wellFormed.2.2.2]
  | loopCondition member => exact fun _ holds mirrored => here member holds.1 mirrored
  | loopBody _ ih =>
      intro around scopes outer wellFormed holds mirrored
      refine ih wellFormed.2.1 holds.2 ?_
      rwa [after_of_plain wellFormed.2.2]
  | @function _ _ params before after inner _ _ ih =>
      intro around scopes outer wellFormed holds mirrored
      rw [List.append_assoc]
      exact ih (Stmt.wellFormed_of_append before wellFormed.2.2)
        (Stmt.scoped_of_append before _ holds.2.2)
        ((mirrored.function params).inside before inner)
  | returned member => exact fun _ holds mirrored => here member holds.2 mirrored
  | superclass member => exact fun _ holds mirrored => here member holds.2.2.1 mirrored
  | @method name superclass methods id word params before after inner _ member _ ih =>
      intro around scopes outer wellFormed holds mirrored
      have method := FunctionDecl.scoped_of_mem holds.2.2.2 member
      rw [List.append_assoc]
      exact ih (Stmt.wellFormed_of_append before
          (FunctionDecl.wellFormed_of_mem wellFormed.2.2 member).2.2)
        (Stmt.scoped_of_append before _ method.2)
        (((mirrored.aroundMethods superclass).function params).inside before inner)

end Placed

end LoxLang
