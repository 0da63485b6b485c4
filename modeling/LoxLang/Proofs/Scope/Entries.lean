import LoxLang.Proofs.Grammar.Numbering
import LoxLang.Proofs.Scope.Placement

/-!
# The entries of the distance table

Resolution meets every occurrence of a name once along its walk, and there it
either records one distance or none. So what a walk adds to the table are entries
for uses in the tree it walks, and for each use there is one at most
(`Resolution.Records`). This needs nothing of the tree, and holds whether or not
there are faults. If the uses have different numbers, then no entry is ever
replaced by a later one.
-/

namespace LoxLang

set_option autoImplicit false

namespace Resolution

/-- What a part of the walk adds are entries for some of these uses, one for each
at most. -/
def Records (before after : Resolution) (uses : List Use) : Prop :=
  ∃ added : List (Nat × Nat), after.distances = added ++ before.distances ∧
    (added.map Prod.fst).Subperm (Use.ids uses)

namespace Records

variable {before middle after : Resolution} {uses front back : List Use}

/-- Where nothing is recorded, no use is needed. -/
theorem of_eq (same : after.distances = before.distances) : Records before after uses :=
  ⟨[], same, List.nil_subperm⟩

theorem append (first : Records before middle front) (second : Records middle after back) :
    Records before after (front ++ back) := by
  obtain ⟨early, middleEntries, some⟩ := first
  obtain ⟨late, afterEntries, others⟩ := second
  refine ⟨late ++ early, by rw [afterEntries, middleEntries, List.append_assoc], ?_⟩
  -- the latest entries come first
  rw [List.map_append, Use.ids_append]
  exact List.perm_append_comm.subperm.trans (some.append others)

theorem of_perm (records : Records before after front) (same : front.Perm back) :
    Records before after back := by
  obtain ⟨added, entries, among⟩ := records
  exact ⟨added, entries, among.trans (same.map _).subperm⟩

/-- A part of the walk without occurrences records nothing. -/
theorem of_walked {behind : Scopes} {holds : Placing → Prop}
    (walked : Walked [] before after behind holds) : Records before after [] := by
  obtain ⟨added, same, among, -⟩ := walked.entries
  have none : added = [] := List.eq_nil_iff_forall_not_mem.mpr fun entry member => by
    cases among entry member
  exact .of_eq (by rw [same, none, List.nil_append])

/-- A part without occurrences in front of another. -/
theorem leading {behind : Scopes} {holds : Placing → Prop}
    (first : Walked [] before middle behind holds) (second : Records middle after uses) :
    Records before after uses :=
  (of_walked first).append second

/-- A part without occurrences behind another. -/
theorem trailing {behind : Scopes} {holds : Placing → Prop} (first : Records before middle uses)
    (second : Walked [] middle after behind holds) : Records before after uses := by
  have both := first.append (of_walked second)
  rwa [List.append_nil] at both

end Records

theorem records_bind (kind : UseKind) (occurrence : Occurrence) (walk : Resolution) :
    Records walk (walk.bind occurrence) [⟨kind, occurrence⟩] := by
  unfold bind
  split
  next distance _ => exact ⟨[(occurrence.id, distance)], rfl, .refl _⟩
  next => exact .of_eq rfl

mutual

theorem records_expression (enclosing : ClassKind) : ∀ (found : Expr) (walk : Resolution),
    Records walk (expression enclosing found walk) found.uses
  | .literal _, _ => .of_eq rfl
  | .grouping inner, walk | .unary _ inner, walk | .get inner _, walk =>
    records_expression enclosing inner walk
  | .binary left _ right, walk | .logical left _ right, walk =>
    (records_expression enclosing left walk).append (records_expression enclosing right _)
  | .var occurrence, walk =>
    .leading (walked_reportIf walk _ _ _) (records_bind .read occurrence _)
  | .assign occurrence value, walk => by
      have both := (records_expression enclosing value walk).append
        (records_bind .write occurrence _)
      exact both.of_perm (List.perm_append_singleton _ _)
  | .call callee _ arguments, walk =>
    (records_expression enclosing callee walk).append (records_expressions enclosing arguments _)
  | .set object _ value, walk => by
      have both := (records_expression enclosing value walk).append
        (records_expression enclosing object _)
      exact both.of_perm List.perm_append_comm
  | .thisRef occurrence, walk => by
      cases enclosing with
      | outside => exact .of_eq rfl
      | base | derived => exact records_bind .thisWord occurrence walk
  | .superRef occurrence _, walk =>
    .leading (walked_checkSuper walk enclosing _) (records_bind .superWord occurrence _)

theorem records_expressions (enclosing : ClassKind) : ∀ (found : List Expr) (walk : Resolution),
    Records walk (expressions enclosing found walk) (Expr.usesAll found)
  | [], _ => .of_eq rfl
  | first :: rest, walk =>
    (records_expression enclosing first walk).append (records_expressions enclosing rest _)

end

theorem records_expression? (enclosing : ClassKind) (found : Option Expr) (walk : Resolution) :
    Records walk (expression? enclosing found walk) (Expr.usesOption found) := by
  cases found with
  | none => exact .of_eq rfl
  | some found => exact records_expression enclosing found walk

theorem walked_closeSuper (superclass : Option Expr) (walk : Resolution) :
    Walked [] walk (closeSuper superclass walk) (closeSuper superclass walk).scopes
      fun _ => True := by
  cases superclass <;> exact walked_scopes rfl rfl

mutual

theorem records_statement : ∀ (found : Stmt) (around : Surroundings) (walk : Resolution),
    Records walk (statement around found walk) found.uses
  | .expression found, around, walk | .print found, around, walk =>
    records_expression around.enclosing found walk
  | .var name initializer, around, walk =>
    .leading (walked_declare walk name)
      ((records_expression? around.enclosing initializer _).trailing (walked_mark _ _ _))
  | .block body, around, walk =>
    .leading (walked_openScope walk [])
      ((records_statements body around _).trailing (walked_closeScope _))
  | .cond condition body none, around, walk | .loop condition body, around, walk =>
    (records_expression around.enclosing condition walk).append (records_statement body around _)
  | .cond condition thenBranch (some elseBranch), around, walk =>
    ((records_expression around.enclosing condition walk).append
      (records_statement thenBranch around _)).append (records_statement elseBranch around _)
  | .function declaration, around, walk =>
    .leading (walked_introduce walk declaration.name) (records_function declaration _ _)
  | .ret _ value, around, walk =>
    .leading (walked_reportIf walk _ _ _)
      (.leading (walked_reportIf _ _ _ _) (records_expression? around.enclosing value _))
  | .classDecl name superclass declarations, around, walk => by
      have named := Records.leading (walked_introduce walk name)
        (Records.of_walked (walked_checkSuperclass _ name superclass))
      have parent := named.append (records_expression? (classKind superclass) superclass _)
      have opened := (parent.trailing (walked_openSuper _ superclass)).trailing
        (walked_openScope _ [("this", true)])
      have inner := opened.append (records_methods (classKind superclass) declarations _)
      exact (inner.trailing (walked_closeScope _)).trailing (walked_closeSuper superclass _)

theorem records_statements : ∀ (found : List Stmt) (around : Surroundings) (walk : Resolution),
    Records walk (statements around found walk) (Stmt.usesAll found)
  | [], _, _ => .of_eq rfl
  | first :: rest, around, walk =>
    (records_statement first around walk).append (records_statements rest around _)

theorem records_function : ∀ (found : FunctionDecl) (around : Surroundings) (walk : Resolution),
    Records walk (function around found walk) found.uses
  | ⟨_, _, params, body⟩, around, walk =>
    .leading (walked_openScope walk [])
      (.leading (walked_introduceAll params _ [] walk.scopes rfl)
        ((records_statements body around _).trailing (walked_closeScope _)))

theorem records_methods (enclosing : ClassKind) : ∀ (found : List FunctionDecl)
    (walk : Resolution), Records walk (methods enclosing found walk) (FunctionDecl.usesAll found)
  | [], _ => .of_eq rfl
  | first :: rest, walk =>
    (records_function first _ walk).append (records_methods enclosing rest _)

end

/-- The entries of a program are for uses in it, one for each at most. -/
theorem entries_program (found : List Stmt) :
    ((program found).distances.map Prod.fst).Subperm (Use.ids (Stmt.usesAll found)) := by
  obtain ⟨added, entries, among⟩ := records_statements found ⟨.topLevel, .outside⟩ start
  have all : (program found).distances = added := entries.trans (List.append_nil _)
  rwa [all]

/-- Only uses have entries. -/
theorem exists_use_of_mem_program {found : List Stmt} {entry : Nat × Nat}
    (member : entry ∈ (program found).distances) :
    ∃ use ∈ Stmt.usesAll found, use.occurrence.id = entry.1 :=
  List.mem_map.mp ((entries_program found).subset (List.mem_map_of_mem member))

end Resolution

theorem resolve_eq_ok_iff {program : List Stmt} {distances : List (Nat × Nat)} :
    resolve program = .ok distances ↔
      (Resolution.program program).errors = [] ∧
        (Resolution.program program).distances = distances := by
  unfold resolve
  dsimp only
  split
  next none => exact ⟨fun same => ⟨none, Except.ok.inj same⟩, fun found => congrArg _ found.2⟩
  next faulty =>
    refine ⟨fun same => ?_, fun found => absurd found.1 faulty⟩
    cases same

end LoxLang
