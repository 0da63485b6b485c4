import LoxLang.Proofs.Lexical.Interpreter

/-!
# More fuel for the second interpreter

A run that has not stopped for lack of fuel is finished (`Finished`), and more
fuel makes no difference to it. Said of two steps: the second does the same as
the first wherever the first one finishes (`Below`). Every rule of the second
interpreter is below itself with more fuel (`moreAt`). The proof is by
induction on fuel, one lemma a rule.
-/

namespace LoxLang

set_option autoImplicit false

/-- A run has ended, and not for lack of fuel. -/
def Finished {State Result : Type} (outcome : EStateM.Result Interrupt State Result) : Prop :=
  ∀ last, outcome ≠ .error .outOfFuel last

namespace Lexical

/-- Wherever the first step finishes, the second one ends in the same way. -/
def Below {Result : Type} (step more : Run Result) : Prop :=
  ∀ state, Finished (step state) → more state = step state

namespace Below

variable {Result Other : Type} {step middle more : Run Result}

theorem refl (step : Run Result) : Below step step := fun _ _ => rfl

theorem trans (first : Below step middle) (second : Below middle more) : Below step more := by
  intro state finished
  have same := first state finished
  rw [second state (same ▸ finished), same]

theorem of_outOfFuel (more : Run Result) : Below outOfFuel more :=
  fun state finished => absurd rfl (finished state)

theorem bind {next moreNext : Result → Run Other} (first : Below step more)
    (second : ∀ value, Below (next value) (moreNext value)) :
    Below (step >>= next) (more >>= moreNext) := by
  intro state finished
  simp only [Bind.bind, EStateM.bind] at finished ⊢
  cases ran : step state with
  | ok value reached =>
      have ended : Finished (step state) := by
        rw [ran]
        intro last same
        cases same
      rw [ran] at finished
      rw [first state ended, ran]
      exact second value reached finished
  | error interrupt reached =>
      rw [ran] at finished
      have ended : Finished (step state) := by
        rw [ran]
        intro last same
        cases same
        exact finished reached rfl
      rw [first state ended, ran]

theorem map (change : Result → Other) (first : Below step more) :
    Below (change <$> step) (change <$> more) := by
  simp only [map_eq_pure_bind]
  exact .bind first fun _ => .refl _

theorem nested (first : Below step more) : Below (Lexical.nested step) (Lexical.nested more) := by
  intro state finished
  have inner : Finished (step { state with depth := state.depth + 1 }) := by
    intro last ran
    simp only [Lexical.nested, ran] at finished
    exact finished _ rfl
  simp only [Lexical.nested, first _ inner]

end Below

/-- Every rule is below itself with one more unit of fuel. -/
structure MoreAt (fuel : Nat) : Prop where
  expression : ∀ scope found,
    Below (expression fuel scope found) (expression (fuel + 1) scope found)
  expressions : ∀ scope found,
    Below (expressions fuel scope found) (expressions (fuel + 1) scope found)
  call : ∀ paren called values,
    Below (call fuel paren called values) (call (fuel + 1) paren called values)
  apply : ∀ callable values, Below (apply fuel callable values) (apply (fuel + 1) callable values)
  applyClosure : ∀ closure values,
    Below (applyClosure fuel closure values) (applyClosure (fuel + 1) closure values)
  statement : ∀ scope found, Below (statement fuel scope found) (statement (fuel + 1) scope found)
  statements : ∀ scope found,
    Below (statements fuel scope found) (statements (fuel + 1) scope found)
  rounds : ∀ scope condition body,
    Below (rounds fuel scope condition body) (rounds (fuel + 1) scope condition body)

namespace MoreAt

variable {fuel : Nat}

theorem zero : MoreAt 0 := by
  constructor <;> intros <;> exact .of_outOfFuel _

theorem expression_succ (less : MoreAt fuel) (scope : Scope) (found : Expr) :
    Below (Lexical.expression (fuel + 1) scope found)
      (Lexical.expression (fuel + 2) scope found) := by
  cases found with
  | literal | var | thisRef | superRef => exact .refl _
  | grouping inner => exact less.expression scope inner
  | unary operator operand => exact .bind (less.expression scope operand) fun _ => .refl _
  | binary left operator right =>
      exact .bind (less.expression scope left) fun _ =>
        .bind (less.expression scope right) fun _ => .refl _
  | logical left operator right =>
      refine .bind (less.expression scope left) fun first => ?_
      split
      · exact .refl _
      · exact less.expression scope right
  | assign occurrence value => exact .bind (less.expression scope value) fun _ => .refl _
  | call callee paren arguments =>
      exact .bind (less.expression scope callee) fun called =>
        .bind (less.expressions scope arguments) fun values => less.call paren called values
  | get object name => exact .bind (less.expression scope object) fun _ => .refl _
  | set object name value =>
      refine .bind (less.expression scope object) fun holder => ?_
      cases holder with
      | object found => exact .bind (less.expression scope value) fun _ => .refl _
      | _ => exact .refl _

theorem expressions_succ (less : MoreAt fuel) (scope : Scope) (found : List Expr) :
    Below (Lexical.expressions (fuel + 1) scope found)
      (Lexical.expressions (fuel + 2) scope found) := by
  cases found with
  | nil => exact .refl _
  | cons first rest =>
      exact .bind (less.expression scope first) fun _ =>
        .bind (less.expressions scope rest) fun _ => .refl _

theorem call_succ (less : MoreAt fuel) (paren : Token) (called : Value) (values : List Value) :
    Below (Lexical.call (fuel + 1) paren called values)
      (Lexical.call (fuel + 2) paren called values) := by
  simp only [Lexical.call]
  split
  next => exact .refl _
  next callable _ =>
    split
    next => exact .bind (.refl _) fun _ => .nested (less.apply callable values)
    next => exact .refl _

theorem apply_succ (less : MoreAt fuel) (callable : Callable) (values : List Value) :
    Below (Lexical.apply (fuel + 1) callable values)
      (Lexical.apply (fuel + 2) callable values) := by
  cases callable with
  | native value => cases value with
    | clock => exact .refl _
  | function closure => exact less.applyClosure closure values
  | cls cls =>
      refine .bind (.refl _) fun object => ?_
      split
      next => exact .refl _
      next method _ =>
        exact .bind (.refl _) fun initializer =>
          .bind (less.applyClosure initializer values) fun _ => .refl _

theorem applyClosure_succ (less : MoreAt fuel) (closure : Closure) (values : List Value) :
    Below (Lexical.applyClosure (fuel + 1) closure values)
      (Lexical.applyClosure (fuel + 2) closure values) :=
  .bind (.refl _) fun _ => .bind (.refl _) fun inner =>
    .bind (less.statements inner closure.declaration.body) fun _ => .refl _

theorem statement_succ (less : MoreAt fuel) (scope : Scope) (found : Stmt) :
    Below (Lexical.statement (fuel + 1) scope found)
      (Lexical.statement (fuel + 2) scope found) := by
  cases found with
  | expression value | print value => exact .bind (less.expression scope value) fun _ => .refl _
  | var name initializer =>
      cases initializer with
      | none => exact .refl _
      | some value =>
          exact .bind (.refl _) fun inner => .bind (less.expression inner value) fun _ => .refl _
  | block body => exact .bind (less.statements _ body) fun _ => .refl _
  | cond condition thenBranch elseBranch =>
      refine .bind (less.expression scope condition) fun value => ?_
      split
      · exact less.statement scope thenBranch
      · cases elseBranch with
        | none => exact .refl _
        | some branch => exact less.statement scope branch
  | loop condition body => exact .bind (less.rounds scope condition body) fun _ => .refl _
  | function declaration => exact .refl _
  | ret keyword value =>
      cases value with
      | none => exact .refl _
      | some returned => exact .bind (less.expression scope returned) fun _ => .refl _
  | classDecl name superclass declarations =>
      cases superclass with
      | none => exact .refl _
      | some parent => exact .bind (less.expression scope parent) fun _ => .refl _

theorem statements_succ (less : MoreAt fuel) (scope : Scope) (found : List Stmt) :
    Below (Lexical.statements (fuel + 1) scope found)
      (Lexical.statements (fuel + 2) scope found) := by
  cases found with
  | nil => exact .refl _
  | cons first rest =>
      refine .bind (less.statement scope first) fun flow => ?_
      obtain ⟨_ | value, behind⟩ := flow
      · exact less.statements behind rest
      · exact .refl _

theorem rounds_succ (less : MoreAt fuel) (scope : Scope) (condition : Expr) (body : Stmt) :
    Below (Lexical.rounds (fuel + 1) scope condition body)
      (Lexical.rounds (fuel + 2) scope condition body) := by
  refine .bind (less.expression scope condition) fun value => ?_
  split
  · refine .bind (less.statement scope body) fun flow => ?_
    obtain ⟨_ | value, behind⟩ := flow
    · exact less.rounds scope condition body
    · exact .refl _
  · exact .refl _

end MoreAt

theorem moreAt : ∀ fuel : Nat, MoreAt fuel
  | 0 => .zero
  | fuel + 1 =>
    have less := moreAt fuel
    { expression := less.expression_succ
      expressions := less.expressions_succ
      call := less.call_succ
      apply := less.apply_succ
      applyClosure := less.applyClosure_succ
      statement := less.statement_succ
      statements := less.statements_succ
      rounds := less.rounds_succ }

/-- **More fuel makes no difference** to a step that finishes, if one more unit
never does. -/
theorem Below.of_le {Result : Type} {step : Nat → Run Result}
    (one : ∀ fuel, Below (step fuel) (step (fuel + 1))) {fuel more : Nat} (le : fuel ≤ more) :
    Below (step fuel) (step more) := by
  induction le with
  | refl => exact .refl _
  | step _ ih => exact ih.trans (one _)

theorem expression_below (scope : Scope) (found : Expr) {fuel more : Nat} (le : fuel ≤ more) :
    Below (expression fuel scope found) (expression more scope found) :=
  .of_le (fun fuel => (moreAt fuel).expression scope found) le

theorem statement_below (scope : Scope) (found : Stmt) {fuel more : Nat} (le : fuel ≤ more) :
    Below (statement fuel scope found) (statement more scope found) :=
  .of_le (fun fuel => (moreAt fuel).statement scope found) le

theorem rounds_below (scope : Scope) (condition : Expr) (body : Stmt) {fuel more : Nat}
    (le : fuel ≤ more) :
    Below (rounds fuel scope condition body) (rounds more scope condition body) :=
  .of_le (fun fuel => (moreAt fuel).rounds scope condition body) le

end Lexical

end LoxLang
