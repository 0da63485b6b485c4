import LoxLang.Proofs.Grammar.Plans
import LoxLang.Proofs.Tree.WellFormed
import LoxLang.Tree.Uses
import Mathlib.Data.List.Perm.Subperm

/-!
# Node numbers are used once

A reader draws a number for every node, and what it has drawn is not always used:
the target of an assignment gives way to a node with a number of its own, and a
broken declaration is dropped with all its nodes. So the numbers of a tree need not
be all that were drawn, but none of them is used twice, whether or not there are
errors.

A rule is read here as a step that is given some numbers, those of the tree it goes
on with, and draws further ones. Its result is made from both, each used once at most
(`Reader.Draws`, and for the plans of the rules `Rule.draws_plan`). Faults give nothing
back but keep what was drawn, so this goes through recovery as well. The trees of a
whole source are therefore numbered from the range between the first number and the
next free one (`Grammar.numbered_program`, `Grammar.numbered_expressionFrom`).
-/

namespace LoxLang

set_option autoImplicit false

/-! ## Numbers of trees -/

theorem Tier.numbers_node (tier : Tier) (left : Expr) (operator : Token) (right : Expr) :
    (tier.node left operator right).numbers = left.numbers ++ right.numbers := by
  cases tier <;> rfl

theorem Stmt.numbersAll_append (front back : List Stmt) :
    Stmt.numbersAll (front ++ back) = Stmt.numbersAll front ++ Stmt.numbersAll back := by
  induction front with
  | nil => rfl
  | cons first rest ih =>
      rw [List.cons_append, Stmt.numbersAll, Stmt.numbersAll, ih, List.append_assoc]

/-- The numbers of the statement in front of a loop. -/
def Stmt.numbersOption : Option Stmt → List Nat
  | none => []
  | some found => found.numbers

theorem Stmt.numbers_counting (initializer : Option Stmt) (condition increment : Option Expr)
    (body : Stmt) : (Stmt.counting initializer condition increment body).numbers =
      Stmt.numbersOption initializer ++ Expr.numbersOption condition ++
        (body.numbers ++ Expr.numbersOption increment) := by
  cases initializer <;> cases condition <;> cases increment <;>
    simp [Stmt.counting, Stmt.numbers, Stmt.numbersAll, Stmt.numbersOption, Expr.numbersOption,
      Expr.numbers]

namespace Reader

variable {Result Other : Type}

/-! ## Steps that draw numbers -/

/-- The numbers that are drawn on the way from one state to another. -/
def drawn (before after : ReaderState) : List Nat :=
  List.range' before.nextId (after.nextId - before.nextId)

@[simp] theorem drawn_self (state : ReaderState) : drawn state state = [] := by
  simp [drawn]

theorem drawn_append {first second third : ReaderState} (earlier : first.nextId ≤ second.nextId)
    (later : second.nextId ≤ third.nextId) :
    drawn first second ++ drawn second third = drawn first third := by
  have start : second.nextId = first.nextId + (second.nextId - first.nextId) := by omega
  have length : second.nextId - first.nextId + (third.nextId - second.nextId) =
      third.nextId - first.nextId := by omega
  unfold drawn
  nth_rewrite 2 [start]
  rw [List.range'_append_1, length]

/-- How a step ended that was given some numbers: those of its result are given or
newly drawn, each once at most. No number is given back. -/
def Drew (before : ReaderState) (given : List Nat) (goal : Result → List Nat → Prop) :
    EStateM.Result ReaderStop ReaderState Result → Prop
  | .ok result after => before.nextId ≤ after.nextId ∧
      ∃ held, held.Subperm (given ++ drawn before after) ∧ goal result held
  | .error _ after => before.nextId ≤ after.nextId

/-- A step that makes its result from the numbers it is given and new ones, each used
once at most. -/
def Draws (given : List Nat) (numbers : Result → List Nat) (step : Reader Result) : Prop :=
  ∀ state : ReaderState,
    Drew state given (fun result held => (numbers result).Subperm held) (step state)

/-- The next step has in hand what the first one leaves. -/
theorem Drew.bind {step : Reader Result} {next : Result → Reader Other} {start now : ReaderState}
    {given : List Nat} {goal : Other → List Nat → Prop}
    (first : Drew start given (fun result held => ∀ after, start.nextId ≤ after.nextId →
      held.Subperm (given ++ drawn start after) → Drew start given goal (next result after))
      (step now)) : Drew start given goal ((step >>= next) now) := by
  simp only [Bind.bind, EStateM.bind]
  cases reading : step now with
  | error stop after => rwa [reading] at first
  | ok result middle =>
      rw [reading] at first
      obtain ⟨le, held, among, later⟩ := first
      exact later middle le among

theorem Drew.mono {start : ReaderState} {given : List Nat} {goal wider : Result → List Nat → Prop}
    {outcome : EStateM.Result ReaderStop ReaderState Result} (drew : Drew start given goal outcome)
    (weaker : ∀ result held, goal result held → wider result held) :
    Drew start given wider outcome := by
  cases outcome with
  | error stop after => exact drew
  | ok result after =>
      obtain ⟨le, held, among, good⟩ := drew
      exact ⟨le, held, among, weaker result held good⟩

/-- What a further step draws, beside the numbers that it is not given. -/
theorem Draws.since {numbers : Result → List Nat} {step : Reader Result} {more kept : List Nat}
    (draws : Draws more numbers step) {start now : ReaderState} {given : List Nat}
    (le : start.nextId ≤ now.nextId) (among : (kept ++ more).Subperm (given ++ drawn start now)) :
    Drew start given (fun result held => held = kept ++ numbers result) (step now) := by
  have drew := draws now
  cases reading : step now with
  | error stop after =>
      rw [reading] at drew
      exact Nat.le_trans le drew
  | ok result after =>
      rw [reading] at drew
      obtain ⟨later, held, drawing, made⟩ := drew
      refine ⟨Nat.le_trans le later, _, ?_, rfl⟩
      rw [← drawn_append le later, ← List.append_assoc]
      refine ((List.subperm_append_left kept).mpr (made.trans drawing)).trans ?_
      rw [← List.append_assoc]
      exact (List.subperm_append_right _).mpr among

/-- A number just drawn is in hand. -/
theorem draws_freshId : Draws [] (fun id => [id]) freshId := fun state =>
  ⟨Nat.le_succ _, [state.nextId], by simp [drawn], .refl _⟩

/-- Of a declaration that is dropped, no number is left. -/
theorem draws_recover {step : Reader Stmt} (draws : Draws [] Stmt.numbers step) :
    Draws [] (fun found => Stmt.numbersAll found.toList) (recover step) := by
  intro state
  have drew := draws state
  unfold recover
  cases reading : step state with
  | ok result after =>
      rw [reading] at drew
      refine ⟨drew.1, ?_⟩
      dsimp only
      rw [Option.toList_some, Stmt.numbersAll, Stmt.numbersAll, List.append_nil]
      exact drew.2
  | error stop after =>
      rw [reading] at drew
      cases stop with
      | fault error => exact ⟨drew, [], List.nil_subperm, List.nil_subperm⟩
      | outOfFuel => exact drew

end Reader

/-! ## Plans that draw numbers -/

open Reader

/-- The numbers of what a rule reads. -/
@[simp] def Rule.numbers {Result : Type} : Rule Result → Result → List Nat
  | expression | operand _ | operandTail _ _ | unary | callTail _ => Expr.numbers
  | arguments _ => Expr.numbersAll
  | primary => Expr.numbers
  | parameters _ => fun _ => []
  | methods => FunctionDecl.numbersAll
  | function _ => FunctionDecl.numbers
  | block | blockBody | declarations => Stmt.numbersAll
  | declaration | classDeclaration | statement | forStatement | ifStatement | whileStatement =>
      Stmt.numbers

/-- The numbers of the tree that a rule goes on with. -/
@[simp] def Rule.given? {Result : Type} : Rule Result → Option (List Nat)
  | operandTail _ left => some left.numbers
  | callTail callee => some callee.numbers
  | _ => none

/-- A plan has some numbers in hand and draws further ones. A rule that goes on with
a tree has to be given its numbers, and the others are kept beside what is read. -/
@[simp] def Plan.Draws {Result : Type} :
    Plan Result → List Nat → (Result → List Nat → Prop) → Prop
  | done result, held, goal => goal result held
  | andThen first next, held, goal =>
    first.Draws held fun part held => (next part).Draws held goal
  | call rule, held, goal => match rule.given? with
    | none => ∀ result, goal result (held ++ rule.numbers result)
    | some given => given.Subperm held ∧ ∀ result, goal result (rule.numbers result)
  | fail _, _, _ => True
  | limit _ _, held, goal => goal () held
  | reportAt _ _, held, goal => goal () held
  | freshId, held, goal => ∀ id, goal id (held ++ [id])
  | atEnd, held, goal => ∀ ended, goal ended held
  | upcoming _, held, goal => ∀ passed, goal passed held
  | accept? _, held, goal => goal none held ∧ ∀ token, goal (some token) held
  | acceptAs? _, held, goal => goal none held ∧ ∀ token found, goal (some (token, found)) held
  | expect _ _, held, goal => ∀ token, goal token held
  | declared? _, held, goal =>
    goal none held ∧ ∀ found, goal (some found) (held ++ Stmt.numbersAll found.toList)

variable {Result : Type}

theorem Rule.draws_plan (rule : Rule Result) :
    rule.plan.Draws (rule.given?.getD []) fun result held =>
      (rule.numbers result).Subperm held := by
  cases rule with
  | expression =>
      refine fun target => ⟨.refl _, fun equals value => ?_⟩
      -- An assignment to a name has a new number in the place of the target's, and
      -- behind a report the value is dropped.
      cases target with
      | var occurrence =>
          exact fun id => ((List.sublist_append_right _ _).append (.refl _)).subperm
      | get object name => exact .refl _
      | _ => exact (List.sublist_append_left _ _).subperm
  | operand tier => cases tier <;> simp [List.Subperm.refl]
  | primary =>
      refine ⟨trivial, fun token head => ?_⟩
      cases head <;> simp [Expr.numbers, List.Subperm.refl]
  | statement =>
      refine ⟨by simp [Stmt.numbers, List.Subperm.refl], fun token head => ?_⟩
      cases head <;> simp [Stmt.numbers, Expr.numbersOption, List.Subperm.refl]
  | declaration =>
      refine ⟨by simp [List.Subperm.refl], fun token head => ?_⟩
      cases head <;> simp [Stmt.numbers, Expr.numbersOption, List.Subperm.refl]
  | forStatement =>
      -- The increment is read before the body and goes behind it.
      simp [Stmt.numbers_counting, Stmt.numbersOption, Stmt.numbers, Expr.numbersOption,
        List.subperm_append_left, List.perm_append_comm.subperm, List.Subperm.refl]
  | _ =>
      simp [Expr.numbersAll, Expr.numbers, Expr.numbersOption, Tier.numbers_node, Stmt.numbers,
        Stmt.numbersAll, Stmt.numbersAll_append, FunctionDecl.numbers, FunctionDecl.numbersAll,
        List.Subperm.refl]

namespace Reader

/-- If the rules draw the numbers of what they read, then a plan draws the numbers it
goes on with. -/
theorem drew_plan {fuel : Nat}
    (rules : ∀ {Result : Type} (rule : Rule Result),
      Draws (rule.given?.getD []) rule.numbers (rule.read fuel))
    {start : ReaderState} {given : List Nat} {Result : Type} (plan : Plan Result)
    {goal : Result → List Nat → Prop} {held : List Nat} (draws : plan.Draws held goal)
    {now : ReaderState} (le : start.nextId ≤ now.nextId)
    (among : held.Subperm (given ++ drawn start now)) :
    Drew start given goal (plan.read fuel now) := by
  induction plan generalizing held now with
  | done result => exact ⟨le, held, among, draws⟩
  | andThen first next ihFirst ihNext =>
      refine .bind ((ihFirst draws le among).mono fun part held later after le among => ?_)
      exact ihNext part later le among
  | call rule =>
      have drawing := rules rule
      rw [Plan.Draws] at draws
      cases tree : rule.given? with
      | none =>
          rw [tree] at draws drawing
          refine (drawing.since le (by simpa using among)).mono fun result _ same => ?_
          exact same ▸ draws result
      | some more =>
          rw [tree] at draws drawing
          have given : ([] ++ more).Subperm (given ++ drawn start now) := draws.1.trans among
          exact (drawing.since le given).mono fun result _ same => same ▸ draws.2 result
  | fail expectation => exact le
  | limit count cause =>
      rw [Plan.read]
      split <;> exact ⟨le, held, among, draws⟩
  | reportAt token cause => exact ⟨le, held, among, draws⟩
  | freshId =>
      refine (draws_freshId.since le (by simpa using among)).mono fun id _ same => ?_
      exact same ▸ draws id
  | atEnd => exact ⟨le, held, among, draws _⟩
  | upcoming test =>
      rw [Plan.read, upcoming]
      split <;> exact ⟨le, held, among, draws _⟩
  | accept? test =>
      rw [Plan.read, accept?]
      split
      · split
        · exact ⟨le, held, among, draws.2 _⟩
        · exact ⟨le, held, among, draws.1⟩
      · exact ⟨le, held, among, draws.1⟩
  | acceptAs? classify =>
      rw [Plan.read, acceptAs?]
      split
      · split
        · exact ⟨le, held, among, draws.2 _ _⟩
        · exact ⟨le, held, among, draws.1⟩
      · exact ⟨le, held, among, draws.1⟩
  | expect test expectation =>
      rw [Plan.read, expect]
      split
      · split
        · exact ⟨le, held, among, draws _⟩
        · exact le
      · exact le
  | declared? stop =>
      have drawing := draws_recover (rules .declaration)
      simp only [Plan.read, declared?, Bind.bind, EStateM.bind, atEnd]
      split
      · exact ⟨le, held, among, draws.1⟩
      · have drew := drawing.since le (by simpa using among)
        refine Drew.bind (drew.mono fun found _ same after le among => ?_)
        exact ⟨le, _, among, same ▸ draws.2 found⟩

theorem draws_rule : ∀ (fuel : Nat) {Result : Type} (rule : Rule Result),
    Draws (rule.given?.getD []) rule.numbers (rule.read fuel)
  | 0, _, rule => by
      rw [rule.read_zero]
      exact fun _ => Nat.le_refl _
  | fuel + 1, _, rule => by
      rw [rule.read_succ]
      exact fun state => drew_plan (draws_rule fuel) rule.plan rule.draws_plan (Nat.le_refl _)
        (by simp [List.Subperm.refl])

theorem draws_declarations (fuel : Nat) : Draws [] Stmt.numbersAll (declarations fuel) :=
  draws_rule fuel .declarations

theorem draws_expressionToEnd (fuel : Nat) : Draws [] Expr.numbers (expressionToEnd fuel) := by
  rw [← Plan.read_expressionToEnd]
  have draws : Plan.expressionToEnd.Draws [] fun found held => found.numbers.Subperm held :=
    fun found ended => by cases ended <;> simp [List.Subperm.refl]
  exact fun state => drew_plan (draws_rule fuel) _ draws (Nat.le_refl _) (by simp)

end Reader

/-! ## Whole sources -/

theorem nodup_of_subperm {numbers few : List Nat} (fewer : few.Subperm numbers)
    (distinct : numbers.Nodup) : few.Nodup := by
  obtain ⟨chosen, same, among⟩ := fewer
  exact same.nodup_iff.mp (distinct.sublist among)

theorem Numbered.of_subperm {numbers few : List Nat} {first next : Nat}
    (numbered : Numbered numbers first next) (fewer : few.Subperm numbers) :
    Numbered few first next where
  le := numbered.le
  range number member := numbered.range number (fewer.subset member)
  nodup := nodup_of_subperm fewer numbered.nodup

theorem Reader.numbered_drawn {before after : ReaderState} (le : before.nextId ≤ after.nextId) :
    Numbered (drawn before after) before.nextId after.nextId where
  le := le
  range number member := by
    obtain ⟨above, below⟩ := List.mem_range'_1.mp member
    omega
  nodup := List.nodup_range'

namespace Grammar

/-- **The nodes of a program are numbered once**, with or without errors. -/
theorem numbered_program (stream : TokenStream) (nextId : Nat) :
    Numbered (Stmt.numbersAll (program stream nextId).statements) nextId
      (program stream nextId).nextId := by
  have drew := Reader.draws_declarations (fuelFor stream) (ReaderState.start stream nextId)
  unfold program
  cases reading : Reader.declarations (fuelFor stream) (ReaderState.start stream nextId) with
  | ok statements state =>
      rw [reading] at drew
      obtain ⟨le, held, among, made⟩ := drew
      exact (Reader.numbered_drawn le).of_subperm (made.trans among)
  | error stop state =>
      rw [reading] at drew
      exact (Reader.numbered_drawn drew).of_subperm List.nil_subperm

/-- Reads one expression that fills the input, with its nodes numbered from
`nextId` on: the expression, if there is no fault, and the next free node
number. -/
def expressionFrom (stream : TokenStream) (nextId : Nat) : Option Expr × Nat :=
  match Reader.expressionToEnd (fuelFor stream) (ReaderState.start stream nextId) with
  | .ok found state => (if state.errors.isEmpty then some found else none, state.nextId)
  | .error _ state => (none, state.nextId)

/-- **The nodes of an expression are numbered once.** -/
theorem numbered_expressionFrom (stream : TokenStream) (nextId : Nat) :
    Numbered (Expr.numbersOption (expressionFrom stream nextId).1) nextId
      (expressionFrom stream nextId).2 := by
  have drew := Reader.draws_expressionToEnd (fuelFor stream) (ReaderState.start stream nextId)
  unfold expressionFrom
  cases reading : Reader.expressionToEnd (fuelFor stream) (ReaderState.start stream nextId) with
  | ok found state =>
      rw [reading] at drew
      obtain ⟨le, held, among, made⟩ := drew
      refine (Reader.numbered_drawn le).of_subperm ?_
      dsimp only
      split
      · exact made.trans among
      · exact List.nil_subperm
  | error stop state =>
      rw [reading] at drew
      exact (Reader.numbered_drawn drew).of_subperm List.nil_subperm

end Grammar

/-! ## The nodes that use names -/

/-- The numbers of the nodes at which names are used. -/
def Use.ids (uses : List Use) : List Nat := uses.map fun use => use.occurrence.id

@[simp] theorem Use.ids_append (front back : List Use) :
    Use.ids (front ++ back) = Use.ids front ++ Use.ids back :=
  List.map_append

namespace Expr

mutual

/-- The uses in an expression have numbers of its nodes, each one its own. -/
theorem ids_subperm : ∀ found : Expr, (Use.ids found.uses).Subperm found.numbers
  | literal _ => .refl _
  | unary _ operand => operand.ids_subperm
  | grouping inner => inner.ids_subperm
  | get object _ => object.ids_subperm
  | binary left _ right | logical left _ right | set left _ right => by
      rw [uses, numbers, Use.ids_append]
      exact left.ids_subperm.append right.ids_subperm
  | var _ | thisRef _ | superRef _ _ => .refl _
  | assign occurrence value => by
      have front : (occurrence.id :: Use.ids value.uses).Subperm (occurrence.id :: value.numbers) :=
        (List.subperm_cons _).mpr value.ids_subperm
      exact front.trans (List.perm_append_singleton _ _).symm.subperm
  | call callee _ arguments => by
      rw [uses, numbers, Use.ids_append]
      exact callee.ids_subperm.append (ids_subperm_all arguments)

theorem ids_subperm_all : ∀ found : List Expr,
    (Use.ids (usesAll found)).Subperm (numbersAll found)
  | [] => .refl _
  | first :: rest => by
      rw [usesAll, numbersAll, Use.ids_append]
      exact first.ids_subperm.append (ids_subperm_all rest)

end

theorem ids_subperm_option (found : Option Expr) :
    (Use.ids (usesOption found)).Subperm (numbersOption found) := by
  cases found with
  | none => exact .refl _
  | some found => exact found.ids_subperm

end Expr

mutual

theorem Stmt.ids_subperm : ∀ found : Stmt, (Use.ids found.uses).Subperm found.numbers
  | .expression found | .print found => found.ids_subperm
  | .var _ initializer => Expr.ids_subperm_option initializer
  | .block body => Stmt.ids_subperm_all body
  | .cond condition thenBranch none => by
      rw [Stmt.uses, Stmt.numbers, Use.ids_append]
      exact condition.ids_subperm.append thenBranch.ids_subperm
  | .cond condition thenBranch (some elseBranch) => by
      rw [Stmt.uses, Stmt.numbers, Use.ids_append, Use.ids_append, List.append_assoc]
      exact condition.ids_subperm.append (thenBranch.ids_subperm.append elseBranch.ids_subperm)
  | .loop condition body => by
      rw [Stmt.uses, Stmt.numbers, Use.ids_append]
      exact condition.ids_subperm.append body.ids_subperm
  | .function declaration => declaration.ids_subperm
  | .ret _ value => Expr.ids_subperm_option value
  | .classDecl _ superclass methods => by
      rw [Stmt.uses, Stmt.numbers, Use.ids_append]
      exact (Expr.ids_subperm_option superclass).append (FunctionDecl.ids_subperm_all methods)

theorem Stmt.ids_subperm_all : ∀ found : List Stmt,
    (Use.ids (Stmt.usesAll found)).Subperm (Stmt.numbersAll found)
  | [] => .refl _
  | first :: rest => by
      rw [Stmt.usesAll, Stmt.numbersAll, Use.ids_append]
      exact first.ids_subperm.append (Stmt.ids_subperm_all rest)

/-- A function has a number of its own besides those of its body. -/
theorem FunctionDecl.ids_subperm : ∀ found : FunctionDecl,
    (Use.ids found.uses).Subperm found.numbers
  | ⟨_, _, _, body⟩ =>
    (Stmt.ids_subperm_all body).trans (List.sublist_append_left _ _).subperm

theorem FunctionDecl.ids_subperm_all : ∀ found : List FunctionDecl,
    (Use.ids (FunctionDecl.usesAll found)).Subperm (FunctionDecl.numbersAll found)
  | [] => .refl _
  | first :: rest => by
      rw [FunctionDecl.usesAll, FunctionDecl.numbersAll, Use.ids_append]
      exact first.ids_subperm.append (FunctionDecl.ids_subperm_all rest)

end

end LoxLang
