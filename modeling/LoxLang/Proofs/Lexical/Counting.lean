import LoxLang.Proofs.Lexical.Fuel
import LoxLang.Proofs.Lexical.Declarations

/-!
# Counting loops without blocks

A counting loop is read as a loop with a condition inside of blocks. Here its
meaning is said directly, for the second interpreter (`counting`): a scope for
the initializer, then rounds of condition, body and increment. The increment is
evaluated in the scope of the loop, as the condition is. The two do the same:
each is below the other with some more fuel (`statement_below_counting`,
`counting_below_statement`).
-/

namespace LoxLang

set_option autoImplicit false

/-- A round of a counting loop: the body, and the increment behind it. -/
def Stmt.round (increment : Option Expr) (body : Stmt) : Stmt :=
  match increment with
  | some step => .block [body, .expression step]
  | none => body

theorem Stmt.counting_none (condition increment : Option Expr) (body : Stmt) :
    Stmt.counting none condition increment body =
      .loop (condition.getD (.literal (.bool true))) (.round increment body) := by
  cases increment <;> rfl

theorem Stmt.counting_some (start : Stmt) (condition increment : Option Expr) (body : Stmt) :
    Stmt.counting (some start) condition increment body =
      .block [start, .loop (condition.getD (.literal (.bool true))) (.round increment body)] := by
  cases increment <;> rfl

namespace Lexical

/-! ## The direct loop -/

/-- Whether one more round is made. Without a condition it always is. -/
def holds (fuel : Nat) (scope : Scope) : Option Expr → Run Bool
  | none => pure true
  | some condition => do
    let value ← expression fuel scope condition
    pure value.isTruthy

/-- Evaluates the increment, if there is one. -/
def runIncrement (fuel : Nat) (scope : Scope) : Option Expr → Run Unit
  | none => pure ()
  | some increment => do
    let _ ← expression fuel scope increment
    pure ()

/-- Goes on behind a statement, in the scope behind it, unless it has
returned. -/
def followedBy (step : Run (Flow × Scope)) (next : Scope → Run Flow) : Run Flow := do
  match ← step with
  | (.returned value, _) => pure (.returned value)
  | (.normal, behind) => next behind

/-- The rounds of a counting loop. -/
def countingRounds : Nat → Scope → Option Expr → Option Expr → Stmt → Run Flow
  | 0, _, _, _, _ => outOfFuel
  | fuel + 1, scope, condition, increment, body => do
    if ← holds fuel scope condition then
      followedBy (statement fuel scope body) fun _ => do
        runIncrement fuel scope increment
        countingRounds fuel scope condition increment body
    else pure .normal

/-- A counting loop. The initializer is run once, in a scope of its own. -/
def counting (fuel : Nat) (scope : Scope) (initializer : Option Stmt)
    (condition increment : Option Expr) (body : Stmt) : Run Flow :=
  match initializer with
  | none => countingRounds fuel scope condition increment body
  | some start =>
    followedBy (statement fuel { scope with isLocal := true } start) fun inner =>
      countingRounds fuel inner condition increment body

/-! ## What is not a declaration -/

/-- An expression does not depend on where a declaration would belong. -/
theorem expression_local (scope : Scope) (flag : Bool) : ∀ fuel : Nat,
    (∀ found, expression fuel { scope with isLocal := flag } found = expression fuel scope found) ∧
    ∀ found, expressions fuel { scope with isLocal := flag } found = expressions fuel scope found
  | 0 => ⟨fun _ => rfl, fun _ => rfl⟩
  | fuel + 1 => by
      obtain ⟨one, all⟩ := expression_local scope flag fuel
      constructor
      · intro found
        cases found with
        | literal | var | thisRef | superRef => rfl
        | grouping => exact one _
        | assign =>
            simp only [expression, one]
            rfl
        | _ => simp only [expression, one, all]
      · intro found
        cases found <;> simp only [expressions, one, all]

/-- Nor does a statement that is no declaration, and the scope behind it is the
one in front of it. -/
theorem statement_local (scope : Scope) (flag : Bool) : ∀ fuel : Nat,
    (∀ found : Stmt, found.WellFormed → found.isDeclaration = false →
      statement fuel { scope with isLocal := flag } found =
        (fun ended => (ended.1, { scope with isLocal := flag })) <$>
          statement fuel scope found) ∧
    ∀ (condition : Expr) (body : Stmt), body.WellFormed → body.isDeclaration = false →
      rounds fuel { scope with isLocal := flag } condition body =
        rounds fuel scope condition body
  | 0 => ⟨fun _ _ _ => rfl, fun _ _ _ _ => rfl⟩
  | fuel + 1 => by
      obtain ⟨one, again⟩ := statement_local scope flag fuel
      obtain ⟨value, _⟩ := expression_local scope flag fuel
      constructor
      · intro found wellFormed plain
        cases found with
        | expression | print => simp only [statement, value, map_bind, map_pure]
        | block => simp only [statement, map_bind, map_pure]
        | cond condition thenBranch elseBranch =>
            simp only [statement, value, map_bind]
            refine bind_congr fun tested => ?_
            cases elseBranch with
            | none =>
                split
                · exact one thenBranch wellFormed.2.1 wellFormed.2.2
                · rfl
            | some branch =>
                split
                · exact one thenBranch wellFormed.2.1.1 wellFormed.2.1.2
                · exact one branch wellFormed.2.2.1 wellFormed.2.2.2
        | loop condition body =>
            simp only [statement, again condition body wellFormed.2.1 wellFormed.2.2, map_bind,
              map_pure]
        | ret keyword returned =>
            cases returned with
            | none => rfl
            | some => simp only [statement, value, map_bind, map_pure]
        | var | function | classDecl => cases plain
      · intro condition body wellFormed plain
        simp only [rounds, value, one body wellFormed plain, bind_map_left]
        refine bind_congr fun tested => ?_
        split
        · refine bind_congr fun ended => ?_
          obtain ⟨_ | result, behind⟩ := ended
          · exact again condition body wellFormed plain
          · rfl
        · rfl

/-! ## The two loops -/

namespace Below

theorem followedBy {step more : Run (Flow × Scope)} {next moreNext : Scope → Run Flow}
    (first : Below step more) (second : ∀ behind, Below (next behind) (moreNext behind)) :
    Below (followedBy step next) (followedBy more moreNext) := by
  refine .bind first fun ended => ?_
  obtain ⟨_ | value, behind⟩ := ended
  · exact second behind
  · exact .refl _

end Below

/-- Two statements in a block, and what goes on behind the block. -/
theorem followedBy_pair (fuel : Nat) (scope : Scope) (first second : Stmt)
    (next : Scope → Run Flow) :
    followedBy (statement (fuel + 4) scope (.block [first, second])) next =
      followedBy (statement (fuel + 2) { scope with isLocal := true } first) fun behind =>
        followedBy (statement (fuel + 1) behind second) fun _ => next scope := by
  simp only [followedBy, statement, statements, bind_assoc]
  refine bind_congr fun ended => ?_
  obtain ⟨_ | value, behind⟩ := ended
  · simp only [bind_assoc]
    refine bind_congr fun last => ?_
    obtain ⟨_ | value, further⟩ := last <;> simp only [pure_bind]
  · simp only [pure_bind]

/-- The scope behind a statement does not matter if it is not used. -/
theorem followedBy_map (step : Run (Flow × Scope)) (behind : Scope) (next : Scope → Run Flow) :
    followedBy ((fun ended => (ended.1, behind)) <$> step) next =
      followedBy step fun _ => next behind := by
  simp only [followedBy, bind_map_left]
  refine bind_congr fun ended => ?_
  obtain ⟨_ | value, _⟩ := ended <;> rfl

theorem followedBy_end (step : Run (Flow × Scope)) :
    followedBy step (fun _ => pure .normal) = Prod.fst <$> step := by
  simp only [followedBy, map_eq_pure_bind]
  refine bind_congr fun ended => ?_
  obtain ⟨_ | value, _⟩ := ended <;> rfl

theorem followedBy_expression (fuel : Nat) (scope : Scope) (value : Expr)
    (next : Scope → Run Flow) :
    followedBy (statement (fuel + 1) scope (.expression value)) next =
      expression fuel scope value >>= fun _ => next scope := by
  simp only [followedBy, statement, bind_assoc, pure_bind]

/-- The flow of a loop is that of its rounds. -/
theorem fst_loop (fuel : Nat) (scope : Scope) (condition : Expr) (body : Stmt) :
    Prod.fst <$> statement (fuel + 1) scope (.loop condition body) =
      rounds fuel scope condition body := by
  simp only [statement, map_bind, map_pure, bind_pure]

section Rounds

variable {scope : Scope} {condition increment : Option Expr} {body : Stmt}

/-- A round with an increment, which is evaluated in the scope of the loop. -/
theorem followedBy_round (wellFormed : body.WellFormed) (plain : body.isDeclaration = false)
    (fuel : Nat) (step : Expr) (next : Run Flow) :
    followedBy (statement (fuel + 4) scope (.round (some step) body)) (fun _ => next) =
      followedBy (statement (fuel + 2) scope body) fun _ =>
        expression fuel scope step >>= fun _ => next := by
  simp only [Stmt.round, followedBy_pair, (statement_local scope true _).1 body wellFormed plain,
    followedBy_map, followedBy_expression, (expression_local scope true fuel).1]

/-- The condition of the loop with blocks, against the direct one. -/
theorem condition_below_holds {fuel more : Nat} (le : fuel ≤ more) {next moreNext : Bool → Run Flow}
    (further : ∀ held, Below (next held) (moreNext held)) :
    Below (do
        let value ← expression fuel scope (condition.getD (.literal (.bool true)))
        next value.isTruthy)
      (holds more scope condition >>= moreNext) := by
  cases condition with
  | none =>
      cases fuel with
      | zero => exact fun state finished => absurd rfl (finished state)
      | succ fuel => exact further true
  | some found =>
      simp only [holds, bind_assoc, pure_bind]
      exact .bind (expression_below scope found le) fun value => further value.isTruthy

theorem holds_below_condition {fuel more : Nat} (le : fuel ≤ more + 1)
    {next moreNext : Bool → Run Flow} (further : ∀ held, Below (next held) (moreNext held)) :
    Below (holds fuel scope condition >>= next)
      (do
        let value ← expression (more + 1) scope (condition.getD (.literal (.bool true)))
        moreNext value.isTruthy) := by
  cases condition with
  | none => exact further true
  | some found =>
      simp only [holds, bind_assoc, pure_bind]
      exact .bind (expression_below scope found le) fun value => further value.isTruthy

/-- The body with its increment, against the direct loop. -/
theorem round_below_direct (wellFormed : body.WellFormed) (plain : body.isDeclaration = false)
    (fuel : Nat) {next moreNext : Run Flow} (further : Below next moreNext) :
    Below (followedBy (statement fuel scope (.round increment body)) fun _ => next)
      (followedBy (statement (fuel + 4) scope body) fun _ => do
        runIncrement (fuel + 4) scope increment
        moreNext) := by
  cases increment with
  | none =>
      simp only [runIncrement, pure_bind]
      exact .followedBy (statement_below scope body (Nat.le_add_right fuel 4)) fun _ => further
  | some step =>
      refine .trans (.followedBy (statement_below scope _ (Nat.le_add_right fuel 4))
        fun _ => .refl _) ?_
      simp only [followedBy_round wellFormed plain, runIncrement, bind_assoc, pure_bind]
      exact .followedBy (statement_below scope body (Nat.add_le_add_left (by decide) fuel))
        fun _ => .bind (expression_below scope step (Nat.le_add_right fuel 4)) fun _ => further

theorem direct_below_round (wellFormed : body.WellFormed) (plain : body.isDeclaration = false)
    (fuel : Nat) {next moreNext : Run Flow} (further : Below next moreNext) :
    Below (followedBy (statement fuel scope body) fun _ => do
        runIncrement fuel scope increment
        next)
      (followedBy (statement (fuel + 4) scope (.round increment body)) fun _ => moreNext) := by
  cases increment with
  | none =>
      simp only [runIncrement, pure_bind]
      exact .followedBy (statement_below scope body (Nat.le_add_right fuel 4)) fun _ => further
  | some step =>
      simp only [followedBy_round wellFormed plain, runIncrement, bind_assoc, pure_bind]
      exact .followedBy (statement_below scope body (Nat.le_add_right fuel 2)) fun _ =>
        .bind (.refl _) fun _ => further

/-- One more round, if there is one. -/
abbrev roundIf (round : Run Flow) (held : Bool) : Run Flow :=
  if held then round else pure .normal

theorem rounds_succ_eq (fuel : Nat) (scope : Scope) (condition : Expr) (body : Stmt) :
    rounds (fuel + 1) scope condition body = expression fuel scope condition >>= fun value =>
      roundIf (followedBy (statement fuel scope body) fun _ => rounds fuel scope condition body)
        value.isTruthy :=
  rfl

theorem countingRounds_succ_eq (fuel : Nat) (scope : Scope) (condition increment : Option Expr)
    (body : Stmt) :
    countingRounds (fuel + 1) scope condition increment body = holds fuel scope condition >>=
      roundIf (followedBy (statement fuel scope body) fun _ =>
        runIncrement fuel scope increment >>= fun _ =>
          countingRounds fuel scope condition increment body) :=
  rfl

theorem Below.roundIf {round moreRound : Run Flow} (further : Below round moreRound)
    (held : Bool) : Below (roundIf round held) (roundIf moreRound held) := by
  cases held with
  | false => exact .refl _
  | true => exact further

theorem rounds_below_countingRounds (wellFormed : body.WellFormed)
    (plain : body.isDeclaration = false) (fuel : Nat) :
    Below (rounds fuel scope (condition.getD (.literal (.bool true))) (.round increment body))
      (countingRounds (fuel + 4) scope condition increment body) := by
  induction fuel with
  | zero => exact .of_outOfFuel _
  | succ fuel ih =>
      rw [rounds_succ_eq, Nat.add_right_comm, countingRounds_succ_eq]
      exact condition_below_holds (Nat.le_add_right fuel 4)
        (.roundIf (round_below_direct wellFormed plain fuel ih))

theorem countingRounds_below_rounds (wellFormed : body.WellFormed)
    (plain : body.isDeclaration = false) (fuel : Nat) :
    Below (countingRounds fuel scope condition increment body)
      (rounds (fuel + 4) scope (condition.getD (.literal (.bool true)))
        (.round increment body)) := by
  induction fuel with
  | zero => exact .of_outOfFuel _
  | succ fuel ih =>
      rw [countingRounds_succ_eq, Nat.add_right_comm, rounds_succ_eq]
      exact holds_below_condition (Nat.le_add_right fuel 4)
        (.roundIf (direct_below_round wellFormed plain fuel ih))

/-- The flow of a loop in a block with a statement in front of it. -/
theorem fst_started (fuel : Nat) (scope : Scope) (start : Stmt) (test : Expr) (again : Stmt) :
    Prod.fst <$> statement (fuel + 4) scope (.block [start, .loop test again]) =
      followedBy (statement (fuel + 2) { scope with isLocal := true } start) fun behind =>
        rounds fuel behind test again := by
  simp only [← followedBy_end, followedBy_pair]
  simp only [followedBy_end, fst_loop]

variable (scope condition increment) in
/-- **The tree of a counting loop does what the loop does directly**, with some
more fuel for it. -/
theorem statement_below_counting (initializer : Option Stmt) (wellFormed : body.WellFormed)
    (plain : body.isDeclaration = false) (fuel : Nat) :
    Below (Prod.fst <$> statement fuel scope (.counting initializer condition increment body))
      (counting (fuel + 8) scope initializer condition increment body) := by
  have rise {less : Nat} {inner : Scope} (le : less ≤ fuel + 4) :
      Below (rounds less inner (condition.getD (.literal (.bool true))) (.round increment body))
        (countingRounds (fuel + 8) inner condition increment body) :=
    .trans (rounds_below inner _ _ le) (rounds_below_countingRounds wellFormed plain (fuel + 4))
  cases initializer with
  | none =>
      rw [Stmt.counting_none]
      refine .trans (.map _ (statement_below scope _ (Nat.le_add_right fuel 1))) ?_
      rw [fst_loop]
      exact rise (Nat.le_add_right fuel 4)
  | some start =>
      rw [Stmt.counting_some]
      refine .trans (.map _ (statement_below scope _ (Nat.le_add_right fuel 4))) ?_
      rw [fst_started]
      exact .followedBy (statement_below _ start (Nat.add_le_add_left (by decide) fuel)) fun _ =>
        rise (Nat.le_add_right fuel 4)

variable (scope condition increment) in
/-- **The direct loop does what its tree does**, with some more fuel for the
tree. -/
theorem counting_below_statement (initializer : Option Stmt) (wellFormed : body.WellFormed)
    (plain : body.isDeclaration = false) (fuel : Nat) :
    Below (counting fuel scope initializer condition increment body)
      (Prod.fst <$> statement (fuel + 8) scope
        (.counting initializer condition increment body)) := by
  have rise {more : Nat} {inner : Scope} (le : fuel + 4 ≤ more) :
      Below (countingRounds fuel inner condition increment body)
        (rounds more inner (condition.getD (.literal (.bool true))) (.round increment body)) :=
    .trans (countingRounds_below_rounds wellFormed plain fuel) (rounds_below inner _ _ le)
  cases initializer with
  | none =>
      rw [Stmt.counting_none, fst_loop]
      exact rise (Nat.add_le_add_left (by decide) fuel)
  | some start =>
      rw [Stmt.counting_some, fst_started]
      exact .followedBy (statement_below _ start (Nat.le_add_right fuel 6)) fun _ =>
        rise (Nat.le_refl _)

end Rounds

end Lexical

end LoxLang
