import LoxLang.Proofs.Grammar.Plans

/-!
# Readings that yield something

Errors are only ever added (`Reader.grows_rule`). `Reader.Yields` is a condition for
the readings that add none: the used tokens and the result satisfy a condition. Behind
a report nothing is asked for, so going on at the next statement boundary plays no part
here. If the rules yield something, then a plan yields what can be made of that
(`Reader.yields_plan`).
-/

namespace LoxLang

set_option autoImplicit false

namespace Reader

variable {Result Other : Type}

/-- A sequence that ends well has a first step that ends well. -/
theorem exists_of_bind {step : Reader Result} {next : Result → Reader Other}
    {start after : ReaderState} {last : Other} (reading : (step >>= next) start = .ok last after) :
    ∃ result middle, step start = .ok result middle ∧ next result middle = .ok last after := by
  cases first : step start with
  | error stop middle =>
      rw [bind_of_error first] at reading
      cases reading
  | ok result middle =>
      rw [bind_of_ok first] at reading
      exact ⟨result, middle, rfl, reading⟩

/-! ## Errors are kept -/

/-- The errors that have been reported in the end. -/
def errorsOf : EStateM.Result ReaderStop ReaderState Result → List GrammarError
  | .ok _ after => after.errors
  | .error _ after => after.errors

/-- A step adds errors at most. -/
def Grows (step : Reader Result) : Prop :=
  ∀ state : ReaderState, state.errors <+: errorsOf (step state)

theorem Grows.bind {step : Reader Result} {next : Result → Reader Other} (first : Grows step)
    (second : ∀ result, Grows (next result)) : Grows (step >>= next) := by
  intro state
  have early := first state
  cases reading : step state with
  | error stop after =>
      rw [bind_of_error reading]
      rwa [reading] at early
  | ok result middle =>
      rw [bind_of_ok reading]
      rw [reading] at early
      exact early.trans (second result middle)

theorem grows_recover {step : Reader Result} (grows : Grows step) : Grows (recover step) := by
  intro state
  have early := grows state
  unfold recover
  cases reading : step state with
  | ok result after => rwa [reading] at early
  | error stop after =>
      rw [reading] at early
      cases stop with
      | outOfFuel => exact early
      | fault error => exact early.trans (List.prefix_append _ _)

theorem grows_plan {fuel : Nat}
    (rules : ∀ {Result : Type} (rule : Rule Result), Grows (rule.read fuel)) {Result : Type}
    (plan : Plan Result) : Grows (plan.read fuel) := by
  induction plan with
  | andThen first next ihFirst ihNext => exact ihFirst.bind ihNext
  | call rule => exact rules rule
  | limit count cause =>
      rw [Plan.read]
      split
      · exact fun state => List.prefix_append _ _
      · exact fun state => List.prefix_refl _
  | reportAt token cause => exact fun state => List.prefix_append _ _
  | declared? stop =>
      refine Grows.bind (fun _ => List.prefix_refl _) fun ended => ?_
      split
      · exact fun _ => List.prefix_refl _
      · exact (grows_recover (rules .declaration)).bind fun _ _ => List.prefix_refl _
  | done _ | fail _ | freshId | atEnd => exact fun _ => List.prefix_refl _
  | upcoming test =>
      intro state
      rw [Plan.read, upcoming]
      split <;> exact List.prefix_refl _
  | accept? test =>
      intro state
      rw [Plan.read, accept?]
      split
      · split <;> exact List.prefix_refl _
      · exact List.prefix_refl _
  | acceptAs? classify =>
      intro state
      rw [Plan.read, acceptAs?]
      split
      · split <;> exact List.prefix_refl _
      · exact List.prefix_refl _
  | expect test expectation =>
      intro state
      rw [Plan.read, expect]
      split
      · split <;> exact List.prefix_refl _
      · exact List.prefix_refl _

/-- **Reported errors stay.** -/
theorem grows_rule : ∀ (fuel : Nat) {Result : Type} (rule : Rule Result), Grows (rule.read fuel)
  | 0, _, rule => by
      rw [rule.read_zero]
      exact fun _ => List.prefix_refl _
  | fuel + 1, _, rule => by
      rw [rule.read_succ]
      exact grows_plan (grows_rule fuel) rule.plan

/-- If nothing is reported by a sequence, then nothing by either part. -/
theorem quiet_of_grows {step : Reader Result} {next : Reader Other}
    {start middle after : ReaderState} {result : Result} {last : Other} (first : Grows step)
    (second : Grows next) (one : step start = .ok result middle)
    (other : next middle = .ok last after) (quiet : after.errors = start.errors) :
    middle.errors = start.errors ∧ after.errors = middle.errors := by
  have early := first start
  have late := second middle
  rw [one] at early
  rw [other] at late
  have same : start.errors = middle.errors := early.eq_of_length_le (quiet ▸ late.length_le)
  exact ⟨same.symm, quiet.trans same⟩

/-! ## Readings without errors -/

/-- If a step ends well and adds no error, then the tokens it uses and its result
satisfy a condition. -/
def Yields (step : Reader Result) (holds : List Token → Result → Prop) : Prop :=
  ∀ start result after, step start = .ok result after → after.errors = start.errors →
    ∃ used, start.rest = used ++ after.rest ∧ holds used result

theorem Yields.mono {step : Reader Result} {holds final : List Token → Result → Prop}
    (yields : Yields step holds)
    (weaker : ∀ used result, holds used result → final used result) : Yields step final := by
  intro start result after reading quiet
  obtain ⟨used, shape, good⟩ := yields start result after reading quiet
  exact ⟨used, shape, weaker used result good⟩

end Reader

/-- What the rules yield may be used by a plan, behind the tokens used so far. -/
@[simp] def Plan.Yields (gives : {Part : Type} → Rule Part → List Token → Part → Prop)
    {Result : Type} : Plan Result → List Token → (List Token → Result → Prop) → Prop
  | done result, used, goal => goal used result
  | andThen first next, used, goal =>
    first.Yields gives used fun used part => (next part).Yields gives used goal
  | call rule, used, goal => ∀ more result, gives rule more result → goal (used ++ more) result
  | fail _, _, _ => True
  | limit count _, used, goal => count < listLimit → goal used ()
  | reportAt _ _, _, _ => True
  | freshId, used, goal => ∀ id, goal used id
  | atEnd, used, goal => ∀ ended, goal used ended
  | upcoming _, used, goal => ∀ passed, goal used passed
  | accept? test, used, goal =>
    goal used none ∧ ∀ token, test token = true → goal (used ++ [token]) (some token)
  | acceptAs? classify, used, goal =>
    goal used none ∧
      ∀ token found, classify token = some found → goal (used ++ [token]) (some (token, found))
  | expect test _, used, goal => ∀ token, test token = true → goal (used ++ [token]) token
  | declared? _, used, goal =>
    goal used none ∧
      ∀ more found, gives .declaration more found → goal (used ++ more) (some (some found))

/-- If the rules give more, then a plan yields as much. -/
theorem Plan.Yields.mono {gives better : {Part : Type} → Rule Part → List Token → Part → Prop}
    (implies : ∀ {Part : Type} (rule : Rule Part) used found,
      better rule used found → gives rule used found)
    {Result : Type} {plan : Plan Result} {used : List Token}
    {goal wider : List Token → Result → Prop} (yields : plan.Yields gives used goal)
    (weaker : ∀ used result, goal used result → wider used result) :
    plan.Yields better used wider := by
  induction plan generalizing used with
  | andThen first next ihFirst ihNext =>
      exact ihFirst yields fun used part later => ihNext part later weaker
  | call rule => exact fun more result good => weaker _ _ (yields more result (implies _ _ _ good))
  | declared? stop =>
      exact ⟨weaker _ _ yields.1, fun more found good =>
        weaker _ _ (yields.2 more found (implies _ _ _ good))⟩
  | accept? test => exact ⟨weaker _ _ yields.1, fun _ passes => weaker _ _ (yields.2 _ passes)⟩
  | acceptAs? classify =>
      exact ⟨weaker _ _ yields.1, fun _ _ found => weaker _ _ (yields.2 _ _ found)⟩
  | expect test expectation => exact fun token passes => weaker _ _ (yields token passes)
  | limit count cause => exact fun room => weaker _ _ (yields room)
  | done result => exact weaker _ _ yields
  | freshId => exact fun id => weaker _ _ (yields id)
  | atEnd => exact fun ended => weaker _ _ (yields ended)
  | upcoming test => exact fun passed => weaker _ _ (yields passed)
  | fail expectation => trivial
  | reportAt token cause => trivial

theorem Plan.yields_trivial {Result : Type} (plan : Plan Result) (used : List Token) :
    plan.Yields (fun _ _ _ => True) used fun _ _ => True := by
  induction plan generalizing used with
  | andThen first next ihFirst ihNext =>
      exact (ihFirst used).mono (fun _ _ _ => id) fun used part _ => ihNext part used
  | _ => simp

namespace Reader

variable {Result : Type}

/-- A fault that is recovered from is reported. -/
theorem ok_of_recover {step : Reader Result} {start after : ReaderState} {found : Option Result}
    (grows : Grows step) (recovered : recover step start = .ok found after)
    (quiet : after.errors = start.errors) :
    ∃ result, step start = .ok result after ∧ found = some result := by
  have early := grows start
  unfold recover at recovered
  cases reading : step start with
  | ok result reached =>
      rw [reading] at recovered
      cases recovered
      exact ⟨result, rfl, rfl⟩
  | error stop reached =>
      rw [reading] at recovered early
      cases stop with
      | outOfFuel => cases recovered
      | fault error =>
          cases recovered
          have longer := early.length_le
          have lengths := congrArg List.length quiet
          simp only [ReaderState.report, errorsOf, List.length_append, List.length_singleton] at *
          omega

/-- If the rules yield something, then a plan yields what it can make of that. -/
theorem yields_plan {fuel : Nat} {gives : {Part : Type} → Rule Part → List Token → Part → Prop}
    (rules : ∀ {Part : Type} (rule : Rule Part), Yields (rule.read fuel) (gives rule))
    {Result : Type} (plan : Plan Result) {used : List Token} {goal : List Token → Result → Prop}
    (yields : plan.Yields gives used goal) :
    Yields (plan.read fuel) fun more result => goal (used ++ more) result := by
  -- a step that uses no token
  have still {Result : Type} {goal : List Token → Result → Prop} {used : List Token}
      {result : Result} {start after : ReaderState} (same : start.rest = after.rest)
      (good : goal used result) :
      ∃ more, start.rest = more ++ after.rest ∧ goal (used ++ more) result :=
    ⟨[], same, by rwa [List.append_nil]⟩
  intro start result after reading quiet
  induction plan generalizing used start after with
  | done found =>
      cases reading
      exact still rfl yields
  | andThen first next ihFirst ihNext =>
      obtain ⟨part, middle, one, other⟩ := exists_of_bind reading
      obtain ⟨early, late⟩ := quiet_of_grows (grows_plan (grows_rule fuel) first)
        (grows_plan (grows_rule fuel) (next part)) one other quiet
      obtain ⟨front, before, later⟩ := ihFirst yields start part middle one early
      obtain ⟨back, behind, good⟩ := ihNext part later middle result after other late
      refine ⟨front ++ back, by rw [before, behind, List.append_assoc], ?_⟩
      rwa [List.append_assoc] at good
  | call rule =>
      obtain ⟨more, shape, given⟩ := rules rule start result after reading quiet
      exact ⟨more, shape, yields more result given⟩
  | fail expectation => cases reading
  | limit count cause =>
      rw [Plan.read] at reading
      split at reading
      · cases reading
        simp [ReaderState.report] at quiet
      next room =>
        cases reading
        exact still rfl (yields (Nat.lt_of_not_le room))
  | reportAt token cause =>
      cases reading
      simp [ReaderState.report] at quiet
  | freshId | atEnd =>
      cases reading
      exact still rfl (yields _)
  | upcoming test =>
      rw [Plan.read, upcoming] at reading
      split at reading <;> cases reading <;>
        exact still rfl (yields _)
  | accept? test =>
      rw [Plan.read, accept?] at reading
      split at reading
      next token rest shape =>
        split at reading <;> cases reading
        · exact ⟨[token], shape, yields.2 token (by assumption)⟩
        · exact still rfl yields.1
      next =>
        cases reading
        exact still rfl yields.1
  | acceptAs? classify =>
      rw [Plan.read, acceptAs?] at reading
      split at reading
      next token rest shape =>
        split at reading <;> cases reading
        · exact ⟨[token], shape, yields.2 token _ (by assumption)⟩
        · exact still rfl yields.1
      next =>
        cases reading
        exact still rfl yields.1
  | expect test expectation =>
      rw [Plan.read, expect] at reading
      split at reading
      next token rest shape =>
        split at reading <;> cases reading
        exact ⟨[result], shape, yields result (by assumption)⟩
      next => cases reading
  | declared? stop =>
      obtain ⟨ended, same, looked, reading⟩ := exists_of_bind reading
      cases looked
      split at reading
      · cases reading
        exact still rfl yields.1
      · obtain ⟨found, middle, recovered, reading⟩ := exists_of_bind reading
        cases reading
        obtain ⟨first, read, rfl⟩ := ok_of_recover (grows_rule fuel .declaration) recovered quiet
        obtain ⟨more, shape, given⟩ := rules .declaration start first after read quiet
        exact ⟨more, shape, yields.2 more first given⟩

/-! ## The parts of a reading -/

/-- A step reads some tokens into a result, and reports nothing. -/
structure Clause (step : Reader Result) (start : ReaderState) (tokens : List Token)
    (found : Result) (after : ReaderState) : Prop where
  ran : step start = .ok found after
  rest : start.rest = tokens ++ after.rest
  quiet : after.errors = start.errors

theorem takes_rule : ∀ (fuel : Nat) {Result : Type} (rule : Rule Result),
    Yields (rule.read fuel) fun _ _ => True
  | 0, _, rule => by
      rw [rule.read_zero]
      exact fun _ _ _ reading => by cases reading
  | fuel + 1, _, rule => by
      rw [rule.read_succ]
      exact yields_plan (takes_rule fuel) rule.plan (rule.plan.yields_trivial [])

variable {fuel : Nat} {start after : ReaderState} {found : Result}

theorem exists_clause {plan : Plan Result} (reading : plan.read fuel start = .ok found after)
    (quiet : after.errors = start.errors) :
    ∃ tokens, Clause (plan.read fuel) start tokens found after := by
  have yields := yields_plan (takes_rule fuel) plan (plan.yields_trivial [])
  obtain ⟨tokens, shape, _⟩ := yields start found after reading quiet
  exact ⟨tokens, reading, shape, quiet⟩

/-- A sequence without errors has a first part, behind which it goes on. -/
theorem exists_first {Part : Type} {first : Plan Part} {next : Part → Plan Result}
    (reading : (first >>= next).read fuel start = .ok found after)
    (quiet : after.errors = start.errors) :
    ∃ tokens part middle, Clause (first.read fuel) start tokens part middle ∧
      (next part).read fuel middle = .ok found after ∧ after.errors = middle.errors := by
  obtain ⟨part, middle, one, other⟩ := exists_of_bind reading
  obtain ⟨early, late⟩ := quiet_of_grows (grows_plan (grows_rule fuel) first)
    (grows_plan (grows_rule fuel) (next part)) one other quiet
  obtain ⟨tokens, clause⟩ := exists_clause one early
  exact ⟨tokens, part, middle, clause, other, late⟩

/-- A token that has to be there is all that is read. -/
theorem Clause.tokens_of_expect {test : Token → Bool} {expectation : Expectation} {token : Token}
    {tokens : List Token} (clause : Clause (expect test expectation) start tokens token after) :
    tokens = [token] ∧ test token = true := by
  have ran := clause.ran
  unfold expect at ran
  split at ran
  next taken rest shape =>
    split at ran <;> cases ran
    have same : [token] ++ rest = tokens ++ rest := shape.symm.trans clause.rest
    exact ⟨(List.append_cancel_right same).symm, by assumption⟩
  next => cases ran

end Reader

end LoxLang
