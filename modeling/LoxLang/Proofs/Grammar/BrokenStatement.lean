import LoxLang.Proofs.Grammar.Plans

/-!
# Faults inside of a simple statement

A simple statement is a list of tokens with one semicolon, its last token, and
without braces and `for`. Of such tokens a rule either takes all, the semicolon
included, or it stops in front of the semicolon: a fault never leaves less than
the semicolon. On the way only those errors are reported that do not stop the
reading. Of the single rules it has to be seen that no plan goes on behind the
semicolon (`Rule.stays_plan`).
-/

namespace LoxLang

set_option autoImplicit false

/-- Whether a cause stops the reading of a declaration. The others are reported
and reading goes on. -/
def GrammarCause.isFatal : GrammarCause → Bool
  | .expected _ => true
  | .invalidAssignmentTarget => false
  | .tooManyParameters => false
  | .tooManyArguments => false

namespace Reader

/-- Whether a token can stand in a simple statement in front of its semicolon. -/
def insideStatement (token : Token) : Bool :=
  match token.kind with
  | .punct .semicolon => false
  | .punct .leftBrace => false
  | .punct .rightBrace => false
  | .keyword .kwFor => false
  | _ => true

theorem isPunct_of_kind {token : Token} {mark : Punct} (kind : token.kind = .punct mark)
    (other : Punct) : token.isPunct other = (mark == other) := by
  rw [Token.isPunct, kind]

theorem not_semicolon_of_inside {token : Token} (inside : insideStatement token = true) :
    token.isPunct .semicolon = false := by
  rw [Token.isPunct]
  split
  next mark kind => cases mark <;> first | rfl | simp [insideStatement, kind] at inside
  next => rfl

theorem not_brace_of_inside {token : Token} (inside : insideStatement token = true) :
    token.isPunct .leftBrace = false := by
  rw [Token.isPunct]
  split
  next mark kind => cases mark <;> first | rfl | simp [insideStatement, kind] at inside
  next => rfl

/-- The tokens of a simple statement, or its last ones. -/
inductive Simple : List Token → Prop where
  | last (token : Token) (semicolon : token.kind = .punct .semicolon) : Simple [token]
  | cons (token : Token) {rest : List Token} (inside : insideStatement token = true)
      (simple : Simple rest) : Simple (token :: rest)

theorem Simple.ne_nil {tokens : List Token} (simple : Simple tokens) : tokens ≠ [] := by
  cases simple <;> exact List.cons_ne_nil _ _

variable {Result Other : Type}

/-- What holds as long as the semicolon has not been taken. -/
structure Kept (start after : ReaderState) : Prop where
  simple : Simple after.rest
  suffix : after.rest <:+ start.rest
  minor : ∃ minor : List GrammarError, after.errors = start.errors ++ minor ∧
    ∀ error ∈ minor, error.cause.isFatal = false

theorem Kept.refl {state : ReaderState} (simple : Simple state.rest) : Kept state state :=
  ⟨simple, List.suffix_refl _, [], by simp, by simp⟩

theorem Kept.trans {first second third : ReaderState} (early : Kept first second)
    (late : Kept second third) : Kept first third := by
  obtain ⟨some, before, each⟩ := early.minor
  obtain ⟨others, behind, all⟩ := late.minor
  refine ⟨late.simple, late.suffix.trans early.suffix, some ++ others, ?_, ?_⟩
  · rw [behind, before, List.append_assoc]
  · exact List.forall_mem_append.mpr ⟨each, all⟩

/-- A token inside of the statement has been taken. -/
theorem Kept.taken {state : ReaderState} {token : Token} {rest : List Token}
    (shape : state.rest = token :: rest) (simple : Simple rest) :
    Kept state { state with rest := rest } :=
  ⟨simple, by rw [shape]; exact List.suffix_cons token rest, [], by simp, by simp⟩

/-- What is left once the semicolon has been taken, or while it has not. -/
def Left : Bool → ReaderState → ReaderState → Prop
  | false, start, after => Kept start after
  | true, _, after => after.rest = []

/-- What is left of a simple statement. A fault is fatal and in front of the
semicolon. -/
def Stayed (goal : Result → Bool → Prop) (start : ReaderState) :
    EStateM.Result ReaderStop ReaderState Result → Prop
  | .ok result after => ∃ closed, Left closed start after ∧ goal result closed
  | .error (.fault error) after => Kept start after ∧ error.cause.isFatal = true
  | .error .outOfFuel _ => True

/-- On the tokens of a simple statement the step takes the semicolon, or none
that is not in front of it. -/
def Stays (closing : Bool) (step : Reader Result) : Prop :=
  ∀ start : ReaderState, Simple start.rest →
    Stayed (fun _ closed => closed = closing) start (step start)

theorem Kept.reported {start state : ReaderState} (kept : Kept start state) {error : GrammarError}
    (minor : error.cause.isFatal = false) : Kept start (state.report error) :=
  kept.trans ⟨kept.simple, List.suffix_refl _, [error], rfl, by simpa using minor⟩

/-- A next token is inside of the statement, or it is the semicolon. -/
theorem Kept.next {start now : ReaderState} (kept : Kept start now) : ∃ token rest,
    now.rest = token :: rest ∧
      (insideStatement token = true ∧ Kept start { now with rest := rest } ∨
        token.kind = .punct .semicolon ∧ rest = []) := by
  have simple := kept.simple
  cases shape : now.rest with
  | nil => exact absurd shape simple.ne_nil
  | cons token rest =>
      rw [shape] at simple
      refine ⟨token, rest, rfl, ?_⟩
      cases simple with
      | last _ semicolon => exact .inr ⟨semicolon, rfl⟩
      | cons _ inside simple => exact .inl ⟨inside, kept.trans (.taken shape simple)⟩

theorem cause_located (state : ReaderState) (cause : GrammarCause) :
    (state.located cause).cause = cause := by
  unfold ReaderState.located
  split <;> rfl

theorem Stayed.mono {goal wider : Result → Bool → Prop} {start : ReaderState}
    {outcome : EStateM.Result ReaderStop ReaderState Result} (stayed : Stayed goal start outcome)
    (weaker : ∀ result closed, goal result closed → wider result closed) :
    Stayed wider start outcome := by
  match outcome, stayed with
  | .ok _ _, ⟨closed, left, holds⟩ => exact ⟨closed, left, weaker _ _ holds⟩
  | .error (.fault _) _, stayed => exact stayed
  | .error .outOfFuel _, _ => trivial

/-- What holds from a later state on holds from the start on. -/
theorem Stayed.since {goal : Result → Bool → Prop} {start now : ReaderState}
    {outcome : EStateM.Result ReaderStop ReaderState Result} (stayed : Stayed goal now outcome)
    (kept : Kept start now) : Stayed goal start outcome := by
  match outcome, stayed with
  | .ok _ _, ⟨false, left, holds⟩ => exact ⟨false, kept.trans left, holds⟩
  | .ok _ _, ⟨true, left, holds⟩ => exact ⟨true, left, holds⟩
  | .error (.fault _) _, ⟨after, fatal⟩ => exact ⟨kept.trans after, fatal⟩
  | .error .outOfFuel _, _ => trivial

theorem Stayed.bind {step : Reader Result} {next : Result → Reader Other}
    {goal : Other → Bool → Prop} {start now : ReaderState}
    (first : Stayed (fun result closed => ∀ after, Left closed start after →
      Stayed goal start (next result after)) start (step now)) :
    Stayed goal start ((step >>= next) now) := by
  simp only [Bind.bind, EStateM.bind]
  cases reading : step now with
  | error stop after =>
      rw [reading] at first
      cases stop <;> exact first
  | ok result middle =>
      rw [reading] at first
      obtain ⟨closed, left, later⟩ := first
      exact later middle left

end Reader

/-! ## Plans that stay in a statement -/

open Reader

/-- Whether a rule takes the semicolon of a simple statement as its last token, or
none. Some rules are not come to at all. -/
@[simp] def Rule.closing? {Result : Type} : Rule Result → Option Bool
  | declaration => some true
  | classDeclaration => some true
  | function _ => some true
  | statement => some true
  | ifStatement => some true
  | whileStatement => some true
  | methods => none
  | block => none
  | blockBody => none
  | forStatement => none
  | declarations => none
  | _ => some false

/-- While the semicolon has not been taken, a plan may take it, and once it has
been, the plan does not look for a further token. -/
@[simp] def Plan.Stays {Result : Type} : Plan Result → Bool → (Result → Bool → Prop) → Prop
  | done result, closed, goal => goal result closed
  | andThen first next, closed, goal =>
    first.Stays closed fun part closed => (next part).Stays closed goal
  | call rule, closed, goal =>
    closed = false ∧ match rule.closing? with
      | some closing => ∀ result, goal result closing
      | none => False
  | fail _, closed, _ => closed = false
  | limit _ cause, closed, goal => cause.isFatal = false ∧ closed = false ∧ goal () closed
  | reportAt _ cause, closed, goal => cause.isFatal = false ∧ closed = false ∧ goal () closed
  | freshId, closed, goal => closed = false ∧ ∀ id, goal id closed
  | atEnd, closed, goal => goal closed closed
  | upcoming _, closed, goal => closed = false ∧ ∀ passed, goal passed closed
  | accept? test, closed, goal =>
    goal none closed ∧ (closed = false →
      (∀ token, insideStatement token = true → test token = true → goal (some token) false) ∧
      ∀ lexeme line, test ⟨.punct .semicolon, lexeme, line⟩ = false)
  | acceptAs? classify, closed, goal =>
    closed = false ∧ goal none closed ∧
      (∀ token found, insideStatement token = true → classify token = some found →
        goal (some (token, found)) false) ∧
      ∀ lexeme line, classify ⟨.punct .semicolon, lexeme, line⟩ = none
  | expect test _, closed, goal =>
    closed = false ∧
      (∀ token, insideStatement token = true → test token = true → goal token false) ∧
      ∀ lexeme line, test ⟨.punct .semicolon, lexeme, line⟩ = true →
        goal ⟨.punct .semicolon, lexeme, line⟩ true
  | declared? _, _, _ => False

section Punctuators

variable (other : Punct) (lexeme : String) (line : Nat)

@[simp] theorem isPunct_punct (mark : Punct) :
    Token.isPunct mark ⟨.punct other, lexeme, line⟩ = (other == mark) := rfl

@[simp] theorem isKeyword_punct (word : Keyword) :
    Token.isKeyword word ⟨.punct other, lexeme, line⟩ = false := rfl

@[simp] theorem isIdentifier_punct : Token.isIdentifier ⟨.punct other, lexeme, line⟩ = false := rfl

end Punctuators

variable {Result : Type}

theorem Rule.stays_plan (rule : Rule Result) {closing : Bool}
    (found : rule.closing? = some closing) :
    rule.plan.Stays false fun _ closed => closed = closing := by
  cases rule with
  | expression =>
      cases found
      refine ⟨rfl, fun target => ⟨rfl, fun _ => ⟨fun equals _ _ => ⟨rfl, fun value => ?_⟩, ?_⟩⟩⟩
      · cases target <;> simp [Plan.assignment, GrammarCause.isFatal]
      · simp
  | operand tier =>
      cases found
      cases tier <;> simp
  | operandTail tier left =>
      cases found
      cases tier <;> simp [Tier.isOperator]
  | primary =>
      cases found
      refine ⟨rfl, rfl, fun token head _ _ => ?_, fun _ _ => rfl⟩
      cases head <;> simp
  | statement =>
      cases found
      refine ⟨rfl, ?_, fun token head inside opens => ?_, fun _ _ => rfl⟩
      · simp +contextual [not_semicolon_of_inside]
      · simp only [statementHead?] at opens
        simp only [insideStatement] at inside
        cases head with
        | forWord | brace => split at opens <;> simp_all
        | _ => simp +contextual [not_semicolon_of_inside]
  | declaration =>
      cases found
      refine ⟨rfl, by simp, fun token head _ _ => ?_, fun _ _ => rfl⟩
      cases head <;> simp +contextual [not_semicolon_of_inside]
  | _ =>
      cases found <;> simp +contextual [isUnaryOperator, GrammarCause.isFatal, not_brace_of_inside]

namespace Reader

/-- If the rules stay in a simple statement, then so does a plan. -/
theorem stays_plan {fuel : Nat}
    (rules : ∀ {Result : Type} (rule : Rule Result) (closing : Bool),
      rule.closing? = some closing → Stays closing (rule.read fuel))
    {start : ReaderState} {Result : Type} (plan : Plan Result) {goal : Result → Bool → Prop}
    {closed : Bool} (stays : plan.Stays closed goal) {now : ReaderState}
    (left : Left closed start now) : Stayed goal start (plan.read fuel now) := by
  induction plan generalizing closed now with
  | done result => exact ⟨closed, left, stays⟩
  | andThen first next ihFirst ihNext =>
      refine .bind ((ihFirst stays left).mono fun part closed later after left => ?_)
      exact ihNext part later left
  | call rule =>
      obtain ⟨rfl, goes⟩ := stays
      cases found : rule.closing? with
      | none => rw [found] at goes; exact goes.elim
      | some closing =>
          rw [found] at goes
          have stayed := (rules rule closing found now left.simple).since left
          exact stayed.mono fun result _ same => same ▸ goes result
  | fail expectation =>
      cases stays
      exact ⟨left, by rw [cause_located]; rfl⟩
  | limit count cause =>
      obtain ⟨minor, rfl, goal⟩ := stays
      rw [Plan.read]
      split
      · exact ⟨false, left.reported ((cause_located now cause).symm ▸ minor), goal⟩
      · exact ⟨false, left, goal⟩
  | reportAt token cause =>
      obtain ⟨minor, rfl, goal⟩ := stays
      exact ⟨false, left.reported minor, goal⟩
  | freshId =>
      obtain ⟨rfl, goal⟩ := stays
      exact ⟨false, ⟨left.simple, left.suffix, left.minor⟩, goal _⟩
  | atEnd =>
      cases closed with
      | false =>
          obtain ⟨token, rest, shape, _⟩ := left.next
          refine ⟨false, left, ?_⟩
          rw [shape]
          exact stays
      | true =>
          refine ⟨true, left, ?_⟩
          rw [left]
          exact stays
  | upcoming test =>
      obtain ⟨rfl, goal⟩ := stays
      obtain ⟨token, rest, shape, _⟩ := left.next
      rw [Plan.read, upcoming, shape]
      exact ⟨false, left, goal _⟩
  | accept? test =>
      cases closed with
      | true =>
          rw [Plan.read, accept?, left]
          exact ⟨true, left, stays.1⟩
      | false =>
          have refused := stays.1
          obtain ⟨passes, others⟩ := stays.2 rfl
          obtain ⟨⟨kind, lexeme, line⟩, rest, shape, ⟨inside, kept⟩ | ⟨rfl, rfl⟩⟩ := left.next
          · rw [Plan.read, accept?, shape]
            dsimp only
            split
            next passed => exact ⟨false, kept, passes _ inside passed⟩
            next => exact ⟨false, left, refused⟩
          · rw [Plan.read, accept?, shape]
            simp only [others]
            exact ⟨false, left, refused⟩
  | acceptAs? classify =>
      obtain ⟨rfl, refused, passes, others⟩ := stays
      obtain ⟨⟨kind, lexeme, line⟩, rest, shape, ⟨inside, kept⟩ | ⟨rfl, rfl⟩⟩ := left.next
      · rw [Plan.read, acceptAs?, shape]
        dsimp only
        split
        next found same => exact ⟨false, kept, passes _ found inside same⟩
        next => exact ⟨false, left, refused⟩
      · rw [Plan.read, acceptAs?, shape]
        simp only [others]
        exact ⟨false, left, refused⟩
  | expect test expectation =>
      obtain ⟨rfl, passes, closes⟩ := stays
      obtain ⟨⟨kind, lexeme, line⟩, rest, shape, ⟨inside, kept⟩ | ⟨rfl, rfl⟩⟩ := left.next
      · rw [Plan.read, expect, shape]
        dsimp only
        split
        next passed => exact ⟨false, kept, passes _ inside passed⟩
        next => exact ⟨left, by rw [cause_located]; rfl⟩
      · rw [Plan.read, expect, shape]
        dsimp only
        split
        next passed => exact ⟨true, rfl, closes lexeme line passed⟩
        next => exact ⟨left, by rw [cause_located]; rfl⟩
  | declared? stop => exact stays.elim

theorem stays_rule : ∀ (fuel : Nat) {Result : Type} (rule : Rule Result) (closing : Bool),
    rule.closing? = some closing → Stays closing (rule.read fuel)
  | 0, _, rule, _, _ => by
      rw [rule.read_zero]
      exact fun _ _ => trivial
  | fuel + 1, _, rule, _, found => by
      rw [rule.read_succ]
      exact fun start simple => stays_plan (stays_rule fuel) rule.plan (rule.stays_plan found)
        (Kept.refl simple)

/-- **A fault in a simple statement is in front of its semicolon**, and only
errors that are not fatal have been reported before. -/
theorem stays_declaration (fuel : Nat) : Stays true (declaration fuel) :=
  stays_rule fuel .declaration true rfl

end Reader

end LoxLang
