import LoxLang.Proofs.Grammar.Plans
import LoxLang.Proofs.Grammar.Words

/-!
# Every word of the grammar is read

If the next tokens are a word of a rule, and what is behind them cannot go on
with it, then the rule's reading takes exactly that word and reports nothing.

`Reader.Succeeds` is the condition on a step: it reports nothing, and its result
and what is behind it satisfy a goal. It allows that fuel is used up; that this
never happens is a matter of its own. `Plan.Succeeds` follows a plan through the
tokens, if it is known what the rules do in front of them. `Rule.Fits` says which
words each rule reads, and in front of what. The plan of every rule goes through
these words if the rules it calls on do (`Rule.readsWords`).
-/

namespace LoxLang

set_option autoImplicit false

/-- The next token, if there is one, does not pass a test. -/
def Refuses (test : Token → Bool) (tokens : List Token) : Prop :=
  ∀ token ∈ tokens.head?, test token = false

section Refuses

variable {test : Token → Bool} {token : Token} {word rest tail : List Token}

theorem refuses_cons (fails : test token = false) : Refuses test (token :: rest) := by
  intro found member
  cases member
  exact fails

theorem refuses_of_opensWith {opens : Terminal → Bool} (opening : OpensWith opens word)
    (fails : ∀ token : Token, opens token.terminal = true → test token = false) :
    Refuses test (word ++ tail) := by
  obtain ⟨token, rest, rfl, passes⟩ := opening
  exact refuses_cons (fails token passes)

theorem refuses_mark {opens : Terminal → Bool} {mark : Punct} (opening : OpensWith opens word)
    (fails : opens (.punct mark) = false) : Refuses (Token.isPunct mark) (word ++ tail) :=
  refuses_of_opensWith opening fun _ passes => Token.isPunct_eq_false (terminal_ne passes fails)

/-- A tail that stops an expression has no token that binds so tight. -/
theorem refuses_of_stops {looseness : Nat} (stops : Stops looseness tail)
    (tight : ∀ token : Token, test token = true → token.terminal.looseness ≤ looseness) :
    Refuses test tail := by
  intro token member
  have loose := stops token member
  cases passed : test token with
  | false => rfl
  | true =>
      have := tight token passed
      omega

end Refuses

/-! ## Readings that succeed -/

namespace Reader

variable {Result Other : Type}

/-- The condition on a reading that should report nothing and reach a goal. -/
def Succeeded (errors : List GrammarError) (goal : Result → List Token → Prop) :
    EStateM.Result ReaderStop ReaderState Result → Prop
  | .ok result after => after.errors = errors ∧ goal result after.rest
  | .error (.fault _) _ => False
  | .error .outOfFuel _ => True

/-- In front of some tokens the step reports nothing, and its result and the tokens
that are left satisfy a goal. -/
def Succeeds (step : Reader Result) (input : List Token) (goal : Result → List Token → Prop) :
    Prop :=
  ∀ state : ReaderState, state.rest = input → Succeeded state.errors goal (step state)

variable {input : List Token}

theorem Succeeds.pure {goal : Result → List Token → Prop} {result : Result}
    (good : goal result input) : Succeeds (pure result) input goal := by
  rintro state rfl
  exact ⟨rfl, good⟩

theorem Succeeds.bind {step : Reader Result} {next : Result → Reader Other}
    {holds : Result → List Token → Prop} {goal : Other → List Token → Prop}
    (first : Succeeds step input holds)
    (second : ∀ result rest, holds result rest → Succeeds (next result) rest goal) :
    Succeeds (step >>= next) input goal := by
  intro state start
  have early := first state start
  cases reading : step state with
  | error stop after =>
      rw [reading] at early
      rw [bind_of_error reading]
      cases stop <;> exact early
  | ok result middle =>
      rw [reading] at early
      rw [bind_of_ok reading, ← early.1]
      exact second result middle.rest early.2 middle rfl

theorem succeeds_recover {step : Reader Result} {goal : Option Result → List Token → Prop}
    (succeeds : Succeeds step input fun result => goal (some result)) :
    Succeeds (recover step) input goal := by
  intro state start
  have reached := succeeds state start
  unfold recover
  cases reading : step state with
  | ok result after =>
      rw [reading] at reached
      exact reached
  | error stop after =>
      rw [reading] at reached
      cases stop with
      | fault error => exact reached.elim
      | outOfFuel => trivial

end Reader

/-- By what is known of the rules, a plan goes through an input to a goal and reports
nothing on the way. -/
def Plan.Succeeds
    (known : {Part : Type} → Rule Part → List Token → (Part → List Token → Prop) → Prop)
    {Result : Type} : Plan Result → List Token → (Result → List Token → Prop) → Prop
  | done result, input, goal => goal result input
  | andThen first next, input, goal =>
    first.Succeeds known input fun part rest => (next part).Succeeds known rest goal
  | call rule, input, goal => known rule input goal
  | fail _, _, _ => False
  | limit count _, input, goal => count < listLimit ∧ goal () input
  | reportAt _ _, _, _ => False
  | freshId, input, goal => ∀ id, goal id input
  | atEnd, input, goal => goal input.isEmpty input
  | upcoming test, input, goal => goal (input.head?.any test) input
  | accept? test, input, goal => match input with
    | [] => goal none []
    | token :: rest => if test token then goal (some token) rest else goal none input
  | acceptAs? classify, input, goal => match input with
    | [] => goal none []
    | token :: rest => match classify token with
      | none => goal none input
      | some found => goal (some (token, found)) rest
  | expect test _, input, goal => match input with
    | [] => False
    | token :: rest => test token = true ∧ goal token rest
  | declared? stop, input, goal =>
    if stop || input.isEmpty then goal none input
    else known .declaration input fun found => goal (some (some found))

namespace Reader

/-- If the rules succeed in front of what they are known to, then so does a plan. -/
theorem succeeds_plan {fuel : Nat}
    {known : {Part : Type} → Rule Part → List Token → (Part → List Token → Prop) → Prop}
    (rules : ∀ {Part : Type} (rule : Rule Part) input goal, known rule input goal →
      Succeeds (rule.read fuel) input goal)
    {Result : Type} (plan : Plan Result) {input : List Token}
    {goal : Result → List Token → Prop} (succeeds : plan.Succeeds known input goal) :
    Succeeds (plan.read fuel) input goal := by
  induction plan generalizing input with
  | andThen first next ihFirst ihNext => exact (ihFirst succeeds).bind fun part _ => ihNext part
  | call rule => exact rules rule input goal succeeds
  | fail expectation | reportAt token cause => exact succeeds.elim
  | limit count cause =>
      rw [Plan.read, if_neg (Nat.not_le.mpr succeeds.1)]
      rintro state rfl
      exact ⟨rfl, succeeds.2⟩
  | freshId =>
      rintro state rfl
      exact ⟨rfl, succeeds _⟩
  | done result => exact .pure succeeds
  | atEnd =>
      rintro state rfl
      exact ⟨rfl, succeeds⟩
  | upcoming test =>
      rintro state rfl
      rw [Plan.read, upcoming]
      cases shape : state.rest with
      | nil | cons token rest =>
          rw [Plan.Succeeds, shape] at succeeds
          exact ⟨rfl, shape ▸ succeeds⟩
  | accept? test =>
      rintro state rfl
      rw [Plan.read, accept?]
      cases shape : state.rest with
      | nil =>
          rw [shape] at succeeds
          exact ⟨rfl, shape ▸ succeeds⟩
      | cons token rest =>
          rw [shape] at succeeds
          simp only [Plan.Succeeds] at succeeds ⊢
          split at succeeds
          next passes => exact if_pos passes ▸ ⟨rfl, succeeds⟩
          next fails => exact if_neg fails ▸ ⟨rfl, shape ▸ succeeds⟩
  | acceptAs? classify =>
      rintro state rfl
      rw [Plan.read, acceptAs?]
      cases shape : state.rest with
      | nil =>
          rw [shape] at succeeds
          exact ⟨rfl, shape ▸ succeeds⟩
      | cons token rest =>
          rw [shape] at succeeds
          simp only [Plan.Succeeds] at succeeds ⊢
          cases found : classify token with
          | none =>
              rw [found] at succeeds
              exact ⟨rfl, shape ▸ succeeds⟩
          | some head =>
              rw [found] at succeeds
              exact ⟨rfl, succeeds⟩
  | expect test expectation =>
      rintro state rfl
      rw [Plan.read, expect]
      cases shape : state.rest with
      | nil =>
          rw [shape] at succeeds
          exact succeeds.elim
      | cons token rest =>
          rw [shape] at succeeds
          simp only [Plan.Succeeds] at succeeds ⊢
          exact if_pos succeeds.1 ▸ ⟨rfl, succeeds.2⟩
  | declared? stop =>
      have looked :
          Succeeds atEnd input fun ended rest => ended = input.isEmpty ∧ rest = input := by
        rintro state rfl
        exact ⟨rfl, rfl, rfl⟩
      refine looked.bind ?_
      rintro _ rest ⟨rfl, rfl⟩
      rw [Plan.Succeeds] at succeeds
      split
      next done =>
        rw [if_pos done] at succeeds
        exact .pure succeeds
      next goes =>
        rw [if_neg goes] at succeeds
        have recovered :
            Succeeds (recover (declaration fuel)) rest fun found => goal (some found) :=
          succeeds_recover (rules .declaration _ _ succeeds)
        exact recovered.bind fun found rest reached => .pure reached

end Reader

/-- A rule succeeds with any amount of fuel. -/
def Rule.Succeeds {Result : Type} (found : Rule Result) (input : List Token)
    (goal : Result → List Token → Prop) : Prop :=
  ∀ fuel, Reader.Succeeds (found.read fuel) input goal

theorem Plan.Succeeds.read {Result : Type} {plan : Plan Result} {input : List Token}
    {goal : Result → List Token → Prop} (succeeds : plan.Succeeds Rule.Succeeds input goal)
    (fuel : Nat) : Reader.Succeeds (plan.read fuel) input goal :=
  Reader.succeeds_plan (fun _ _ _ known => known fuel) plan succeeds

theorem Rule.succeeds_of_plan {Result : Type} {found : Rule Result} {input : List Token}
    {goal : Result → List Token → Prop} (succeeds : found.plan.Succeeds Rule.Succeeds input goal) :
    found.Succeeds input goal
  | 0 => by
      rw [found.read_zero]
      exact fun _ _ => trivial
  | fuel + 1 => by
      rw [found.read_succ]
      exact succeeds.read fuel

/-- An expression that is read up to the end of the input. -/
theorem Reader.succeeds_expressionToEnd {input : List Token} {holds : Expr → Prop}
    (succeeds : ∀ goal : Expr → List Token → Prop, (∀ found, holds found → goal found []) →
      Rule.expression.Succeeds input goal) (fuel : Nat) :
    Succeeds (expressionToEnd fuel) input fun found _ => holds found := by
  rw [← Plan.read_expressionToEnd]
  refine Plan.Succeeds.read ?_ fuel
  exact succeeds _ fun found good => good

namespace Plan

/-! ### The steps of a plan -/

section Steps

variable {known : {Part : Type} → Rule Part → List Token → (Part → List Token → Prop) → Prop}
  {Part Result : Type} {test : Token → Bool} {mark : Punct} {token : Token}
  {input rest : List Token} {goal : Result → List Token → Prop}

theorem succeeds_accept {next : Option Token → Plan Result} (passes : test token = true)
    (goes : (next (some token)).Succeeds known rest goal) :
    (accept? test >>= next).Succeeds known (token :: rest) goal :=
  (if_pos passes).mpr goes

theorem succeeds_refuse {next : Option Token → Plan Result} (refuses : Refuses test input)
    (goes : (next none).Succeeds known input goal) :
    (accept? test >>= next).Succeeds known input goal := by
  cases input with
  | nil => exact goes
  | cons token rest => exact (if_neg (Bool.eq_false_iff.mp (refuses token rfl))).mpr goes

theorem succeeds_acceptAs {Class : Type} {classify : Token → Option Class} {found : Class}
    {next : Option (Token × Class) → Plan Result} (passes : classify token = some found)
    (goes : (next (some (token, found))).Succeeds known rest goal) :
    (acceptAs? classify >>= next).Succeeds known (token :: rest) goal := by
  simp only [bind_eq, Plan.Succeeds, passes]
  exact goes

theorem succeeds_refuseAs {Class : Type} {classify : Token → Option Class}
    {next : Option (Token × Class) → Plan Result}
    (refuses : Refuses (fun token => (classify token).isSome) input)
    (goes : (next none).Succeeds known input goal) :
    (acceptAs? classify >>= next).Succeeds known input goal := by
  cases input with
  | nil => exact goes
  | cons token rest =>
      have fails : classify token = none := by simpa using refuses token rfl
      simp only [bind_eq, Plan.Succeeds, fails]
      exact goes

theorem succeeds_upcoming {next : Bool → Plan Result} (passes : test token = true)
    (goes : (next true).Succeeds known (token :: rest) goal) :
    (upcoming test >>= next).Succeeds known (token :: rest) goal := by
  rw [← passes] at goes
  exact goes

theorem succeeds_notUpcoming {next : Bool → Plan Result} (refuses : Refuses test input)
    (goes : (next false).Succeeds known input goal) :
    (upcoming test >>= next).Succeeds known input goal := by
  cases input with
  | nil => exact goes
  | cons token rest =>
      rw [← refuses token rfl] at goes
      exact goes

theorem succeeds_missing {missing : Part} {plan : Plan Part} {next : Part → Plan Result}
    (passes : token.isPunct mark = true)
    (goes : (next missing).Succeeds known (token :: rest) goal) :
    (unlessNext mark missing plan >>= next).Succeeds known (token :: rest) goal := by
  show (unlessNext mark missing plan).Succeeds known _ fun part rest =>
    (next part).Succeeds known rest goal
  exact succeeds_upcoming passes goes

theorem succeeds_present {missing : Part} {plan : Plan Part} {next : Part → Plan Result}
    (refuses : Refuses (Token.isPunct mark) input)
    (goes : (plan >>= next).Succeeds known input goal) :
    (unlessNext mark missing plan >>= next).Succeeds known input goal := by
  show (unlessNext mark missing plan).Succeeds known _ fun part rest =>
    (next part).Succeeds known rest goal
  exact succeeds_notUpcoming refuses goes

end Steps

end Plan

/-! ## Words and what is behind them -/

open Phrase Reader

/-- The tail does not go on with an expression in any way. -/
abbrev EndsExpression (tail : List Token) : Prop := Stops (Terminal.punct .equal).looseness tail

theorem endsExpression_cons {token : Token} {rest : List Token}
    (last : (Terminal.punct .equal).looseness < token.terminal.looseness) :
    EndsExpression (token :: rest) :=
  stops_cons last

/-- An expression ends in front of every punctuator that closes a clause. -/
theorem endsExpression_mark {token : Token} {rest : List Token} {mark : Punct}
    (same : token.terminal = .punct mark)
    (last : (Terminal.punct .equal).looseness < (Terminal.punct mark).looseness) :
    EndsExpression (token :: rest) :=
  endsExpression_cons (by rw [same]; exact last)

/-- The tail begins with a punctuator. -/
def ClosedBy (mark : Punct) (tail : List Token) : Prop :=
  ∃ token rest, tail = token :: rest ∧ token.terminal = .punct mark

/-- A call or a property read behind an expression. -/
def suffix : Phrase :=
  oneOf (seq [mark .leftParen, optional (rule .arguments), mark .rightParen])
    [seq [mark .dot, name]]

/-- The words behind the first one of a condition or a loop. -/
def conditionHead : Phrase := seq [mark .leftParen, rule .expression, mark .rightParen]

/-- The words behind the first one of a counting loop. -/
def clausesHead : Phrase :=
  seq [mark .leftParen, oneOf (rule .varDecl) [rule .exprStmt, mark .semicolon],
    optional (rule .expression), mark .semicolon, optional (rule .expression), mark .rightParen]

/-- Whether a tree can be assigned to. -/
def isTarget : Expr → Bool
  | .var _ => true
  | .get _ _ => true
  | _ => false

/-- The words that are read into a tree that can be assigned to. -/
inductive TargetWord : List Token → Prop where
  | name {token : Token} (named : token.terminal = .identifier) : TargetWord [token]
  | property {front : List Token} {dot last : Token} (call : (rule .call).Covers front)
      (point : dot.terminal = .punct .dot) (named : last.terminal = .identifier) :
      TargetWord (front ++ [dot, last])

namespace Reader

/-! ### First tokens -/

variable {token : Token}

/-- The start of a primary expression that a terminal is, literals apart. -/
def primaryWord? : Terminal → Option PrimaryHead
  | .identifier => some .name
  | .keyword .kwThis => some .thisWord
  | .keyword .kwSuper => some .superWord
  | .punct .leftParen => some .group
  | _ => none

theorem primaryHead?_eq {found : Terminal} {head : PrimaryHead} (same : token.terminal = found)
    (opens : primaryWord? found = some head) : primaryHead? token = some head := by
  subst same
  unfold Token.terminal at opens
  unfold primaryHead?
  generalize token.kind = kind at opens
  cases kind with
  | identifier => exact opens
  | keyword word => cases word <;> first | exact opens | cases opens
  | punct mark => cases mark <;> exact opens
  | _ => cases opens

theorem primaryHead_literal_of_mem
    (member : token.terminal ∈ [.number, .string, .keyword .kwTrue, .keyword .kwFalse,
      .keyword .kwNil]) : ∃ value, primaryHead? token = some (.literal value) := by
  unfold primaryHead?
  unfold Token.terminal at member
  split at member <;> simp_all
  rcases member with rfl | rfl | rfl <;> exact ⟨_, rfl⟩

theorem declarationHead?_eq_none (opens : token.terminal.opensStatement = true) :
    (declarationHead? token).isSome = false := by
  unfold declarationHead?
  unfold Token.terminal at opens
  split <;> simp_all [Terminal.opensStatement, Terminal.opensExpression]

/-- The opening of a declaration that a terminal is. -/
def declarationWord? : Terminal → Option DeclarationHead
  | .keyword .kwClass => some .classWord
  | .keyword .kwFun => some .funWord
  | .keyword .kwVar => some .varWord
  | _ => none

theorem declarationHead?_eq {found : Terminal} (same : token.terminal = found) :
    declarationHead? token = declarationWord? found := by
  subst same
  unfold declarationHead? Token.terminal
  cases token.kind with
  | keyword word => cases word <;> rfl
  | _ => rfl

theorem statementHead?_eq_none (opens : token.terminal.opensExpression = true) :
    (statementHead? token).isSome = false := by
  unfold statementHead?
  unfold Token.terminal at opens
  split <;> simp_all [Terminal.opensExpression]

/-- The opening of a statement that a terminal is. -/
def statementWord? : Terminal → Option StatementHead
  | .keyword .kwFor => some .forWord
  | .keyword .kwIf => some .ifWord
  | .keyword .kwWhile => some .whileWord
  | .keyword .kwReturn => some .returnWord
  | .keyword .kwPrint => some .printWord
  | .punct .leftBrace => some .brace
  | _ => none

theorem statementHead?_eq {found : Terminal} (same : token.terminal = found) :
    statementHead? token = statementWord? found := by
  subst same
  unfold statementHead? Token.terminal
  cases token.kind with
  | keyword word => cases word <;> rfl
  | punct mark => cases mark <;> rfl
  | _ => rfl

end Reader

/-- A word of a rule in front of a tail that does not go on with it. -/
def Rule.Fits {Result : Type} : Rule Result → List Token → List Token → Prop
  | expression, word, tail => (rule .expression).Covers word ∧ EndsExpression tail
  | operand tier, word, tail =>
    (rule (Tier.nonterminal tier)).Covers word ∧ Stops (Tier.looseness tier) tail
  | operandTail tier _, word, tail =>
    (repeated (both tier.operator (rule (Tier.nonterminal tier.tighter?)))).Covers word ∧
      Stops (Tier.looseness (some tier)) tail
  | unary, word, tail => (rule .unary).Covers word ∧ Stops 0 tail
  | callTail _, word, tail => (repeated suffix).Covers word ∧ Stops 0 tail
  | arguments count, word, tail =>
    count < listLimit ∧ (listFrom (rule .expression) count).Covers word ∧
      ClosedBy .rightParen tail
  | primary, word, _ => (rule .primary).Covers word
  | parameters count, word, tail =>
    count < listLimit ∧ (listFrom name count).Covers word ∧ ClosedBy .rightParen tail
  | declaration, word, tail => (rule .declaration).Covers word ∧ ¬ startsElse tail
  | classDeclaration, word, _ => (seq [name, optional (seq [mark .less, name]),
      mark .leftBrace, repeated (rule .function), mark .rightBrace]).Covers word
  | methods, word, tail => (repeated (rule .function)).Covers word ∧ ClosedBy .rightBrace tail
  | function _, word, _ => (rule .function).Covers word
  | block, word, _ => (both (repeated (rule .declaration)) (mark .rightBrace)).Covers word
  | blockBody, word, tail =>
    (repeated (rule .declaration)).Covers word ∧ ClosedBy .rightBrace tail
  | statement, word, tail => Complete word tail
  | forStatement, word, tail =>
    ∃ front body, word = front ++ body ∧ clausesHead.Covers front ∧ Complete body tail
  | ifStatement, word, tail =>
    ∃ front branch, word = front ++ branch ∧ conditionHead.Covers front ∧
      (Complete branch tail ∧ ¬ startsElse tail ∨
        ∃ one other two, branch = one ++ other :: two ∧ other.terminal = .keyword .kwElse ∧
          Complete one (other :: two ++ tail) ∧ Complete two tail)
  | whileStatement, word, tail =>
    ∃ front body, word = front ++ body ∧ conditionHead.Covers front ∧ Complete body tail
  | declarations, word, tail => (repeated (rule .declaration)).Covers word ∧ tail = []

/-- What is known of the rules: in front of a word that fits they go to its end.
Some words are read into a tree that can be assigned to, and where nothing goes on
with an expression it is left as it is. -/
inductive Rule.Accepts : {Result : Type} → Rule Result → List Token →
    (Result → List Token → Prop) → Prop where
  | word {Result : Type} {found : Rule Result} {word tail : List Token}
      {goal : Result → List Token → Prop} (fits : found.Fits word tail)
      (goes : ∀ result, goal result tail) : Accepts found (word ++ tail) goal
  | target {tier : Option Tier} {word tail : List Token} {goal : Expr → List Token → Prop}
      (target : TargetWord word) (stops : Stops (Tier.looseness tier) tail)
      (goes : ∀ result, isTarget result = true → goal result tail) :
      Accepts (operand tier) (word ++ tail) goal
  | unaryTarget {word tail : List Token} {goal : Expr → List Token → Prop}
      (target : TargetWord word) (stops : Stops 0 tail)
      (goes : ∀ result, isTarget result = true → goal result tail) :
      Accepts unary (word ++ tail) goal
  | name {token : Token} {tail : List Token} {goal : Expr → List Token → Prop}
      (named : token.terminal = .identifier)
      (goes : ∀ result, isTarget result = true → goal result tail) :
      Accepts primary (token :: tail) goal
  | property {callee : Expr} {word tail : List Token} {dot last : Token}
      {goal : Expr → List Token → Prop} (covers : (repeated suffix).Covers word)
      (point : dot.terminal = .punct .dot) (named : last.terminal = .identifier)
      (stops : Stops 0 tail) (goes : ∀ result, isTarget result = true → goal result tail) :
      Accepts (callTail callee) (word ++ dot :: last :: tail) goal
  | noOperator {tier : Tier} {left : Expr} {tail : List Token} {goal : Expr → List Token → Prop}
      (stops : Stops (Tier.looseness (some tier)) tail) (goes : goal left tail) :
      Accepts (operandTail tier left) tail goal
  | noSuffix {callee : Expr} {tail : List Token} {goal : Expr → List Token → Prop}
      (stops : Stops 0 tail) (goes : goal callee tail) : Accepts (callTail callee) tail goal

namespace Rule

/-- The plan of a rule goes through every word that fits, if the rules are known to. -/
def ReadsWords {Result : Type} (found : Rule Result) : Prop :=
  ∀ ⦃word tail : List Token⦄ ⦃goal : Result → List Token → Prop⦄, found.Fits word tail →
    (∀ result, goal result tail) → found.plan.Succeeds Accepts (word ++ tail) goal

/-! ## Expressions -/

section Expressions

variable {word tail : List Token} {goal : Expr → List Token → Prop}

theorem succeeds_assignment {target value : Expr} {equals : Token} (found : isTarget target = true)
    (goes : ∀ result, goal result tail) :
    (Plan.assignment target equals value).Succeeds Accepts tail goal := by
  cases target with
  | var occurrence => exact fun id => goes _
  | get object name => exact goes _
  | _ => cases found

/-- An assignment is a target, an equals sign and a value. -/
theorem expression_cases (covers : (rule .expression).Covers word) :
    (rule .logicOr).Covers word ∨ ∃ front equals back, word = front ++ equals :: back ∧
      TargetWord front ∧ equals.terminal = .punct .equal ∧
        (rule .expression).Covers back := by
  rcases covers_either.mp (covers_rule.mp (covers_rule.mp covers)) with assigned | plain
  · obtain ⟨front, _, rfl, object, rest⟩ := covers_both.mp assigned
    obtain ⟨last, _, rfl, named, rest⟩ := covers_behind.mp rest
    obtain ⟨equals, value, rfl, equal, assignment⟩ := covers_behind.mp rest
    rcases covers_optional.mp object with rfl | dotted
    · exact .inr ⟨[last], equals, value, rfl, .name named, equal, covers_rule.mpr assignment⟩
    · obtain ⟨called, _, rfl, call, mark⟩ := covers_both.mp dotted
      obtain ⟨dot, rfl, point⟩ := covers_terminal.mp mark
      exact .inr ⟨called ++ [dot, last], equals, value, by simp, .property call point named, equal,
        covers_rule.mpr assignment⟩
  · exact .inl plain

theorem readsWords_expression : expression.ReadsWords := by
  intro word tail goal ⟨covers, ends⟩ goes
  rcases expression_cases covers with plain | ⟨front, equals, back, rfl, target, equal, value⟩
  · refine Accepts.word ⟨plain, ends.mono (by decide)⟩ fun found => ?_
    refine Plan.succeeds_refuse (refuses_of_stops ends fun token passes => ?_) (goes found)
    exact Nat.le_of_eq (by rw [Token.isPunct_iff.mp passes])
  · rw [List.append_assoc, List.cons_append]
    refine Accepts.target target (stops_cons (by rw [equal]; decide)) fun found good => ?_
    refine Plan.succeeds_accept (Token.isPunct_iff.mpr equal) ?_
    exact Accepts.word ⟨value, ends⟩ fun _ => succeeds_assignment good goes

theorem readsWords_operand (tier : Option Tier) : (operand tier).ReadsWords := by
  intro word tail goal ⟨covers, stops⟩ goes
  cases tier with
  | none => exact Accepts.word ⟨covers, stops⟩ goes
  | some tier =>
      rw [covers_rule, Tier.expansion_nonterminal] at covers
      obtain ⟨front, back, rfl, one, many⟩ := covers_both.mp covers
      rw [List.append_assoc]
      refine Accepts.word ⟨one, stops_operators many stops⟩ fun left => ?_
      exact Accepts.word ⟨many, stops⟩ goes

theorem succeeds_target {tier : Option Tier} (target : TargetWord word)
    (stops : Stops (Tier.looseness tier) tail)
    (goes : ∀ result, isTarget result = true → goal result tail) :
    (operand tier).plan.Succeeds Accepts (word ++ tail) goal := by
  cases tier with
  | none => exact Accepts.unaryTarget target stops goes
  | some tier =>
      have below := tier.looseness_tighter
      refine Accepts.target target (stops.mono (by omega)) fun left good => ?_
      exact Accepts.noOperator stops (goes left good)

theorem succeeds_noOperator {tier : Tier} {left : Expr}
    (stops : Stops (Tier.looseness (some tier)) tail) (goes : goal left tail) :
    (operandTail tier left).plan.Succeeds Accepts tail goal := by
  refine Plan.succeeds_refuse (refuses_of_stops stops fun token passes => ?_) goes
  exact Nat.le_of_eq (Tier.isOperator_iff_looseness.mp passes)

theorem readsWords_operandTail (tier : Tier) (left : Expr) :
    (operandTail tier left).ReadsWords := by
  intro word tail goal ⟨covers, stops⟩ goes
  rcases covers_repeated.mp covers with rfl | ⟨_, back, rfl, once, many⟩
  · exact succeeds_noOperator stops (goes left)
  · obtain ⟨_, right, rfl, operator, operand⟩ := covers_both.mp once
    obtain ⟨token, rfl, operates⟩ := Tier.covers_operator.mp operator
    simp only [List.append_assoc, List.singleton_append]
    refine Plan.succeeds_accept operates ?_
    refine Accepts.word ⟨operand, stops_operators many stops⟩ fun right => ?_
    exact Accepts.word ⟨many, stops⟩ goes

/-- What opens a call is no unary operator. -/
theorem refuses_unaryOperator {rest : List Token} (call : (rule .call).Covers word) :
    Refuses isUnaryOperator (word ++ rest) := by
  refine refuses_of_opensWith (call_opens call) fun token passes => ?_
  simp only [Bool.and_eq_true, bne_iff_ne] at passes
  cases operator : isUnaryOperator token with
  | false => rfl
  | true =>
      simp only [isUnaryOperator, Bool.or_eq_true, Token.isPunct_iff] at operator
      rcases operator with bang | minus
      · exact absurd bang passes.1.2
      · exact absurd minus passes.2

theorem readsWords_unary : unary.ReadsWords := by
  intro word tail goal ⟨covers, stops⟩ goes
  rcases covers_either.mp (covers_rule.mp covers) with operated | call
  · obtain ⟨_, rest, rfl, operator, operand⟩ := covers_both.mp operated
    obtain ⟨token, rfl, operates⟩ := covers_unaryOperator.mp operator
    refine Plan.succeeds_accept operates ?_
    exact Accepts.word ⟨operand, stops⟩ fun _ => goes _
  · refine Plan.succeeds_refuse (refuses_unaryOperator call) ?_
    obtain ⟨front, back, rfl, first, many⟩ := covers_both.mp (covers_rule.mp call)
    rw [List.append_assoc]
    exact Accepts.word first fun callee => Accepts.word ⟨many, stops⟩ goes

theorem succeeds_unaryTarget (target : TargetWord word) (stops : Stops 0 tail)
    (goes : ∀ result, isTarget result = true → goal result tail) :
    unary.plan.Succeeds Accepts (word ++ tail) goal := by
  cases target with
  | @name token named =>
      have operand : isUnaryOperator token = false := by
        simp [isUnaryOperator, Token.isPunct_eq_false, named]
      refine Plan.succeeds_refuse (refuses_cons operand) ?_
      exact Accepts.name named fun callee good => Accepts.noSuffix stops (goes callee good)
  | @property _ dot last call point named =>
      rw [List.append_assoc]
      refine Plan.succeeds_refuse (refuses_unaryOperator call) ?_
      obtain ⟨front, back, rfl, first, many⟩ := covers_both.mp (covers_rule.mp call)
      rw [List.append_assoc]
      exact Accepts.word first fun callee => Accepts.property many point named stops goes

theorem succeeds_noSuffix {callee : Expr} (stops : Stops 0 tail) (goes : goal callee tail) :
    (callTail callee).plan.Succeeds Accepts tail goal := by
  have tight : ∀ mark : Punct, (Terminal.punct mark).looseness = 0 →
      Refuses (Token.isPunct mark) tail := by
    intro mark none
    refine refuses_of_stops stops fun token passes => ?_
    exact Nat.le_of_eq (by rw [Token.isPunct_iff.mp passes, none])
  exact Plan.succeeds_refuse (tight _ rfl) (Plan.succeeds_refuse (tight _ rfl) goes)

/-- A property read behind an expression, and what is behind it. -/
theorem succeeds_dot {callee : Expr} {dot last : Token} {rest : List Token}
    (point : dot.terminal = .punct .dot) (named : last.terminal = .identifier)
    (goes : (callTail (.get callee last)).Accepts rest goal) :
    (callTail callee).plan.Succeeds Accepts (dot :: last :: rest) goal := by
  refine Plan.succeeds_refuse (refuses_cons (Token.isPunct_eq_false (by simp [point]))) ?_
  refine Plan.succeeds_accept (Token.isPunct_iff.mpr point) ?_
  exact ⟨Token.isIdentifier_iff.mpr named, goes⟩

/-- A call or a property read behind an expression, and what is behind it. -/
theorem succeeds_suffix {callee : Expr} {front rest : List Token} (covers : suffix.Covers front)
    (goes : ∀ found, (callTail found).Accepts rest goal) :
    (callTail callee).plan.Succeeds Accepts (front ++ rest) goal := by
  rcases covers_either.mp covers with called | read
  · obtain ⟨paren, _, rfl, opens, inner⟩ := covers_behind.mp called
    obtain ⟨arguments, _, rfl, list, last⟩ := covers_both.mp inner
    obtain ⟨close, rfl, closes⟩ := covers_terminal.mp last
    have closing := Token.isPunct_iff.mpr closes
    simp only [List.cons_append, List.append_assoc, List.nil_append]
    refine Plan.succeeds_accept (Token.isPunct_iff.mpr opens) ?_
    rcases covers_optional.mp list with rfl | some
    · exact Plan.succeeds_missing closing ⟨closing, goes _⟩
    · have list := covers_rule.mp some
      have first : OpensWith Terminal.opensExpression arguments :=
        .of_both list fun _ => expression_opens
      refine Plan.succeeds_present (refuses_mark first rfl) ?_
      exact Accepts.word ⟨by decide, list, close, rest, rfl, closes⟩ fun values => ⟨closing, goes _⟩
  · obtain ⟨dot, _, rfl, point, last⟩ := covers_behind.mp read
    obtain ⟨token, rfl, named⟩ := covers_terminal.mp last
    exact succeeds_dot point named (goes _)

theorem readsWords_callTail (callee : Expr) : (callTail callee).ReadsWords := by
  intro word tail goal ⟨covers, stops⟩ goes
  rcases covers_repeated.mp covers with rfl | ⟨front, back, rfl, once, many⟩
  · exact succeeds_noSuffix stops (goes callee)
  · rw [List.append_assoc]
    exact succeeds_suffix once fun found => .word ⟨many, stops⟩ goes

theorem succeeds_property {callee : Expr} {dot last : Token}
    (covers : (repeated suffix).Covers word) (point : dot.terminal = .punct .dot)
    (named : last.terminal = .identifier) (stops : Stops 0 tail)
    (goes : ∀ result, isTarget result = true → goal result tail) :
    (callTail callee).plan.Succeeds Accepts (word ++ dot :: last :: tail) goal := by
  rcases covers_repeated.mp covers with rfl | ⟨front, back, rfl, once, many⟩
  · exact succeeds_dot point named (.noSuffix stops (goes _ rfl))
  · rw [List.append_assoc]
    exact succeeds_suffix once fun found => .property many point named stops goes

theorem succeeds_name {token : Token} (named : token.terminal = .identifier)
    (goes : ∀ result, isTarget result = true → goal result tail) :
    primary.plan.Succeeds Accepts (token :: tail) goal := by
  refine Plan.succeeds_acceptAs (primaryHead?_eq named rfl) ?_
  exact fun id => goes _ rfl

theorem readsWords_primary : primary.ReadsWords := by
  intro word tail goal covers goes
  obtain ⟨phrase, member, derives⟩ := covers_oneOf.mp (covers_rule.mp covers)
  simp only [List.mem_cons, List.not_mem_nil, or_false] at member
  obtain rfl | rfl | rfl | rfl | rfl | rfl | rfl | rfl | rfl := member
  case inr.inr.inr.inr.inr.inl =>
    obtain ⟨token, rfl, same⟩ := covers_terminal.mp derives
    refine Plan.succeeds_acceptAs (primaryHead?_eq same rfl) ?_
    exact fun id => goes _
  case inr.inr.inr.inr.inr.inr.inl =>
    obtain ⟨token, rfl, named⟩ := covers_terminal.mp derives
    exact succeeds_name named fun found _ => goes found
  case inr.inr.inr.inr.inr.inr.inr.inl =>
    obtain ⟨paren, _, rfl, begins, rest⟩ := covers_behind.mp derives
    obtain ⟨inner, _, rfl, value, last⟩ := covers_both.mp rest
    obtain ⟨close, rfl, closes⟩ := covers_terminal.mp last
    simp only [List.cons_append, List.append_assoc, List.nil_append]
    refine Plan.succeeds_acceptAs (primaryHead?_eq begins rfl) ?_
    refine Accepts.word ⟨value, endsExpression_mark closes (by decide)⟩ fun found => ?_
    exact ⟨Token.isPunct_iff.mpr closes, goes _⟩
  case inr.inr.inr.inr.inr.inr.inr.inr =>
    obtain ⟨token, _, rfl, same, rest⟩ := covers_behind.mp derives
    obtain ⟨dot, _, rfl, point, last⟩ := covers_behind.mp rest
    obtain ⟨method, rfl, named⟩ := covers_terminal.mp last
    refine Plan.succeeds_acceptAs (primaryHead?_eq same rfl) ?_
    exact ⟨Token.isPunct_iff.mpr point, Token.isIdentifier_iff.mpr named, fun id => goes _⟩
  all_goals
    obtain ⟨token, rfl, same⟩ := covers_terminal.mp derives
    obtain ⟨value, opens⟩ : ∃ value, primaryHead? token = some (.literal value) :=
      primaryHead_literal_of_mem (by simp [same])
    exact Plan.succeeds_acceptAs opens (goes _)

end Expressions

/-- A list ends in front of its closing parenthesis. -/
theorem refuses_comma {tail : List Token} (closed : ClosedBy .rightParen tail) :
    Refuses (Token.isPunct .comma) tail := by
  obtain ⟨token, rest, rfl, closes⟩ := closed
  exact refuses_cons (Token.isPunct_eq_false (by simp [closes]))

theorem readsWords_arguments (count : Nat) : (arguments count).ReadsWords := by
  intro word tail goal ⟨room, covers, closed⟩ goes
  refine ⟨room, ?_⟩
  rcases covers_listFrom.mp covers with one |
    ⟨front, comma, back, rfl, more, one, separates, others⟩
  · refine Accepts.word ⟨one, ?_⟩ fun first => Plan.succeeds_refuse (refuses_comma closed) (goes _)
    obtain ⟨paren, rest, rfl, closes⟩ := closed
    exact endsExpression_mark closes (by decide)
  · rw [List.append_assoc, List.cons_append]
    have separator := Token.isPunct_iff.mp separates
    refine Accepts.word ⟨one, endsExpression_mark separator (by decide)⟩ fun first => ?_
    refine Plan.succeeds_accept separates ?_
    exact Accepts.word ⟨more, others, closed⟩ fun _ => goes _

/-! ## Statements -/

section Clauses

variable {word tail : List Token} {token : Token}

theorem succeeds_expressionUnless {Result : Type} {mark : Punct} {next : Option Expr → Plan Result}
    {goal : Result → List Token → Prop} (covers : (optional (rule .expression)).Covers word)
    (same : token.terminal = .punct mark)
    (last : (Terminal.punct .equal).looseness < (Terminal.punct mark).looseness)
    (fails : (Terminal.punct mark).opensExpression = false)
    (goes : ∀ found, (next found).Succeeds Accepts (token :: tail) goal) :
    (Plan.expressionUnless mark >>= next).Succeeds Accepts (word ++ token :: tail) goal := by
  rcases covers_optional.mp covers with rfl | some
  · exact Plan.succeeds_missing (Token.isPunct_iff.mpr same) (goes none)
  · refine Plan.succeeds_present (refuses_mark (expression_opens some) fails) ?_
    exact Accepts.word ⟨some, endsExpression_mark same last⟩ fun found => goes _

/-- A value and the semicolon behind it, as several statements end. -/
theorem succeeds_ended {Result : Type} {next : Expr → Token → Plan Result}
    {expectation : Expectation} {goal : Result → List Token → Prop}
    (covers : (both (rule .expression) (mark .semicolon)).Covers word)
    (goes : ∀ value last, (next value last).Succeeds Accepts tail goal) :
    (do
      let value ← Plan.call .expression
      let last ← Plan.expectPunct .semicolon expectation
      next value last).Succeeds Accepts (word ++ tail) goal := by
  obtain ⟨value, _, rfl, inner, rest⟩ := covers_both.mp covers
  obtain ⟨last, rfl, ends⟩ := covers_terminal.mp rest
  rw [List.append_assoc]
  refine Accepts.word ⟨inner, endsExpression_mark ends (by decide)⟩ fun found => ?_
  exact ⟨Token.isPunct_iff.mpr ends, goes _ _⟩

theorem succeeds_returnStatement {keyword : Token} {goal : Stmt → List Token → Prop}
    (covers : (both (optional (rule .expression)) (mark .semicolon)).Covers word)
    (goes : ∀ found, goal found tail) :
    (Plan.returnStatement keyword).Succeeds Accepts (word ++ tail) goal := by
  obtain ⟨value, _, rfl, inner, rest⟩ := covers_both.mp covers
  obtain ⟨last, rfl, ends⟩ := covers_terminal.mp rest
  rw [List.append_assoc]
  refine succeeds_expressionUnless inner ends (by decide) rfl fun found => ?_
  exact ⟨Token.isPunct_iff.mpr ends, goes _⟩

theorem succeeds_varDeclaration {goal : Stmt → List Token → Prop}
    (covers : (seq [name, optional (seq [mark .equal, rule .expression]),
      mark .semicolon]).Covers word) (goes : ∀ found, goal found tail) :
    Plan.varDeclaration.Succeeds Accepts (word ++ tail) goal := by
  obtain ⟨token, _, rfl, named, rest⟩ := covers_behind.mp covers
  obtain ⟨value, _, rfl, inner, rest⟩ := covers_both.mp rest
  obtain ⟨last, rfl, ends⟩ := covers_terminal.mp rest
  have ending := Token.isPunct_iff.mpr ends
  rw [List.cons_append, List.append_assoc]
  refine ⟨Token.isIdentifier_iff.mpr named, ?_⟩
  rcases covers_optional.mp inner with rfl | present
  · refine Plan.succeeds_refuse (refuses_cons (Token.isPunct_eq_false (by simp [ends]))) ?_
    exact ⟨ending, goes _⟩
  · obtain ⟨equals, value, rfl, equal, expression⟩ := covers_behind.mp present
    refine Plan.succeeds_accept (Token.isPunct_iff.mpr equal) ?_
    refine Accepts.word ⟨expression, endsExpression_mark ends (by decide)⟩ fun found => ?_
    exact ⟨ending, goes _⟩

theorem succeeds_forInitializer {goal : Option Stmt → List Token → Prop}
    (covers : (oneOf (rule .varDecl) [rule .exprStmt, mark .semicolon]).Covers word)
    (goes : ∀ found, goal found tail) :
    Plan.forInitializer.Succeeds Accepts (word ++ tail) goal := by
  rcases covers_either.mp covers with declared | other
  · obtain ⟨keyword, rest, rfl, same, inner⟩ := covers_behind.mp (covers_rule.mp declared)
    refine Plan.succeeds_refuse (refuses_cons (Token.isPunct_eq_false (by simp [same]))) ?_
    refine Plan.succeeds_accept (Token.isKeyword_iff.mpr same) ?_
    exact succeeds_varDeclaration inner fun _ => goes _
  · rcases covers_either.mp other with value | empty
    · have opens : OpensWith Terminal.opensExpression word :=
        .of_both (covers_rule.mp value) fun _ => expression_opens
      refine Plan.succeeds_refuse (refuses_mark opens rfl) ?_
      refine Plan.succeeds_refuse (refuses_of_opensWith opens fun _ passes => ?_) ?_
      · exact Token.isKeyword_eq_false (terminal_ne passes rfl)
      · exact succeeds_ended (covers_rule.mp value) fun _ _ => goes _
    · obtain ⟨last, rfl, ends⟩ := covers_terminal.mp empty
      exact Plan.succeeds_accept (Token.isPunct_iff.mpr ends) (goes _)

theorem succeeds_superclass {Result : Type} {next : Option Expr → Plan Result}
    {goal : Result → List Token → Prop}
    (covers : (optional (seq [mark .less, name])).Covers word)
    (refuses : Refuses (Token.isPunct .less) tail)
    (goes : ∀ found, (next found).Succeeds Accepts tail goal) :
    (Plan.superclass >>= next).Succeeds Accepts (word ++ tail) goal := by
  show Plan.superclass.Succeeds Accepts _ fun found rest => (next found).Succeeds Accepts rest goal
  rcases covers_optional.mp covers with rfl | some
  · exact Plan.succeeds_refuse refuses (goes none)
  · obtain ⟨less, _, rfl, inherits, rest⟩ := covers_behind.mp some
    obtain ⟨token, rfl, named⟩ := covers_terminal.mp rest
    refine Plan.succeeds_accept (Token.isPunct_iff.mpr inherits) ?_
    exact ⟨Token.isIdentifier_iff.mpr named, fun id => goes _⟩

end Clauses

section Statements

variable {word tail : List Token} {goal : Stmt → List Token → Prop}

theorem readsWords_parameters (count : Nat) : (parameters count).ReadsWords := by
  intro word tail goal ⟨room, covers, closed⟩ goes
  refine ⟨room, ?_⟩
  rcases covers_listFrom.mp covers with one | ⟨_, comma, back, rfl, more, one, separates, others⟩
  · obtain ⟨first, rfl, named⟩ := covers_terminal.mp one
    exact ⟨Token.isIdentifier_iff.mpr named,
      Plan.succeeds_refuse (refuses_comma closed) (goes _)⟩
  · obtain ⟨first, rfl, named⟩ := covers_terminal.mp one
    refine ⟨Token.isIdentifier_iff.mpr named, Plan.succeeds_accept separates ?_⟩
    exact Accepts.word ⟨more, others, closed⟩ fun _ => goes _

theorem readsWords_declaration : declaration.ReadsWords := by
  intro word tail goal ⟨covers, last⟩ goes
  obtain ⟨phrase, member, derives⟩ := covers_oneOf.mp (covers_rule.mp covers)
  simp only [List.mem_cons, List.not_mem_nil, or_false] at member
  obtain rfl | rfl | rfl | rfl := member
  · obtain ⟨keyword, rest, rfl, same, inner⟩ := covers_behind.mp (covers_rule.mp derives)
    refine Plan.succeeds_acceptAs (declarationHead?_eq same) ?_
    exact Accepts.word inner goes
  · obtain ⟨keyword, rest, rfl, same, inner⟩ := covers_behind.mp (covers_rule.mp derives)
    refine Plan.succeeds_acceptAs (declarationHead?_eq same) ?_
    exact Accepts.word inner fun _ => goes _
  · obtain ⟨keyword, rest, rfl, same, inner⟩ := covers_behind.mp (covers_rule.mp derives)
    refine Plan.succeeds_acceptAs (declarationHead?_eq same) ?_
    exact succeeds_varDeclaration inner goes
  · refine Plan.succeeds_refuseAs (refuses_of_opensWith (statement_opens derives) fun _ => ?_) ?_
    · exact declarationHead?_eq_none
    · exact Accepts.word (complete_of_covers derives last) goes

theorem readsWords_classDeclaration : classDeclaration.ReadsWords := by
  intro word tail goal covers goes
  obtain ⟨token, _, rfl, named, rest⟩ := covers_behind.mp covers
  obtain ⟨parent, _, rfl, inherits, rest⟩ := covers_both.mp rest
  obtain ⟨brace, _, rfl, opens, rest⟩ := covers_behind.mp rest
  obtain ⟨methods, _, rfl, inner, rest⟩ := covers_both.mp rest
  obtain ⟨close, rfl, closes⟩ := covers_terminal.mp rest
  simp only [List.cons_append, List.append_assoc, List.nil_append]
  refine ⟨Token.isIdentifier_iff.mpr named, succeeds_superclass inherits ?_ fun parent => ?_⟩
  · exact refuses_cons (Token.isPunct_eq_false (by simp [opens]))
  · refine ⟨Token.isPunct_iff.mpr opens, ?_⟩
    refine Accepts.word ⟨inner, close, tail, rfl, closes⟩ fun methods => ?_
    exact ⟨Token.isPunct_iff.mpr closes, goes _⟩

theorem function_opens (covers : (rule .function).Covers word) :
    OpensWith (fun found => found == .identifier) word :=
  .of_behind rfl (covers_rule.mp covers)

theorem readsWords_methods : methods.ReadsWords := by
  intro word tail goal ⟨covers, closed⟩ goes
  rcases covers_repeated.mp covers with rfl | ⟨front, back, rfl, once, many⟩
  · obtain ⟨brace, rest, rfl, closes⟩ := closed
    exact Plan.succeeds_upcoming (Token.isPunct_iff.mpr closes) (goes [])
  · have opens := function_opens once
    rw [List.append_assoc]
    refine Plan.succeeds_notUpcoming (refuses_mark opens rfl) ?_
    obtain ⟨token, rest, rfl, _⟩ := opens
    refine Accepts.word once fun method => ?_
    exact Accepts.word ⟨many, closed⟩ fun _ => goes _

theorem readsWords_function (callee : Callee) : (function callee).ReadsWords := by
  intro word tail goal covers goes
  obtain ⟨token, _, rfl, named, rest⟩ := covers_behind.mp (covers_rule.mp covers)
  obtain ⟨paren, _, rfl, opens, rest⟩ := covers_behind.mp rest
  obtain ⟨list, _, rfl, inner, rest⟩ := covers_both.mp rest
  obtain ⟨close, _, rfl, closes, rest⟩ := covers_behind.mp rest
  obtain ⟨brace, body, rfl, begins, rest⟩ := covers_behind.mp (covers_rule.mp rest)
  have closing := Token.isPunct_iff.mpr closes
  -- the body, behind whatever parameters there are
  have block : ∀ params, Rule.block.Accepts (body ++ tail) fun body rest =>
      ∀ id, goal ⟨id, token, params, body⟩ rest :=
    fun params => .word rest fun body id => goes _
  simp only [List.cons_append, List.append_assoc]
  refine ⟨Token.isIdentifier_iff.mpr named, Token.isPunct_iff.mpr opens, ?_⟩
  rcases covers_optional.mp inner with rfl | some
  · refine Plan.succeeds_missing closing ⟨closing, Token.isPunct_iff.mpr begins, ?_⟩
    exact block []
  · have names := covers_rule.mp some
    have first : OpensWith (fun found => found == .identifier) list :=
      .of_both names fun _ => OpensWith.of_terminal rfl
    refine Plan.succeeds_present (refuses_mark first rfl) ?_
    refine Accepts.word ⟨by decide, names, close, _, rfl, closes⟩ fun params => ?_
    exact ⟨closing, Token.isPunct_iff.mpr begins, block params⟩

theorem readsWords_block : block.ReadsWords := by
  intro word tail goal covers goes
  obtain ⟨body, _, rfl, inner, rest⟩ := covers_both.mp covers
  obtain ⟨close, rfl, closes⟩ := covers_terminal.mp rest
  rw [List.append_assoc]
  refine Accepts.word ⟨inner, close, tail, rfl, closes⟩ fun found => ?_
  exact ⟨Token.isPunct_iff.mpr closes, goes _⟩

theorem not_startsElse_closed {mark : Punct} (closed : ClosedBy mark tail) :
    ¬ startsElse tail := by
  obtain ⟨token, rest, rfl, closes⟩ := closed
  rintro ⟨found, member, same⟩
  cases member
  rw [closes] at same
  cases same

/-- A declaration in front of others. -/
theorem succeeds_declared {Result : Type} {next : Option (Option Stmt) → Plan Result}
    {goal : Result → List Token → Prop} {front back : List Token}
    (once : (rule .declaration).Covers front)
    (many : (repeated (rule .declaration)).Covers back) (last : ¬ startsElse tail)
    (goes : ∀ found, (next (some (some found))).Succeeds Accepts (back ++ tail) goal) :
    (Plan.declared? false >>= next).Succeeds Accepts (front ++ (back ++ tail)) goal := by
  have declared : Rule.declaration.Accepts (front ++ (back ++ tail)) fun found rest =>
      (next (some (some found))).Succeeds Accepts rest goal :=
    .word ⟨once, not_startsElse_append many last⟩ goes
  obtain ⟨token, rest, rfl, _⟩ := declaration_opens once
  exact declared

theorem readsWords_blockBody : blockBody.ReadsWords := by
  intro word tail goal ⟨covers, closed⟩ goes
  rcases covers_repeated.mp covers with rfl | ⟨front, back, rfl, once, many⟩
  · obtain ⟨brace, rest, rfl, closes⟩ := closed
    exact Plan.succeeds_upcoming (Token.isPunct_iff.mpr closes) (goes [])
  · rw [List.append_assoc]
    refine Plan.succeeds_notUpcoming (refuses_mark (declaration_opens once) rfl) ?_
    refine succeeds_declared once many (not_startsElse_closed closed) fun found => ?_
    exact Accepts.word ⟨many, closed⟩ fun _ => goes _

theorem readsWords_declarations : declarations.ReadsWords := by
  rintro word _ goal ⟨covers, rfl⟩ goes
  rcases covers_repeated.mp covers with rfl | ⟨front, back, rfl, once, many⟩
  · exact goes []
  · rw [List.append_assoc]
    refine succeeds_declared once many (fun ⟨_, member, _⟩ => by cases member) fun found => ?_
    exact Accepts.word ⟨many, rfl⟩ fun _ => goes _

theorem succeeds_plainStatement {kind : Nonterminal} (member : kind ∈ plainStatements)
    (covers : (rule kind).Covers word) (goes : ∀ result, goal result tail) :
    statement.plan.Succeeds Accepts (word ++ tail) goal := by
  have derives := covers_rule.mp covers
  simp only [plainStatements, List.mem_cons, List.not_mem_nil, or_false] at member
  obtain rfl | rfl | rfl | rfl := member
  · have opens : OpensWith Terminal.opensExpression word :=
      .of_both derives fun _ => expression_opens
    refine Plan.succeeds_refuseAs (refuses_of_opensWith opens fun _ => statementHead?_eq_none) ?_
    exact succeeds_ended derives fun _ _ => goes _
  · obtain ⟨keyword, rest, rfl, same, inner⟩ := covers_behind.mp derives
    refine Plan.succeeds_acceptAs (statementHead?_eq same) ?_
    exact succeeds_ended inner fun _ _ => goes _
  · obtain ⟨keyword, rest, rfl, same, inner⟩ := covers_behind.mp derives
    refine Plan.succeeds_acceptAs (statementHead?_eq same) ?_
    exact succeeds_returnStatement inner goes
  · obtain ⟨brace, rest, rfl, same, inner⟩ := covers_behind.mp derives
    refine Plan.succeeds_acceptAs (statementHead?_eq same) ?_
    exact Accepts.word inner fun _ => goes _

theorem readsWords_statement : statement.ReadsWords := by
  intro word tail goal complete goes
  cases complete with
  | plain member covers => exact succeeds_plainStatement member covers goes
  | loop member covers inner =>
      simp only [List.mem_cons, List.not_mem_nil, or_false] at member
      rcases member with rfl | rfl
      all_goals
        obtain ⟨keyword, rest, rfl, same, clauses⟩ := covers_behind.mp covers
        refine Plan.succeeds_acceptAs (statementHead?_eq same) ?_
        exact Accepts.word ⟨rest, _, rfl, clauses, inner⟩ goes
  | cond covers inner last =>
      obtain ⟨keyword, rest, rfl, same, clauses⟩ := covers_behind.mp covers
      refine Plan.succeeds_acceptAs (statementHead?_eq same) ?_
      exact Accepts.word ⟨rest, _, rfl, clauses, .inl ⟨inner, last⟩⟩ goes
  | condElse covers turns inner last =>
      obtain ⟨keyword, rest, rfl, same, clauses⟩ := covers_behind.mp covers
      refine Plan.succeeds_acceptAs (statementHead?_eq same) ?_
      exact Accepts.word ⟨rest, _, rfl, clauses, .inr ⟨_, _, _, rfl, turns, inner, last⟩⟩ goes

theorem readsWords_forStatement : forStatement.ReadsWords := by
  rintro _ tail goal ⟨front, body, rfl, covers, inner⟩ goes
  obtain ⟨paren, _, rfl, opens, rest⟩ := covers_behind.mp covers
  obtain ⟨start, _, rfl, first, rest⟩ := covers_both.mp rest
  obtain ⟨test, _, rfl, second, rest⟩ := covers_both.mp rest
  obtain ⟨token, _, rfl, ends, rest⟩ := covers_behind.mp rest
  obtain ⟨step, _, rfl, third, rest⟩ := covers_both.mp rest
  obtain ⟨close, rfl, closes⟩ := covers_terminal.mp rest
  simp only [List.cons_append, List.append_assoc, List.nil_append]
  refine ⟨Token.isPunct_iff.mpr opens, succeeds_forInitializer first fun initializer => ?_⟩
  refine succeeds_expressionUnless second ends (by decide) rfl fun condition => ?_
  refine ⟨Token.isPunct_iff.mpr ends, ?_⟩
  refine succeeds_expressionUnless third closes (by decide) rfl fun increment => ?_
  refine ⟨Token.isPunct_iff.mpr closes, ?_⟩
  exact Accepts.word inner fun body => goes _

/-- The condition in parentheses in front of a branch or a body. -/
theorem succeeds_condition {Result : Type} {next : Expr → Plan Result} {first second : Expectation}
    {goal : Result → List Token → Prop} {front rest : List Token}
    (covers : conditionHead.Covers front)
    (goes : ∀ condition, (next condition).Succeeds Accepts rest goal) :
    (do
      let _ ← Plan.expectPunct .leftParen first
      let condition ← Plan.call .expression
      let _ ← Plan.expectPunct .rightParen second
      next condition).Succeeds Accepts (front ++ rest) goal := by
  obtain ⟨paren, _, rfl, opens, rest⟩ := covers_behind.mp covers
  obtain ⟨test, _, rfl, value, rest⟩ := covers_both.mp rest
  obtain ⟨close, rfl, closes⟩ := covers_terminal.mp rest
  rw [List.cons_append, List.append_assoc]
  refine ⟨Token.isPunct_iff.mpr opens, ?_⟩
  refine Accepts.word ⟨value, endsExpression_mark closes (by decide)⟩ fun condition => ?_
  exact ⟨Token.isPunct_iff.mpr closes, goes condition⟩

theorem readsWords_ifStatement : ifStatement.ReadsWords := by
  rintro _ tail goal ⟨front, branch, rfl, covers, branches⟩ goes
  rw [List.append_assoc]
  refine succeeds_condition covers fun condition => ?_
  rcases branches with ⟨inner, last⟩ | ⟨one, other, two, rfl, turns, inner, last⟩
  · refine Accepts.word inner fun thenBranch => Plan.succeeds_refuse ?_ (goes _)
    intro token member
    exact Token.isKeyword_eq_false fun same => last ⟨token, member, same⟩
  · rw [List.append_assoc]
    refine Accepts.word inner fun thenBranch => ?_
    refine Plan.succeeds_accept (Token.isKeyword_iff.mpr turns) ?_
    exact Accepts.word last fun _ => goes _

theorem readsWords_whileStatement : whileStatement.ReadsWords := by
  rintro _ tail goal ⟨front, body, rfl, covers, inner⟩ goes
  rw [List.append_assoc]
  refine succeeds_condition covers fun condition => ?_
  exact Accepts.word inner fun _ => goes _

end Statements

/-! ## All rules -/

theorem readsWords {Result : Type} (found : Rule Result) : found.ReadsWords := by
  cases found with
  | expression => exact readsWords_expression
  | operand tier => exact readsWords_operand tier
  | operandTail tier left => exact readsWords_operandTail tier left
  | unary => exact readsWords_unary
  | callTail callee => exact readsWords_callTail callee
  | arguments count => exact readsWords_arguments count
  | primary => exact readsWords_primary
  | parameters count => exact readsWords_parameters count
  | declaration => exact readsWords_declaration
  | classDeclaration => exact readsWords_classDeclaration
  | methods => exact readsWords_methods
  | function callee => exact readsWords_function callee
  | block => exact readsWords_block
  | blockBody => exact readsWords_blockBody
  | statement => exact readsWords_statement
  | forStatement => exact readsWords_forStatement
  | ifStatement => exact readsWords_ifStatement
  | whileStatement => exact readsWords_whileStatement
  | declarations => exact readsWords_declarations

/-- A plan that relies on what is known of the rules keeps it. -/
theorem Accepts.plan {Result : Type} {found : Rule Result} {input : List Token}
    {goal : Result → List Token → Prop} (accepts : found.Accepts input goal) :
    found.plan.Succeeds Accepts input goal := by
  cases accepts with
  | word fits goes => exact found.readsWords fits goes
  | target target stops goes => exact succeeds_target target stops goes
  | unaryTarget target stops goes => exact succeeds_unaryTarget target stops goes
  | name named goes => exact succeeds_name named goes
  | property covers point named stops goes => exact succeeds_property covers point named stops goes
  | noOperator stops goes => exact succeeds_noOperator stops goes
  | noSuffix stops goes => exact succeeds_noSuffix stops goes

/-- **Every word of a rule is read.** -/
theorem Accepts.succeeds {Result : Type} {found : Rule Result} {input : List Token}
    {goal : Result → List Token → Prop} (accepts : found.Accepts input goal) :
    found.Succeeds input goal
  | 0 => by
      rw [found.read_zero]
      exact fun _ _ => trivial
  | fuel + 1 => by
      rw [found.read_succ]
      exact succeeds_plan (fun _ _ _ less => less.succeeds fuel) found.plan accepts.plan

end Rule

namespace Reader

theorem succeeds_declarations (fuel : Nat) {word : List Token}
    (covers : (repeated (rule .declaration)).Covers word) :
    Succeeds (declarations fuel) word fun _ _ => True := by
  have accepts : Rule.declarations.Accepts (word ++ []) fun _ _ => True :=
    .word ⟨covers, rfl⟩ fun _ => trivial
  rw [List.append_nil] at accepts
  exact accepts.succeeds fuel

theorem succeeds_singleExpression (fuel : Nat) {word : List Token}
    (covers : (rule .expression).Covers word) :
    Succeeds (expressionToEnd fuel) word fun _ _ => True := by
  refine succeeds_expressionToEnd (fun goal goes => ?_) fuel
  have accepts : Rule.expression.Accepts (word ++ []) goal :=
    .word ⟨covers, fun _ member => by cases member⟩ fun found => goes found trivial
  rw [List.append_nil] at accepts
  exact accepts.succeeds

end Reader

end LoxLang
