import LoxLang.Proofs.Grammar.Completeness
import LoxLang.Proofs.Grammar.Numbering
import LoxLang.Proofs.Grammar.Progress
import LoxLang.Proofs.Grammar.Soundness

/-!
# What is read without errors

A reading reports no error exactly if the tokens are a word of the grammar.
In one direction the tokens that a reading without errors has used follow the
rules, and reading goes on to the end of the input. In the other direction a
word of the grammar is read to its end and nothing is reported. Both need that
the fuel is enough, since a reading that runs out of it reports nothing.
-/

namespace LoxLang

set_option autoImplicit false

open Phrase

namespace Reader

variable {Result : Type}

/-- A step that never stops with a fault. -/
def Faultless (step : Reader Result) : Prop :=
  ∀ state error after, step state ≠ .error (.fault error) after

theorem Faultless.bind {Other : Type} {step : Reader Result} {next : Result → Reader Other}
    (first : Faultless step) (second : ∀ result, Faultless (next result)) :
    Faultless (step >>= next) := by
  intro state error after
  simp only [Bind.bind, EStateM.bind]
  cases reading : step state with
  | ok result middle => exact second result middle error after
  | error stop middle =>
      intro same
      cases same
      exact first state error after reading

/-- A fault inside is reported and reading goes on. -/
theorem faultless_recover (step : Reader Result) : Faultless (recover step) := by
  intro state error after
  unfold recover
  split <;> simp

/-- A list of declarations reports every fault. -/
theorem faultless_declarations : ∀ fuel : Nat, Faultless (declarations fuel)
  | 0 => fun _ _ _ => nofun
  | fuel + 1 => by
      have ended : Faultless atEnd := fun _ _ _ => nofun
      refine ended.bind fun empty => ?_
      split
      · exact fun _ _ _ => nofun
      · refine (faultless_recover _).bind fun first => ?_
        exact (faultless_declarations fuel).bind fun others => fun _ _ _ => nofun

/-- A step that succeeds and does not run out of fuel reaches its goal. -/
theorem exists_ok_of_succeeds {step : Reader Result} {state : ReaderState}
    {goal : Result → List Token → Prop} {left : Result → Nat → Prop}
    (succeeds : Succeeds step state.rest goal) (ends : Ends True state.rest.length step left) :
    ∃ result after, step state = .ok result after ∧ after.errors = state.errors ∧
      goal result after.rest := by
  have reached := succeeds state rfl
  have ended := ends state rfl
  cases reading : step state with
  | ok result after =>
      rw [reading] at reached
      exact ⟨result, after, rfl, reached⟩
  | error stop after =>
      rw [reading] at reached ended
      cases stop with
      | fault error => exact reached.elim
      | outOfFuel => exact absurd trivial ended

/-- A step that reads to the end without a new error has used all tokens. -/
theorem holds_of_yields {step : Reader Result} {state after : ReaderState} {result : Result}
    {holds : List Token → Result → Prop} (yields : Yields step holds)
    (ends : Ends True state.rest.length step fun _ rest => rest = 0)
    (reading : step state = .ok result after) (errors : after.errors = state.errors) :
    holds state.rest result := by
  have ended := ends state rfl
  rw [reading] at ended
  obtain ⟨used, shape, good⟩ := yields state result after reading errors
  have none : after.rest = [] := List.length_eq_zero_iff.mp ended
  rw [none, List.append_nil] at shape
  rwa [shape]

end Reader

namespace Grammar

open Reader

theorem ends_program (stream : TokenStream) :
    Ends True stream.tokens.length (declarations (fuelFor stream)) fun _ rest => rest = 0 :=
  ends_declarations _ _ (by simp only [fuelFor]; omega)

theorem ends_singleExpression (stream : TokenStream) :
    Ends True stream.tokens.length (expressionToEnd (fuelFor stream)) fun _ rest => rest = 0 :=
  ends_expressionToEnd (by simp only [fuelFor]; omega)

/-- What is read from tokens with nodes numbered from a number on. -/
structure ReadProgram (stream : TokenStream) (nextId : Nat) : Prop extends
    ReadBody (repeated (rule .declaration)) stream.tokens (program stream nextId).statements where
  numbered : Numbered (Stmt.numbersAll (program stream nextId).statements) nextId
    (program stream nextId).nextId

/-- What a program that is read without errors is read into. -/
theorem readBody_of_program {stream : TokenStream} {nextId : Nat}
    (none : (program stream nextId).errors = []) : ReadProgram stream nextId := by
  refine ⟨?_, numbered_program stream nextId⟩
  have ends := ends_program stream
  unfold program at none ⊢
  cases reading : declarations (fuelFor stream) (ReaderState.start stream nextId) with
  | ok statements after =>
      rw [reading] at none
      exact holds_of_yields (yields_declarations _) ends reading none
  | error stop after =>
      cases stop with
      | fault error => exact absurd reading (faultless_declarations _ _ _ _)
      | outOfFuel =>
          have ended := ends (ReaderState.start stream nextId) rfl
          rw [reading] at ended
          exact absurd trivial ended

/-- Reading never goes back behind the first number, errors or not. -/
theorem nextId_le_program (stream : TokenStream) (nextId : Nat) :
    nextId ≤ (program stream nextId).nextId :=
  (numbered_program stream nextId).le

theorem program_errors_eq_nil_iff {stream : TokenStream} {nextId : Nat} :
    (program stream nextId).errors = [] ↔
      (repeated (rule .declaration)).Covers stream.tokens := by
  constructor
  · intro none
    exact (readBody_of_program none).covers
  · intro covers
    obtain ⟨statements, after, reading, none, _⟩ := exists_ok_of_succeeds
      (show Succeeds _ (ReaderState.start stream nextId).rest _ from
        succeeds_declarations (fuelFor stream) covers) (ends_program stream)
    unfold program
    rw [reading]
    exact none

/-- What a reading yields holds of an expression that fills the input. -/
theorem holds_of_singleExpression {holds : List Token → Expr → Prop}
    (yields : ∀ fuel, Yields (expressionToEnd fuel) holds)
    {stream : TokenStream} {tree : Expr} (accepted : singleExpression stream = .ok tree) :
    holds stream.tokens tree := by
  unfold singleExpression at accepted
  cases reading : expressionToEnd (fuelFor stream) (ReaderState.start stream 0) with
  | ok found after =>
      simp only [reading] at accepted
      cases none : after.errors with
      | nil =>
          simp only [none] at accepted
          cases accepted
          exact holds_of_yields (yields _) (ends_singleExpression stream) reading none
      | cons error others =>
          simp only [none] at accepted
          cases accepted
  | error stop after =>
      simp only [reading] at accepted
      cases stop with
      | fault error | outOfFuel => cases accepted

/-- A reading that succeeds is accepted, with a result as it should be. -/
theorem singleExpression_of_succeeds {stream : TokenStream} {holds : Expr → Prop}
    (succeeds : Succeeds (expressionToEnd (fuelFor stream)) stream.tokens
      fun read _ => holds read) : ∃ read, singleExpression stream = .ok read ∧ holds read := by
  obtain ⟨read, after, reading, none, good⟩ := exists_ok_of_succeeds
    (show Succeeds _ (ReaderState.start stream 0).rest _ from succeeds)
    (ends_singleExpression stream)
  refine ⟨read, ?_, good⟩
  unfold singleExpression
  simp only [reading, none]
  rfl

theorem singleExpression_isOk_iff {stream : TokenStream} :
    (∃ found, singleExpression stream = .ok found) ↔
      (rule .expression).Covers stream.tokens := by
  constructor
  · rintro ⟨found, accepted⟩
    exact (holds_of_singleExpression (fun fuel => yields_toEnd (yields_expression fuel))
      accepted).covers
  · intro covers
    obtain ⟨found, accepted, _⟩ :=
      singleExpression_of_succeeds (succeeds_singleExpression (fuelFor stream) covers)
    exact ⟨found, accepted⟩

end Grammar

/-! ## Token lists -/

/-- The stream of a token list ends at the first end marker. -/
theorem TokenStream.ofTokens_split {segment behind : List Token} {marker : Token}
    (noEnd : ∀ token ∈ segment, token.isEnd = false) (last : marker.isEnd = true) :
    TokenStream.ofTokens (segment ++ marker :: behind) = ⟨segment, marker.line⟩ := by
  have found : (segment ++ marker :: behind).find? Token.isEnd = some marker := by
    rw [List.find?_append, List.find?_eq_none.mpr fun token member => by simp [noEnd token member]]
    simp [last]
  unfold TokenStream.ofTokens
  rw [found, List.takeWhile_append_of_pos fun token member => by simp [noEnd token member]]
  simp [last]

section TokenLists

variable {body : List Token} {marker : Token}

theorem tokens_ofTokens (only : ∀ token ∈ body, token.isEnd = false)
    (last : marker.isEnd = true) : (TokenStream.ofTokens (body ++ [marker])).tokens = body :=
  congrArg TokenStream.tokens (TokenStream.ofTokens_split only last)

/-- A program is its declarations and the end of the input. -/
theorem covers_program_iff (last : marker.isEnd = true) :
    (rule .program).Covers (body ++ [marker]) ↔ (repeated (rule .declaration)).Covers body := by
  rw [covers_rule]
  constructor
  · intro covers
    obtain ⟨front, back, shape, many, ending⟩ := covers_both.mp covers
    obtain ⟨token, rfl, _⟩ := covers_terminal.mp ending
    obtain ⟨same, _⟩ := List.append_inj' shape rfl
    exact same ▸ many
  · intro many
    exact covers_both.mpr ⟨body, [marker], rfl, many,
      covers_terminal.mpr ⟨marker, rfl, Token.isEnd_iff.mp last⟩⟩

/-- **Exactly the words of the grammar are read without errors.** The token
list has one end marker, its last token. A program is read without errors if
and only if the terminals are derived from the rule for programs, and a single
expression is accepted if and only if those in front of the end marker are
derived from the rule for expressions. The rules for parameter and argument
lists hold no more than the limit. -/
theorem accepts_iff_derives (only : ∀ token ∈ body, token.isEnd = false)
    (last : marker.isEnd = true) :
    (∀ nextId, (Grammar.program (TokenStream.ofTokens (body ++ [marker])) nextId).errors = [] ↔
      Derives (.rule .program) ((body ++ [marker]).map Token.terminal)) ∧
    ((∃ found, Grammar.singleExpression (TokenStream.ofTokens (body ++ [marker])) = .ok found) ↔
      Derives (.rule .expression) (body.map Token.terminal)) := by
  have tokens := tokens_ofTokens only last
  constructor
  · intro nextId
    rw [Grammar.program_errors_eq_nil_iff, tokens]
    exact (covers_program_iff last).symm
  · rw [Grammar.singleExpression_isOk_iff, tokens]
    exact Iff.rfl

end TokenLists

/-- The end of an input on its first line. -/
def endMarker : Token := ⟨.endOfInput, "", 1⟩

/-- The tokens of `if (a) if (b) c; else d.e = f(g);`. -/
def nestedCondition : List Token :=
  let word (found : Keyword) : Token := ⟨.keyword found, found.text, 1⟩
  let mark (found : Punct) : Token := ⟨.punct found, found.text, 1⟩
  let name (text : String) : Token := ⟨.identifier, text, 1⟩
  [word .kwIf, mark .leftParen, name "a", mark .rightParen,
    word .kwIf, mark .leftParen, name "b", mark .rightParen, name "c", mark .semicolon,
    word .kwElse, name "d", mark .dot, name "e", mark .equal,
    name "f", mark .leftParen, name "g", mark .rightParen, mark .semicolon]

/-- Two conditions with one `else` are a program, and no expression. -/
theorem nested_condition_derives :
    Derives (.rule .program) ((nestedCondition ++ [endMarker]).map Token.terminal) ∧
      ¬ Derives (.rule .expression) (nestedCondition.map Token.terminal) := by
  have only : ∀ token ∈ nestedCondition, token.isEnd = false := by decide
  have last : endMarker.isEnd = true := rfl
  have accepts := accepts_iff_derives only last
  refine ⟨(accepts.1 0).mp (by decide +kernel), fun derives => ?_⟩
  obtain ⟨found, accepted⟩ := accepts.2.mpr derives
  have fails : (Grammar.singleExpression (TokenStream.ofTokens
      (nestedCondition ++ [endMarker]))).toBool = false := by decide +kernel
  rw [accepted] at fails
  cases fails

end LoxLang
