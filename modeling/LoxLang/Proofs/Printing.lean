import LoxLang.CommandLine
import LoxLang.Proofs.Grammar.Segments
import LoxLang.Proofs.Precedence
import LoxLang.Proofs.Run.Plain
import LoxLang.Proofs.Session.Settled
import LoxLang.Proofs.Termination
import LoxLang.Proofs.Token.Concatenation

/-!
# Evaluating an expression and printing it

There are two ways to see the value of an expression: to have it evaluated, or to
run the program that prints it. The two have nothing in common but the rules for
expressions. The first reads one expression up to the end and evaluates it on a
new machine. The second reads declarations, resolves their names and runs them in
a session.

They agree on each stage. The tokens of the program are those of the expression
between a word and a semicolon (`Lexer.stream_printing`). The semicolon ends the
expression where the end of the input did (`Grammar.program_printing`). No name
has a distance, because there is no local scope (`resolve_print`). And the
expression itself writes nothing (`Eval.silent_expression`), so what is printed is
all that is written (`evaluateSource_eq_runSource`).
-/

namespace LoxLang

set_option autoImplicit false

/-- The program that prints an expression. The semicolon is on a line of its own,
because the last line may end in a comment. -/
def printing (source : String) : String := "print " ++ source ++ "\n" ++ ";"

/-! ## Tokens -/

namespace Lexer

/-- The word in front of a source, with a blank. -/
theorem items_word (source : String) :
    items ("print " ++ source) = .token ⟨.keyword .kwPrint, "print", 1⟩ :: items source := by
  obtain ⟨body, cut, whole, -⟩ := exists_items source
  have text : ("print " ++ source).toList = 'p' :: ("rint ".toList ++ source.toList) := by
    rw [String.toList_append]
    rfl
  have blank : Cut 1 (' ' :: source.toList) body := .piece cut
  have word : Cut 1 ('p' :: ("rint ".toList ++ source.toList))
      (.token ⟨.keyword .kwPrint, "print", 1⟩ :: body) := .piece blank
  have ended : 1 + ('p' :: ("rint ".toList ++ source.toList)).count '\n' = 1 + lineEnds source :=
    congrArg (1 + ·) (by simp [lineEnds])
  rw [items, text, word.itemsFrom _ (Nat.le_refl _), ended, whole, List.cons_append]

theorem tokens_word (source : String) :
    (stream ("print " ++ source)).tokens =
      ⟨.keyword .kwPrint, "print", 1⟩ :: (stream source).tokens := by
  simp only [stream, TokenStream.ofTokens, tokens, items_word]
  rfl

/-- **The tokens of the program** are those of the expression, between a word and
a semicolon. -/
theorem stream_printing {source : String} (quiet : faults source = []) :
    faults (printing source) = [] ∧ ∃ line, stream (printing source) =
      ⟨⟨.keyword .kwPrint, "print", 1⟩ ::
        ((stream source).tokens ++ [⟨.punct .semicolon, ";", line⟩]), line⟩ := by
  have silent : faults ("print " ++ source) = [] := by
    rw [faults, items_word]
    exact quiet
  refine ⟨by rw [printing, faults_append silent]; rfl, ?_⟩
  rw [printing, stream_append silent, tokens_word]
  exact ⟨_, rfl⟩

end Lexer

/-! ## Grammar -/

namespace Grammar

open Reader

/-- The reading of an expression that fills the input. -/
theorem expression_of_singleExpression {stream : TokenStream} {tree : Expr}
    (accepted : singleExpression stream = .ok tree) : ∃ after,
      expression (fuelFor stream) (ReaderState.start stream 0) = .ok tree after ∧
        after.rest = [] ∧ after.errors = [] := by
  simp only [singleExpression, expressionToEnd, Bind.bind, EStateM.bind] at accepted
  cases reading : expression (fuelFor stream) (ReaderState.start stream 0) with
  | error stop after =>
      simp only [reading] at accepted
      cases stop <;> cases accepted
  | ok found after =>
      simp only [reading, atEnd] at accepted
      cases rest : after.rest with
      | cons token others =>
          simp only [rest, List.isEmpty_cons, Bool.false_eq_true, if_false, fail] at accepted
          cases accepted
      | nil =>
          simp only [rest, List.isEmpty_nil, if_true] at accepted
          cases errors : after.errors with
          | nil =>
              simp only [pure, EStateM.pure, errors] at accepted
              cases accepted
              exact ⟨after, rfl, rest, errors⟩
          | cons error others =>
              simp only [pure, EStateM.pure, errors] at accepted
              cases accepted

/-- **An expression is read in front of a semicolon as in front of the end.** -/
theorem expression_inFront {stream : TokenStream} {tree : Expr}
    (accepted : singleExpression stream = .ok tree) {last : Token}
    (mark : last.kind = .punct .semicolon) (endLine : Nat) {fuel : Nat}
    (enough : fuelFor stream ≤ fuel) : ∃ nextId,
      expression fuel ⟨stream.tokens ++ [last], endLine, [], 0⟩ =
        .ok tree ⟨[last], endLine, [], nextId⟩ := by
  obtain ⟨after, reading, rest, errors⟩ := expression_of_singleExpression accepted
  let place : Transport := ⟨.same, [last], fun _ => endLine, [], 0, fun _ _ => rfl⟩
  have closes : ClosesExpression place := fun token here => by
    cases Option.mem_some_iff.mp here
    exact mark
  have carries : Carries place _ _ _ _ := carries_rule enough .expression
  have carried := carries (ReaderState.start stream 0) (Nat.zero_le _)
  rw [Rule.read, reading] at carried
  have moved := carried.2 (.inl closes)
  have tokens : stream.tokens.map (Token.relabel .same) = stream.tokens :=
    List.map_id'' (fun _ => rfl) _
  have same : tree.relabel .same = tree :=
    Expr.relabel_fixed tree ⟨fun _ => rfl, fun _ _ => rfl⟩
  simp only [Transport.state, place, rest, errors, ReaderState.start, tokens, Rule.moves, same,
    List.map_nil, List.nil_append] at moved
  exact ⟨after.nextId, moved⟩

/-- Behind the word, the expression is the value of a print statement. -/
theorem program_printing {stream : TokenStream} {tree : Expr}
    (accepted : singleExpression stream = .ok tree) {first last : Token}
    (word : first.kind = .keyword .kwPrint) (mark : last.kind = .punct .semicolon)
    (endLine : Nat) : ∃ nextId,
      program ⟨first :: (stream.tokens ++ [last]), endLine⟩ 0 = ⟨[.print tree], [], nextId⟩ := by
  obtain ⟨fuel, whole, enough⟩ : ∃ fuel,
      fuelFor ⟨first :: (stream.tokens ++ [last]), endLine⟩ = fuel + 3 ∧ fuelFor stream ≤ fuel :=
    ⟨16 * (stream.tokens.length + 2) + 13, by simp [fuelFor]; omega, by rw [fuelFor]; omega⟩
  obtain ⟨nextId, value⟩ := expression_inFront accepted mark endLine enough
  let start : ReaderState := ⟨first :: (stream.tokens ++ [last]), endLine, [], 0⟩
  have prints : declaration (fuel + 2) start = .ok (.print tree) ⟨[], endLine, [], nextId⟩ := by
    have plain : declarationHead? first = none := by simp [declarationHead?, word]
    have opens : statementHead? first = some .printWord := by simp [statementHead?, word]
    have closing : last.isPunct .semicolon = true := by simp [Token.isPunct, mark]
    simp [declaration, statement, printStatement, acceptAs?, start, plain, opens, expectPunct,
      expect, closing, Bind.bind, EStateM.bind, value, pure, EStateM.pure]
  have declared : Declared (fuel + 3) start [.print tree] ⟨[], endLine, [], nextId⟩ :=
    .read (List.cons_ne_nil _ _) prints (.done rfl)
  rw [← whole] at declared
  exact ⟨nextId, program_of_declared declared⟩

end Grammar

/-! ## Names -/

/-- Whether a token is one of the two words that stand in methods only. -/
def Token.isThisOrSuper (token : Token) : Bool :=
  token.isKeyword .kwThis || token.isKeyword .kwSuper

namespace Resolution

/-- Outside of all scopes there is nothing to be noted about a name. -/
theorem bind_outside {walk : Resolution} (outside : walk.scopes = []) (occurrence : Occurrence) :
    walk.bind occurrence = walk := by
  simp [bind, outside, distance?]

mutual

/-- Nothing is noted and nothing reported about an expression outside of all
scopes, unless there are words in it that stand in methods only. -/
theorem expression_outside : ∀ (found : Expr), found.Levelled →
    (∀ token ∈ found.flatten, token.isThisOrSuper = false) → ∀ walk : Resolution,
      walk.scopes = [] → expression .outside found walk = walk
  | .literal _, _, _, _, _ => rfl
  | .unary _ operand, levelled, plain, walk, outside =>
    expression_outside operand levelled.2.2 (fun token member =>
      plain token (List.mem_cons_of_mem _ member)) walk outside
  | .binary left _ right, levelled, plain, walk, outside
  | .logical left _ right, levelled, plain, walk, outside => by
      obtain ⟨-, -, -, one, other⟩ := levelled
      simp only [Expr.flatten, List.forall_mem_append, List.forall_mem_cons] at plain
      rw [expression, expression_outside left one plain.1 walk outside,
        expression_outside right other plain.2.2 walk outside]
  | .grouping inner, levelled, plain, walk, outside => by
      simp only [Expr.flatten, List.forall_mem_append, List.forall_mem_cons] at plain
      exact expression_outside inner levelled plain.2.1 walk outside
  | .var occurrence, _, _, walk, outside => by
      simp [expression, reportIf, innermost?, outside, bind_outside outside]
  | .assign occurrence value, levelled, plain, walk, outside => by
      simp only [Expr.flatten, List.forall_mem_cons] at plain
      rw [expression, expression_outside value levelled.2 plain.2.2 walk outside,
        bind_outside outside]
  | .call callee _ arguments, levelled, plain, walk, outside => by
      obtain ⟨-, -, -, one, others⟩ := levelled
      simp only [Expr.flatten, List.forall_mem_append, List.forall_mem_cons] at plain
      rw [expression, expression_outside callee one plain.1 walk outside,
        expressions_outside arguments others plain.2.2.1 walk outside]
  | .get object _, levelled, plain, walk, outside => by
      simp only [Expr.flatten, List.forall_mem_append] at plain
      exact expression_outside object levelled.2.2 plain.1 walk outside
  | .set object _ value, levelled, plain, walk, outside => by
      obtain ⟨-, -, one, other⟩ := levelled
      simp only [Expr.flatten, List.forall_mem_append, List.forall_mem_cons] at plain
      rw [expression, expression_outside value other plain.2.2.2.2 walk outside,
        expression_outside object one plain.1 walk outside]
  | .thisRef occurrence, levelled, plain, _, _ => by
      have word := plain occurrence.token (List.mem_singleton_self _)
      rw [Token.isThisOrSuper, show _ = true from levelled] at word
      cases word
  | .superRef occurrence _, levelled, plain, _, _ => by
      have word := plain occurrence.token List.mem_cons_self
      rw [Token.isThisOrSuper, levelled.1, Bool.or_true] at word
      cases word

theorem expressions_outside : ∀ (found : List Expr), Expr.AllLevelled found →
    (∀ token ∈ Expr.flattenAll found, token.isThisOrSuper = false) → ∀ walk : Resolution,
      walk.scopes = [] → expressions .outside found walk = walk
  | [], _, _, _, _ => rfl
  | first :: rest, levelled, plain, walk, outside => by
      simp only [Expr.flattenAll, List.forall_mem_append] at plain
      have others : ∀ token ∈ Expr.flattenAll rest, token.isThisOrSuper = false := by
        cases rest with
        | nil => nofun
        | cons second more => exact (List.forall_mem_cons.mp plain.2).2
      rw [expressions, expression_outside first levelled.1 plain.1 walk outside,
        expressions_outside rest levelled.2 others walk outside]

end

end Resolution

/-- Words are kept by what the tokens mean. -/
theorem Token.isThisOrSuper_of_meaning {one other : Token} (same : one.meaning = other.meaning) :
    one.isThisOrSuper = other.isThisOrSuper := by
  have kind : one.kind = other.kind := congrArg Prod.fst same
  simp only [isThisOrSuper, isKeyword, kind]

/-- **The names of an expression at the top are global.** -/
theorem resolve_print {stream : TokenStream} {tree : Expr}
    (accepted : Grammar.singleExpression stream = .ok tree)
    (plain : ∀ token ∈ stream.tokens, token.isThisOrSuper = false) :
    resolve [.print tree] = .ok [] := by
  have writes := Grammar.writes_of_singleExpression accepted
  have words : ∀ token ∈ tree.flatten, token.isThisOrSuper = false := fun token member => by
    have meaning : token.meaning ∈ stream.tokens.map Token.meaning :=
      writes.tokens ▸ List.mem_map_of_mem member
    obtain ⟨read, found, same⟩ := List.mem_map.mp meaning
    rw [← Token.isThisOrSuper_of_meaning same, plain read found]
  have walked : Resolution.program [.print tree] = Resolution.start :=
    Resolution.expression_outside tree writes.levelled words Resolution.start rfl
  rw [resolve, walked]
  rfl

/-! ## Running -/

namespace Session

/-- The program is read into its one statement, and nothing is reported. -/
theorem read_printing {source : String} {tree : Expr} (quiet : Lexer.faults source = [])
    (accepted : Grammar.singleExpression (Lexer.stream source) = .ok tree)
    (output errors : Sink) (clock : Nat → Float) :
    ∃ nextId, (start output errors clock).read (printing source) =
      ([.print tree], { start output errors clock with nextId := nextId }) := by
  obtain ⟨silent, line, tokens⟩ := Lexer.stream_printing quiet
  obtain ⟨nextId, program⟩ := Grammar.program_printing accepted
    (show Token.kind ⟨.keyword .kwPrint, "print", 1⟩ = _ from rfl)
    (show Token.kind ⟨.punct .semicolon, ";", line⟩ = _ from rfl) line
  refine ⟨nextId, ?_⟩
  rw [read_eq, ← Lexer.stream, tokens, silent]
  simp only [start, program]
  rfl

/-- A session that prints an expression comes to an end as the expression does. -/
theorem run_printing {source : String} {tree : Expr} (quiet : Lexer.faults source = [])
    (accepted : Grammar.singleExpression (Lexer.stream source) = .ok tree)
    (plain : ∀ token ∈ (Lexer.stream source).tokens, token.isThisOrSuper = false)
    (output errors : Sink) (clock : Nat → Float) :
    ∃ nextId, ∀ fuel, (start output errors clock).run fuel (printing source) =
      { start output errors clock with nextId := nextId }.concluded
        (Eval.program fuel [.print tree] (Machine.initial output clock)) := by
  obtain ⟨nextId, reading⟩ := read_printing quiet accepted output errors clock
  have runnable : (start output errors clock).Runnable (printing source) [] :=
    ⟨by rw [reading]; rfl, by rw [reading]; exact resolve_print accepted plain⟩
  refine ⟨nextId, fun fuel => ?_⟩
  rw [run_of_runnable runnable, reading]
  rfl

end Session

/-- What printing an expression comes to, by what the expression comes to. -/
theorem Eval.program_print (fuel : Nat) (tree : Expr) (clock : Nat → Float) :
    match Eval.expression fuel tree (Machine.initial Sink.unlimited clock) with
    | .ok value after => Eval.program (fuel + 1) [.print tree]
        (Machine.initial Sink.unlimited clock) =
          .ok () { after with output := Sink.unlimited.write (value.text ++ "\n") }
    | .error interrupt after => Eval.program (fuel + 1) [.print tree]
        (Machine.initial Sink.unlimited clock) = .error interrupt after ∧
          after.output = Sink.unlimited ∧ ∀ problem, interrupt ≠ .output problem := by
  have silent := silent_expression tree fuel _ (Store.Plain.initial Sink.unlimited clock)
  cases ended : Eval.expression fuel tree (Machine.initial Sink.unlimited clock) with
  | ok value after =>
      rw [ended] at silent
      have same : after.output = Sink.unlimited := silent.1
      have printed : printLine value.text after =
          .ok () { after with output := Sink.unlimited.write (value.text ++ "\n") } := by
        simp only [printLine, same]
        rfl
      simp only [program, topLevel, statement, Bind.bind, EStateM.bind, ended, printed]
      rfl
  | error interrupt after =>
      rw [ended] at silent
      refine ⟨?_, silent⟩
      simp only [program, topLevel, statement, Bind.bind, EStateM.bind, ended]

/-- One line on an empty sink. -/
theorem Sink.written_line (text : String) :
    (Sink.unlimited.write (text ++ "\n")).written =
      (String.join ([text].map (· ++ "\n"))).toUTF8 := by
  simp [Sink.write, Sink.unlimited, Sink.withRoom, String.join]

namespace Command

/-- **Evaluating an expression leaves the same as running the program that prints
it**, with fuel for one more rule. -/
theorem evaluateSource_eq_runSource {source : String} {tree : Expr}
    (quiet : Lexer.faults source = [])
    (accepted : Grammar.singleExpression (Lexer.stream source) = .ok tree)
    (plain : ∀ token ∈ (Lexer.stream source).tokens, token.isThisOrSuper = false)
    (clock : Nat → Float) (fuel : Nat) :
    evaluateSource fuel clock tree = runSource (fuel + 1) clock (printing source) := by
  obtain ⟨nextId, ran⟩ :=
    Session.run_printing quiet accepted plain Sink.unlimited Sink.unlimited clock
  have printed := Eval.program_print fuel tree clock
  rw [runSource, ran (fuel + 1), evaluateSource, evaluateExpression]
  cases ended : Eval.expression fuel tree (Machine.initial Sink.unlimited clock) with
  | ok value after =>
      rw [ended] at printed
      rw [printed]
      simp only [Session.concluded, Option.map_some, Outcome.ofSession, Sink.written_line]
      rfl
  | error interrupt after =>
      rw [ended] at printed
      obtain ⟨stops, same, fault⟩ := printed
      rw [stops]
      cases interrupt with
      | outOfFuel => rfl
      | output problem => exact absurd rfl (fault problem)
      | fault error =>
          simp only [Session.concluded, Interrupt.diagnostic?, Option.map_some, Outcome.ofSession,
            Session.report, Session.start, Sink.written_line, same]
          rfl

/-- Evaluating an expression comes to an end, with the text of its value or with
a fault of the run. -/
theorem evaluateSource_ends (clock : Nat → Float) (tree : Expr) :
    ∃ (outcome : Outcome) (enough : Nat),
      (∀ fuel, enough ≤ fuel → evaluateSource fuel clock tree = some outcome) ∧
        ((∃ value : Value, outcome = .ofLines [value.text] [] 0) ∨
          ∃ error : RuntimeError, outcome = .ofLines [] [(Diagnostic.runtime error).text] 70) := by
  let machine := Machine.initial Sink.unlimited clock
  have calls : Eval.CallsSettle 0 := Eval.callsSettle Machine.depthLimit 0 (by omega)
  obtain ⟨result, ⟨enough, same⟩, concluded⟩ :=
    Eval.settles_expression calls tree machine rfl (.start fun _ => trivial)
  have evaluates (fuel : Nat) (le : enough ≤ fuel) :
      Eval.expression fuel tree (Machine.initial Sink.unlimited clock) = result := same fuel le
  cases result with
  | ok value after =>
      refine ⟨_, enough, fun fuel le => ?_, .inl ⟨value, rfl⟩⟩
      rw [evaluateSource, evaluateExpression, evaluates fuel le]
  | error interrupt after =>
      have silent := Eval.silent_expression tree enough machine (Store.Plain.initial _ _)
      rw [evaluates enough (Nat.le_refl _)] at silent
      cases interrupt with
      | outOfFuel => exact absurd rfl concluded.1
      | output problem => exact absurd rfl (silent.2 problem)
      | fault error =>
          refine ⟨_, enough, fun fuel le => ?_, .inr ⟨error, rfl⟩⟩
          rw [evaluateSource, evaluateExpression, evaluates fuel le]
          rfl

theorem withExpression_of_ok {source : String} {tree : Expr} (quiet : Lexer.faults source = [])
    (accepted : Grammar.singleExpression (.ofTokens (Lexer.tokens source)) = .ok tree)
    (use : Expr → Option Outcome) : withExpression source use = use tree := by
  unfold withExpression readExpression
  rw [accepted, quiet]
  rfl

end Command

/-- **Evaluating agrees with running.** Take a source that is cut into tokens
without faults, that is read as one expression and has neither `this` nor `super`
in it. The command that evaluates it and the command that runs the program which
prints it leave the same on both outputs and the same exit code, whatever the
clock shows. With enough fuel both come to an end, either with the text of a value
and exit code 0, or with a fault of the run and exit code 70. -/
theorem evaluate_agrees_with_run {source : String} {tree : Expr}
    (quiet : Lexer.faults source = [])
    (accepted : Grammar.singleExpression (.ofTokens (Lexer.tokens source)) = .ok tree)
    (plain : ∀ token ∈ Lexer.tokens source, token.isThisOrSuper = false) (clock : Nat → Float) :
    (∀ fuel, Command.evaluate.onSource fuel clock source =
      Command.run.onSource (fuel + 1) clock (printing source)) ∧
    ∃ (outcome : Outcome) (enough : Nat),
      (∀ fuel, enough ≤ fuel → Command.evaluate.onSource fuel clock source = some outcome ∧
        Command.run.onSource fuel clock (printing source) = some outcome) ∧
      ((∃ value : Value, outcome = .ofLines [value.text] [] 0) ∨
        ∃ error : RuntimeError, outcome = .ofLines [] [(Diagnostic.runtime error).text] 70) := by
  have evaluates (fuel : Nat) : Command.evaluate.onSource fuel clock source =
      Command.evaluateSource fuel clock tree := by
    rw [Command.onSource, Command.withExpression_of_ok quiet accepted]
  have agrees (fuel : Nat) : Command.evaluate.onSource fuel clock source =
      Command.run.onSource (fuel + 1) clock (printing source) := by
    rw [evaluates]
    refine Command.evaluateSource_eq_runSource quiet accepted (fun token member => ?_) clock fuel
    exact plain token (List.takeWhile_subset _ member)
  obtain ⟨outcome, enough, ends, shape⟩ := Command.evaluateSource_ends clock tree
  refine ⟨agrees, outcome, enough + 1, fun fuel le => ?_, shape⟩
  obtain ⟨less, rfl⟩ : ∃ less, fuel = less + 1 := ⟨fuel - 1, by omega⟩
  rw [← agrees less, evaluates, evaluates]
  exact ⟨ends _ (by omega), ends _ (by omega)⟩

/-- A minus in front of what is no number, and a comment up to the end. -/
def negatedSource : String := "-(nil or \"x\") // or else"

/-- The two commands agree on a fault of the run, although a comment hides the end
of the line. -/
theorem evaluate_agrees_with_run_on_fault :
    Lexer.faults negatedSource = [] ∧
    (∀ token ∈ Lexer.tokens negatedSource, token.isThisOrSuper = false) ∧
    (∃ tree, Grammar.singleExpression (.ofTokens (Lexer.tokens negatedSource)) = .ok tree) ∧
    Command.evaluate.onSource 9 (fun _ => 0) negatedSource =
      Command.run.onSource 10 (fun _ => 0) (printing negatedSource) ∧
    (Command.run.onSource 10 (fun _ => 0) (printing negatedSource)).map Outcome.exitCode =
      some 70 := by
  have quiet : Lexer.faults negatedSource = [] := by decide +kernel
  have plain : ∀ token ∈ Lexer.tokens negatedSource, token.isThisOrSuper = false := by
    decide +kernel
  have reads : (Grammar.singleExpression (.ofTokens (Lexer.tokens negatedSource))).toBool =
      true := by
    decide +kernel
  have fails : (Command.evaluate.onSource 9 (fun _ => 0) negatedSource).map Outcome.exitCode =
      some 70 := by
    decide +kernel
  cases accepted : Grammar.singleExpression (.ofTokens (Lexer.tokens negatedSource)) with
  | error error =>
      rw [accepted] at reads
      cases reads
  | ok tree =>
      have agrees := (evaluate_agrees_with_run quiet accepted plain fun _ => 0).1 9
      exact ⟨quiet, plain, ⟨tree, rfl⟩, agrees, agrees ▸ fails⟩

end LoxLang
