import LoxLang.Proofs.Scope.Relabelling
import LoxLang.Proofs.Session.Settled
import LoxLang.Proofs.Token.Concatenation

/-!
# Layout does not matter

A source can be broken into lines in many ways, and comments can stand between
its tokens. What the tokens are, and what is wrong with a source text, is the
content of its items (`Lexer.Item.content`); the lines are left out. Two sources
whose items have the same content are run alike: with any amount of fuel both
come to an end or neither does, and what there is to be seen of the end is the
same but for the lines of the faults (`layout_is_inert`).

Sources that are alike do not have to be relabelled into each other, since one
may have tokens on one line that the other has on two. But if all lines are
forgotten (`Relabelling.forgetLines`), both become the same. So each of the two
runs is compared with the run of the source without lines.
-/

namespace LoxLang

set_option autoImplicit false

/-! ## Content -/

namespace Lexer

/-- What an item is apart from its line. -/
inductive Item.Content where
  | token (kind : Token.Kind) (lexeme : String)
  | fault (message : String)
  deriving DecidableEq

/-- The content of an item. -/
def Item.content : Item → Item.Content
  | .token found => .token found.kind found.lexeme
  | .fault found => .fault found.cause.message

end Lexer

namespace Diagnostic

/-- The kinds of diagnostics. -/
inductive Kind where
  | lexical
  | grammar
  | binding
  | runtime
  | output
  deriving DecidableEq

/-- The kind of a diagnostic. -/
def kind : Diagnostic → Kind
  | lexical _ => .lexical
  | grammar _ => .grammar
  | binding _ => .binding
  | runtime _ => .runtime
  | output _ => .output

/-- What a diagnostic says apart from its line. -/
structure Content where
  kind : Kind
  message : String
  place : Option Place
  deriving DecidableEq

/-- The content of a diagnostic. -/
def content (diagnostic : Diagnostic) : Content :=
  ⟨diagnostic.kind, diagnostic.message, diagnostic.place?⟩

@[simp] theorem content_relabel (change : Relabelling) (diagnostic : Diagnostic) :
    (diagnostic.relabel change).content = diagnostic.content := by
  cases diagnostic <;> rfl

@[simp] theorem isStatic_relabel (change : Relabelling) (diagnostic : Diagnostic) :
    (diagnostic.relabel change).isStatic = diagnostic.isStatic := by
  cases diagnostic <;> rfl

@[simp] theorem isRuntime_relabel (change : Relabelling) (diagnostic : Diagnostic) :
    (diagnostic.relabel change).isRuntime = diagnostic.isRuntime := by
  cases diagnostic <;> rfl

end Diagnostic

/-- Faults of one kind that are alike are alike as diagnostics. -/
theorem Diagnostic.map_relabel_of_map {Error : Type} {change : Relabelling}
    (wrap : Error → Diagnostic) {move : Error → Error}
    (commutes : ∀ error, (wrap error).relabel change = wrap (move error))
    {faults others : List Error} (alike : faults.map move = others.map move) :
    (faults.map wrap).map (Diagnostic.relabel change) =
      (others.map wrap).map (Diagnostic.relabel change) := by
  have moved : Diagnostic.relabel change ∘ wrap = wrap ∘ move := funext commutes
  rw [List.map_map, List.map_map, moved, ← List.map_map, ← List.map_map, alike]

/-- What there is to be seen of a session: its output, its exit code, and what
the recorded faults say apart from their lines. -/
structure Session.Summary where
  output : ByteArray
  exitCode : Nat
  faults : List Diagnostic.Content

/-- The summary of a session. -/
def Session.summary (session : Session) : Session.Summary :=
  ⟨session.machine.output.written, session.exitCode, session.diagnostics.map Diagnostic.content⟩

/-! ## Sources without lines -/

/-- All lines become one. -/
def Relabelling.forgetLines : Relabelling := ⟨fun id => id, fun _ => 0⟩

open Relabelling (forgetLines)

/-- The wording of a lexical fault tells its cause. -/
theorem LexicalCause.message_injective : Function.Injective LexicalCause.message := by
  have length : ∀ char : Char, ("Unexpected character: " ++ char.toString).length = 23 := by
    intro char
    rw [String.length_append, Char.toString, String.length_singleton]
    rfl
  have apart : ∀ char : Char, (unexpectedCharacter char).message ≠ unterminatedString.message := by
    intro char same
    have lengths : "Unterminated string.".length = 23 :=
      (congrArg String.length same).symm.trans (length char)
    exact absurd lengths (by decide)
  intro one two same
  cases one with
  | unexpectedCharacter char =>
      cases two with
      | unexpectedCharacter other =>
          have letters : "Unexpected character: " ++ char.toString =
              "Unexpected character: " ++ other.toString := same
          rw [String.singleton_inj.mp ((String.append_right_inj _).mp letters)]
      | unterminatedString => exact absurd same (apart char)
  | unterminatedString =>
      cases two with
      | unexpectedCharacter other => exact absurd same.symm (apart other)
      | unterminatedString => rfl

namespace Lexer

/-- Tokens of the same content are the same without their lines. -/
theorem tokens_of_content {one two : List Item}
    (same : one.map Item.content = two.map Item.content) :
    (one.filterMap Item.token?).map (Token.relabel forgetLines) =
      (two.filterMap Item.token?).map (Token.relabel forgetLines) := by
  have determined : ∀ item : Item, item.token?.map (Token.relabel forgetLines) =
      match item.content with
      | .token kind lexeme => some ⟨kind, lexeme, 0⟩
      | .fault _ => none := by
    intro item
    cases item <;> rfl
  have whole : ∀ items : List Item,
      (items.filterMap Item.token?).map (Token.relabel forgetLines) =
        (items.map Item.content).filterMap fun content => match content with
          | .token kind lexeme => some ⟨kind, lexeme, 0⟩
          | .fault _ => none := by
    intro items
    rw [List.map_filterMap, List.filterMap_map]
    exact congrArg (List.filterMap · items) (funext determined)
  rw [whole, whole, same]

/-- Faults of the same content are the same without their lines. -/
theorem faults_of_content {one two : List Item}
    (same : one.map Item.content = two.map Item.content) :
    (one.filterMap Item.fault?).map (LexicalError.relabel forgetLines) =
      (two.filterMap Item.fault?).map (LexicalError.relabel forgetLines) := by
  induction one generalizing two with
  | nil =>
      rw [List.map_eq_nil_iff.mp same.symm]
  | cons first rest ih =>
      obtain ⟨other, others, rfl, here, behind⟩ := List.map_eq_cons_iff.mp same.symm
      have later := ih behind.symm
      cases first with
      | token found =>
          cases other with
          | token twin => exact later
          | fault twin => cases here
      | fault found =>
          cases other with
          | token twin => cases here
          | fault twin =>
              have causes : twin.cause = found.cause :=
                LexicalCause.message_injective (Item.Content.fault.inj here)
              have heads : twin.relabel forgetLines = found.relabel forgetLines := by
                rw [LexicalError.relabel, LexicalError.relabel, causes]
                rfl
              simp only [List.filterMap_cons, Item.fault?, List.map_cons, heads, later]

/-- The stream of a source without lines. -/
theorem stream_of_content {one two : String}
    (same : (items one).map Item.content = (items two).map Item.content) :
    (stream one).tokens.map (Token.relabel forgetLines) =
      (stream two).tokens.map (Token.relabel forgetLines) := by
  have cut : ∀ tokens : List Token,
      (tokens.takeWhile fun token => !token.isEnd).map (Token.relabel forgetLines) =
        (tokens.map (Token.relabel forgetLines)).takeWhile fun token => !token.isEnd := by
    intro tokens
    rw [List.takeWhile_map]
    rfl
  simp only [stream, TokenStream.ofTokens, cut, tokens, tokens_of_content same]

end Lexer

/-! ## Sessions -/

open Lexer

namespace Session

/-- Two sessions that are the same to look at, but for the lines of the recorded
faults. -/
structure SameButLines (session other : Session) : Prop where
  output : session.machine.output = other.machine.output
  diagnostics : session.diagnostics.map (Diagnostic.relabel forgetLines) =
    other.diagnostics.map (Diagnostic.relabel forgetLines)

namespace SameButLines

variable {session other : Session}

theorem any_diagnostics (same : session.SameButLines other) {test : Diagnostic → Bool}
    (blind : ∀ diagnostic, test (diagnostic.relabel forgetLines) = test diagnostic) :
    session.diagnostics.any test = other.diagnostics.any test := by
  have tests : test = test ∘ Diagnostic.relabel forgetLines :=
    funext fun found => (blind found).symm
  rw [tests, ← List.any_map, ← List.any_map, same.diagnostics]

theorem hasStaticFault (same : session.SameButLines other) :
    session.hasStaticFault = other.hasStaticFault :=
  same.any_diagnostics (Diagnostic.isStatic_relabel _)

theorem summary (same : session.SameButLines other) : session.summary = other.summary := by
  have runtime : session.hasRuntimeFault = other.hasRuntimeFault :=
    same.any_diagnostics (Diagnostic.isRuntime_relabel _)
  have contents : session.diagnostics.map Diagnostic.content =
      other.diagnostics.map Diagnostic.content := by
    have blind : Diagnostic.content = Diagnostic.content ∘ Diagnostic.relabel forgetLines :=
      funext fun found => (found.content_relabel _).symm
    rw [blind, ← List.map_map, ← List.map_map, same.diagnostics]
  rw [Session.summary, Session.summary, same.output, exitCode, exitCode, same.hasStaticFault,
    runtime, contents]

theorem reportAll (same : session.SameButLines other) {faults others : List Diagnostic}
    (alike : faults.map (Diagnostic.relabel forgetLines) =
      others.map (Diagnostic.relabel forgetLines)) :
    (session.reportAll faults).SameButLines (other.reportAll others) where
  output := by rw [machine_reportAll, machine_reportAll, same.output]
  diagnostics := by
    rw [diagnostics_reportAll, diagnostics_reportAll, List.map_append, List.map_append,
      same.diagnostics, alike]

/-- Two programs that are run in parallel with a third one conclude sessions
alike. -/
theorem concluded (same : session.SameButLines other)
    {outcome twin common : EStateM.Result Interrupt Machine Unit}
    (mine : Eval.Parallel forgetLines 0 id outcome common)
    (theirs : Eval.Parallel forgetLines 0 id twin common) :
    Option.Rel SameButLines (session.concluded outcome) (other.concluded twin) := by
  cases outcome with
  | ok result after =>
      obtain ⟨reached, rfl, similar⟩ := mine
      cases twin with
      | ok result last =>
          obtain ⟨_, found, alike⟩ := theirs
          cases found
          exact .some ⟨similar.output.symm.trans alike.output, same.diagnostics⟩
      | error interrupt last =>
          obtain ⟨_, found, -⟩ := theirs.resolve_left fun more => more.2 rfl
          cases found
  | error interrupt after =>
      obtain ⟨reached, rfl, similar⟩ := mine.resolve_left fun more => more.2 rfl
      cases twin with
      | ok result last =>
          obtain ⟨_, found, -⟩ := theirs
          cases found
      | error stop last =>
          obtain ⟨_, found, alike⟩ := theirs.resolve_left fun more => more.2 rfl
          obtain ⟨stops, rfl⟩ := EStateM.Result.error.inj found
          have reports := congrArg Interrupt.diagnostic? stops
          rw [Interrupt.diagnostic?_relabel, Interrupt.diagnostic?_relabel] at reports
          simp only [Session.concluded]
          cases first : interrupt.diagnostic? with
          | none =>
              rw [first] at reports
              rw [Option.map_eq_none_iff.mp reports.symm]
              exact .none
          | some diagnostic =>
              rw [first] at reports
              obtain ⟨twin, second, relabelled⟩ := Option.map_eq_some_iff.mp reports.symm
              rw [second]
              have behind : SameButLines { session with machine := after }
                  { other with machine := last } :=
                ⟨similar.output.symm.trans alike.output, same.diagnostics⟩
              have single : [diagnostic].map (Diagnostic.relabel forgetLines) =
                  [twin].map (Diagnostic.relabel forgetLines) := by
                rw [List.map_singleton, List.map_singleton, relabelled]
              exact .some (behind.reportAll single)

end SameButLines

end Session

/-- A program is run in parallel with the program without lines. -/
theorem parallel_withoutLines (output errors : Sink) (clock : Nat → Float) (fuel : Nat)
    (program : List Stmt) (distances : List (Nat × Nat)) :
    Eval.Parallel forgetLines 0 id
      (Eval.program fuel program ((Session.start output errors clock).prepared distances))
      (Eval.program fuel (Stmt.relabelAll forgetLines program)
        ((Session.start output errors clock).prepared distances)) := by
  have tracks : Eval.Tracks forgetLines 0 id _ _ :=
    Eval.tracks_program Function.injective_id fuel program
  have fresh := Store.relabel_machineInitial forgetLines output clock
  have similar : ((Session.start output errors clock).prepared distances).Similar forgetLines
      ((Session.start output errors clock).prepared distances) :=
    ⟨fresh.symm, rfl, rfl, fun _ => rfl, rfl, rfl, rfl⟩
  have parallel := tracks _ _ similar
  rwa [Nat.zero_add] at parallel

/-! ## Two sources of the same content -/

section Alike

variable {one two : String} (same : (items one).map Item.content = (items two).map Item.content)

include same

/-- Both sources are read into one program without lines. -/
theorem program_of_content (nextId : Nat) :
    let left := Grammar.program (stream one) nextId
    let right := Grammar.program (stream two) nextId
    Stmt.relabelAll forgetLines left.statements = Stmt.relabelAll forgetLines right.statements ∧
      left.errors.map (Located.relabel forgetLines) =
        right.errors.map (Located.relabel forgetLines) ∧ left.nextId = right.nextId := by
  intro left right
  have steady : ∀ id, nextId ≤ id → forgetLines.id (id + 1) = forgetLines.id id + 1 :=
    fun _ _ => rfl
  have mine := Grammar.program_relabel steady (stream one)
  rw [stream_of_content same] at mine
  have equal := mine.symm.trans (Grammar.program_relabel steady (stream two))
  exact Grammar.Program.mk.inj equal

/-- New sessions read both sources alike. -/
theorem sameButLines_read (output errors other : Sink) (clock : Nat → Float) :
    ((Session.start output errors clock).read one).2.SameButLines
      ((Session.start output other clock).read two).2 := by
  obtain ⟨-, parsed, -⟩ := program_of_content same 0
  have start : (Session.start output errors clock).SameButLines
      (Session.start output other clock) := ⟨rfl, rfl⟩
  have scanned : ((faults one).map .lexical).map (Diagnostic.relabel forgetLines) =
      ((faults two).map .lexical).map (Diagnostic.relabel forgetLines) :=
    Diagnostic.map_relabel_of_map .lexical (fun _ => rfl) (faults_of_content same)
  have reported := Diagnostic.map_relabel_of_map .grammar (fun _ => rfl) parsed
  rw [Session.read_eq, Session.read_eq]
  have scannedAlike := start.reportAll scanned
  have all := scannedAlike.reportAll reported
  rw [Session.reportAll, Session.reportAll, Session.reportAll, Session.reportAll,
    ← List.foldl_append, ← List.foldl_append] at all
  exact ⟨all.output, all.diagnostics⟩

/-- New sessions run both sources alike, with any amount of fuel. -/
theorem sameButLines_run (output errors other : Sink) (clock : Nat → Float) (fuel : Nat) :
    Option.Rel Session.SameButLines ((Session.start output errors clock).run fuel one)
      ((Session.start output other clock).run fuel two) := by
  have reading := sameButLines_read same output errors other clock
  obtain ⟨trees, -, -⟩ := program_of_content same 0
  have left : ((Session.start output errors clock).read one).1 =
      (Grammar.program (stream one) 0).statements := rfl
  have right : ((Session.start output other clock).read two).1 =
      (Grammar.program (stream two) 0).statements := rfl
  simp only [Session.run, reading.hasStaticFault, left, right]
  split
  · exact .some reading
  · have resolved := congrArg resolve trees
    rw [resolve_relabel, resolve_relabel] at resolved
    cases first : resolve (Grammar.program (stream one) 0).statements with
    | error errors =>
        cases second : resolve (Grammar.program (stream two) 0).statements with
        | error others =>
            rw [first, second] at resolved
            exact .some (reading.reportAll
              (Diagnostic.map_relabel_of_map .binding (fun _ => rfl) (Except.error.inj resolved)))
        | ok distances =>
            rw [first, second] at resolved
            cases resolved
    | ok distances =>
        cases second : resolve (Grammar.program (stream two) 0).statements with
        | error others =>
            rw [first, second] at resolved
            cases resolved
        | ok others =>
            rw [first, second] at resolved
            have equal : distances = others := by
              simpa only [forgetLines, List.map_id'] using Except.ok.inj resolved
            subst equal
            -- both programs are compared with the one without lines
            have mine := parallel_withoutLines output errors clock fuel
              (Grammar.program (stream one) 0).statements distances
            have theirs := parallel_withoutLines output other clock fuel
              (Grammar.program (stream two) 0).statements distances
            rw [← trees] at theirs
            simp only [Session.execute_eq_concluded, Session.prepared_read]
            exact reading.concluded mine theirs

end Alike

/-- **Layout does not matter.** Take two sources whose items have the same
content: tokens of the same kind, with the same value and text, and lexical
faults with the same message, in the same order. With any amount of fuel new
sessions have an outcome for both or for neither, and both outcomes have the
same summary: the output, the exit code, and the kind, message and place of
every fault. So one comes to an end if and only if the other does. -/
theorem layout_is_inert {one two : String}
    (same : (items one).map Item.content = (items two).map Item.content)
    (output errors other : Sink) (clock : Nat → Float) :
    (∀ fuel, ((Session.start output errors clock).run fuel one).map Session.summary =
      ((Session.start output other clock).run fuel two).map Session.summary) ∧
    ((∃ fuel, ((Session.start output errors clock).run fuel one).isSome) ↔
      ∃ fuel, ((Session.start output other clock).run fuel two).isSome) := by
  have summaries : ∀ fuel, ((Session.start output errors clock).run fuel one).map Session.summary =
      ((Session.start output other clock).run fuel two).map Session.summary := by
    intro fuel
    have alike := sameButLines_run same output errors other clock fuel
    generalize (Session.start output errors clock).run fuel one = left at alike ⊢
    generalize (Session.start output other clock).run fuel two = right at alike ⊢
    cases alike with
    | none => rfl
    | some sessions => exact congrArg some sessions.summary
  refine ⟨summaries, exists_congr fun fuel => ?_⟩
  rw [← Option.isSome_map, summaries fuel, Option.isSome_map]

/-- A sum with something that is no number, on one line. -/
def flatSource : String := "print 1 + nil;"

/-- The same with a comment in front, on several lines. -/
def spreadSource : String := "// a sum\nprint 1\n  + nil;"

/-- Both sources fail, on their own lines. -/
theorem fault_moves_with_its_line :
    ∃ left right : Session, (items flatSource).map Item.content =
        (items spreadSource).map Item.content ∧
      (Session.start Sink.unlimited Sink.unlimited fun _ => 0).run 20 flatSource = some left ∧
      (Session.start Sink.unlimited Sink.unlimited fun _ => 0).run 20 spreadSource = some right ∧
      left.summary = right.summary ∧ left.diagnostics = [.runtime ⟨.operandsNotAddable, 1⟩] ∧
      right.diagnostics = [.runtime ⟨.operandsNotAddable, 3⟩] := by
  have same : (items flatSource).map Item.content = (items spreadSource).map Item.content := by
    decide +kernel
  have flat : ((Session.start Sink.unlimited Sink.unlimited fun _ => 0).run 20 flatSource).map
      Session.diagnostics = some [.runtime ⟨.operandsNotAddable, 1⟩] := by
    decide +kernel
  have spread : ((Session.start Sink.unlimited Sink.unlimited fun _ => 0).run 20
      spreadSource).map Session.diagnostics = some [.runtime ⟨.operandsNotAddable, 3⟩] := by
    decide +kernel
  obtain ⟨left, ran, first⟩ := Option.map_eq_some_iff.mp flat
  obtain ⟨right, ended, second⟩ := Option.map_eq_some_iff.mp spread
  have summaries := (layout_is_inert same Sink.unlimited Sink.unlimited Sink.unlimited
    fun _ => 0).1 20
  rw [ran, ended] at summaries
  exact ⟨left, right, same, ran, ended, Option.some.inj summaries, first, second⟩

end LoxLang
