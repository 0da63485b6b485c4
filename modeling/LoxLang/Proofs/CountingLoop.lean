import LoxLang.Proofs.DeclaredNames
import LoxLang.Proofs.Lexical.Counting
import LoxLang.Proofs.Lexical.Mirroring
import LoxLang.Proofs.Run.RoundScopes

/-!
# What a counting loop does

A counting loop is read as a tree of blocks around a loop with a condition, and the
tree is made of what the clauses are read into (`Reader.exists_loopReading`). The main
theorem (`counting_tree_is_the_direct_loop`) says that running the tree does
what the loop says directly (`Lexical.counting`), wherever it is reached: the same
output, the same effects and the same end. The machine runs the tree with the
distances that resolution has found, and the second interpreter runs the loop
directly, where no block is in the way.

The blocks do not show in another way either. Behind the loop the environment is
the one in front of it, with the same names. The body, if it is a block, has a
frame of its own in every round.
-/

namespace LoxLang

set_option autoImplicit false

open Resolution Grammar

/-! ## Reading a loop -/

namespace Reader

/-- A loop that is read behind its first word: each clause with its tokens, what it is
read into, and the state behind it, from which the next one goes on. -/
structure LoopReading (fuel : Nat) (start after : ReaderState) where
  paren : Token
  opened : ReaderState
  opens : Clause (expectPunct .leftParen .forClauses) start [paren] paren opened
  initial : List Token
  initializer : Option Stmt
  begun : ReaderState
  begins : Clause (forInitializer fuel) opened initial initializer begun
  test : List Token
  condition : Option Expr
  tested : ReaderState
  tests : Clause (expressionUnless .semicolon fuel) begun test condition tested
  semicolon : Token
  parted : ReaderState
  parts : Clause (expectPunct .semicolon .forConditionEnd) tested [semicolon] semicolon parted
  step : List Token
  increment : Option Expr
  stepped : ReaderState
  steps : Clause (expressionUnless .rightParen fuel) parted step increment stepped
  close : Token
  closed : ReaderState
  closes : Clause (expectPunct .rightParen .forClausesEnd) stepped [close] close closed
  inner : List Token
  body : Stmt
  runs : Clause (statement fuel) closed inner body after

namespace LoopReading

variable {fuel : Nat} {start after : ReaderState} (reading : LoopReading fuel start after)

/-- The tokens of the clauses and of the body, in their order. -/
def tokens : List Token :=
  reading.paren :: (reading.initial ++ (reading.test ++ (reading.semicolon ::
    (reading.step ++ (reading.close :: reading.inner)))))

/-- The tree of the loop. -/
def tree : Stmt := .counting reading.initializer reading.condition reading.increment reading.body

theorem rest_eq : start.rest = reading.tokens ++ after.rest := by
  rw [reading.opens.rest, reading.begins.rest, reading.tests.rest, reading.parts.rest,
    reading.steps.rest, reading.closes.rest, reading.runs.rest]
  simp [tokens]

theorem body_plain : reading.body.isDeclaration = false := by
  obtain ⟨_, _, read⟩ := reads_rule fuel .statement _ _ _ reading.runs.ran reading.runs.quiet
  exact read.plain

end LoopReading

/-- **The tree of a loop is made of what its clauses are read into.** -/
theorem exists_loopReading {fuel : Nat} {start after : ReaderState} {found : Stmt}
    (ran : forStatement (fuel + 1) start = .ok found after)
    (quiet : after.errors = start.errors) :
    ∃ reading : LoopReading fuel start after, found = reading.tree := by
  replace ran : Rule.forStatement.read (fuel + 1) start = .ok found after := ran
  rw [Rule.read_succ] at ran
  obtain ⟨_, paren, opened, opens, ran, quiet⟩ := exists_first ran quiet
  obtain ⟨initial, initializer, begun, begins, ran, quiet⟩ := exists_first ran quiet
  obtain ⟨test, condition, tested, tests, ran, quiet⟩ := exists_first ran quiet
  obtain ⟨_, semicolon, parted, parts, ran, quiet⟩ := exists_first ran quiet
  obtain ⟨step, increment, stepped, steps, ran, quiet⟩ := exists_first ran quiet
  obtain ⟨_, close, closed, closes, ran, quiet⟩ := exists_first ran quiet
  obtain ⟨inner, body, last, runs, ran, quiet⟩ := exists_first ran quiet
  cases ran
  rw [Plan.read_forInitializer] at begins
  rw [Plan.read_expressionUnless] at tests steps
  obtain ⟨rfl, _⟩ := opens.tokens_of_expect
  obtain ⟨rfl, _⟩ := parts.tokens_of_expect
  obtain ⟨rfl, _⟩ := closes.tokens_of_expect
  exact ⟨⟨paren, opened, opens, initial, initializer, begun, begins, test, condition, tested,
    tests, semicolon, parted, parts, step, increment, stepped, steps, close, closed, closes,
    inner, body, runs⟩, rfl⟩

end Reader

theorem Stmt.wellFormed_of_counting {initializer : Option Stmt} {condition increment : Option Expr}
    {body : Stmt} (wellFormed : (Stmt.counting initializer condition increment body).WellFormed) :
    body.WellFormed := by
  have round {test : Expr} (loop : (Stmt.loop test (.round increment body)).WellFormed) :
      body.WellFormed := by
    cases increment with
    | none => exact loop.2.1
    | some step => exact loop.2.1.1
  cases initializer with
  | none =>
      rw [Stmt.counting_none] at wellFormed
      exact round wellFormed
  | some start =>
      rw [Stmt.counting_some] at wellFormed
      exact round wellFormed.2.1

/-! ## The tree and the loop -/

namespace Lexical

variable {placed : Placing} {room : Room} {world : World} {machine : Machine} {state : State}
  {around : Surroundings} {scopes : Scopes} {scope : Scope} {initializer : Option Stmt}
  {condition increment : Option Expr} {body : Stmt}

/-- Steps that agree finish together. -/
theorem Agree.finished_iff {Result Twin : Type} {good : World → Store → Result → Twin → Prop}
    {outcome : EStateM.Result Interrupt Machine Result}
    {twin : EStateM.Result Interrupt State Twin}
    (agree : Agree placed room world machine good outcome twin) :
    Finished outcome ↔ Finished twin := by
  rcases agree.cases with ⟨_, _, _, _, _, rfl, rfl, _⟩ | ⟨interrupt, _, after, reached, rfl, rfl, _⟩
  · constructor
    · rintro _ last same
      cases same
    · rintro _ last same
      cases same
  · constructor
    · rintro finished last same
      cases same
      exact finished after rfl
    · rintro finished last same
      cases same
      exact finished reached rfl

/-- The machine and the second interpreter agree on the tree of a loop. -/
theorem Standing.agree_tree
    (standing : Standing placed world machine state around.enclosing scopes scope)
    (wellFormed : (Stmt.counting initializer condition increment body).WellFormed)
    (inside : (Stmt.counting initializer condition increment body).Scoped placed around scopes)
    (numbers : (Stmt.counting initializer condition increment body).numbers.Nodup) (steps : Nat) :
    Agree placed (.fromFrame machine.store.frames.size) world machine
      (fun wider _ => LikeFlow placed wider)
      (Eval.statement steps (.counting initializer condition increment body) machine)
      ((Prod.fst <$> statement steps scope (.counting initializer condition increment body))
        state) := by
  have agree := (agreesAt placed steps).branch standing wellFormed Stmt.counting_plain inside
    numbers (Room.open_fromFrame _)
  rw [map_eq_pure_bind]
  exact .mapTwin Prod.fst (agree.mono (.refl _) fun _ _ _ _ _ _ like => like.1)

/-- **The tree of a counting loop and the loop itself agree**, if one of them
finishes and the other has some more fuel. -/
theorem Standing.agree_counting
    (standing : Standing placed world machine state around.enclosing scopes scope)
    (wellFormed : (Stmt.counting initializer condition increment body).WellFormed)
    (plain : body.isDeclaration = false)
    (inside : (Stmt.counting initializer condition increment body).Scoped placed around scopes)
    (numbers : (Stmt.counting initializer condition increment body).numbers.Nodup) (steps : Nat) :
    (Finished (Eval.statement steps (.counting initializer condition increment body) machine) →
      Agree placed (.fromFrame machine.store.frames.size) world machine
        (fun wider _ => LikeFlow placed wider)
        (Eval.statement steps (.counting initializer condition increment body) machine)
        (counting (steps + 8) scope initializer condition increment body state)) ∧
    (Finished (counting steps scope initializer condition increment body state) →
      Agree placed (.fromFrame machine.store.frames.size) world machine
        (fun wider _ => LikeFlow placed wider)
        (Eval.statement (steps + 8) (.counting initializer condition increment body) machine)
        (counting steps scope initializer condition increment body state)) := by
  have bodyWellFormed := Stmt.wellFormed_of_counting wellFormed
  constructor
  · intro finished
    have agree := standing.agree_tree wellFormed inside numbers steps
    have same := statement_below_counting scope condition increment initializer bodyWellFormed plain
      steps state (agree.finished_iff.mp finished)
    rwa [same]
  · intro finished
    have agree := standing.agree_tree wellFormed inside numbers (steps + 8)
    have same := counting_below_statement scope condition increment initializer bodyWellFormed plain
      steps state finished
    rwa [same] at agree

/-- All frames around the environment of a followed loop are there. -/
theorem Followed.anchored {fuel : Nat} {test : Expr} {round : Stmt}
    (followed : Followed placed ⟨fuel, .rounds test round, machine⟩) :
    machine.store.Anchored machine.env := by
  obtain ⟨_, _, _, _, _, standing, _⟩ := followed
  exact Store.Matches.anchored standing.simulates.inhabited standing.simulates.global
    standing.stands.mirrors.chain

end Lexical

/-- **A counting loop does what it says.** Take any session, whatever sources it was
fed before, and a source that it reads and resolves without faults.

- A counting loop that is read without errors is the tree of what its three clauses and
  its body are read into, each by its own rule and from its own tokens. These tokens
  and the marks between them are, in their order, all that the loop takes behind its
  first word. The body is no declaration.
- Wherever such a tree is reached in the run, there is a state of the second
  interpreter that simulates the machine, and from there the direct loop agrees with
  the tree: if one of them finishes, then with some more fuel so does the other, with
  the same output, with values that are alike in the same places, and normally, by a
  `return` of like values or with the same fault. Behind it the environment is the one
  in front of it, and the frames that were there have the same names.
- If the body is a block, then each round has a new frame for it. Take two functions
  that are made in the bodies of different rounds, there or in functions that were
  made there themselves. No frame is around both of them, but for those that were
  there before the first of these rounds and are around the loop.
-/
theorem counting_tree_is_the_direct_loop {output errors : Sink} {clock : Nat → Float}
    {session : Session} (reached : (Session.start output errors clock).Reaches session)
    {source : String} {distances : List (Nat × Nat)}
    (runnable : session.Runnable source distances) (fuel : Nat) :
    let program := (session.read source).1
    let before := session.prepared distances
    let placed := before.distances.placing (session.read source).2.nextId
    (∀ steps start found after, Reader.forStatement steps start = .ok found after →
      after.errors = start.errors →
        ∃ less, ∃ reading : Reader.LoopReading less start after, steps = less + 1 ∧
          start.rest = reading.tokens ++ after.rest ∧
          found = .counting reading.initializer reading.condition reading.increment reading.body ∧
          reading.body.isDeclaration = false) ∧
    (∀ left initializer condition increment body machine,
      Performs fuel program before
        ⟨left, .statement (.counting initializer condition increment body), machine⟩ →
      body.isDeclaration = false →
        (∃ world state enclosing scopes scope,
          Lexical.Standing placed world machine state enclosing scopes scope ∧
          let agree := Lexical.Agree placed (.fromFrame machine.store.frames.size) world machine
            fun wider _ => Lexical.LikeFlow placed wider
          let tree steps :=
            Eval.statement steps (.counting initializer condition increment body) machine
          let direct steps :=
            Lexical.counting steps scope initializer condition increment body state
          ∀ steps, (Finished (tree steps) → agree (tree steps) (direct (steps + 8))) ∧
            (Finished (direct steps) → agree (tree (steps + 8)) (direct steps))) ∧
        (Eval.reached (Eval.statement left (.counting initializer condition increment body)
          machine)).env = machine.env ∧
        Eval.KeepsNames machine
          (Eval.statement left (.counting initializer condition increment body) machine)) ∧
    ∀ left less test increment body machine last one other,
      let round := Stmt.round increment (.block body)
      Performs fuel program before ⟨left, .rounds test round, machine⟩ →
      LaterRound test round ⟨left, .rounds test round, machine⟩ ⟨less, .rounds test round, last⟩ →
      RunsBody body increment ⟨left, .rounds test round, machine⟩ one →
      RunsBody body increment ⟨less, .rounds test round, last⟩ other →
        machine.store.frames.size ≤ one.machine.env ∧ one.machine.env < other.machine.env ∧
        ∀ closure twin behind later, MadeInside one closure behind → MadeInside other twin later →
          ∀ store, behind.Grows store → later.Grows store →
            ∀ shared, store.Surrounds shared closure.env → store.Surrounds shared twin.env →
              shared < machine.store.frames.size ∧ machine.store.Surrounds shared machine.env := by
  intro program before placed
  have sound := Session.sound_reaches reached (Session.sound_start output errors clock)
  refine ⟨fun steps start found after ran quiet => ?_,
    fun left initializer condition increment body machine performs plain => ⟨?_, ?_, ?_⟩, ?_⟩
  · cases steps with
    | zero => cases ran
    | succ less =>
        obtain ⟨reading, same⟩ := Reader.exists_loopReading ran quiet
        exact ⟨less, reading, rfl, reading.rest_eq, same, reading.body_plain⟩
  · obtain ⟨world, state, around, scopes, scope, standing, wellFormed, inside, numbers, _⟩ :=
      Lexical.followed_of_performs reached runnable performs
    exact ⟨world, state, around.enclosing, scopes, scope, standing,
      standing.agree_counting wellFormed plain inside numbers⟩
  · exact ((Eval.restoredAt left).statement _ machine).env
  · have adds := (Eval.addsAt left).statement (fits_of_performs performs (runnable.starts sound))
    refine Eval.Adds.keepsNames (adds.mono fun _ name here => ?_)
      ((Eval.restoredAt left).statement _)
    exact Stmt.not_declares Stmt.counting_plain name here.2
  · intro left less test increment body machine last one other round performs following first second
    have anchored := (Lexical.followed_of_performs reached runnable performs).anchored
    have grows := (first.later following).2
    refine ⟨first.opened.isNew, ?_, ?_⟩
    · exact Nat.lt_of_lt_of_le first.opened.isThere (Nat.le_trans grows.size second.opened.isNew)
    · intro closure twin behind later made remade store growing growingToo shared seen seenToo
      have around := RunsBody.shared following first second anchored made remade growing growingToo
        seen seenToo
      exact ⟨anchored shared around, around⟩

/-- The machine behind a step with a result that is asked for. -/
def Eval.after? {Result : Type} (wanted : Result → Bool) :
    EStateM.Result Interrupt Machine Result → Option Machine
  | .ok result machine => if wanted result then some machine else none
  | .error _ _ => none

theorem Eval.eq_ok_of_after? {Result : Type} {wanted : Result → Bool}
    {outcome : EStateM.Result Interrupt Machine Result} {machine : Machine}
    (found : after? wanted outcome = some machine) :
    ∃ result, outcome = .ok result machine ∧ wanted result = true := by
  cases outcome with
  | error interrupt last => cases found
  | ok result last =>
      simp only [after?] at found
      split at found
      next fine =>
        cases found
        exact ⟨result, rfl, fine⟩
      next => cases found

/-- Whether a statement has ended normally. -/
def Flow.isNormal : Flow → Bool
  | .normal => true
  | .returned _ => false

theorem Eval.eq_ok_normal {outcome : EStateM.Result Interrupt Machine Flow} {machine : Machine}
    (found : after? Flow.isNormal outcome = some machine) : outcome = .ok .normal machine := by
  obtain ⟨flow, ran, normal⟩ := eq_ok_of_after? found
  cases flow with
  | normal => exact ran
  | returned value => cases normal

/-- The clauses of a loop that has all of them and makes a function first in its
body, if it is all of a program. -/
def Stmt.clauses? : List Stmt → Option (Stmt × Expr × Expr × FunctionDecl × List Stmt)
  | [.block [start, .loop test (.block [.block (.function made :: rest), .expression step])]] =>
    some (start, test, step, made, rest)
  | _ => none

theorem Stmt.eq_counting_of_clauses? {program : List Stmt} {start : Stmt} {test step : Expr}
    {made : FunctionDecl} {rest : List Stmt}
    (found : clauses? program = some (start, test, step, made, rest)) :
    program =
      [.counting (some start) (some test) (some step) (.block (.function made :: rest))] := by
  unfold clauses? at found
  split at found
  next =>
    cases found
    rfl
  next => cases found

/-- A loop that makes a function in each of its two rounds. -/
def countingSource : String :=
  "for (var i = 0; i < 2; i = i + 1) { fun f() { return f; } print i; }"

/-- The direct loop prints what the tree prints, and the functions of its two rounds
do not share the frame in which the first one is bound. -/
theorem functions_of_two_rounds_are_apart :
    let session := Session.start Sink.unlimited Sink.unlimited fun _ => 0
    ∃ distances start test step body, session.Runnable countingSource distances ∧
      (session.read countingSource).1 =
        [.counting (some start) (some test) (some step) (.block body)] ∧
      (∃ scope state last,
        Lexical.counting 48 scope (some start) (some test) (some step) (.block body) state =
          .ok .normal last ∧
        last.output.written.toList = "0\n1\n".toUTF8.toList) ∧
      ∃ one other closure twin behind later, MadeInside one closure behind ∧
        MadeInside other twin later ∧ one.machine.env < other.machine.env ∧
        ∀ store, behind.Grows store → later.Grows store →
          ¬ (store.Surrounds one.machine.env closure.env ∧
            store.Surrounds one.machine.env twin.env) := by
  intro session
  have runs : ((resolve (session.read countingSource).1).toOption.bind fun distances =>
      (Stmt.clauses? (session.read countingSource).1).bind fun (start, test, step, made, rest) =>
        let round : Stmt := .block [.block (.function made :: rest), .expression step]
        let before := session.prepared distances
        (Eval.after? Flow.isNormal (Eval.statement 38 start before.inBlock)).bind fun begun =>
          (Eval.after? Value.isTruthy (Eval.expression 35 test begun)).bind fun ready =>
            (Eval.after? Flow.isNormal (Eval.statement 35 round ready)).bind fun next =>
              (Eval.after? Value.isTruthy (Eval.expression 34 test next)).bind fun _ =>
                (Eval.after? Flow.isNormal (Eval.statement 40
                  (.block [start, .loop test round]) before)).map fun last =>
                    ((session.read countingSource).2.hasStaticFault,
                      last.output.written.toList)) =
      some (false, "0\n1\n".toUTF8.toList) := by
    decide +kernel
  obtain ⟨distances, accepted, runs⟩ := Option.bind_eq_some_iff.mp runs
  have resolved := Resolution.eq_ok_of_toOption accepted
  obtain ⟨⟨start, test, step, made, rest⟩, clauses, found⟩ := Option.bind_eq_some_iff.mp runs
  obtain ⟨begun, starts, found⟩ := Option.bind_eq_some_iff.mp found
  obtain ⟨ready, tested, found⟩ := Option.bind_eq_some_iff.mp found
  obtain ⟨next, done, found⟩ := Option.bind_eq_some_iff.mp found
  obtain ⟨again, retested, found⟩ := Option.bind_eq_some_iff.mp found
  obtain ⟨last, ended, same⟩ := Option.map_eq_some_iff.mp found
  obtain ⟨quiet, shown⟩ := Prod.mk.inj same
  have program := Stmt.eq_counting_of_clauses? clauses
  have runnable : session.Runnable countingSource distances := ⟨quiet, resolved⟩
  obtain ⟨_, loop, rounds⟩ := counting_tree_is_the_direct_loop
    (.start : session.Reaches session) runnable 40
  rw [program] at loop rounds
  refine ⟨distances, start, test, step, .function made :: rest, runnable, program, ?_, ?_⟩
  · obtain ⟨⟨world, state, _, _, scope, _, same⟩, _⟩ :=
      loop 40 (some start) (some test) (some step) _ _ (.first (.here _)) rfl
    have finished := Eval.eq_ok_normal ended
    have agree := (same 40).1 fun _ stuck => by cases finished.symm.trans stuck
    rcases agree.cases with ⟨_, _, _, _, direct, left, right, advances, like⟩ |
      ⟨_, _, _, _, left, _⟩
    · cases finished.symm.trans left
      cases like
      refine ⟨scope, state, direct, right, ?_⟩
      rw [← advances.simulates.output]
      exact shown
    · cases finished.symm.trans left
  · obtain ⟨value, holds, truthy⟩ := Eval.eq_ok_of_after? tested
    obtain ⟨other, holdsAgain, truthyAgain⟩ := Eval.eq_ok_of_after? retested
    have performs : Performs 40 [.counting (some start) (some test) (some step)
        (.block (.function made :: rest))] (session.prepared distances) ⟨36, .rounds test
          (.round (some step) (.block (.function made :: rest))), begun⟩ :=
      .first (.begun .block (.begun (.otherStatements (Eval.eq_ok_normal starts))
        (.begun .firstStatement (.begun .loop (.here _)))))
    have makes {fuel : Nat} (machine : Machine) : MadeInside
        ⟨fuel + 2, .statements (.function made :: rest), machine⟩ ⟨made, machine.env, false⟩
        (Eval.reached (Eval.statement (fuel + 1) (.function made) machine)).store := by
      refine .intro (.begun .here .firstStatement ?_) .function
      intro closure values entered
      cases entered
    obtain ⟨isNew, less, apart⟩ := rounds 36 35 test (some step) (.function made :: rest) begun
      next ⟨32, .statements (.function made :: rest), ready.inBlock.inBlock⟩
      ⟨31, .statements (.function made :: rest), again.inBlock.inBlock⟩ performs
      (.next (.nextRound holds truthy (Eval.eq_ok_normal done)))
      (.counted (.roundBody holds truthy) .block .firstStatement .block)
      (.counted (.roundBody holdsAgain truthyAgain) .block .firstStatement .block)
    refine ⟨_, _, _, _, _, _, makes _, makes _, less, fun store grows growsToo both => ?_⟩
    have old := (apart _ _ _ _ (makes _) (makes _) store grows growsToo _ both.1 both.2).1
    exact Nat.not_lt.mpr isNew old

end LoxLang
