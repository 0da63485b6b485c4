import LoxLang.Proofs.Run.Origins
import LoxLang.Proofs.Scope.Entries
import LoxLang.Proofs.Session.Settled
import LoxLang.Proofs.Token.Concatenation
import Mathlib

/-!
# The identity of nodes

The nodes at which names are used are told apart by their numbers, and all texts
that are read in a process draw these from one counter. So a number belongs to one
node of one text, whichever texts were read and whether or not they had faults. The
distances of a new source are therefore put into the table beside those of earlier
ones, and none is replaced.

A session goes on running functions of earlier sources. Their nodes find in the
table the distance that was computed when their own source was resolved, or none if
there was none (`Use.KeepsDistance`). This is an invariant of the store of a session
(`Session.Recorded`), and what a run evaluates comes from its program or from the
store.
-/

namespace LoxLang

set_option autoImplicit false

/-! ## The texts of a process -/

/-- What a text is read into. -/
inductive Reading where
  | program (statements : List Stmt)
  | expression (found : Option Expr)

namespace Reading

/-- The uses of names in what was read. -/
def uses : Reading → List Use
  | program statements => Stmt.usesAll statements
  | expression found => Expr.usesOption found

/-- The numbers of the nodes at which names are used in several texts. -/
def ids (readings : List Reading) : List Nat :=
  readings.flatMap fun reading => Use.ids reading.uses

theorem id_mem_ids {readings : List Reading} {reading : Reading} {use : Use}
    (among : reading ∈ readings) (member : use ∈ reading.uses) :
    use.occurrence.id ∈ ids readings :=
  List.mem_flatMap_of_mem among (List.mem_map_of_mem member)

/-- Resolution of a program among the texts never records two distances for one
number. -/
theorem nodup_entries {readings : List Reading} (distinct : (ids readings).Nodup)
    {statements : List Stmt} (among : .program statements ∈ readings) :
    ((Resolution.program statements).distances.map Prod.fst).Nodup :=
  nodup_of_subperm (Resolution.entries_program statements)
    ((List.nodup_flatMap.mp distinct).1 _ among)

end Reading

/-- The sessions of a process, with what was read so far, the latest text first. A
session runs sources, forgets faults, writes text and is given another clock. In
between, programs and expressions are read elsewhere in the process, with numbers
from the same counter. -/
inductive Session.Process (output errors : Sink) (clock : Nat → Float) :
    Session → List Reading → Prop where
  | start : Process output errors clock (start output errors clock) []
  | run {session next : Session} {readings : List Reading}
      (earlier : Process output errors clock session readings) (fuel : Nat) (source : String)
      (ran : session.run fuel source = some next) :
      Process output errors clock next (.program (session.read source).1 :: readings)
  | reset {session : Session} {readings : List Reading}
      (earlier : Process output errors clock session readings) :
      Process output errors clock session.reset readings
  | say {session : Session} {readings : List Reading}
      (earlier : Process output errors clock session readings) (text : String) :
      Process output errors clock (session.say text) readings
  | withClock {session : Session} {readings : List Reading}
      (earlier : Process output errors clock session readings) (other : Nat → Float) :
      Process output errors clock (session.withClock other) readings
  | readProgram {session : Session} {readings : List Reading}
      (earlier : Process output errors clock session readings) (source : String) :
      Process output errors clock
        { session with nextId := (Grammar.program (Lexer.stream source) session.nextId).nextId }
        (.program (Grammar.program (Lexer.stream source) session.nextId).statements :: readings)
  | readExpression {session : Session} {readings : List Reading}
      (earlier : Process output errors clock session readings) (source : String) :
      Process output errors clock
        { session with nextId := (Grammar.expressionFrom (Lexer.stream source) session.nextId).2 }
        (.expression (Grammar.expressionFrom (Lexer.stream source) session.nextId).1 :: readings)

/-! ## Distances of earlier texts -/

/-- The use stands in a program that was read and resolved, and the table has for
it what was found then: its distance, or nothing. -/
def Use.KeepsDistance (readings : List Reading) (table : DistanceTable) (use : Use) : Prop :=
  ∃ (statements : List Stmt) (distances : List (Nat × Nat)),
    .program statements ∈ readings ∧ use ∈ Stmt.usesAll statements ∧
      resolve statements = .ok distances ∧
      table.find? use.occurrence.id = distances.lookup use.occurrence.id

theorem Use.KeepsDistance.mono {readings more : List Reading} {table further : DistanceTable}
    {use : Use} (keeps : use.KeepsDistance readings table) (subset : readings ⊆ more)
    (same : further.find? use.occurrence.id = table.find? use.occurrence.id) :
    use.KeepsDistance more further := by
  obtain ⟨statements, distances, among, member, resolved, found⟩ := keeps
  exact ⟨statements, distances, subset among, member, resolved, same.trans found⟩

theorem Use.KeepsDistance.id_mem_ids {readings : List Reading} {table : DistanceTable} {use : Use}
    (keeps : use.KeepsDistance readings table) : use.occurrence.id ∈ Reading.ids readings := by
  obtain ⟨statements, _, among, member, _⟩ := keeps
  exact Reading.id_mem_ids among member

namespace Session

/-- What holds of a session in a process: every use that was read has a number of
its own, numbers that are not drawn yet have no distance, and the functions in the
store keep the distances of their own sources. -/
structure Recorded (session : Session) (readings : List Reading) : Prop where
  numbered : Numbered (Reading.ids readings) 0 session.nextId
  unplaced : ∀ id, session.nextId ≤ id → session.machine.distances.find? id = none
  store : session.machine.store.From (Use.KeepsDistance readings session.machine.distances)

variable {session next : Session} {readings : List Reading} {source : String}
  {distances : List (Nat × Nat)}

theorem statements_read (session : Session) (source : String) :
    (session.read source).1 = (Grammar.program (Lexer.stream source) session.nextId).statements :=
  rfl

theorem numbered_read (session : Session) (source : String) :
    Numbered (Use.ids (Reading.program (session.read source).1).uses) session.nextId
      (session.read source).2.nextId :=
  (Grammar.numbered_program _ _).of_subperm (Stmt.ids_subperm_all _)

namespace Runnable

/-- A new source leaves the distances of earlier nodes as they are. -/
theorem find?_prepared (runnable : session.Runnable source distances) {id : Nat}
    (old : id < session.nextId) :
    (session.prepared distances).distances.find? id = session.machine.distances.find? id := by
  rw [prepared, DistanceTable.find?_insertAll, runnable.lookup_of_lt old, Option.none_or]

/-- A new source has distances for new numbers only. -/
theorem le_of_mem (runnable : session.Runnable source distances) {id distance : Nat}
    (member : (id, distance) ∈ distances) : session.nextId ≤ id :=
  (runnable.numbered.range id (runnable.entries.1 _ member)).1

end Runnable

namespace Recorded

theorem start (output errors : Sink) (clock : Nat → Float) :
    (Session.start output errors clock).Recorded [] where
  numbered := .nil 0
  unplaced _ _ := DistanceTable.find?_empty _
  store := .start fun _ => trivial

/-- New numbers are beside the old ones. -/
theorem numbered_cons (recorded : session.Recorded readings) {reading : Reading} {nextId : Nat}
    (new : Numbered (Use.ids reading.uses) session.nextId nextId) :
    Numbered (Reading.ids (reading :: readings)) 0 nextId :=
  (recorded.numbered.append new).swap

/-- A text that is only read. -/
theorem reading (recorded : session.Recorded readings) (machine : next.machine = session.machine)
    {reading : Reading} (new : Numbered (Use.ids reading.uses) session.nextId next.nextId) :
    next.Recorded (reading :: readings) where
  numbered := recorded.numbered_cons new
  unplaced id above := by
    rw [machine]
    exact recorded.unplaced id (Nat.le_trans new.le above)
  store := by
    rw [machine]
    exact recorded.store.mono fun use keeps => keeps.mono (List.subset_cons_self _ _) rfl

/-- Only numbers that were drawn have a distance. -/
theorem lt_of_find? (recorded : session.Recorded readings) {id distance : Nat}
    (found : session.machine.distances.find? id = some distance) : id < session.nextId := by
  refine Nat.lt_of_not_le fun new => ?_
  rw [recorded.unplaced id new] at found
  cases found

/-- The uses of a new source have the distances that were just found. -/
theorem keepsDistance_read (recorded : session.Recorded readings)
    (runnable : session.Runnable source distances) :
    ∀ use ∈ Stmt.usesAll (session.read source).1,
      use.KeepsDistance (.program (session.read source).1 :: readings)
        (session.prepared distances).distances := by
  intro use member
  refine ⟨_, distances, List.mem_cons_self, member, runnable.resolved, ?_⟩
  have new := ((session.numbered_read source).range _ (List.mem_map_of_mem member)).1
  rw [prepared, DistanceTable.find?_insertAll, recorded.unplaced _ new, Option.or_none]

/-- The machine that a source is run on keeps all distances. -/
theorem prepared (recorded : session.Recorded readings)
    (runnable : session.Runnable source distances) :
    (session.prepared distances).From
      (Use.KeepsDistance (.program (session.read source).1 :: readings)
        (session.prepared distances).distances)
      (session.prepared distances).distances := by
  refine ⟨rfl, recorded.store.mono fun use keeps => ?_⟩
  have old := (recorded.numbered.range _ keeps.id_mem_ids).2
  exact keeps.mono (List.subset_cons_self _ _) (runnable.find?_prepared old)

/-- **A run keeps the record**, however it ends. -/
theorem run (recorded : session.Recorded readings) {fuel : Nat}
    (ran : session.run fuel source = some next) :
    next.Recorded (.program (session.read source).1 :: readings) := by
  rcases run_cases ran with ⟨faults, rfl⟩ | ⟨distances, runnable, executed⟩
  · refine recorded.reading (by rw [machine_reportAll, machine_read]) ?_
    rw [nextId_reportAll]
    exact session.numbered_read source
  · obtain ⟨machine, nextId⟩ := machine_execute executed
    rw [prepared_read] at machine
    have left := ((retaining_governs fuel).ended_program
      ⟨recorded.prepared runnable, recorded.keepsDistance_read runnable⟩).kept
    rw [← machine] at left
    refine ⟨?_, fun id above => ?_, ?_⟩
    · rw [nextId]
      exact recorded.numbered_cons (session.numbered_read source)
    · rw [left.distances]
      exact runnable.unplaced_prepared recorded.unplaced (nextId ▸ above)
    · rw [left.distances]
      exact left.store

end Recorded

/-- Every session of a process is recorded. -/
theorem Process.recorded {output errors : Sink} {clock : Nat → Float}
    (process : Process output errors clock session readings) : session.Recorded readings := by
  induction process with
  | start => exact .start output errors clock
  | run _ fuel source ran ih => exact ih.run ran
  | reset _ ih | say _ _ ih | withClock _ _ ih => exact ⟨ih.numbered, ih.unplaced, ih.store⟩
  | readProgram _ source ih =>
      refine ih.reading ?_ ((Grammar.numbered_program _ _).of_subperm (Stmt.ids_subperm_all _))
      rfl
  | readExpression _ source ih =>
      refine ih.reading ?_
        ((Grammar.numbered_expressionFrom _ _).of_subperm (Expr.ids_subperm_option _))
      rfl

end Session

/-! ## The evaluation of a node -/

/-- The evaluation of a node looks a use of a name up on a machine. An assignment
does this behind the evaluation of the expression that it assigns. -/
inductive Consults (left : Nat) (machine : Machine) : Expr → Use → Machine → Prop where
  | read (occurrence : Occurrence) :
      Consults left machine (.var occurrence) ⟨.read, occurrence⟩ machine
  | write (occurrence : Occurrence) {value : Expr} {assigned : Value} {after : Machine}
      (ran : Eval.expression left value machine = .ok assigned after) :
      Consults left machine (.assign occurrence value) ⟨.write, occurrence⟩ after
  | thisWord (occurrence : Occurrence) :
      Consults left machine (.thisRef occurrence) ⟨.thisWord, occurrence⟩ machine
  | superWord (occurrence : Occurrence) (method : Token) :
      Consults left machine (.superRef occurrence method) ⟨.superWord, occurrence⟩ machine

theorem Consults.known {known : Use → Prop} {table : DistanceTable} {left : Nat}
    {machine consulted : Machine} {found : Expr} {use : Use}
    (consults : Consults left machine found use consulted)
    (made : Moment.From known table ⟨left + 1, .expression found, machine⟩) :
    known use ∧ consulted.distances = table := by
  cases consults with
  | write occurrence ran =>
      have value := retaining_laws.begins made .assigned
      exact ⟨made.uses _ List.mem_cons_self, (retaining_laws.expression_ok value ran).1.distances⟩
  | read | thisWord | superWord =>
      exact ⟨made.uses _ (List.mem_singleton_self _), made.machine.distances⟩

/-! ## The main statement -/

/-- With one entry for each number at most, every entry is found. -/
theorem lookup_of_mem {entries : List (Nat × Nat)} (distinct : (entries.map Prod.fst).Nodup)
    {id distance : Nat} (member : (id, distance) ∈ entries) :
    entries.lookup id = some distance := by
  obtain ⟨front, back, rfl⟩ := List.append_of_mem member
  rw [List.map_append, List.map_cons] at distinct
  refine List.lookup_eq_some_iff.mpr ⟨front, back, rfl, fun other among => ?_⟩
  have apart := (List.nodup_append.mp distinct).2.2 _ (List.mem_map_of_mem among) id
    List.mem_cons_self
  exact bne_iff_ne.mpr apart.symm

/-- **Node identities never collide.** Take any process, whichever texts it has
read, and a further source. The nodes at which names are used, in all that was read
with or without faults, have different numbers. Resolution records one entry for
each number at most, and only for uses in the tree that it walks.

If the source is run, then the entries it puts into the table are new ones, and every
earlier node has in the table what it had before. Whenever a node is evaluated in
the run, be it of this source or of an earlier one, it is a node of a program that was
read and resolved, and the table that is consulted has for it the distance that
was found then, or none if there was none. -/
theorem node_identities_never_collide {output errors : Sink} {clock : Nat → Float}
    {session : Session} {readings : List Reading}
    (process : Session.Process output errors clock session readings) (source : String) :
    let texts := .program (session.read source).1 :: readings
    (Reading.ids texts).Nodup ∧
    (∀ statements, .program statements ∈ texts →
      ((Resolution.program statements).distances.map Prod.fst).Nodup ∧
      ∀ entry ∈ (Resolution.program statements).distances,
        ∃ use ∈ Stmt.usesAll statements, use.occurrence.id = entry.1) ∧
    ∀ distances, session.Runnable source distances →
      let before := session.machine.distances
      let after := (session.prepared distances).distances
      (∀ id distance, (id, distance) ∈ distances →
        before.find? id = none ∧ after.find? id = some distance) ∧
      (∀ id distance, before.find? id = some distance → after.find? id = some distance) ∧
      (∀ reading ∈ readings, ∀ use ∈ reading.uses,
        after.find? use.occurrence.id = before.find? use.occurrence.id) ∧
      ∀ fuel left found machine use consulted,
        Performs fuel (session.read source).1 (session.prepared distances)
          ⟨left + 1, .expression found, machine⟩ →
        Consults left machine found use consulted →
          use.KeepsDistance texts consulted.distances := by
  intro texts
  have recorded := process.recorded
  have distinct : (Reading.ids texts).Nodup :=
    (recorded.numbered_cons (session.numbered_read source)).nodup
  refine ⟨distinct, fun statements among => ?_, fun distances runnable => ?_⟩
  · exact ⟨Reading.nodup_entries distinct among, fun _ => Resolution.exists_use_of_mem_program⟩
  · have entries : (distances.map Prod.fst).Nodup := by
      rw [← (resolve_eq_ok_iff.mp runnable.resolved).2]
      exact Reading.nodup_entries distinct List.mem_cons_self
    refine ⟨fun id distance member => ⟨?_, ?_⟩, fun id distance found => ?_,
      fun reading among use member => ?_, ?_⟩
    · exact recorded.unplaced id (runnable.le_of_mem member)
    · rw [Session.prepared, DistanceTable.find?_insertAll,
        lookup_of_mem entries member, Option.some_or]
    · rw [runnable.find?_prepared (recorded.lt_of_find? found), found]
    · have old := (recorded.numbered.range _ (Reading.id_mem_ids among member)).2
      exact runnable.find?_prepared old
    · intro fuel left found machine use consulted performs consults
      have made := (retaining_governs fuel).performs performs
        ⟨recorded.prepared runnable, recorded.keepsDistance_read runnable⟩
      obtain ⟨keeps, same⟩ := consults.known made
      rwa [same]

/-- A function that reads its parameter. -/
def declaringSource : String := "fun f(a) { a; }"

/-- An assignment without a value. -/
def brokenSource : String := "b = ;"

/-- A call of the function, and a block that reads its variable. -/
def callingSource : String := "f(f); { var c; c; }"

/-- The parameter where the function reads it. -/
def readParameter : Occurrence := ⟨0, ⟨.identifier, "a", 1⟩⟩

/-- The function as it is bound. -/
def declaredFunction : Closure :=
  ⟨⟨1, ⟨.identifier, "f", 1⟩, [⟨.identifier, "a", 1⟩], [.expression (.var readParameter)]⟩,
    Env.global, false⟩

/-- A call with a name as its argument comes to the first expression in the body of
the function. -/
theorem visits_body_of_call {left : Nat} {machine : Machine} {called passed : Occurrence}
    {paren : Token} {closure : Closure} {value : Value} {found : Expr} {rest : List Stmt}
    (stands : machine.value called = .ok (.function closure))
    (given : machine.value passed = .ok value) (takes : 1 = closure.declaration.params.length)
    (body : closure.declaration.body = .expression found :: rest)
    (room : machine.depth < Machine.depthLimit) :
    ∃ inside, Visits
      ⟨left + 8, .statement (.expression (.call (.var called) paren [.var passed])), machine⟩
      ⟨left + 1, .expression found, inside⟩ := by
  have callee : Eval.expression (left + 6) (.var called) machine =
      .ok (.function closure) machine := by
    simp only [Eval.expression, Eval.lookUp, stands]
  have argument : Eval.expression (left + 5) (.var passed) machine = .ok value machine := by
    simp only [Eval.expression, Eval.lookUp, given]
  have arguments : Eval.expressions (left + 6) [.var passed] machine = .ok [value] machine := by
    simp only [Eval.expressions, Bind.bind, EStateM.bind, argument]
    rfl
  let inside := { machine with depth := machine.depth + 1 }.inBody closure [value]
  have statements : Visits ⟨left + 3, .statements closure.declaration.body, inside⟩
      ⟨left + 1, .expression found, inside⟩ := by
    rw [body]
    exact .begun .firstStatement (.begun .expression (.here _))
  exact ⟨inside, .begun .expression (.begun (.call callee arguments)
    (.begun (.apply rfl takes room) (.begun .applyClosure (.begun .body statements))))⟩

/-- A call runs a function of an earlier source, with a broken text read in between.
The parameter is found at the distance of its own source. -/
theorem earlier_function_keeps_distance :
    ∃ (session : Session) (readings : List Reading) (left : Nat) (machine : Machine),
      Session.Process Sink.unlimited Sink.unlimited (fun _ => 0) session readings ∧
      session.Runnable callingSource [(5, 0)] ∧
      Performs 20 (session.read callingSource).1 (session.prepared [(5, 0)])
        ⟨left + 1, .expression (.var readParameter), machine⟩ ∧
      (Reading.ids (.program (session.read callingSource).1 :: readings)).Nodup ∧
      Use.KeepsDistance (.program (session.read callingSource).1 :: readings) machine.distances
        ⟨.read, readParameter⟩ := by
  have facts : ((Session.start Sink.unlimited Sink.unlimited fun _ => 0).run 20
      declaringSource).map (fun first => (first.nextId, first.machine.depth,
        first.machine.distances.slots,
        (Session.read { first with nextId := 3 } callingSource).2.hasStaticFault)) =
      some (2, 0, #[some 0], false) := by
    decide +kernel
  have accepted : resolve (Grammar.program (Lexer.stream callingSource) 3).statements =
      .ok [(5, 0)] := by
    decide +kernel
  have declared : ((Session.start Sink.unlimited Sink.unlimited fun _ => 0).run 20
      declaringSource).map (fun first => first.machine.store.get Env.global "f") =
      some (.ok (.function declaredFunction)) := by
    cbv
  have broken : (Grammar.program (Lexer.stream brokenSource) 2).nextId = 3 := by
    decide +kernel
  have parsed : (Grammar.program (Lexer.stream callingSource) 3).statements =
      [.expression (.call (.var ⟨3, ⟨.identifier, "f", 1⟩⟩) ⟨.punct .rightParen, ")", 1⟩
        [.var ⟨4, ⟨.identifier, "f", 1⟩⟩]),
      .block [.var ⟨.identifier, "c", 1⟩ none, .expression (.var ⟨5, ⟨.identifier, "c", 1⟩⟩)]] := by
    cbv
  obtain ⟨first, ran, same⟩ := Option.map_eq_some_iff.mp facts
  obtain ⟨nextId, depth, slots, quiet⟩ := by simpa only [Prod.mk.injEq] using same
  rw [ran, Option.map_some, Option.some.injEq] at declared
  have process := (Session.Process.start.run 20 declaringSource ran).readProgram brokenSource
  rw [nextId, broken] at process
  generalize here : ({ first with nextId := 3 } : Session) = session at quiet process
  have drawn : session.nextId = 3 := by
    rw [← here]
  have global (id : Nat) (other : id = 3 ∨ id = 4) :
      (session.prepared [(5, 0)]).value ⟨id, ⟨.identifier, "f", 1⟩⟩ =
        .ok (.function declaredFunction) := by
    have none : (session.prepared [(5, 0)]).distances.find? id = none := by
      rw [Session.prepared, DistanceTable.find?_insertAll, ← here]
      rcases other with rfl | rfl <;> simp [DistanceTable.find?, slots]
    rw [Machine.value, none, ← here]
    exact declared
  have room : (session.prepared [(5, 0)]).depth < Machine.depthLimit := by
    rw [← here, show (Session.prepared { first with nextId := 3 } [(5, 0)]).depth = 0 from depth]
    decide
  obtain ⟨inside, visited⟩ :=
    visits_body_of_call (global 3 (.inl rfl)) (global 4 (.inr rfl)) rfl rfl room
  have performs : Performs 20 (session.read callingSource).1 (session.prepared [(5, 0)])
      ⟨13, .expression (.var readParameter), inside⟩ := by
    rw [Session.statements_read, drawn, parsed]
    exact .first visited
  obtain ⟨distinct, -, sound⟩ := node_identities_never_collide process callingSource
  have runnable : session.Runnable callingSource [(5, 0)] := by
    refine ⟨quiet, ?_⟩
    rw [Session.statements_read, drawn]
    exact accepted
  exact ⟨session, _, 12, inside, process, runnable, performs, distinct,
    (sound _ runnable).2.2.2 _ _ _ _ _ _ performs (.read _)⟩

end LoxLang
