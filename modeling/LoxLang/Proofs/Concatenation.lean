import LoxLang.Proofs.Scope.Relabelling
import LoxLang.Proofs.Session.Settled
import LoxLang.Proofs.Token.Concatenation

/-!
# Sources run one after the other, or at once

Two sources that can be run are run one after the other in a session, or put
together with a line end between them and run at once. The output is the same
and so is the end of the run (`consecutive_sources_run_as_one`). A fault has the
same cause. Its line is the same if its token is of the first source, and
further down by the lines of the first if it is of the second. Which of them it
is shows when the second source is put further down by some empty lines: the
fault moves with it, or stays (`SameFault`).

The two ways differ in three things. The lines of the second source are others:
the lines of the joint source are folded back to those of the two. The distance
table of the joint run holds the numbers of both sources from the start: the
first source has none of the others, so its run is similar to the one with its
own numbers alone. And the output is flushed once and not twice.
-/

namespace LoxLang

set_option autoImplicit false

open Grammar Lexer

/-! ## Sources without static faults -/

/-- A source that is scanned, read and resolved without faults. -/
structure Compiles (source : String) : Prop where
  scanned : faults source = []
  parsed : (program (stream source) 0).errors = []
  resolved : (resolve (program (stream source) 0).statements).isOk = true

instance (source : String) : Decidable (Compiles source) :=
  decidable_of_iff (faults source = [] ∧ (program (stream source) 0).errors = [] ∧
      (resolve (program (stream source) 0).statements).isOk = true)
    ⟨fun ⟨scanned, parsed, resolved⟩ => ⟨scanned, parsed, resolved⟩,
      fun ⟨scanned, parsed, resolved⟩ => ⟨scanned, parsed, resolved⟩⟩

namespace Compiles

variable {source : String}

/-- The numbers further up by a number. -/
def up (numbers : Nat) : Relabelling := ⟨fun id => id + numbers, fun line => line⟩

/-- The tree of a source does not depend on the numbers but in its numbers. -/
theorem program_eq (source : String) (nextId : Nat) :
    program (stream source) nextId =
      ⟨Stmt.relabelAll (up nextId) (program (stream source) 0).statements,
        (program (stream source) 0).errors, (program (stream source) 0).nextId + nextId⟩ := by
  have steady : ∀ id, 0 ≤ id → (up nextId).id (id + 1) = (up nextId).id id + 1 :=
    fun id _ => Nat.succ_add id nextId
  have moved := program_renumber steady (fun _ => rfl) (stream source)
  simpa only [up, Nat.zero_add] using moved

theorem quiet (compiles : Compiles source) (nextId : Nat) :
    (program (stream source) nextId).errors = [] := by
  rw [program_eq]
  exact compiles.parsed

theorem resolves (compiles : Compiles source) (nextId : Nat) :
    ∃ distances, resolve (program (stream source) nextId).statements = .ok distances := by
  have accepted := compiles.resolved
  rw [program_eq, resolve_relabel]
  cases resolved : resolve (program (stream source) 0).statements with
  | ok distances => exact ⟨_, rfl⟩
  | error errors =>
      rw [resolved] at accepted
      cases accepted

/-- What the tree of such a source is like. -/
theorem body (compiles : Compiles source) (nextId : Nat) :
    Stmt.AllWellFormed (program (stream source) nextId).statements ∧
      Numbered (Stmt.numbersAll (program (stream source) nextId).statements) nextId
        (program (stream source) nextId).nextId := by
  have read := readBody_of_program (compiles.quiet nextId)
  refine ⟨read.wellFormed fun token member => ?_, read.numbered⟩
  exact allSpelled_itemsFrom _ _ _ token (List.takeWhile_subset _ member)

/-- Reading such a source draws numbers and does nothing else. -/
theorem read (compiles : Compiles source) (session : Session) :
    session.read source = ((program (stream source) session.nextId).statements,
      { session with nextId := (program (stream source) session.nextId).nextId }) := by
  have parsed : (program (.ofTokens (tokens source)) session.nextId).errors = [] :=
    compiles.quiet session.nextId
  rw [Session.read_eq, compiles.scanned, parsed]
  rfl

theorem runnable (compiles : Compiles source) {session : Session}
    (quiet : session.hasStaticFault = false) :
    ∃ distances, session.Runnable source distances := by
  obtain ⟨distances, resolved⟩ := compiles.resolves session.nextId
  refine ⟨distances, ?_, ?_⟩
  · rw [compiles.read]
    exact quiet
  · rw [compiles.read]
    exact resolved

end Compiles

/-! ## The joint source -/

section Joint

variable {front back : String} (first : Compiles front) (second : Compiles back)

include first second

/-- The joint source is read into the trees of both, the second further down. -/
theorem program_joint (nextId : Nat) :
    let early := program (stream front) nextId
    let late := program (stream back) early.nextId
    program (stream (front ++ "\n" ++ back)) nextId =
      ⟨early.statements ++ Stmt.relabelAll (down (lineEnds front + 1)) late.statements, [],
        late.nextId⟩ := by
  intro early late
  let below : TokenStream := ⟨(stream back).tokens.map (Token.relabel (down (lineEnds front + 1))),
    (down (lineEnds front + 1)).line (stream back).endLine⟩
  have lower : program below early.nextId =
      ⟨Stmt.relabelAll (down (lineEnds front + 1)) late.statements, [], late.nextId⟩ := by
    have steady : ∀ id, early.nextId ≤ id →
        (down (lineEnds front + 1)).id (id + 1) = (down (lineEnds front + 1)).id id + 1 :=
      fun _ _ => rfl
    have moved := program_relabel steady (stream back)
    rw [second.quiet] at moved
    exact moved
  have branch : ¬ startsElse below.tokens := by
    have none : ¬ startsElse [] := by rintro ⟨_, member, _⟩; cases member
    have opens := not_startsElse_of_program (congrArg Program.errors lower) none
    rwa [List.append_nil] at opens
  have steady : ∀ id, nextId ≤ id →
      Relabelling.same.id (id + 1) = Relabelling.same.id id + 1 := fun _ _ => rfl
  have joint := program_append steady (first.quiet nextId) branch
  have tokens : (stream front).tokens.map (Token.relabel .same) = (stream front).tokens :=
    List.map_id'' (fun _ => rfl) _
  have kept : Stmt.relabelAll .same early.statements = early.statements :=
    Stmt.relabelAll_fixed _ ⟨fun _ => rfl, fun _ _ => rfl⟩
  rw [stream_append first.scanned]
  rw [tokens] at joint
  refine joint.trans ?_
  rw [kept, show Relabelling.same.id (program (stream front) nextId).nextId = early.nextId from rfl,
    lower]

/-- The joint source has the distances of both. -/
theorem resolve_joint {nextId : Nat} {early late : List (Nat × Nat)}
    (one : resolve (program (stream front) nextId).statements = .ok early)
    (two : resolve (program (stream back) (program (stream front) nextId).nextId).statements =
      .ok late) :
    resolve (program (stream (front ++ "\n" ++ back)) nextId).statements =
      .ok (late ++ early) := by
  have lower : resolve (Stmt.relabelAll (down (lineEnds front + 1))
      (program (stream back) (program (stream front) nextId).nextId).statements) = .ok late := by
    rw [resolve_relabel, two]
    exact congrArg Except.ok (List.map_id'' (fun _ => rfl) late)
  rw [program_joint first second]
  exact resolve_append (first.body nextId).1 (first.body nextId).2.nodup one lower

theorem Compiles.append : Compiles (front ++ "\n" ++ back) where
  scanned := by rw [faults_append first.scanned, second.scanned]; rfl
  parsed := by rw [program_joint first second]
  resolved := by
    obtain ⟨early, one⟩ := first.resolves 0
    obtain ⟨late, two⟩ := second.resolves (program (stream front) 0).nextId
    rw [resolve_joint first second one two]
    rfl

end Joint

/-! ## A source further down -/

/-- A source with a number of empty lines in front of it. -/
def lowered : Nat → String → String
  | 0, source => source
  | lines + 1, source => "\n" ++ lowered lines source

theorem lowered_succ (lines : Nat) (source : String) :
    lowered (lines + 1) source = "" ++ "\n" ++ lowered lines source := by
  rw [String.empty_append]
  rfl

theorem compiles_empty : Compiles "" := by decide

theorem Compiles.lowered {source : String} (compiles : Compiles source) :
    ∀ lines, Compiles (lowered lines source)
  | 0 => compiles
  | lines + 1 => by
      rw [lowered_succ]
      exact compiles_empty.append (compiles.lowered lines)

/-- Empty lines in front of a source move its tree down. -/
theorem program_lowered {source : String} (compiles : Compiles source) (nextId : Nat) :
    ∀ lines, program (stream (lowered lines source)) nextId =
      ⟨Stmt.relabelAll (down lines) (program (stream source) nextId).statements, [],
        (program (stream source) nextId).nextId⟩
  | 0 => by
      have kept : Stmt.relabelAll (down 0) (program (stream source) nextId).statements = _ :=
        Stmt.relabelAll_fixed _ ⟨fun _ => rfl, fun _ _ => rfl⟩
      rw [kept, ← compiles.quiet nextId]
      rfl
  | lines + 1 => by
      have joint := program_joint compiles_empty (compiles.lowered lines) nextId
      have nothing : program (stream "") nextId = ⟨[], [], nextId⟩ := rfl
      rw [lowered_succ, joint, nothing, program_lowered compiles nextId lines,
        Stmt.relabelAll_relabelAll]
      rfl

/-! ## Lines of the joint source -/

/-- The lines of a joint source, as lines of the first and of the second. -/
def fold (lines : Nat) : Relabelling :=
  ⟨fun id => id, fun line => if line ≤ lines then line else line - lines⟩

theorem fold_of_le {lines line : Nat} (le : line ≤ lines) : (fold lines).line line = line :=
  if_pos le

theorem fold_add {line : Nat} (positive : 1 ≤ line) (lines : Nat) :
    (fold lines).line (line + lines) = line := by
  simp only [fold]
  rw [if_neg (by omega), Nat.add_sub_cancel]

theorem relabelAll_fold {front back : String} (first : Compiles front) (second : Compiles back)
    (nextId : Nat) :
    let early := program (stream front) nextId
    Stmt.relabelAll (fold (lineEnds front + 1))
        (program (stream (front ++ "\n" ++ back)) nextId).statements =
      early.statements ++ (program (stream back) early.nextId).statements := by
  intro early
  have kept : Stmt.relabelAll (fold (lineEnds front + 1)) early.statements = early.statements := by
    refine relabelAll_program (fun _ => rfl) (first.quiet nextId) fun token member => ?_
    exact fold_of_le (line_of_mem member).2
  have back : Stmt.relabelAll (fold (lineEnds front + 1))
      (Stmt.relabelAll (down (lineEnds front + 1))
        (program (stream back) early.nextId).statements) =
      (program (stream back) early.nextId).statements := by
    rw [Stmt.relabelAll_relabelAll]
    refine relabelAll_program (fun _ => rfl) (second.quiet early.nextId) fun token member => ?_
    exact fold_add (line_of_mem member).1 _
  rw [program_joint first second, Stmt.relabelAll_append, kept, back]

/-- The lines of a joint source when the second one is moved further down. -/
def spread (lines extra : Nat) : Relabelling :=
  ⟨fun id => id, fun line => if line ≤ lines then line else line + extra⟩

theorem spread_of_le {lines line : Nat} (le : line ≤ lines) (extra : Nat) :
    (spread lines extra).line line = line := if_pos le

theorem spread_add {line : Nat} (positive : 1 ≤ line) (lines extra : Nat) :
    (spread lines extra).line (line + lines) = line + extra + lines := by
  simp only [spread]
  rw [if_neg (by omega), Nat.add_right_comm]

theorem relabelAll_spread {front back : String} (first : Compiles front)
    (second : Compiles back) (nextId extra : Nat) :
    Stmt.relabelAll (spread (lineEnds front + 1) extra)
        (program (stream (front ++ "\n" ++ back)) nextId).statements =
      (program (stream (front ++ "\n" ++ lowered extra back)) nextId).statements := by
  have kept : Stmt.relabelAll (spread (lineEnds front + 1) extra)
      (program (stream front) nextId).statements = (program (stream front) nextId).statements := by
    refine relabelAll_program (fun _ => rfl) (first.quiet nextId) fun token member => ?_
    exact spread_of_le (line_of_mem member).2 extra
  -- No token is on a line before the first one.
  let positive : Relabelling := ⟨fun id => id, max 1⟩
  have fixed (id : Nat) : Stmt.relabelAll positive (program (stream back) id).statements =
      (program (stream back) id).statements :=
    relabelAll_program (fun _ => rfl) (second.quiet id) fun token member =>
      Nat.max_eq_right (line_of_mem member).1
  have same : positive.andThen
      ((down (lineEnds front + 1)).andThen (spread (lineEnds front + 1) extra)) =
        positive.andThen ((down extra).andThen (down (lineEnds front + 1))) := by
    refine congrArg (Relabelling.mk _) (funext fun line => ?_)
    exact spread_add (Nat.le_max_left 1 line) _ _
  rw [program_joint first second, program_joint first (second.lowered extra),
    program_lowered second, Stmt.relabelAll_append, kept]
  congr 1
  dsimp only
  rw [← fixed]
  simp only [Stmt.relabelAll_relabelAll]
  exact congrArg (Stmt.relabelAll · _) same

/-! ## Runs -/

/-- A fault is on the line of some token: the tree is not changed if a line
without tokens gets another number, so neither is the fault. -/
theorem exists_token_of_fault {source : String} (compiles : Compiles source) {nextId fuel : Nat}
    {machine after : Machine} {error : RuntimeError}
    (fresh : ∀ change, machine.store.relabel change = machine.store)
    (ended : Eval.program fuel (program (stream source) nextId).statements machine =
      .error (.fault error) after) : ∃ token ∈ (stream source).tokens, token.line = error.line := by
  by_cases found : ∃ token ∈ (stream source).tokens, token.line = error.line
  · exact found
  let change : Relabelling :=
    ⟨fun id => id, fun line => if line = error.line then error.line + 1 else line⟩
  have kept : Stmt.relabelAll change (program (stream source) nextId).statements =
      (program (stream source) nextId).statements := by
    refine relabelAll_program (fun _ => rfl) (compiles.quiet nextId) fun token member => ?_
    exact if_neg fun same => found ⟨token, member, same⟩
  have faithful : Function.Injective change.id := Function.injective_id
  have tracks : Eval.Tracks change 0 id _ _ :=
    Eval.tracks_program faithful fuel (program (stream source) nextId).statements
  have parallel := tracks machine machine
    ⟨(fresh change).symm, rfl, rfl, fun _ => rfl, rfl, rfl, rfl⟩
  rw [kept, Nat.zero_add, ended] at parallel
  obtain ⟨reached, same, -⟩ := parallel.resolve_left fun more => more.2 rfl
  have moved : error.line = change.line error.line :=
    congrArg RuntimeError.line (Interrupt.fault.inj (EStateM.Result.error.inj same).1)
  simp [change] at moved

namespace Eval

variable {fuel : Nat} {machine middle : Machine}

theorem topLevel_of_program {found : List Stmt}
    (ran : program fuel found machine = .ok () middle) :
    topLevel fuel found machine = .ok () middle := by
  simp only [program, Bind.bind, EStateM.bind] at ran
  split at ran
  next after ended =>
    simp only [flush] at ran
    split at ran
    · cases ran
      exact ended
    · cases ran
  · cases ran

theorem program_of_topLevel {front back : List Stmt}
    (ran : topLevel fuel front machine = .ok () middle) :
    program fuel (front ++ back) machine = program fuel back middle := by
  induction front generalizing machine with
  | nil =>
      cases ran
      rfl
  | cons found rest ih =>
      simp only [topLevel, Bind.bind, EStateM.bind] at ran
      split at ran
      next flow after ended =>
        have others := ih ran
        simp only [program, Bind.bind, EStateM.bind] at others ⊢
        simp only [List.cons_append, topLevel, Bind.bind, EStateM.bind, ended]
        exact others
      · cases ran

end Eval

/-- Distances of two programs in one table. -/
theorem DistanceTable.insertAll_append (table : DistanceTable) (late early : List (Nat × Nat)) :
    table.insertAll (late ++ early) = (table.insertAll early).insertAll late := by
  induction late with
  | nil => rfl
  | cons entry rest ih =>
      obtain ⟨id, distance⟩ := entry
      rw [List.cons_append, insertAll, insertAll, ih]

namespace Session

variable {session next : Session} {fuel : Nat} {source : String} {distances : List (Nat × Nat)}

/-- A run without faults has executed the program. -/
theorem executed_of_quiet (runnable : session.Runnable source distances)
    (ran : session.run fuel source = some next) (quiet : next.diagnostics = []) :
    Eval.program fuel (session.read source).1 (session.prepared distances) = .ok () next.machine ∧
      next = { (session.read source).2 with machine := next.machine } := by
  rw [run_of_runnable runnable] at ran
  cases ended : Eval.program fuel (session.read source).1 (session.prepared distances) with
  | ok result machine =>
      rw [ended] at ran
      cases ran
      exact ⟨rfl, rfl⟩
  | error interrupt machine =>
      rw [ended] at ran
      obtain ⟨diagnostic, -, rfl⟩ := Option.map_eq_some_iff.mp ran
      simp [report] at quiet

end Session

section Behind

variable {front back : String} {session middle : Session} {fuel : Nat}
  {early late : List (Nat × Nat)}

/-- The machine for the first source, with and without the distances of the
second: the numbers that the second source is going to draw are moved out of the
way. -/
theorem similar_prepared (settled : session.Settled) (one : session.Runnable front early)
    (drawn : middle.nextId = (session.read front).2.nextId) (two : middle.Runnable back late) :
    (session.prepared early).Similar
      (.moveIds middle.nextId ((middle.read back).2.nextId - middle.nextId))
      (session.prepared (late ++ early)) := by
  have ready := settled.prepared one
  rw [← drawn] at ready
  have keeps := Relabelling.keepsBelow_moveIds middle.nextId
    ((middle.read back).2.nextId - middle.nextId)
  refine ⟨(ready.store _ keeps).symm, rfl, rfl, fun id => ?_, rfl, rfl, rfl⟩
  have both : (session.prepared (late ++ early)).distances =
      (session.prepared early).distances.insertAll late :=
    DistanceTable.insertAll_append _ late early
  rw [both, DistanceTable.find?_insertAll, ready.table keeps]
  by_cases old : id < middle.nextId
  · rw [keeps.id id old, two.lookup_of_lt old, Option.none_or]
  · have absent : late.lookup ((Relabelling.moveIds middle.nextId
        ((middle.read back).2.nextId - middle.nextId)).id id) = none := by
      refine Resolution.lookup_eq_none two.entries.1 fun member => ?_
      have below := two.numbers_lt _ member
      simp only [Relabelling.moveIds, if_neg old] at below
      omega
    rw [absent, Option.none_or]

/-- **The second source goes on where the first one ended**: with the distances
of both in the table from the start, the first program ends on the machine that
the second one is run on. -/
theorem program_behind (settled : session.Settled) (one : session.Runnable front early)
    (ran : session.run fuel front = some middle) (quiet : middle.diagnostics = [])
    (two : middle.Runnable back late) {more : Nat} (le : fuel ≤ more) (found : List Stmt) :
    Eval.program more ((session.read front).1 ++ found) (session.prepared (late ++ early)) =
      Eval.program more found (middle.prepared late) := by
  obtain ⟨ended, shape⟩ := Session.executed_of_quiet one ran quiet
  have drawn : middle.nextId = (session.read front).2.nextId := by rw [shape]
  have after : middle.machine.Settled middle.nextId := Session.settled_run settled ran
  have keeps := Relabelling.keepsBelow_moveIds middle.nextId
    ((middle.read back).2.nextId - middle.nextId)
  have numbers : ∀ id ∈ Stmt.numbersAll (session.read front).1, id < middle.nextId :=
    drawn ▸ one.numbers_lt
  have longer : Eval.program more (session.read front).1 (session.prepared early) =
      .ok () middle.machine := by
    rw [(settled.prepared one).program_of_le one.numbers_lt le (by rw [ended]; nofun), ended]
  have tracks : Eval.Tracks _ 0 id _ _ :=
    Eval.tracks_topLevel keeps.faithful more (session.read front).1
  have parallel := tracks _ _ (similar_prepared settled one drawn two)
  rw [Stmt.relabelAll_fixed _ (keeps.fixes numbers), Nat.zero_add,
    Eval.topLevel_of_program longer] at parallel
  obtain ⟨reached, same, similar⟩ := parallel
  rw [Eval.program_of_topLevel same]
  have mine := (Eval.restores_topLevel more (session.read front).1
    (session.prepared (late ++ early))).distances
  rw [same] at mine
  have theirs := (Eval.restores_program fuel (session.read front).1
    (session.prepared early)).distances
  rw [ended] at theirs
  have table : reached.distances = middle.machine.distances.insertAll late := by
    rw [show reached.distances = _ from mine, show middle.machine.distances = _ from theirs]
    exact DistanceTable.insertAll_append _ late early
  rw [after.eq_of_similar keeps similar, table]
  rfl

end Behind

/-! ## Both ways -/

/-- A session that a source leads to, with some amount of fuel. -/
def Session.Ends (session : Session) (source : String) (next : Session) : Prop :=
  ∃ fuel, session.run fuel source = some next

/-- A source comes to an end in a session with one fault. -/
def Session.Faults (session : Session) (source : String) (fault : Diagnostic) : Prop :=
  ∃ next, session.Ends source next ∧ next.diagnostics = [fault]

/-- A fault behind two sources run one after the other, and the fault of the
joint source. In the session both sources have a first line, so the line alone
does not tell which source the token of the fault is of. It is of the second
source if its line moves with that source when it is put further down, by however
many lines, and of the first source if its line stays where it is. -/
inductive SameFault (front back : String) (middle : Session) : Diagnostic → Diagnostic → Prop where
  | output (problem : SinkFault) : SameFault front back middle (.output problem) (.output problem)
  | first (cause : RuntimeCause) (token : Token) (member : token ∈ (stream front).tokens)
      (stays : ∀ lines, middle.Faults (lowered lines back) (.runtime ⟨cause, token.line⟩)) :
      SameFault front back middle (.runtime ⟨cause, token.line⟩) (.runtime ⟨cause, token.line⟩)
  | second (cause : RuntimeCause) (token : Token) (member : token ∈ (stream back).tokens)
      (moves : ∀ lines,
        middle.Faults (lowered lines back) (.runtime ⟨cause, token.line + lines⟩)) :
      SameFault front back middle (.runtime ⟨cause, token.line⟩)
        (.runtime ⟨cause, token.line + (lineEnds front + 1)⟩)

/-- Two sources run one after the other, and the joint source: the same output,
and the same success or the same fault. -/
structure SameOutcome (front back : String) (middle last whole : Session) : Prop where
  output : whole.machine.output = last.machine.output
  faults : (last.diagnostics = [] ∧ whole.diagnostics = []) ∨
    ∃ fault other, last.diagnostics = [fault] ∧ whole.diagnostics = [other] ∧
      SameFault front back middle fault other

theorem Session.Ends.unique {session next other : Session} {source : String}
    (settled : session.Settled) (one : session.Ends source next)
    (two : session.Ends source other) : next = other := by
  obtain ⟨fuel, ran⟩ := one
  obtain ⟨more, ended⟩ := two
  have longer := Session.run_of_le settled (Nat.le_max_left fuel more) ran
  rw [Session.run_of_le settled (Nat.le_max_right fuel more) ended] at longer
  exact (Option.some.inj longer).symm

theorem sameFault_of_diagnostic? {front back : String} (first : Compiles front)
    {middle : Session} {interrupt : Interrupt} {diagnostic : Diagnostic}
    (reported : interrupt.diagnostic? = some diagnostic)
    (placed : ∀ error, interrupt = .fault error →
      ∃ token ∈ (stream (front ++ "\n" ++ back)).tokens, token.line = error.line)
    (moved : ∀ error, interrupt = .fault error → ∀ lines, middle.Faults (lowered lines back)
      (.runtime ((error.relabel (spread (lineEnds front + 1) lines)).relabel
        (fold (lineEnds front + 1))))) :
    SameFault front back middle (diagnostic.relabel (fold (lineEnds front + 1))) diagnostic := by
  cases interrupt with
  | outOfFuel => cases reported
  | output problem =>
      cases reported
      exact .output problem
  | fault error =>
      cases reported
      have moved := moved _ rfl
      obtain ⟨cause, line⟩ := error
      obtain ⟨token, member, rfl⟩ := placed _ rfl
      simp only [RuntimeError.relabel] at moved
      rw [stream_append first.scanned] at member
      rcases List.mem_append.mp member with early | late
      · have inside := (line_of_mem early).2
        simp only [spread_of_le inside, fold_of_le inside] at moved
        rw [Diagnostic.relabel, RuntimeError.relabel, fold_of_le inside]
        exact .first cause token early moved
      · obtain ⟨old, found, rfl⟩ := List.mem_map.mp late
        have below : (old.relabel (down (lineEnds front + 1))).line =
            old.line + (lineEnds front + 1) := rfl
        have positive := (line_of_mem found).1
        simp only [below, spread_add positive, fold_add (Nat.le_add_right_of_le positive)] at moved
        rw [Diagnostic.relabel, RuntimeError.relabel, below, fold_add positive]
        exact .second cause old found moved

/-- Parallel outcomes are the same for sessions without recorded faults. -/
theorem sameOutcome_of_parallel {front back : String} (first : Compiles front)
    {middle session other : Session} (quiet : session.diagnostics = [])
    (silent : other.diagnostics = []) {joint outcome : EStateM.Result Interrupt Machine Unit}
    (placed : ∀ error after, joint = .error (.fault error) after →
      ∃ token ∈ (stream (front ++ "\n" ++ back)).tokens, token.line = error.line)
    (moved : ∀ error after, joint = .error (.fault error) after → ∀ lines,
      middle.Faults (lowered lines back)
        (.runtime ((error.relabel (spread (lineEnds front + 1) lines)).relabel
          (fold (lineEnds front + 1)))))
    (parallel : Eval.Parallel (fold (lineEnds front + 1)) 0 id joint outcome) :
    (session.concluded outcome = none ∧ other.concluded joint = none) ∨
      ∃ last whole, session.concluded outcome = some last ∧ other.concluded joint = some whole ∧
        SameOutcome front back middle last whole := by
  cases joint with
  | ok result after =>
      obtain ⟨reached, rfl, similar⟩ := parallel
      exact .inr ⟨_, _, rfl, rfl, similar.output.symm, .inl ⟨quiet, silent⟩⟩
  | error interrupt after =>
      obtain ⟨reached, rfl, similar⟩ := parallel.resolve_left fun more => more.2 rfl
      simp only [Session.concluded, Interrupt.diagnostic?_relabel]
      cases reported : interrupt.diagnostic? with
      | none => exact .inl ⟨rfl, rfl⟩
      | some diagnostic =>
          have fault := sameFault_of_diagnostic? first reported
            (fun error same => placed error after (by rw [same]))
            (fun error same => moved error after (by rw [same]))
          refine .inr ⟨_, _, rfl, rfl, similar.output.symm, .inr ⟨_, _, ?_, ?_, fault⟩⟩
          · simp [Session.report, quiet]
          · simp [Session.report, silent]

section Both

variable {front back : String} (first : Compiles front) (second : Compiles back)
  {output errors : Sink} {clock : Nat → Float} {fuel : Nat} {middle : Session}
  (ran : (Session.start output errors clock).run fuel front = some middle)
  (quiet : middle.diagnostics = [])

include first ran quiet

theorem nextId_behind {early : List (Nat × Nat)}
    (one : (Session.start output errors clock).Runnable front early) :
    middle.nextId = (program (stream front) 0).nextId := by
  obtain ⟨-, shape⟩ := Session.executed_of_quiet one ran quiet
  rw [shape, first.read]
  rfl

include second

/-- The joint source can be run too. -/
theorem runnable_joint {early late : List (Nat × Nat)}
    (one : (Session.start output errors clock).Runnable front early)
    (two : middle.Runnable back late) :
    (Session.start output errors clock).Runnable (front ++ "\n" ++ back) (late ++ early) := by
  have resolvedFirst := one.resolved
  have resolvedSecond := two.resolved
  rw [first.read] at resolvedFirst
  rw [second.read, nextId_behind first ran quiet one] at resolvedSecond
  refine ⟨?_, ?_⟩
  · rw [(first.append second).read]
    rfl
  · rw [(first.append second).read]
    exact resolve_joint first second resolvedFirst resolvedSecond

/-- The joint program is run in parallel with the second one, which goes on
behind the first. -/
theorem parallel_joint {early late : List (Nat × Nat)}
    (one : (Session.start output errors clock).Runnable front early)
    (two : middle.Runnable back late) {more : Nat} (le : fuel ≤ more) :
    Eval.Parallel (fold (lineEnds front + 1)) 0 id
      (Eval.program more (program (stream (front ++ "\n" ++ back)) 0).statements
        ((Session.start output errors clock).prepared (late ++ early)))
      (Eval.program more (middle.read back).1 (middle.prepared late)) := by
  have faithful : Function.Injective (fold (lineEnds front + 1)).id := Function.injective_id
  have tracks : Eval.Tracks (fold (lineEnds front + 1)) 0 id _ _ :=
    Eval.tracks_program faithful more (program (stream (front ++ "\n" ++ back)) 0).statements
  have fresh := Store.relabel_machineInitial (fold (lineEnds front + 1)) output clock
  have parallel := tracks ((Session.start output errors clock).prepared (late ++ early))
    ((Session.start output errors clock).prepared (late ++ early))
    ⟨fresh.symm, rfl, rfl, fun _ => rfl, rfl, rfl, rfl⟩
  have goesOn := program_behind (Session.settled_start output errors clock) one ran quiet two le
    (middle.read back).1
  rw [relabelAll_fold first second, Nat.zero_add, ← nextId_behind first ran quiet one] at parallel
  rw [first.read, second.read] at goesOn
  rw [second.read, ← goesOn]
  exact parallel

/-- A fault of the joint source moves with the second source, or does not, as that
source is run further down behind the first one. -/
theorem faults_lowered {early late : List (Nat × Nat)}
    (one : (Session.start output errors clock).Runnable front early)
    (two : middle.Runnable back late) {more : Nat} (le : fuel ≤ more) {error : RuntimeError}
    {after : Machine}
    (ended : Eval.program more (program (stream (front ++ "\n" ++ back)) 0).statements
      ((Session.start output errors clock).prepared (late ++ early)) = .error (.fault error) after)
    (lines : Nat) :
    middle.Faults (lowered lines back)
      (.runtime ((error.relabel (spread (lineEnds front + 1) lines)).relabel
        (fold (lineEnds front + 1)))) := by
  have lower := second.lowered lines
  have there : middle.Runnable (lowered lines back) late := by
    have resolved := two.resolved
    rw [second.read] at resolved
    refine ⟨?_, ?_⟩
    · rw [lower.read]
      simp [Session.hasStaticFault, quiet]
    · rw [lower.read, program_lowered second, resolve_relabel, resolved]
      exact congrArg Except.ok (List.map_id'' (fun _ => rfl) late)
  have faithful : Function.Injective (spread (lineEnds front + 1) lines).id :=
    Function.injective_id
  have tracks : Eval.Tracks (spread (lineEnds front + 1) lines) 0 id _ _ :=
    Eval.tracks_program faithful more (program (stream (front ++ "\n" ++ back)) 0).statements
  have fresh := Store.relabel_machineInitial (spread (lineEnds front + 1) lines) output clock
  have further := tracks ((Session.start output errors clock).prepared (late ++ early))
    ((Session.start output errors clock).prepared (late ++ early))
    ⟨fresh.symm, rfl, rfl, fun _ => rfl, rfl, rfl, rfl⟩
  rw [relabelAll_spread first second, ended, Nat.zero_add] at further
  obtain ⟨reached, joint, -⟩ := further.resolve_left fun more => more.2 rfl
  have parallel := parallel_joint first lower ran quiet one there le
  rw [joint] at parallel
  obtain ⟨last, apart, -⟩ := parallel.resolve_left fun more => more.2 rfl
  have reported := Session.run_of_runnable there more
  rw [apart, lower.read] at reported
  refine ⟨_, ⟨more, reported.trans rfl⟩, ?_⟩
  simp [Session.report, quiet]

/-- With enough fuel for the first source both ways end or do not end, and if
they end then with the same outcome. -/
theorem same_of_le {more : Nat} (le : fuel ≤ more) :
    (middle.run more back = none ∧
      (Session.start output errors clock).run more (front ++ "\n" ++ back) = none) ∨
    ∃ last whole, middle.run more back = some last ∧
      (Session.start output errors clock).run more (front ++ "\n" ++ back) = some whole ∧
        SameOutcome front back middle last whole := by
  have silent : middle.hasStaticFault = false := by rw [Session.hasStaticFault, quiet]; rfl
  obtain ⟨early, one⟩ : ∃ early, (Session.start output errors clock).Runnable front early :=
    first.runnable rfl
  obtain ⟨late, two⟩ := second.runnable silent
  have whole := first.append second
  rw [Session.run_of_runnable two,
    Session.run_of_runnable (runnable_joint first second ran quiet one two), whole.read]
  have fresh (change : Relabelling) :
      ((Session.start output errors clock).prepared (late ++ early)).store.relabel change =
        ((Session.start output errors clock).prepared (late ++ early)).store :=
    Store.relabel_machineInitial change output clock
  exact sameOutcome_of_parallel first (by rw [second.read]; exact quiet) rfl
    (fun error after ended => exists_token_of_fault whole fresh ended)
    (fun error after ended => faults_lowered first second ran quiet one two le ended)
    (parallel_joint first second ran quiet one two le)

end Both

/-- **Two sources can be run one after the other or at once.** Both are scanned,
read and resolved without faults, and the first one runs without a fault in a
new session. Then the second one comes to an end in that session if and only if
the joint source, with a line end in between, comes to an end in a new session.
The output is the same in total, and either both succeed or both end with the
same fault. Its line is the same if it stays when the second source is put further
down in that session, and moved by the lines of the first source if it moves with
the second one. -/
theorem consecutive_sources_run_as_one {front back : String} (first : Compiles front)
    (second : Compiles back) {output errors : Sink} {clock : Nat → Float} {middle : Session}
    (ran : (Session.start output errors clock).Ends front middle)
    (quiet : middle.diagnostics = []) :
    (∀ last, middle.Ends back last →
      ∃ whole, (Session.start output errors clock).Ends (front ++ "\n" ++ back) whole ∧
        SameOutcome front back middle last whole) ∧
    (∀ whole, (Session.start output errors clock).Ends (front ++ "\n" ++ back) whole →
      ∃ last, middle.Ends back last ∧ SameOutcome front back middle last whole) := by
  obtain ⟨fuel, ran⟩ := ran
  have settled := Session.settled_start output errors clock
  refine ⟨fun last ⟨enough, ended⟩ => ?_, fun whole ⟨enough, ended⟩ => ?_⟩
  · have longer := Session.run_of_le (Session.settled_run settled ran)
      (Nat.le_max_right fuel enough) ended
    rcases same_of_le first second ran quiet (Nat.le_max_left fuel enough) with
      ⟨none, -⟩ | ⟨reached, whole, here, there, same⟩
    · rw [longer] at none
      cases none
    · rw [longer] at here
      cases here
      exact ⟨whole, ⟨_, there⟩, same⟩
  · have longer := Session.run_of_le settled (Nat.le_max_right fuel enough) ended
    rcases same_of_le first second ran quiet (Nat.le_max_left fuel enough) with
      ⟨-, none⟩ | ⟨last, reached, here, there, same⟩
    · rw [longer] at none
      cases none
    · rw [longer] at there
      cases there
      exact ⟨last, ⟨_, here⟩, same⟩

/-- A function of two lines, and a call. -/
def negateSource : String := "fun negate(x)\n{ return -x; } print negate(1);"

/-- Another call, and on the next line a sum with something that is no number. -/
def sumSource : String := "print negate(2);\nprint negate(3) + nil;"

/-- The fault of the second line is on the fourth line of the joint source. -/
theorem fault_is_further_down_in_joint_source :
    ∃ middle last whole : Session, Compiles negateSource ∧ Compiles sumSource ∧
      (Session.start Sink.unlimited Sink.unlimited fun _ => 0).Ends negateSource middle ∧
      middle.diagnostics = [] ∧ middle.Ends sumSource last ∧
      (Session.start Sink.unlimited Sink.unlimited fun _ => 0).Ends
        (negateSource ++ "\n" ++ sumSource) whole ∧
      SameOutcome negateSource sumSource middle last whole ∧
      last.diagnostics = [.runtime ⟨.operandsNotAddable, 2⟩] ∧
      whole.diagnostics = [.runtime ⟨.operandsNotAddable, 4⟩] := by
  have first : Compiles negateSource := by decide +kernel
  have second : Compiles sumSource := by decide +kernel
  have both : (((Session.start Sink.unlimited Sink.unlimited fun _ => 0).run 60
      negateSource).bind fun middle => (middle.run 60 sumSource).map fun last =>
        (middle.diagnostics, last.diagnostics)) =
      some ([], [.runtime ⟨.operandsNotAddable, 2⟩]) := by
    decide +kernel
  have joint : ((Session.start Sink.unlimited Sink.unlimited fun _ => 0).run 60
      (negateSource ++ "\n" ++ sumSource)).map Session.diagnostics =
      some [.runtime ⟨.operandsNotAddable, 4⟩] := by
    decide +kernel
  obtain ⟨middle, ran, later⟩ := Option.bind_eq_some_iff.mp both
  obtain ⟨last, ended, same⟩ := Option.map_eq_some_iff.mp later
  obtain ⟨quiet, fault⟩ := Prod.mk.inj same
  obtain ⟨whole, joined, further⟩ := Option.map_eq_some_iff.mp joint
  obtain ⟨other, reached, outcome⟩ :=
    (consecutive_sources_run_as_one first second ⟨60, ran⟩ quiet).1 last ⟨60, ended⟩
  obtain rfl := Session.Ends.unique (Session.settled_start _ _ _) reached ⟨60, joined⟩
  exact ⟨middle, last, other, first, second, ⟨60, ran⟩, quiet, ⟨60, ended⟩, reached, outcome, fault,
    further⟩

end LoxLang
