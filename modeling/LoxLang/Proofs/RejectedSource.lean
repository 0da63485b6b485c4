import LoxLang.Proofs.Grammar.Segments
import LoxLang.Proofs.Scope.Relabelling
import LoxLang.Proofs.Session.Settled

/-!
# A source with static faults leaves no trace

Sources are run in a session one after the other, and behind each the recorded
faults are forgotten. Of each step there is to be seen what it writes on the two
sinks and what faults it records (`Shown`). A step with a static fault writes
nothing on the output, and without it all the other steps show the same
(`rejected_source_leaves_no_trace`).

A rejected source draws numbers all the same. The session behind it and the
session without it differ by them: later trees have other numbers, and so have
the functions in the store and the entries of the distance table. This relation
(`Session.Similar`) is kept by every run.

The output is compared for any sinks. A sink for faults with a limit is filled
by the faults of the rejected source, so what later steps write on it is compared
only for a sink without one.
-/

namespace LoxLang

set_option autoImplicit false

/-! ## Steps of a session -/

/-- The bytes that a sink has taken in between. -/
def Sink.added (before after : Sink) : ByteArray :=
  after.written.extract before.written.size after.written.size

/-- What is to be seen of a step: the bytes it writes on the output and on the
sink for faults, and the faults it records. -/
structure Shown where
  output : ByteArray
  errors : ByteArray
  diagnostics : List Diagnostic

/-- What is to be seen without the sink for faults. -/
def Shown.result (shown : Shown) : ByteArray × List Diagnostic := (shown.output, shown.diagnostics)

namespace Session

/-- What is to be seen of a step between two sessions. -/
def shown (before after : Session) : Shown :=
  ⟨before.machine.output.added after.machine.output, before.errors.added after.errors,
    after.diagnostics⟩

/-- Runs sources one after the other, forgets the faults of each behind it, and
gives what is to be seen of each step. A step without an outcome is the last. -/
def replay (fuel : Nat) (session : Session) : List String → List Shown
  | [] => []
  | source :: rest =>
    match session.run fuel source with
    | some next => session.shown next :: replay fuel next.reset rest
    | none => []

end Session

/-! ## Sessions that differ by numbers -/

/-- Two tables that differ by a relabelling, with entries that differ by it. -/
theorem DistanceTable.find?_insertAll_relabel {change : Relabelling}
    (faithful : Function.Injective change.id) {table other : DistanceTable}
    (same : ∀ id, other.find? (change.id id) = table.find? id) (entries : List (Nat × Nat))
    (id : Nat) :
    (other.insertAll (entries.map fun entry => (change.id entry.1, entry.2))).find? (change.id id) =
      (table.insertAll entries).find? id := by
  induction entries with
  | nil => exact same id
  | cons entry rest ih =>
      obtain ⟨number, distance⟩ := entry
      rw [List.map_cons, insertAll, insertAll]
      by_cases found : id = number
      · rw [found, find?_insert_self, find?_insert_self]
      · rw [find?_insert_of_ne (faithful.ne found), find?_insert_of_ne found, ih]

namespace Session

/-- Two sessions that have recorded the same faults, where the second has drawn
more numbers at some point. -/
structure Similar (first room : Nat) (session other : Session) : Prop where
  machine : session.machine.Similar (.moveIds first room) other.machine
  diagnostics : other.diagnostics = session.diagnostics
  late : first ≤ session.nextId
  nextId : other.nextId = session.nextId + room

namespace Similar

variable {first room : Nat} {session other : Session}

theorem reportAll (similar : session.Similar first room other) (diagnostics : List Diagnostic) :
    (session.reportAll diagnostics).Similar first room (other.reportAll diagnostics) where
  machine := by simpa using similar.machine
  diagnostics := by rw [diagnostics_reportAll, diagnostics_reportAll, similar.diagnostics]
  late := by simpa using similar.late
  nextId := by simpa using similar.nextId

theorem reset (similar : session.Similar first room other) :
    session.reset.Similar first room other.reset :=
  ⟨similar.machine, rfl, similar.late, similar.nextId⟩

/-- Reading reports the same faults, and the trees differ by their numbers. -/
theorem read (similar : session.Similar first room other) (source : String) :
    (other.read source).1 = Stmt.relabelAll (.moveIds first room) (session.read source).1 ∧
      (session.read source).2.Similar first room (other.read source).2 := by
  -- All the numbers of this source are drawn behind the point of difference.
  have moved {id : Nat} (new : session.nextId ≤ id) :
      (Relabelling.moveIds first room).id id = id + room :=
    if_neg (Nat.not_lt.mpr (Nat.le_trans similar.late new))
  have steady : ∀ id, session.nextId ≤ id → (Relabelling.moveIds first room).id (id + 1) =
      (Relabelling.moveIds first room).id id + 1 := by
    intro id new
    rw [moved new, moved (Nat.le_succ_of_le new), Nat.add_right_comm]
  have renumbered := Grammar.program_renumber steady (fun _ => rfl)
    (.ofTokens (Lexer.tokens source))
  rw [moved (Nat.le_refl _), ← similar.nextId] at renumbered
  have drawn := session.nextId_le_read source
  rw [read_eq] at drawn
  rw [read_eq, read_eq, renumbered]
  have reported := similar.reportAll ((Lexer.faults source).map .lexical ++
    (Grammar.program (.ofTokens (Lexer.tokens source)) session.nextId).errors.map .grammar)
  exact ⟨rfl, reported.machine, reported.diagnostics, Nat.le_trans similar.late drawn, moved drawn⟩

theorem prepared (similar : session.Similar first room other) (distances : List (Nat × Nat)) :
    (session.prepared distances).Similar (.moveIds first room)
      (other.prepared (distances.map fun entry =>
        ((Relabelling.moveIds first room).id entry.1, entry.2))) :=
  { similar.machine with
    table := DistanceTable.find?_insertAll_relabel (Relabelling.injective_moveIds first room)
      similar.machine.table distances }

theorem concluded (similar : session.Similar first room other)
    {outcome twin : EStateM.Result Interrupt Machine Unit}
    (parallel : Eval.Parallel (.moveIds first room) 0 id outcome twin) :
    Option.Rel (Similar first room) (session.concluded outcome) (other.concluded twin) := by
  cases outcome with
  | ok result after =>
      obtain ⟨reached, rfl, alike⟩ := parallel
      exact .some ⟨alike, similar.diagnostics, similar.late, similar.nextId⟩
  | error interrupt after =>
      obtain ⟨reached, rfl, alike⟩ := parallel.resolve_left fun more => more.2 rfl
      have same : interrupt.relabel (.moveIds first room) = interrupt := by cases interrupt <;> rfl
      simp only [Session.concluded, same]
      cases interrupt.diagnostic? with
      | none => exact .none
      | some diagnostic =>
          have behind : Similar first room { session with machine := after }
              { other with machine := reached } :=
            ⟨alike, similar.diagnostics, similar.late, similar.nextId⟩
          exact .some (behind.reportAll [diagnostic])

/-- **A run keeps sessions similar**: either both have no outcome, or the
sessions behind it are similar. -/
theorem run (similar : session.Similar first room other) (fuel : Nat) (source : String) :
    Option.Rel (Similar first room) (session.run fuel source) (other.run fuel source) := by
  obtain ⟨program, reading⟩ := similar.read source
  have static : (other.read source).2.hasStaticFault = (session.read source).2.hasStaticFault :=
    congrArg (List.any · Diagnostic.isStatic) reading.diagnostics
  simp only [Session.run, static, program, resolve_relabel]
  split
  · exact .some reading
  · cases resolve (session.read source).1 with
    | error errors =>
        have same : errors.map (Located.relabel (.moveIds first room)) = errors :=
          List.map_id'' (fun _ => rfl) _
        simp only [same]
        exact .some (reading.reportAll _)
    | ok distances =>
        have tracks : Eval.Tracks (.moveIds first room) 0 id _ _ := Eval.tracks_program
          (Relabelling.injective_moveIds first room) fuel (session.read source).1
        have parallel := tracks _ _ (reading.prepared distances)
        rw [Nat.zero_add] at parallel
        simp only [execute_eq_concluded]
        exact reading.concluded parallel

/-- All the steps behind similar sessions show the same. -/
theorem replay (similar : session.Similar first room other) (fuel : Nat) (sources : List String) :
    (session.replay fuel sources).map Shown.result =
      (other.replay fuel sources).map Shown.result := by
  induction sources generalizing session other with
  | nil => rfl
  | cons source rest ih =>
      have step := similar.run fuel source
      simp only [Session.replay]
      generalize session.run fuel source = mine, other.run fuel source = theirs at step
      cases step with
      | none => rfl
      | some alike =>
          rw [List.map_cons, List.map_cons, ih alike.reset]
          simp only [Shown.result, shown, similar.machine.output, alike.machine.output,
            alike.diagnostics]

end Similar

/-! ## Rejected sources -/

variable {session next : Session} {fuel : Nat} {source : String}

/-- A program adds no static fault. -/
theorem hasStaticFault_concluded {outcome : EStateM.Result Interrupt Machine Unit}
    (ended : session.concluded outcome = some next) :
    next.hasStaticFault = session.hasStaticFault := by
  cases outcome with
  | ok result after =>
      cases ended
      rfl
  | error interrupt after =>
      obtain ⟨diagnostic, reported, rfl⟩ := Option.map_eq_some_iff.mp ended
      have dynamic : diagnostic.isStatic = false := by
        cases interrupt <;> cases reported <;> rfl
      simp [hasStaticFault, report, dynamic]

/-- A source with a static fault is not executed. All it does is to draw
numbers. -/
theorem machine_of_rejected (ran : session.run fuel source = some next)
    (rejected : next.hasStaticFault = true) :
    next.machine = session.machine ∧ session.nextId ≤ next.nextId := by
  rcases run_cases ran with ⟨faults, rfl⟩ | ⟨distances, runnable, executed⟩
  · rw [machine_reportAll, machine_read, nextId_reportAll]
    exact ⟨rfl, session.nextId_le_read source⟩
  · rw [hasStaticFault_concluded executed, runnable.quiet] at rejected
    cases rejected

/-- The session without a rejected source and the session behind it are
similar. -/
theorem similar_of_rejected (settled : session.Settled) (quiet : session.diagnostics = [])
    (ran : session.run fuel source = some next) (rejected : next.hasStaticFault = true) :
    session.Similar session.nextId (next.nextId - session.nextId) next.reset := by
  obtain ⟨machine, drawn⟩ := machine_of_rejected ran rejected
  refine ⟨?_, quiet.symm, Nat.le_refl _, (Nat.add_sub_of_le drawn).symm⟩
  rw [show next.reset.machine = session.machine from machine]
  exact Machine.Settled.similar settled (Relabelling.keepsBelow_moveIds _ _)

/-- **A rejected step can be left out**: it writes nothing on the output, and the
other steps show the same without it. -/
theorem replay_eraseIdx (settled : session.Settled) (quiet : session.diagnostics = [])
    {sources : List String} {position : Nat} {step : Shown}
    (found : (session.replay fuel sources)[position]? = some step)
    (rejected : step.diagnostics.any Diagnostic.isStatic = true) :
    step.output = ByteArray.empty ∧
      ((session.replay fuel sources).eraseIdx position).map Shown.result =
        (session.replay fuel (sources.eraseIdx position)).map Shown.result := by
  -- Up to the rejected source both replays are the same, so all that matters is
  -- that the session in front of it is settled, which every run keeps.
  induction sources generalizing session position with
  | nil => cases found
  | cons source rest ih =>
      cases ran : session.run fuel source with
      | none =>
          simp only [replay, ran] at found
          cases found
      | some next =>
          simp only [replay, ran] at found ⊢
          cases position with
          | zero =>
              cases found
              have similar := similar_of_rejected settled quiet ran rejected
              refine ⟨?_, (similar.replay fuel rest).symm⟩
              simp only [shown, Sink.added, (machine_of_rejected ran rejected).1]
              exact ByteArray.extract_same
          | succ position =>
              have after : next.reset.Settled := (settled_run settled ran).reset
              have later := ih after rfl found
              refine ⟨later.1, ?_⟩
              simp only [List.eraseIdx_cons_succ, replay, ran, List.map_cons, later.2]

end Session

/-! ## The sink for faults -/

/-- The bytes of reports. -/
def transcript : List Diagnostic → ByteArray
  | [] => ByteArray.empty
  | diagnostic :: rest => (diagnostic.text ++ "\n").toUTF8 ++ transcript rest

/-- The sink behind reports. -/
def Sink.reported (sink : Sink) (diagnostics : List Diagnostic) : Sink :=
  diagnostics.foldl (fun sink diagnostic => sink.write (diagnostic.text ++ "\n")) sink

theorem Sink.reported_of_unlimited {sink : Sink} (free : sink.room = none)
    (diagnostics : List Diagnostic) :
    sink.reported diagnostics =
      { sink with written := sink.written ++ transcript diagnostics } := by
  induction diagnostics generalizing sink with
  | nil => simp [reported, transcript]
  | cons diagnostic rest ih =>
      rw [reported, List.foldl_cons, write_of_unlimited free, ← reported]
      rw [ih (by exact free), transcript, ByteArray.append_assoc]

namespace Session

/-- Between two sessions some faults have been recorded and written. -/
structure Reports (session next : Session) (added : List Diagnostic) : Prop where
  diagnostics : next.diagnostics = session.diagnostics ++ added
  errors : next.errors = session.errors.reported added

variable {session next : Session} {fuel : Nat} {source : String} {added : List Diagnostic}

theorem Reports.report (reports : session.Reports next added) (diagnostic : Diagnostic) :
    session.Reports (next.report diagnostic) (added ++ [diagnostic]) where
  diagnostics := by rw [Session.report, reports.diagnostics, List.append_assoc]
  errors := by simp only [Session.report, reports.errors, Sink.reported, List.foldl_append,
    List.foldl_cons, List.foldl_nil]

theorem Reports.reportAll (reports : session.Reports next added) (diagnostics : List Diagnostic) :
    session.Reports (next.reportAll diagnostics) (added ++ diagnostics) := by
  induction diagnostics generalizing next added with
  | nil => rwa [List.append_nil]
  | cons first rest ih =>
      rw [List.append_cons]
      exact ih (reports.report first)

theorem Reports.concluded {other : Session} {outcome : EStateM.Result Interrupt Machine Unit}
    (reports : session.Reports next added) (ended : next.concluded outcome = some other) :
    ∃ added, session.Reports other added := by
  cases outcome with
  | ok result after =>
      cases ended
      exact ⟨added, reports.diagnostics, reports.errors⟩
  | error interrupt after =>
      obtain ⟨diagnostic, -, rfl⟩ := Option.map_eq_some_iff.mp ended
      have reached : session.Reports { next with machine := after } added :=
        ⟨reports.diagnostics, reports.errors⟩
      exact ⟨_, reached.report diagnostic⟩

theorem reports_read (session : Session) (source : String) :
    ∃ added, session.Reports (session.read source).2 added := by
  have none : session.Reports session [] := ⟨(List.append_nil _).symm, rfl⟩
  have reported := none.reportAll ((Lexer.faults source).map .lexical ++
    (Grammar.program (.ofTokens (Lexer.tokens source)) session.nextId).errors.map .grammar)
  rw [read_eq]
  exact ⟨_, reported.diagnostics, reported.errors⟩

/-- **A run writes the faults that it records.** -/
theorem reports_run (ran : session.run fuel source = some next) :
    ∃ added, session.Reports next added := by
  obtain ⟨added, reading⟩ := session.reports_read source
  rcases run_cases ran with ⟨faults, rfl⟩ | ⟨distances, -, executed⟩
  · exact ⟨_, reading.reportAll faults⟩
  · rw [execute_eq_concluded] at executed
    exact reading.concluded executed

/-- On a sink without a limit, a step writes its faults whole. -/
theorem errors_replay {sources : List String} (free : session.errors.room = none)
    (quiet : session.diagnostics = []) :
    ∀ step ∈ session.replay fuel sources, step.errors = transcript step.diagnostics := by
  induction sources generalizing session with
  | nil => nofun
  | cons source rest ih =>
      cases ran : session.run fuel source with
      | none =>
          simp only [replay, ran]
          nofun
      | some next =>
          obtain ⟨added, diagnostics, errors⟩ := reports_run ran
          rw [quiet, List.nil_append] at diagnostics
          rw [Sink.reported_of_unlimited free, ← diagnostics] at errors
          simp only [replay, ran, List.mem_cons]
          rintro step (rfl | member)
          · simp only [shown, Sink.added, errors]
            exact ByteArray.extract_append_eq_right rfl ByteArray.size_append
          · have still : next.reset.errors.room = none := by rw [reset, errors, free]
            exact ih still rfl step member

end Session

/-- Steps that write their faults whole are told by the rest. -/
theorem eq_of_map_result {steps others : List Shown}
    (mine : ∀ step ∈ steps, step.errors = transcript step.diagnostics)
    (theirs : ∀ step ∈ others, step.errors = transcript step.diagnostics)
    (same : steps.map Shown.result = others.map Shown.result) : steps = others := by
  have whole {list : List Shown}
      (written : ∀ step ∈ list, step.errors = transcript step.diagnostics) :
      (list.map Shown.result).map (fun seen => ⟨seen.1, transcript seen.2, seen.2⟩) = list := by
    rw [List.map_map]
    refine (List.map_congr_left fun step member => ?_).trans (List.map_id list)
    rw [Function.comp_apply, Shown.result, ← written step member, id]
  rw [← whole mine, same, whole theirs]

/-- **A source with a static fault leaves no trace.** Sources are run in a session
one after the other, and behind each the recorded faults are forgotten. If one of
the steps records a fault of the scanner, the grammar or the scopes, then it writes
nothing on the output, and without this source all the other steps write the same
on the output and record the same faults. They also write the same on a sink for
faults that has no limit. -/
theorem rejected_source_leaves_no_trace (output errors : Sink) (clock : Nat → Float) (fuel : Nat)
    (sources : List String) (position : Nat) (step : Shown)
    (found : ((Session.start output errors clock).replay fuel sources)[position]? = some step)
    (rejected : step.diagnostics.any Diagnostic.isStatic = true) :
    let steps := (Session.start output errors clock).replay fuel sources
    let others := (Session.start output errors clock).replay fuel (sources.eraseIdx position)
    step.output = ByteArray.empty ∧
      (steps.eraseIdx position).map Shown.result = others.map Shown.result ∧
        (errors.room = none → steps.eraseIdx position = others) := by
  intro steps others
  obtain ⟨silent, same⟩ :=
    Session.replay_eraseIdx (Session.settled_start output errors clock) rfl found rejected
  refine ⟨silent, same, fun free => eq_of_map_result ?_ ?_ same⟩
  · intro step member
    exact Session.errors_replay free rfl step (List.mem_of_mem_eraseIdx member)
  · exact Session.errors_replay free rfl

/-- A counter, a block that declares a name twice, and a use of the counter that
ends with a fault. -/
def counterLines : List String :=
  ["fun counter() { var i = 0; fun next() { i = i + 1; return i; } return next; } " ++
      "var c = counter(); print c();",
    "{ var a = c(); var a = a; }",
    "print c(); print c + 1;"]

/-- The second line is rejected, and the other two show the same without it. -/
theorem counter_is_not_touched_by_rejected_line :
    ∃ step : Shown,
      ((Session.start Sink.unlimited Sink.unlimited fun _ => 0).replay 60 counterLines)[1]? =
        some step ∧
      step.diagnostics.any Diagnostic.isStatic = true ∧ step.output = ByteArray.empty ∧
      (((Session.start Sink.unlimited Sink.unlimited fun _ => 0).replay 60 counterLines).map
        fun step => step.diagnostics.any Diagnostic.isStatic) = [false, true, false] ∧
      ((Session.start Sink.unlimited Sink.unlimited fun _ => 0).replay 60 counterLines).eraseIdx 1 =
        (Session.start Sink.unlimited Sink.unlimited fun _ => 0).replay 60
          (counterLines.eraseIdx 1) := by
  have evaluated : (((Session.start Sink.unlimited Sink.unlimited fun _ => 0).replay 60
      counterLines).map fun step => step.diagnostics.any Diagnostic.isStatic) =
      [false, true, false] := by
    decide +kernel
  have second := congrArg (·[1]?) evaluated
  rw [List.getElem?_map] at second
  obtain ⟨step, found, rejected⟩ := Option.map_eq_some_iff.mp second
  have without := rejected_source_leaves_no_trace Sink.unlimited Sink.unlimited (fun _ => 0) 60
    counterLines 1 step found rejected
  exact ⟨step, found, rejected, without.1, evaluated, without.2.2 rfl⟩

end LoxLang
