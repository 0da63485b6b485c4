import LoxLang.Proofs.Concatenation
import LoxLang.Proofs.RejectedSource
import LoxLang.Proofs.Run.Truncation

/-!
# Sinks that fail

A full output cuts a run off and does nothing else to it. With room for all the
output, a run does what it does without a limit. With less, it stops at the line
that does not fit any more (`full_sink_truncates_run`).

A failing sink for faults does not even stop a run. What is written on it is lost,
but neither the output nor the recorded faults depend on it. To say so for every
way of failing, the sink is changed from outside in between the steps of a session
(`Session.observe`).
-/

namespace LoxLang

set_option autoImplicit false

/-! ## Sessions with a limit on the output -/

namespace Session

variable {session other next : Session} {outcome : EStateM.Result Interrupt Machine Unit}

theorem machine_concluded (ended : session.concluded outcome = some next) :
    next.machine = Eval.reached outcome := by
  cases outcome with
  | ok result after =>
      cases ended
      rfl
  | error interrupt after =>
      obtain ⟨diagnostic, -, rfl⟩ := Option.map_eq_some_iff.mp ended
      rfl

/-- What becomes of two sessions that differ in the machine at most. -/
theorem concluded_of_follows {limit : Nat} {crossing : Machine → Prop}
    {limited : EStateM.Result Interrupt Machine Unit}
    (follows : Eval.Follows limit crossing outcome limited) (errors : other.errors = session.errors)
    (diagnostics : other.diagnostics = session.diagnostics)
    (ended : session.concluded outcome = some next) :
    ∃ last, other.concluded limited = some last ∧
      (next.machine.output.written.size ≤ limit →
        last.machine = next.machine.capped limit ∧ last.errors = next.errors ∧
          last.diagnostics = next.diagnostics) ∧
      (limit < next.machine.output.written.size →
        last.machine.output.written = next.machine.output.written.extract 0 limit ∧
          last.diagnostics = session.diagnostics ++ [.output .full] ∧
            ∃ middle, crossing middle ∧ last.machine.store = middle.store ∧
              last.machine.readings = middle.readings) := by
  have reached := machine_concluded ended
  cases follows with
  | whole inside =>
      rw [← reached] at inside
      have short : ¬ limit < next.machine.output.written.size := Nat.not_lt.mpr inside
      cases outcome with
      | ok result after =>
          cases ended
          exact ⟨_, rfl, fun _ => ⟨rfl, errors, diagnostics⟩, fun long => absurd long short⟩
      | error interrupt after =>
          obtain ⟨diagnostic, found, rfl⟩ := Option.map_eq_some_iff.mp ended
          refine ⟨{ other with machine := after.capped limit }.report diagnostic, ?_, fun _ => ?_,
            fun long => absurd long short⟩
          · simp only [concluded, Eval.onMachine, found, Option.map_some]
          · simp only [report, errors, diagnostics, and_self]
  | @cut middle stopped beyond written crosses store readings =>
      rw [← reached] at beyond written
      refine ⟨{ other with machine := stopped }.report (.output .full), rfl,
        fun short => absurd beyond (Nat.not_lt.mpr short), fun _ => ⟨written, ?_, ?_⟩⟩
      · simp only [report, diagnostics]
      · exact ⟨middle, crosses, store, readings⟩

/-! ## Sessions with a failing sink for faults -/

/-- What is done in a session: a source is run, or the recorded faults are
forgotten. -/
inductive Step where
  | run (source : String)
  | reset

/-- Does a step, if it has an outcome. -/
def perform (fuel : Nat) (session : Session) : Step → Option Session
  | .run source => session.run fuel source
  | .reset => some session.reset

/-- Does steps one after the other, and gives what each writes on the output and
the recorded faults behind it. Before each step the sink for faults is changed from
outside. A step without an outcome is the last. -/
def observe (fuel : Nat) (session : Session) :
    List ((Sink → Sink) × Step) → List (ByteArray × List Diagnostic)
  | [] => []
  | (change, step) :: rest =>
    match { session with errors := change session.errors }.perform fuel step with
    | some next => (session.shown next).result :: next.observe fuel rest
    | none => []

/-- The same steps with the sink for faults left alone. -/
def undisturbed (steps : List ((Sink → Sink) × Step)) : List ((Sink → Sink) × Step) :=
  steps.map fun step => (id, step.2)

namespace Similar

variable {first room : Nat}

theorem perform (similar : session.Similar first room other) (fuel : Nat) (step : Step) :
    Option.Rel (Similar first room) (session.perform fuel step) (other.perform fuel step) := by
  cases step with
  | run source => exact similar.run fuel source
  | reset => exact .some similar.reset

/-- The sinks for faults of similar sessions may be anything. -/
theorem withErrors (similar : session.Similar first room other) (mine theirs : Sink) :
    { session with errors := mine }.Similar first room { other with errors := theirs } :=
  ⟨similar.machine, similar.diagnostics, similar.late, similar.nextId⟩

theorem observe (similar : session.Similar first room other) (fuel : Nat)
    (steps : List ((Sink → Sink) × Step)) :
    session.observe fuel steps = other.observe fuel (undisturbed steps) := by
  induction steps generalizing session other with
  | nil => rfl
  | cons found rest ih =>
      obtain ⟨change, step⟩ := found
      have same := (similar.withErrors (change session.errors) other.errors).perform fuel step
      simp only [undisturbed, List.map_cons, Session.observe, id]
      generalize { session with errors := change session.errors }.perform fuel step = mine,
        { other with errors := other.errors }.perform fuel step = theirs at same
      cases same with
      | none => rfl
      | some alike =>
          simp only [ih alike, undisturbed, Shown.result, shown, similar.machine.output,
            alike.machine.output, alike.diagnostics]

end Similar

end Session

/-! ## The theorem -/

/-- **A full output truncates a run and does nothing else.** A source without static
faults is run in a new session. If its output is as long as the room of a sink or
shorter, then the run on that sink has the same output, the same faults and the same
store. If it is longer, then the run on that sink writes just the bytes for which
there is room, and that the sink is full is its only fault, with exit code 0. It has
stopped at a `print` of the run without a limit: the store and the clock are as they
were before that line was written.

In a session, what the steps write on the output and the faults they record do not
depend on the sink for faults. -/
theorem full_sink_truncates_run :
    (∀ (flushes : Bool) (errors : Sink) (clock : Nat → Float) (source : String)
      (fuel room : Nat) (whole : Session),
      let free := Session.start (.withRoom none flushes) errors clock
      let narrow := Session.start (.withRoom (some room) flushes) errors clock
      Compiles source → free.run fuel source = some whole →
        ∃ limited, narrow.run fuel source = some limited ∧
          (whole.machine.output.written.size ≤ room →
            limited.machine.output.written = whole.machine.output.written ∧
              limited.errors = whole.errors ∧ limited.diagnostics = whole.diagnostics ∧
                limited.machine.store = whole.machine.store) ∧
          (room < whole.machine.output.written.size →
            limited.machine.output.written = whole.machine.output.written.extract 0 room ∧
              limited.diagnostics = [.output .full] ∧ limited.exitCode = 0 ∧
                ∃ distances moment middle, free.Runnable source distances ∧
                  Performs fuel (free.read source).1 (free.prepared distances) moment ∧
                    moment.Crosses room middle ∧ limited.machine.store = middle.store ∧
                      limited.machine.readings = middle.readings)) ∧
    ∀ (output errors : Sink) (clock : Nat → Float) (fuel : Nat)
      (steps : List ((Sink → Sink) × Session.Step)),
      (Session.start output errors clock).observe fuel steps =
        (Session.start output .unlimited clock).observe fuel (Session.undisturbed steps) := by
  constructor
  · intro flushes errors clock source fuel room whole free narrow compiles ran
    obtain ⟨distances, runnable⟩ := compiles.runnable (show free.hasStaticFault = false from rfl)
    have tree : (narrow.read source).1 = (free.read source).1 := by
      rw [compiles.read, compiles.read]
      rfl
    have sameErrors : (narrow.read source).2.errors = (free.read source).2.errors := by
      rw [compiles.read, compiles.read]
      rfl
    have quiet (session : Session) :
        (session.read source).2.diagnostics = session.diagnostics := by
      rw [compiles.read]
    have accepted : narrow.Runnable source distances := by
      refine ⟨?_, by rw [tree]; exact runnable.resolved⟩
      rw [Session.hasStaticFault, quiet]
      rfl
    -- Before anything is written, the two machines differ by the limit and nothing else.
    have capped : narrow.prepared distances = (free.prepared distances).capped room := rfl
    have limits : Eval.Limited room _ (free.prepared distances) _ _ :=
      Eval.limited_program fuel (free.read source).1 rfl
    rw [Session.run_of_runnable runnable] at ran
    rw [Session.run_of_runnable accepted, tree, capped]
    obtain ⟨limited, ended, fits, cut⟩ := Session.concluded_of_follows
      (limits.follows (Nat.zero_le _)) sameErrors (by rw [quiet, quiet]; rfl) ran
    refine ⟨limited, ended, fun short => ?_, fun long => ?_⟩
    · obtain ⟨machine, errors, diagnostics⟩ := fits short
      rw [machine]
      exact ⟨rfl, errors, diagnostics, rfl⟩
    · obtain ⟨written, diagnostics, middle, ⟨moment, performs, crosses⟩, store, readings⟩ :=
        cut long
      rw [quiet] at diagnostics
      refine ⟨written, diagnostics, ?_, distances, moment, middle, runnable, performs, crosses,
        store, readings⟩
      rw [Session.exitCode, Session.hasStaticFault, Session.hasRuntimeFault, diagnostics]
      rfl
  · intro output errors clock fuel steps
    have settled := Session.settled_start output errors clock
    -- No number is drawn more by either, so all that may differ is the sink for faults.
    have similar : (Session.start output errors clock).Similar 0 0
        (Session.start output .unlimited clock) :=
      ⟨Machine.Settled.similar settled (Relabelling.keepsBelow_moveIds _ _), rfl, Nat.le_refl _,
        rfl⟩
    exact similar.observe fuel steps

/-- A source with a line that goes beyond four bytes, and an assignment behind it. -/
def overflowingSource : String :=
  "print \"a\"; var x = \"old\"; print \"bcd\"; x = \"new\";"

/-- The second line is cut, and the assignment behind it is not made. -/
theorem overflowing_line_is_cut :
    ∃ whole limited,
      (Session.start (.withRoom none true) .unlimited fun _ => 0).run 9 overflowingSource =
        some whole ∧
      (Session.start (.withRoom (some 4) true) .unlimited fun _ => 0).run 9 overflowingSource =
        some limited ∧
      whole.machine.output.written = "a\nbcd\n".toUTF8 ∧
      limited.machine.output.written = "a\nbc".toUTF8 ∧
      limited.diagnostics = [.output .full] ∧ limited.exitCode = 0 ∧
      (limited.machine.store.findIn? Env.global "x").map Value.text = some "old" := by
  have compiles : Compiles overflowingSource := by decide +kernel
  have prints : ((Session.start (.withRoom none true) .unlimited fun _ => 0).run 9
      overflowingSource).map (·.machine.output.written) = some "a\nbcd\n".toUTF8 := by
    decide +kernel
  have keeps : (((Session.start (.withRoom (some 4) true) .unlimited fun _ => 0).run 9
      overflowingSource).bind (·.machine.store.findIn? Env.global "x")).map Value.text =
        some "old" := by
    decide +kernel
  obtain ⟨whole, ran, written⟩ := Option.map_eq_some_iff.mp prints
  obtain ⟨limited, stops, -, cut⟩ := full_sink_truncates_run.1 true .unlimited (fun _ => 0)
    overflowingSource 9 4 whole compiles ran
  rw [stops] at keeps
  rw [written] at cut
  obtain ⟨first, diagnostics, code, -⟩ := cut (by decide)
  exact ⟨whole, limited, ran, stops, written, first.trans (by decide), diagnostics, code, keeps⟩

end LoxLang
