import LoxLang.Proofs.Lexical.Simulation
import LoxLang.Proofs.Scope.Source

/-!
# Distances implement lexical scoping

A source is run in two ways: by a session, whose machine looks local names up
at the distances that resolution has found, and by the second interpreter,
which has scopes in place of distances (`Lexical.run`). What can be seen from
outside is the same, for every source and every amount of fuel
(`distances_implement_lexical_scoping`).
-/

namespace LoxLang

set_option autoImplicit false

open Resolution

/-- What can be seen of a session: what was written to its sinks, and the
faults in order. -/
structure Session.Seen where
  output : Sink
  errors : Sink
  diagnostics : List Diagnostic

/-- What can be seen of a session so far. -/
def Session.seen (session : Session) : Session.Seen :=
  ⟨session.machine.output, session.errors, session.diagnostics⟩

namespace Lexical

/-- What is seen behind a run, if there was enough fuel for it. -/
def seenBehind (reading : Session) : EStateM.Result Interrupt State Unit → Option Session.Seen
  | .ok () state => some ⟨state.output, reading.errors, reading.diagnostics⟩
  | .error interrupt state => interrupt.diagnostic?.map fun diagnostic =>
    { (reading.report diagnostic).seen with output := state.output }

/-- Runs a source in a new session without its distances. Resolution is asked
for faults only. -/
def run (fuel : Nat) (output errors : Sink) (clock : Nat → Float) (source : String) :
    Option Session.Seen :=
  let (found, reading) := (Session.start output errors clock).read source
  if reading.hasStaticFault then some reading.seen
  else match resolve found with
    | .error faults => some (reading.reportAll (faults.map .binding)).seen
    | .ok _ => seenBehind reading (program fuel found (.initial output clock))

/-! ## The start of a run -/

/-- A world in which nothing has been made or declared. -/
def World.empty : World := ⟨#[], #[]⟩

/-- The frame with the built-in functions is the global table. -/
theorem stored_initial (placed : Placing) (output : Sink) (clock : Nat → Float) :
    Stored placed .empty (Machine.initial output clock).store (.initial output clock) := by
  have empty : ∀ (frame : Env) (name : String), Store.initial.findIn? frame name = none := by
    intro frame name
    cases frame <;> rfl
  constructor
  case globals =>
    intro name
    by_cases same : name = "clock"
    · subst same
      exact .native .clock
    · rw [Machine.initial, Store.define, Store.findIn?_bindIn_of_ne (.inr same), empty]
      have missing : Bindings.find? name [("clock", Value.native .clock)] = none := by
        simp [Bindings.find?, Ne.symm same]
      rw [State.initial, missing]
      trivial
  case known =>
    intro frame name value inner _ bound
    rw [Machine.initial, Store.define, Store.findIn?_bindIn_of_ne (.inl inner), empty] at bound
    cases bound
  case cellCount | fieldCount | classCount => rfl
  case cells =>
    intro _ _ _ _ known
    cases known
  case inside =>
    intro _ _ _ known
    cases known
  case fields => exact fun _ _ _ _ => trivial

theorem simulates_prepared (output errors : Sink) (clock : Nat → Float)
    (distances : List (Nat × Nat)) (bound : Nat) :
    Simulates (((Session.start output errors clock).prepared distances).distances.placing bound)
      .empty ((Session.start output errors clock).prepared distances) (.initial output clock) where
  table _ _ placed := placed.2
  global := rfl
  inhabited := Nat.zero_lt_one
  stored := stored_initial _ output clock
  madeCount := rfl
  captured _ _ known := by cases known
  distinct := by
    constructor
    · intro _ _ _ known
      cases known
    · intro _ _ _ _ _ known
      cases known
  depth := rfl
  output := rfl
  clock := rfl
  readings := rfl

/-- A machine between two statements of a program stands in the global scope. -/
theorem Simulates.standing {placed : Placing} {world : World} {machine : Machine} {state : State}
    (simulates : Simulates placed world machine state) (env : machine.env = Env.global) :
    Standing placed world machine state .outside [] .global where
  simulates := simulates
  settled := .global
  stands := by
    refine ⟨⟨env, fun _ _ _ => rfl, ?_, ?_, ?_⟩, rfl, fun inner => absurd rfl inner⟩
    · intro _ _ _ _ known
      cases known
    · intro _ _ known
      cases known
    · intro _ _ known
      cases known

/-- A program starts in the global environment, which has no local names. -/
theorem standing_prepared (output errors : Sink) (clock : Nat → Float)
    (distances : List (Nat × Nat)) (bound : Nat) :
    Standing (((Session.start output errors clock).prepared distances).distances.placing bound)
      .empty ((Session.start output errors clock).prepared distances) (.initial output clock)
      .outside [] .global :=
  (simulates_prepared output errors clock distances bound).standing rfl

/-- The program of a source that can be run agrees on both sides. -/
theorem agree_source {output errors : Sink} {clock : Nat → Float} {source : String}
    {distances : List (Nat × Nat)}
    (runnable : (Session.start output errors clock).Runnable source distances) (fuel : Nat) :
    Agree
      (((Session.start output errors clock).prepared distances).distances.placing
        ((Session.start output errors clock).read source).2.nextId)
      (.fromFrame Env.global) .empty ((Session.start output errors clock).prepared distances)
      likeDone
      (Eval.program fuel ((Session.start output errors clock).read source).1
        ((Session.start output errors clock).prepared distances))
      (program fuel ((Session.start output errors clock).read source).1
        (.initial output clock)) := by
  refine agree_program fuel (standing_prepared output errors clock distances _)
    runnable.wellFormed (runnable.inside fun _ _ => DistanceTable.find?_empty _)
    runnable.numbered.nodup ?_
  intro _ _ _ known
  cases known

end Lexical

/-- What is seen of a run depends on how it agrees with another one. -/
theorem Session.seen_execute {session : Session} {fuel : Nat} {found : List Stmt}
    {distances : List (Nat × Nat)} {placed : Placing} {room : Lexical.Room} {world : Lexical.World}
    {machine : Machine} {result : EStateM.Result Interrupt Lexical.State Unit}
    (agree : Lexical.Agree placed room world machine Lexical.likeDone
      (Eval.program fuel found (session.prepared distances)) result) :
    (session.execute fuel found distances).map Session.seen =
      Lexical.seenBehind session result := by
  unfold Session.execute
  rcases agree.cases with ⟨⟨⟩, ⟨⟩, wider, after, reached, left, rfl, advances, _⟩ |
    ⟨interrupt, wider, after, reached, left, rfl, advances⟩
  · simp only [left, Option.map_some, Lexical.seenBehind, Session.seen,
      advances.simulates.output]
  · simp only [left, Lexical.seenBehind, Option.map_map]
    cases interrupt.diagnostic? with
    | none => rfl
    | some diagnostic =>
        simp only [Option.map_some, Function.comp, Session.seen, Session.report,
          advances.simulates.output]

/-! ## What a function sees -/

/-- The value that a frame has for a name. -/
def Store.valueIn (store : Store) (frame : Env) (name : String) : Except RuntimeCause Value :=
  match store.findIn? frame name with
  | some value => .ok value
  | none => .error (.undefinedVariable name)

/-- An occurrence in the body of a function, outside of its own frame. -/
theorem Machine.ancestor?_inBody {machine : Machine} {closure : Closure} {distance : Nat}
    {frame : Env} (reached : machine.store.ancestor? closure.env distance = some frame)
    (values : List Value) :
    (machine.inBody closure values).store.ancestor? (machine.inBody closure values).env
      (distance + 1) = some frame := by
  have inside := Store.lt_of_enclosing? (machine.store.enclosing?_child closure.env)
  have link : (machine.inBody closure values).store.enclosing? (machine.inBody closure values).env =
      some closure.env :=
    ((Store.grows_defineAll _ _ values _).enclosing _ inside).trans
      (machine.store.enclosing?_child closure.env)
  rw [Store.ancestor?, link]
  exact (machine.store.extends_childWith closure.env _ values).toGrows.ancestor? reached

/-- **Distances implement lexical scoping.** Whatever the source and the fuel, a
session and the second interpreter show the same: the same output, and no fault
or the same faults at the same lines. In particular no statement, such as a
later declaration, changes the binding that a function reads or writes: in
every later call an occurrence means the frame that was at its distance from
the environment of the function before. -/
theorem distances_implement_lexical_scoping :
    (∀ (fuel : Nat) (output errors : Sink) (clock : Nat → Float) (source : String),
      ((Session.start output errors clock).run fuel source).map Session.seen =
        Lexical.run fuel output errors clock source) ∧
    ∀ (fuel : Nat) (found : Stmt) (machine later : Machine) (closure : Closure)
      (values : List Value) (occurrence : Occurrence) (distance : Nat) (frame : Env),
      machine.distances.find? occurrence.id = some (distance + 1) →
      machine.store.ancestor? closure.env distance = some frame →
      later = (Eval.reached (Eval.statement fuel found machine)).inBody closure values →
        later.target occurrence = .ok frame ∧
        later.value occurrence = later.store.valueIn frame occurrence.name := by
  constructor
  · intro fuel output errors clock source
    simp only [Session.run, Lexical.run]
    split
    next => rfl
    next quiet =>
      cases resolved : resolve ((Session.start output errors clock).read source).1 with
      | error faults => rfl
      | ok distances =>
          have runnable : (Session.start output errors clock).Runnable source distances :=
            ⟨by simpa using quiet, resolved⟩
          have same : ((Session.start output errors clock).read source).2.prepared distances =
              (Session.start output errors clock).prepared distances := by
            rw [Session.prepared, Session.prepared, Session.machine_read]
          have agree := Lexical.agree_source runnable fuel
          rw [← same] at agree
          exact Session.seen_execute agree
  · rintro fuel found machine later closure values occurrence distance frame recorded before rfl
    have restored := (Eval.restoredAt fuel).statement found machine
    have reached := Machine.ancestor?_inBody (restored.store.ancestor? before) values
    have table : ((Eval.reached (Eval.statement fuel found machine)).inBody closure
        values).distances.find? occurrence.id = some (distance + 1) := by
      rw [Machine.inBody, restored.distances, recorded]
    constructor
    · simp only [Machine.target, table, Store.frameAt, reached]
    · simp only [Machine.value, table, Store.getAt, Store.frameAt, reached]
      rfl

/-- A function is declared before a variable of the block shadows the one it
reads, and called before and after that. -/
def shadowingSource : String :=
  "var a = \"global\";\n" ++
    "\x7b fun show() \x7b print a; \x7d show(); var a = \"block\"; show(); print a; \x7d"

/-- A machine in a block with a variable outside, which one occurrence is
placed at. -/
def machineInBlock : Machine :=
  { Machine.bare Sink.unlimited fun _ => 0 with
    store := ((Store.initial.child Env.global).2.child (Store.initial.child Env.global).1).2
    env := 2
    distances := DistanceTable.empty.insert 0 2 }

/-- A function of the block. -/
def functionInBlock : Closure := ⟨⟨1, ⟨.identifier, "show", 1⟩, [], []⟩, 2, false⟩

/-- The function reads the same variable in both calls. The declaration of a
variable in the block leaves alone where the function looks for it. -/
theorem later_declaration_is_not_seen :
    ((Session.start Sink.unlimited Sink.unlimited fun _ => 0).run 40 shadowingSource).map
        (fun ended => (ended.machine.output.written.toList, ended.diagnostics)) =
      some ("global\nglobal\nblock\n".toUTF8.toList, []) ∧
    Machine.target ((Eval.reached (Eval.statement 1 (.var ⟨.identifier, "a", 1⟩ none)
      machineInBlock)).inBody functionInBlock []) ⟨0, ⟨.identifier, "a", 1⟩⟩ = .ok 1 := by
  constructor
  · have seen := distances_implement_lexical_scoping.1 40 Sink.unlimited Sink.unlimited (fun _ => 0)
      shadowingSource
    have shown : ((Lexical.run 40 Sink.unlimited Sink.unlimited (fun _ => 0) shadowingSource).map
        fun ended => (ended.output.written.toList, ended.diagnostics)) =
        some ("global\nglobal\nblock\n".toUTF8.toList, []) := by
      decide +kernel
    rw [← seen, Option.map_map] at shown
    exact shown
  · exact (distances_implement_lexical_scoping.2 1 (.var ⟨.identifier, "a", 1⟩ none)
      machineInBlock _ functionInBlock [] ⟨0, ⟨.identifier, "a", 1⟩⟩ 1 1 (by decide) rfl rfl).1

end LoxLang
