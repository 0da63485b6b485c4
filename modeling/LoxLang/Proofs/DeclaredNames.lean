import LoxLang.Proofs.Run.BoundNames
import LoxLang.Proofs.Session.Settled

/-!
# Names are declared where they stand

A block and the body of a function leave no name behind in the scopes around them,
and nothing but a declaration at the top of a source binds a global name
(`declarations_stay_in_scope`). This holds however the run ends, because it holds
of the store that each step leaves, with a result or without one.
-/

namespace LoxLang

set_option autoImplicit false

namespace Eval

variable {Result : Type} {machine : Machine}

/-- Every frame that was there binds the same names at the end of a step. -/
def KeepsNames (machine : Machine) (outcome : EStateM.Result Interrupt Machine Result) : Prop :=
  ∀ frame < machine.store.frames.size, ∀ name,
    ((reached outcome).store.findIn? frame name).isSome =
      (machine.store.findIn? frame name).isSome

/-- A step that binds no new name keeps the names, since none is ever removed. -/
theorem Adds.keepsNames {step : Eval Result} (adds : Adds nothing machine (step machine))
    (restores : Restores step) : KeepsNames machine (step machine) := by
  intro frame inside name
  have kept := (restores machine).store.bound frame name
  have gained := adds.names frame inside name
  cases now : ((reached (step machine)).store.findIn? frame name).isSome with
  | true => exact ((gained now).resolve_right id).symm
  | false =>
      cases before : (machine.store.findIn? frame name).isSome with
      | true => exact now.symm.trans (kept before)
      | false => rfl

/-- The statements of a program bind the names that they declare. -/
theorem adds_topLevel {placed : Placing} {fuel : Nat} : ∀ {program : List Stmt}
    {machine : Machine}, machine.Starts placed program →
      Adds (fun frame name => frame = Env.global ∧ ∃ found ∈ program, found.Declares name) machine
        (topLevel fuel program machine)
  | [], _, _ => .refl _
  | first :: rest, machine, starts => by
      have one := (addsAt fuel).statement starts.fitsFirst
      refine .bind (one.mono fun _ _ here => ?_) fun flow middle ran => ?_
      · exact ⟨here.1.trans starts.env, first, List.mem_cons_self, here.2⟩
      · have kept := (fitting_laws.statement_ok starts.fitsFirst ran).1
        refine (adds_topLevel (starts.others kept)).mono fun _ _ here => ?_
        obtain ⟨global, found, member, declares⟩ := here
        exact ⟨global, found, List.mem_cons_of_mem _ member, declares⟩

theorem adds_program {placed : Placing} {program : List Stmt}
    (starts : machine.Starts placed program) (fuel : Nat) :
    Adds (fun frame name => frame = Env.global ∧ ∃ found ∈ program, found.Declares name) machine
      (Eval.program fuel program machine) :=
  .bind (adds_topLevel starts) fun _ _ _ => adds_flush

end Eval

/-- **Declarations stay in their scope, and there are no others.** Take any session,
whatever sources it was fed before, and a source that it reads and resolves without
faults. However the run ends, and wherever it stands:

- a block leaves the frames that were there before it with the same names;
- so does the call of a function, a method or an initializer;
- no statement removes a name from any frame, and so the run removes none;
- the global names behind the run are those in front of it and names that are
  declared by statements at the top of the source.
-/
theorem declarations_stay_in_scope {output errors : Sink} {clock : Nat → Float}
    {session : Session} (reached : (Session.start output errors clock).Reaches session)
    {source : String} {distances : List (Nat × Nat)}
    (runnable : session.Runnable source distances) (fuel : Nat) :
    let program := (session.read source).1
    let before := session.prepared distances
    let after := Eval.reached (Eval.program fuel program before)
    (∀ left body machine, Performs fuel program before ⟨left, .statement (.block body), machine⟩ →
      Eval.KeepsNames machine (Eval.statement left (.block body) machine)) ∧
    (∀ left closure values machine,
      Performs fuel program before ⟨left, .applyClosure closure values, machine⟩ →
        Eval.KeepsNames machine (Eval.applyClosure left closure values machine)) ∧
    (∀ left found machine, Performs fuel program before ⟨left, .statement found, machine⟩ →
      ∀ frame name, (machine.store.findIn? frame name).isSome →
        ((Eval.reached (Eval.statement left found machine)).store.findIn? frame name).isSome) ∧
    (∀ frame name, (session.machine.store.findIn? frame name).isSome →
      (after.store.findIn? frame name).isSome) ∧
    (∀ name, (after.store.findIn? Env.global name).isSome →
      (session.machine.store.findIn? Env.global name).isSome ∨
        ∃ found ∈ program, found.Declares name) ∧
    ∀ next, session.run fuel source = some next → next.machine = after := by
  intro program before after
  have sound := Session.sound_reaches reached (Session.sound_start output errors clock)
  have starts := runnable.starts sound
  refine ⟨fun left body machine performs => ?_, fun left closure values machine performs => ?_,
    fun left found machine _ => ?_, ?_, fun name bound => ?_, fun next ran => ?_⟩
  · have adds := (Eval.addsAt left).statement (fits_of_performs performs starts)
    refine Eval.Adds.keepsNames (adds.mono fun _ name here => ?_)
      ((Eval.restoredAt left).statement _)
    exact Stmt.not_declares rfl name here.2
  · have adds := (Eval.addsAt left).applyClosure (fits_of_performs performs starts)
    exact adds.keepsNames ((Eval.restoredAt left).applyClosure closure values)
  · exact ((Eval.restoredAt left).statement found machine).store.bound
  · exact (Eval.restores_program fuel program before).store.bound
  · have gained := (Eval.adds_program starts fuel).names Env.global starts.fits.store.inhabited
      name bound
    exact gained.imp_right And.right
  · rw [Session.run_of_runnable runnable, ← Session.prepared_read,
      ← Session.execute_eq_concluded] at ran
    rw [(Session.machine_execute ran).1, Session.prepared_read]

/-- A function that declares a variable and then misses a name, called in a block
that declares that name. -/
def leakingSource : String :=
  "fun f(a) { var x = a; return y; } { var y = 1; f(y); }"

/-- The run fails inside a call inside a block, and none of their names is global. -/
theorem failed_call_leaves_no_names :
    let session := Session.start Sink.unlimited Sink.unlimited fun _ => 0
    ∃ distances next, session.Runnable leakingSource distances ∧
      session.run 40 leakingSource = some next ∧ next.exitCode = 70 ∧
      ∀ name ∈ ["a", "x", "y"], (next.machine.store.findIn? Env.global name).isSome = false := by
  intro session
  have fails : (session.run 40 leakingSource).map Session.exitCode = some 70 := by
    decide +kernel
  have accepted : (resolve (session.read leakingSource).1).toBool = true := by decide +kernel
  have quiet : (session.read leakingSource).2.hasStaticFault = false := by decide +kernel
  have new : ∀ name ∈ ["a", "x", "y"],
      (session.machine.store.findIn? Env.global name).isSome = false := by
    decide +kernel
  have others : ∀ name ∈ ["a", "x", "y"], ∀ found ∈ (session.read leakingSource).1,
      found.declared?.map Token.lexeme ≠ some name := by
    decide +kernel
  obtain ⟨next, ran, code⟩ := Option.map_eq_some_iff.mp fails
  cases resolved : resolve (session.read leakingSource).1 with
  | error faults =>
      rw [resolved] at accepted
      cases accepted
  | ok distances =>
      have runnable : session.Runnable leakingSource distances := ⟨quiet, resolved⟩
      have reached : session.Reaches session := .start
      obtain ⟨-, -, -, -, global, ends⟩ := declarations_stay_in_scope reached runnable 40
      refine ⟨distances, next, runnable, ran, code, fun name member => ?_⟩
      rw [ends next ran, Bool.eq_false_iff]
      intro bound
      rcases global name bound with old | ⟨found, here, token, declared, rfl⟩
      · cases (new name member).symm.trans old
      · exact others _ member found here (by rw [declared]; rfl)

end LoxLang
