import LoxLang.Proofs.Run.Soundness
import LoxLang.Proofs.Scope.Source

/-!
# Distances and the scopes of a run

Resolution and evaluation each have their own idea of the scopes around a
point. The main theorem says that the two never come apart in a session, no
matter which sources it was fed before and how they ended
(`scope_chain_agrees`). It rests on an invariant of sessions: the machine is in
the global environment, every value in its store fits, and only numbers that
were drawn have a distance (`Session.Sound`).
-/

namespace LoxLang

set_option autoImplicit false

open Resolution

/-! ## No return outside of functions -/

namespace Eval

variable {Result : Type}

/-- A step that does not end in a `return`. -/
def Completes (step : Eval Flow) : Prop :=
  ∀ machine value after, step machine ≠ .ok (.returned value) after

theorem completes_pure : Completes (pure .normal) :=
  fun _ _ _ => nofun

theorem Completes.behind {step : Eval Result} {next : Result → Eval Flow}
    (completes : ∀ result, Completes (next result)) : Completes (step >>= next) := by
  intro machine value after
  simp only [Bind.bind, EStateM.bind]
  split
  next result middle _ => exact completes result middle value after
  next => exact nofun

theorem Completes.within {step : Eval Flow} (completes : Completes step) (env : Env) :
    Completes (Eval.within env step) := by
  intro machine value after
  simp only [Eval.within]
  split
  next result reached ran =>
    intro same
    cases same
    exact completes _ _ _ ran
  next =>
    intro same
    cases same

/-- What is scoped outside of every function does not end in a `return`, with a
certain amount of fuel. -/
structure CompletesAt (fuel : Nat) : Prop where
  statement : ∀ {placed : Placing} {enclosing : ClassKind} {scopes : Scopes} {found : Stmt},
    found.Scoped placed ⟨.topLevel, enclosing⟩ scopes → Completes (statement fuel found)
  statements : ∀ {placed : Placing} {enclosing : ClassKind} {scopes : Scopes}
    {found : List Stmt}, Stmt.AllScoped placed ⟨.topLevel, enclosing⟩ scopes found →
      Completes (statements fuel found)
  rounds : ∀ {placed : Placing} {enclosing : ClassKind} {scopes : Scopes} {condition : Expr}
    {body : Stmt}, body.Scoped placed ⟨.topLevel, enclosing⟩ scopes →
      Completes (rounds fuel condition body)

namespace CompletesAt

variable {fuel : Nat} {placed : Placing} {enclosing : ClassKind} {scopes : Scopes}

theorem zero : CompletesAt 0 := by
  constructor <;> intros <;> exact fun _ _ _ => nofun

theorem statement_succ (less : CompletesAt fuel) {found : Stmt}
    (inside : found.Scoped placed ⟨.topLevel, enclosing⟩ scopes) :
    Completes (Eval.statement (fuel + 1) found) := by
  cases found with
  | expression value => exact .behind fun _ => completes_pure
  | print value => exact .behind fun _ => .behind fun _ => completes_pure
  | var name initializer =>
      cases initializer with
      | none => exact .behind fun _ => completes_pure
      | some value => exact .behind fun _ => .behind fun _ => completes_pure
  | block body =>
      exact .behind fun _ => .behind fun inner => (less.statements inside).within inner
  | cond condition thenBranch elseBranch =>
      refine .behind fun value => ?_
      cases elseBranch with
      | none =>
          split
          · exact less.statement inside.2
          · exact completes_pure
      | some branch =>
          split
          · exact less.statement inside.2.1
          · exact less.statement inside.2.2
  | loop condition body => exact less.rounds inside.2
  | function declaration => exact .behind fun _ => .behind fun _ => completes_pure
  | ret keyword value => exact absurd rfl inside.1
  | classDecl name superclass declarations =>
      cases superclass with
      | none => exact .behind fun _ => completes_pure
      | some parent =>
          refine .behind fun value => ?_
          cases value with
          | cls found => exact .behind fun _ => completes_pure
          | _ => exact fun _ _ _ => nofun

theorem statements_succ (less : CompletesAt fuel) {found : List Stmt}
    (inside : Stmt.AllScoped placed ⟨.topLevel, enclosing⟩ scopes found) :
    Completes (Eval.statements (fuel + 1) found) := by
  cases found with
  | nil => exact completes_pure
  | cons first rest =>
      intro machine value after
      simp only [Eval.statements, Bind.bind, EStateM.bind]
      split
      next flow middle ran =>
        cases flow with
        | normal => exact less.statements inside.2 middle value after
        | returned result => exact absurd ran (less.statement inside.1 machine result middle)
      next => exact nofun

theorem rounds_succ (less : CompletesAt fuel) {condition : Expr} {body : Stmt}
    (inside : body.Scoped placed ⟨.topLevel, enclosing⟩ scopes) :
    Completes (Eval.rounds (fuel + 1) condition body) := by
  refine .behind fun value => ?_
  split
  · intro machine result after
    simp only [Bind.bind, EStateM.bind]
    split
    next flow middle ran =>
      cases flow with
      | normal => exact less.rounds inside middle result after
      | returned found => exact absurd ran (less.statement inside machine found middle)
    next => exact nofun
  · exact completes_pure

end CompletesAt

theorem completesAt : ∀ fuel : Nat, CompletesAt fuel
  | 0 => .zero
  | fuel + 1 =>
    have less := completesAt fuel
    { statement := less.statement_succ
      statements := less.statements_succ
      rounds := less.rounds_succ }

end Eval

/-! ## Programs -/

/-- The fault that a step ended with. -/
def Eval.fault? {Result : Type} : EStateM.Result Interrupt Machine Result → Option RuntimeError
  | .error (.fault error) _ => some error
  | _ => none

theorem Discipline.Ended.explains_fault {Result : Type} {kind : Discipline} {start : Machine}
    {explains : RuntimeError → Prop} {good : Store → Result → Prop}
    {outcome : EStateM.Result Interrupt Machine Result}
    (ended : kind.Ended start explains good outcome) {error : RuntimeError}
    (fault : Eval.fault? outcome = some error) : explains error := by
  cases outcome with
  | ok result after => cases fault
  | error interrupt after =>
      cases interrupt with
      | fault raised =>
          cases fault
          exact ended.2 error rfl
      | _ => cases fault

section Programs

variable {placed : Placing} {fuel : Nat}

/-- What holds of a program that is run in the global environment. -/
structure Machine.Starts (placed : Placing) (machine : Machine) (program : List Stmt) : Prop where
  fits : machine.Fits placed
  env : machine.env = Env.global
  wellFormed : Stmt.AllWellFormed program
  inside : Stmt.AllScoped placed ⟨.topLevel, .outside⟩ [] program

namespace Machine.Starts

variable {machine after : Machine} {first : Stmt} {rest : List Stmt}

/-- The first statement of a program fits. -/
theorem fitsFirst (starts : machine.Starts placed (first :: rest)) :
    Moment.Fits placed ⟨fuel, .statement first, machine⟩ :=
  ⟨starts.fits, ⟨.topLevel, .outside⟩, [], ⟨.global, starts.env⟩, starts.wellFormed.1,
    starts.inside.1⟩

/-- Behind it, the others are run in the global environment again. -/
theorem others (starts : machine.Starts placed (first :: rest))
    (kept : machine.Kept placed after) : after.Starts placed rest := by
  refine ⟨kept.fits, kept.env.trans starts.env, starts.wellFormed.2, ?_⟩
  have inside := starts.inside.2
  rwa [Stmt.after_nil] at inside

end Machine.Starts

theorem fitting_governs (placed : Placing) (fuel : Nat) :
    (fitting placed).Governs fuel fun program machine => machine.Starts placed program where
  laws := fitting_laws
  here starts := .refl starts.fits
  first starts := starts.fitsFirst
  others starts _ kept := starts.others kept

/-- Every moment of a program fits. -/
theorem fits_of_performs {program : List Stmt} {machine : Machine} {moment : Moment}
    (performs : Performs fuel program machine moment) (starts : machine.Starts placed program) :
    moment.Fits placed :=
  (fitting_governs placed fuel).performs performs starts

/-- A fault that a program may end with: an undefined variable was missed by
the evaluation of a node without a distance. -/
def Explained (fuel : Nat) (program : List Stmt) (machine : Machine) (error : RuntimeError) :
    Prop :=
  error.cause.isUnscoped = false ∧ ∀ name, error.cause = .undefinedVariable name →
    ∃ origin, Performs fuel program machine origin ∧ origin.Misses error

theorem ended_program {program : List Stmt} {machine : Machine}
    (starts : machine.Starts placed program) (fuel : Nat) :
    (fitting placed).Ended machine (Explained fuel program machine) Discipline.done
      (Eval.program fuel program machine) := by
  refine ((fitting_governs placed fuel).ended_program starts).mono (fun error explained => ?_)
    fun _ _ done => done
  obtain ⟨moment, performs, legal, explained⟩ := explained
  refine ⟨legal, fun name undefined => ?_⟩
  obtain ⟨origin, visited, misses⟩ := explained name undefined
  exact ⟨origin, performs.visits visited, misses⟩

end Programs

/-! ## Sessions -/

namespace Session

/-- What holds of a session between two sources. -/
structure Sound (session : Session) : Prop where
  env : session.machine.env = Env.global
  store : session.machine.store.Fits (session.machine.distances.placing session.nextId)
  unplaced : ∀ id, session.nextId ≤ id → session.machine.distances.find? id = none

theorem sound_start (output errors : Sink) (clock : Nat → Float) :
    (start output errors clock).Sound where
  env := rfl
  store := ⟨.start fun _ => trivial, Nat.zero_lt_one⟩
  unplaced _ _ := DistanceTable.find?_empty _

/-- A session that only draws numbers stays sound. -/
theorem Sound.of_machine {session next : Session} (sound : session.Sound)
    (machine : next.machine = session.machine) (nextId : session.nextId ≤ next.nextId) :
    next.Sound := by
  refine ⟨by rw [machine, sound.env], ?_, fun id new => ?_⟩
  · rw [machine]
    refine sound.store.mono fun id distance placed => ⟨?_, placed.2⟩
    exact Nat.lt_of_lt_of_le placed.1 nextId
  · rw [machine]
    exact sound.unplaced id (Nat.le_trans nextId new)

@[simp] theorem nextId_reportAll (diagnostics : List Diagnostic) (session : Session) :
    (session.reportAll diagnostics).nextId = session.nextId := by
  induction diagnostics generalizing session with
  | nil => rfl
  | cons first rest ih => exact ih (session.report first)

theorem nextId_le_read (session : Session) (source : String) :
    session.nextId ≤ (session.read source).2.nextId :=
  Grammar.nextId_le_program _ _

/-- A source that can be run starts on a machine that fits. -/
theorem Runnable.starts {session : Session} {source : String} {distances : List (Nat × Nat)}
    (runnable : session.Runnable source distances) (sound : session.Sound) :
    (session.prepared distances).Starts
      ((session.prepared distances).distances.placing (session.read source).2.nextId)
      (session.read source).1 where
  fits := ⟨fun _ _ placed => placed.2, sound.store.mono runnable.le_placing⟩
  env := sound.env
  wellFormed := runnable.wellFormed
  inside := runnable.inside sound.unplaced

/-- Where a run of resolved statements leaves a session. -/
theorem machine_execute {session next : Session} {fuel : Nat} {program : List Stmt}
    {distances : List (Nat × Nat)} (ran : session.execute fuel program distances = some next) :
    next.machine = Eval.reached (Eval.program fuel program (session.prepared distances)) ∧
      next.nextId = session.nextId := by
  simp only [execute] at ran
  split at ran
  next machine ended =>
    rw [ended, ← Option.some.inj ran]
    exact ⟨rfl, rfl⟩
  next interrupt machine ended =>
    obtain ⟨diagnostic, _, rfl⟩ := Option.map_eq_some_iff.mp ran
    rw [ended]
    exact ⟨rfl, rfl⟩

theorem sound_run {session next : Session} {fuel : Nat} {source : String} (sound : session.Sound)
    (ran : session.run fuel source = some next) : next.Sound := by
  have untouched := session.machine_read source
  have drawn := session.nextId_le_read source
  simp only [run] at ran
  split at ran
  next =>
    rw [← Option.some.inj ran]
    exact sound.of_machine untouched drawn
  next quiet =>
    split at ran
    next =>
      rw [← Option.some.inj ran]
      exact sound.of_machine (by rw [machine_reportAll, untouched]) (by rwa [nextId_reportAll])
    next distances resolved =>
      have runnable : session.Runnable source distances := ⟨by simpa using quiet, resolved⟩
      obtain ⟨machine, nextId⟩ := machine_execute ran
      have same : (session.read source).2.prepared distances = session.prepared distances := by
        rw [prepared, prepared, untouched]
      rw [same] at machine
      have kept := (ended_program (runnable.starts sound) fuel).kept
      have restored := Eval.restores_program fuel (session.read source).1
        (session.prepared distances)
      rw [← machine] at restored kept
      refine ⟨kept.env.trans sound.env, ?_, ?_⟩
      · rw [restored.distances, nextId]
        exact kept.fits.store
      · rw [restored.distances, nextId]
        exact fun id new => runnable.unplaced_prepared sound.unplaced new

theorem sound_reaches {first session : Session} (reached : first.Reaches session)
    (sound : first.Sound) : session.Sound := by
  induction reached with
  | start => exact sound
  | run _ fuel source ran ih => exact sound_run ih ran
  | reset _ ih => exact ih.of_machine rfl (Nat.le_refl _)

end Session

theorem completes_of_allScoped {placed : Placing} {fuel : Nat} : ∀ {program : List Stmt},
    Stmt.AllScoped placed ⟨.topLevel, .outside⟩ [] program →
      ∀ found ∈ program, Eval.Completes (Eval.statement fuel found)
  | [], _ => nofun
  | first :: rest, inside => by
      have behind := inside.2
      rw [Stmt.after_nil] at behind
      exact List.forall_mem_cons.mpr
        ⟨(Eval.completesAt fuel).statement inside.1, completes_of_allScoped behind⟩

/-- **The scopes of a run are those of resolution.** Take any session, whatever
sources it was fed before, and a source that it reads and resolves without
faults. Whenever a node with a recorded distance is evaluated, the scope at
that distance is there and holds what the node needs. So a run, however it
ends, has none of the faults that scoping rules out, an undefined variable is
a name without a distance, and no statement of the program ends in a
`return`. -/
theorem scope_chain_agrees {output errors : Sink} {clock : Nat → Float} {session : Session}
    (reached : (Session.start output errors clock).Reaches session) {source : String}
    {distances : List (Nat × Nat)} (runnable : session.Runnable source distances) (fuel : Nat) :
    (∀ left found machine,
      Performs fuel (session.read source).1 (session.prepared distances)
        ⟨left, .expression found, machine⟩ → machine.Agrees found) ∧
    (∀ error,
      Eval.fault? (Eval.program fuel (session.read source).1 (session.prepared distances)) =
        some error →
      Explained fuel (session.read source).1 (session.prepared distances) error) ∧
    ∀ found ∈ (session.read source).1, Eval.Completes (Eval.statement fuel found) := by
  have sound := Session.sound_reaches reached (Session.sound_start output errors clock)
  have starts := runnable.starts sound
  refine ⟨fun left found machine performs => ?_, fun error fault => ?_,
    completes_of_allScoped starts.inside⟩
  · obtain ⟨fits, enclosing, scopes, reads, wellFormed, inside⟩ := fits_of_performs performs starts
    exact reads.agrees fits wellFormed inside
  · exact (ended_program starts fuel).explains_fault fault

theorem Resolution.eq_ok_of_toOption {program : List Stmt} {distances : List (Nat × Nat)}
    (accepted : (resolve program).toOption = some distances) : resolve program = .ok distances := by
  cases result : resolve program with
  | ok found =>
      rw [result] at accepted
      exact congrArg Except.ok (Option.some.inj accepted)
  | error errors =>
      rw [result] at accepted
      cases accepted

/-- A class with a method that misses a global name, and a subclass. -/
def classesSource : String :=
  "class A { m() { return missing; } }\n" ++
    "class B < A { m() { return super.m(); } }"

/-- A function that calls the method on a variable around it. -/
def callSource : String := "{ var b = B(); fun f() { return b.m(); } f(); }"

/-- The second source fails in a method that the first has declared, at a name
without a distance. -/
theorem scope_chain_agrees_across_sources :
    ∃ (session : Session) (distances : List (Nat × Nat)) (left : Nat) (found : Expr)
      (machine : Machine),
      (Session.start Sink.unlimited Sink.unlimited fun _ => 0).Reaches session ∧
      session.Runnable callSource distances ∧
      Performs 60 (session.read callSource).1 (session.prepared distances)
        ⟨left, .expression found, machine⟩ ∧
      Moment.Misses ⟨left, .expression found, machine⟩ ⟨.undefinedVariable "missing", 1⟩ ∧
      machine.Agrees found := by
  have fails : (((Session.start Sink.unlimited Sink.unlimited fun _ => 0).run 60
      classesSource).bind fun session =>
        (resolve (session.read callSource).1).toOption.bind fun distances =>
          (Eval.fault? (Eval.program 60 (session.read callSource).1
            (session.prepared distances))).map fun error =>
              ((session.read callSource).2.hasStaticFault, error)) =
      some (false, ⟨.undefinedVariable "missing", 1⟩) := by
    decide +kernel
  obtain ⟨session, ran, reading⟩ := Option.bind_eq_some_iff.mp fails
  obtain ⟨distances, accepted, running⟩ := Option.bind_eq_some_iff.mp reading
  obtain ⟨error, fault, same⟩ := Option.map_eq_some_iff.mp running
  obtain ⟨quiet, rfl⟩ := Prod.mk.inj same
  have resolved := Resolution.eq_ok_of_toOption accepted
  have reached := Session.Reaches.run .start 60 classesSource ran
  have agrees := scope_chain_agrees reached ⟨quiet, resolved⟩ 60
  obtain ⟨origin, performed, misses⟩ := (agrees.2.1 _ fault).2 "missing" rfl
  obtain ⟨left, task, machine⟩ := origin
  cases task with
  | expression found =>
      exact ⟨session, distances, left, found, machine, reached, ⟨quiet, resolved⟩, performed,
        misses, agrees.1 left found machine performed⟩
  | _ => cases misses

end LoxLang
