import LoxLang.Proofs.Run.Tracing
import LoxLang.Proofs.Session.Settled

/-!
# The receiver of a method and the methods of its superclass

The main theorem says what `this` and `super` stand for, wherever they are
evaluated in a session (`words_belong_to_activation`). There is an activation of
the method around them: the call of a method of the innermost class around the
use, in the course of which the environment at hand was made. The value of
`this` is the instance that the method was bound to for this call. A method
after `super` is looked for from the class on that the superclass stood for when
the class statement around the method was executed, and is bound to the same
instance. Neither depends on the class of the instance, on the way that the
method took from where it was bound to where it was called, or on what the names
of the classes have stood for since.

The class statement may have been executed and the method bound in an earlier
run. So the moments that count are those of all runs of the session so far
(`Session.History`).
-/

namespace LoxLang

set_option autoImplicit false

/-! ## What the words stand for at a moment -/

/-- A method of a class, bound to an instance, or the fault that there is
none. -/
def Eval.methodOf (object : Instance) (name : Token) : Option Closure → Eval Value
  | some method => Value.function <$> bindMethod method object
  | none => raise name (.undefinedProperty name.lexeme)

namespace Moment.Traced

variable {record : Chronicle} {left : Nat} {machine : Machine}

/-- An activation encloses every use of `this` or `super`. -/
theorem exists_activation {found : Expr} {use : Use}
    (traced : Moment.Traced record ⟨left + 1, .expression found, machine⟩)
    (used : found.uses = [use]) (word : use.IsWord) :
    ∃ (activation : Activation) (depth : Nat), activation.Stands record machine.store ∧
      machine.store.ancestor? machine.env depth = some activation.frame ∧
      ⟨depth, use⟩ ∈ activation.uses := by
  have listed : ⟨0, use⟩ ∈ Task.uses (.expression found) := by
    rw [Task.uses, used]
    exact List.mem_singleton.mpr rfl
  exact traced.covers ⟨0, use⟩ listed word

theorem this {occurrence : Occurrence}
    (traced : Moment.Traced record ⟨left + 1, .expression (.thisRef occurrence), machine⟩) :
    ∃ activation : Activation, activation.Happened record.seen ∧
      activation.Encloses machine ⟨.thisWord, occurrence⟩ ∧
      Eval.expression (left + 1) (.thisRef occurrence) machine =
        .ok (.object activation.object) machine := by
  obtain ⟨activation, depth, stands, reached, belongs⟩ :=
    traced.exists_activation rfl (.inl rfl)
  refine ⟨activation, stands.happened, ⟨stands.opened, depth, belongs, reached⟩, ?_⟩
  have distance := traced.fits.machine.table _ _ (stands.method.2.this depth occurrence belongs)
  have name : occurrence.name = "this" := by
    obtain ⟨_, _, _, _, wellFormed, _⟩ := traced.fits
    exact wellFormed
  have outer := Store.ancestor?_succ reached stands.enclosing_frame
  simp only [Eval.expression, Eval.lookUp, Machine.value, distance, Store.getAt, Store.frameAt,
    outer, name, stands.this]

theorem super {occurrence : Occurrence} {name : Token}
    (traced : Moment.Traced record ⟨left + 1, .expression (.superRef occurrence name), machine⟩) :
    ∃ (activation : Activation) (parent : Class) (result : Option Closure),
      activation.Happened record.seen ∧
      activation.Encloses machine ⟨.superWord, occurrence⟩ ∧
      activation.declared.parent = some parent ∧
      Class.Finds record.seen name.lexeme parent result ∧
      Eval.expression (left + 1) (.superRef occurrence name) machine =
        Eval.methodOf activation.object name result machine := by
  obtain ⟨activation, depth, stands, reached, belongs⟩ :=
    traced.exists_activation rfl (.inr rfl)
  obtain ⟨derived, placed⟩ := stands.method.2.super depth occurrence belongs
  rw [← stands.above.happened.isSome_parent] at derived
  obtain ⟨parent, same⟩ := Option.isSome_iff_exists.mp derived
  have held := stands.above.super parent same
  have made : parent.Made record machine.store := traced.store.bound _ _ _ held
  refine ⟨activation, parent, parent.findMethod? name.lexeme, stands.happened,
    ⟨stands.opened, depth, belongs, reached⟩, same, made.finds name.lexeme, ?_⟩
  have distance := traced.fits.machine.table _ _ placed
  have inner := Store.ancestor?_succ reached stands.enclosing_frame
  have outer := Store.ancestor?_succ inner stands.enclosing_closure
  have binding : machine.superBinding? occurrence = some (parent, activation.object) := by
    simp only [Machine.superBinding?, distance, Store.implicitAt?, inner, outer, held, stands.this]
  simp only [Eval.expression, Eval.superMethod, binding]
  cases parent.findMethod? name.lexeme <;> rfl

end Moment.Traced

/-! ## Programs -/

theorem Performs.begins {fuel : Nat} {program : List Stmt} {machine : Machine}
    {moment next : Moment} (performs : Performs fuel program machine moment)
    (begins : Begins moment next) : Performs fuel program machine next :=
  performs.visits (.begun begins (.here next))

section Programs

variable {record : Chronicle} {fuel : Nat} {program : List Stmt} {machine : Machine}

/-- A statement that is run in the global environment is traced: there is no
`this` or `super` outside of its functions and classes. -/
theorem Machine.Starts.traced {first : Stmt} {rest : List Stmt}
    (starts : machine.Starts record.placed (first :: rest))
    (seen : record.seen ⟨fuel, .statement first, machine⟩)
    (traced : machine.store.Traced record) :
    Moment.Traced record ⟨fuel, .statement first, machine⟩ :=
  ⟨seen, starts.fitsFirst, traced,
    .of_noWords (Stmt.noWords starts.wellFormed.1 starts.inside.1), trivial⟩

/-- The statements of a program are traced one after another, with its moments on
record. -/
theorem tracing_governs (record : Chronicle) (fuel : Nat) :
    (tracing record).Governs fuel fun program machine => machine.Starts record.placed program ∧
      (∀ moment, Performs fuel program machine moment → record.seen moment) ∧
        machine.store.Traced record where
  laws := tracing_laws
  here begun := .refl begun.2.2
  first begun := begun.1.traced (begun.2.1 _ (.first (.here _))) begun.2.2
  others begun ran carried :=
    ⟨begun.1.others (fitting_laws.statement_ok begun.1.fitsFirst ran).1,
      fun moment performed => begun.2.1 moment (.others ran performed), carried.traced⟩

end Programs

/-! ## Sessions -/

namespace Session

/-- The moments of the run of a source, if it is run at all. -/
def Performed (session : Session) (fuel : Nat) (source : String) (moment : Moment) : Prop :=
  ∃ distances, session.Runnable source distances ∧
    Performs fuel (session.read source).1 (session.prepared distances) moment

/-- The moments of earlier runs and those of the run of a source. -/
def Recalled (session : Session) (past : Moment → Prop) (fuel : Nat) (source : String)
    (moment : Moment) : Prop :=
  past moment ∨ session.Performed fuel source moment

/-- How a session was reached from another, with the moments of all runs on the
way. -/
inductive History (first : Session) : Session → (Moment → Prop) → Prop where
  | start : History first first fun _ => False
  | run {session next : Session} {past : Moment → Prop} (earlier : History first session past)
      (fuel : Nat) (source : String) (ran : session.run fuel source = some next) :
      History first next (session.Recalled past fuel source)
  | reset {session : Session} {past : Moment → Prop} (earlier : History first session past) :
      History first session.reset past

variable {first session : Session} {past : Moment → Prop}

theorem History.reaches (history : first.History session past) : first.Reaches session := by
  induction history with
  | start => exact .start
  | run _ fuel source ran ih => exact .run ih fuel source ran
  | reset _ ih => exact .reset ih

theorem Performed.begins {fuel : Nat} {source : String} {moment next : Moment}
    (performed : session.Performed fuel source moment) (begins : Begins moment next) :
    session.Performed fuel source next := by
  obtain ⟨distances, runnable, performs⟩ := performed
  exact ⟨distances, runnable, performs.begins begins⟩

namespace History

/-- With a moment, the tasks that it begins are remembered too. -/
theorem begun (history : first.History session past) {moment next : Moment}
    (seen : past moment) (begins : Begins moment next) : past next := by
  induction history with
  | start => exact seen
  | run _ fuel source _ ih => exact Or.imp ih (fun performed => performed.begins begins) seen
  | reset _ ih => exact ih seen

/-- What is on record between two sources. -/
def record (history : first.History session past) : Chronicle :=
  ⟨session.machine.distances.placing session.nextId, past, history.begun⟩

/-- What is on record while a source is run. -/
def during (history : first.History session past) (source : String)
    (distances : List (Nat × Nat)) (fuel : Nat) : Chronicle :=
  ⟨(session.prepared distances).distances.placing (session.read source).2.nextId,
    session.Recalled past fuel source,
    fun seen begins => Or.imp (fun earlier => history.begun earlier begins)
      (fun performed => performed.begins begins) seen⟩

variable {source : String} {distances : List (Nat × Nat)}

/-- The record is continued by a run. -/
theorem le_during (history : first.History session past)
    (runnable : session.Runnable source distances) (fuel : Nat) :
    history.record.Le (history.during source distances fuel) :=
  ⟨runnable.le_placing, fun _ => .inl⟩

/-- **The store of a session is traced** back to the moments of its history. -/
theorem traced {output errors : Sink} {clock : Nat → Float}
    (history : (Session.start output errors clock).History session past) :
    session.machine.store.Traced history.record := by
  induction history with
  | start => exact .start fun _ => trivial
  | reset _ ih => exact ih
  | @run session next past earlier fuel source ran ih =>
      rcases run_cases ran with ⟨faults, same⟩ | ⟨distances, runnable, executed⟩
      · have machine : next.machine = session.machine := by
          rw [same, machine_reportAll, machine_read]
        have drawn : session.nextId ≤ next.nextId := by
          rw [same, nextId_reportAll]
          exact session.nextId_le_read source
        rw [machine]
        refine ih.mono ⟨?_, fun _ => .inl⟩
        rintro id distance ⟨old, recorded⟩
        refine ⟨Nat.lt_of_lt_of_le old drawn, ?_⟩
        rw [machine]
        exact recorded
      · have sound := sound_reaches earlier.reaches (sound_start output errors clock)
        have carried := ((tracing_governs (earlier.during source distances fuel) fuel).ended_program
          ⟨runnable.starts sound, fun _ performs => .inr ⟨distances, runnable, performs⟩,
            ih.mono (earlier.le_during runnable fuel)⟩).kept
        obtain ⟨machine, nextId⟩ := machine_execute executed
        rw [prepared_read] at machine
        have restored := Eval.restores_program fuel (session.read source).1
          (session.prepared distances)
        have final := carried.traced
        rw [← machine] at restored final
        refine final.mono ⟨?_, fun _ here => here⟩
        rintro id distance ⟨old, recorded⟩
        refine ⟨by rwa [nextId], ?_⟩
        rwa [restored.distances]

/-- Every moment of the run of a source is traced. -/
theorem traced_of_performs {output errors : Sink} {clock : Nat → Float}
    (history : (Session.start output errors clock).History session past)
    (runnable : session.Runnable source distances) {fuel : Nat} {moment : Moment}
    (performs : Performs fuel (session.read source).1 (session.prepared distances) moment) :
    moment.Traced (history.during source distances fuel) := by
  have sound := sound_reaches history.reaches (sound_start output errors clock)
  exact (tracing_governs _ fuel).performs performs ⟨runnable.starts sound,
    fun _ performed => .inr ⟨distances, runnable, performed⟩,
    history.traced.mono (history.le_during runnable fuel)⟩

end History

end Session

/-- **`this` is the receiver, and `super` is looked up statically.** Take any
session, with the moments of all its runs so far, and a source that it reads and
resolves without faults. Whenever `this` or `super` is evaluated in the run of
the source, there is an activation of the method of the innermost class around
it, as many frames further out as there are blocks and functions between the
method and the word. The value of `this` is the instance that the method was
bound to for that call. The search for a method behind `super` starts at the
very class that the superclass stood for when the class statement was executed,
goes on along its superclasses, and gives the method bound to that instance. -/
theorem words_belong_to_activation {output errors : Sink} {clock : Nat → Float}
    {session : Session} {past : Moment → Prop}
    (history : (Session.start output errors clock).History session past) {source : String}
    {distances : List (Nat × Nat)} (runnable : session.Runnable source distances) (fuel : Nat) :
    (∀ left occurrence machine,
      Performs fuel (session.read source).1 (session.prepared distances)
        ⟨left + 1, .expression (.thisRef occurrence), machine⟩ →
      ∃ activation : Activation,
        activation.Happened (session.Recalled past fuel source) ∧
        activation.Encloses machine ⟨.thisWord, occurrence⟩ ∧
        Eval.expression (left + 1) (.thisRef occurrence) machine =
          .ok (.object activation.object) machine) ∧
    ∀ left occurrence name machine,
      Performs fuel (session.read source).1 (session.prepared distances)
        ⟨left + 1, .expression (.superRef occurrence name), machine⟩ →
      ∃ (activation : Activation) (parent : Class) (result : Option Closure),
        activation.Happened (session.Recalled past fuel source) ∧
        activation.Encloses machine ⟨.superWord, occurrence⟩ ∧
        activation.declared.parent = some parent ∧
        Class.Finds (session.Recalled past fuel source) name.lexeme parent result ∧
        Eval.expression (left + 1) (.superRef occurrence name) machine =
          Eval.methodOf activation.object name result machine :=
  ⟨fun _ _ _ performs => (history.traced_of_performs runnable performs).this,
    fun _ _ _ _ performs => (history.traced_of_performs runnable performs).super⟩

/-! ## Initializers that a program ends with -/

/-- The machine in the body of an initializer without parameters. -/
def Machine.inInitializer (machine : Machine) (cls : Class) (method : Closure) : Machine :=
  let deeper := { machine with depth := machine.depth + 1 }
  (deeper.withInitializer cls method).2.inBody (deeper.withInitializer cls method).1 []

/-- The body of the initializer that the last statement of a program runs, and
the machine it is run on. -/
def lastInitializer? (fuel : Nat) (program : List Stmt) (machine : Machine) :
    Option (List Stmt × Machine) :=
  match program.getLast?, Eval.topLevel (fuel + 6) program.dropLast machine with
  | some (.expression (.call callee _ [])), .ok () before =>
    match Eval.expression (fuel + 4) callee before with
    | .ok (.cls cls) ready =>
      match cls.findMethod? initializerName with
      | some method =>
        if cls.arity = 0 ∧ ready.depth < Machine.depthLimit then
          some (method.declaration.body, ready.inInitializer cls method)
        else none
      | none => none
    | _ => none
  | _, _ => none

/-- The moments of a program behind its first statements. -/
theorem Performs.behind {fuel : Nat} {back : List Stmt} {moment : Moment} {middle : Machine} :
    ∀ {front : List Stmt} {machine : Machine},
      Eval.topLevel fuel front machine = .ok () middle → Performs fuel back middle moment →
        Performs fuel (front ++ back) machine moment
  | [], _, ran, performed => by
      cases ran
      exact performed
  | found :: rest, machine, ran, performed => by
      simp only [Eval.topLevel, Bind.bind, EStateM.bind] at ran
      split at ran
      next flow after here => exact .others here (Performs.behind ran performed)
      next => cases ran

theorem performs_of_lastInitializer? {fuel : Nat} {program body : List Stmt}
    {machine inside : Machine} (last : lastInitializer? fuel program machine = some (body, inside))
    {moment : Moment} (visits : Visits ⟨fuel + 1, .statements body, inside⟩ moment) :
    Performs (fuel + 6) program machine moment := by
  unfold lastInitializer? at last
  split at last
  next callee paren before final ran =>
    split at last
    next cls ready evaluated =>
      split at last
      next method found =>
        split at last
        next fitting =>
          cases last
          have passed : Eval.expressions (fuel + 4) [] ready = .ok [] ready := rfl
          have moments : Visits ⟨fuel + 6, .statement (.expression (.call callee paren [])), before⟩
              moment :=
            .begun .expression (.begun (.call evaluated passed) (.begun
              (.apply rfl fitting.1.symm fitting.2) (.begun (.initializer found)
                (.begun .body visits))))
          obtain ⟨front, rfl⟩ := List.getLast?_eq_some_iff.mp final
          rw [List.dropLast_concat] at ran
          exact .behind ran (.first moments)
        next => cases last
      next => cases last
    next => cases last
  next => cases last

/-- The words in a body that sets a field to a method of the superclass. -/
def Stmt.inheritedField? : List Stmt → Option (Occurrence × Token × Occurrence × Token)
  | [.expression (.set (.thisRef this) field (.superRef super name))] =>
    some (this, field, super, name)
  | _ => none

/-- The text of the value that a step ended with. -/
def Eval.text : EStateM.Result Interrupt Machine Value → String
  | .ok value _ => value.text
  | .error _ _ => ""

/-- A class with an initializer that uses both words, and a subclass. When it is
called, the name of the superclass stands for something else. -/
def reassignedSource : String :=
  "class A{m(){}}class B<A{init(){this.f=super.m;}}" ++
    "class C<B{}A=nil;C();"

/-- A session in which nothing was run. -/
def freshSession : Session := Session.start Sink.unlimited Sink.unlimited fun _ => 0

/-- The receiver is of the subclass, and the method behind `super` is found
though the name of its class is `nil` by then. -/
theorem super_outlives_the_name_of_its_class :
    ∃ (distances : List (Nat × Nat)) (this super : Occurrence) (name : Token) (machine : Machine)
      (receiver caller : Activation) (parent : Class) (method : Closure),
      freshSession.Runnable reassignedSource distances ∧
      Performs 20 (freshSession.read reassignedSource).1 (freshSession.prepared distances)
        ⟨12, .expression (.thisRef this), machine⟩ ∧
      Eval.expression 12 (.thisRef this) machine = .ok (.object receiver.object) machine ∧
      (Value.object receiver.object).text = "C instance" ∧
      Performs 20 (freshSession.read reassignedSource).1 (freshSession.prepared distances)
        ⟨12, .expression (.superRef super name), machine⟩ ∧
      (machine.store.findIn? Env.global "A").map Value.text = some "nil" ∧
      caller.Encloses machine ⟨.superWord, super⟩ ∧ caller.declared.parent = some parent ∧
      Eval.expression 12 (.superRef super name) machine =
        Eval.methodOf caller.object name (some method) machine := by
  have runs : ((resolve (freshSession.read reassignedSource).1).toOption.bind fun distances =>
      (lastInitializer? 14 (freshSession.read reassignedSource).1
        (freshSession.prepared distances)).bind fun last =>
          (Stmt.inheritedField? last.1).map fun words =>
            ((freshSession.read reassignedSource).2.hasStaticFault,
              Eval.text (Eval.expression 12 (.thisRef words.1) last.2),
              (last.2.store.findIn? Env.global "A").map Value.text,
              Eval.text (Eval.expression 12 (.superRef words.2.2.1 words.2.2.2) last.2))) =
      some (false, "C instance", some "nil", "<fn m>") := by
    decide +kernel
  obtain ⟨distances, accepted, runs⟩ := Option.bind_eq_some_iff.mp runs
  have resolved := Resolution.eq_ok_of_toOption accepted
  obtain ⟨⟨body, machine⟩, last, found⟩ := Option.bind_eq_some_iff.mp runs
  obtain ⟨⟨this, field, super, name⟩, words, same⟩ := Option.map_eq_some_iff.mp found
  simp only [Prod.mk.injEq] at same
  obtain ⟨quiet, receives, renamed, inherits⟩ := same
  have spelled : body = [.expression (.set (.thisRef this) field (.superRef super name))] := by
    unfold Stmt.inheritedField? at words
    split at words
    next spelled =>
      cases words
      exact spelled
    next => cases words
  subst spelled
  have belong := words_belong_to_activation .start ⟨quiet, resolved⟩ 20
  have here := performs_of_lastInitializer? last (.begun .firstStatement (.begun .expression
    (.begun .setObject (.here _))))
  obtain ⟨receiver, _, _, isThis⟩ := belong.1 11 this machine here
  have there := performs_of_lastInitializer? last (.begun .firstStatement (.begun .expression
    (.begun (.setValue isThis) (.here _))))
  obtain ⟨caller, parent, result, _, encloses, above, _, isSuper⟩ :=
    belong.2 11 super name machine there
  rw [isThis] at receives
  cases result with
  | none =>
      rw [isSuper] at inherits
      have nothing : "" = "<fn m>" := inherits
      exact absurd nothing (by decide)
  | some method =>
      exact ⟨distances, this, super, name, machine, receiver, caller, parent, method,
        ⟨quiet, resolved⟩, here, isThis, receives, there, renamed, encloses, above, isSuper⟩

end LoxLang
