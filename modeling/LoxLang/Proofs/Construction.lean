import LoxLang.Proofs.Run.Instances
import LoxLang.Proofs.StaticDispatch

/-!
# What constructing and initializing give

A class is called to make an instance, and its initializer is a method that can
be called again later. The main theorem (`construction_yields_the_instance`)
says what such calls give in the run of a source. The call of a class gives an
instance of exactly this class that did not exist before. An initializer gives
the instance that it is bound to, wherever it was taken from and however its body
is left. It rests on two facts about all moments of a run: every instance at hand
exists (`Moment.Closed`), and every function that is an initializer is bound to
an instance (`Moment.Traced.exists_bound`).
-/

namespace LoxLang

set_option autoImplicit false

/-! ## Steps that have succeeded -/

namespace Eval

variable {fuel : Nat} {machine after : Machine}

/-- A call that gives a result has called something. -/
theorem call_eq_ok {paren : Token} {called result : Value} {values : List Value}
    (ran : call (fuel + 1) paren called values machine = .ok result after) :
    ∃ callable inside, called.callable? = some callable ∧ values.length = callable.arity ∧
      machine.depth < Machine.depthLimit ∧
      apply fuel callable values { machine with depth := machine.depth + 1 } =
        .ok result inside := by
  cases found : called.callable? with
  | none =>
      simp only [call, found] at ran
      cases ran
  | some callable =>
      by_cases arity : values.length = callable.arity
      · simp only [call, found, if_pos arity] at ran
        obtain ⟨_, middle, checked, entered⟩ := bind_eq_ok ran
        unfold checkDepth at checked
        split at checked
        · cases checked
        · next room =>
          cases checked
          unfold nested at entered
          split at entered
          next inside applied =>
            cases entered
            exact ⟨callable, inside, rfl, arity, Nat.not_le.mp room, applied⟩
          next => cases entered
      · simp only [call, found, if_neg arity] at ran
        cases ran

/-- Applying a class gives the instance that is made first. -/
theorem apply_cls_eq_ok {cls : Class} {values : List Value} {result : Value}
    (ran : apply (fuel + 1) (.cls cls) values machine = .ok result after) :
    result = .object (machine.store.newInstance cls).1 := by
  obtain ⟨object, made, here, further⟩ := bind_eq_ok ran
  cases here
  cases found : cls.findMethod? initializerName with
  | none =>
      simp only [found] at further
      cases further
      rfl
  | some method =>
      simp only [found] at further
      obtain ⟨_, _, _, applied⟩ := bind_eq_ok further
      obtain ⟨_, _, _, given⟩ := bind_eq_ok applied
      cases given
      rfl

/-- The call of a function applies it, one call deeper. -/
theorem call_function_eq_ok {paren : Token} {closure : Closure} {values : List Value}
    {result : Value} (ran : call fuel paren (.function closure) values machine = .ok result after) :
    ∃ less inside, fuel = less + 3 ∧ values.length = closure.arity ∧
      machine.depth < Machine.depthLimit ∧
      applyClosure (less + 1) closure values { machine with depth := machine.depth + 1 } =
        .ok result inside := by
  cases fuel with
  | zero => cases ran
  | succ fuel =>
      obtain ⟨_, inside, found, arity, room, applied⟩ := call_eq_ok ran
      cases found
      cases fuel with
      | zero => cases applied
      | succ fuel => cases fuel with
        | zero => cases applied
        | succ less => exact ⟨less, inside, rfl, arity, room, applied⟩

/-- An initializer gives what `this` is bound to around it. The body has no say
in it. -/
theorem applyClosure_initializer_eq_ok {closure : Closure} {values : List Value} {result : Value}
    (initializes : closure.isInitializer = true)
    (ran : applyClosure (fuel + 1) closure values machine = .ok result after) :
    result = (after.store.findIn? closure.env "this").getD .nil := by
  obtain ⟨inner, opened, _, entered⟩ := bind_eq_ok ran
  obtain ⟨flow, left, _, given⟩ := bind_eq_ok entered
  unfold callResult at given
  rw [if_pos initializes] at given
  cases given
  rfl

end Eval

/-! ## Calling a class -/

/-- The call of a class gives a new instance of it. -/
theorem Eval.call_cls_eq_ok {left : Nat} {paren : Token} {cls : Class} {values : List Value}
    {machine after : Machine} {result : Value}
    (ran : Eval.call left paren (.cls cls) values machine = .ok result after) :
    ∃ object : Instance, result = .object object ∧ object.cls = cls ∧
      ¬ object.Exists machine.store := by
  cases left with
  | zero => cases ran
  | succ left =>
      obtain ⟨_, _, found, _, _, applied⟩ := call_eq_ok ran
      cases found
      cases left with
      | zero => cases applied
      | succ left =>
          have made := apply_cls_eq_ok applied
          exact ⟨_, made, rfl, Nat.lt_irrefl _⟩

/-! ## Calling an initializer -/

/-- A bound method is an initializer if it is named so. -/
theorem BoundMethod.Happened.isInitializer {seen : Moment → Prop} {bound : BoundMethod}
    (happened : bound.Happened seen) :
    bound.closure.isInitializer = bound.method.declaration.isInitializer := by
  obtain ⟨name, own⟩ := happened.own
  obtain ⟨declaration, _, _, same⟩ := Eval.exists_of_find?_methodTable own
  show bound.method.isInitializer = _
  rw [same]

namespace Moment.Traced

variable {record : Chronicle} {left : Nat} {machine after : Machine} {closure : Closure}
  {values : List Value} {result : Value}

/-- A function that is an initializer is a method bound to an instance. -/
theorem exists_bound
    (traced : Moment.Traced record ⟨left, .applyClosure closure values, machine⟩)
    (initializes : closure.isInitializer = true) :
    ∃ bound : BoundMethod, bound.Stands record machine.store ∧ bound.closure = closure := by
  rcases traced.values.1 with ⟨plain, _⟩ | found
  · rw [initializes] at plain
    cases plain
  · exact found

/-- **An initializer gives the instance that it is bound to.** The frame that
holds the instance is the same behind the body as before it. -/
theorem initializer_eq_ok {bound : BoundMethod}
    (traced : Moment.Traced record ⟨left + 1, .applyClosure bound.closure values, machine⟩)
    (kept : bound.after.Extends machine.store)
    (initializes : bound.closure.isInitializer = true)
    (ran : Eval.applyClosure (left + 1) bound.closure values machine = .ok result after) :
    result = .object bound.object := by
  have carried := (Discipline.Ended.of_ok traced.ends ran).1
  rw [Eval.applyClosure_initializer_eq_ok initializes ran,
    BoundMethod.this (kept.trans carried.store)]
  rfl

/-- The same for a call of the initializer as a value. -/
theorem call_initializer_eq_ok {bound : BoundMethod} {paren : Token}
    (traced : Moment.Traced record ⟨left, .call paren (.function bound.closure) values, machine⟩)
    (kept : bound.after.Extends machine.store)
    (initializes : bound.closure.isInitializer = true)
    (ran : Eval.call left paren (.function bound.closure) values machine = .ok result after) :
    result = .object bound.object := by
  obtain ⟨less, inside, rfl, arity, room, applied⟩ := Eval.call_function_eq_ok ran
  have entered := traced.visits (.begun (.apply rfl arity room) (.begun .applyClosure (.here _)))
  exact entered.initializer_eq_ok kept initializes applied

end Moment.Traced

/-- The callee of a call is the initializer of an instance: a property that no
field of the instance hides, or a method behind `super`. -/
inductive Expr.TakesInitializer (fuel : Nat) (machine : Machine) (object : Instance) :
    Expr → Prop where
  | property {holder : Expr} {name : Token} {ready : Machine}
      (named : name.lexeme = initializerName)
      (evaluated : Eval.expression fuel holder machine = .ok (.object object) ready)
      (noField : ready.store.field? object name.lexeme = none) :
      TakesInitializer fuel machine object (.get holder name)
  | super {occurrence : Occurrence} {name : Token} {parent : Class}
      (named : name.lexeme = initializerName)
      (stands : machine.superBinding? occurrence = some (parent, object)) :
      TakesInitializer fuel machine object (.superRef occurrence name)

/-- A method that was found under the name of initializers, bound to an
instance. -/
theorem Class.Made.exists_initializer {record : Chronicle} {store : Store} {cls : Class}
    (made : cls.Made record store) {method : Closure}
    (found : cls.findMethod? initializerName = some method) {object : Instance}
    (binding : Binding record.seen method object store) :
    ∃ bound : BoundMethod, bound.Happened record.seen ∧
      bound.closure = (store.bindMethod method object).1 ∧
      bound.after = (store.bindMethod method object).2 ∧ bound.object = object ∧
      bound.closure.isInitializer = true := by
  obtain ⟨declared, stands, own⟩ := made.findMethod? found
  have happened : BoundMethod.Happened record.seen ⟨declared, method, object, store⟩ :=
    ⟨stands.happened, ⟨_, own⟩, binding⟩
  refine ⟨_, happened, rfl, rfl, rfl, ?_⟩
  obtain ⟨declaration, _, named, same⟩ := Eval.exists_of_find?_methodTable own
  rw [happened.isInitializer]
  show method.declaration.isInitializer = true
  rw [same, FunctionDecl.isInitializer, named]
  exact beq_self_eq_true _

namespace Moment.Traced

variable {record : Chronicle} {left : Nat} {machine after : Machine} {callee : Expr}
  {object : Instance}

/-- Such a callee evaluates to the bound initializer. -/
theorem callee_eq_ok {value : Value}
    (traced : Moment.Traced record ⟨left + 1, .expression callee, machine⟩)
    (takes : callee.TakesInitializer left machine object)
    (ran : Eval.expression (left + 1) callee machine = .ok value after) :
    ∃ bound : BoundMethod, bound.Happened record.seen ∧ value = .function bound.closure ∧
      bound.after = after.store ∧ bound.object = object ∧ bound.closure.isInitializer = true := by
  cases takes with
  | @property holder name ready named evaluated noField =>
      obtain ⟨holderValue, middle, here, found⟩ := Eval.bind_eq_ok ran
      rw [evaluated] at here
      cases here
      have tracedHolder := traced.visits (.begun .getObject (.here _))
      obtain ⟨carried, made⟩ := Discipline.Ended.of_ok tracedHolder.ends evaluated
      simp only [Eval.property, noField] at found
      split at found
      next method inherited =>
        have binding : Binding record.seen method object ready.store :=
          .property traced.seen evaluated noField inherited
        rw [named] at inherited
        obtain ⟨bound, happened, same, behind, rest⟩ :=
          Class.Made.exists_initializer made inherited binding
        cases found
        exact ⟨bound, happened, congrArg Value.function same.symm, behind, rest⟩
      next => cases found
  | @super occurrence name parent named stands =>
      simp only [Eval.expression, Eval.superMethod, stands] at ran
      split at ran
      next method inherited =>
        have binding : Binding record.seen method object machine.store :=
          .super traced.seen stands inherited
        obtain ⟨⟨upper, above⟩, _⟩ := Machine.exists_findIn?_of_superBinding? stands
        have made : parent.Made record machine.store := traced.store.bound _ _ _ above
        rw [named] at inherited
        obtain ⟨bound, happened, same, behind, rest⟩ :=
          made.exists_initializer inherited binding
        cases ran
        exact ⟨bound, happened, congrArg Value.function same.symm, behind, rest⟩
      next => cases ran

/-- A call of the initializer of an instance, written out, gives the instance. -/
theorem calls_initializer_eq_ok {paren : Token} {arguments : List Expr} {result : Value}
    (traced : Moment.Traced record
      ⟨left + 2, .expression (.call callee paren arguments), machine⟩)
    (takes : callee.TakesInitializer left machine object)
    (ran : Eval.expression (left + 2) (.call callee paren arguments) machine = .ok result after) :
    result = .object object := by
  obtain ⟨value, ready, evaluated, further⟩ := Eval.bind_eq_ok ran
  obtain ⟨values, last, passed, called⟩ := Eval.bind_eq_ok further
  obtain ⟨bound, happened, rfl, behind, rfl, initializes⟩ :=
    (traced.visits (.begun .callee (.here _))).callee_eq_ok takes evaluated
  have tracedArguments := traced.visits (.begun (.arguments evaluated) (.here _))
  have carried := (Discipline.Ended.of_ok tracedArguments.ends passed).1
  have tracedCall := traced.visits (.begun (.call evaluated passed) (.here _))
  exact tracedCall.call_initializer_eq_ok (behind ▸ carried.store) initializes called

end Moment.Traced

/-! ## Sessions -/

namespace Session.History

variable {session : Session} {past : Moment → Prop} {output errors : Sink} {clock : Nat → Float}

/-- Every instance that a session has kept exists. -/
theorem closed (history : (Session.start output errors clock).History session past) :
    session.machine.store.Closed := by
  induction history with
  | start => exact .initial output clock
  | reset _ ih => exact ih
  | @run session next past earlier fuel source ran ih =>
      rcases run_cases ran with ⟨faults, same⟩ | ⟨distances, runnable, executed⟩
      · rw [same, machine_reportAll, machine_read]
        exact ih
      · have ready : (session.prepared distances).store.Closed := ih
        have kept : (session.prepared distances).Keeps (Eval.reached (Eval.program fuel
            (session.read source).1 (session.prepared distances))) :=
          ((closing_governs fuel).ended_program ready).kept
        obtain ⟨machine, _⟩ := machine_execute executed
        rw [prepared_read] at machine
        rw [machine]
        exact kept.closed

/-- Every instance at a moment of a run exists. -/
theorem closed_of_performed (history : (Session.start output errors clock).History session past)
    {fuel : Nat} {source : String} {moment : Moment}
    (performed : session.Performed fuel source moment) : moment.Closed := by
  obtain ⟨distances, _, performs⟩ := performed
  have closed : (session.prepared distances).store.Closed := history.closed
  exact .of_performs performs closed

/-- Every moment of a run is traced, with all moments so far on record. -/
theorem traced_of_performed (history : (Session.start output errors clock).History session past)
    {fuel : Nat} {source : String} {moment : Moment}
    (performed : session.Performed fuel source moment) :
    ∃ record : Chronicle, record.seen = session.Recalled past fuel source ∧
      moment.Traced record := by
  obtain ⟨distances, runnable, performs⟩ := performed
  exact ⟨_, rfl, history.traced_of_performs runnable performs⟩

end Session.History

/-- A function is an initializer exactly if its call is the activation of a
method of that name. -/
theorem Moment.Traced.isInitializer_iff {record : Chronicle} {left : Nat} {machine : Machine}
    {closure : Closure} {values : List Value}
    (traced : Moment.Traced record ⟨left + 1, .applyClosure closure values, machine⟩) :
    closure.isInitializer = true ↔ ∃ activation : Activation, activation.Happened record.seen ∧
      activation.moment = ⟨left + 1, .applyClosure closure values, machine⟩ ∧
      activation.method.declaration.name.lexeme = initializerName := by
  constructor
  · intro initializes
    obtain ⟨bound, stands, rfl⟩ := traced.exists_bound initializes
    refine ⟨⟨bound, left, values, machine⟩, ⟨stands.happened, traced.seen, stands.kept⟩, rfl, ?_⟩
    rw [stands.happened.isInitializer] at initializes
    exact eq_of_beq initializes
  · rintro ⟨activation, happened, same, named⟩
    cases same
    rw [happened.bound.isInitializer]
    exact beq_iff_eq.mpr named

/-- **Construction and initializers give the instance.** Take any session, with
the moments of all its runs so far, and the run of a further source. All
instances at hand at a moment of the run exist, and so does what an expression
has given, from then on. The call of a class gives an instance of exactly this
class that did not exist before. A call of `init` on an instance or behind
`super` gives the instance, and so does a call of a method of this name that was
bound before and kept. In general, whenever a function is entered, the arguments
are as many as its parameters; the function is an initializer exactly if this is
the activation of a method named `init`; and then the instance that the method
was bound to is what it gives, whatever its body does. -/
theorem construction_yields_the_instance {output errors : Sink} {clock : Nat → Float}
    {session : Session} {past : Moment → Prop}
    (history : (Session.start output errors clock).History session past) (fuel : Nat)
    (source : String) :
    (∀ moment, session.Performed fuel source moment → moment.Closed) ∧
    (∀ left found machine value after,
      session.Performed fuel source ⟨left, .expression found, machine⟩ →
      Eval.expression left found machine = .ok value after →
        value.Exists after.store ∧
          ∀ object : Instance, object.Exists machine.store → object.Exists after.store) ∧
    (∀ left paren cls values machine result after,
      session.Performed fuel source ⟨left, .call paren (.cls cls) values, machine⟩ →
      Eval.call left paren (.cls cls) values machine = .ok result after →
        ∃ object : Instance, result = .object object ∧ object.cls = cls ∧
          ¬ object.Exists machine.store ∧ object.Exists after.store) ∧
    (∀ left callee paren arguments machine object result after,
      session.Performed fuel source
        ⟨left + 2, .expression (.call callee paren arguments), machine⟩ →
      callee.TakesInitializer left machine object →
      Eval.expression (left + 2) (.call callee paren arguments) machine = .ok result after →
        result = .object object) ∧
    (∀ left paren (bound : BoundMethod) values machine result after,
      session.Performed fuel source ⟨left, .call paren (.function bound.closure) values, machine⟩ →
      bound.Happened (session.Recalled past fuel source) →
      bound.after.Extends machine.store →
      bound.method.declaration.name.lexeme = initializerName →
      Eval.call left paren (.function bound.closure) values machine = .ok result after →
        result = .object bound.object) ∧
    ∀ left closure values machine,
      session.Performed fuel source ⟨left + 1, .applyClosure closure values, machine⟩ →
        values.length = closure.declaration.params.length ∧
        (closure.isInitializer = true ↔ ∃ activation : Activation,
          activation.Happened (session.Recalled past fuel source) ∧
          activation.moment = ⟨left + 1, .applyClosure closure values, machine⟩ ∧
          activation.method.declaration.name.lexeme = initializerName) ∧
        ∀ activation : Activation, activation.Happened (session.Recalled past fuel source) →
          activation.moment = ⟨left + 1, .applyClosure closure values, machine⟩ →
          activation.method.declaration.name.lexeme = initializerName →
          ∀ result after, Eval.applyClosure (left + 1) closure values machine = .ok result after →
            result = .object activation.object := by
  refine ⟨fun _ => history.closed_of_performed, ?_, ?_, ?_, ?_, ?_⟩
  · intro left found machine value after performed ran
    have closed := (history.closed_of_performed performed).store
    obtain ⟨keeps, exists_⟩ := ((Eval.accountsAt left).expression found closed).of_ok ran
    exact ⟨exists_, fun object here => Nat.lt_of_lt_of_le here keeps.size⟩
  · intro left paren cls values machine result after performed ran
    have closed := history.closed_of_performed performed
    obtain ⟨object, rfl, same, fresh⟩ := Eval.call_cls_eq_ok ran
    have passed : Value.AllExist machine.store values := (List.forall_mem_cons.mp closed.handed).2
    have accounts := (Eval.accountsAt left).call paren (.cls cls) closed.store passed
    exact ⟨object, rfl, same, fresh, (accounts.of_ok ran).2⟩
  · intro left callee paren arguments machine object result after performed takes ran
    obtain ⟨record, _, traced⟩ := history.traced_of_performed performed
    exact traced.calls_initializer_eq_ok takes ran
  · intro left paren bound values machine result after performed happened kept named ran
    obtain ⟨record, _, traced⟩ := history.traced_of_performed performed
    have initializes : bound.closure.isInitializer = true := by
      rw [happened.isInitializer]
      exact beq_iff_eq.mpr named
    exact traced.call_initializer_eq_ok kept initializes ran
  · intro left closure values machine performed
    obtain ⟨record, seen, traced⟩ := history.traced_of_performed performed
    have initializes := traced.isInitializer_iff
    rw [seen] at initializes
    refine ⟨traced.fits.task.2.2, initializes, ?_⟩
    intro activation happened same named result after ran
    have isInitializer := initializes.mpr ⟨activation, happened, same, named⟩
    cases same
    exact traced.initializer_eq_ok happened.kept isInitializer ran

/-! ## A class without parameters that a program calls last -/

/-- The class that the last statement of a program calls, the parenthesis of the
call, and the machine at that point. -/
def lastClassCall? (fuel : Nat) (program : List Stmt) (machine : Machine) :
    Option (Token × Class × Machine) :=
  match program.getLast?, Eval.topLevel (fuel + 3) program.dropLast machine with
  | some (.expression (.call callee paren [])), .ok () before =>
    match Eval.expression (fuel + 1) callee before with
    | .ok (.cls cls) ready => some (paren, cls, ready)
    | _ => none
  | _, _ => none

theorem performs_of_lastClassCall? {fuel : Nat} {program : List Stmt} {machine ready : Machine}
    {paren : Token} {cls : Class}
    (last : lastClassCall? fuel program machine = some (paren, cls, ready)) :
    Performs (fuel + 3) program machine ⟨fuel + 1, .call paren (.cls cls) [], ready⟩ := by
  unfold lastClassCall? at last
  split at last
  next callee paren before final ran =>
    split at last
    next cls ready evaluated =>
      cases last
      have passed : Eval.expressions (fuel + 1) [] ready = .ok [] ready := rfl
      obtain ⟨front, rfl⟩ := List.getLast?_eq_some_iff.mp final
      rw [List.dropLast_concat] at ran
      exact .behind ran (.first (.begun .expression (.begun (.call evaluated passed) (.here _))))
    next => cases last
  next => cases last

/-- A step whose value has been shown has succeeded. -/
theorem Eval.exists_ok_of_text {outcome : EStateM.Result Interrupt Machine Value} {text : String}
    (shown : Eval.text outcome = text) (written : text ≠ "") :
    ∃ value after, outcome = .ok value after := by
  cases outcome with
  | ok value after => exact ⟨value, after, rfl⟩
  | error interrupt after => exact absurd shown.symm written

/-- The words in a body that begins with a call of a method of the superclass. -/
def Stmt.inheritedCall? : List Stmt → Option (Occurrence × Token × Token)
  | .expression (.call (.superRef super name) paren []) :: _ => some (super, name, paren)
  | _ => none

/-- A class whose initializer first runs the one of its superclass and then
leaves early. -/
def initializingSource : String :=
  "class A{init(){}}class B<A{init(){super.init();return;}}B();"

/-- The call of the class gives a new instance of the subclass, and in its
initializer the call behind `super` gives an instance of the same class. -/
theorem subclass_is_initialized_through_super :
    ∃ (paren close name : Token) (cls : Class) (super : Occurrence)
      (object receiver : Instance) (before after inside behind : Machine),
      freshSession.Performed 20 initializingSource ⟨18, .call paren (.cls cls) [], before⟩ ∧
      Eval.call 18 paren (.cls cls) [] before = .ok (.object object) after ∧
      object.cls = cls ∧ ¬ object.Exists before.store ∧
      (Value.object object).text = "B instance" ∧
      freshSession.Performed 20 initializingSource
        ⟨13, .expression (.call (.superRef super name) close []), inside⟩ ∧
      name.lexeme = initializerName ∧
      Eval.expression 13 (.call (.superRef super name) close []) inside =
        .ok (.object receiver) behind ∧
      (Value.object receiver).text = "B instance" := by
  have runs : ((resolve (freshSession.read initializingSource).1).toOption.bind fun distances =>
      (lastClassCall? 17 (freshSession.read initializingSource).1
        (freshSession.prepared distances)).bind fun last =>
          (lastInitializer? 14 (freshSession.read initializingSource).1
            (freshSession.prepared distances)).bind fun entered =>
              (Stmt.inheritedCall? entered.1).map fun words =>
                ((freshSession.read initializingSource).2.hasStaticFault,
                  Eval.text (Eval.call 18 last.1 (.cls last.2.1) [] last.2.2),
                  words.2.1.lexeme, (entered.2.superBinding? words.1).isSome,
                  Eval.text (Eval.expression 13
                    (.call (.superRef words.1 words.2.1) words.2.2 []) entered.2))) =
      some (false, "B instance", initializerName, true, "B instance") := by
    decide +kernel
  have gives := construction_yields_the_instance
    (.start : (Session.start Sink.unlimited Sink.unlimited fun _ => 0).History _ _) 20
    initializingSource
  obtain ⟨distances, accepted, runs⟩ := Option.bind_eq_some_iff.mp runs
  have resolved := Resolution.eq_ok_of_toOption accepted
  obtain ⟨⟨paren, cls, before⟩, last, found⟩ := Option.bind_eq_some_iff.mp runs
  obtain ⟨⟨body, inside⟩, entered, spelled⟩ := Option.bind_eq_some_iff.mp found
  obtain ⟨⟨super, name, close⟩, words, same⟩ := Option.map_eq_some_iff.mp spelled
  simp only [Prod.mk.injEq] at same
  obtain ⟨quiet, constructs, named, bound, initializes⟩ := same
  have runnable : freshSession.Runnable initializingSource distances := ⟨quiet, resolved⟩
  have calls : freshSession.Performed 20 initializingSource
      ⟨18, .call paren (.cls cls) [], before⟩ :=
    ⟨distances, runnable, performs_of_lastClassCall? last⟩
  obtain ⟨rest, rfl⟩ : ∃ rest,
      body = .expression (.call (.superRef super name) close []) :: rest := by
    unfold Stmt.inheritedCall? at words
    split at words
    next spelled =>
      cases words
      exact ⟨_, spelled⟩
    next => cases words
  have enters : freshSession.Performed 20 initializingSource
      ⟨13, .expression (.call (.superRef super name) close []), inside⟩ :=
    ⟨distances, runnable, performs_of_lastInitializer? entered
      (.begun .firstStatement (.begun .expression (.here _)))⟩
  obtain ⟨⟨parent, receiver⟩, stands⟩ := Option.isSome_iff_exists.mp bound
  obtain ⟨result, after, made⟩ := Eval.exists_ok_of_text constructs (by decide)
  obtain ⟨value, behind, ran⟩ := Eval.exists_ok_of_text initializes (by decide)
  obtain ⟨object, rfl, same, fresh, _⟩ :=
    gives.2.2.1 18 paren cls [] before result after calls made
  obtain rfl := gives.2.2.2.1 11 _ close [] inside receiver value behind enters
    (.super named stands) ran
  rw [made] at constructs
  rw [ran] at initializes
  exact ⟨paren, close, name, cls, super, object, receiver, before, after, inside,
    behind, calls, made, same, fresh, constructs, enters, named, ran, initializes⟩

end LoxLang
