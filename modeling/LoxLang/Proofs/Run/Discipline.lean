import LoxLang.Proofs.Run.Moments

/-!
# Disciplines of evaluation

Many facts about runs have one form. Something holds of every moment of a run. A
task changes the machine in a certain way only, whichever way it ends. The values
that it comes across are good ones in their store, and its faults have an
explanation. Together these are a `Discipline`.

What a discipline has to see to are single steps (`Discipline.Laws`): how the store
may change, what a rule does between the tasks that it begins, and that what it
begins is held to the same. The rules of evaluation themselves are gone through
once, for all disciplines, by induction on fuel (`Discipline.Laws.endsWell`). What
holds of a moment then holds of all moments it leads to (`Discipline.Laws.visits`).
-/

namespace LoxLang

set_option autoImplicit false

/-! ## Plain values -/

/-- A value from which no function can be had. -/
def Value.IsPlain : Value → Prop
  | .function _ => False
  | .cls _ => False
  | .object _ => False
  | _ => True

theorem Value.isPlain_ofLiteral (value : Literal) : (Value.ofLiteral value).IsPlain := by
  cases value <;> trivial

namespace Operator

/-- The results of the operators are plain, whatever they are applied to. -/
theorem isPlain_unary {operator : Token} {operand value : Value}
    (result : unary operator operand = .ok value) : value.IsPlain := by
  unfold unary at result
  split at result
  · split at result <;> cases result
    trivial
  · cases result
    trivial
  · cases result

theorem isPlain_binary {operator : Token} {left right value : Value}
    (result : binary operator left right = .ok value) : value.IsPlain := by
  unfold binary at result
  split at result
  · unfold sum at result
    split at result <;> cases result <;> trivial
  · cases result
    trivial
  · cases result
    trivial
  · split at result
    · unfold arithmetic at result
      split at result <;> cases result <;> trivial
    · cases result

end Operator

/-! ## What is read from a store -/

theorem Store.exists_findIn?_of_implicitAt? {store : Store} {env : Env} {distance : Nat}
    {name : String} {value : Value} (found : store.implicitAt? env distance name = some value) :
    ∃ frame, store.findIn? frame name = some value := by
  unfold Store.implicitAt? at found
  split at found
  · exact ⟨_, found⟩
  · cases found

namespace Machine

variable {machine : Machine} {occurrence : Occurrence}

/-- What an occurrence stands for is bound in some frame. -/
theorem exists_findIn?_of_value {value : Value} (found : machine.value occurrence = .ok value) :
    ∃ frame, machine.store.findIn? frame occurrence.name = some value := by
  unfold Machine.value at found
  split at found
  · unfold Store.getAt at found
    split at found
    · cases found
    · split at found
      next here =>
        cases found
        exact ⟨_, here⟩
      next => cases found
  · unfold Store.get at found
    split at found
    next here =>
      cases found
      obtain ⟨frame, _, here⟩ := List.exists_of_findSome?_eq_some here
      exact ⟨frame, here⟩
    next => cases found

/-- The superclass and the instance that an occurrence of `super` stands for
are bound in some frames. -/
theorem exists_findIn?_of_superBinding? {parent : Class} {object : Instance}
    (found : machine.superBinding? occurrence = some (parent, object)) :
    (∃ frame, machine.store.findIn? frame "super" = some (.cls parent)) ∧
      ∃ frame, machine.store.findIn? frame "this" = some (.object object) := by
  unfold Machine.superBinding? at found
  split at found
  · split at found
    next above below =>
      cases found
      exact ⟨Store.exists_findIn?_of_implicitAt? above, Store.exists_findIn?_of_implicitAt? below⟩
    next => cases found
  · cases found

end Machine

/-! ## Tasks -/

/-- The value that something to call is. -/
def Callable.value : Callable → Value
  | .native found => .native found
  | .function closure => .function closure
  | .cls found => .cls found

theorem Value.eq_of_callable? {value : Value} {callable : Callable}
    (found : value.callable? = some callable) : value = callable.value := by
  cases value <;> cases found <;> rfl

/-- The values that a task was handed are good, with the function or class that it
is to apply. -/
def Task.Handed (good : Value → Prop) : Task → Prop
  | .call _ called values => good called ∧ ∀ value ∈ values, good value
  | .apply callable values => good callable.value ∧ ∀ value ∈ values, good value
  | .applyClosure closure values => good (.function closure) ∧ ∀ value ∈ values, good value
  | _ => True

theorem Task.Handed.apply {good : Value → Prop} {paren : Token} {called : Value}
    {values : List Value} {callable : Callable}
    (handed : Task.Handed good (.call paren called values))
    (found : called.callable? = some callable) : Task.Handed good (.apply callable values) := by
  rw [Value.eq_of_callable? found] at handed
  exact handed

/-- The name that a task binds to a value it has found. -/
def Task.bound? : Task → Option Token
  | .expression (.assign occurrence _) => some occurrence.token
  | .statement (.var name _) => some name
  | _ => none

/-- Whether a task runs statements in an environment of its own. -/
def Task.opensScope : Task → Bool
  | .statement (.block _) => true
  | .applyClosure _ _ => true
  | _ => false

/-- A fault that is not about where a name or an operator stands. -/
def RuntimeCause.isOrdinary : RuntimeCause → Bool
  | .undefinedVariable _ => false
  | .missingScope _ _ => false
  | .superNotHere => false
  | .invalidUnaryOperator => false
  | .invalidBinaryOperator => false
  | _ => true

/-- The faults that the rule of a task raises itself, in the machine it has come
to. -/
inductive Moment.Raises : Moment → Machine → RuntimeError → Prop where
  | unary {fuel : Nat} {machine now : Machine} {operator : Token} {operand : Expr} {value : Value}
      {cause : RuntimeCause} (failed : Operator.unary operator value = .error cause) :
      Raises ⟨fuel + 1, .expression (.unary operator operand), machine⟩ now ⟨cause, operator.line⟩
  | binary {fuel : Nat} {machine now : Machine} {left right : Expr} {operator : Token}
      {first second : Value} {cause : RuntimeCause}
      (failed : Operator.binary operator first second = .error cause) :
      Raises ⟨fuel + 1, .expression (.binary left operator right), machine⟩ now
        ⟨cause, operator.line⟩
  | lookUp {fuel : Nat} {machine : Machine} {found : Expr} {occurrence : Occurrence}
      {cause : RuntimeCause} (node : found = .var occurrence ∨ found = .thisRef occurrence)
      (failed : machine.value occurrence = .error cause) :
      Raises ⟨fuel + 1, .expression found, machine⟩ machine ⟨cause, occurrence.line⟩
  | assign {fuel : Nat} {machine now : Machine} {occurrence : Occurrence} {value : Expr}
      {assigned : Value} {cause : RuntimeCause}
      (ran : Eval.expression fuel value machine = .ok assigned now)
      (failed : now.target occurrence = .error cause) :
      Raises ⟨fuel + 1, .expression (.assign occurrence value), machine⟩ now
        ⟨cause, occurrence.line⟩
  | super {fuel : Nat} {machine : Machine} {occurrence : Occurrence} {method : Token}
      (failed : machine.superBinding? occurrence = none) :
      Raises ⟨fuel + 1, .expression (.superRef occurrence method), machine⟩ machine
        ⟨.superNotHere, occurrence.line⟩
  | other {moment : Moment} {now : Machine} {cause : RuntimeCause} {line : Nat}
      (ordinary : cause.isOrdinary = true) : Raises moment now ⟨cause, line⟩

/-! ## Disciplines -/

/-- What holds of the moments of a run, how a task may change the machine, which
values are good in a store, and which faults a moment may end with. -/
structure Discipline where
  holds : Moment → Prop
  keeps : Machine → Machine → Prop
  good : Store → Value → Prop
  explains : Moment → RuntimeError → Prop

namespace Discipline

section Outcomes

variable (kind : Discipline)

/-- Every value of a list is good. -/
def goodAll (store : Store) (values : List Value) : Prop := ∀ value ∈ values, kind.good store value

/-- The value of a `return` is good. -/
def goodFlow (store : Store) : Flow → Prop
  | .normal => True
  | .returned value => kind.good store value

/-- What a task was handed is good. -/
def handed (store : Store) (task : Task) : Prop := task.Handed (kind.good store)

/-- How a step has ended, seen from a machine before it: the machine was changed as
it may be, the result is good, and a fault has an explanation. -/
def Ended (start : Machine) (explains : RuntimeError → Prop) {Result : Type}
    (good : Store → Result → Prop) : EStateM.Result Interrupt Machine Result → Prop
  | .ok result after => kind.keeps start after ∧ good after.store result
  | .error interrupt after =>
    kind.keeps start after ∧ ∀ error, interrupt = .fault error → explains error

open Eval in
/-- How the task of a moment ends, seen from a machine before it. -/
def Ends (start : Machine) (explains : RuntimeError → Prop) : Moment → Prop
  | ⟨fuel, .expression found, machine⟩ =>
    kind.Ended start explains kind.good (expression fuel found machine)
  | ⟨fuel, .expressions found, machine⟩ =>
    kind.Ended start explains kind.goodAll (expressions fuel found machine)
  | ⟨fuel, .call paren called values, machine⟩ =>
    kind.Ended start explains kind.good (call fuel paren called values machine)
  | ⟨fuel, .apply callable values, machine⟩ =>
    kind.Ended start explains kind.good (apply fuel callable values machine)
  | ⟨fuel, .applyClosure closure values, machine⟩ =>
    kind.Ended start explains kind.good (applyClosure fuel closure values machine)
  | ⟨fuel, .statement found, machine⟩ =>
    kind.Ended start explains kind.goodFlow (statement fuel found machine)
  | ⟨fuel, .statements found, machine⟩ =>
    kind.Ended start explains kind.goodFlow (statements fuel found machine)
  | ⟨fuel, .rounds condition body, machine⟩ =>
    kind.Ended start explains kind.goodFlow (rounds fuel condition body machine)

/-- The task of a moment ends as it may. -/
def EndsWell (moment : Moment) : Prop := kind.Ends moment.machine (kind.explains moment) moment

/-- Every task with less fuel ends as it may. -/
def Below (fuel : Nat) : Prop :=
  ∀ moment : Moment, moment.fuel < fuel → kind.holds moment → kind.EndsWell moment

/-- A step that gives nothing back. -/
abbrev done (_ : Store) (_ : Unit) : Prop := True

/-- What a discipline has to see to. -/
structure Laws : Prop where
  handed : ∀ {moment : Moment}, kind.holds moment →
    kind.handed moment.machine.store moment.task
  -- how machines and values go on
  here : ∀ {moment : Moment}, kind.holds moment → kind.keeps moment.machine moment.machine
  settled : ∀ {start after : Machine}, kind.keeps start after → kind.keeps after after
  trans : ∀ {first second third : Machine}, kind.keeps first second → kind.keeps second third →
    kind.keeps first third
  later : ∀ {start after : Machine} {value : Value}, kind.keeps start after →
    kind.good start.store value → kind.good after.store value
  plain : ∀ {store : Store} {value : Value}, value.IsPlain → kind.good store value
  owner : ∀ {store : Store} {object : Instance}, kind.good store (.object object) →
    kind.good store (.cls object.cls)
  -- the single steps
  within : ∀ {machine after : Machine} {env : Env}, kind.keeps { machine with env := env } after →
    kind.keeps machine { after with env := machine.env }
  nested : ∀ {machine after : Machine},
    kind.keeps { machine with depth := machine.depth + 1 } after →
      kind.keeps machine { after with depth := after.depth - 1 }
  outside : ∀ {machine : Machine}, kind.keeps machine machine → ∀ (output : Sink) (readings : Nat),
    kind.keeps machine { machine with output := output, readings := readings }
  bound : ∀ {machine : Machine} {frame : Env} {name : String} {value : Value},
    kind.keeps machine machine → machine.store.findIn? frame name = some value →
      kind.good machine.store value
  fields : ∀ {machine : Machine} {object : Instance} {name : String} {value : Value},
    kind.keeps machine machine → machine.store.field? object name = some value →
      kind.good machine.store value
  setField : ∀ {machine : Machine} (object : Instance) (name : String) {value : Value},
    kind.keeps machine machine → kind.good machine.store value →
      kind.keeps machine { machine with store := machine.store.setField object name value }
  childWith : ∀ {machine : Machine} (env : Env) (names : List String) {values : List Value},
    kind.keeps machine machine → kind.goodAll machine.store values →
      kind.keeps machine { machine with
        store := (machine.store.child env).2.defineAll (machine.store.child env).1 names values }
  newInstance : ∀ {machine : Machine} {cls : Class}, kind.keeps machine machine →
    kind.good machine.store (.cls cls) →
      kind.keeps machine { machine with store := (machine.store.newInstance cls).2 } ∧
        kind.good (machine.store.newInstance cls).2 (.object (machine.store.newInstance cls).1)
  bindMethod : ∀ {moment : Moment} {machine : Machine} {cls : Class} {name : String}
    {method : Closure} {object : Instance}, kind.holds moment →
      kind.keeps moment.machine machine → kind.good machine.store (.cls cls) →
      cls.findMethod? name = some method → kind.good machine.store (.object object) →
      Binding (moment = ·) method object machine.store →
        kind.Ended machine (kind.explains moment)
          (fun store closure => kind.good store (.function closure))
          (Eval.bindMethod method object machine)
  bindIn : ∀ {moment : Moment} {machine : Machine} (frame : Env) {name : Token} {value : Value},
    kind.holds moment → moment.task.bound? = some name → kind.keeps moment.machine machine →
      kind.good machine.store value →
        kind.keeps machine { machine with store := machine.store.bindIn frame name.lexeme value }
  function : ∀ {fuel : Nat} {machine : Machine} {declaration : FunctionDecl},
    kind.holds ⟨fuel + 1, .statement (.function declaration), machine⟩ →
      kind.keeps machine { machine with
        store := machine.store.define machine.env declaration.name.lexeme
          (.function ⟨declaration, machine.env, false⟩) }
  declareClass : ∀ {moment : Moment} {declared : Declaration}, kind.holds moment →
    declared.Happened (moment = ·) → kind.keeps moment.machine declared.ready →
      (∀ parent, declared.parent = some parent →
        kind.good declared.ready.store (.cls parent)) →
      kind.Ended declared.ready (kind.explains moment) done
        (Eval.declareClass declared.name declared.parent declared.methods declared.ready)
  -- the tasks that are begun
  part : ∀ {moment next : Moment}, kind.holds moment → Begins moment next →
    moment.task.opensScope = false → kind.keeps moment.machine next.machine →
      kind.handed next.machine.store next.task → kind.holds next
  apply : ∀ {fuel : Nat} {machine : Machine} {paren : Token} {called : Value}
    {values : List Value} {callable : Callable},
    kind.holds ⟨fuel + 1, .call paren called values, machine⟩ →
      called.callable? = some callable → values.length = callable.arity →
        machine.depth < Machine.depthLimit →
          kind.holds ⟨fuel, .apply callable values, { machine with depth := machine.depth + 1 }⟩
  body : ∀ {fuel : Nat} {machine : Machine} {closure : Closure} {values : List Value},
    kind.holds ⟨fuel + 1, .applyClosure closure values, machine⟩ →
      kind.holds ⟨fuel, .statements closure.declaration.body, machine.inBody closure values⟩
  block : ∀ {fuel : Nat} {machine : Machine} {body : List Stmt},
    kind.holds ⟨fuel + 1, .statement (.block body), machine⟩ →
      kind.holds ⟨fuel, .statements body, machine.inBlock⟩
  -- the faults
  begun : ∀ {moment next : Moment} {error : RuntimeError}, Begins moment next →
    kind.explains next error → kind.explains moment error
  raises : ∀ {moment : Moment} {machine : Machine} {error : RuntimeError}, kind.holds moment →
    kind.keeps moment.machine machine → moment.Raises machine error → kind.explains moment error

end Outcomes

variable {kind : Discipline} {Result Other : Type}

/-! ## Steps one after another -/

namespace Ended

variable {start now : Machine} {explains wider : RuntimeError → Prop}
  {good better : Store → Result → Prop} {final : Store → Other → Prop}
  {outcome : EStateM.Result Interrupt Machine Result}

theorem of_ok (ended : kind.Ended start explains good outcome) {result : Result} {after : Machine}
    (ran : outcome = .ok result after) : kind.keeps start after ∧ good after.store result := by
  subst ran
  exact ended

theorem kept (ended : kind.Ended start explains good outcome) :
    kind.keeps start (Eval.reached outcome) := by
  cases outcome with
  | ok result after => exact ended.1
  | error interrupt after => exact ended.1

theorem mono (ended : kind.Ended start explains good outcome)
    (weaker : ∀ error, explains error → wider error)
    (improves : ∀ store value, good store value → better store value) :
    kind.Ended start wider better outcome := by
  cases outcome with
  | ok value after => exact ⟨ended.1, improves _ value ended.2⟩
  | error interrupt after => exact ⟨ended.1, fun error same => weaker error (ended.2 error same)⟩

theorem onMachine (ended : kind.Ended now explains good outcome) {change : Machine → Machine}
    (keeps : ∀ {after}, kind.keeps now after → kind.keeps start (change after))
    (store : ∀ after, (change after).store = after.store) :
    kind.Ended start explains good (Eval.onMachine change outcome) := by
  cases outcome with
  | ok result after => exact ⟨keeps ended.1, by rw [store]; exact ended.2⟩
  | error interrupt after => exact ⟨keeps ended.1, ended.2⟩

theorem bind {step : Eval Result} {next : Result → Eval Other}
    (first : kind.Ended start explains good (step now))
    (second : ∀ result after, step now = .ok result after → kind.keeps start after →
      good after.store result → kind.Ended start explains final (next result after)) :
    kind.Ended start explains final ((step >>= next) now) := by
  simp only [Bind.bind, EStateM.bind]
  cases ran : step now with
  | error interrupt after =>
      rw [ran] at first
      exact first
  | ok result after =>
      rw [ran] at first
      exact second result after ran first.1 first.2

theorem map {step : Eval Result} (change : Result → Other)
    (first : kind.Ended start explains (fun store result => final store (change result))
      (step now)) : kind.Ended start explains final ((change <$> step) now) := by
  simp only [Functor.map, EStateM.map]
  cases ran : step now with
  | error interrupt after => rwa [ran] at first
  | ok result after => rwa [ran] at first

/-- What has ended well behind a step that did so has ended well altogether. -/
theorem since (trans : ∀ {first second third : Machine}, kind.keeps first second →
      kind.keeps second third → kind.keeps first third)
    (ended : kind.Ended now explains good outcome) (kept : kind.keeps start now) :
    kind.Ended start explains good outcome := by
  cases outcome with
  | ok value after | error interrupt after => exact ⟨trans kept ended.1, ended.2⟩

/-- The second step, seen from the machine that the first one has left. -/
theorem andThen (trans : ∀ {first second third : Machine}, kind.keeps first second →
      kind.keeps second third → kind.keeps first third)
    {step : Eval Result} {next : Result → Eval Other}
    (first : kind.Ended now explains good (step now))
    (second : ∀ result after, step now = .ok result after → kind.keeps now after →
      good after.store result → kind.Ended after explains final (next result after)) :
    kind.Ended now explains final ((step >>= next) now) :=
  first.bind fun result after ran kept holds =>
    (second result after ran kept holds).since trans kept

end Ended

namespace Laws

variable (laws : kind.Laws) {start now : Machine} {explains wider : RuntimeError → Prop}
  {good : Store → Result → Prop}

include laws

theorem since {outcome : EStateM.Result Interrupt Machine Result}
    (ended : kind.Ended now explains good outcome) (kept : kind.keeps start now) :
    kind.Ended start explains good outcome :=
  Ended.since laws.trans ended kept

theorem ended_within {step : Eval Result} {env : Env} (kept : kind.keeps start now)
    (inner : kind.Ended { now with env := env } explains good (step { now with env := env })) :
    kind.Ended start explains good (Eval.within env step now) := by
  rw [Eval.within_eq]
  exact laws.since (inner.onMachine laws.within fun _ => rfl) kept

theorem ended_nested {step : Eval Result}
    (inner : kind.Ended { now with depth := now.depth + 1 } explains good
      (step { now with depth := now.depth + 1 })) :
    kind.Ended now explains good (Eval.nested step now) := by
  rw [Eval.nested_eq]
  exact inner.onMachine laws.nested fun _ => rfl

theorem goodAll_later {values : List Value} (kept : kind.keeps start now)
    (all : kind.goodAll start.store values) : kind.goodAll now.store values :=
  fun value member => laws.later kept (all value member)

/-! ## The steps of the machine -/

section Steps

variable {moment : Moment} (holds : kind.holds moment) (kept : kind.keeps moment.machine now)

include holds kept

theorem ended_raiseAt {line : Nat} {cause : RuntimeCause}
    (raises : moment.Raises now ⟨cause, line⟩) :
    kind.Ended moment.machine (kind.explains moment) good (Eval.raiseAt line cause now) :=
  ⟨kept, fun _ same => by cases same; exact laws.raises holds kept raises⟩

/-- A fault that has nothing to do with names. -/
theorem ended_raise (token : Token) {cause : RuntimeCause} (ordinary : cause.isOrdinary = true) :
    kind.Ended moment.machine (kind.explains moment) good (Eval.raise token cause now) :=
  laws.ended_raiseAt holds kept (.other ordinary)

theorem ended_lift (token : Token) {result : Except RuntimeCause Value}
    (plain : ∀ value, result = .ok value → value.IsPlain)
    (raises : ∀ cause, result = .error cause → moment.Raises now ⟨cause, token.line⟩) :
    kind.Ended moment.machine (kind.explains moment) kind.good (Eval.lift token result now) := by
  cases result with
  | ok value => exact ⟨kept, laws.plain (plain value rfl)⟩
  | error cause => exact laws.ended_raiseAt holds kept (raises cause rfl)

theorem ended_bindMethod {cls : Class} {name : String} {method : Closure} {object : Instance}
    (good : kind.good now.store (.cls cls)) (found : cls.findMethod? name = some method)
    (receiver : kind.good now.store (.object object))
    (binding : Binding (moment = ·) method object now.store) :
    kind.Ended moment.machine (kind.explains moment)
      (fun store closure => kind.good store (.function closure))
      (Eval.bindMethod method object now) :=
  laws.since (laws.bindMethod holds kept good found receiver binding) kept

theorem ended_define {name : Token} (names : moment.task.bound? = some name) {value : Value}
    (good : kind.good now.store value) :
    kind.Ended moment.machine (kind.explains moment) done (Eval.define name.lexeme value now) :=
  ⟨laws.trans kept (laws.bindIn _ holds names kept good), trivial⟩

omit holds in
theorem ended_printLine (text : String) :
    kind.Ended moment.machine (kind.explains moment) done (Eval.printLine text now) := by
  have written (output : Sink) : kind.keeps moment.machine { now with output := output } :=
    laws.trans kept (laws.outside (laws.settled kept) output now.readings)
  simp only [Eval.printLine]
  split
  · exact ⟨written _, trivial⟩
  · exact ⟨written _, nofun⟩

omit holds in
theorem ended_callResult (closure : Closure) {flow : Flow}
    (good : kind.goodFlow now.store flow) :
    kind.Ended moment.machine (kind.explains moment) kind.good
      (Eval.callResult closure flow now) := by
  unfold Eval.callResult
  split
  · refine ⟨kept, ?_⟩
    cases found : now.store.implicitAt? closure.env 0 "this" with
    | none => exact laws.plain trivial
    | some value =>
        obtain ⟨frame, here⟩ := Store.exists_findIn?_of_implicitAt? found
        exact laws.bound (laws.settled kept) here
  · cases flow with
    | normal => exact ⟨kept, laws.plain trivial⟩
    | returned value => exact ⟨kept, good⟩

end Steps

theorem ended_lookUp {fuel : Nat} {found : Expr} {occurrence : Occurrence}
    (holds : kind.holds ⟨fuel + 1, .expression found, now⟩)
    (node : found = .var occurrence ∨ found = .thisRef occurrence) :
    kind.Ended now (kind.explains ⟨fuel + 1, .expression found, now⟩) kind.good
      (Eval.lookUp occurrence now) := by
  have kept : kind.keeps now now := laws.here holds
  unfold Eval.lookUp
  split
  next value here =>
    obtain ⟨frame, bound⟩ := Machine.exists_findIn?_of_value here
    exact ⟨kept, laws.bound kept bound⟩
  next cause failed => exact laws.ended_raiseAt holds kept (.lookUp node failed)

theorem ended_property {fuel : Nat} {machine : Machine} {holder : Expr} {name : Token}
    {object : Instance} (holds : kind.holds ⟨fuel + 1, .expression (.get holder name), machine⟩)
    (ran : Eval.expression fuel holder machine = .ok (.object object) now)
    (kept : kind.keeps machine now) (good : kind.good now.store (.object object)) :
    kind.Ended machine (kind.explains ⟨fuel + 1, .expression (.get holder name), machine⟩) kind.good
      (Eval.property object name now) := by
  unfold Eval.property
  split
  next value found => exact ⟨kept, laws.fields (laws.settled kept) found⟩
  next noField =>
    split
    next method found =>
      exact .map _ (laws.ended_bindMethod holds kept (laws.owner good) found good
        (.property rfl ran noField found))
    next => exact laws.ended_raise holds kept name rfl

theorem ended_superMethod {fuel : Nat} {occurrence : Occurrence} {method : Token}
    (holds : kind.holds ⟨fuel + 1, .expression (.superRef occurrence method), now⟩) :
    kind.Ended now (kind.explains ⟨fuel + 1, .expression (.superRef occurrence method), now⟩)
      kind.good (Eval.superMethod occurrence method now) := by
  have kept : kind.keeps now now := laws.here holds
  unfold Eval.superMethod
  split
  next missing => exact laws.ended_raiseAt holds kept (.super missing)
  next parent object stands =>
    obtain ⟨⟨upper, above⟩, lower, below⟩ := Machine.exists_findIn?_of_superBinding? stands
    split
    next inherited found =>
      exact .map _ (laws.ended_bindMethod holds kept (laws.bound kept above) found
        (laws.bound kept below) (.super rfl stands found))
    next => exact laws.ended_raise holds kept method rfl

/-! ## The rules of evaluation -/

section Rules

variable {fuel : Nat} {machine : Machine}

/-- A task that is begun ends well. -/
theorem ends_of_begins {moment next : Moment} (less : kind.Below moment.fuel)
    (begins : Begins moment next) (holds : kind.holds next)
    (kept : kind.keeps start next.machine) : kind.Ends start (kind.explains moment) next := by
  have ended := less next (by rw [begins.fuel_eq]; exact Nat.lt_succ_self _) holds
  obtain ⟨_, task, machine⟩ := next
  have onward {Result : Type} {good : Store → Result → Prop}
      {outcome : EStateM.Result Interrupt Machine Result}
      (ended : kind.Ended machine (kind.explains ⟨_, task, machine⟩) good outcome) :
      kind.Ended start (kind.explains moment) good outcome :=
    laws.since (ended.mono (fun _ => laws.begun begins) fun _ _ good => good) kept
  cases task <;> exact onward ended

/-- A part of a task, begun in the same environment. -/
theorem ends_part {moment next : Moment} (less : kind.Below moment.fuel)
    (holds : kind.holds moment) (begins : Begins moment next)
    (stays : moment.task.opensScope = false) (kept : kind.keeps moment.machine next.machine)
    (handed : kind.handed next.machine.store next.task) :
    kind.Ends moment.machine (kind.explains moment) next :=
  laws.ends_of_begins less begins (laws.part holds begins stays kept handed) kept

/-- The part that is begun first. -/
theorem ends_first {fuel less : Nat} {task next : Task} {machine : Machine}
    (below : kind.Below fuel) (holds : kind.holds ⟨fuel, task, machine⟩)
    (begins : Begins ⟨fuel, task, machine⟩ ⟨less, next, machine⟩)
    (stays : task.opensScope = false) (handed : kind.handed machine.store next) :
    kind.Ends machine (kind.explains ⟨fuel, task, machine⟩) ⟨less, next, machine⟩ :=
  laws.ends_part below holds begins stays (laws.here holds) handed

theorem endsWell_expression (below : kind.Below (fuel + 1)) {found : Expr}
    (holds : kind.holds ⟨fuel + 1, .expression found, machine⟩) :
    kind.EndsWell ⟨fuel + 1, .expression found, machine⟩ := by
  have here : kind.keeps machine machine := laws.here holds
  cases found with
  | literal value => exact ⟨here, laws.plain (Value.isPlain_ofLiteral value)⟩
  | grouping inner =>
      have ended := laws.ends_first below holds .grouping rfl trivial
      exact ended
  | unary operator operand =>
      refine .bind (laws.ends_first below holds .unary rfl trivial) fun value _ _ kept _ => ?_
      exact laws.ended_lift holds kept operator (fun _ => Operator.isPlain_unary)
        fun _ failed => .unary failed
  | binary left operator right =>
      refine .bind (laws.ends_first below holds .binaryLeft rfl trivial) fun _ _ ran kept _ => ?_
      refine .bind (laws.ends_part below holds (.binaryRight ran) rfl kept trivial)
        fun second _ _ kept _ => ?_
      exact laws.ended_lift holds kept operator (fun _ => Operator.isPlain_binary)
        fun _ failed => .binary failed
  | logical left operator right =>
      refine .bind (laws.ends_first below holds .logicalLeft rfl trivial)
        fun first _ ran kept good => ?_
      cases settled : Operator.settles operator first with
      | true =>
          simp only [if_true]
          exact ⟨kept, good⟩
      | false =>
          simp only [Bool.false_eq_true, if_false]
          exact laws.ends_part below holds (.logicalRight ran settled) rfl kept trivial
  | var occurrence => exact laws.ended_lookUp holds (.inl rfl)
  | assign occurrence value =>
      refine .bind (laws.ends_first below holds .assigned rfl trivial)
        fun assigned middle ran kept good => ?_
      have assigns : kind.Ended machine (kind.explains ⟨fuel + 1,
          .expression (.assign occurrence value), machine⟩)
          (fun store (_ : Unit) => kind.good store assigned)
          (Eval.assign occurrence assigned middle) := by
        unfold Eval.assign
        split
        next frame _ =>
          have further := laws.bindIn frame holds rfl kept good
          exact ⟨laws.trans kept further, laws.later further good⟩
        next cause failed => exact laws.ended_raiseAt holds kept (.assign ran failed)
      exact .bind assigns fun _ _ _ kept good => ⟨kept, good⟩
  | call callee paren arguments =>
      refine .bind (laws.ends_first below holds .callee rfl trivial)
        fun called middle ran kept good => ?_
      have arguments := laws.part holds (.arguments ran) rfl kept trivial
      -- the value that is called has to stay good while the arguments are evaluated
      refine laws.since (.bind (laws.ends_of_begins below (.arguments ran) arguments
        (laws.settled kept)) fun values last passed onward all => ?_) kept
      refine laws.ends_of_begins below (.call ran passed) (laws.part holds (.call ran passed) rfl
        (laws.trans kept onward) ⟨laws.later onward good, all⟩) onward
  | get object name =>
      refine .bind (laws.ends_first below holds .getObject rfl trivial)
        fun value _ ran kept good => ?_
      cases value with
      | object found => exact laws.ended_property holds ran kept good
      | _ => exact laws.ended_raise holds kept name rfl
  | set object name value =>
      refine .bind (laws.ends_first below holds .setObject rfl trivial)
        fun holder _ ran kept _ => ?_
      cases holder with
      | object found =>
          refine .bind (laws.ends_part below holds (.setValue ran) rfl kept trivial)
            fun assigned last _ kept good => ?_
          have further := laws.setField found name.lexeme (laws.settled kept) good
          exact ⟨laws.trans kept further, laws.later further good⟩
      | _ => exact laws.ended_raise holds kept name rfl
  | thisRef occurrence => exact laws.ended_lookUp holds (.inr rfl)
  | superRef occurrence method => exact laws.ended_superMethod holds

theorem endsWell_expressions (below : kind.Below (fuel + 1)) {found : List Expr}
    (holds : kind.holds ⟨fuel + 1, .expressions found, machine⟩) :
    kind.EndsWell ⟨fuel + 1, .expressions found, machine⟩ := by
  cases found with
  | nil => exact ⟨laws.here holds, nofun⟩
  | cons first rest =>
      refine .bind (laws.ends_first below holds .firstExpression rfl trivial)
        fun value _ ran kept good => ?_
      have others := laws.part holds (.otherExpressions ran) rfl kept trivial
      exact laws.since (.bind (laws.ends_of_begins below (.otherExpressions ran) others
        (laws.settled kept)) fun values _ _ onward all =>
          ⟨onward, List.forall_mem_cons.mpr ⟨laws.later onward good, all⟩⟩) kept

theorem endsWell_call (below : kind.Below (fuel + 1)) {paren : Token} {called : Value}
    {values : List Value} (holds : kind.holds ⟨fuel + 1, .call paren called values, machine⟩) :
    kind.EndsWell ⟨fuel + 1, .call paren called values, machine⟩ := by
  have here : kind.keeps machine machine := laws.here holds
  unfold EndsWell Ends
  cases found : called.callable? with
  | none =>
      simp only [Eval.call, found]
      exact laws.ended_raise holds here paren rfl
  | some callable =>
      by_cases arity : values.length = callable.arity
      · simp only [Eval.call, found, if_pos arity]
        by_cases room : machine.depth < Machine.depthLimit
        · have passed : Eval.checkDepth paren machine = .ok () machine := by
            rw [Eval.checkDepth, if_neg (Nat.not_le.mpr room)]
          simp only [Bind.bind, EStateM.bind, passed]
          have applied := laws.apply holds found arity room
          exact laws.ended_nested (laws.ends_of_begins below (.apply found arity room) applied
            (laws.here applied))
        · have stopped : Eval.checkDepth paren machine =
              Eval.raise paren .stackOverflow machine := by
            rw [Eval.checkDepth, if_pos (Nat.not_lt.mp room)]
          simp only [Bind.bind, EStateM.bind, stopped]
          exact laws.ended_raise holds here paren rfl
      · simp only [Eval.call, found, if_neg arity]
        exact laws.ended_raise holds here paren rfl

theorem endsWell_apply (below : kind.Below (fuel + 1)) {callable : Callable}
    {values : List Value} (holds : kind.holds ⟨fuel + 1, .apply callable values, machine⟩) :
    kind.EndsWell ⟨fuel + 1, .apply callable values, machine⟩ := by
  have here : kind.keeps machine machine := laws.here holds
  obtain ⟨good, passed⟩ := laws.handed holds
  cases callable with
  | native value =>
      cases value with
      | clock => exact ⟨laws.outside here _ _, laws.plain trivial⟩
  | function closure =>
      have ended := laws.ends_first below holds .applyClosure rfl ⟨good, passed⟩
      exact ended
  | cls cls =>
      obtain ⟨made, fresh⟩ := laws.newInstance here good
      have creates : kind.Ended machine (kind.explains ⟨fuel + 1, .apply (.cls cls) values,
          machine⟩) (fun store object => kind.good store (.object object))
          (Eval.newInstance cls machine) := ⟨made, fresh⟩
      refine .bind creates fun object _ ran _ _ => ?_
      cases ran
      cases found : cls.findMethod? initializerName with
      | none => exact ⟨made, fresh⟩
      | some method =>
          refine laws.since (.bind (laws.bindMethod holds made (laws.later made good) found fresh
            (.initializer rfl found rfl)) fun _ _ ran bound closure => ?_) made
          cases ran
          have kept := laws.trans made bound
          have initial := laws.part holds (.initializer found) rfl kept
            ⟨closure, laws.goodAll_later kept passed⟩
          exact .bind (laws.ends_of_begins below (.initializer found) initial bound)
            fun _ _ _ onward _ => ⟨onward, laws.later onward fresh⟩

theorem endsWell_applyClosure (below : kind.Below (fuel + 1)) {closure : Closure}
    {values : List Value} (holds : kind.holds ⟨fuel + 1, .applyClosure closure values, machine⟩) :
    kind.EndsWell ⟨fuel + 1, .applyClosure closure values, machine⟩ := by
  have kept := laws.childWith closure.env (closure.declaration.params.map Token.lexeme)
    (laws.here holds) (laws.handed holds).2
  have inner := laws.body holds
  have opens : kind.Ended machine (kind.explains ⟨fuel + 1, .applyClosure closure values, machine⟩)
      (fun _ _ => True) (Eval.childWith closure.env
        (closure.declaration.params.map Token.lexeme) values machine) := ⟨kept, trivial⟩
  refine .bind opens fun _ _ ran _ _ => ?_
  cases ran
  refine .bind (laws.ended_within kept (laws.ends_of_begins below .body inner (laws.here inner)))
    fun flow _ _ kept good => ?_
  exact laws.ended_callResult kept closure good

theorem endsWell_statement (below : kind.Below (fuel + 1)) {found : Stmt}
    (holds : kind.holds ⟨fuel + 1, .statement found, machine⟩) :
    kind.EndsWell ⟨fuel + 1, .statement found, machine⟩ := by
  have here : kind.keeps machine machine := laws.here holds
  cases found with
  | expression value =>
      exact .bind (laws.ends_first below holds .expression rfl trivial) fun _ _ _ kept _ =>
        ⟨kept, trivial⟩
  | print value =>
      refine .bind (laws.ends_first below holds .printed rfl trivial) fun printed _ _ kept _ => ?_
      exact .bind (laws.ended_printLine kept printed.text) fun _ _ _ kept _ => ⟨kept, trivial⟩
  | var name initializer =>
      cases initializer with
      | none =>
          have unset : kind.good machine.store .nil := laws.plain trivial
          exact ⟨laws.bindIn _ holds rfl here unset, trivial⟩
      | some value =>
          refine .bind (laws.ends_first below holds .initial rfl trivial)
            fun assigned _ _ kept good => ?_
          exact .bind (laws.ended_define holds kept rfl good) fun _ _ _ kept _ => ⟨kept, trivial⟩
  | block body =>
      have none : kind.goodAll machine.store [] := nofun
      have kept := laws.childWith machine.env [] here none
      have inner := laws.block holds
      have opens : kind.Ended machine (kind.explains ⟨fuel + 1, .statement (.block body), machine⟩)
          (fun _ _ => True) (Eval.child machine.env machine) := ⟨kept, trivial⟩
      change kind.Ended machine _ _ ((Eval.child machine.env >>= fun inner =>
        Eval.within inner (Eval.statements fuel body)) machine)
      refine .bind opens fun _ _ ran _ _ => ?_
      cases ran
      exact laws.ended_within kept (laws.ends_of_begins below .block inner (laws.here inner))
  | cond condition thenBranch elseBranch =>
      refine .bind (laws.ends_first below holds .condition rfl trivial)
        fun value _ ran kept _ => ?_
      cases truth : value.isTruthy with
      | true =>
          simp only [if_true]
          exact laws.ends_part below holds (.thenBranch ran truth) rfl kept trivial
      | false =>
          simp only [Bool.false_eq_true, if_false]
          cases elseBranch with
          | none => exact ⟨kept, trivial⟩
          | some branch => exact laws.ends_part below holds (.elseBranch ran truth) rfl kept trivial
  | loop condition body =>
      have ended := laws.ends_first below holds .loop rfl trivial
      exact ended
  | function declaration => exact ⟨laws.function holds, trivial⟩
  | ret keyword value =>
      cases value with
      | none => exact ⟨here, laws.plain trivial⟩
      | some returned =>
          exact .bind (laws.ends_first below holds .returned rfl trivial) fun _ _ _ kept good =>
            ⟨kept, good⟩
  | classDecl name superclass methods =>
      cases superclass with
      | none =>
          have happened : Declaration.Happened (_ = ·)
              ⟨fuel, name, none, methods, machine, none, machine⟩ := ⟨rfl, rfl, rfl⟩
          exact .bind (laws.declareClass holds happened here nofun) fun _ _ _ kept _ =>
            ⟨kept, trivial⟩
      | some superclass =>
          refine .bind (laws.ends_first below holds .superclass rfl trivial)
            fun value middle ran kept good => ?_
          cases value with
          | cls parent =>
              have happened : Declaration.Happened (_ = ·)
                  ⟨fuel, name, some superclass, methods, machine, some parent, middle⟩ :=
                ⟨rfl, parent, rfl, ran⟩
              refine .bind (laws.since (laws.declareClass holds happened kept ?_) kept)
                fun _ _ _ kept _ => ⟨kept, trivial⟩
              intro other same
              cases same
              exact good
          | _ => exact laws.ended_raise holds kept _ rfl

theorem endsWell_statements (below : kind.Below (fuel + 1)) {found : List Stmt}
    (holds : kind.holds ⟨fuel + 1, .statements found, machine⟩) :
    kind.EndsWell ⟨fuel + 1, .statements found, machine⟩ := by
  cases found with
  | nil => exact ⟨laws.here holds, trivial⟩
  | cons first rest =>
      refine .bind (laws.ends_first below holds .firstStatement rfl trivial)
        fun flow _ ran kept good => ?_
      cases flow with
      | returned value => exact ⟨kept, good⟩
      | normal => exact laws.ends_part below holds (.otherStatements ran) rfl kept trivial

theorem endsWell_rounds (below : kind.Below (fuel + 1)) {condition : Expr} {body : Stmt}
    (holds : kind.holds ⟨fuel + 1, .rounds condition body, machine⟩) :
    kind.EndsWell ⟨fuel + 1, .rounds condition body, machine⟩ := by
  refine .bind (laws.ends_first below holds .roundCondition rfl trivial)
    fun value _ ran kept _ => ?_
  cases truth : value.isTruthy with
  | false =>
      simp only [Bool.false_eq_true, if_false]
      exact ⟨kept, trivial⟩
  | true =>
      simp only [if_true]
      refine .bind (laws.ends_part below holds (.roundBody ran truth) rfl kept trivial)
        fun flow _ done kept good => ?_
      cases flow with
      | returned result => exact ⟨kept, good⟩
      | normal => exact laws.ends_part below holds (.nextRound ran truth done) rfl kept trivial

/-- **A task ends as it may**, whatever its fuel. -/
theorem endsWell {moment : Moment} (holds : kind.holds moment) : kind.EndsWell moment := by
  have all : ∀ fuel, kind.Below fuel := by
    intro fuel
    induction fuel with
    | zero => exact fun _ less => absurd less (Nat.not_lt_zero _)
    | succ fuel below =>
        rintro ⟨left, task, machine⟩ less holds
        cases left with
        | zero => cases task <;> exact ⟨laws.here holds, nofun⟩
        | succ left =>
            have below : kind.Below (left + 1) := fun next shorter =>
              below next (Nat.lt_of_lt_of_le shorter (Nat.le_of_lt_succ less))
            cases task with
            | expression found => exact laws.endsWell_expression below holds
            | expressions found => exact laws.endsWell_expressions below holds
            | call paren called values => exact laws.endsWell_call below holds
            | apply callable values => exact laws.endsWell_apply below holds
            | applyClosure closure values => exact laws.endsWell_applyClosure below holds
            | statement found => exact laws.endsWell_statement below holds
            | statements found => exact laws.endsWell_statements below holds
            | rounds condition body => exact laws.endsWell_rounds below holds
  exact all (moment.fuel + 1) moment (Nat.lt_succ_self _) holds

end Rules

/-! ## Whole runs -/

section Runs

variable {fuel : Nat} {machine after : Machine}

theorem expression_ok {found : Expr} (holds : kind.holds ⟨fuel, .expression found, machine⟩)
    {value : Value} (ran : Eval.expression fuel found machine = .ok value after) :
    kind.keeps machine after ∧ kind.good after.store value :=
  Ended.of_ok (laws.endsWell holds) ran

theorem statement_ok {found : Stmt} (holds : kind.holds ⟨fuel, .statement found, machine⟩)
    {flow : Flow} (ran : Eval.statement fuel found machine = .ok flow after) :
    kind.keeps machine after ∧ kind.goodFlow after.store flow :=
  Ended.of_ok (laws.endsWell holds) ran

/-- **What holds of a moment holds of what it begins.** -/
theorem begins {moment next : Moment} (holds : kind.holds moment) (begun : Begins moment next) :
    kind.holds next := by
  have here := laws.here holds
  have first {less : Nat} {task : Task} (begins : Begins moment ⟨less, task, moment.machine⟩)
      (stays : moment.task.opensScope = false) (handed : kind.handed moment.machine.store task) :
      kind.holds ⟨less, task, moment.machine⟩ := laws.part holds begins stays here handed
  -- a part behind an expression that was begun first
  have behind {less : Nat} {found : Expr} {value : Value} {next : Moment}
      (ran : Eval.expression less found moment.machine = .ok value next.machine)
      (earlier : Begins moment ⟨less, .expression found, moment.machine⟩)
      (begins : Begins moment next) (stays : moment.task.opensScope = false)
      (handed : kind.handed next.machine.store next.task) : kind.holds next :=
    laws.part holds begins stays (laws.expression_ok (first earlier stays trivial) ran).1 handed
  cases begun with
  | binaryRight ran => exact behind ran .binaryLeft (.binaryRight ran) rfl trivial
  | logicalRight ran unsettled =>
      exact behind ran .logicalLeft (.logicalRight ran unsettled) rfl trivial
  | arguments ran => exact behind ran .callee (.arguments ran) rfl trivial
  | call ran passed =>
      obtain ⟨kept, good⟩ := laws.expression_ok (first .callee rfl trivial) ran
      have arguments := laws.part holds (.arguments ran) rfl kept trivial
      obtain ⟨onward, all⟩ := Ended.of_ok (laws.endsWell arguments) passed
      exact laws.part holds (.call ran passed) rfl (laws.trans kept onward)
        ⟨laws.later onward good, all⟩
  | setValue ran => exact behind ran .setObject (.setValue ran) rfl trivial
  | otherExpressions ran => exact behind ran .firstExpression (.otherExpressions ran) rfl trivial
  | apply found arity room => exact laws.apply holds found arity room
  | applyClosure => exact first .applyClosure rfl (laws.handed holds)
  | initializer found =>
      obtain ⟨good, passed⟩ := laws.handed holds
      obtain ⟨made, fresh⟩ := laws.newInstance here good
      obtain ⟨bound, closure⟩ := laws.bindMethod holds made (laws.later made good) found fresh
        (.initializer rfl found rfl)
      have kept := laws.trans made bound
      exact laws.part holds (.initializer found) rfl kept
        ⟨closure, laws.goodAll_later kept passed⟩
  | body => exact laws.body holds
  | block => exact laws.block holds
  | thenBranch ran truthy => exact behind ran .condition (.thenBranch ran truthy) rfl trivial
  | elseBranch ran falsy => exact behind ran .condition (.elseBranch ran falsy) rfl trivial
  | otherStatements ran =>
      exact laws.part holds (.otherStatements ran) rfl
        (laws.statement_ok (first .firstStatement rfl trivial) ran).1 trivial
  | roundBody ran truthy => exact behind ran .roundCondition (.roundBody ran truthy) rfl trivial
  | nextRound ran truthy done =>
      have kept := (laws.expression_ok (first .roundCondition rfl trivial) ran).1
      have body := laws.part holds (.roundBody ran truthy) rfl kept trivial
      exact laws.part holds (.nextRound ran truthy done) rfl
        (laws.trans kept (laws.statement_ok body done).1) trivial
  | _ => exact first (by constructor) rfl trivial

theorem visits {moment last : Moment} (holds : kind.holds moment) (visited : Visits moment last) :
    kind.holds last := by
  induction visited with
  | here => exact holds
  | begun begins _ ih => exact ih (laws.begins holds begins)

end Runs

end Laws

/-! ## Programs -/

/-- What a discipline has to see to where a program is run: `starts` is what holds
before each of its statements. -/
structure Governs (kind : Discipline) (fuel : Nat) (starts : List Stmt → Machine → Prop) :
    Prop where
  laws : kind.Laws
  here : ∀ {program : List Stmt} {machine : Machine}, starts program machine →
    kind.keeps machine machine
  first : ∀ {first : Stmt} {rest : List Stmt} {machine : Machine}, starts (first :: rest) machine →
    kind.holds ⟨fuel, .statement first, machine⟩
  others : ∀ {first : Stmt} {rest : List Stmt} {machine after : Machine} {flow : Flow},
    starts (first :: rest) machine → Eval.statement fuel first machine = .ok flow after →
      kind.keeps machine after → starts rest after

namespace Governs

variable {fuel : Nat} {starts : List Stmt → Machine → Prop}

/-- **What is asked of the moments holds of every moment of a program.** -/
theorem performs (governs : kind.Governs fuel starts) {program : List Stmt} {machine : Machine}
    {moment : Moment} (performs : Performs fuel program machine moment)
    (begun : starts program machine) : kind.holds moment := by
  induction performs with
  | first visited => exact governs.laws.visits (governs.first begun) visited
  | others ran _ ih =>
      exact ih (governs.others begun ran (governs.laws.statement_ok (governs.first begun) ran).1)

/-- A fault of a program is one of a statement that it has begun. -/
theorem ended_topLevel (governs : kind.Governs fuel starts) : ∀ {program : List Stmt}
    {machine : Machine}, starts program machine → kind.Ended machine
      (fun error => ∃ moment, Performs fuel program machine moment ∧ kind.explains moment error)
      done (Eval.topLevel fuel program machine)
  | [], _, begun => ⟨governs.here begun, trivial⟩
  | first :: rest, machine, begun => by
      have holds := governs.first begun
      have ended : kind.Ended machine _ kind.goodFlow (Eval.statement fuel first machine) :=
        governs.laws.endsWell holds
      refine .bind (ended.mono (fun _ explained => ⟨_, .first (.here _), explained⟩)
        fun _ _ good => good) fun flow after ran kept _ => ?_
      refine governs.laws.since ((governs.ended_topLevel (governs.others begun ran kept)).mono
        (fun _ explained => ?_) fun _ _ good => good) kept
      obtain ⟨moment, performed, explains⟩ := explained
      exact ⟨moment, .others ran performed, explains⟩

theorem ended_program (governs : kind.Governs fuel starts) {program : List Stmt}
    {machine : Machine} (begun : starts program machine) : kind.Ended machine
      (fun error => ∃ moment, Performs fuel program machine moment ∧ kind.explains moment error)
      done (Eval.program fuel program machine) := by
  refine .bind (governs.ended_topLevel begun) fun _ after _ kept _ => ?_
  unfold Eval.flush
  split
  · exact ⟨kept, trivial⟩
  · exact ⟨kept, nofun⟩

end Governs

end Discipline

end LoxLang
