import LoxLang.Proofs.Run.Discipline
import LoxLang.Session

/-!
# What every way out of a run restores

A statement, an expression or a call may end with a result, in a `return`,
with a fault at any depth, because the output is full or because fuel is used
up. Whatever the tree, the distance table and the state it starts from, it
leaves the current environment and the number of calls in progress as they
were (`Machine.Restored`). In the store, frames keep the environments around
them and the names they bind (`Store.Grows`).

This is a discipline that asks nothing of values (`Eval.restoring_laws`), so every
rule of evaluation follows it, with any amount of fuel (`Eval.restoredAt`). All
that it asks of moments is that their calls are within the limit, which therefore
holds throughout a program (`Eval.depth_le_of_performs`).
-/

namespace LoxLang

set_option autoImplicit false

/-! ## Growing stores -/

/-- How a store may change: frames are added, but none loses its link or a
name that it binds. -/
structure Store.Grows (before after : Store) : Prop where
  size : before.frames.size ≤ after.frames.size
  enclosing : ∀ env < before.frames.size, after.enclosing? env = before.enclosing? env
  bound : ∀ env name, (before.findIn? env name).isSome → (after.findIn? env name).isSome

namespace Store

namespace Grows

theorem refl (store : Store) : store.Grows store :=
  ⟨Nat.le_refl _, fun _ _ => rfl, fun _ _ bound => bound⟩

theorem trans {first second third : Store} (earlier : first.Grows second)
    (later : second.Grows third) : first.Grows third where
  size := Nat.le_trans earlier.size later.size
  enclosing env inside := by
    rw [later.enclosing env (Nat.lt_of_lt_of_le inside earlier.size), earlier.enclosing env inside]
  bound env name bound := later.bound env name (earlier.bound env name bound)

/-- Frames alone decide whether a store has grown. -/
theorem of_frames {before after : Store} (same : after.frames = before.frames) :
    before.Grows after where
  size := Nat.le_of_eq (by rw [same])
  enclosing env _ := by simp only [Store.enclosing?, same]
  bound env name bound := by simpa only [Store.findIn?, same] using bound

end Grows

/-- What a frame holds after a name was bound: the new value or what was there
before. -/
theorem findIn?_bindIn (store : Store) (frame other : Env) (name found : String) (value : Value) :
    (store.bindIn frame name value).findIn? other found =
      if other = frame ∧ found = name ∧ frame < store.frames.size then some value
      else store.findIn? other found := by
  by_cases here : other = frame ∧ found = name
  · obtain ⟨rfl, rfl⟩ := here
    by_cases inside : other < store.frames.size
    · simp [findIn?_bindIn_self inside, inside]
    · have absent : store.frames[other]? = none := Array.getElem?_eq_none (Nat.le_of_not_lt inside)
      simp only [bindIn, findIn?, Array.getElem?_modify, absent, inside, and_false, if_false,
        if_true, Option.map_none]
  · have distinct : other ≠ frame ∨ found ≠ name := by
      by_cases frames : other = frame
      · exact .inr fun names => here ⟨frames, names⟩
      · exact .inl frames
    rw [findIn?_bindIn_of_ne distinct, if_neg fun all => here ⟨all.1, all.2.1⟩]

/-- Behind its first link, an environment has the frames of the next one. -/
theorem ancestor?_succ_of_link {store : Store} {env outer : Env}
    (link : store.enclosing? env = some outer) (distance : Nat) :
    store.ancestor? env (distance + 1) = store.ancestor? outer distance := by
  rw [ancestor?, link]

theorem lt_of_findIn? {store : Store} {frame : Env} {name : String} {value : Value}
    (found : store.findIn? frame name = some value) : frame < store.frames.size := by
  by_cases inside : frame < store.frames.size
  · exact inside
  · rw [findIn?, Array.getElem?_eq_none (Nat.le_of_not_lt inside)] at found
    cases found

/-- Nothing is around a frame without a link. -/
theorem chain_of_root {store : Store} {env : Env} (root : store.enclosing? env = none) :
    store.chain env = [env] := by
  rw [chain, root]

theorem grows_bindIn (store : Store) (frame : Env) (name : String) (value : Value) :
    store.Grows (store.bindIn frame name value) where
  size := Nat.le_of_eq (size_bindIn store frame name value).symm
  enclosing env _ := enclosing?_bindIn store frame name value env
  bound other found bound := by
    rw [findIn?_bindIn]
    split
    · rfl
    · exact bound

theorem grows_child (store : Store) (env : Env) : store.Grows (store.child env).2 where
  size := by simp [child]
  enclosing other inside := by
    simp [child, enclosing?, Array.getElem?_push, Nat.ne_of_lt inside]
  bound other name bound := by rwa [findIn?_child]

theorem grows_defineAll (env : Env) : ∀ (names : List String) (values : List Value)
    (store : Store), store.Grows (store.defineAll env names values)
  | [], _, store => .refl store
  | _ :: _, [], store => .refl store
  | name :: names, value :: values, store =>
    (store.grows_bindIn env name value).trans (grows_defineAll env names values _)

theorem grows_bindMethod (store : Store) (method : Closure) (object : Instance) :
    store.Grows (store.bindMethod method object).2 :=
  (store.grows_child method.env).trans (grows_bindIn _ _ _ _)

end Store

/-! ## Machines whose control state is restored -/

/-- What a run leaves as it was, and how it may have changed the store. -/
structure Machine.Restored (before after : Machine) : Prop where
  env : after.env = before.env
  depth : after.depth = before.depth
  distances : after.distances = before.distances
  store : before.store.Grows after.store

namespace Machine.Restored

theorem refl (machine : Machine) : machine.Restored machine :=
  ⟨rfl, rfl, rfl, .refl _⟩

theorem trans {first second third : Machine} (earlier : first.Restored second)
    (later : second.Restored third) : first.Restored third where
  env := later.env.trans earlier.env
  depth := later.depth.trans earlier.depth
  distances := later.distances.trans earlier.distances
  store := earlier.store.trans later.store

/-- A step that only puts a grown store in place. -/
theorem of_store {machine : Machine} {store : Store} (grows : machine.store.Grows store) :
    machine.Restored { machine with store := store } :=
  ⟨rfl, rfl, rfl, grows⟩

end Machine.Restored

namespace Eval

variable {Result Other : Type}

/-- Two steps that have succeeded together have succeeded one by one. -/
theorem bind_eq_ok {step : Eval Result} {next : Result → Eval Other} {machine after : Machine}
    {result : Other} (ran : (step >>= next) machine = .ok result after) :
    ∃ value middle, step machine = .ok value middle ∧ next value middle = .ok result after := by
  simp only [Bind.bind, EStateM.bind] at ran
  split at ran
  next value middle here => exact ⟨value, middle, here, ran⟩
  next => cases ran

/-- A step that restores the control state on every way out. -/
def Restores (step : Eval Result) : Prop :=
  ∀ machine : Machine, machine.Restored (reached (step machine))

namespace Restores

theorem of_ok {step : Eval Result} (restores : Restores step) {machine after : Machine}
    {result : Result} (ran : step machine = .ok result after) : machine.Restored after := by
  have restored := restores machine
  rwa [ran] at restored

theorem pure (result : Result) : Restores (pure result : Eval Result) :=
  fun machine => .refl machine

theorem bind {step : Eval Result} {next : Result → Eval Other} (first : Restores step)
    (second : ∀ result, Restores (next result)) : Restores (step >>= next) := by
  intro machine
  have early := first machine
  simp only [Bind.bind, EStateM.bind]
  cases ended : step machine with
  | error interrupt after => rwa [ended] at early
  | ok result after =>
      rw [ended] at early
      exact early.trans (second result after)

/-- The environment is put back after the step, so only the rest of the state
has to be restored by it. -/
theorem within {step : Eval Result} (env : Env) (inner : Restores step) :
    Restores (Eval.within env step) := by
  intro machine
  have early := inner { machine with env := env }
  rw [within_eq, reached_onMachine]
  exact ⟨rfl, early.depth, early.distances, early.store⟩

end Restores

/-! ## The steps of the machine -/

theorem restores_env : Restores env :=
  fun machine => .refl machine

theorem restores_define (name : String) (value : Value) : Restores (define name value) :=
  fun _ => .of_store (Store.grows_bindIn _ _ _ _)

theorem restores_reassign (name : Token) (value : Value) : Restores (reassign name value) := by
  intro machine
  unfold reassign
  split
  · exact .of_store (Store.grows_bindIn _ _ _ _)
  · exact .refl machine

theorem restores_childWith (env : Env) (names : List String) (values : List Value) :
    Restores (childWith env names values) :=
  fun machine => .of_store
    ((machine.store.grows_child env).trans (Store.grows_defineAll _ names values _))

theorem restores_newClass (name : String) (superclass : Option Class) (own : MethodTable) :
    Restores (newClass name superclass own) :=
  fun _ => .of_store (.of_frames rfl)

theorem restores_methodEnv (superclass : Option Class) : Restores (methodEnv superclass) := by
  cases superclass with
  | none => exact restores_env
  | some parent => exact restores_env.bind fun env => restores_childWith env _ _

theorem restores_declareClass (name : Token) (superclass : Option Class)
    (declarations : List FunctionDecl) : Restores (declareClass name superclass declarations) :=
  (restores_define _ _).bind fun _ => (restores_methodEnv superclass).bind fun _ =>
    (restores_newClass _ _ _).bind fun _ => restores_reassign _ _

/-! ## The rules of evaluation -/

/-- Every rule restores the control state when it is given a certain amount of
fuel. -/
structure RestoredAt (fuel : Nat) : Prop where
  expression : ∀ found, Restores (expression fuel found)
  expressions : ∀ found, Restores (expressions fuel found)
  call : ∀ paren called values, Restores (call fuel paren called values)
  apply : ∀ callable values, Restores (apply fuel callable values)
  applyClosure : ∀ closure values, Restores (applyClosure fuel closure values)
  statement : ∀ found, Restores (statement fuel found)
  statements : ∀ found, Restores (statements fuel found)
  rounds : ∀ condition body, Restores (rounds fuel condition body)

/-- The control state is restored, and no call is deeper than the limit allows, or
than one that was in progress from the start. -/
def restoring (deepest : Nat) : Discipline where
  holds moment := moment.machine.depth ≤ max deepest Machine.depthLimit
  keeps := Machine.Restored
  good _ _ := True
  explains _ _ := True

variable {deepest : Nat}

theorem Restores.ended {step : Eval Result} (restores : Restores step) (machine : Machine) :
    (restoring deepest).Ended machine (fun _ => True) (fun _ _ => True) (step machine) := by
  have restored := restores machine
  cases ended : step machine with
  | ok result after =>
      rw [ended] at restored
      exact ⟨restored, trivial⟩
  | error interrupt after =>
      rw [ended] at restored
      exact ⟨restored, fun _ _ => trivial⟩

theorem restoring_laws : (restoring deepest).Laws where
  handed {moment} _ := by
    cases moment.task <;> simp [Discipline.handed, Task.Handed, restoring]
  here _ := .refl _
  settled _ := .refl _
  trans := .trans
  later _ _ := trivial
  plain _ := trivial
  owner _ := trivial
  within kept := ⟨rfl, kept.depth, kept.distances, kept.store⟩
  nested kept := ⟨kept.env, congrArg (· - 1) kept.depth, kept.distances, kept.store⟩
  outside _ _ _ := ⟨rfl, rfl, rfl, .refl _⟩
  bound _ _ := trivial
  fields _ _ := trivial
  setField _ _ _ _ _ := .of_store (.of_frames rfl)
  childWith env names values _ _ := (restores_childWith env names values).of_ok rfl
  newInstance _ _ := ⟨.of_store (.of_frames rfl), trivial⟩
  bindMethod _ _ _ _ _ _ := ⟨.of_store (Store.grows_bindMethod _ _ _), trivial⟩
  bindIn _ _ _ _ _ _ _ := .of_store (Store.grows_bindIn _ _ _ _)
  function _ := .of_store (Store.grows_bindIn _ _ _ _)
  declareClass _ _ _ _ := (restores_declareClass _ _ _).ended _
  part shallow _ _ kept _ := Nat.le_trans (Nat.le_of_eq kept.depth) shallow
  apply _ _ _ room := Nat.le_trans room (Nat.le_max_right _ _)
  body shallow := shallow
  block shallow := shallow
  begun _ _ := trivial
  raises _ _ _ := trivial

theorem restoring_ends (fuel : Nat) (task : Task) (machine : Machine) :
    (restoring machine.depth).EndsWell ⟨fuel, task, machine⟩ :=
  restoring_laws.endsWell (Nat.le_max_left _ _)

/-- **Every rule restores the control state**, whatever the fuel. -/
theorem restoredAt (fuel : Nat) : RestoredAt fuel where
  expression found machine :=
    Discipline.Ended.kept (restoring_ends fuel (.expression found) machine)
  expressions found machine :=
    Discipline.Ended.kept (restoring_ends fuel (.expressions found) machine)
  call paren called values machine :=
    Discipline.Ended.kept (restoring_ends fuel (.call paren called values) machine)
  apply callable values machine :=
    Discipline.Ended.kept (restoring_ends fuel (.apply callable values) machine)
  applyClosure closure values machine :=
    Discipline.Ended.kept (restoring_ends fuel (.applyClosure closure values) machine)
  statement found machine :=
    Discipline.Ended.kept (restoring_ends fuel (.statement found) machine)
  statements found machine :=
    Discipline.Ended.kept (restoring_ends fuel (.statements found) machine)
  rounds condition body machine :=
    Discipline.Ended.kept (restoring_ends fuel (.rounds condition body) machine)

theorem restoring_governs (deepest fuel : Nat) : (restoring deepest).Governs fuel fun _ machine =>
    machine.depth ≤ max deepest Machine.depthLimit where
  laws := restoring_laws
  here _ := .refl _
  first shallow := shallow
  others shallow _ kept := Nat.le_trans (Nat.le_of_eq kept.depth) shallow

theorem restores_topLevel (fuel : Nat) (program : List Stmt) : Restores (topLevel fuel program) :=
  fun machine => ((restoring_governs machine.depth fuel).ended_topLevel (Nat.le_max_left _ _)).kept

theorem restores_program (fuel : Nat) (found : List Stmt) : Restores (program fuel found) :=
  fun machine => ((restoring_governs machine.depth fuel).ended_program (Nat.le_max_left _ _)).kept

/-- **No more calls are in progress than the limit allows**, at any moment of a
program. -/
theorem depth_le_of_performs {fuel : Nat} {program : List Stmt} {machine : Machine}
    {moment : Moment} (performs : Performs fuel program machine moment)
    (shallow : machine.depth ≤ Machine.depthLimit) : moment.machine.depth ≤ Machine.depthLimit := by
  have bounded := (restoring_governs 0 fuel).performs performs
    (Nat.le_trans shallow (Nat.le_max_right _ _))
  exact Nat.le_trans bounded (Nat.max_le.mpr ⟨Nat.zero_le _, Nat.le_refl _⟩)

end Eval

/-! ## Sessions -/

/-- The sessions that come about from a first one by running sources, whatever
their outcome, and by forgetting faults. -/
inductive Session.Reaches (first : Session) : Session → Prop where
  | start : Reaches first first
  | run {session next : Session} (earlier : Reaches first session) (fuel : Nat) (source : String)
      (ran : session.run fuel source = some next) : Reaches first next
  | reset {session : Session} (earlier : Reaches first session) : Reaches first session.reset

namespace Session

@[simp] theorem machine_reportAll (diagnostics : List Diagnostic) (session : Session) :
    (session.reportAll diagnostics).machine = session.machine := by
  induction diagnostics generalizing session with
  | nil => rfl
  | cons first rest ih => exact ih (session.report first)

@[simp] theorem machine_read (session : Session) (source : String) :
    (session.read source).2.machine = session.machine := by
  simp [read]

/-- Running resolved statements restores the control state, with the new
distances in place. -/
theorem restored_execute {session next : Session} {fuel : Nat} {program : List Stmt}
    {distances : List (Nat × Nat)} (ran : session.execute fuel program distances = some next) :
    (session.prepared distances).Restored next.machine := by
  have restored := Eval.restores_program fuel program (session.prepared distances)
  simp only [execute] at ran
  split at ran
  next machine ended =>
    rw [ended] at restored
    rw [← Option.some.inj ran]
    exact restored
  next interrupt machine ended =>
    rw [ended] at restored
    obtain ⟨diagnostic, _, rfl⟩ := Option.map_eq_some_iff.mp ran
    exact restored

/-- A run keeps the environment and the number of calls in progress, whether it
gets to evaluation or not. -/
theorem control_run {session next : Session} {fuel : Nat} {source : String}
    (ran : session.run fuel source = some next) :
    next.machine.env = session.machine.env ∧ next.machine.depth = session.machine.depth := by
  have untouched := session.machine_read source
  simp only [run] at ran
  split at ran
  · rw [← Option.some.inj ran, untouched]
    exact ⟨rfl, rfl⟩
  · split at ran
    · rw [← Option.some.inj ran, machine_reportAll, untouched]
      exact ⟨rfl, rfl⟩
    · have restored := restored_execute ran
      rw [restored.env, restored.depth, prepared, untouched]
      exact ⟨rfl, rfl⟩

theorem control_reaches {first session : Session} (reached : first.Reaches session) :
    session.machine.env = first.machine.env ∧ session.machine.depth = first.machine.depth := by
  induction reached with
  | start => exact ⟨rfl, rfl⟩
  | run _ fuel source ran ih =>
      have control := control_run ran
      exact ⟨control.1.trans ih.1, control.2.trans ih.2⟩
  | reset _ ih => exact ih

end Session

/-- **Every way out restores the control state.** An expression, a statement, a
list of statements in an environment and a call end in a machine with the same
environment and depth, in whose store no link has changed and no name has been
lost. So the sources of a session are always started in the global environment
with no call in progress. -/
theorem control_state_restored :
    (∀ (fuel : Nat) (found : Expr) (machine : Machine),
      machine.Restored (Eval.reached (Eval.expression fuel found machine))) ∧
    (∀ (fuel : Nat) (found : Stmt) (machine : Machine),
      machine.Restored (Eval.reached (Eval.statement fuel found machine))) ∧
    (∀ (fuel : Nat) (body : List Stmt) (env : Env) (machine : Machine),
      machine.Restored (Eval.reached (Eval.within env (Eval.statements fuel body) machine))) ∧
    (∀ (fuel : Nat) (callable : Callable) (values : List Value) (machine : Machine),
      machine.Restored (Eval.reached (Eval.apply fuel callable values machine))) ∧
    ∀ (output errors : Sink) (clock : Nat → Float) (session : Session),
      (Session.start output errors clock).Reaches session →
        session.machine.env = Env.global ∧ session.machine.depth = 0 :=
  ⟨fun fuel => (Eval.restoredAt fuel).expression,
    fun fuel => (Eval.restoredAt fuel).statement,
    fun fuel body env => ((Eval.restoredAt fuel).statements body).within env,
    fun fuel => (Eval.restoredAt fuel).apply,
    fun _ _ _ _ reached => Session.control_reaches reached⟩

/-- A fault inside a block inside a call leaves the session ready for the next
source. -/
theorem control_state_restored_after_fault :
    ∃ session : Session,
      (Session.start Sink.unlimited Sink.unlimited fun _ => 0).run 30
        "fun f() { { missing; } } f();" = some session ∧
      session.hasRuntimeFault = true ∧
      session.machine.env = Env.global ∧ session.machine.depth = 0 := by
  have faulty : ((Session.start Sink.unlimited Sink.unlimited fun _ => 0).run 30
      "fun f() { { missing; } } f();").map Session.hasRuntimeFault = some true := by
    decide +kernel
  obtain ⟨session, ran, fault⟩ := Option.map_eq_some_iff.mp faulty
  exact ⟨session, ran, fault,
    control_state_restored.2.2.2.2 _ _ _ session (.run .start 30 _ ran)⟩

end LoxLang
