import LoxLang.Proofs.Run.Fitting

/-!
# Runs of trees that are scoped

A moment fits if its machine does and its task stands in scopes that the
current environment matches (`Moment.Fits`). A task ends well if the machine it
leaves fits again, its result fits, and its fault, if there is one, is not one that
scoping rules out. An undefined variable is traced back to the moment that misses
it, which is a name that has no distance (`Moment.Explains`).

These form a discipline of evaluation (`fitting_laws`). So a task that fits ends
well, and every moment of its run fits.
-/

namespace LoxLang

set_option autoImplicit false

open Resolution

/-! ## Machines that fit -/

/-- The distance table reads as the placing says, and every value in the store
fits. -/
structure Machine.Fits (placed : Placing) (machine : Machine) : Prop where
  table : ∀ id distance, placed id distance → machine.distances.find? id = distance
  store : machine.store.Fits placed

/-- What a task leaves behind, whichever way it ends. -/
structure Machine.Kept (placed : Placing) (before after : Machine) : Prop where
  env : after.env = before.env
  store : before.store.Extends after.store
  fits : after.Fits placed

/-- Every value of a list fits. -/
def Value.AllFit (placed : Placing) (store : Store) (values : List Value) : Prop :=
  ∀ value ∈ values, value.Fits placed store

namespace Machine

variable {placed : Placing}

theorem Kept.refl {machine : Machine} (fits : machine.Fits placed) : machine.Kept placed machine :=
  ⟨rfl, .refl _, fits⟩

theorem Kept.trans {first second third : Machine} (earlier : first.Kept placed second)
    (later : second.Kept placed third) : first.Kept placed third :=
  ⟨later.env.trans earlier.env, earlier.store.trans later.store, later.fits⟩

/-- A step that only puts an extended store in place. -/
theorem Fits.kept {machine : Machine} (fits : machine.Fits placed) {store : Store}
    (extended : machine.store.Extends store) (fitting : store.Fits placed) :
    machine.Kept placed { machine with store := store } :=
  ⟨rfl, extended, fits.table, fitting⟩

theorem Kept.chain {before after : Machine} (kept : before.Kept placed after) {scopes : Scopes}
    (chain : before.store.Matches scopes before.env) : after.store.Matches scopes after.env := by
  rw [kept.env]
  exact chain.mono kept.store

end Machine

/-- Binding a name in a frame. -/
theorem Machine.Fits.kept_bindIn {placed : Placing} {machine : Machine}
    (fits : machine.Fits placed) (frame : Env) {name : Token} (named : name.IsName)
    {value : Value} (fitting : value.Fits placed machine.store) :
    machine.Kept placed { machine with
      store := machine.store.bindIn frame name.lexeme value } :=
  have extended := Store.extends_bindIn _ frame named value
  fits.kept extended (fits.store.bindIn frame named (fitting.later extended))

/-! ## Nodes that have a distance -/

/-- The chain of scopes at an evaluation of a node agrees with the distance
that is recorded for it. -/
def Machine.Agrees (machine : Machine) : Expr → Prop
  | .var occurrence => ∀ distance, machine.distances.find? occurrence.id = some distance →
    ∃ frame, machine.store.ancestor? machine.env distance = some frame ∧
      (machine.store.findIn? frame occurrence.name).isSome
  | .assign occurrence _ => ∀ distance, machine.distances.find? occurrence.id = some distance →
    ∃ frame, machine.store.ancestor? machine.env distance = some frame
  | .thisRef occurrence => ∀ distance, machine.distances.find? occurrence.id = some distance →
    ∃ frame object, machine.store.ancestor? machine.env distance = some frame ∧
      machine.store.findIn? frame occurrence.name = some (.object object)
  | .superRef occurrence _ => ∀ distance, machine.distances.find? occurrence.id = some distance →
    ∃ frame parent, machine.store.ancestor? machine.env distance = some frame ∧
      machine.store.findIn? frame "super" = some (.cls parent) ∧
      ∃ inner below object, distance = inner + 1 ∧
        machine.store.ancestor? machine.env inner = some below ∧
        machine.store.findIn? below "this" = some (.object object)
  | _ => True

/-- The scopes around a statement that is run. -/
structure Machine.StandsIn (enclosing : ClassKind) (scopes : Scopes) (machine : Machine) :
    Prop where
  settled : scopes.Settled enclosing
  chain : machine.store.Matches scopes machine.env

/-- The scopes around an expression that is evaluated. -/
structure Machine.ReadsIn (enclosing : ClassKind) (scopes : Scopes) (machine : Machine) :
    Prop where
  ready : scopes.Ready enclosing
  chain : machine.store.Matches scopes machine.env

namespace Machine

variable {placed : Placing} {machine after : Machine} {enclosing : ClassKind} {scopes : Scopes}

theorem StandsIn.readsIn (stands : machine.StandsIn enclosing scopes) :
    machine.ReadsIn enclosing scopes :=
  ⟨stands.settled.ready, stands.chain⟩

theorem StandsIn.kept (stands : machine.StandsIn enclosing scopes)
    (kept : machine.Kept placed after) : after.StandsIn enclosing scopes :=
  ⟨stands.settled, kept.chain stands.chain⟩

theorem ReadsIn.kept (reads : machine.ReadsIn enclosing scopes)
    (kept : machine.Kept placed after) : after.ReadsIn enclosing scopes :=
  ⟨reads.ready, kept.chain reads.chain⟩

namespace ReadsIn

/-- The frame at the distance of a name that is defined binds the name. -/
theorem frame (reads : machine.ReadsIn enclosing scopes) {name : String} {distance : Nat}
    (defined : ∀ scope, scopes[distance]? = some scope → scope.find? name ≠ some false)
    (found : distance? name scopes = some distance) :
    ∃ frame value, machine.store.ancestor? machine.env distance = some frame ∧
      machine.store.findIn? frame name = some value ∧ value.Suits name := by
  obtain ⟨scope, here, known⟩ := Scopes.exists_scope_of_distance? found
  obtain ⟨frame, reached, holds⟩ := reads.chain.ancestor here
  obtain ⟨flag, flagged⟩ := Option.isSome_iff_exists.mp known
  cases flag with
  | true =>
      obtain ⟨value, bound, suits⟩ := holds name flagged
      exact ⟨frame, value, reached, bound, suits⟩
  | false => exact absurd flagged (defined scope here)

/-- A name that may be read is defined wherever it is found. -/
theorem defined (reads : machine.ReadsIn enclosing scopes) {name : String}
    (readable : scopes.Readable name) {distance : Nat} {scope : LocalScope}
    (here : scopes[distance]? = some scope) : scope.find? name ≠ some false := by
  cases scopes with
  | nil => cases here
  | cons first outer =>
      cases distance with
      | zero =>
          cases here
          exact readable
      | succ distance => exact reads.ready.outer scope (List.mem_of_getElem? here) name

/-- The instance that `this` stands for. -/
theorem this (reads : machine.ReadsIn enclosing scopes) {distance : Nat}
    (found : distance? "this" scopes = some distance) :
    ∃ frame object, machine.store.ancestor? machine.env distance = some frame ∧
      machine.store.findIn? frame "this" = some (.object object) := by
  obtain ⟨frame, value, reached, bound, suits⟩ := reads.frame
    (fun scope here => reads.ready.this scope (List.mem_of_getElem? here)) found
  obtain ⟨object, rfl⟩ := suits.this rfl
  exact ⟨frame, object, reached, bound⟩

/-- The superclass that `super` stands for, and the instance below it. -/
theorem super (reads : machine.ReadsIn .derived scopes) :
    ∃ inner frame parent below object, distance? "super" scopes = some (inner + 1) ∧
      machine.store.ancestor? machine.env (inner + 1) = some frame ∧
      machine.store.findIn? frame "super" = some (.cls parent) ∧
      machine.store.ancestor? machine.env inner = some below ∧
      machine.store.findIn? below "this" = some (.object object) := by
  obtain ⟨inner, distance, this⟩ := reads.ready.provides.super rfl
  -- the scope with `super` is not the innermost one, so its names are defined
  have defined : ∀ scope, scopes[inner + 1]? = some scope → scope.find? "super" ≠ some false := by
    intro scope found
    cases scopes with
    | nil => cases found
    | cons first outer => exact reads.ready.outer scope (List.mem_of_getElem? found) "super"
  obtain ⟨frame, value, reached, bound, suits⟩ := reads.frame defined distance
  obtain ⟨parent, rfl⟩ := suits.super rfl
  obtain ⟨below, object, inside, found⟩ := reads.this this
  exact ⟨inner, frame, parent, below, object, distance, reached, bound, inside, found⟩

end ReadsIn

/-- An expression that is scoped where it is evaluated agrees with the
distances of its node. -/
theorem ReadsIn.agrees (reads : machine.ReadsIn enclosing scopes) (fits : machine.Fits placed)
    {found : Expr} (wellFormed : found.WellFormed) (inside : found.Scoped placed enclosing scopes) :
    machine.Agrees found := by
  cases found with
  | var occurrence =>
      intro distance recorded
      rw [fits.table _ _ inside.2] at recorded
      obtain ⟨frame, value, reached, bound, _⟩ := reads.frame
        (fun _ here => reads.defined inside.1 here) recorded
      exact ⟨frame, reached, Option.isSome_iff_exists.mpr ⟨value, bound⟩⟩
  | assign occurrence value =>
      intro distance recorded
      rw [fits.table _ _ inside.2] at recorded
      obtain ⟨scope, here, _⟩ := Scopes.exists_scope_of_distance? recorded
      obtain ⟨frame, reached, _⟩ := reads.chain.ancestor here
      exact ⟨frame, reached⟩
  | thisRef occurrence =>
      intro distance recorded
      have name : occurrence.name = "this" := wellFormed
      rw [fits.table _ _ inside.2, name] at recorded
      rw [name]
      exact reads.this recorded
  | superRef occurrence method =>
      intro distance recorded
      have name : occurrence.name = "super" := wellFormed
      obtain ⟨derived, here⟩ := inside
      subst derived
      rw [fits.table _ _ here, name] at recorded
      obtain ⟨inner, frame, parent, below, object, known, reached, bound, lower, found⟩ :=
        reads.super
      cases known.symm.trans recorded
      exact ⟨frame, parent, reached, bound, inner, below, object, rfl, lower, found⟩
  | _ => trivial

end Machine

/-! ## Names that are not found -/

namespace Machine

variable {machine : Machine} {occurrence : Occurrence} {cause : RuntimeCause}

/-- A name that is not found where the distances agree has no distance. -/
theorem cause_of_value (agrees : machine.Agrees (.var occurrence))
    (failed : machine.value occurrence = .error cause) :
    machine.distances.find? occurrence.id = none ∧
      cause = .undefinedVariable occurrence.name := by
  cases recorded : machine.distances.find? occurrence.id with
  | some distance =>
      obtain ⟨frame, reached, bound⟩ := agrees distance recorded
      obtain ⟨value, found⟩ := Option.isSome_iff_exists.mp bound
      simp only [Machine.value, recorded, Store.getAt, Store.frameAt, reached, found] at failed
      cases failed
  | none =>
      simp only [Machine.value, recorded, Store.get] at failed
      split at failed
      · cases failed
      · cases failed
        exact ⟨rfl, rfl⟩

/-- The same for a name that is assigned. -/
theorem cause_of_target
    (agrees : ∀ distance, machine.distances.find? occurrence.id = some distance →
      ∃ frame, machine.store.ancestor? machine.env distance = some frame)
    (failed : machine.target occurrence = .error cause) :
    machine.distances.find? occurrence.id = none ∧
      cause = .undefinedVariable occurrence.name := by
  cases recorded : machine.distances.find? occurrence.id with
  | some distance =>
      obtain ⟨frame, reached⟩ := agrees distance recorded
      simp only [Machine.target, recorded, Store.frameAt, reached] at failed
      cases failed
  | none =>
      simp only [Machine.target, recorded, Store.holder] at failed
      split at failed
      · cases failed
      · cases failed
        exact ⟨rfl, rfl⟩

/-- Where the distances agree, `super` stands for something. -/
theorem superBinding?_ne_none {method : Token}
    (here : (machine.distances.find? occurrence.id).isSome)
    (agrees : machine.Agrees (.superRef occurrence method)) :
    machine.superBinding? occurrence ≠ none := by
  obtain ⟨distance, recorded⟩ := Option.isSome_iff_exists.mp here
  obtain ⟨frame, parent, reached, bound, inner, below, object, rfl, lower, found⟩ :=
    agrees distance recorded
  simp [Machine.superBinding?, recorded, Store.implicitAt?, reached, lower, bound, found]

end Machine

/-! ## Declared names -/

namespace Eval

variable {Result Other : Type}

/-- A step that ends with a result has bound a name in the current frame. -/
def Binds (name : String) (step : Eval Result) : Prop :=
  ∀ (machine after : Machine) (result : Result), machine.env < machine.store.frames.size →
    step machine = .ok result after → (after.store.findIn? machine.env name).isSome

theorem binds_define (name : String) (value : Value) : Binds name (define name value) := by
  intro machine after result inside ran
  cases ran
  rw [Store.define, Store.findIn?_bindIn_self inside]
  rfl

/-- A name stays bound. -/
theorem Binds.before {name : String} {step : Eval Result} (binds : Binds name step)
    {next : Result → Eval Other} (restores : ∀ result, Restores (next result)) :
    Binds name (step >>= next) := by
  intro machine after result inside ran
  obtain ⟨value, middle, first, second⟩ := bind_eq_ok ran
  exact ((restores value).of_ok second).store.bound _ _ (binds _ _ _ inside first)

theorem Binds.behind {name : String} {step : Eval Result} (restores : Restores step)
    {next : Result → Eval Other} (binds : ∀ result, Binds name (next result)) :
    Binds name (step >>= next) := by
  intro machine after result inside ran
  obtain ⟨value, middle, first, second⟩ := bind_eq_ok ran
  have earlier := restores.of_ok first
  have env : middle.env = machine.env := earlier.env
  rw [← env]
  refine binds value _ _ _ ?_ second
  rw [env]
  exact Nat.lt_of_lt_of_le inside earlier.store.size

theorem binds_declareClass (name : Token) (superclass : Option Class)
    (declarations : List FunctionDecl) :
    Binds name.lexeme (declareClass name superclass declarations) :=
  (binds_define name.lexeme .nil).before fun _ => (restores_methodEnv superclass).bind fun _ =>
    (restores_newClass _ _ _).bind fun _ => restores_reassign _ _

/-- A declaration that ends with a result has bound its name. -/
theorem binds_declared {fuel : Nat} {found : Stmt} {name : Token}
    (declared : found.declared? = some name) : Binds name.lexeme (statement fuel found) := by
  cases fuel with
  | zero =>
      intro machine after result _ ran
      cases ran
  | succ fuel =>
      cases found with
      | var declaredName initializer =>
          cases declared
          cases initializer with
          | none => exact (binds_define _ _).before fun _ => .pure _
          | some value =>
              exact .behind ((restoredAt fuel).expression value) fun _ =>
                (binds_define _ _).before fun _ => .pure _
      | function declaration =>
          cases declared
          exact .behind restores_env fun _ => (binds_define _ _).before fun _ => .pure _
      | classDecl declaredName superclass declarations =>
          cases declared
          cases superclass with
          | none => exact (binds_declareClass _ _ _).before fun _ => .pure _
          | some parent =>
              refine .behind ((restoredAt fuel).expression parent) fun value => ?_
              cases value with
              | cls cls => exact (binds_declareClass _ _ _).before fun _ => .pure _
              | _ =>
                  intro machine after result _ ran
                  cases ran
      | _ => cases declared

end Eval

/-! ## Tasks that fit -/

/-- What a task needs of the machine it is begun in. -/
def Task.Fits (placed : Placing) (machine : Machine) : Task → Prop
  | .expression found => ∃ enclosing scopes, machine.ReadsIn enclosing scopes ∧
      found.WellFormed ∧ found.Scoped placed enclosing scopes
  | .expressions found => ∃ enclosing scopes, machine.ReadsIn enclosing scopes ∧
      Expr.AllWellFormed found ∧ Expr.AllScoped placed enclosing scopes found
  | .call _ called values =>
      called.Fits placed machine.store ∧ Value.AllFit placed machine.store values
  | .apply callable values => callable.Fits placed machine.store ∧
      Value.AllFit placed machine.store values ∧ values.length = callable.arity
  | .applyClosure closure values => closure.Fits placed machine.store ∧
      Value.AllFit placed machine.store values ∧ values.length = closure.arity
  | .statement found => ∃ around scopes, machine.StandsIn around.enclosing scopes ∧
      found.WellFormed ∧ found.Scoped placed around scopes
  | .statements found => ∃ around scopes, machine.StandsIn around.enclosing scopes ∧
      Stmt.AllWellFormed found ∧ Stmt.AllScoped placed around scopes found
  | .rounds condition body => ∃ around scopes, machine.StandsIn around.enclosing scopes ∧
      (condition.WellFormed ∧ body.WellFormed ∧ body.isDeclaration = false) ∧
        condition.Scoped placed around.enclosing scopes ∧ body.Scoped placed around scopes

/-- A fault that no run of a scoped tree has. -/
def RuntimeCause.isUnscoped : RuntimeCause → Bool
  | .missingScope _ _ => true
  | .superNotHere => true
  | .invalidUnaryOperator => true
  | .invalidBinaryOperator => true
  | _ => false

namespace Moment

/-- The machine and the task of a moment fit. -/
structure Fits (placed : Placing) (moment : Moment) : Prop where
  machine : moment.machine.Fits placed
  task : moment.task.Fits placed moment.machine

/-- The evaluation of a node that has no distance fails because the name is
not defined. -/
inductive Misses : Moment → RuntimeError → Prop where
  | intro {fuel : Nat} {machine after : Machine} {found : Expr} {occurrence : Occurrence}
      (node : found = .var occurrence ∨ ∃ value, found = .assign occurrence value)
      (unplaced : machine.distances.find? occurrence.id = none)
      (raised : Eval.expression fuel found machine =
        .error (.fault ⟨.undefinedVariable occurrence.name, occurrence.line⟩) after) :
      Misses ⟨fuel, .expression found, machine⟩
        ⟨.undefinedVariable occurrence.name, occurrence.line⟩

/-- A fault that a moment may end with. -/
def Explains (moment : Moment) (error : RuntimeError) : Prop :=
  error.cause.isUnscoped = false ∧
    ∀ name, error.cause = .undefinedVariable name →
      ∃ origin, Visits moment origin ∧ origin.Misses error

theorem Explains.begun {moment next : Moment} (begins : Begins moment next)
    {error : RuntimeError} (explained : next.Explains error) : moment.Explains error := by
  refine ⟨explained.1, fun name undefined => ?_⟩
  obtain ⟨origin, visited, misses⟩ := explained.2 name undefined
  exact ⟨origin, .begun begins visited, misses⟩

theorem Misses.explains {moment : Moment} {error : RuntimeError} (misses : moment.Misses error) :
    moment.Explains error := by
  refine ⟨?_, fun _ _ => ⟨moment, .here moment, misses⟩⟩
  cases misses
  rfl

/-- Faults that have nothing to do with names. -/
theorem explains_of_ordinary {moment : Moment} {cause : RuntimeCause} (line : Nat)
    (ordinary : cause.isOrdinary = true) : moment.Explains ⟨cause, line⟩ := by
  refine ⟨?_, fun name undefined => ?_⟩
  · cases cause <;> first | rfl | cases ordinary
  · cases (show cause = _ from undefined)
    cases ordinary

end Moment

/-! ## What a task begins -/

section Begun

variable {placed : Placing}

/-- A superclass is scoped before the name of its class is bound: it is another
name. -/
theorem scoped_superclass {enclosing : ClassKind} {scopes : Scopes} {name : Token}
    {superclass : Expr} (isName : Expr.IsSuperclass (some superclass))
    (other : selfReference? name (some superclass) = none)
    (inside : superclass.Scoped placed enclosing (scopes.mark name.lexeme true)) :
    superclass.WellFormed ∧ ∀ kind, superclass.Scoped placed kind scopes := by
  cases superclass with
  | var occurrence =>
      have distinct : occurrence.name ≠ name.lexeme := by
        intro same
        simp [selfReference?, same] at other
      obtain ⟨readable, here⟩ := inside
      rw [Scopes.distance?_mark_of_ne distinct] at here
      refine ⟨isName, fun _ => ⟨?_, here⟩⟩
      cases scopes with
      | nil => trivial
      | cons scope outer =>
          rw [Scopes.mark, Scopes.Readable, Bindings.find?_insert_of_ne distinct] at readable
          exact readable
  | _ => cases isName

theorem isName_of_declared {found : Stmt} (wellFormed : found.WellFormed) {name : Token}
    (declared : found.declared? = some name) : name.IsName := by
  cases found with
  | var declaredName initializer =>
      cases declared
      exact wellFormed.1
  | function declaration =>
      cases declared
      cases declaration
      exact wellFormed.1
  | classDecl declaredName superclass declarations =>
      cases declared
      exact wellFormed.1
  | _ => cases declared

/-- Behind a statement, the name it declares is in the scopes and bound. -/
theorem Machine.StandsIn.after {machine after : Machine} {enclosing : ClassKind} {scopes : Scopes}
    (stands : machine.StandsIn enclosing scopes) (fits : machine.Fits placed)
    (kept : machine.Kept placed after) {found : Stmt} (wellFormed : found.WellFormed) {fuel : Nat}
    {flow : Flow} (ran : Eval.statement fuel found machine = .ok flow after) :
    after.StandsIn enclosing (found.after scopes) := by
  unfold Stmt.after
  split
  next name declared =>
    have named := isName_of_declared wellFormed declared
    refine ⟨stands.settled.mark named, (kept.chain stands.chain).mark named ?_⟩
    rw [kept.env]
    exact Eval.binds_declared declared machine after flow
      (stands.chain.lt fits.store.inhabited) ran
  next => exact stands.kept kept

/-- **A part of a task that fits, fits** where the machine is kept up to it. -/
theorem fits_part {moment next : Moment} (fits : moment.Fits placed) (begins : Begins moment next)
    (stays : moment.task.opensScope = false) (kept : moment.machine.Kept placed next.machine)
    (handed : next.task.Handed (Value.Fits placed next.machine.store)) : next.Fits placed := by
  obtain ⟨machine, task⟩ := fits
  refine ⟨kept.fits, ?_⟩
  cases begins with
  | body | block => cases stays
  | call => exact handed
  | @apply _ _ _ _ _ callable _ arity =>
      exact ⟨by cases callable <;> exact handed.1, handed.2, arity⟩
  | applyClosure => exact ⟨handed.1, handed.2, task.2.2⟩
  | initializer found =>
      refine ⟨handed.1, handed.2, ?_⟩
      rw [task.2.2, Callable.arity, Class.arity, found]
      rfl
  | grouping | getObject =>
      obtain ⟨enclosing, scopes, reads, wellFormed, inside⟩ := task
      exact ⟨enclosing, scopes, reads.kept kept, wellFormed, inside⟩
  | unary =>
      obtain ⟨enclosing, scopes, reads, wellFormed, inside⟩ := task
      exact ⟨enclosing, scopes, reads.kept kept, wellFormed.2, inside⟩
  | binaryLeft =>
      obtain ⟨enclosing, scopes, reads, wellFormed, inside⟩ := task
      exact ⟨enclosing, scopes, reads.kept kept, wellFormed.2.1, inside.1⟩
  | binaryRight =>
      obtain ⟨enclosing, scopes, reads, wellFormed, inside⟩ := task
      exact ⟨enclosing, scopes, reads.kept kept, wellFormed.2.2, inside.2⟩
  | assigned =>
      obtain ⟨enclosing, scopes, reads, wellFormed, inside⟩ := task
      exact ⟨enclosing, scopes, reads.kept kept, wellFormed.2, inside.1⟩
  | logicalLeft | callee | setObject | firstExpression =>
      obtain ⟨enclosing, scopes, reads, wellFormed, inside⟩ := task
      exact ⟨enclosing, scopes, reads.kept kept, wellFormed.1, inside.1⟩
  | logicalRight | arguments | setValue | otherExpressions =>
      obtain ⟨enclosing, scopes, reads, wellFormed, inside⟩ := task
      exact ⟨enclosing, scopes, reads.kept kept, wellFormed.2, inside.2⟩
  | expression | printed =>
      obtain ⟨around, scopes, stands, wellFormed, inside⟩ := task
      exact ⟨around.enclosing, scopes, (stands.kept kept).readsIn, wellFormed, inside⟩
  | returned =>
      obtain ⟨around, scopes, stands, wellFormed, inside⟩ := task
      exact ⟨around.enclosing, scopes, (stands.kept kept).readsIn, wellFormed, inside.2⟩
  | initial =>
      obtain ⟨around, scopes, stands, wellFormed, inside⟩ := task
      have later := stands.kept kept
      exact ⟨around.enclosing, _, ⟨later.settled.declared wellFormed.1, later.chain.declare _⟩,
        wellFormed.2, inside.2⟩
  | @condition _ _ _ _ elseBranch =>
      obtain ⟨around, scopes, stands, wellFormed, inside⟩ := task
      have reads := (stands.kept kept).readsIn
      cases elseBranch <;> exact ⟨around.enclosing, scopes, reads, wellFormed.1, inside.1⟩
  | @thenBranch _ _ _ _ _ elseBranch =>
      obtain ⟨around, scopes, stands, wellFormed, inside⟩ := task
      cases elseBranch with
      | none => exact ⟨around, scopes, stands.kept kept, wellFormed.2.1, inside.2⟩
      | some branch => exact ⟨around, scopes, stands.kept kept, wellFormed.2.1.1, inside.2.1⟩
  | elseBranch =>
      obtain ⟨around, scopes, stands, wellFormed, inside⟩ := task
      exact ⟨around, scopes, stands.kept kept, wellFormed.2.2.1, inside.2.2⟩
  | loop | nextRound =>
      obtain ⟨around, scopes, stands, wellFormed, inside⟩ := task
      exact ⟨around, scopes, stands.kept kept, wellFormed, inside⟩
  | superclass =>
      obtain ⟨around, scopes, stands, ⟨_, isName, _⟩, _, other, above, _⟩ := task
      obtain ⟨wellFormed, inside⟩ := scoped_superclass isName other above
      exact ⟨around.enclosing, scopes, (stands.kept kept).readsIn, wellFormed, inside _⟩
  | firstStatement =>
      obtain ⟨around, scopes, stands, wellFormed, inside⟩ := task
      exact ⟨around, scopes, stands.kept kept, wellFormed.1, inside.1⟩
  | otherStatements ran =>
      obtain ⟨around, scopes, stands, wellFormed, inside⟩ := task
      exact ⟨around, _, stands.after machine kept wellFormed.1 ran, wellFormed.2, inside.2⟩
  | roundCondition =>
      obtain ⟨around, scopes, stands, wellFormed, inside⟩ := task
      exact ⟨around.enclosing, scopes, (stands.kept kept).readsIn, wellFormed.1, inside.1⟩
  | roundBody =>
      obtain ⟨around, scopes, stands, wellFormed, inside⟩ := task
      exact ⟨around, scopes, stands.kept kept, wellFormed.2.1, inside.2⟩

/-- The statements in the body of a function that fits. -/
theorem fits_body {fuel : Nat} {machine : Machine} {closure : Closure} {values : List Value}
    (fits : Moment.Fits placed ⟨fuel + 1, .applyClosure closure values, machine⟩) :
    Moment.Fits placed ⟨fuel, .statements closure.declaration.body,
      machine.inBody closure values⟩ := by
  obtain ⟨fitsMachine, ⟨around, scopes, fits⟩, fitsValues, arity⟩ := fits
  obtain ⟨declaration, env, isInitializer⟩ := closure
  obtain ⟨id, name, params, body⟩ := declaration
  obtain ⟨settled, ⟨_, named, wellFormed⟩, ⟨_, inside⟩, chain⟩ := fits
  exact ⟨⟨fitsMachine.table, fitsMachine.store.childWith _ _ _ fitsValues⟩, around,
    Scopes.ofParams params :: scopes,
    ⟨settled.function named, chain.childWith (Store.holds_ofParams _ _ named arity)⟩,
    wellFormed, inside⟩

/-- The name that a task binds is one that variables have. -/
theorem Task.Fits.isName {machine : Machine} {task : Task} (fits : task.Fits placed machine)
    {name : Token} (bound : task.bound? = some name) : name.IsName := by
  unfold Task.bound? at bound
  split at bound
  · cases bound
    obtain ⟨_, _, _, wellFormed, _⟩ := fits
    exact wellFormed.1
  · cases bound
    obtain ⟨_, _, _, wellFormed, _⟩ := fits
    exact wellFormed.1
  · cases bound

end Begun

/-! ## Operators -/

namespace Operator

/-- An operator that stands in front of an operand means something. -/
theorem cause_unary {operator : Token} (legal : Reader.isUnaryOperator operator = true)
    {operand : Value} {cause : RuntimeCause} (ended : unary operator operand = .error cause) :
    cause = .operandNotNumber := by
  unfold unary at ended
  split at ended
  · split at ended
    · cases ended
    · cases ended
      rfl
  · cases ended
  next notMinus notBang =>
    simp only [Reader.isUnaryOperator, Token.isPunct, Bool.or_eq_true] at legal
    split at legal
    next mark kind =>
      rcases legal with bang | minus
      · exact absurd (kind.trans (congrArg _ (eq_of_beq bang))) notBang
      · exact absurd (kind.trans (congrArg _ (eq_of_beq minus))) notMinus
    next => simp at legal

/-- Every operator that joins two values means something for numbers. -/
theorem arithmetic_isOk {operator : Token} (legal : Expr.isBinaryOperator operator = true)
    (notSum : operator.kind ≠ .punct .plus) (notEqual : operator.kind ≠ .punct .equalEqual)
    (notDistinct : operator.kind ≠ .punct .bangEqual) (left right : Float) :
    ∃ value, arithmetic operator left right = .ok value := by
  simp only [Expr.isBinaryOperator, Tier.isOperator, Token.isPunct] at legal
  unfold arithmetic
  cases kind : operator.kind with
  | punct mark =>
      rw [kind] at legal notSum notEqual notDistinct
      cases mark with
      | plus => exact absurd rfl notSum
      | equalEqual => exact absurd rfl notEqual
      | bangEqual => exact absurd rfl notDistinct
      | minus | star | slash | greater | greaterEqual | less | lessEqual => exact ⟨_, rfl⟩
      | _ => simp at legal
  | _ =>
      rw [kind] at legal
      simp at legal

theorem cause_binary {operator : Token} (legal : Expr.isBinaryOperator operator = true)
    {left right : Value} {cause : RuntimeCause}
    (ended : binary operator left right = .error cause) :
    cause = .operandsNotAddable ∨ cause = .operandsNotNumbers := by
  unfold binary at ended
  split at ended
  · unfold sum at ended
    split at ended <;> cases ended
    exact .inl rfl
  · cases ended
  · cases ended
  next notSum notEqual notDistinct =>
    split at ended
    next first second =>
      obtain ⟨value, result⟩ := arithmetic_isOk legal notSum notEqual notDistinct first second
      rw [result] at ended
      cases ended
    next =>
      cases ended
      exact .inr rfl

end Operator

/-! ## The discipline -/

/-- Tasks fit, and machines and values go on to fit. -/
def fitting (placed : Placing) : Discipline where
  holds := Moment.Fits placed
  keeps := Machine.Kept placed
  good := Value.Fits placed
  explains := Moment.Explains

variable {placed : Placing}

section Classes

variable {machine : Machine} {explains : RuntimeError → Prop}

/-- A name that the innermost frame binds is found there. -/
theorem Eval.holder_of_bound {store : Store} {env : Env} {name : String}
    (bound : (store.findIn? env name).isSome) : store.holder env name = .ok env := by
  have first : ∃ outer, store.chain env = env :: outer := by
    rw [Store.chain]
    split
    · split
      · exact ⟨_, rfl⟩
      · exact ⟨[], rfl⟩
    · exact ⟨[], rfl⟩
  obtain ⟨outer, chain⟩ := first
  simp only [Store.holder, chain, List.find?_cons, bound]

theorem Eval.fitting_reassign (fits : machine.Fits placed) {name : Token} (named : name.IsName)
    (bound : (machine.store.findIn? machine.env name.lexeme).isSome) {value : Value}
    (fitsValue : value.Fits placed machine.store) :
    (fitting placed).Ended machine explains Discipline.done (reassign name value machine) := by
  simp only [reassign, holder_of_bound bound]
  exact ⟨fits.kept_bindIn _ named fitsValue, trivial⟩

/-- The environment of the methods matches the scopes around them, but for the
one with `this`. -/
theorem Eval.fitting_methodEnv (fits : machine.Fits placed) {superclass : Option Class}
    (fitsParent : ∀ parent, superclass = some parent → parent.Fits placed machine.store)
    {expression? : Option Expr} (both : superclass.isSome = expression?.isSome) {scopes : Scopes}
    (chain : machine.store.Matches scopes machine.env) :
    (fitting placed).Ended machine explains
      (fun store env => store.Matches (scopes.aroundMethods expression?).tail env)
      (methodEnv superclass machine) := by
  cases superclass with
  | none =>
      cases expression? with
      | none => exact ⟨.refl fits, chain⟩
      | some found => cases both
  | some parent =>
      cases expression? with
      | none => cases both
      | some found =>
          have suits : (Value.cls parent).Suits "super" :=
            ⟨fun same => absurd same (by decide), fun _ => ⟨parent, rfl⟩⟩
          refine ⟨fits.kept (Store.extends_childWith _ _ _ _) (fits.store.childWith _ _ _ ?_),
            chain.childWith (Store.holds_single _ _ suits)⟩
          intro value member
          rw [List.mem_singleton.mp member]
          exact fitsParent parent rfl

theorem Eval.fitting_newClass (fits : machine.Fits placed) (name : String)
    {superclass : Option Class}
    (fitsParent : ∀ parent, superclass = some parent → parent.Fits placed machine.store)
    {own : MethodTable} (fitsOwn : ∀ name method, own.find? name = some method →
      ∃ around scopes, method.FitsBound placed machine.store around scopes) :
    (fitting placed).Ended machine explains (fun store cls => cls.Fits placed store)
      (newClass name superclass own machine) := by
  refine ⟨fits.kept (.of_frames rfl) (fits.store.newClass name superclass own), ?_⟩
  have tables : Class.Fits placed machine.store (machine.store.newClass name superclass own).1 :=
    machine.store.every_newClass name fitsParent fitsOwn
  exact Class.Fits.mono tables (.refl placed) (.of_frames rfl)

theorem Eval.fitting_declareClass (fits : machine.Fits placed) {enclosing : ClassKind}
    {scopes : Scopes} (stands : machine.StandsIn enclosing scopes) {name : Token}
    (named : name.IsName) {superclass : Option Class}
    (fitsParent : ∀ parent, superclass = some parent → parent.Fits placed machine.store)
    {expression? : Option Expr} (both : superclass.isSome = expression?.isSome)
    {declarations : List FunctionDecl} (wellFormed : FunctionDecl.AllWellFormed declarations)
    (inside : FunctionDecl.AllScoped placed (classKind expression?)
      ((scopes.mark name.lexeme true).aroundMethods expression?) declarations) :
    (fitting placed).Ended machine explains Discipline.done
      (declareClass name superclass declarations machine) := by
  have defines : (fitting placed).Ended machine explains Discipline.done
      (define name.lexeme .nil machine) := ⟨fits.kept_bindIn _ named trivial, trivial⟩
  refine .andThen Machine.Kept.trans defines fun _ defined ran kept _ => ?_
  have bound : (defined.store.findIn? defined.env name.lexeme).isSome := by
    cases ran
    rw [Store.define, Store.findIn?_bindIn_self (stands.chain.lt fits.store.inhabited)]
    rfl
  have chain := (kept.chain stands.chain).mark named bound
  have settled := (stands.settled.mark named).aroundMethods expression?
  refine .andThen Machine.Kept.trans (fitting_methodEnv kept.fits (fun parent same =>
    (fitsParent parent same).mono (.refl placed) kept.store) both chain)
      fun closed around _ keptAround chainClosed => ?_
  refine .andThen Machine.Kept.trans (fitting_newClass keptAround.fits name.lexeme
    (fun parent same => ((fitsParent parent same).mono (.refl placed) kept.store).mono
      (.refl placed) keptAround.store) fun _ _ found =>
        fits_methodTable settled chainClosed declarations wellFormed inside found)
      fun cls made _ keptMade fitsClass => ?_
  refine fitting_reassign keptMade.fits named ?_ fitsClass
  rw [keptMade.env, keptAround.env]
  exact keptMade.store.bound _ _ (keptAround.store.bound _ _ bound)

end Classes

/-- A function is bound where it fits: its own name is bound there too, so that it
may call itself. -/
theorem kept_function {fuel : Nat} {machine : Machine} {declaration : FunctionDecl}
    (fits : Moment.Fits placed ⟨fuel + 1, .statement (.function declaration), machine⟩) :
    machine.Kept placed { machine with
      store := machine.store.define machine.env declaration.name.lexeme
        (.function ⟨declaration, machine.env, false⟩) } := by
  obtain ⟨fitsMachine, around, scopes, stands, wellFormed, inside⟩ := fits
  have named : declaration.name.IsName := isName_of_declared wellFormed rfl
  have bound := Store.findIn?_bindIn_self (stands.chain.lt fitsMachine.store.inhabited)
    declaration.name.lexeme (.function ⟨declaration, machine.env, false⟩)
  have extended := Store.extends_bindIn machine.store machine.env named
    (.function ⟨declaration, machine.env, false⟩)
  have closure : Closure.Fits placed (machine.store.bindIn machine.env declaration.name.lexeme
      (.function ⟨declaration, machine.env, false⟩)) ⟨declaration, machine.env, false⟩ :=
    ⟨{ around with body := .function }, _, stands.settled.mark named, wellFormed, inside.2,
      (stands.chain.mono extended).mark named (Option.isSome_iff_exists.mpr ⟨_, bound⟩)⟩
  exact fitsMachine.kept extended (fitsMachine.store.bindIn _ named closure)

/-- The faults of a task that fits are explained. -/
theorem explains_of_raises {moment : Moment} {machine : Machine} {error : RuntimeError}
    (fits : moment.Fits placed) (kept : moment.machine.Kept placed machine)
    (raises : moment.Raises machine error) : moment.Explains error := by
  cases raises with
  | other ordinary => exact Moment.explains_of_ordinary _ ordinary
  | unary failed =>
      obtain ⟨_, _, _, _, wellFormed, _⟩ := fits
      rw [Operator.cause_unary wellFormed.1 failed]
      exact Moment.explains_of_ordinary _ rfl
  | binary failed =>
      obtain ⟨_, _, _, _, wellFormed, _⟩ := fits
      rcases Operator.cause_binary wellFormed.1 failed with rfl | rfl
      · exact Moment.explains_of_ordinary _ rfl
      · exact Moment.explains_of_ordinary _ rfl
  | @lookUp _ machine _ occurrence _ node failed =>
      obtain ⟨fitsMachine, enclosing, scopes, reads, wellFormed, inside⟩ := fits
      have agrees := reads.agrees fitsMachine wellFormed inside
      rcases node with rfl | rfl
      · obtain ⟨unplaced, rfl⟩ := Machine.cause_of_value agrees failed
        have raised : ∀ fuel, Eval.expression (fuel + 1) (.var occurrence) machine =
            .error (.fault ⟨.undefinedVariable occurrence.name, occurrence.line⟩) machine := by
          intro fuel
          simp only [Eval.expression, Eval.lookUp, failed]
          rfl
        exact Moment.Misses.explains (.intro (.inl rfl) unplaced (raised _))
      · have found : machine.Agrees (.var occurrence) := by
          intro distance recorded
          obtain ⟨frame, object, reached, bound⟩ := agrees distance recorded
          exact ⟨frame, reached, Option.isSome_iff_exists.mpr ⟨_, bound⟩⟩
        have unplaced := (Machine.cause_of_value found failed).1
        have known := reads.ready.provides.this inside.1
        rw [← show occurrence.name = "this" from wellFormed, ← fitsMachine.table _ _ inside.2,
          unplaced] at known
        cases known
  | @assign fuel start _ occurrence value _ _ ran failed =>
      obtain ⟨_, enclosing, scopes, reads, wellFormed, inside⟩ := fits
      have agrees := (reads.kept kept).agrees kept.fits wellFormed inside
      obtain ⟨unplaced, rfl⟩ := Machine.cause_of_target agrees failed
      rw [show machine.distances = start.distances from
        (((Eval.restoredAt fuel).expression value).of_ok ran).distances] at unplaced
      have raised : Eval.expression (fuel + 1) (.assign occurrence value) start =
          .error (.fault ⟨.undefinedVariable occurrence.name, occurrence.line⟩) machine := by
        simp only [Eval.expression, Bind.bind, EStateM.bind, ran, Eval.assign, failed]
        rfl
      exact Moment.Misses.explains (.intro (.inr ⟨value, rfl⟩) unplaced raised)
  | super failed =>
      obtain ⟨fitsMachine, enclosing, scopes, reads, wellFormed, inside⟩ := fits
      have agrees := reads.agrees fitsMachine wellFormed inside
      obtain ⟨rfl, here⟩ := inside
      obtain ⟨inner, _, _, _, _, known, _⟩ := reads.super
      rw [← show Occurrence.name _ = "super" from wellFormed] at known
      refine absurd failed (Machine.superBinding?_ne_none ?_ agrees)
      rw [fitsMachine.table _ _ here, known]
      rfl

theorem fitting_laws : (fitting placed).Laws where
  handed {moment} fits := by
    obtain ⟨_, task, machine⟩ := moment
    have given := fits.task
    cases task with
    | call => exact given
    | apply callable values => exact ⟨by cases callable <;> exact given.1, given.2.1⟩
    | applyClosure => exact ⟨given.1, given.2.1⟩
    | _ => trivial
  here fits := .refl fits.machine
  settled kept := .refl kept.fits
  trans := .trans
  later kept fits := fits.later kept.store
  plain := Value.IsPlain.fits
  owner fits := fits
  within kept := ⟨rfl, kept.store, kept.fits.table, kept.fits.store⟩
  nested kept := ⟨kept.env, kept.store, kept.fits.table, kept.fits.store⟩
  outside kept _ _ := ⟨rfl, .refl _, kept.fits.table, kept.fits.store⟩
  bound kept := kept.fits.store.bound _ _ _
  fields kept := kept.fits.store.fields _ _ _
  setField object name _ kept fits :=
    kept.fits.kept (.of_frames rfl) (kept.fits.store.setField object name fits)
  childWith env names _ kept fits := kept.fits.kept (Store.extends_childWith _ env names _)
    (kept.fits.store.childWith env names _ fits)
  newInstance {_ cls} kept fits :=
    have extended := Store.extends_newInstance _ cls
    ⟨kept.fits.kept extended (kept.fits.store.newInstance cls),
      Class.Fits.mono fits (.refl _) extended⟩
  bindMethod {_ _ _ _ method object} _ kept fits found receiver _ := by
    obtain ⟨around, scopes, bound⟩ := Class.Every.findMethod? fits found
    exact ⟨kept.fits.kept (Store.extends_bindMethod _ method object)
      (kept.fits.store.bindMethod method receiver), Store.fits_bindMethod _ bound object⟩
  bindIn frame _ _ fits bound kept fitting :=
    kept.fits.kept_bindIn frame (fits.task.isName bound) fitting
  function := kept_function
  declareClass {_ declared} fits happened kept above := by
    have both := happened.isSome_parent
    cases happened.begun
    obtain ⟨_, around, scopes, stands, ⟨named, _, wellFormed⟩, _, _, _, inside⟩ := fits
    exact Eval.fitting_declareClass kept.fits (stands.kept kept) named above both wellFormed inside
  part := fits_part
  apply fits found arity _ := by
    obtain ⟨machine, called, values⟩ := fits
    exact ⟨⟨machine.table, machine.store⟩, Value.Fits.callable called found, values, arity⟩
  body := fits_body
  block fits := by
    obtain ⟨machine, around, scopes, stands, wellFormed, inside⟩ := fits
    exact ⟨⟨machine.table, machine.store.child _⟩, around, [] :: scopes,
      ⟨stands.settled.block, stands.chain.child⟩, wellFormed, inside⟩
  begun begins explained := explained.begun begins
  raises := explains_of_raises

/-- **Every moment of a run fits** if the first one does. -/
theorem fits_of_visits {moment last : Moment} (visits : Visits moment last)
    (fits : moment.Fits placed) : last.Fits placed :=
  fitting_laws.visits fits visits

end LoxLang
