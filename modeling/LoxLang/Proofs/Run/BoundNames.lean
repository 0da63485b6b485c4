import LoxLang.Proofs.Run.Soundness

/-!
# Where names are bound

A run binds names in the frames that it opens, and in those that were there
before. The second is what a declaration does to the frame it stands in, and
nothing else does it: an assignment finds its name bound in the frame that its
distance leads to. There is one exception. In the initializer of a variable, the
name of the variable is declared already and not bound yet, so an assignment to it
comes before the declaration that binds it.

`Store.Gains` says which names the frames of a store may have gained. A block and
a call let the frames around them gain nothing, because what they declare goes to
a frame of their own (`Eval.addsAt`).
-/

namespace LoxLang

set_option autoImplicit false

open Resolution

/-! ## Stores that gain names -/

/-- Of the frames that were there, each binds the names it did and besides them
only names that it is permitted to. -/
structure Store.Gains (permitted : Env → String → Prop) (before after : Store) : Prop where
  size : before.frames.size ≤ after.frames.size
  names : ∀ frame < before.frames.size, ∀ name, (after.findIn? frame name).isSome →
    (before.findIn? frame name).isSome ∨ permitted frame name

namespace Store

variable {permitted wider : Env → String → Prop} {before middle after : Store}

namespace Gains

theorem refl (store : Store) : store.Gains permitted store :=
  ⟨Nat.le_refl _, fun _ _ _ bound => .inl bound⟩

theorem of_frames (same : after.frames = before.frames) : before.Gains permitted after :=
  ⟨Nat.le_of_eq (by rw [same]), fun frame _ name bound =>
    .inl (by simpa only [findIn?, same] using bound)⟩

theorem mono (gains : before.Gains permitted after)
    (weaker : ∀ frame name, permitted frame name → wider frame name) :
    before.Gains wider after :=
  ⟨gains.size, fun frame inside name bound => (gains.names frame inside name bound).imp_right
    (weaker frame name)⟩

theorem trans (earlier : before.Gains permitted middle) (later : middle.Gains permitted after) :
    before.Gains permitted after where
  size := Nat.le_trans earlier.size later.size
  names frame inside name bound := by
    rcases later.names frame (Nat.lt_of_lt_of_le inside earlier.size) name bound with old | allowed
    · exact earlier.names frame inside name old
    · exact .inr allowed

/-- What new frames gain does not matter to the old ones. -/
theorem beyond (earlier : before.Gains wider middle) (later : middle.Gains permitted after)
    (outside : ∀ frame name, permitted frame name → before.frames.size ≤ frame) :
    before.Gains wider after where
  size := Nat.le_trans earlier.size later.size
  names frame inside name bound := by
    rcases later.names frame (Nat.lt_of_lt_of_le inside earlier.size) name bound with old | allowed
    · exact earlier.names frame inside name old
    · exact absurd (outside frame name allowed) (Nat.not_le.mpr inside)

/-- The old frames gain nothing if only new ones may. -/
theorem old (gains : before.Gains permitted after)
    (outside : ∀ frame name, permitted frame name → before.frames.size ≤ frame) :
    before.Gains wider after :=
  (Gains.refl before).beyond gains outside

end Gains

/-- Binding a name that is bound already, or that may be. -/
theorem gains_bindIn {store : Store} {frame : Env} {name : String}
    (legal : (store.findIn? frame name).isSome ∨ permitted frame name) (value : Value) :
    store.Gains permitted (store.bindIn frame name value) where
  size := Nat.le_of_eq (size_bindIn store frame name value).symm
  names other _ found bound := by
    rw [findIn?_bindIn] at bound
    split at bound
    next here =>
      obtain ⟨rfl, rfl, -⟩ := here
      exact legal
    next => exact .inl bound

theorem gains_child (store : Store) (env : Env) : store.Gains permitted (store.child env).2 where
  size := by simp [child]
  names frame _ name bound := .inl (by rwa [findIn?_child] at bound)

theorem gains_defineAll (env : Env) : ∀ (names : List String) (values : List Value)
    (store : Store), store.Gains (fun frame _ => frame = env) (store.defineAll env names values)
  | [], _, store => .refl store
  | _ :: _, [], store => .refl store
  | _ :: names, value :: values, _ =>
    (gains_bindIn (.inr rfl) value).trans (gains_defineAll env names values _)

theorem gains_childWith (store : Store) (env : Env) (names : List String) (values : List Value) :
    store.Gains permitted ((store.child env).2.defineAll (store.child env).1 names values) :=
  (store.gains_child env).beyond (gains_defineAll _ names values _)
    fun _ _ here => Nat.le_of_eq here.symm

theorem gains_bindMethod (store : Store) (method : Closure) (object : Instance) :
    store.Gains permitted (store.bindMethod method object).2 := by
  have bound : (store.child method.env).2.Gains (fun frame _ => frame = store.frames.size)
      (store.bindMethod method object).2 := gains_bindIn (.inr rfl) _
  exact (store.gains_child method.env).beyond bound fun _ _ here => Nat.le_of_eq here.symm

end Store

/-! ## Steps -/

namespace Eval

variable {Result Other : Type} {permitted : Env → String → Prop} {start machine : Machine}

/-- The names that a step has bound in the frames that were there, whichever way
it ended. -/
def Adds (permitted : Env → String → Prop) (start : Machine)
    (outcome : EStateM.Result Interrupt Machine Result) : Prop :=
  start.store.Gains permitted (reached outcome).store

namespace Adds

theorem bind {step : Eval Result} {next : Result → Eval Other}
    (first : Adds permitted start (step start))
    (second : ∀ result after, step start = .ok result after →
      Adds permitted after (next result after)) :
    Adds permitted start ((step >>= next) start) := by
  simp only [Bind.bind, EStateM.bind]
  cases ran : step start with
  | error interrupt after => rwa [ran] at first
  | ok result after =>
      rw [ran] at first
      exact Store.Gains.trans first (second result after ran)

theorem map {step : Eval Result} (change : Result → Other)
    (first : Adds permitted start (step start)) :
    Adds permitted start ((change <$> step) start) := by
  simp only [Functor.map, EStateM.map]
  cases ran : step start with
  | error interrupt after => rwa [ran] at first
  | ok result after => rwa [ran] at first

theorem within {step : Eval Result} {env : Env}
    (inner : Adds permitted { start with env := env } (step { start with env := env })) :
    Adds permitted start (Eval.within env step start) := by
  rw [Adds, within_eq, reached_onMachine]
  exact inner

theorem nested {step : Eval Result}
    (inner : Adds permitted { start with depth := start.depth + 1 }
      (step { start with depth := start.depth + 1 })) :
    Adds permitted start (Eval.nested step start) := by
  rw [Adds, nested_eq, reached_onMachine]
  exact inner

end Adds

/-! ## The steps of the machine -/

theorem adds_same (machine : Machine) (outcome : EStateM.Result Interrupt Machine Result)
    (same : (reached outcome).store.frames = machine.store.frames) :
    Adds permitted machine outcome :=
  .of_frames same

theorem adds_lift (token : Token) (result : Except RuntimeCause Value) :
    Adds permitted machine (lift token result machine) := by
  cases result <;> exact .refl _

theorem adds_checkDepth (paren : Token) : Adds permitted machine (checkDepth paren machine) := by
  unfold checkDepth
  split <;> exact .refl _

theorem adds_lookUp (occurrence : Occurrence) :
    Adds permitted machine (lookUp occurrence machine) := by
  unfold lookUp
  split <;> exact .refl _

theorem adds_define {name : String} (legal : permitted machine.env name) (value : Value) :
    Adds permitted machine (define name value machine) :=
  Store.gains_bindIn (.inr legal) value

theorem bound_of_holder {store : Store} {env frame : Env} {name : String}
    (found : store.holder env name = .ok frame) : (store.findIn? frame name).isSome := by
  unfold Store.holder at found
  split at found
  next holder here =>
    cases found
    simpa using List.find?_some here
  next => cases found

theorem adds_reassign (name : Token) (value : Value) :
    Adds permitted machine (reassign name value machine) := by
  unfold reassign
  split
  next frame found => exact Store.gains_bindIn (.inl (bound_of_holder found)) value
  next => exact .refl _

theorem adds_bindMethod (method : Closure) (object : Instance) :
    Adds permitted machine (bindMethod method object machine) :=
  machine.store.gains_bindMethod method object

theorem adds_property (object : Instance) (name : Token) :
    Adds permitted machine (property object name machine) := by
  unfold property
  split
  · exact .refl _
  · split
    · exact .map _ (adds_bindMethod _ object)
    · exact .refl _

theorem adds_superMethod (occurrence : Occurrence) (method : Token) :
    Adds permitted machine (superMethod occurrence method machine) := by
  unfold superMethod
  split
  · exact .refl _
  · split
    · exact .map _ (adds_bindMethod _ _)
    · exact .refl _

theorem adds_printLine (text : String) : Adds permitted machine (printLine text machine) := by
  simp only [printLine]
  split <;> exact .refl _

theorem adds_flush : Adds permitted machine (flush machine) := by
  unfold flush
  split <;> exact .refl _

theorem adds_callResult (closure : Closure) (flow : Flow) :
    Adds permitted machine (callResult closure flow machine) := by
  unfold callResult
  split
  · exact .refl _
  · cases flow <;> exact .refl _

theorem adds_methodEnv (superclass : Option Class) :
    Adds permitted machine (methodEnv superclass machine) := by
  cases superclass with
  | none => exact .refl _
  | some parent => exact machine.store.gains_childWith machine.env _ _

/-- A class binds its name and nothing else. -/
theorem adds_declareClass {name : Token} (legal : permitted machine.env name.lexeme)
    (superclass : Option Class) (declarations : List FunctionDecl) :
    Adds permitted machine (declareClass name superclass declarations machine) := by
  refine .bind (adds_define legal _) fun _ _ _ => ?_
  refine .bind (adds_methodEnv superclass) fun _ _ _ => ?_
  exact .bind (adds_same _ _ rfl) fun _ _ _ => adds_reassign name _

/-- What an expression may bind: a name that the innermost scope has declared and
not defined. -/
def pending (scopes : Scopes) (env frame : Env) (name : String) : Prop :=
  frame = env ∧ ¬ scopes.Readable name

/-- An assignment finds its name bound, unless it is pending. -/
theorem adds_assign {placed : Placing} (fits : machine.Fits placed) {enclosing : ClassKind}
    {scopes : Scopes} (reads : machine.ReadsIn enclosing scopes) {occurrence : Occurrence}
    (here : placed occurrence.id (distance? occurrence.name scopes)) (value : Value) :
    Adds (pending scopes machine.env) machine (assign occurrence value machine) := by
  have recorded := fits.table _ _ here
  unfold assign
  cases found : distance? occurrence.name scopes with
  | none =>
      rw [found] at recorded
      simp only [Machine.target, recorded]
      split
      next frame bound => exact Store.gains_bindIn (.inl (bound_of_holder bound)) value
      next => exact .refl _
  | some distance =>
      rw [found] at recorded
      obtain ⟨scope, there, known⟩ := Scopes.exists_scope_of_distance? found
      obtain ⟨frame, ancestor, holds⟩ := reads.chain.ancestor there
      simp only [Machine.target, recorded, Store.frameAt, ancestor]
      refine Store.gains_bindIn ?_ value
      obtain ⟨flag, flagged⟩ := Option.isSome_iff_exists.mp known
      cases flag with
      | true =>
          obtain ⟨bound, stored, _⟩ := holds occurrence.name flagged
          exact .inl (Option.isSome_iff_exists.mpr ⟨bound, stored⟩)
      | false =>
          cases scopes with
          | nil => cases there
          | cons first outer =>
              cases distance with
              | zero =>
                  cases there
                  cases ancestor
                  exact .inr ⟨rfl, fun readable => readable flagged⟩
              | succ distance =>
                  exact absurd flagged (reads.ready.outer scope (List.mem_of_getElem? there) _)

end Eval

/-! ## The rules of evaluation -/

/-- A statement declares a name where it stands. -/
def Stmt.Declares (found : Stmt) (name : String) : Prop :=
  ∃ token, found.declared? = some token ∧ token.lexeme = name

namespace Scopes

variable {enclosing : ClassKind} {scopes : Scopes}

/-- No name is pending around a statement. -/
theorem Settled.readable (settled : Settled enclosing scopes) (name : String) :
    scopes.Readable name := by
  cases scopes with
  | nil => trivial
  | cons scope outer => exact settled.defined scope List.mem_cons_self name

/-- In the initializer of a variable, its name is pending and no other. -/
theorem Settled.eq_of_pending (settled : Settled enclosing scopes) {declared name : String}
    (pending : ¬ (scopes.mark declared false).Readable name) : name = declared := by
  cases scopes with
  | nil => exact absurd trivial pending
  | cons scope outer =>
      by_cases same : name = declared
      · exact same
      · refine absurd (fun flagged => ?_) pending
        rw [Bindings.find?_insert_of_ne same] at flagged
        exact settled.readable name flagged

end Scopes

theorem Stmt.not_declares {found : Stmt} (plain : found.isDeclaration = false) (name : String) :
    ¬ found.Declares name := by
  rintro ⟨token, declared, -⟩
  cases found with
  | var => cases plain
  | function => cases plain
  | classDecl => cases plain
  | _ => cases declared

theorem Moment.Fits.begun {placed : Placing} {moment next : Moment} (fits : moment.Fits placed)
    (begins : Begins moment next) : next.Fits placed :=
  fits_of_visits (.begun begins (.here next)) fits

namespace Eval

/-- No name at all. -/
abbrev nothing (_ : Env) (_ : String) : Prop := False

/-- What the rules bind in the frames that are there, with a certain amount of
fuel. -/
structure AddsAt (placed : Placing) (fuel : Nat) : Prop where
  expression : ∀ {machine : Machine} {enclosing : ClassKind} {scopes : Scopes} {found : Expr},
    machine.Fits placed → machine.ReadsIn enclosing scopes → found.WellFormed →
      found.Scoped placed enclosing scopes →
        Adds (pending scopes machine.env) machine (expression fuel found machine)
  expressions : ∀ {machine : Machine} {enclosing : ClassKind} {scopes : Scopes}
    {found : List Expr}, machine.Fits placed → machine.ReadsIn enclosing scopes →
      Expr.AllWellFormed found → Expr.AllScoped placed enclosing scopes found →
        Adds (pending scopes machine.env) machine (expressions fuel found machine)
  call : ∀ {machine : Machine} {paren : Token} {called : Value} {values : List Value},
    Moment.Fits placed ⟨fuel, .call paren called values, machine⟩ →
      Adds nothing machine (call fuel paren called values machine)
  apply : ∀ {machine : Machine} {callable : Callable} {values : List Value},
    Moment.Fits placed ⟨fuel, .apply callable values, machine⟩ →
      Adds nothing machine (apply fuel callable values machine)
  applyClosure : ∀ {machine : Machine} {closure : Closure} {values : List Value},
    Moment.Fits placed ⟨fuel, .applyClosure closure values, machine⟩ →
      Adds nothing machine (applyClosure fuel closure values machine)
  statement : ∀ {machine : Machine} {found : Stmt},
    Moment.Fits placed ⟨fuel, .statement found, machine⟩ →
      Adds (fun frame name => frame = machine.env ∧ found.Declares name) machine
        (statement fuel found machine)
  statements : ∀ {machine : Machine} {found : List Stmt},
    Moment.Fits placed ⟨fuel, .statements found, machine⟩ →
      Adds (fun frame name => frame = machine.env ∧ ∃ first ∈ found, first.Declares name) machine
        (statements fuel found machine)
  rounds : ∀ {machine : Machine} {condition : Expr} {body : Stmt},
    Moment.Fits placed ⟨fuel, .rounds condition body, machine⟩ →
      Adds nothing machine (rounds fuel condition body machine)

namespace AddsAt

variable {placed : Placing} {fuel : Nat} {machine : Machine}

theorem zero : AddsAt placed 0 := by
  constructor <;> intros <;> exact .refl _

/-- Where an expression has ended, the machine is kept. -/
theorem kept_expression {enclosing : ClassKind} {scopes : Scopes} {found : Expr}
    (fits : machine.Fits placed) (reads : machine.ReadsIn enclosing scopes)
    (wellFormed : found.WellFormed) (inside : found.Scoped placed enclosing scopes) {value : Value}
    {middle : Machine} (ran : Eval.expression fuel found machine = .ok value middle) :
    machine.Kept placed middle :=
  (fitting_laws.expression_ok ⟨fits, enclosing, scopes, reads, wellFormed, inside⟩ ran).1

/-- An expression behind others. -/
theorem expression_behind (less : AddsAt placed fuel) {enclosing : ClassKind} {scopes : Scopes}
    (reads : machine.ReadsIn enclosing scopes) {middle : Machine}
    (kept : machine.Kept placed middle) {found : Expr} (wellFormed : found.WellFormed)
    (inside : found.Scoped placed enclosing scopes) :
    Adds (pending scopes machine.env) middle (Eval.expression fuel found middle) := by
  rw [← kept.env]
  exact less.expression kept.fits (reads.kept kept) wellFormed inside

theorem expression_succ (less : AddsAt placed fuel) {enclosing : ClassKind} {scopes : Scopes}
    {found : Expr} (fits : machine.Fits placed) (reads : machine.ReadsIn enclosing scopes)
    (wellFormed : found.WellFormed) (inside : found.Scoped placed enclosing scopes) :
    Adds (pending scopes machine.env) machine (Eval.expression (fuel + 1) found machine) := by
  have whole : Moment.Fits placed ⟨fuel + 1, .expression found, machine⟩ :=
    ⟨fits, enclosing, scopes, reads, wellFormed, inside⟩
  cases found with
  | literal value => exact .refl _
  | grouping inner => exact less.expression fits reads wellFormed inside
  | unary operator operand =>
      exact .bind (less.expression fits reads wellFormed.2 inside) fun _ _ _ => adds_lift operator _
  | binary left operator right =>
      refine .bind (less.expression fits reads wellFormed.2.1 inside.1) fun _ middle ran => ?_
      have kept := kept_expression fits reads wellFormed.2.1 inside.1 ran
      exact .bind (less.expression_behind reads kept wellFormed.2.2 inside.2)
        fun _ _ _ => adds_lift operator _
  | logical left operator right =>
      refine .bind (less.expression fits reads wellFormed.1 inside.1) fun first middle ran => ?_
      split
      · exact .refl _
      · have kept := kept_expression fits reads wellFormed.1 inside.1 ran
        exact less.expression_behind reads kept wellFormed.2 inside.2
  | var occurrence => exact adds_lookUp occurrence
  | assign occurrence value =>
      refine .bind (less.expression fits reads wellFormed.2 inside.1) fun assigned middle ran => ?_
      have kept := kept_expression fits reads wellFormed.2 inside.1 ran
      rw [← kept.env]
      exact .bind (adds_assign kept.fits (reads.kept kept) inside.2 assigned) fun _ _ _ => .refl _
  | call callee paren arguments =>
      refine .bind (less.expression fits reads wellFormed.1 inside.1) fun called middle ran => ?_
      have kept := kept_expression fits reads wellFormed.1 inside.1 ran
      rw [← kept.env]
      refine .bind (less.expressions kept.fits (reads.kept kept) wellFormed.2 inside.2)
        fun values last passed => ?_
      exact (less.call (whole.begun (.call ran passed))).mono nofun
  | get object name =>
      refine .bind (less.expression fits reads wellFormed inside) fun value middle _ => ?_
      cases value with
      | object found => exact adds_property found name
      | _ => exact .refl _
  | set object name value =>
      refine .bind (less.expression fits reads wellFormed.1 inside.1) fun holder middle ran => ?_
      cases holder with
      | object found =>
          have kept := kept_expression fits reads wellFormed.1 inside.1 ran
          refine .bind (less.expression_behind reads kept wellFormed.2 inside.2)
            fun assigned last _ => ?_
          exact .bind (adds_same _ _ rfl) fun _ _ _ => .refl _
      | _ => exact .refl _
  | thisRef occurrence => exact adds_lookUp occurrence
  | superRef occurrence method => exact adds_superMethod occurrence method

theorem expressions_succ (less : AddsAt placed fuel) {enclosing : ClassKind} {scopes : Scopes}
    {found : List Expr} (fits : machine.Fits placed) (reads : machine.ReadsIn enclosing scopes)
    (wellFormed : Expr.AllWellFormed found)
    (inside : Expr.AllScoped placed enclosing scopes found) :
    Adds (pending scopes machine.env) machine (Eval.expressions (fuel + 1) found machine) := by
  cases found with
  | nil => exact .refl _
  | cons first rest =>
      refine .bind (less.expression fits reads wellFormed.1 inside.1) fun value middle ran => ?_
      have kept := kept_expression fits reads wellFormed.1 inside.1 ran
      rw [← kept.env]
      exact .bind (less.expressions kept.fits (reads.kept kept) wellFormed.2 inside.2)
        fun _ _ _ => .refl _

theorem call_succ (less : AddsAt placed fuel) {paren : Token} {called : Value}
    {values : List Value}
    (fits : Moment.Fits placed ⟨fuel + 1, .call paren called values, machine⟩) :
    Adds nothing machine (Eval.call (fuel + 1) paren called values machine) := by
  cases found : called.callable? with
  | none =>
      simp only [Eval.call, found]
      exact .refl _
  | some callable =>
      simp only [Eval.call, found]
      split
      next arity =>
        refine .bind (adds_checkDepth paren) fun _ checked ran => ?_
        unfold checkDepth at ran
        split at ran
        next => cases ran
        next room =>
          cases ran
          exact .nested (less.apply (fits.begun (.apply found arity (Nat.not_le.mp room))))
      next => exact .refl _

theorem apply_succ (less : AddsAt placed fuel) {callable : Callable} {values : List Value}
    (fits : Moment.Fits placed ⟨fuel + 1, .apply callable values, machine⟩) :
    Adds nothing machine (Eval.apply (fuel + 1) callable values machine) := by
  cases callable with
  | native value =>
      cases value with
      | clock => exact .refl _
  | function closure => exact less.applyClosure (fits.begun .applyClosure)
  | cls cls =>
      refine .bind (adds_same _ _ rfl) fun object made ran => ?_
      cases found : cls.findMethod? initializerName with
      | none => exact .refl _
      | some method =>
          cases ran
          refine .bind (adds_bindMethod method _) fun initializer ready ran => ?_
          cases ran
          exact .bind (less.applyClosure (fits.begun (.initializer found))) fun _ _ _ => .refl _

/-- What a body declares goes to the frame of its parameters, which is new. -/
theorem applyClosure_succ (less : AddsAt placed fuel) {closure : Closure} {values : List Value}
    (fits : Moment.Fits placed ⟨fuel + 1, .applyClosure closure values, machine⟩) :
    Adds nothing machine (Eval.applyClosure (fuel + 1) closure values machine) := by
  have all : Adds (fun frame _ => frame = machine.store.frames.size) machine
      (Eval.applyClosure (fuel + 1) closure values machine) := by
    refine .bind (machine.store.gains_childWith closure.env _ values) fun inner opened ran => ?_
    cases ran
    have body := less.statements (fits.begun .body)
    exact .bind (.within (body.mono fun _ _ here => here.1)) fun flow _ _ =>
      adds_callResult closure flow
  exact all.old fun _ _ here => Nat.le_of_eq here.symm

theorem statement_succ (less : AddsAt placed fuel) {found : Stmt}
    (fits : Moment.Fits placed ⟨fuel + 1, .statement found, machine⟩) :
    Adds (fun frame name => frame = machine.env ∧ found.Declares name) machine
      (Eval.statement (fuel + 1) found machine) := by
  have whole := fits
  obtain ⟨fitsMachine, around, scopes, stands, wellFormed, inside⟩ := fits
  -- a branch is no declaration
  have branch {permitted : Env → String → Prop} {part : Stmt} {middle : Machine}
      (begins : Begins ⟨fuel + 1, .statement found, machine⟩ ⟨fuel, .statement part, middle⟩)
      (plain : part.isDeclaration = false) :
      Adds permitted middle (Eval.statement fuel part middle) :=
    (less.statement (whole.begun begins)).mono fun _ name here =>
      absurd here.2 (Stmt.not_declares plain name)
  -- an expression of the statement binds nothing, and it leaves the environment
  have quiet {permitted : Env → String → Prop} {part : Expr} (wellFormed : part.WellFormed)
      (inside : part.Scoped placed around.enclosing scopes) :
      Adds permitted machine (Eval.expression fuel part machine) :=
    (less.expression fitsMachine stands.readsIn wellFormed inside).mono
      fun _ name pending => absurd (stands.settled.readable name) pending.2
  have stays {part : Expr} {value : Value} {middle : Machine}
      (ran : Eval.expression fuel part machine = .ok value middle) : middle.env = machine.env :=
    (((restoredAt fuel).expression part).of_ok ran).env
  cases found with
  | expression value => exact .bind (quiet wellFormed inside) fun _ _ _ => .refl _
  | print value =>
      exact .bind (quiet wellFormed inside) fun printed _ _ =>
        .bind (adds_printLine printed.text) fun _ _ _ => .refl _
  | var name initializer =>
      cases initializer with
      | none => exact .bind (adds_define ⟨rfl, name, rfl, rfl⟩ _) fun _ _ _ => .refl _
      | some value =>
          have initial := less.expression fitsMachine
            ⟨stands.settled.declared wellFormed.1, stands.chain.declare name.lexeme⟩ wellFormed.2
            inside.2
          refine .bind (initial.mono fun frame other pending => ⟨pending.1, name, rfl, ?_⟩)
            fun assigned middle ran => ?_
          · exact (stands.settled.eq_of_pending pending.2).symm
          · exact .bind (adds_define ⟨stays ran, name, rfl, rfl⟩ _) fun _ _ _ => .refl _
  | block body =>
      have all : Adds (fun frame _ => frame = machine.store.frames.size) machine
          (Eval.statement (fuel + 1) (.block body) machine) :=
        .bind (.refl _) fun _ _ ran => by
          cases ran
          refine .bind (machine.store.gains_child machine.env) fun inner opened ran => ?_
          cases ran
          exact .within ((less.statements (whole.begun .block)).mono fun _ _ here => here.1)
      exact all.old fun _ _ here => Nat.le_of_eq here.symm
  | cond condition thenBranch elseBranch =>
      cases elseBranch with
      | none =>
          refine .bind (quiet wellFormed.1 inside.1) fun value middle ran => ?_
          cases truth : value.isTruthy with
          | true => exact branch (.thenBranch ran truth) wellFormed.2.2
          | false => exact .refl _
      | some other =>
          refine .bind (quiet wellFormed.1 inside.1) fun value middle ran => ?_
          cases truth : value.isTruthy with
          | true => exact branch (.thenBranch ran truth) wellFormed.2.1.2
          | false => exact branch (.elseBranch ran truth) wellFormed.2.2.2
  | loop condition body => exact (less.rounds (whole.begun .loop)).mono nofun
  | function declaration =>
      refine .bind (.refl _) fun _ _ ran => ?_
      cases ran
      exact .bind (adds_define ⟨rfl, declaration.name, rfl, rfl⟩ _) fun _ _ _ => .refl _
  | ret keyword value =>
      cases value with
      | none => exact .refl _
      | some returned => exact .bind (quiet wellFormed inside.2) fun _ _ _ => .refl _
  | classDecl name superclass declarations =>
      cases superclass with
      | none =>
          exact .bind (adds_declareClass ⟨rfl, name, rfl, rfl⟩ _ _) fun _ _ _ => .refl _
      | some parent =>
          obtain ⟨parentFormed, parentInside⟩ :=
            scoped_superclass wellFormed.2.1 inside.2.1 inside.2.2.1
          refine .bind (quiet parentFormed (parentInside _)) fun value middle ran => ?_
          cases value with
          | cls found =>
              exact .bind (adds_declareClass ⟨stays ran, name, rfl, rfl⟩ _ _) fun _ _ _ => .refl _
          | _ => exact .refl _

theorem statements_succ (less : AddsAt placed fuel) {found : List Stmt}
    (fits : Moment.Fits placed ⟨fuel + 1, .statements found, machine⟩) :
    Adds (fun frame name => frame = machine.env ∧ ∃ first ∈ found, first.Declares name) machine
      (Eval.statements (fuel + 1) found machine) := by
  cases found with
  | nil => exact .refl _
  | cons first rest =>
      have one := less.statement (fits.begun .firstStatement)
      refine .bind (one.mono fun _ _ here => ⟨here.1, first, List.mem_cons_self, here.2⟩)
        fun flow middle ran => ?_
      cases flow with
      | returned value => exact .refl _
      | normal =>
          have restored := ((restoredAt fuel).statement first).of_ok ran
          have others := less.statements (fits.begun (.otherStatements ran))
          refine others.mono fun _ _ here => ?_
          obtain ⟨same, later, member, declares⟩ := here
          exact ⟨same.trans restored.env, later, List.mem_cons_of_mem _ member, declares⟩

theorem rounds_succ (less : AddsAt placed fuel) {condition : Expr} {body : Stmt}
    (fits : Moment.Fits placed ⟨fuel + 1, .rounds condition body, machine⟩) :
    Adds nothing machine (Eval.rounds (fuel + 1) condition body machine) := by
  have whole := fits
  obtain ⟨fitsMachine, around, scopes, stands, wellFormed, inside⟩ := fits
  have test := less.expression fitsMachine stands.readsIn wellFormed.1 inside.1
  refine .bind (test.mono fun _ name pending =>
    absurd (stands.settled.readable name) pending.2) fun value middle ran => ?_
  cases truth : value.isTruthy with
  | false => exact .refl _
  | true =>
      have round := less.statement (whole.begun (.roundBody ran truth))
      refine .bind (round.mono fun _ name here =>
        absurd here.2 (Stmt.not_declares wellFormed.2.2 name)) fun flow last done => ?_
      cases flow with
      | returned result => exact .refl _
      | normal => exact less.rounds (whole.begun (.nextRound ran truth done))

end AddsAt

/-- **Names are bound in new frames, or by declarations.** -/
theorem addsAt {placed : Placing} : ∀ fuel : Nat, AddsAt placed fuel
  | 0 => .zero
  | fuel + 1 =>
    have less := addsAt fuel
    { expression := less.expression_succ
      expressions := less.expressions_succ
      call := less.call_succ
      apply := less.apply_succ
      applyClosure := less.applyClosure_succ
      statement := less.statement_succ
      statements := less.statements_succ
      rounds := less.rounds_succ }

end Eval

end LoxLang
