import LoxLang.Proofs.Lexical.Declarations

/-!
# The two interpreters in step

Every rule of evaluation is followed on both sides at once. If the parts of a
rule agree with less fuel, then the rule does (`AgreesAt`), and induction on
fuel gives agreement for whole programs (`agree_program`).

An expression is evaluated in a room that is open for new frames. A statement
has a smaller room, which says exactly which name and which function it may add
to the current frame. That is what the statements behind it have to know: their
own names are still new there, and their functions not made yet.
-/

namespace LoxLang.Lexical

set_option autoImplicit false

open Resolution

/-- What holds of the machine and the state in front of a statement. -/
structure Standing (placed : Placing) (world : World) (machine : Machine) (state : State)
    (enclosing : ClassKind) (scopes : Scopes) (scope : Scope) : Prop where
  simulates : Simulates placed world machine state
  settled : scopes.Settled enclosing
  stands : Stands placed world machine.store scopes machine.env scope

namespace Standing

variable {placed : Placing} {room : Room} {world wider : World} {machine after : Machine}
  {state reached : State} {enclosing : ClassKind} {scopes : Scopes} {scope : Scope}

/-- An expression in a statement is read where the statement stands. -/
theorem reading (standing : Standing placed world machine state enclosing scopes scope)
    (isOpen : room.Open machine.store.frames.size) :
    Reading placed room world machine state enclosing scopes scope :=
  ⟨⟨standing.simulates, isOpen⟩, standing.settled.ready, standing.stands.mirrors⟩

theorem env_lt (standing : Standing placed world machine state enclosing scopes scope) :
    machine.env < machine.store.frames.size :=
  standing.stands.mirrors.chain.lt standing.simulates.inhabited

/-- What comes behind a step that added no name to the current frame. -/
theorem advance (standing : Standing placed world machine state enclosing scopes scope)
    (advances : Advances placed room world machine wider after reached)
    (quiet : ∀ name, ¬ room.cell machine.env name) :
    Standing placed wider after reached enclosing scopes scope := by
  refine ⟨advances.simulates, standing.settled, ?_⟩
  rw [advances.env]
  exact standing.stands.later advances.grown advances.store fun _ name allowed =>
    absurd allowed (quiet name)

/-- New frames are not the current one. -/
theorem quiet_fromFrame (standing : Standing placed world machine state enclosing scopes scope)
    (name : String) : ¬ (Room.fromFrame machine.store.frames.size).cell machine.env name :=
  Nat.not_le.mpr standing.env_lt

/-- What is no declaration adds no name to the current frame. -/
theorem quiet_behind (standing : Standing placed world machine state enclosing scopes scope)
    {found : Stmt} (other : found.isDeclaration = false) (name : String) :
    ¬ (Room.behind machine.store.frames.size machine.env found).cell machine.env name := by
  rintro (later | ⟨_, token, declared, _⟩)
  · exact absurd standing.env_lt (Nat.not_lt.mpr later)
  · rw [(Stmt.eq_nothing_of_isDeclaration other).1] at declared
    cases declared

/-- A declaration adds its own name only. -/
theorem cell_behind (standing : Standing placed world machine state enclosing scopes scope)
    {found : Stmt} {name : Token} (declared : found.declared? = some name) (other : String) :
    (Room.behind machine.store.frames.size machine.env found).cell machine.env other ↔
      other = name.lexeme := by
  constructor
  · rintro (later | ⟨_, token, same, rfl⟩)
    · exact absurd standing.env_lt (Nat.not_lt.mpr later)
    · rw [declared] at same
      cases same
      rfl
  · rintro rfl
    exact .inr ⟨rfl, name, declared, rfl⟩

end Standing

/-- In a block, the scopes are the same with a new one inside. -/
theorem Standing.inBlock {placed : Placing} {world : World} {machine : Machine} {state : State}
    {enclosing : ClassKind} {scopes : Scopes} {scope : Scope}
    (standing : Standing placed world machine state enclosing scopes scope) :
    Standing placed world machine.inBlock state enclosing ([] :: scopes)
      { scope with isLocal := true } :=
  ⟨(standing.simulates.child machine.env).withEnv _, standing.settled.block,
    standing.simulates.stands_child standing.stands.mirrors⟩

/-- The body of a function stands in the scopes of its making, with its
parameters inside. -/
theorem Running.inBody {placed : Placing} {room : Room} {world : World} {machine : Machine}
    {state : State} (running : Running placed room world machine state) {closure twin : Closure}
    (like : LikeFunction placed world closure twin) {values twins : List Value}
    (alike : LikeAll placed world values twins) (arity : values.length = closure.arity) :
    let opened := state.defineAll { state.scopeOf twin.env with isLocal := true }
      (closure.declaration.params.map Token.lexeme) twins
    ∃ (wider : World) (around : Surroundings) (scopes : Scopes),
      Advances placed room world machine wider
        { machine with store := (machine.inBody closure values).store } opened.2 ∧
      Standing placed wider (machine.inBody closure values) opened.2 around.enclosing scopes
        opened.1 ∧
      Stmt.AllWellFormed closure.declaration.body ∧
      Stmt.AllScoped placed around scopes closure.declaration.body ∧
      (Stmt.numbersAll closure.declaration.body).Nodup ∧
      wider.Unmade (machine.inBody closure values).env
        (Stmt.numbersAll closure.declaration.body) := by
  intro opened
  obtain ⟨scopes, known, ⟨around, settled, wellFormed, numbers, inside⟩, _⟩ := like.made
  obtain ⟨declaration, env, initializes⟩ := closure
  obtain ⟨id, name, params, body⟩ := declaration
  obtain ⟨_, named, bodyWellFormed⟩ := wellFormed
  obtain ⟨distinct, bodyInside⟩ := inside
  obtain ⟨wider, advances, stands, unmade⟩ := advances_call running known named distinct alike arity
  exact ⟨wider, around, Scopes.ofParams params :: scopes, advances,
    ⟨advances.simulates.withEnv _, settled.function named, stands⟩, bodyWellFormed, bodyInside,
    (List.nodup_append.mp numbers).1, unmade _⟩

/-- The room of a statement that is run on a machine. -/
abbrev roomOf (machine : Machine) (found : Stmt) : Room :=
  .behind machine.store.frames.size machine.env found

/-- The name of a declaration is declared. -/
theorem Standing.declare {placed : Placing} {world : World} {machine : Machine} {state : State}
    {enclosing : ClassKind} {scopes : Scopes} {scope : Scope}
    (standing : Standing placed world machine state enclosing scopes scope) {found : Stmt}
    {name : Token} (declared : found.declared? = some name) (named : name.IsName)
    (fresh : scopes.Fresh name.lexeme) :
    Advances placed (roomOf machine found) world machine
        (world.declaring machine.env name.lexeme scopes) machine
        (state.declare scope name.lexeme).2 ∧
      Stands placed (world.declaring machine.env name.lexeme scopes) machine.store
        (scopes.mark name.lexeme false) machine.env (state.declare scope name.lexeme).1 := by
  obtain ⟨simulates, stands⟩ := standing.stands.declare standing.simulates (plain_of_isName named)
    fresh
  exact ⟨⟨.declaring ((standing.cell_behind declared _).mpr rfl) world scopes, rfl, .refl _,
    simulates⟩, stands⟩

/-- The end of a statement, and what holds behind it. -/
abbrev likeBehind (placed : Placing) (scopes : Scopes) (env : Env) (found : Stmt) (world : World)
    (store : Store) (flow : Flow) (twin : Flow × Scope) : Prop :=
  LikeFlow placed world flow twin.1 ∧ Stands placed world store (found.after scopes) env twin.2

/-- Agreement of all rules with a certain amount of fuel. -/
structure AgreesAt (placed : Placing) (fuel : Nat) : Prop where
  expression : ∀ {room : Room} {world : World} {machine : Machine} {state : State}
    {enclosing : ClassKind} {scopes : Scopes} {scope : Scope} {found : Expr},
    Reading placed room world machine state enclosing scopes scope → found.WellFormed →
      found.Scoped placed enclosing scopes →
        Agree placed room world machine (likeValue placed) (Eval.expression fuel found machine)
          (expression fuel scope found state)
  expressions : ∀ {room : Room} {world : World} {machine : Machine} {state : State}
    {enclosing : ClassKind} {scopes : Scopes} {scope : Scope} {found : List Expr},
    Reading placed room world machine state enclosing scopes scope → Expr.AllWellFormed found →
      Expr.AllScoped placed enclosing scopes found →
        Agree placed room world machine (fun wider _ => LikeAll placed wider)
          (Eval.expressions fuel found machine) (expressions fuel scope found state)
  call : ∀ {room : Room} {world : World} {machine : Machine} {state : State} {called twin : Value}
    {values twins : List Value} (paren : Token), Running placed room world machine state →
      Like placed world called twin → LikeAll placed world values twins →
        Agree placed room world machine (likeValue placed)
          (Eval.call fuel paren called values machine) (call fuel paren twin twins state)
  apply : ∀ {room : Room} {world : World} {machine : Machine} {state : State}
    {callable twin : Callable} {values twins : List Value},
    Running placed room world machine state → LikeCallable placed world callable twin →
      LikeAll placed world values twins → values.length = callable.arity →
        Agree placed room world machine (likeValue placed)
          (Eval.apply fuel callable values machine) (apply fuel twin twins state)
  applyClosure : ∀ {room : Room} {world : World} {machine : Machine} {state : State}
    {closure twin : Closure} {values twins : List Value},
    Running placed room world machine state → LikeFunction placed world closure twin →
      LikeAll placed world values twins → values.length = closure.arity →
        Agree placed room world machine (likeValue placed)
          (Eval.applyClosure fuel closure values machine) (applyClosure fuel twin twins state)
  statement : ∀ {world : World} {machine : Machine} {state : State} {around : Surroundings}
    {scopes : Scopes} {scope : Scope} {found : Stmt},
    Standing placed world machine state around.enclosing scopes scope → found.WellFormed →
      found.Scoped placed around scopes → found.numbers.Nodup →
        world.Unmade machine.env found.made →
          Agree placed (roomOf machine found) world machine
            (likeBehind placed scopes machine.env found) (Eval.statement fuel found machine)
            (statement fuel scope found state)
  statements : ∀ {world : World} {machine : Machine} {state : State} {around : Surroundings}
    {scopes : Scopes} {scope : Scope} {found : List Stmt},
    Standing placed world machine state around.enclosing scopes scope →
      Stmt.AllWellFormed found → Stmt.AllScoped placed around scopes found →
        (Stmt.numbersAll found).Nodup → world.Unmade machine.env (Stmt.numbersAll found) →
          Agree placed (.fromFrame machine.env) world machine (fun wider _ => LikeFlow placed wider)
            (Eval.statements fuel found machine) (statements fuel scope found state)
  rounds : ∀ {world : World} {machine : Machine} {state : State} {around : Surroundings}
    {scopes : Scopes} {scope : Scope} {condition : Expr} {body : Stmt},
    Standing placed world machine state around.enclosing scopes scope →
      condition.WellFormed → body.WellFormed → body.isDeclaration = false →
        condition.Scoped placed around.enclosing scopes → body.Scoped placed around scopes →
          body.numbers.Nodup →
            Agree placed (.fromFrame machine.store.frames.size) world machine
              (fun wider _ => LikeFlow placed wider) (Eval.rounds fuel condition body machine)
              (rounds fuel scope condition body state)

namespace AgreesAt

variable {placed : Placing} {fuel : Nat} {room : Room} {world : World} {machine : Machine}
  {state : State} {enclosing : ClassKind} {around : Surroundings} {scopes : Scopes} {scope : Scope}

/-- Without fuel both sides stop at once. -/
theorem zero : AgreesAt placed 0 where
  expression reading _ _ := ⟨rfl, _, .refl _ reading.simulates⟩
  expressions reading _ _ := ⟨rfl, _, .refl _ reading.simulates⟩
  call _ running _ _ := ⟨rfl, _, .refl _ running.simulates⟩
  apply running _ _ _ := ⟨rfl, _, .refl _ running.simulates⟩
  applyClosure running _ _ _ := ⟨rfl, _, .refl _ running.simulates⟩
  statement standing _ _ _ _ := ⟨rfl, _, .refl _ standing.simulates⟩
  statements standing _ _ _ _ := ⟨rfl, _, .refl _ standing.simulates⟩
  rounds standing _ _ _ _ _ _ := ⟨rfl, _, .refl _ standing.simulates⟩

theorem expression_succ (less : AgreesAt placed fuel) {found : Expr}
    (reading : Reading placed room world machine state enclosing scopes scope)
    (wellFormed : found.WellFormed) (inside : found.Scoped placed enclosing scopes) :
    Agree placed room world machine (likeValue placed) (Eval.expression (fuel + 1) found machine)
      (Lexical.expression (fuel + 1) scope found state) := by
  cases found with
  | literal value => exact .pure reading.simulates (like_ofLiteral value)
  | grouping inner => exact less.expression reading wellFormed inside
  | unary operator operand =>
      refine .bind (less.expression reading wellFormed.2 inside) ?_
      intro value twin wider after reached advances like
      exact agree_lift (reading.toRunning.advance advances) operator (like_unary operator like)
  | binary left operator right =>
      refine .bind (less.expression reading wellFormed.2.1 inside.1) ?_
      intro first firstTwin wider middle between advances like
      have later := reading.advance advances
      refine .bind (less.expression later wellFormed.2.2 inside.2) ?_
      intro second secondTwin widest after reached further alike
      exact agree_lift (later.toRunning.advance further) operator
        (like_binary further.simulates.distinct operator (like.mono further.grown.le) alike)
  | logical left operator right =>
      refine .bind (less.expression reading wellFormed.1 inside.1) ?_
      intro first twin wider after reached advances like
      have settles : Operator.settles operator twin = Operator.settles operator first := by
        simp only [Operator.settles, like.isTruthy]
      simp only [settles]
      split
      · exact .pure advances.simulates like
      · exact less.expression (reading.advance advances) wellFormed.2 inside.2
  | var occurrence => exact agree_lookUp reading wellFormed inside.1 inside.2
  | assign occurrence value =>
      refine .bind (less.expression reading wellFormed.2 inside.1) ?_
      intro assigned twin wider middle between advances like
      refine .bind (agree_assign (reading.advance advances) wellFormed.1 inside.2 like) ?_
      intro _ _ widest after reached further _
      exact .pure further.simulates (like.mono further.grown.le)
  | call callee paren arguments =>
      refine .bind (less.expression reading wellFormed.1 inside.1) ?_
      intro called twin wider middle between advances like
      have later := reading.advance advances
      refine .bind (less.expressions later wellFormed.2 inside.2) ?_
      intro values twins widest after reached further alike
      exact less.call paren (later.toRunning.advance further) (like.mono further.grown.le) alike
  | get object name =>
      refine .bind (less.expression reading wellFormed inside) ?_
      intro value twin wider after reached advances like
      have running := reading.toRunning.advance advances
      cases like with
      | object id like => exact agree_property running id like name
      | _ => exact .raiseAt running.simulates _ _
  | set object name value =>
      refine .bind (less.expression reading wellFormed.1 inside.1) ?_
      intro holder twin wider middle between advances like
      have later := reading.advance advances
      cases like with
      | object id like =>
          refine .bind (less.expression later wellFormed.2 inside.2) ?_
          intro assigned assignedTwin widest after reached further alike
          refine .bind (agree_setField (later.toRunning.advance further) id name.lexeme alike) ?_
          intro _ _ last final end_ newer _
          exact .pure newer.simulates (alike.mono newer.grown.le)
      | _ => exact .raiseAt later.simulates _ _
  | thisRef occurrence => exact agree_lookUpThis reading wellFormed inside.1 inside.2
  | superRef occurrence method =>
      exact agree_superMethod reading wellFormed inside.1 inside.2 method

theorem expressions_succ (less : AgreesAt placed fuel) {found : List Expr}
    (reading : Reading placed room world machine state enclosing scopes scope)
    (wellFormed : Expr.AllWellFormed found)
    (inside : Expr.AllScoped placed enclosing scopes found) :
    Agree placed room world machine (fun wider _ => LikeAll placed wider)
      (Eval.expressions (fuel + 1) found machine)
      (Lexical.expressions (fuel + 1) scope found state) := by
  cases found with
  | nil => exact .pure reading.simulates .nil
  | cons first rest =>
      refine .bind (less.expression reading wellFormed.1 inside.1) ?_
      intro value twin wider middle between advances like
      refine .bind (less.expressions (reading.advance advances) wellFormed.2 inside.2) ?_
      intro values twins widest after reached further alike
      exact .pure further.simulates (.cons (like.mono further.grown.le) alike)

theorem call_succ (less : AgreesAt placed fuel) (paren : Token)
    (running : Running placed room world machine state) {called twin : Value}
    (like : Like placed world called twin) {values twins : List Value}
    (alike : LikeAll placed world values twins) :
    Agree placed room world machine (likeValue placed)
      (Eval.call (fuel + 1) paren called values machine)
      (Lexical.call (fuel + 1) paren twin twins state) := by
  rcases like.callable?.cases with ⟨left, right⟩ | ⟨callable, other, left, right, likeCallable⟩
  · simp only [Eval.call, Lexical.call, left, right]
    exact .raiseAt running.simulates _ _
  · simp only [Eval.call, Lexical.call, left, right, likeCallable.arity, alike.length_eq]
    split
    next arity =>
      refine .bind (agree_checkDepth running paren) ?_
      intro _ _ wider after reached advances _
      have later := running.advance advances
      have deeper : Running placed room wider { after with depth := after.depth + 1 }
          { reached with depth := reached.depth + 1 } :=
        ⟨later.simulates.withDepth (congrArg (· + 1) later.simulates.depth), later.isOpen⟩
      exact .nested (less.apply deeper (likeCallable.mono advances.grown.le)
        (alike.mono advances.grown.le) arity)
    next => exact .raiseAt running.simulates _ _

theorem apply_succ (less : AgreesAt placed fuel)
    (running : Running placed room world machine state) {callable twin : Callable}
    (like : LikeCallable placed world callable twin) {values twins : List Value}
    (alike : LikeAll placed world values twins) (arity : values.length = callable.arity) :
    Agree placed room world machine (likeValue placed)
      (Eval.apply (fuel + 1) callable values machine)
      (Lexical.apply (fuel + 1) twin twins state) := by
  cases like with
  | native value =>
      cases value with
      | clock => exact agree_readClock running
  | function like => exact less.applyClosure running like alike arity
  | @cls cls twin like =>
      refine .bind (agree_newInstance running like) ?_
      intro object other wider middle between advances likeObject
      have later := running.advance advances
      rcases (like.methods initializerName).cases with ⟨left, right⟩ |
        ⟨method, methodTwin, left, right, likeMethod⟩
      · simp only [left, right]
        exact .pure later.simulates likeObject
      · simp only [left, right]
        have length : values.length = method.arity := by
          rw [arity, Callable.arity, Class.arity, left]
        refine .bind (agree_bindMethod later (likeMethod.mono advances.grown.le) likeObject) ?_
        rintro closure closureTwin widest ready reached further ⟨declaration, likeClosure⟩
        rw [Closure.arity, ← declaration] at length
        refine .bind (less.applyClosure (later.advance further) likeClosure
          (alike.mono (advances.grown.le.trans further.grown.le)) length) ?_
        intro _ _ last after final newer _
        exact .pure newer.simulates (likeObject.mono (further.grown.le.trans newer.grown.le))

theorem applyClosure_succ (less : AgreesAt placed fuel)
    (running : Running placed room world machine state) {closure twin : Closure}
    (like : LikeFunction placed world closure twin) {values twins : List Value}
    (alike : LikeAll placed world values twins) (arity : values.length = closure.arity) :
    Agree placed room world machine (likeValue placed)
      (Eval.applyClosure (fuel + 1) closure values machine)
      (Lexical.applyClosure (fuel + 1) twin twins state) := by
  obtain ⟨wider, around, scopes, advances, standing, wellFormed, inside, numbers, unmade⟩ :=
    running.inBody like alike arity
  simp only [Eval.applyClosure, Lexical.applyClosure, like.declaration]
  refine .behind rfl (.behindTwin rfl (.behindTwin rfl (.since advances ?_)))
  have body_ := less.statements standing wellFormed inside numbers unmade
  refine .bind (.within (body_.widen running.isOpen.le)) ?_
  intro flow other last after reached further likeFlow
  exact agree_callResult ((running.advance advances).advance further)
    (like.mono (advances.grown.le.trans further.grown.le)) likeFlow

/-- A branch or the body of a loop leaves the scopes as they are. -/
theorem branch (less : AgreesAt placed fuel)
    (standing : Standing placed world machine state around.enclosing scopes scope) {found : Stmt}
    (wellFormed : found.WellFormed) (other : found.isDeclaration = false)
    (inside : found.Scoped placed around scopes) (numbers : found.numbers.Nodup)
    (isOpen : room.Open machine.store.frames.size) :
    Agree placed room world machine
      (fun wider store flow twin => LikeFlow placed wider flow twin.1 ∧
        Stands placed wider store scopes machine.env twin.2)
      (Eval.statement fuel found machine) (Lexical.statement fuel scope found state) := by
  obtain ⟨undeclared, unmade⟩ := Stmt.eq_nothing_of_isDeclaration other
  have none : world.Unmade machine.env found.made := by
    rw [unmade]
    exact fun _ _ _ _ _ _ => List.not_mem_nil
  refine (less.statement standing wellFormed inside numbers none).mono
    (Room.behind_le other isOpen) fun _ _ _ _ _ _ behind => ?_
  simpa only [likeBehind, Stmt.after, undeclared] using behind

section Statements

variable (less : AgreesAt placed fuel)
  (standing : Standing placed world machine state around.enclosing scopes scope)

include less standing

theorem var_succ {name : Token} {initializer : Option Expr}
    (wellFormed : (Stmt.var name initializer).WellFormed)
    (inside : (Stmt.var name initializer).Scoped placed around scopes) :
    Agree placed (roomOf machine (.var name initializer)) world machine
      (likeBehind placed scopes machine.env (.var name initializer))
      (Eval.statement (fuel + 1) (.var name initializer) machine)
      (Lexical.statement (fuel + 1) scope (.var name initializer) state) := by
  have named := wellFormed.1
  have isOpen := Room.open_behind machine.store.frames.size machine.env (.var name initializer)
  have only := standing.cell_behind (rfl : (Stmt.var name initializer).declared? = some name)
  obtain ⟨declaring, stands⟩ := standing.declare
    (rfl : (Stmt.var name initializer).declared? = some name) named inside.1
  have running : Running _ _ _ _ _ := ⟨declaring.simulates, isOpen⟩
  cases initializer with
  | none =>
      refine .behindTwin rfl (.since declaring (.bind (agree_define running stands named .nil) ?_))
      rintro _ _ wider after reached advances ⟨_, stood⟩
      exact .pure advances.simulates ⟨.normal, stood⟩
  | some value =>
      -- the name is declared for the assignments in its own initializer
      refine .behindTwin rfl (.since declaring (.bind (less.expression
        ⟨running, standing.settled.declared named, stands.mirrors⟩ wellFormed.2 inside.2) ?_))
      intro assigned twin wider after reached advances like
      have still := stands.behind advances.grown advances.store fun other => (only other).mp
      rw [← advances.env] at still ⊢
      refine .bind (agree_define (running.advance advances) still named like) ?_
      rintro _ _ last final end_ newer ⟨_, stood⟩
      exact .pure newer.simulates ⟨.normal, stood⟩

theorem block_succ {body : List Stmt} (wellFormed : Stmt.AllWellFormed body)
    (inside : Stmt.AllScoped placed around ([] :: scopes) body)
    (numbers : (Stmt.numbersAll body).Nodup) :
    Agree placed (roomOf machine (.block body)) world machine
      (likeBehind placed scopes machine.env (.block body))
      (Eval.statement (fuel + 1) (.block body) machine)
      (Lexical.statement (fuel + 1) scope (.block body) state) := by
  have simulates := standing.simulates
  have isOpen := Room.open_behind machine.store.frames.size machine.env (.block body)
  have opened : Advances placed (roomOf machine (.block body)) world machine world
      { machine with store := (machine.store.child machine.env).2 } state :=
    ⟨.refl _ world, rfl, machine.store.extends_child _, simulates.child machine.env⟩
  refine .behind rfl (.behind rfl (.since opened (.mapTwin _ (.within ?_))))
  refine (less.statements standing.inBlock wellFormed inside numbers
    (simulates.unmade (Nat.le_refl _) _)).mono isOpen.le ?_
  intro wider after reached flow twin advances like
  exact ⟨like, standing.stands.later advances.grown (opened.store.trans advances.store)
    fun _ name new => absurd new (standing.quiet_fromFrame name)⟩

theorem cond_succ {condition : Expr} {thenBranch : Stmt} {elseBranch : Option Stmt}
    (wellFormed : (Stmt.cond condition thenBranch elseBranch).WellFormed)
    (inside : (Stmt.cond condition thenBranch elseBranch).Scoped placed around scopes)
    (numbers : (Stmt.cond condition thenBranch elseBranch).numbers.Nodup) :
    Agree placed (roomOf machine (.cond condition thenBranch elseBranch)) world machine
      (likeBehind placed scopes machine.env (.cond condition thenBranch elseBranch))
      (Eval.statement (fuel + 1) (.cond condition thenBranch elseBranch) machine)
      (Lexical.statement (fuel + 1) scope (.cond condition thenBranch elseBranch) state) := by
  have isOpen := Room.open_behind machine.store.frames.size machine.env
    (.cond condition thenBranch elseBranch)
  have quiet := standing.quiet_behind
    (rfl : (Stmt.cond condition thenBranch elseBranch).isDeclaration = false)
  have parts : condition.WellFormed ∧ condition.Scoped placed around.enclosing scopes := by
    cases elseBranch <;> exact ⟨wellFormed.1, inside.1⟩
  refine .bind (less.expression (standing.reading isOpen) parts.1 parts.2) ?_
  intro value twin wider after reached advances like
  have later := standing.advance advances quiet
  have stillOpen := isOpen.mono advances.store.size
  simp only [like.isTruthy]
  rw [← advances.env]
  cases elseBranch with
  | none =>
      split
      · exact less.branch later wellFormed.2.1 wellFormed.2.2 inside.2
          (List.nodup_append.mp numbers).2.1 stillOpen
      · exact .pure advances.simulates ⟨.normal, later.stands⟩
  | some branch =>
      obtain ⟨thenNumbers, elseNumbers, _⟩ :=
        List.nodup_append.mp (List.nodup_append.mp numbers).2.1
      split
      · exact less.branch later wellFormed.2.1.1 wellFormed.2.1.2 inside.2.1 thenNumbers stillOpen
      · exact less.branch later wellFormed.2.2.1 wellFormed.2.2.2 inside.2.2 elseNumbers stillOpen

omit less in
theorem function_succ {declaration : FunctionDecl}
    (wellFormed : (Stmt.function declaration).WellFormed)
    (inside : (Stmt.function declaration).Scoped placed around scopes)
    (numbers : declaration.numbers.Nodup) (unmade : world.Unmade machine.env [declaration.id]) :
    Agree placed (roomOf machine (.function declaration)) world machine
      (likeBehind placed scopes machine.env (.function declaration))
      (Eval.statement (fuel + 1) (.function declaration) machine)
      (Lexical.statement (fuel + 1) scope (.function declaration) state) := by
  have named : declaration.name.IsName := isName_of_declared wellFormed rfl
  obtain ⟨declaring, stands⟩ := standing.declare
    (rfl : (Stmt.function declaration).declared? = some declaration.name) named inside.1
  have running : Running _ _ _ _ _ := ⟨declaring.simulates,
    Room.open_behind machine.store.frames.size machine.env (.function declaration)⟩
  have declared : Declared placed (scopes.mark declaration.name.lexeme true) declaration :=
    ⟨{ around with body := .function }, standing.settled.mark named, wellFormed, numbers, inside.2⟩
  refine .behind rfl (.behindTwin rfl (.behindTwin rfl (.since declaring (.bind
    (agree_defineFunction running named stands declared (unmade.declaring _ _ _)
      (.inr ⟨rfl, List.mem_singleton_self _⟩)) ?_))))
  intro _ _ wider after reached advances stood
  exact .pure advances.simulates ⟨.normal, stood⟩

theorem class_succ {name : Token} {superclass : Option Expr} {declarations : List FunctionDecl}
    (wellFormed : (Stmt.classDecl name superclass declarations).WellFormed)
    (inside : (Stmt.classDecl name superclass declarations).Scoped placed around scopes)
    (numbers : (FunctionDecl.numbersAll declarations).Nodup) :
    Agree placed (roomOf machine (.classDecl name superclass declarations)) world machine
      (likeBehind placed scopes machine.env (.classDecl name superclass declarations))
      (Eval.statement (fuel + 1) (.classDecl name superclass declarations) machine)
      (Lexical.statement (fuel + 1) scope (.classDecl name superclass declarations) state) := by
  obtain ⟨named, isName, methodsWellFormed⟩ := wellFormed
  obtain ⟨fresh, other, above, methodsInside⟩ := inside
  have isOpen := Room.open_behind machine.store.frames.size machine.env
    (.classDecl name superclass declarations)
  have only := standing.cell_behind
    (rfl : (Stmt.classDecl name superclass declarations).declared? = some name)
  cases superclass with
  | none =>
      have parents : Both (LikeClass placed world) none none := trivial
      refine .bind (agree_declareClass ⟨standing.simulates, isOpen⟩ standing.settled standing.stands
        named fresh only parents rfl methodsWellFormed numbers methodsInside) ?_
      intro _ inner wider after reached advances stood
      exact .pure advances.simulates ⟨.normal, stood⟩
  | some parent =>
      obtain ⟨parentWellFormed, parentInside⟩ := scoped_superclass isName other above
      -- the superclass is evaluated in a smaller room, before the name is declared
      have evaluated : Agree placed (roomOf machine (.classDecl name (some parent) declarations))
          world machine
          (fun wider store value twin => Like placed wider value twin ∧
            Stands placed wider store scopes machine.env scope)
          (Eval.expression fuel parent machine) (Lexical.expression fuel scope parent state) := by
        refine (less.expression (standing.reading (Room.open_fromFrame _)) parentWellFormed
          (parentInside _)).mono isOpen.le fun wider after reached _ _ advances like => ?_
        exact ⟨like, standing.stands.later advances.grown advances.store fun _ name new =>
          absurd new (standing.quiet_fromFrame name)⟩
      refine .bind evaluated ?_
      rintro value twin wider after reached advances ⟨like, stands⟩
      cases like with
      | @cls cls clsTwin like =>
          have parents : Both (LikeClass placed wider) (some cls) (some clsTwin) := like
          refine .bind (agree_declareClass ⟨advances.simulates, isOpen.mono advances.store.size⟩
            standing.settled (advances.env.symm ▸ stands) named fresh
            (advances.env.symm ▸ only) parents rfl methodsWellFormed numbers methodsInside) ?_
          intro _ inner widest final last newer stood
          exact .pure newer.simulates ⟨.normal, advances.env ▸ stood⟩
      | _ => exact .raiseAt advances.simulates _ _

theorem statement_succ {found : Stmt} (wellFormed : found.WellFormed)
    (inside : found.Scoped placed around scopes) (numbers : found.numbers.Nodup)
    (unmade : world.Unmade machine.env found.made) :
    Agree placed (roomOf machine found) world machine (likeBehind placed scopes machine.env found)
      (Eval.statement (fuel + 1) found machine)
      (Lexical.statement (fuel + 1) scope found state) := by
  have isOpen := Room.open_behind machine.store.frames.size machine.env found
  cases found with
  | expression value =>
      refine .bind (less.expression (standing.reading isOpen) wellFormed inside) ?_
      intro _ _ wider after reached advances _
      have later := standing.advance advances (standing.quiet_behind rfl)
      exact .pure advances.simulates ⟨.normal, advances.env ▸ later.stands⟩
  | print value =>
      refine .bind (less.expression (standing.reading isOpen) wellFormed inside) ?_
      intro printed twin wider middle between advances like
      rw [like.text]
      refine .bind (agree_printLine ⟨advances.simulates, isOpen.mono advances.store.size⟩ _) ?_
      intro _ _ widest after reached newer _
      have further := advances.trans newer
      have later := standing.advance further (standing.quiet_behind rfl)
      exact .pure further.simulates ⟨.normal, further.env ▸ later.stands⟩
  | var name initializer => exact less.var_succ standing wellFormed inside
  | block body => exact less.block_succ standing wellFormed inside numbers
  | cond condition thenBranch elseBranch =>
      exact less.cond_succ standing wellFormed inside numbers
  | loop condition body =>
      obtain ⟨_, bodyNumbers, _⟩ := List.nodup_append.mp numbers
      refine .mapTwin _ ((less.rounds standing wellFormed.1 wellFormed.2.1 wellFormed.2.2 inside.1
        inside.2 bodyNumbers).mono isOpen.le ?_)
      intro wider after reached flow twin advances like
      have later := standing.advance advances standing.quiet_fromFrame
      exact ⟨like, advances.env ▸ later.stands⟩
  | function declaration => exact function_succ standing wellFormed inside numbers unmade
  | ret keyword value =>
      cases value with
      | none => exact .pure standing.simulates ⟨.returned .nil, standing.stands⟩
      | some returned =>
          refine .bind (less.expression (standing.reading isOpen) wellFormed inside.2) ?_
          intro value twin wider after reached advances like
          have later := standing.advance advances (standing.quiet_behind rfl)
          exact .pure advances.simulates ⟨.returned like, advances.env ▸ later.stands⟩
  | classDecl name superclass declarations =>
      exact less.class_succ standing wellFormed inside (List.nodup_append.mp numbers).2.1

end Statements

/-- Behind the first of some statements, the functions of the others are not
made yet. -/
theorem first (less : AgreesAt placed fuel) {found : Stmt} {rest : List Stmt}
    (standing : Standing placed world machine state around.enclosing scopes scope)
    (wellFormed : found.WellFormed) (inside : found.Scoped placed around scopes)
    (numbers : (Stmt.numbersAll (found :: rest)).Nodup)
    (unmade : world.Unmade machine.env (Stmt.numbersAll (found :: rest))) :
    Agree placed (.fromFrame machine.env) world machine
      (fun wider store flow twin =>
        likeBehind placed scopes machine.env found wider store flow twin ∧
          wider.Unmade machine.env (Stmt.numbersAll rest))
      (Eval.statement fuel found machine) (Lexical.statement fuel scope found state) := by
  obtain ⟨own, _, apart⟩ := List.nodup_append.mp numbers
  have inRoom : (roomOf machine found).Le (.fromFrame machine.env) := by
    have later := Nat.le_of_lt standing.env_lt
    constructor
    · rintro frame name (new | ⟨rfl, _⟩)
      · exact Nat.le_trans later new
      · exact Nat.le_refl _
    · rintro frame id (new | ⟨rfl, _⟩)
      · exact Nat.le_trans later new
      · exact Nat.le_refl _
  refine (less.statement standing wellFormed inside own fun made making id known numbered same
    member => unmade made making id known numbered same
      (List.mem_append_left _ (found.made_subset member))).mono inRoom ?_
  intro wider after reached flow twin advances behind
  refine ⟨behind, fun made making id known numbered same member => ?_⟩
  rcases advances.grown.makings made making id known numbered with before | new | ⟨_, mine⟩
  · exact unmade made making id before numbered same (List.mem_append_right _ member)
  · exact absurd standing.env_lt (Nat.not_lt.mpr (same ▸ new))
  · exact apart id (found.made_subset mine) id member rfl

theorem settled_after {found : Stmt} (wellFormed : found.WellFormed) {enclosing : ClassKind}
    {scopes : Scopes} (settled : scopes.Settled enclosing) :
    (found.after scopes).Settled enclosing := by
  unfold Stmt.after
  split
  next name declared => exact settled.mark (isName_of_declared wellFormed declared)
  next => exact settled

theorem statements_succ (less : AgreesAt placed fuel) {found : List Stmt}
    (standing : Standing placed world machine state around.enclosing scopes scope)
    (wellFormed : Stmt.AllWellFormed found) (inside : Stmt.AllScoped placed around scopes found)
    (numbers : (Stmt.numbersAll found).Nodup)
    (unmade : world.Unmade machine.env (Stmt.numbersAll found)) :
    Agree placed (.fromFrame machine.env) world machine (fun wider _ => LikeFlow placed wider)
      (Eval.statements (fuel + 1) found machine)
      (Lexical.statements (fuel + 1) scope found state) := by
  cases found with
  | nil => exact .pure standing.simulates .normal
  | cons first rest =>
      refine .bind (less.first standing wellFormed.1 inside.1 numbers unmade) ?_
      rintro flow ⟨twin, behind⟩ wider after reached advances ⟨⟨like, stands⟩, later⟩
      cases like with
      | returned like => exact .pure advances.simulates (.returned like)
      | normal =>
          rw [← advances.env] at stands later ⊢
          exact less.statements ⟨advances.simulates, settled_after wellFormed.1 standing.settled,
            stands⟩ wellFormed.2 inside.2 (List.nodup_append.mp numbers).2.1 later

theorem rounds_succ (less : AgreesAt placed fuel) {condition : Expr} {body : Stmt}
    (standing : Standing placed world machine state around.enclosing scopes scope)
    (conditionWellFormed : condition.WellFormed) (wellFormed : body.WellFormed)
    (other : body.isDeclaration = false)
    (conditionInside : condition.Scoped placed around.enclosing scopes)
    (inside : body.Scoped placed around scopes) (numbers : body.numbers.Nodup) :
    Agree placed (.fromFrame machine.store.frames.size) world machine
      (fun wider _ => LikeFlow placed wider) (Eval.rounds (fuel + 1) condition body machine)
      (Lexical.rounds (fuel + 1) scope condition body state) := by
  have isOpen := Room.open_fromFrame machine.store.frames.size
  refine .bind (less.expression (standing.reading isOpen) conditionWellFormed conditionInside) ?_
  intro value twin wider middle between advances like
  have later := standing.advance advances standing.quiet_fromFrame
  have stillOpen := isOpen.mono advances.store.size
  simp only [like.isTruthy]
  split
  · refine .bind (less.branch later wellFormed other inside numbers stillOpen) ?_
    rintro flow ⟨flowTwin, behind⟩ widest after reached further ⟨likeFlow, _⟩
    cases likeFlow with
    | returned like => exact .pure further.simulates (.returned like)
    | normal =>
        have next := standing.advance (advances.trans further) standing.quiet_fromFrame
        exact (less.rounds next conditionWellFormed wellFormed other conditionInside inside
          numbers).widen (stillOpen.mono further.store.size).le
  · exact .pure advances.simulates .normal

end AgreesAt

/-! ## Whole runs -/

variable {placed : Placing}

theorem agreesAt (placed : Placing) : ∀ fuel : Nat, AgreesAt placed fuel
  | 0 => .zero
  | fuel + 1 =>
    have less := agreesAt placed fuel
    { expression := less.expression_succ
      expressions := less.expressions_succ
      call := fun paren running like => less.call_succ paren running like
      apply := fun running like => less.apply_succ running like
      applyClosure := fun running like => less.applyClosure_succ running like
      statement := fun standing => less.statement_succ standing
      statements := less.statements_succ
      rounds := less.rounds_succ }

/-- The statements of a program agree, one after another in the global
environment. -/
theorem agree_topLevel (fuel : Nat) : ∀ {found : List Stmt} {world : World} {machine : Machine}
    {state : State} {scope : Scope}, Standing placed world machine state .outside [] scope →
      Stmt.AllWellFormed found → Stmt.AllScoped placed ⟨.topLevel, .outside⟩ [] found →
        (Stmt.numbersAll found).Nodup → world.Unmade machine.env (Stmt.numbersAll found) →
          Agree placed (.fromFrame machine.env) world machine likeDone
            (Eval.topLevel fuel found machine) (topLevel fuel scope found state)
  | [], _, _, _, _ => by
      intro standing _ _ _ _
      exact .pure standing.simulates trivial
  | found :: rest, world, machine, state, scope => by
      intro standing wellFormed inside numbers unmade
      have behindInside := inside.2
      rw [Stmt.after_nil] at behindInside
      have first : Standing placed world machine state
          (⟨.topLevel, .outside⟩ : Surroundings).enclosing [] scope := standing
      refine .bind ((agreesAt placed fuel).first first wellFormed.1 inside.1 numbers unmade) ?_
      rintro flow ⟨twin, behind⟩ wider after reached advances ⟨⟨_, stands⟩, later⟩
      rw [Stmt.after_nil] at stands
      rw [← advances.env] at stands later ⊢
      exact agree_topLevel fuel ⟨advances.simulates, standing.settled, stands⟩ wellFormed.2
        behindInside (List.nodup_append.mp numbers).2.1 later

/-- **A whole program agrees**, whatever its fuel. -/
theorem agree_program (fuel : Nat) {found : List Stmt} {world : World} {machine : Machine}
    {state : State} (standing : Standing placed world machine state .outside [] .global)
    (wellFormed : Stmt.AllWellFormed found)
    (inside : Stmt.AllScoped placed ⟨.topLevel, .outside⟩ [] found)
    (numbers : (Stmt.numbersAll found).Nodup)
    (unmade : world.Unmade machine.env (Stmt.numbersAll found)) :
    Agree placed (.fromFrame machine.env) world machine likeDone (Eval.program fuel found machine)
      (program fuel found state) := by
  refine .bind (agree_topLevel fuel standing wellFormed inside numbers unmade) ?_
  intro _ _ wider after reached advances _
  exact agree_flush ⟨advances.simulates, (Room.open_fromFrame machine.env).mono
    (Nat.le_trans (Nat.le_of_lt standing.env_lt) advances.store.size)⟩

end LoxLang.Lexical
