import LoxLang.Proofs.Lexical.Sessions

/-!
# A second state for every moment

At every moment of a run on the machine there is a state of the second
interpreter that simulates the machine, and a scope in which it can go on with
the task at hand (`Mirrored`). What a task begins can be followed again
(`Followed.begins`): a part that is begun later finds the state that the parts in
front of it have left, and that one is known because the two interpreters agree
on them. So the whole run of a source is followed (`followed_of_performs`).
-/

namespace LoxLang.Lexical

set_option autoImplicit false

open Resolution

/-- What has to hold of a machine and a state, so that a task can be followed on
both sides. -/
def Mirrored (placed : Placing) (world : World) (machine : Machine) (state : State) : Task → Prop
  | .expression found => ∃ enclosing scopes scope,
      Reading placed (.fromFrame machine.store.frames.size) world machine state enclosing scopes
        scope ∧
      found.WellFormed ∧ found.Scoped placed enclosing scopes
  | .expressions found => ∃ enclosing scopes scope,
      Reading placed (.fromFrame machine.store.frames.size) world machine state enclosing scopes
        scope ∧
      Expr.AllWellFormed found ∧ Expr.AllScoped placed enclosing scopes found
  | .call _ called values => Simulates placed world machine state ∧ ∃ twin twins,
      Like placed world called twin ∧ LikeAll placed world values twins
  | .apply callable values => Simulates placed world machine state ∧ ∃ twin twins,
      LikeCallable placed world callable twin ∧ LikeAll placed world values twins ∧
        values.length = callable.arity
  | .applyClosure closure values => Simulates placed world machine state ∧ ∃ twin twins,
      LikeFunction placed world closure twin ∧ LikeAll placed world values twins ∧
        values.length = closure.arity
  | .statement found => ∃ (around : Surroundings) (scopes : Scopes) (scope : Scope),
      Standing placed world machine state around.enclosing scopes scope ∧ found.WellFormed ∧
        found.Scoped placed around scopes ∧ found.numbers.Nodup ∧
        world.Unmade machine.env found.made
  | .statements found => ∃ (around : Surroundings) (scopes : Scopes) (scope : Scope),
      Standing placed world machine state around.enclosing scopes scope ∧
        Stmt.AllWellFormed found ∧ Stmt.AllScoped placed around scopes found ∧
        (Stmt.numbersAll found).Nodup ∧ world.Unmade machine.env (Stmt.numbersAll found)
  | .rounds condition body => ∃ (around : Surroundings) (scopes : Scopes) (scope : Scope),
      Standing placed world machine state around.enclosing scopes scope ∧
        condition.WellFormed ∧ body.WellFormed ∧ body.isDeclaration = false ∧
        condition.Scoped placed around.enclosing scopes ∧ body.Scoped placed around scopes ∧
        body.numbers.Nodup

/-- A moment that the second interpreter can follow from some state. -/
def Followed (placed : Placing) (moment : Moment) : Prop :=
  ∃ world state, Mirrored placed world moment.machine state moment.task

section Steps

variable {placed : Placing} {room : Room} {world wider : World} {machine after : Machine}
  {state reached : State} {enclosing : ClassKind} {around : Surroundings} {scopes : Scopes}
  {scope : Scope}

/-- The result on the other side of a step that has succeeded. -/
theorem Agree.of_ok {Result Twin : Type} {good : World → Store → Result → Twin → Prop}
    {outcome : EStateM.Result Interrupt Machine Result}
    {twin : EStateM.Result Interrupt State Twin} {value : Result}
    (agree : Agree placed room world machine good outcome twin) (ran : outcome = .ok value after) :
    ∃ other wider reached, Advances placed room world machine wider after reached ∧
      good wider after.store value other := by
  rcases agree.cases with ⟨_, other, wider, _, reached, left, _, advances, fine⟩ |
    ⟨_, _, _, _, left, _, _⟩
  · rw [ran] at left
    cases left
    exact ⟨other, wider, reached, advances, fine⟩
  · rw [ran] at left
    cases left

/-- What is read behind a step may fill new frames of its own. -/
theorem Reading.behind (reading : Reading placed room world machine state enclosing scopes scope)
    (advances : Advances placed room world machine wider after reached) :
    Reading placed (.fromFrame after.store.frames.size) wider after reached enclosing scopes
      scope :=
  ⟨⟨advances.simulates, Room.open_fromFrame _⟩, reading.ready,
    (reading.advance advances).mirrors⟩

theorem Standing.read (standing : Standing placed world machine state enclosing scopes scope) :
    Reading placed (.fromFrame machine.store.frames.size) world machine state enclosing scopes
      scope :=
  standing.reading (Room.open_fromFrame _)

/-- An expression is read where its statement stands. -/
theorem Standing.followed (standing : Standing placed world machine state enclosing scopes scope)
    {found : Expr} (wellFormed : found.WellFormed) (inside : found.Scoped placed enclosing scopes)
    (fuel : Nat) : Followed placed ⟨fuel, .expression found, machine⟩ :=
  ⟨world, state, enclosing, scopes, scope, standing.read, wellFormed, inside⟩

/-- What is no declaration can be run wherever it stands. -/
theorem Standing.followedBranch
    (standing : Standing placed world machine state around.enclosing scopes scope) {found : Stmt}
    (wellFormed : found.WellFormed) (other : found.isDeclaration = false)
    (inside : found.Scoped placed around scopes) (numbers : found.numbers.Nodup) (fuel : Nat) :
    Followed placed ⟨fuel, .statement found, machine⟩ := by
  refine ⟨world, state, around, scopes, scope, standing, wellFormed, inside, numbers, ?_⟩
  rw [(Stmt.eq_nothing_of_isDeclaration other).2]
  exact fun _ _ _ _ _ _ => List.not_mem_nil

/-- Behind the evaluation of an expression others are read where it was. -/
theorem Reading.behindExpression
    (reading : Reading placed room world machine state enclosing scopes scope) {found : Expr}
    (wellFormed : found.WellFormed) (inside : found.Scoped placed enclosing scopes) {fuel : Nat}
    {value : Value} (ran : Eval.expression fuel found machine = .ok value after) :
    ∃ wider reached, Reading placed (.fromFrame after.store.frames.size) wider after reached
      enclosing scopes scope := by
  obtain ⟨_, wider, reached, advances, _⟩ :=
    ((agreesAt placed fuel).expression reading wellFormed inside).of_ok ran
  exact ⟨wider, reached, reading.behind advances⟩

/-- Behind the evaluation of an expression a statement stands where it did. -/
theorem Standing.behindExpression
    (standing : Standing placed world machine state enclosing scopes scope) {found : Expr}
    (wellFormed : found.WellFormed) (inside : found.Scoped placed enclosing scopes) {fuel : Nat}
    {value : Value} (ran : Eval.expression fuel found machine = .ok value after) :
    ∃ wider reached, Standing placed wider after reached enclosing scopes scope := by
  obtain ⟨_, wider, reached, advances, _⟩ :=
    ((agreesAt placed fuel).expression standing.read wellFormed inside).of_ok ran
  exact ⟨wider, reached, standing.advance advances standing.quiet_fromFrame⟩

/-- Behind the first of some statements the others can be followed. -/
theorem Standing.followedRest
    (standing : Standing placed world machine state around.enclosing scopes scope) {first : Stmt}
    {rest : List Stmt} (wellFormed : Stmt.AllWellFormed (first :: rest))
    (inside : Stmt.AllScoped placed around scopes (first :: rest))
    (numbers : (Stmt.numbersAll (first :: rest)).Nodup)
    (unmade : world.Unmade machine.env (Stmt.numbersAll (first :: rest))) {fuel : Nat} {flow : Flow}
    (ran : Eval.statement fuel first machine = .ok flow after) :
    ∃ wider reached, Mirrored placed wider after reached (.statements rest) := by
  obtain ⟨⟨_, behind⟩, wider, reached, advances, ⟨_, stands⟩, later⟩ :=
    ((agreesAt placed fuel).first standing wellFormed.1 inside.1 numbers unmade).of_ok ran
  rw [← advances.env] at stands later
  exact ⟨wider, reached, around, _, behind,
    ⟨advances.simulates, AgreesAt.settled_after wellFormed.1 standing.settled, stands⟩,
    wellFormed.2, inside.2, (List.nodup_append.mp numbers).2.1, later⟩

/-- What can be called has a twin that can be called. -/
theorem Like.exists_callable {called twin : Value} (like : Like placed world called twin)
    {callable : Callable} (found : called.callable? = some callable) :
    ∃ other, LikeCallable placed world callable other := by
  rcases like.callable?.cases with ⟨none, _⟩ | ⟨_, other, same, _, likeCallable⟩
  · rw [found] at none
    cases none
  · rw [found] at same
    cases same
    exact ⟨other, likeCallable⟩

/-- The initializer of a class is bound to a new instance on both sides. -/
theorem Simulates.followedInitializer (simulates : Simulates placed world machine state)
    {cls twin : Class} (like : LikeClass placed world cls twin) {method : Closure}
    (found : cls.findMethod? initializerName = some method) {values twins : List Value}
    (alike : LikeAll placed world values twins) (arity : values.length = (Callable.cls cls).arity)
    (fuel : Nat) :
    Followed placed ⟨fuel, .applyClosure (machine.withInitializer cls method).1 values,
      (machine.withInitializer cls method).2⟩ := by
  have running : Running placed (.fromFrame machine.store.frames.size) world machine state :=
    ⟨simulates, Room.open_fromFrame _⟩
  obtain ⟨object, wider, between, advances, likeObject⟩ :=
    (agree_newInstance running like).of_ok (by rfl)
  rcases (like.methods initializerName).cases with ⟨none, _⟩ | ⟨_, second, same, _, likeMethod⟩
  · rw [found] at none
    cases none
  · rw [found] at same
    cases same
    obtain ⟨closure, widest, reached, further, declaration, likeClosure⟩ :=
      (agree_bindMethod (running.advance advances) (likeMethod.mono advances.grown.le)
        likeObject).of_ok (by rfl)
    refine ⟨widest, reached, further.simulates, closure, twins, likeClosure,
      alike.mono (advances.grown.le.trans further.grown.le), ?_⟩
    rw [arity, Callable.arity, Class.arity, found]
    rfl

end Steps

variable {placed : Placing}

/-- **What a followed task begins can be followed.** -/
theorem Followed.begins {moment next : Moment} (followed : Followed placed moment)
    (begins : Begins moment next) : Followed placed next := by
  obtain ⟨world, state, mirrored⟩ := followed
  cases begins with
  | grouping =>
      exact ⟨world, state, mirrored⟩
  | unary =>
      obtain ⟨enclosing, scopes, scope, reading, wellFormed, inside⟩ := mirrored
      exact ⟨world, state, enclosing, scopes, scope, reading, wellFormed.2, inside⟩
  | binaryLeft =>
      obtain ⟨enclosing, scopes, scope, reading, wellFormed, inside⟩ := mirrored
      exact ⟨world, state, enclosing, scopes, scope, reading, wellFormed.2.1, inside.1⟩
  | logicalLeft | callee | setObject | firstExpression =>
      obtain ⟨enclosing, scopes, scope, reading, wellFormed, inside⟩ := mirrored
      exact ⟨world, state, enclosing, scopes, scope, reading, wellFormed.1, inside.1⟩
  | assigned =>
      obtain ⟨enclosing, scopes, scope, reading, wellFormed, inside⟩ := mirrored
      exact ⟨world, state, enclosing, scopes, scope, reading, wellFormed.2, inside.1⟩
  | getObject => exact ⟨world, state, mirrored⟩
  | binaryRight ran =>
      obtain ⟨enclosing, scopes, scope, reading, wellFormed, inside⟩ := mirrored
      obtain ⟨wider, reached, later⟩ := reading.behindExpression wellFormed.2.1 inside.1 ran
      exact ⟨wider, reached, enclosing, scopes, scope, later, wellFormed.2.2, inside.2⟩
  | logicalRight ran | setValue ran | otherExpressions ran | arguments ran =>
      obtain ⟨enclosing, scopes, scope, reading, wellFormed, inside⟩ := mirrored
      obtain ⟨wider, reached, later⟩ := reading.behindExpression wellFormed.1 inside.1 ran
      exact ⟨wider, reached, enclosing, scopes, scope, later, wellFormed.2, inside.2⟩
  | call ran passed =>
      obtain ⟨enclosing, scopes, scope, reading, wellFormed, inside⟩ := mirrored
      obtain ⟨twin, wider, between, advances, like⟩ :=
        ((agreesAt placed _).expression reading wellFormed.1 inside.1).of_ok ran
      obtain ⟨twins, widest, reached, further, alike⟩ :=
        ((agreesAt placed _).expressions (reading.behind advances) wellFormed.2 inside.2).of_ok
          passed
      exact ⟨widest, reached, further.simulates, twin, twins, like.mono further.grown.le, alike⟩
  | apply found arity room =>
      obtain ⟨simulates, twin, twins, like, alike⟩ := mirrored
      obtain ⟨other, likeCallable⟩ := like.exists_callable found
      exact ⟨world, { state with depth := state.depth + 1 },
        simulates.withDepth (congrArg (· + 1) simulates.depth), other, twins, likeCallable, alike,
        arity⟩
  | applyClosure =>
      obtain ⟨simulates, twin, twins, like, alike, arity⟩ := mirrored
      cases like with
      | function like => exact ⟨world, state, simulates, _, twins, like, alike, arity⟩
  | initializer found =>
      obtain ⟨simulates, twin, twins, like, alike, arity⟩ := mirrored
      cases like with
      | cls like => exact simulates.followedInitializer like found alike arity _
  | body =>
      obtain ⟨simulates, twin, twins, like, alike, arity⟩ := mirrored
      obtain ⟨wider, around, scopes, _, standing, rest⟩ :=
        Running.inBody ⟨simulates, Room.open_fromFrame _⟩ like alike arity
      exact ⟨wider, _, around, scopes, _, standing, rest⟩
  | expression | printed =>
      obtain ⟨around, scopes, scope, standing, wellFormed, inside, _⟩ := mirrored
      exact standing.followed wellFormed inside _
  | @initial _ _ name value =>
      obtain ⟨around, scopes, scope, standing, wellFormed, inside, _⟩ := mirrored
      -- the second interpreter has declared the name by then
      obtain ⟨declaring, stands⟩ := standing.declare
        (rfl : (Stmt.var name (some value)).declared? = some name) wellFormed.1 inside.1
      exact ⟨_, _, around.enclosing, _, _,
        ⟨⟨declaring.simulates, Room.open_fromFrame _⟩, standing.settled.declared wellFormed.1,
          stands.mirrors⟩, wellFormed.2, inside.2⟩
  | block =>
      obtain ⟨around, scopes, scope, standing, wellFormed, inside, numbers, _⟩ := mirrored
      exact ⟨world, state, around, [] :: scopes, _, standing.inBlock, wellFormed, inside, numbers,
        standing.simulates.unmade (Nat.le_refl _) _⟩
  | @condition _ _ _ _ elseBranch =>
      obtain ⟨around, scopes, scope, standing, wellFormed, inside, _⟩ := mirrored
      cases elseBranch with
      | none | some => exact standing.followed wellFormed.1 inside.1 _
  | @thenBranch _ _ _ _ _ elseBranch _ ran =>
      obtain ⟨around, scopes, scope, standing, wellFormed, inside, numbers, _⟩ := mirrored
      cases elseBranch with
      | none =>
          obtain ⟨wider, reached, later⟩ := standing.behindExpression wellFormed.1 inside.1 ran
          exact later.followedBranch wellFormed.2.1 wellFormed.2.2 inside.2
            (List.nodup_append.mp numbers).2.1 _
      | some branch =>
          obtain ⟨wider, reached, later⟩ := standing.behindExpression wellFormed.1 inside.1 ran
          exact later.followedBranch wellFormed.2.1.1 wellFormed.2.1.2 inside.2.1
            (List.nodup_append.mp (List.nodup_append.mp numbers).2.1).1 _
  | elseBranch ran =>
      obtain ⟨around, scopes, scope, standing, wellFormed, inside, numbers, _⟩ := mirrored
      obtain ⟨wider, reached, later⟩ := standing.behindExpression wellFormed.1 inside.1 ran
      exact later.followedBranch wellFormed.2.2.1 wellFormed.2.2.2 inside.2.2
        (List.nodup_append.mp (List.nodup_append.mp numbers).2.1).2.1 _
  | loop =>
      obtain ⟨around, scopes, scope, standing, wellFormed, inside, numbers, _⟩ := mirrored
      exact ⟨world, state, around, scopes, scope, standing, wellFormed.1, wellFormed.2.1,
        wellFormed.2.2, inside.1, inside.2, (List.nodup_append.mp numbers).2.1⟩
  | returned =>
      obtain ⟨around, scopes, scope, standing, wellFormed, inside, _⟩ := mirrored
      exact standing.followed wellFormed inside.2 _
  | superclass =>
      obtain ⟨around, scopes, scope, standing, wellFormed, inside, _⟩ := mirrored
      obtain ⟨parentWellFormed, parentInside⟩ :=
        scoped_superclass wellFormed.2.1 inside.2.1 inside.2.2.1
      exact standing.followed parentWellFormed (parentInside _) _
  | firstStatement =>
      obtain ⟨around, scopes, scope, standing, wellFormed, inside, numbers, unmade⟩ := mirrored
      exact ⟨world, state, around, scopes, scope, standing, wellFormed.1, inside.1,
        (List.nodup_append.mp numbers).1, fun made making id known numbered same member =>
          unmade made making id known numbered same
            (List.mem_append_left _ (Stmt.made_subset _ member))⟩
  | @otherStatements fuel machine middle first rest ran =>
      obtain ⟨around, scopes, scope, standing, wellFormed, inside, numbers, unmade⟩ := mirrored
      exact standing.followedRest wellFormed inside numbers unmade ran
  | roundCondition =>
      obtain ⟨around, scopes, scope, standing, wellFormed, _, _, inside, _⟩ := mirrored
      exact standing.followed wellFormed inside _
  | roundBody ran =>
      obtain ⟨around, scopes, scope, standing, wellFormed, bodyWellFormed, plain, inside,
        bodyInside, numbers⟩ := mirrored
      obtain ⟨wider, reached, later⟩ := standing.behindExpression wellFormed inside ran
      exact later.followedBranch bodyWellFormed plain bodyInside numbers _
  | nextRound ran _ done =>
      obtain ⟨around, scopes, scope, standing, wellFormed, bodyWellFormed, plain, inside,
        bodyInside, numbers⟩ := mirrored
      obtain ⟨wider, reached, later⟩ := standing.behindExpression wellFormed inside ran
      obtain ⟨_, widest, last, further, _⟩ := ((agreesAt placed _).branch later bodyWellFormed plain
        bodyInside numbers (Room.open_fromFrame _)).of_ok done
      exact ⟨widest, last, around, scopes, scope, later.advance further later.quiet_fromFrame,
        wellFormed, bodyWellFormed, plain, inside, bodyInside, numbers⟩

theorem Followed.visits {moment last : Moment} (followed : Followed placed moment)
    (visited : Visits moment last) : Followed placed last := by
  induction visited with
  | here => exact followed
  | begun begins _ ih => exact ih (followed.begins begins)

/-- The statements of a program are followed one after the other. -/
theorem Followed.performs {fuel : Nat} {program : List Stmt} {machine : Machine} {moment : Moment}
    (performed : Performs fuel program machine moment)
    (followed : Followed placed ⟨fuel + 1, .statements program, machine⟩) :
    Followed placed moment := by
  induction performed with
  | first visited => exact (followed.begins .firstStatement).visits visited
  | others ran _ ih =>
      obtain ⟨_, _, _, _, _, standing, wellFormed, inside, numbers, unmade⟩ := followed
      exact ih (standing.followedRest wellFormed inside numbers unmade ran)

/-- **Every moment of the run of a source is followed**, whatever sources the
session was fed before. -/
theorem followed_of_performs {output errors : Sink} {clock : Nat → Float} {session : Session}
    (reached : (Session.start output errors clock).Reaches session) {source : String}
    {distances : List (Nat × Nat)} (runnable : session.Runnable source distances) {fuel : Nat}
    {moment : Moment}
    (performed : Performs fuel (session.read source).1 (session.prepared distances) moment) :
    Followed ((session.prepared distances).distances.placing (session.read source).2.nextId)
      moment := by
  have settled := Session.settled_reaches reached (Session.settled_start output errors clock)
  have sound := Session.sound_reaches reached (Session.sound_start output errors clock)
  obtain ⟨world, state, standing, unmade⟩ :=
    (Session.simulated_reaches reached).starts settled sound runnable
  exact .performs performed ⟨world, state, ⟨.topLevel, .outside⟩, [], .global, standing,
    runnable.wellFormed, runnable.inside sound.unplaced, runnable.numbered.nodup, unmade⟩

end LoxLang.Lexical
