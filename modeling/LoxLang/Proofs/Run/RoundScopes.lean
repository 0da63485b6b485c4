import LoxLang.Proofs.Run.Provenance

/-!
# The scopes of the rounds of a loop

The frames that can be seen from an environment are those around it
(`Store.Surrounds`). If the body of a loop is a block, then each round has a
frame of its own for it. The frames of two rounds are not around each other, so a
frame that can be seen from inside of both is around the loop itself
(`surrounds_loop`). Inside of the body, up to where a function from outside is
entered, everything is done in environments that the frame of the round is around
(`Stays.surrounds`), and so that frame is around every function that is made there
(`MadeInside.surrounds`).
-/

namespace LoxLang

set_option autoImplicit false

open Resolution Eval

/-! ## Frames around an environment -/

/-- Some links lead from an environment to a frame. -/
def Store.Surrounds (store : Store) (frame env : Env) : Prop :=
  ∃ distance, store.ancestor? env distance = some frame

namespace Store

variable {store before after : Store} {env outer frame : Env}

theorem ancestor?_add (store : Store) : ∀ (distance further : Nat) (env : Env),
    store.ancestor? env (distance + further) =
      (store.ancestor? env distance).bind fun frame => store.ancestor? frame further
  | 0, further, env => by
      rw [Nat.zero_add]
      rfl
  | distance + 1, further, env => by
      rw [Nat.add_right_comm, ancestor?, ancestor?]
      cases store.enclosing? env with
      | none => rfl
      | some outer => exact ancestor?_add store distance further outer

namespace Surrounds

theorem refl (store : Store) (env : Env) : store.Surrounds env env := ⟨0, rfl⟩

theorem trans {near : Env} (far : store.Surrounds frame near) (close : store.Surrounds near env) :
    store.Surrounds frame env := by
  obtain ⟨further, there⟩ := far
  obtain ⟨distance, here⟩ := close
  refine ⟨distance + further, ?_⟩
  rw [ancestor?_add, here]
  exact there

theorem of_link (link : store.enclosing? env = some outer) : store.Surrounds outer env :=
  ⟨1, by rw [ancestor?_succ_of_link link]; rfl⟩

theorem mono (surrounds : before.Surrounds frame env) (grows : before.Grows after) :
    after.Surrounds frame env := by
  obtain ⟨distance, reached⟩ := surrounds
  exact ⟨distance, grows.ancestor? reached⟩

/-- The frames around an environment are the environment itself and those around
the next one. -/
theorem eq_or (surrounds : store.Surrounds frame env)
    (link : store.enclosing? env = some outer) : frame = env ∨ store.Surrounds frame outer := by
  obtain ⟨distance, reached⟩ := surrounds
  cases distance with
  | zero =>
      cases reached
      exact .inl rfl
  | succ distance =>
      rw [ancestor?_succ_of_link link] at reached
      exact .inr ⟨distance, reached⟩

/-- Of two frames around an environment, one is around the other. -/
theorem comparable {other : Env} (one : store.Surrounds frame env)
    (second : store.Surrounds other env) :
    store.Surrounds frame other ∨ store.Surrounds other frame := by
  obtain ⟨distance, here⟩ := one
  obtain ⟨further, there⟩ := second
  rcases Nat.le_total distance further with le | le
  · obtain ⟨rest, rfl⟩ := Nat.exists_eq_add_of_le le
    rw [ancestor?_add, here] at there
    exact .inr ⟨rest, there⟩
  · obtain ⟨rest, rfl⟩ := Nat.exists_eq_add_of_le le
    rw [ancestor?_add, there] at here
    exact .inl ⟨rest, here⟩

end Surrounds

/-- All frames around an environment are there. -/
def Anchored (store : Store) (env : Env) : Prop :=
  ∀ frame, store.Surrounds frame env → frame < store.frames.size

/-- Frames that match scopes are there, out to the global one. -/
theorem Matches.anchored (inhabited : 0 < store.frames.size)
    (root : store.enclosing? Env.global = none) : ∀ {scopes : Scopes} {env : Env},
      store.Matches scopes env → store.Anchored env
  | [], _, rfl => by
      rintro frame ⟨_ | distance, reached⟩
      · cases reached
        exact inhabited
      · rw [ancestor?, root] at reached
        cases reached
  | _ :: _, env, ⟨_, parent, link, outer⟩ => by
      intro frame surrounds
      rcases surrounds.eq_or link with rfl | further
      · exact lt_of_enclosing? link
      · exact Matches.anchored inhabited root outer frame further

/-- As the store grows, no frame comes up around an environment that was
there. -/
theorem Anchored.of_grows (grows : before.Grows after) {frame : Env} : ∀ {distance : Nat}
    {env : Env}, before.Anchored env → after.ancestor? env distance = some frame →
      before.ancestor? env distance = some frame
  | 0, _, _, reached => reached
  | distance + 1, env, anchored, reached => by
      have same := grows.enclosing env (anchored env (.refl before env))
      rw [ancestor?, same] at reached
      rw [ancestor?]
      split at reached
      next outer link =>
        refine Anchored.of_grows grows (fun frame further => ?_) reached
        exact anchored frame (further.trans (.of_link link))
      next => cases reached

theorem Anchored.surrounds (anchored : before.Anchored env) (grows : before.Grows after)
    (surrounds : after.Surrounds frame env) : before.Surrounds frame env := by
  obtain ⟨distance, reached⟩ := surrounds
  exact ⟨distance, anchored.of_grows grows reached⟩

end Store

/-! ## Rounds and their bodies -/

/-- The rounds of a loop that come behind a round. -/
inductive LaterRound (condition : Expr) (body : Stmt) : Moment → Moment → Prop where
  | next {fuel less : Nat} {machine last : Machine}
      (begins : Begins ⟨fuel, .rounds condition body, machine⟩
        ⟨less, .rounds condition body, last⟩) :
      LaterRound condition body ⟨fuel, .rounds condition body, machine⟩
        ⟨less, .rounds condition body, last⟩
  | further {first : Moment} {fuel less : Nat} {machine last : Machine}
      (earlier : LaterRound condition body first ⟨fuel, .rounds condition body, machine⟩)
      (begins : Begins ⟨fuel, .rounds condition body, machine⟩
        ⟨less, .rounds condition body, last⟩) :
      LaterRound condition body first ⟨less, .rounds condition body, last⟩

/-- The execution of the body of a counting loop in a round, if the body is a
block. With an increment there is another block around it. -/
inductive RunsBody (body : List Stmt) : Option Expr → Moment → Moment → Prop where
  | alone {fuel : Nat} {round inside : Moment} {machine : Machine}
      (begins : Begins round ⟨fuel, .statement (.block body), machine⟩)
      (opens : Begins ⟨fuel, .statement (.block body), machine⟩ inside) :
      RunsBody body none round inside
  | counted {fuel less last : Nat} {round inside : Moment} {machine outer inner : Machine}
      {step : Expr}
      (begins : Begins round ⟨fuel, .statement (.block [.block body, .expression step]), machine⟩)
      (opens : Begins ⟨fuel, .statement (.block [.block body, .expression step]), machine⟩
        ⟨less, .statements [.block body, .expression step], outer⟩)
      (enters : Begins ⟨less, .statements [.block body, .expression step], outer⟩
        ⟨last, .statement (.block body), inner⟩)
      (opensBody : Begins ⟨last, .statement (.block body), inner⟩ inside) :
      RunsBody body (some step) round inside

/-! ## Blocks around a body -/

/-- The machine some blocks further in, behind another one: the frames around its
environment are new ones and those around the environment of the other. -/
structure Machine.Opened (outer inside : Machine) : Prop where
  grows : outer.store.Grows inside.store
  isNew : outer.store.frames.size ≤ inside.env
  isThere : inside.env < inside.store.frames.size
  around : ∀ store, inside.store.Grows store → ∀ frame, store.Surrounds frame inside.env →
    outer.store.frames.size ≤ frame ∧ frame < inside.store.frames.size ∨
      store.Surrounds frame outer.env

namespace Machine

variable {outer inside : Machine}

theorem size_inBlock (machine : Machine) :
    machine.inBlock.store.frames.size = machine.store.frames.size + 1 := by
  simp [inBlock, Store.child]

/-- The frame of a block, and what is around it. -/
theorem eq_or_of_inBlock {machine : Machine} {store : Store}
    (grows : machine.inBlock.store.Grows store) {frame : Env}
    (surrounds : store.Surrounds frame machine.inBlock.env) :
    frame = machine.store.frames.size ∨ store.Surrounds frame machine.env := by
  have link : machine.inBlock.store.enclosing? machine.inBlock.env = some machine.env :=
    machine.store.enclosing?_child machine.env
  have kept := grows.enclosing _ (Store.lt_of_enclosing? link)
  exact surrounds.eq_or (kept.trans link)

/-- One more block: its frame is new, and the rest is around the machine in front of
it. -/
theorem opened_inBlock (grows : outer.store.Grows inside.store)
    (around : ∀ store, inside.store.Grows store → ∀ frame, store.Surrounds frame inside.env →
      outer.store.frames.size ≤ frame ∧ frame < inside.store.frames.size ∨
        store.Surrounds frame outer.env) : outer.Opened inside.inBlock where
  grows := grows.trans (inside.store.grows_child _)
  isNew := grows.size
  isThere := by
    rw [size_inBlock]
    exact Nat.lt_succ_self _
  around store later frame surrounds := by
    rw [size_inBlock]
    rcases eq_or_of_inBlock later surrounds with rfl | further
    · exact .inl ⟨grows.size, Nat.lt_succ_self _⟩
    · have kept := (inside.store.grows_child inside.env).trans later
      exact (around store kept frame further).imp_left (And.imp_right Nat.lt_succ_of_lt)

theorem Restored.opened (restored : outer.Restored inside) : outer.Opened inside.inBlock :=
  opened_inBlock restored.store fun _ _ _ surrounds => .inr (restored.env ▸ surrounds)

theorem Opened.inBlock (opened : outer.Opened inside) : outer.Opened inside.inBlock :=
  opened_inBlock opened.grows opened.around

/-- **Two bodies share what is around the loop.** Each is opened behind a machine
in the same environment, the second one later than the first. A frame that is
around an environment inside of the first and one inside of the second is around
the environment of the loop. -/
theorem Opened.surrounds_loop {start again one other : Machine} (first : start.Opened one)
    (second : again.Opened other) (anchored : start.store.Anchored start.env)
    (same : again.env = start.env) (between : one.store.Grows again.store) {store : Store}
    (later : other.store.Grows store) {env further shared : Env}
    (inFirst : store.Surrounds one.env env) (inSecond : store.Surrounds other.env further)
    (seen : store.Surrounds shared env) (seenToo : store.Surrounds shared further) :
    start.store.Surrounds shared start.env := by
  have kept : one.store.Grows store := (between.trans second.grows).trans later
  have aroundFirst := first.around store kept
  have aroundSecond := second.around store later
  rw [same] at aroundSecond
  have loop {frame : Env} :
      store.Surrounds frame start.env → start.store.Surrounds frame start.env :=
    anchored.surrounds (first.grows.trans kept)
  -- neither frame is around the other: both are newer than the loop, and the second
  -- is newer than all that was opened for the first
  have apart : ¬ store.Surrounds one.env other.env := by
    intro surrounds
    rcases aroundSecond _ surrounds with ⟨isNew, _⟩ | outside
    · exact Nat.not_lt.mpr (Nat.le_trans between.size isNew) first.isThere
    · exact Nat.not_lt.mpr first.isNew (anchored _ (loop outside))
  have apartToo : ¬ store.Surrounds other.env one.env := by
    intro surrounds
    rcases aroundFirst _ surrounds with ⟨_, isThere⟩ | outside
    · exact Nat.not_lt.mpr (Nat.le_trans between.size second.isNew) isThere
    · have older := Nat.le_trans first.grows.size (Nat.le_trans between.size second.isNew)
      exact Nat.not_lt.mpr older (anchored _ (loop outside))
  rcases seen.comparable inFirst with inner | outer
  · rcases aroundFirst _ inner with ⟨_, isThere⟩ | outside
    · rcases seenToo.comparable inSecond with near | far
      · rcases aroundSecond _ near with ⟨isNew, _⟩ | outside
        · exact absurd isThere (Nat.not_lt.mpr (Nat.le_trans between.size isNew))
        · exact loop outside
      · exact absurd (far.trans inner) apartToo
    · exact loop outside
  · rcases seenToo.comparable inSecond with near | far
    · exact absurd (outer.trans near) apart
    · exact (outer.comparable far).elim (absurd · apart) (absurd · apartToo)

end Machine

/-! ## From round to round -/

namespace Eval

variable {fuel : Nat} {machine after : Machine}

/-- A block that has ended has run its statements inside. -/
theorem block_eq_ok {body : List Stmt} {flow : Flow}
    (ran : statement fuel (.block body) machine = .ok flow after) :
    ∃ less inside, statements less body machine.inBlock = .ok flow inside ∧
      after.store = inside.store := by
  cases fuel with
  | zero => cases ran
  | succ less =>
      have same : statement (less + 1) (.block body) machine =
          within machine.inBlock.env (statements less body)
            { machine with store := machine.inBlock.store } := rfl
      rw [same, within] at ran
      split at ran
      next result inside here =>
        cases ran
        exact ⟨less, inside, here, rfl⟩
      next => cases ran

/-- The frame of a block that has ended is still there. -/
theorem grows_block {body : List Stmt} {flow : Flow}
    (ran : statement fuel (.block body) machine = .ok flow after) :
    machine.inBlock.store.Grows after.store := by
  obtain ⟨less, inside, here, same⟩ := block_eq_ok ran
  rw [same]
  exact (((restoredAt less).statements body).of_ok here).store

/-- The same for a block that other statements follow. -/
theorem grows_first {body : List Stmt} {rest : List Stmt}
    (ran : statements fuel (.block body :: rest) machine = .ok .normal after) :
    machine.inBlock.store.Grows after.store := by
  cases fuel with
  | zero => cases ran
  | succ less =>
      obtain ⟨flow, middle, here, further⟩ := bind_eq_ok ran
      cases flow with
      | returned value => cases further
      | normal =>
          exact (grows_block here).trans (((restoredAt less).statements rest).of_ok further).store

end Eval

section Rounds

variable {condition : Expr} {whole : Stmt} {body : List Stmt} {increment : Option Expr}
  {fuel less : Nat} {machine last : Machine} {inside : Moment}

/-- The body is run behind the condition, inside of one block or two. -/
theorem RunsBody.cases
    (runs : RunsBody body increment ⟨fuel, .rounds condition whole, machine⟩ inside) :
    ∃ less value ready, fuel = less + 1 ∧ expression less condition machine = .ok value ready ∧
      (whole = .block body ∧ inside.machine = ready.inBlock ∨
        ∃ rest, whole = .block (.block body :: rest) ∧ inside.machine = ready.inBlock.inBlock) := by
  cases runs with
  | alone begins opens =>
      cases begins with
      | roundBody ran _ =>
          cases opens with
          | block => exact ⟨_, _, _, rfl, ran, .inl ⟨rfl, rfl⟩⟩
  | counted begins opens enters opensBody =>
      cases begins with
      | roundBody ran _ =>
          cases opens with
          | block =>
              cases enters with
              | firstStatement =>
                  cases opensBody with
                  | block => exact ⟨_, _, _, rfl, ran, .inr ⟨_, rfl, rfl⟩⟩

/-- The body of a round is opened behind the machine of the round. -/
theorem RunsBody.opened
    (runs : RunsBody body increment ⟨fuel, .rounds condition whole, machine⟩ inside) :
    machine.Opened inside.machine := by
  obtain ⟨less, value, ready, rfl, ran, shape⟩ := runs.cases
  have opened := (((restoredAt less).expression condition).of_ok ran).opened
  rcases shape with ⟨_, same⟩ | ⟨_, _, same⟩
  · rw [same]
    exact opened
  · rw [same]
    exact opened.inBlock

theorem Begins.restored_of_rounds
    (begins : Begins ⟨fuel, .rounds condition whole, machine⟩
      ⟨less, .rounds condition whole, last⟩) : machine.Restored last := by
  cases begins with
  | nextRound ran _ done =>
      exact (((restoredAt _).expression _).of_ok ran).trans
        (((restoredAt _).statement _).of_ok done)

/-- What was there in the body of a round is there in the next round. -/
theorem RunsBody.grows_next
    (runs : RunsBody body increment ⟨fuel, .rounds condition whole, machine⟩ inside)
    (begins : Begins ⟨fuel, .rounds condition whole, machine⟩
      ⟨less, .rounds condition whole, last⟩) : inside.machine.store.Grows last.store := by
  cases begins with
  | nextRound ran _ done =>
      obtain ⟨_, _, ready, same, here, shape⟩ := runs.cases
      cases same
      cases ran.symm.trans here
      rcases shape with ⟨rfl, same⟩ | ⟨rest, rfl, same⟩
      · rw [same]
        exact Eval.grows_block done
      · obtain ⟨_, ended, outer, kept⟩ := Eval.block_eq_ok done
        rw [same, kept]
        exact Eval.grows_first outer

/-- The environment of the loop is the same in every round, and what was there in
the body of a round is there in all later ones. -/
theorem RunsBody.later {round later : Moment} (following : LaterRound condition whole round later)
    (runs : RunsBody body increment round inside) :
    later.machine.env = round.machine.env ∧
      inside.machine.store.Grows later.machine.store := by
  induction following with
  | next begins => exact ⟨begins.restored_of_rounds.env, runs.grows_next begins⟩
  | further _ begins ih =>
      obtain ⟨env, grows⟩ := ih runs
      have restored := begins.restored_of_rounds
      exact ⟨restored.env.trans env, grows.trans restored.store⟩

end Rounds

/-! ## What is done inside -/

/-- The moments of a task, up to where a function is entered that was not made
inside of the environment that the task is begun in. -/
inductive Stays (first : Moment) : Moment → Prop where
  | here : Stays first first
  | begun {fuel less : Nat} {task further : Task} {machine last : Machine}
      (earlier : Stays first ⟨fuel, task, machine⟩)
      (begins : Begins ⟨fuel, task, machine⟩ ⟨less, further, last⟩)
      (entered : ∀ closure values, task = .applyClosure closure values →
        machine.store.Surrounds first.machine.env closure.env) :
      Stays first ⟨less, further, last⟩

/-- A task begins further tasks in its own environment, in that of a block inside of
it, or inside of the environment of the function that is entered. -/
theorem Begins.surrounds {fuel less : Nat} {task further : Task} {machine last : Machine}
    (begins : Begins ⟨fuel, task, machine⟩ ⟨less, further, last⟩) {frame : Env}
    (inside : machine.store.Surrounds frame machine.env)
    (entered : ∀ closure values, task = .applyClosure closure values →
      machine.store.Surrounds frame closure.env) :
    machine.store.Grows last.store ∧ last.store.Surrounds frame last.env := by
  have stays {later : Machine} (restored : machine.Restored later) :
      machine.store.Grows later.store ∧ later.store.Surrounds frame later.env := by
    rw [restored.env]
    exact ⟨restored.store, inside.mono restored.store⟩
  have opens {env inner : Env} {store : Store} (outer : machine.store.Surrounds frame env)
      (grows : machine.store.Grows store) (link : store.enclosing? inner = some env) :
      machine.store.Grows store ∧ store.Surrounds frame inner :=
    ⟨grows, (outer.mono grows).trans (.of_link link)⟩
  cases begins with
  | body =>
      exact opens (entered _ _ rfl) (machine.store.extends_childWith _ _ _).toGrows
        (machine.store.enclosing?_childWith _ _ _)
  | block =>
      exact opens inside (machine.store.grows_child machine.env)
        (machine.store.enclosing?_child machine.env)
  | @initializer _ _ cls _ method =>
      have fresh : machine.store.Grows (machine.store.newInstance cls).2 := .of_frames rfl
      have grows : machine.store.Grows (machine.withInitializer cls method).2.store :=
        fresh.trans (Store.grows_bindMethod _ _ _)
      exact ⟨grows, inside.mono grows⟩
  | call ran passed =>
      exact stays ((((restoredAt _).expression _).of_ok ran).trans
        (((restoredAt _).expressions _).of_ok passed))
  | nextRound ran _ done =>
      exact stays ((((restoredAt _).expression _).of_ok ran).trans
        (((restoredAt _).statement _).of_ok done))
  | otherStatements ran => exact stays (((restoredAt _).statement _).of_ok ran)
  | binaryRight ran | logicalRight ran | arguments ran | setValue ran | otherExpressions ran
  | thenBranch ran | elseBranch ran | roundBody ran =>
      exact stays (((restoredAt _).expression _).of_ok ran)
  | _ => exact ⟨.refl _, inside⟩

/-- Up to where a function from outside is entered, everything is done in
environments that the one from the start is around. -/
theorem Stays.surrounds {first last : Moment} (stays : Stays first last) :
    first.machine.store.Grows last.machine.store ∧
      last.machine.store.Surrounds first.machine.env last.machine.env := by
  induction stays with
  | here => exact ⟨.refl _, .refl _ _⟩
  | begun _ begins entered ih =>
      obtain ⟨grows, surrounds⟩ := begins.surrounds ih.2 entered
      exact ⟨ih.1.trans grows, surrounds⟩

/-- The functions that the execution of a statement makes itself: the one of a
function statement, and the methods of a class statement. -/
inductive Makes : Nat → Stmt → Machine → Closure → Prop where
  | function {fuel : Nat} {declaration : FunctionDecl} {machine : Machine} :
      Makes (fuel + 1) (.function declaration) machine ⟨declaration, machine.env, false⟩
  | method {declared : Declaration} {name : String} {method : Closure}
      (happened : declared.Happened (· = declared.moment))
      (own : declared.own.find? name = some method) :
      Makes (declared.fuel + 1) (.classDecl declared.name declared.superclass declared.methods)
        declared.start method

namespace Eval

/-- The frame that holds the superclass is inside of the environment of the
class statement. -/
theorem enclosing?_declareClass (name : Token) (parent : Class) (methods : List FunctionDecl)
    (machine : Machine) :
    (reached (declareClass name (some parent) methods machine)).store.enclosing?
      machine.store.frames.size = some machine.env := by
  let named := machine.store.define machine.env name.lexeme .nil
  let opened : Machine := { machine with
    store := (named.child machine.env).2.defineAll (named.child machine.env).1 ["super"]
      [.cls parent] }
  have link := named.enclosing?_childWith machine.env ["super"] [.cls parent]
  have size : named.frames.size = machine.store.frames.size := Store.size_bindIn _ _ _ _
  -- behind the new frame the class is made and its name bound to it
  have whole : declareClass name (some parent) methods machine =
      (newClass name.lexeme (some parent) (methodTable (named.child machine.env).1 methods) >>=
        fun cls => reassign name (.cls cls)) opened := rfl
  have further := (restores_newClass name.lexeme (some parent)
    (methodTable (named.child machine.env).1 methods)).bind
      (fun cls => restores_reassign name (.cls cls)) opened
  rw [← whole] at further
  rw [← size]
  exact (further.store.enclosing _ (Store.lt_of_enclosing? link)).trans link

theorem reached_classDecl {fuel : Nat} {superclass : Expr} {parent : Class}
    {machine ready : Machine} (ran : expression fuel superclass machine = .ok (.cls parent) ready)
    (name : Token) (methods : List FunctionDecl) :
    reached (statement (fuel + 1) (.classDecl name (some superclass) methods) machine) =
      reached (declareClass name (some parent) methods ready) := by
  simp only [statement, Bind.bind, EStateM.bind, ran]
  cases declareClass name (some parent) methods ready <;> rfl

end Eval

/-- A function that is made closes over the environment that it is made in, or
over one inside of it. -/
theorem Makes.surrounds {fuel : Nat} {found : Stmt} {machine : Machine} {closure : Closure}
    (makes : Makes fuel found machine closure) :
    (reached (statement fuel found machine)).store.Surrounds machine.env closure.env := by
  cases makes with
  | function => exact .refl _ _
  | @method declared name method happened own =>
      obtain ⟨declaration, _, _, rfl⟩ := exists_of_find?_methodTable own
      obtain ⟨fuel, name, superclass, methods, start, parent, ready⟩ := declared
      have denoted := happened.denoted
      cases superclass with
      | none =>
          obtain ⟨top, stays⟩ : parent = none ∧ ready = start := denoted
          subst top stays
          exact .refl _ _
      | some superclass =>
          obtain ⟨parent, rfl, ran⟩ := denoted
          have restored := ((restoredAt fuel).expression superclass).of_ok ran
          have link := enclosing?_declareClass name parent methods ready
          rw [restored.env, ← reached_classDecl ran] at link
          exact .of_link link

/-- A function that is made inside, up to where a function from outside is entered,
and the store behind the statement that makes it. -/
inductive MadeInside (inside : Moment) : Closure → Store → Prop where
  | intro {fuel : Nat} {found : Stmt} {machine : Machine} {closure : Closure}
      (stays : Stays inside ⟨fuel, .statement found, machine⟩)
      (makes : Makes fuel found machine closure) :
      MadeInside inside closure (reached (statement fuel found machine)).store

theorem MadeInside.surrounds {inside : Moment} {closure : Closure} {behind : Store}
    (made : MadeInside inside closure behind) :
    inside.machine.store.Grows behind ∧ behind.Surrounds inside.machine.env closure.env := by
  obtain @⟨fuel, found, machine, _, stays, makes⟩ := made
  obtain ⟨grows, surrounds⟩ := stays.surrounds
  have further := ((restoredAt fuel).statement found machine).store
  exact ⟨grows.trans further, (surrounds.mono further).trans makes.surrounds⟩

/-- **Functions of different rounds share what is around the loop.** -/
theorem RunsBody.shared {condition : Expr} {whole : Stmt} {body : List Stmt}
    {increment : Option Expr} {fuel less : Nat} {machine last : Machine} {one other : Moment}
    (following : LaterRound condition whole ⟨fuel, .rounds condition whole, machine⟩
      ⟨less, .rounds condition whole, last⟩)
    (first : RunsBody body increment ⟨fuel, .rounds condition whole, machine⟩ one)
    (second : RunsBody body increment ⟨less, .rounds condition whole, last⟩ other)
    (anchored : machine.store.Anchored machine.env) {closure twin : Closure} {behind later : Store}
    (made : MadeInside one closure behind) (remade : MadeInside other twin later) {store : Store}
    (grows : behind.Grows store) (growsToo : later.Grows store) {shared : Env}
    (seen : store.Surrounds shared closure.env) (seenToo : store.Surrounds shared twin.env) :
    machine.store.Surrounds shared machine.env := by
  obtain ⟨env, between⟩ := first.later following
  obtain ⟨_, inFirst⟩ := made.surrounds
  obtain ⟨opened, inSecond⟩ := remade.surrounds
  exact first.opened.surrounds_loop second.opened anchored env between (opened.trans growsToo)
    (inFirst.mono grows) (inSecond.mono growsToo) seen seenToo

end LoxLang
