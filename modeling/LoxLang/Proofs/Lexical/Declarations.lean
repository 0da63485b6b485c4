import LoxLang.Proofs.Lexical.Agreement

/-!
# Declarations on both sides

A statement stands in scopes that its environment mirrors, and the current
frame has no cells but those of names that the innermost scope knows
(`Stands`). So a name that resolution takes for a new one really is new in its
frame, and the cell it gets is its only one.

The lemmas follow a declaration: its name is declared (`Stands.declare`), then
given its value (`agree_define`), and behind it the scopes know the name. The
parameters of a function are declared one after another in the frame of the
call (`advances_call`). A class gives its name `nil` first, so that the scope
of its methods knows it (`agree_declareClass`).
-/

namespace LoxLang

set_option autoImplicit false

open Resolution

/-- A name is new behind a mark if it is another one and was new before. -/
theorem Scopes.fresh_mark {top : LocalScope} {outer : Scopes} {name other : String} {flag : Bool} :
    Scopes.Fresh other (Scopes.mark name flag (top :: outer)) ↔
      other ≠ name ∧ Scopes.Fresh other (top :: outer) := by
  simp only [Scopes.mark, Scopes.Fresh]
  by_cases same : other = name
  · simp [same]
  · simp [same, Bindings.find?_insert_of_ne same]

/-- The numbers of the functions that a statement makes where it stands. -/
def Stmt.made : Stmt → List Nat
  | .function declaration => [declaration.id]
  | _ => []

theorem Stmt.made_subset (found : Stmt) : found.made ⊆ found.numbers := by
  cases found with
  | function declaration =>
      obtain ⟨id, name, params, body⟩ := declaration
      simp [Stmt.made, Stmt.numbers, FunctionDecl.numbers]
  | _ => exact List.nil_subset _

/-- What is no declaration declares no name and makes no function. -/
theorem Stmt.eq_nothing_of_isDeclaration {found : Stmt} (other : found.isDeclaration = false) :
    found.declared? = none ∧ found.made = [] := by
  cases found <;> first | exact ⟨rfl, rfl⟩ | cases other

namespace Lexical

/-! ## Where a statement stands -/

/-- A statement stands in scopes that are mirrored, in a frame whose cells are
those of names in the innermost scope. -/
structure Stands (placed : Placing) (world : World) (store : Store) (scopes : Scopes) (env : Env)
    (scope : Scope) : Prop where
  mirrors : Mirrors placed world store scopes env scope
  isLocal : scope.isLocal = !scopes.isEmpty
  complete : scopes ≠ [] → ∀ (cell : Nat) (name : String),
    world.places[cell]? = some (env, name) → ¬ scopes.Fresh name

/-- The room of a statement: new frames, and its own name and function in the
current frame. -/
def Room.behind (first : Nat) (env : Env) (found : Stmt) : Room where
  cell frame name :=
    first ≤ frame ∨ frame = env ∧ ∃ token, found.declared? = some token ∧ token.lexeme = name
  function frame id := first ≤ frame ∨ frame = env ∧ id ∈ found.made

theorem Room.open_behind (first : Nat) (env : Env) (found : Stmt) :
    (Room.behind first env found).Open first :=
  fun _ later => ⟨fun _ => .inl later, fun _ => .inl later⟩

/-- What is no declaration fills new frames only. -/
theorem Room.behind_le {first : Nat} {env : Env} {found : Stmt}
    (other : found.isDeclaration = false) {room : Room} (isOpen : room.Open first) :
    (Room.behind first env found).Le room := by
  obtain ⟨undeclared, unmade⟩ := Stmt.eq_nothing_of_isDeclaration other
  constructor
  · rintro frame name (later | ⟨_, token, declared, _⟩)
    · exact (isOpen frame later).1 name
    · rw [undeclared] at declared
      cases declared
  · rintro frame id (later | ⟨_, made⟩)
    · exact (isOpen frame later).2 id
    · rw [unmade] at made
      cases made

/-- The world in which a name is declared. Only local names have cells. -/
def World.declaring (world : World) (env : Env) (name : String) : Scopes → World
  | [] => world
  | _ :: _ => world.withPlace (env, name)

/-- Declaring a name makes nothing. -/
theorem World.Unmade.declaring {world : World} {env : Env} {ids : List Nat}
    (unmade : world.Unmade env ids) (frame : Env) (name : String) (scopes : Scopes) :
    (world.declaring frame name scopes).Unmade env ids := by
  cases scopes <;> exact unmade

theorem Grown.declaring {room : Room} {env : Env} {name : String} (allowed : room.cell env name)
    (world : World) (scopes : Scopes) : Grown room world (world.declaring env name scopes) := by
  cases scopes with
  | nil => exact .refl room world
  | cons top outer => exact .withPlace allowed

namespace Stands

variable {placed : Placing} {room : Room} {world wider : World} {store after : Store}
  {scopes : Scopes} {env : Env} {scope : Scope}

/-- A statement still stands where it did if no new name was added to its
frame. -/
theorem later (stands : Stands placed world store scopes env scope)
    (grown : Grown room world wider) (extended : store.Extends after)
    (quiet : scopes ≠ [] → ∀ name, room.cell env name → ¬ scopes.Fresh name) :
    Stands placed wider after scopes env scope := by
  refine ⟨stands.mirrors.mono grown.le extended, stands.isLocal, fun inner cell name known => ?_⟩
  rcases grown.places cell env name known with before | new
  · exact stands.complete inner cell name before
  · exact quiet inner name new

/-- The only name that may be added is one that the scopes know. -/
theorem behind {name : String} {flag : Bool}
    (stands : Stands placed world store (scopes.mark name flag) env scope)
    (grown : Grown room world wider) (extended : store.Extends after)
    (only : ∀ other, room.cell env other → other = name) :
    Stands placed wider after (scopes.mark name flag) env scope := by
  refine stands.later grown extended fun inner other allowed => ?_
  cases scopes with
  | nil => exact absurd rfl inner
  | cons top outer =>
      rw [Scopes.fresh_mark]
      exact fun new => new.1 (only other allowed)

/-- Something is made, and the frame is as it was. -/
theorem withMaking (stands : Stands placed world store scopes env scope) (making : Making) :
    Stands placed (world.withMaking making) store scopes env scope :=
  ⟨stands.mirrors.mono (world.le_withMaking making) (.refl store), stands.isLocal,
    stands.complete⟩

/-- **A new name is declared** on both sides. -/
theorem declare {machine : Machine} {state : State}
    (stands : Stands placed world machine.store scopes env scope)
    (simulates : Simulates placed world machine state) {name : String} (plain : Plain name)
    (fresh : scopes.Fresh name) :
    Simulates placed (world.declaring env name scopes) machine (state.declare scope name).2 ∧
      Stands placed (world.declaring env name scopes) machine.store (scopes.mark name false) env
        (state.declare scope name).1 := by
  have isLocal := stands.isLocal
  cases scopes with
  | nil =>
      have declared : state.declare scope name = (scope, state) := by
        simp [State.declare, isLocal]
      rw [declared]
      exact ⟨simulates, stands⟩
  | cons top outer =>
      have declared : state.declare scope name =
          ({ scope with names := scope.names.insert name world.places.size },
            { state with cells := state.cells.push .nil }) := by
        simp [State.declare, isLocal, simulates.stored.cellCount]
      obtain ⟨_, parent, link, _⟩ := stands.mirrors.chain
      have inner : env ≠ Env.global := by
        rintro rfl
        rw [simulates.global] at link
        cases link
      have unplaced : ∀ cell : Nat, world.places[cell]? ≠ some (env, name) :=
        fun cell known => stands.complete (List.cons_ne_nil _ _) cell name known fresh
      rw [declared]
      refine ⟨simulates.declare inner (Store.lt_of_enclosing? link) plain unplaced,
        stands.mirrors.declare plain, isLocal, fun _ cell other known => ?_⟩
      rw [Scopes.fresh_mark]
      rintro ⟨distinct, absent⟩
      rcases World.getElem?_withPlace known with ⟨_, same⟩ | before
      · exact distinct (Prod.mk.inj same).2
      · exact stands.complete (List.cons_ne_nil _ _) cell other before absent

/-- Behind the binding of a declared name, the scopes know it. -/
theorem define {name : Token}
    (stands : Stands placed world store (scopes.mark name.lexeme false) env scope)
    (named : name.IsName) (inside : env < store.frames.size) (value : Value) :
    Stands placed world (store.bindIn env name.lexeme value) (scopes.mark name.lexeme true) env
      scope := by
  have bound : ((store.bindIn env name.lexeme value).findIn? env name.lexeme).isSome := by
    rw [Store.findIn?_bindIn_self inside]
    rfl
  refine ⟨(stands.mirrors.mono (.refl world) (store.extends_bindIn env named value)).define named
    bound, ?_, ?_⟩
  · rw [stands.isLocal]
    cases scopes <;> rfl
  · cases scopes with
    | nil => exact fun inner => absurd rfl inner
    | cons top outer =>
        intro _ cell other known
        have new := stands.complete (List.cons_ne_nil _ _) cell other known
        rw [Scopes.fresh_mark] at new ⊢
        exact new

end Stands

/-! ## Names and their values -/

section Define

variable {placed : Placing} {room : Room} {world : World} {machine : Machine} {state : State}
  {scopes : Scopes} {scope : Scope}

/-- A declared name is given its value. -/
theorem agree_define (running : Running placed room world machine state) {name : Token}
    (stands : Stands placed world machine.store (scopes.mark name.lexeme false) machine.env scope)
    (named : name.IsName) {value twin : Value} (like : Like placed world value twin) :
    Agree placed room world machine
      (fun wider store _ _ => (store.findIn? machine.env name.lexeme).isSome ∧
        Stands placed wider store (scopes.mark name.lexeme true) machine.env scope)
      (Eval.define name.lexeme value machine) (define scope name.lexeme twin state) := by
  have plain := plain_of_isName named
  have inside := stands.mirrors.chain.lt running.simulates.inhabited
  refine ⟨world, ⟨.refl room world, rfl, machine.store.extends_bindIn machine.env named value,
    running.simulates.define plain (stands.mirrors.targets plain) like⟩, ?_,
    stands.define named inside value⟩
  simp only [Store.define, Store.findIn?_bindIn_self inside]
  rfl

end Define

/-! ## Parameters -/

/-- Lists of like values. -/
inductive LikeAll (placed : Placing) (world : World) : List Value → List Value → Prop where
  | nil : LikeAll placed world [] []
  | cons {value twin : Value} {values twins : List Value} (first : Like placed world value twin)
      (rest : LikeAll placed world values twins) :
      LikeAll placed world (value :: values) (twin :: twins)

theorem LikeAll.mono {placed : Placing} {world wider : World} (le : world.Le wider)
    {values twins : List Value} (like : LikeAll placed world values twins) :
    LikeAll placed wider values twins := by
  induction like with
  | nil => exact .nil
  | cons first _ ih => exact .cons (first.mono le) ih

theorem LikeAll.length_eq {placed : Placing} {world : World} {values twins : List Value}
    (like : LikeAll placed world values twins) : twins.length = values.length := by
  induction like with
  | nil => rfl
  | cons _ _ ih => exact congrArg (· + 1) ih

section Parameters

variable {placed : Placing} {room : Room}

/-- Room for cells in one frame, and for nothing else. -/
def Room.inFrame (env : Env) : Room := ⟨fun frame _ => frame = env, fun _ _ => False⟩

/-- Parameters are declared one after another in the frame of a call. -/
theorem simulates_defineAll {outer : Scopes} {env : Env} :
    ∀ {params : List Token} {values twins : List Value} {world : World} {machine : Machine}
      {state : State} {top : LocalScope} {scope : Scope},
      Simulates placed world machine state →
      Stands placed world machine.store (top :: outer) env scope →
      (∀ param ∈ params, param.IsName) → (params.map Token.lexeme).Nodup →
      (∀ param ∈ params, Scopes.Fresh param.lexeme (top :: outer)) →
      LikeAll placed world values twins → values.length = params.length →
      ∃ wider, Grown (.inFrame env) world wider ∧
        Simulates placed wider
          { machine with store := machine.store.defineAll env (params.map Token.lexeme) values }
          (state.defineAll scope (params.map Token.lexeme) twins).2 ∧
        Stands placed wider (machine.store.defineAll env (params.map Token.lexeme) values)
          (params.foldl (fun scope param => scope.insert param.lexeme true) top :: outer) env
          (state.defineAll scope (params.map Token.lexeme) twins).1
  | [], values, twins, world, machine, state, top, scope => by
      intro simulates stands _ _ _ _ _
      exact ⟨world, .refl _ world, simulates, stands⟩
  | param :: params, _, _, world, machine, state, top, scope => by
      intro simulates stands named distinct fresh like lengths
      cases like with
      | nil => cases lengths
      | @cons value twin values twins first rest =>
          obtain ⟨isName, others⟩ := List.forall_mem_cons.mp named
          obtain ⟨new, later⟩ := List.forall_mem_cons.mp fresh
          obtain ⟨unlike, distinct⟩ := List.nodup_cons.mp distinct
          have plain := plain_of_isName isName
          have grown : Grown (.inFrame env) world (world.withPlace (env, param.lexeme)) :=
            .withPlace rfl
          -- one parameter is declared and given its value
          obtain ⟨declared, standing⟩ := stands.declare simulates plain new
          have inside := standing.mirrors.chain.lt declared.inhabited
          have defined := declared.define plain (standing.mirrors.targets plain)
            (first.mono grown.le)
          have still : ∀ other ∈ params,
              Scopes.Fresh other.lexeme (Scopes.mark param.lexeme true (top :: outer)) := by
            intro other member
            refine Scopes.fresh_mark.mpr ⟨fun same => ?_, later other member⟩
            exact unlike (same ▸ List.mem_map_of_mem member)
          obtain ⟨wider, more, simulated, stood⟩ := simulates_defineAll defined
            (standing.define isName inside value) others distinct still (rest.mono grown.le)
            (Nat.succ.inj lengths)
          exact ⟨wider, grown.trans more, simulated, stood⟩

variable {world : World} {machine : Machine} {state : State}

/-- No cell belongs to a frame that is not there yet. -/
theorem Simulates.unplaced (simulates : Simulates placed world machine state) {env : Env}
    (new : machine.store.frames.size ≤ env) (cell : Nat) (name : String) :
    world.places[cell]? ≠ some (env, name) :=
  fun known => absurd (simulates.stored.inside cell env name known).2.2 (Nat.not_lt.mpr new)

/-- A statement stands in the frame of a new block. -/
theorem Simulates.stands_child (simulates : Simulates placed world machine state) {scopes : Scopes}
    {env : Env} {scope : Scope} (mirrors : Mirrors placed world machine.store scopes env scope) :
    Stands placed world (machine.store.child env).2 ([] :: scopes) (machine.store.child env).1
      { scope with isLocal := true } :=
  ⟨mirrors.block, rfl, fun _ cell name known =>
    absurd known (simulates.unplaced (Nat.le_refl _) cell name)⟩

/-- **The frame of a call** is mirrored by the scope of the function with its
parameters. -/
theorem advances_call (running : Running placed room world machine state) {closure twin : Closure}
    {scopes : Scopes}
    (known : world.makings[twin.env]? = some ⟨closure.env, scopes, some closure.declaration.id⟩)
    {params : List Token} (named : ∀ param ∈ params, param.IsName)
    (distinct : (params.map Token.lexeme).Nodup) {values twins : List Value}
    (like : LikeAll placed world values twins) (lengths : values.length = params.length) :
    ∃ wider, Advances placed room world machine wider
        { machine with
          store := childWith machine.store closure.env (params.map Token.lexeme) values }
        (state.defineAll { state.scopeOf twin.env with isLocal := true }
          (params.map Token.lexeme) twins).2 ∧
      Stands placed wider (childWith machine.store closure.env (params.map Token.lexeme) values)
        (Scopes.ofParams params :: scopes) (machine.store.child closure.env).1
        (state.defineAll { state.scopeOf twin.env with isLocal := true }
          (params.map Token.lexeme) twins).1 ∧
      ∀ ids, wider.Unmade (machine.store.child closure.env).1 ids := by
  have stands := running.simulates.stands_child (running.simulates.captured _ _ known)
  obtain ⟨wider, grown, simulated, stood⟩ := simulates_defineAll
    (running.simulates.child closure.env) stands named distinct (fun _ _ => rfl) like lengths
  have le : (Room.inFrame (machine.store.child closure.env).1).Le room :=
    ⟨fun frame name here => (running.isOpen frame (Nat.le_of_eq here.symm)).1 name,
      fun _ _ never => never.elim⟩
  refine ⟨wider, ⟨grown.mono le, rfl, machine.store.extends_childWith _ _ _, simulated⟩, stood,
    fun ids made making id found numbered same => ?_⟩
  -- nothing was made along the way
  rcases grown.makings made making id found numbered with before | never
  · exact running.simulates.unmade (Nat.le_refl _) ids made making id before numbered same
  · exact never.elim

end Parameters

/-! ## Functions and classes -/

section Classes

variable {placed : Placing} {room : Room} {world : World} {machine : Machine} {state : State}
  {scopes : Scopes} {scope : Scope}

/-- A function is made and bound to its name, which its own scope knows. -/
theorem agree_defineFunction (running : Running placed room world machine state)
    {declaration : FunctionDecl} (named : declaration.name.IsName)
    (stands : Stands placed world machine.store (scopes.mark declaration.name.lexeme false)
      machine.env scope)
    (declared : Declared placed (scopes.mark declaration.name.lexeme true) declaration)
    (unmade : world.Unmade machine.env [declaration.id])
    (allowed : room.function machine.env declaration.id) :
    Agree placed room world machine
      (fun wider store _ _ => Stands placed wider store
        (scopes.mark declaration.name.lexeme true) machine.env scope)
      (Eval.define declaration.name.lexeme (.function ⟨declaration, machine.env, false⟩) machine)
      (define scope declaration.name.lexeme
        (.function ⟨declaration, (state.capture scope).1, false⟩) (state.capture scope).2) := by
  have plain := plain_of_isName named
  have inside := stands.mirrors.chain.lt running.simulates.inhabited
  let making : Making :=
    ⟨machine.env, scopes.mark declaration.name.lexeme true, some declaration.id⟩
  have like : Like placed (world.withMaking making)
      (.function ⟨declaration, machine.env, false⟩)
      (.function ⟨declaration, (state.capture scope).1, false⟩) :=
    .function ⟨rfl, rfl, _, running.simulates.getElem?_made making scope, declared,
      fun initializer => by cases initializer⟩
  have stood := (stands.define named inside
    (.function ⟨declaration, machine.env, false⟩)).withMaking making
  refine ⟨world.withMaking making, ⟨.withMaking fun id same => ?_, rfl,
    machine.store.extends_bindIn machine.env named _, ?_⟩, stood⟩
  · exact Option.some.inj same ▸ allowed
  · refine running.simulates.defineMade (fun id same => ?_) plain
      (stands.mirrors.targets plain) like stood.mirrors
    exact Option.some.inj same ▸ unmade

/-- The environment of the methods of a class is made, with the superclass in
it if there is one. -/
theorem agree_methodEnv (running : Running placed room world machine state)
    (mirrors : Mirrors placed world machine.store scopes machine.env scope)
    {superclass twin : Option Class} (like : Both (LikeClass placed world) superclass twin)
    {expression? : Option Expr} (both : superclass.isSome = expression?.isSome) :
    Agree placed room world machine
      (fun wider _ closed made => wider.makings[made]? =
        some ⟨closed, (scopes.aroundMethods expression?).tail, none⟩)
      (Eval.methodEnv superclass machine)
      (capture { scope with super := twin.or scope.super } state) := by
  rcases like.cases with ⟨rfl, rfl⟩ | ⟨parent, other, rfl, rfl, alike⟩
  · cases expression? with
    | some found => cases both
    | none =>
        have captured := running.simulates.capture ⟨machine.env, scopes, none⟩
          (fun _ same => by cases same) mirrors
        exact ⟨_, ⟨.withMaking (fun _ same => by cases same), rfl, .refl _, captured⟩,
          running.simulates.getElem?_made _ scope⟩
  · cases expression? with
    | none => cases both
    | some found =>
        have opened := running.simulates.reservedChild machine.env not_plain_super (.cls parent)
        have captured := opened.capture
          ⟨(machine.store.child machine.env).1, [("super", true)] :: scopes, none⟩
          (fun _ same => by cases same) (mirrors.below (.cls alike))
        exact ⟨_, ⟨.withMaking (fun _ same => by cases same), rfl,
          machine.store.extends_childWith _ _ _, captured⟩,
          running.simulates.getElem?_made _ { scope with super := some other }⟩

/-- The class is made from like methods. -/
theorem agree_newClass (running : Running placed room world machine state) (name : String)
    {superclass twin : Option Class} (parents : Both (LikeClass placed world) superclass twin)
    {own ownTwin : MethodTable}
    (methods : ∀ name, Both (LikeMethod placed world) (own.find? name) (ownTwin.find? name)) :
    Agree placed room world machine (fun wider _ => LikeClass placed wider)
      (Eval.newClass name superclass own machine) (newClass name twin ownTwin state) :=
  ⟨world, ⟨.refl room world, rfl, .of_frames (by rfl), running.simulates.newClass⟩,
    running.simulates.like_newClass name parents methods⟩

/-- The name of a class gets its value. -/
theorem agree_reassign (running : Running placed room world machine state) {name : Token}
    (stands : Stands placed world machine.store (scopes.mark name.lexeme true) machine.env scope)
    (named : name.IsName) (bound : (machine.store.findIn? machine.env name.lexeme).isSome)
    {value twin : Value} (like : Like placed world value twin) :
    Agree placed room world machine
      (fun wider store _ _ =>
        Stands placed wider store (scopes.mark name.lexeme true) machine.env scope)
      (Eval.reassign name value machine) (define scope name.lexeme twin state) := by
  have plain := plain_of_isName named
  have extended := machine.store.extends_bindIn machine.env named value
  simp only [Eval.reassign, Eval.holder_of_bound bound]
  exact ⟨world, ⟨.refl room world, rfl, extended,
    running.simulates.define plain (stands.mirrors.targets plain) like⟩,
    ⟨stands.mirrors.mono (.refl world) extended, stands.isLocal, stands.complete⟩⟩

/-- **A class is declared** on both sides. -/
theorem agree_declareClass (running : Running placed room world machine state)
    {enclosing : ClassKind} (settled : scopes.Settled enclosing)
    (stands : Stands placed world machine.store scopes machine.env scope) {name : Token}
    (named : name.IsName) (fresh : scopes.Fresh name.lexeme)
    (allowed : ∀ other, room.cell machine.env other ↔ other = name.lexeme)
    {superclass twin : Option Class} (parents : Both (LikeClass placed world) superclass twin)
    {expression? : Option Expr} (both : superclass.isSome = expression?.isSome)
    {declarations : List FunctionDecl} (wellFormed : FunctionDecl.AllWellFormed declarations)
    (distinct : (FunctionDecl.numbersAll declarations).Nodup)
    (inside : FunctionDecl.AllScoped placed (classKind expression?)
      ((scopes.mark name.lexeme true).aroundMethods expression?) declarations) :
    Agree placed room world machine
      (fun wider store _ inner =>
        Stands placed wider store (scopes.mark name.lexeme true) machine.env inner)
      (Eval.declareClass name superclass declarations machine)
      (declareClass scope name twin declarations state) := by
  obtain ⟨declared, standing⟩ := stands.declare running.simulates (plain_of_isName named) fresh
  have declaring : Advances placed room world machine
      (world.declaring machine.env name.lexeme scopes) machine
      (state.declare scope name.lexeme).2 :=
    ⟨.declaring ((allowed _).mpr rfl) world scopes, rfl, .refl _, declared⟩
  have started := running.advance declaring
  refine .since declaring (.behindTwin rfl (.bind (agree_define started standing named .nil) ?_))
  -- from here on the name is bound, and the scope of the methods knows it
  rintro _ _ wider defined reached advances ⟨bound, stood⟩
  have running := started.advance advances
  have le := declaring.grown.le.trans advances.grown.le
  rw [← advances.env] at bound stood allowed ⊢
  refine .bind (agree_methodEnv running stood.mirrors
    (parents.mono fun _ _ => LikeClass.mono le) both) ?_
  intro closed made widest around further captured known
  have methods := like_methodTable ((settled.mark named).aroundMethods expression?) known
    declarations wellFormed distinct inside
  refine .bind (agree_newClass (running.advance captured) name.lexeme
    (parents.mono fun _ _ => LikeClass.mono (le.trans captured.grown.le)) methods) ?_
  intro cls clsTwin last complete final newer like
  have further := captured.trans newer
  rw [← further.env] at bound stood allowed ⊢
  refine .mapTwin _ (agree_reassign (running.advance further) (stood.behind further.grown
    further.store fun other => (allowed other).mp) named ?_ (.cls like))
  exact further.store.bound _ _ bound

end Classes

end Lexical

end LoxLang
