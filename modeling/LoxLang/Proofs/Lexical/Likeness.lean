import LoxLang.Proofs.Lexical.Interpreter
import LoxLang.Proofs.Run.Fitting

/-!
# A machine and a run with scopes side by side

The machine keeps names in frames, and the second interpreter keeps them in
cells. To compare the two, a world records how their parts belong together: to
which frame and name each cell belongs, and for every making the environment
on the side of the machine together with the scopes that resolution has seen
there (`World`). A world only ever grows.

Values are alike if they are the same but for the environments in them, and
these belong together in the world (`Like`). A scope mirrors an environment if
every name that resolution finds at a distance has the cell of the frame at
that distance, and no other name has a cell (`Mirrors`). A machine is simulated
by a state if all that they hold is alike (`Simulates`).

A function is made at most once for each declaration and environment. That is
why functions can be compared by these two (`Simulates.same`).
-/

namespace LoxLang

set_option autoImplicit false

open Resolution

namespace Lexical

/-! ## Worlds -/

/-- A making on the side of the machine: the environment, the scopes around
it, and the number of the function if it is one. -/
structure Making where
  env : Env
  scopes : Scopes
  id : Option Nat

/-- What belongs together: the makings, in the order of the captured scopes,
and the frame and name of each cell. -/
structure World where
  makings : Array Making
  places : Array (Env × String)

namespace World

/-- A world that knows all that another one does. -/
structure Le (world wider : World) : Prop where
  makings : ∀ (made : Env) (making : Making), world.makings[made]? = some making →
    wider.makings[made]? = some making
  places : ∀ (cell : Nat) (place : Env × String), world.places[cell]? = some place →
    wider.places[cell]? = some place

theorem Le.refl (world : World) : world.Le world :=
  ⟨fun _ _ known => known, fun _ _ known => known⟩

theorem Le.trans {first second third : World} (earlier : first.Le second)
    (later : second.Le third) : first.Le third :=
  ⟨fun made making known => later.makings made making (earlier.makings made making known),
    fun cell place known => later.places cell place (earlier.places cell place known)⟩

/-- The world with one more making. -/
def withMaking (world : World) (making : Making) : World :=
  { world with makings := world.makings.push making }

/-- The world with one more cell. -/
def withPlace (world : World) (place : Env × String) : World :=
  { world with places := world.places.push place }

theorem getElem?_push_of_some {Entry : Type} {entries : Array Entry} {index : Nat} {entry : Entry}
    (known : entries[index]? = some entry) (next : Entry) :
    (entries.push next)[index]? = some entry := by
  obtain ⟨inside, _⟩ := Array.getElem?_eq_some_iff.mp known
  rw [Array.getElem?_push, if_neg (Nat.ne_of_lt inside)]
  exact known

theorem le_withMaking (world : World) (making : Making) : world.Le (world.withMaking making) :=
  ⟨fun _ _ known => getElem?_push_of_some known making, fun _ _ known => known⟩

theorem le_withPlace (world : World) (place : Env × String) : world.Le (world.withPlace place) :=
  ⟨fun _ _ known => known, fun _ _ known => getElem?_push_of_some known place⟩

end World

/-! ## Values that are alike -/

/-- Both are missing, or both are there and related. -/
def Both {First Second : Type} (related : First → Second → Prop) :
    Option First → Option Second → Prop
  | none, none => True
  | some first, some second => related first second
  | _, _ => False

theorem Both.mono {First Second : Type} {related wider : First → Second → Prop}
    (weaker : ∀ first second, related first second → wider first second) {first : Option First}
    {second : Option Second} (both : Both related first second) : Both wider first second := by
  cases first with
  | none =>
      cases second with
      | none => trivial
      | some found => exact both
  | some left =>
      cases second with
      | none => exact both
      | some right => exact weaker left right both

theorem Both.cases {First Second : Type} {related : First → Second → Prop} {first : Option First}
    {second : Option Second} (both : Both related first second) :
    first = none ∧ second = none ∨
      ∃ left right, first = some left ∧ second = some right ∧ related left right := by
  cases first with
  | none =>
      cases second with
      | none => exact .inl ⟨rfl, rfl⟩
      | some found => exact both.elim
  | some left =>
      cases second with
      | none => exact both.elim
      | some right => exact .inr ⟨left, right, rfl, rfl, both⟩

/-- A declaration that is scoped in given scopes. Its numbers are distinct. -/
def Declared (placed : Placing) (scopes : Scopes) (declaration : FunctionDecl) : Prop :=
  ∃ around : Surroundings, scopes.Settled around.enclosing ∧ declaration.WellFormed ∧
    declaration.numbers.Nodup ∧ declaration.Scoped placed around scopes

section Like

variable (placed : Placing) (world : World)

/-- Functions of one making. -/
structure LikeFunction (closure twin : Closure) : Prop where
  declaration : twin.declaration = closure.declaration
  isInitializer : twin.isInitializer = closure.isInitializer
  made : ∃ scopes,
    world.makings[twin.env]? = some ⟨closure.env, scopes, some closure.declaration.id⟩ ∧
      Declared placed scopes closure.declaration ∧
      (closure.isInitializer = true → scopes.head? = some [("this", true)])

/-- Methods of one class, not bound to an instance yet. -/
structure LikeMethod (closure twin : Closure) : Prop where
  declaration : twin.declaration = closure.declaration
  isInitializer : twin.isInitializer = closure.isInitializer
  made : ∃ scopes, world.makings[twin.env]? = some ⟨closure.env, scopes, none⟩ ∧
    Declared placed ([("this", true)] :: scopes) closure.declaration

/-- Classes with the same identity and name, whose methods are alike. -/
structure LikeClass (cls twin : Class) : Prop where
  id : twin.id = cls.id
  name : twin.name = cls.name
  methods : ∀ name, Both (LikeMethod placed world) (cls.findMethod? name) (twin.findMethod? name)

/-- Values that are the same but for the environments in them. -/
inductive Like : Value → Value → Prop where
  | nil : Like .nil .nil
  | bool (value : Bool) : Like (.bool value) (.bool value)
  | number (value : Float) : Like (.number value) (.number value)
  | string (value : String) : Like (.string value) (.string value)
  | native (value : Native) : Like (.native value) (.native value)
  | function {closure twin : Closure} (like : LikeFunction placed world closure twin) :
      Like (.function closure) (.function twin)
  | cls {cls twin : Class} (like : LikeClass placed world cls twin) : Like (.cls cls) (.cls twin)
  | object {object twin : Instance} (id : twin.id = object.id)
      (like : LikeClass placed world object.cls twin.cls) : Like (.object object) (.object twin)

end Like

section Monotone

variable {placed : Placing} {world wider : World}

theorem LikeFunction.mono (le : world.Le wider) {closure twin : Closure}
    (like : LikeFunction placed world closure twin) : LikeFunction placed wider closure twin := by
  obtain ⟨scopes, known, rest⟩ := like.made
  exact ⟨like.declaration, like.isInitializer, scopes, le.makings _ _ known, rest⟩

theorem LikeMethod.mono (le : world.Le wider) {closure twin : Closure}
    (like : LikeMethod placed world closure twin) : LikeMethod placed wider closure twin := by
  obtain ⟨scopes, known, rest⟩ := like.made
  exact ⟨like.declaration, like.isInitializer, scopes, le.makings _ _ known, rest⟩

theorem LikeClass.mono (le : world.Le wider) {cls twin : Class}
    (like : LikeClass placed world cls twin) : LikeClass placed wider cls twin :=
  ⟨like.id, like.name, fun name => (like.methods name).mono fun _ _ => LikeMethod.mono le⟩

theorem Like.mono (le : world.Le wider) {value twin : Value} (like : Like placed world value twin) :
    Like placed wider value twin := by
  cases like with
  | nil | bool | number | string | native => constructor
  | function like => exact .function (like.mono le)
  | cls like => exact .cls (like.mono le)
  | object id like => exact .object id (like.mono le)

end Monotone

/-! ## What like values have in common -/

section Common

variable {placed : Placing} {world : World}

theorem Like.isTruthy {value twin : Value} (like : Like placed world value twin) :
    twin.isTruthy = value.isTruthy := by
  cases like <;> rfl

theorem Like.text {value twin : Value} (like : Like placed world value twin) :
    twin.text = value.text := by
  cases like with
  | function like => simp only [Value.text, Closure.name, like.declaration]
  | cls like => exact like.name
  | object id like => simp only [Value.text, like.name]
  | _ => rfl

theorem like_ofLiteral (value : Literal) :
    Like placed world (.ofLiteral value) (.ofLiteral value) := by
  cases value <;> constructor

theorem LikeClass.arity {cls twin : Class} (like : LikeClass placed world cls twin) :
    twin.arity = cls.arity := by
  unfold Class.arity
  rcases (like.methods initializerName).cases with ⟨here, there⟩ |
    ⟨method, other, here, there, alike⟩
  · rw [here, there]
  · rw [here, there]
    exact congrArg (fun declaration => declaration.params.length) alike.declaration

/-- Things to call that are alike. -/
inductive LikeCallable (placed : Placing) (world : World) : Callable → Callable → Prop where
  | native (value : Native) : LikeCallable placed world (.native value) (.native value)
  | function {closure twin : Closure} (like : LikeFunction placed world closure twin) :
      LikeCallable placed world (.function closure) (.function twin)
  | cls {cls twin : Class} (like : LikeClass placed world cls twin) :
      LikeCallable placed world (.cls cls) (.cls twin)

theorem Like.callable? {value twin : Value} (like : Like placed world value twin) :
    Both (LikeCallable placed world) value.callable? twin.callable? := by
  cases like with
  | native value => exact .native value
  | function like => exact .function like
  | cls like => exact .cls like
  | _ => trivial

theorem LikeCallable.mono {wider : World} (le : world.Le wider) {callable twin : Callable}
    (like : LikeCallable placed world callable twin) : LikeCallable placed wider callable twin := by
  cases like with
  | native value => exact .native value
  | function like => exact .function (like.mono le)
  | cls like => exact .cls (like.mono le)

theorem LikeCallable.arity {callable twin : Callable}
    (like : LikeCallable placed world callable twin) : twin.arity = callable.arity := by
  cases like with
  | native value => rfl
  | function like => simp only [Callable.arity, Closure.arity, like.declaration]
  | cls like => exact like.arity

/-- The methods of a class and of its twin, closed over the environments that
belong together. -/
theorem like_methodTable {enclosing : ClassKind} {scopes : Scopes} {env made : Env}
    (settled : Scopes.Settled enclosing ([("this", true)] :: scopes))
    (known : world.makings[made]? = some ⟨env, scopes, none⟩) (declarations : List FunctionDecl)
    (wellFormed : FunctionDecl.AllWellFormed declarations)
    (distinct : (FunctionDecl.numbersAll declarations).Nodup)
    (inside : FunctionDecl.AllScoped placed enclosing ([("this", true)] :: scopes) declarations)
    (name : String) :
    Both (LikeMethod placed world) ((Eval.methodTable env declarations).find? name)
      ((Eval.methodTable made declarations).find? name) := by
  -- the two tables are filled in step
  have general : ∀ (declarations : List FunctionDecl) (table twin : MethodTable),
      FunctionDecl.AllWellFormed declarations → (FunctionDecl.numbersAll declarations).Nodup →
      FunctionDecl.AllScoped placed enclosing ([("this", true)] :: scopes) declarations →
      (∀ name, Both (LikeMethod placed world) (table.find? name) (twin.find? name)) →
      ∀ name, Both (LikeMethod placed world)
        (Bindings.find? name (declarations.foldl (fun table declaration =>
          table.insert declaration.name.lexeme
            (⟨declaration, env, declaration.isInitializer⟩ : Closure)) table))
        (Bindings.find? name (declarations.foldl (fun table declaration =>
          table.insert declaration.name.lexeme
            (⟨declaration, made, declaration.isInitializer⟩ : Closure)) twin)) := by
    intro declarations
    induction declarations with
    | nil => exact fun _ _ _ _ _ earlier => earlier
    | cons first rest ih =>
        rintro table twin ⟨one, many⟩ numbers ⟨here, others⟩ earlier
        obtain ⟨own, behind, _⟩ := List.nodup_append.mp numbers
        refine ih _ _ many behind others fun name => ?_
        by_cases same : name = first.name.lexeme
        · rw [same, Bindings.find?_insert_self, Bindings.find?_insert_self]
          exact ⟨rfl, rfl, scopes, known, ⟨methodKind first, enclosing⟩, settled, one, own, here⟩
        · rw [Bindings.find?_insert_of_ne same, Bindings.find?_insert_of_ne same]
          exact earlier name
  exact general declarations [] [] wellFormed distinct inside (fun _ => trivial) name

end Common

/-! ## Scopes that mirror environments -/

/-- A name that a variable can have. -/
structure Plain (name : String) : Prop where
  ne_this : name ≠ "this"
  ne_super : name ≠ "super"

theorem plain_of_isName {name : Token} (named : name.IsName) : Plain name.lexeme :=
  ⟨named.ne_this, named.ne_super⟩

theorem not_plain_this : ¬ Plain "this" := fun plain => plain.ne_this rfl

theorem not_plain_super : ¬ Plain "super" := fun plain => plain.ne_super rfl

/-- What a scope for one word knows. -/
theorem contains_single (word name : String) :
    Bindings.contains name [(word, true)] = decide (word = name) := by
  simp only [Bindings.contains, Bindings.find?]
  by_cases same : word = name
  · simp [same]
  · simp [same]

/-! ### Frames for reserved words -/

/-- The store with a new frame that binds names. -/
abbrev childWith (store : Store) (env : Env) (names : List String) (values : List Value) : Store :=
  (store.child env).2.defineAll (store.child env).1 names values

/-- The store with a new frame that binds a reserved word. -/
abbrev reservedChild (store : Store) (env : Env) (word : String) (value : Value) : Store :=
  childWith store env [word] [value]

/-- A frame for a reserved word holds no variables. -/
theorem findIn?_reservedChild {store : Store} (inhabited : Env.global < store.frames.size)
    (env : Env) {word : String} (reserved : ¬ Plain word) (value : Value) {frame : Env}
    {name : String} (variable_ : frame = Env.global ∨ Plain name) :
    (reservedChild store env word value).findIn? frame name = store.findIn? frame name := by
  have other : frame ≠ (store.child env).1 ∨ name ≠ word := by
    rcases variable_ with rfl | plain
    · exact .inl (Nat.ne_of_lt inhabited)
    · exact .inr fun same => reserved (same ▸ plain)
  exact (Store.findIn?_bindIn_of_ne other _ value).trans (Store.findIn?_child ..)

/-- The frame for a reserved word is inside the environment given. -/
theorem enclosing?_reservedChild (store : Store) (env : Env) (word : String) (value : Value) :
    (reservedChild store env word value).enclosing? (store.child env).1 = some env :=
  (Store.enclosing?_bindIn ..).trans (store.enclosing?_child env)

/-- It binds the word. -/
theorem findIn?_reservedChild_self (store : Store) (env : Env) (word : String) (value : Value) :
    (reservedChild store env word value).findIn? (store.child env).1 word = some value :=
  Store.findIn?_bindIn_self (Store.lt_of_enclosing? (store.enclosing?_child env)) word value

/-! ### What a scope mirrors -/

/-- A scope says of every name what the frames of an environment do, where
resolution has seen the scopes given. -/
structure Mirrors (placed : Placing) (world : World) (store : Store) (scopes : Scopes) (env : Env)
    (scope : Scope) : Prop where
  chain : store.Matches scopes env
  missing : ∀ name, Plain name → distance? name scopes = none → scope.names.find? name = none
  names : ∀ name distance frame, Plain name → distance? name scopes = some distance →
    store.ancestor? env distance = some frame →
      ∃ cell, scope.names.find? name = some cell ∧ world.places[cell]? = some (frame, name)
  this : ∀ distance frame, distance? "this" scopes = some distance →
    store.ancestor? env distance = some frame →
      ∃ object twin, store.findIn? frame "this" = some (.object object) ∧
        scope.this = some twin ∧ Like placed world (.object object) (.object twin)
  super : ∀ distance frame, distance? "super" scopes = some distance →
    store.ancestor? env distance = some frame →
      ∃ parent twin, store.findIn? frame "super" = some (.cls parent) ∧
        scope.super = some twin ∧ Like placed world (.cls parent) (.cls twin)

namespace Mirrors

variable {placed : Placing} {world wider : World} {store after : Store} {scopes : Scopes}
  {env : Env} {scope : Scope}

/-- The frame at the distance of a name is the one it was before. -/
theorem ancestor? (chain : store.Matches scopes env) (extended : store.Extends after)
    {name : String} {distance : Nat} {frame : Env} (found : distance? name scopes = some distance)
    (reached : after.ancestor? env distance = some frame) :
    store.ancestor? env distance = some frame := by
  obtain ⟨known, here, _⟩ := Scopes.exists_scope_of_distance? found
  obtain ⟨first, earlier, _⟩ := chain.ancestor here
  rw [earlier, ← reached, extended.toGrows.ancestor? earlier]

theorem mono (mirrors : Mirrors placed world store scopes env scope) (le : world.Le wider)
    (extended : store.Extends after) : Mirrors placed wider after scopes env scope where
  chain := mirrors.chain.mono extended
  missing := mirrors.missing
  names name distance frame plain found reached := by
    obtain ⟨cell, here, known⟩ := mirrors.names name distance frame plain found
      (ancestor? mirrors.chain extended found reached)
    exact ⟨cell, here, le.places _ _ known⟩
  this distance frame found reached := by
    obtain ⟨object, twin, bound, here, like⟩ := mirrors.this distance frame found
      (ancestor? mirrors.chain extended found reached)
    exact ⟨object, twin, (extended.this frame (Store.lt_of_findIn? bound)).trans bound, here,
      like.mono le⟩
  super distance frame found reached := by
    obtain ⟨parent, twin, bound, here, like⟩ := mirrors.super distance frame found
      (ancestor? mirrors.chain extended found reached)
    exact ⟨parent, twin, (extended.super frame (Store.lt_of_findIn? bound)).trans bound, here,
      like.mono le⟩

/-- A distance in scopes with one more around the point. -/
theorem distance_push {name : String} {top : LocalScope} {distance : Nat} {frame : Env}
    {inner : Env} (link : after.enclosing? inner = some env)
    (found : distance? name (top :: scopes) = some distance)
    (reached : after.ancestor? inner distance = some frame) :
    top.contains name = true ∧ frame = inner ∨
      top.contains name = false ∧ ∃ outer, distance? name scopes = some outer ∧
        after.ancestor? env outer = some frame := by
  rw [Scopes.distance?_cons] at found
  cases here : top.contains name with
  | true =>
      rw [if_pos here] at found
      cases found
      exact .inl ⟨rfl, (Option.some.inj reached).symm⟩
  | false =>
      rw [if_neg (by rw [here]; exact Bool.false_ne_true)] at found
      obtain ⟨outer, further, rfl⟩ := Option.map_eq_some_iff.mp found
      rw [Store.ancestor?, link] at reached
      exact .inr ⟨rfl, outer, further, reached⟩

/-- A new frame without variables, and what it says of `this` and `super`. -/
theorem push (mirrors : Mirrors placed world store scopes env scope)
    (extended : store.Extends after) {frame : Env} (link : after.enclosing? frame = some env)
    {top : LocalScope} (holds : after.Holds top frame)
    (plain : ∀ name, Plain name → top.contains name = false) {inner : Scope}
    (names : inner.names = scope.names)
    (this : top.contains "this" = true →
      ∃ object twin, after.findIn? frame "this" = some (.object object) ∧
        inner.this = some twin ∧ Like placed world (.object object) (.object twin))
    (sameThis : top.contains "this" = false → inner.this = scope.this)
    (super : top.contains "super" = true →
      ∃ parent twin, after.findIn? frame "super" = some (.cls parent) ∧
        inner.super = some twin ∧ Like placed world (.cls parent) (.cls twin))
    (sameSuper : top.contains "super" = false → inner.super = scope.super) :
    Mirrors placed world after (top :: scopes) frame inner := by
  have later := mirrors.mono (.refl world) extended
  refine ⟨⟨holds, env, link, later.chain⟩, fun name isPlain missing => ?_,
    fun name distance found isPlain known reached => ?_, fun distance found known reached => ?_,
    fun distance found known reached => ?_⟩
  · rw [names]
    refine mirrors.missing name isPlain ?_
    rw [Scopes.distance?_cons, if_neg (by rw [plain name isPlain]; exact Bool.false_ne_true)]
      at missing
    exact Option.map_eq_none_iff.mp missing
  · rw [names]
    rcases distance_push link known reached with ⟨here, _⟩ | ⟨_, outer, further, same⟩
    · rw [plain name isPlain] at here
      cases here
    · exact later.names name outer found isPlain further same
  · rcases distance_push link known reached with ⟨here, rfl⟩ | ⟨absent, outer, further, same⟩
    · exact this here
    · rw [sameThis absent]
      exact later.this outer found further same
  · rcases distance_push link known reached with ⟨here, rfl⟩ | ⟨absent, outer, further, same⟩
    · exact super here
    · rw [sameSuper absent]
      exact later.super outer found further same

/-- The frame of a block. -/
theorem block (mirrors : Mirrors placed world store scopes env scope) :
    Mirrors placed world (store.child env).2 ([] :: scopes) (store.child env).1
      { scope with isLocal := true } :=
  mirrors.push (store.extends_child env) (store.enclosing?_child env)
    (fun _ defined => by cases defined) (fun _ _ => rfl) rfl (fun known => by cases known)
    (fun _ => rfl) (fun known => by cases known) fun _ => rfl

/-- The frame with the instance of a bound method. -/
theorem boundTo (mirrors : Mirrors placed world store scopes env scope) {object twin : Instance}
    (like : Like placed world (.object object) (.object twin)) :
    Mirrors placed world (reservedChild store env "this" (.object object))
      ([("this", true)] :: scopes) (store.child env).1 { scope with this := some twin } := by
  have suits : (Value.object object).Suits "this" :=
    ⟨fun _ => ⟨object, rfl⟩, fun same => absurd same (by decide)⟩
  refine mirrors.push (store.extends_childWith env ["this"] [.object object])
    (enclosing?_reservedChild ..) (store.holds_single env suits) (fun name plain => ?_) rfl
    (fun _ => ⟨object, twin, findIn?_reservedChild_self .., rfl, like⟩)
    (fun missing => by cases missing) (fun known => by cases known) (fun _ => rfl)
  rw [contains_single, decide_eq_false plain.ne_this.symm]

/-- The frame with the superclass of methods. -/
theorem below (mirrors : Mirrors placed world store scopes env scope) {parent twin : Class}
    (like : Like placed world (.cls parent) (.cls twin)) :
    Mirrors placed world (reservedChild store env "super" (.cls parent))
      ([("super", true)] :: scopes) (store.child env).1 { scope with super := some twin } := by
  have suits : (Value.cls parent).Suits "super" :=
    ⟨fun same => absurd same (by decide), fun _ => ⟨parent, rfl⟩⟩
  refine mirrors.push (store.extends_childWith env ["super"] [.cls parent])
    (enclosing?_reservedChild ..) (store.holds_single env suits) (fun name plain => ?_) rfl
    (fun known => by cases known) (fun _ => rfl)
    (fun _ => ⟨parent, twin, findIn?_reservedChild_self .., rfl, like⟩)
    (fun missing => by cases missing)
  rw [contains_single, decide_eq_false plain.ne_super.symm]

/-- A name that is declared in the innermost frame gets a new cell. -/
theorem declare {top : LocalScope} (mirrors : Mirrors placed world store (top :: scopes) env scope)
    {name : String} (plain : Plain name) :
    Mirrors placed (world.withPlace (env, name)) store (Scopes.mark name false (top :: scopes)) env
      { scope with names := scope.names.insert name world.places.size } := by
  have later := mirrors.mono (world.le_withPlace (env, name)) (.refl store)
  refine ⟨later.chain.declare name, fun other isPlain missing => ?_,
    fun other distance frame isPlain known reached => ?_, fun distance frame known reached => ?_,
    fun distance frame known reached => ?_⟩
  · by_cases same : other = name
    · rw [same, Scopes.mark, Scopes.distance?_cons, Bindings.contains,
        Bindings.find?_insert_self] at missing
      cases missing
    · rw [Scopes.distance?_mark_of_ne same] at missing
      rw [Bindings.find?_insert_of_ne same]
      exact later.missing other isPlain missing
  · by_cases same : other = name
    · subst same
      rw [Scopes.mark, Scopes.distance?_cons, Bindings.contains, Bindings.find?_insert_self]
        at known
      cases known
      cases reached
      refine ⟨world.places.size, Bindings.find?_insert_self _ _ _, ?_⟩
      exact Array.getElem?_push_size
    · rw [Scopes.distance?_mark_of_ne same] at known
      rw [Bindings.find?_insert_of_ne same]
      exact later.names other distance frame isPlain known reached
  · rw [Scopes.distance?_mark_of_ne plain.ne_this.symm] at known
    exact later.this distance frame known reached
  · rw [Scopes.distance?_mark_of_ne plain.ne_super.symm] at known
    exact later.super distance frame known reached

/-- A declared name that the frame binds is defined. -/
theorem define {name : Token}
    (mirrors : Mirrors placed world store (scopes.mark name.lexeme false) env scope)
    (named : name.IsName) (bound : (store.findIn? env name.lexeme).isSome) :
    Mirrors placed world store (scopes.mark name.lexeme true) env scope := by
  have same := fun other => Scopes.distance?_mark name.lexeme other true false scopes
  have chain := mirrors.chain.mark named bound
  rw [Scopes.mark_mark] at chain
  exact ⟨chain, fun other plain missing => mirrors.missing other plain (same other ▸ missing),
    fun other distance frame plain known => mirrors.names other distance frame plain
      (same other ▸ known),
    fun distance frame known => mirrors.this distance frame (same "this" ▸ known),
    fun distance frame known => mirrors.super distance frame (same "super" ▸ known)⟩

end Mirrors

end Lexical

end LoxLang
