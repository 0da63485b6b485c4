import LoxLang.Proofs.Run.StoredValues
import LoxLang.Proofs.Scope.Placement

/-!
# Stores that fit the scopes of a tree

The walk of resolution and a run build the scopes around a point separately,
one as a list of names and the other as frames with links. A chain of frames
matches a list of scopes if there is one frame for each scope, which binds
every name that the scope has defined, and the chain ends in the global frame
(`Store.Matches`). The frames may bind more names than that.

A function fits a store if its declaration is scoped in scopes that the
environment it closes over matches. A method fits if that holds once a frame
with `this` is put inside, and a class, an instance or any other value fits if
all its methods do. In a store that fits, every value does, so all that a run
can lay its hands on fits too (`Store.Fits`).

As a run goes on, frames are added and gain names, and never lose any. The
names `this` and `super` are bound once, when their frame is made. So values
go on fitting (`Store.Extends`).
-/

namespace LoxLang

set_option autoImplicit false

open Resolution

/-! ## Scopes around a point -/

namespace Scopes

theorem distance?_cons (name : String) (scope : LocalScope) (outer : Scopes) :
    distance? name (scope :: outer) =
      if scope.contains name then some 0 else (distance? name outer).map (· + 1) := by
  simp [distance?, List.findIdx?_cons]

/-- The scope at the distance of a name knows it. -/
theorem exists_scope_of_distance? {name : String} {distance : Nat} : ∀ {scopes : Scopes},
    distance? name scopes = some distance →
      ∃ scope, scopes[distance]? = some scope ∧ scope.contains name = true
  | [], found => by cases found
  | scope :: outer, found => by
      rw [distance?_cons] at found
      split at found
      next known =>
        cases found
        exact ⟨scope, rfl, known⟩
      next unknown =>
        obtain ⟨inner, further, rfl⟩ := Option.map_eq_some_iff.mp found
        obtain ⟨known, here, contains⟩ := exists_scope_of_distance? further
        exact ⟨known, here, contains⟩

/-- There is a scope with `super`, and the nearest one with `this` is just
inside it. -/
def HasSuper (scopes : Scopes) : Prop :=
  ∃ inner, distance? "super" scopes = some (inner + 1) ∧ distance? "this" scopes = some inner

/-- Inside a class there is `this`, and inside one with a superclass also
`super`. -/
structure Provides (enclosing : ClassKind) (scopes : Scopes) : Prop where
  this : enclosing ≠ .outside → (distance? "this" scopes).isSome
  super : enclosing = .derived → HasSuper scopes

/-- The scopes around a statement: every name in them is defined. -/
structure Settled (enclosing : ClassKind) (scopes : Scopes) : Prop where
  defined : ∀ scope ∈ scopes, ∀ name, scope.find? name ≠ some false
  provides : Provides enclosing scopes

/-- The scopes around an expression. In the initializer of a variable, its name
is in the innermost scope and not defined yet. -/
structure Ready (enclosing : ClassKind) (scopes : Scopes) : Prop where
  outer : ∀ scope ∈ scopes.tail, ∀ name, scope.find? name ≠ some false
  this : ∀ scope ∈ scopes, scope.find? "this" ≠ some false
  provides : Provides enclosing scopes

theorem contains_insert_of_ne {name other : String} (distinct : other ≠ name) (defined : Bool)
    (scope : LocalScope) :
    Bindings.contains other (scope.insert name defined) = scope.contains other := by
  rw [Bindings.contains, Bindings.find?_insert_of_ne distinct, Bindings.contains]

/-- Marking a name does not move the others. -/
theorem distance?_mark_of_ne {name other : String} (distinct : other ≠ name) (defined : Bool)
    (scopes : Scopes) : distance? other (scopes.mark name defined) = distance? other scopes := by
  cases scopes with
  | nil => rfl
  | cons scope outer =>
      rw [Scopes.mark, distance?_cons, distance?_cons, contains_insert_of_ne distinct]

/-- Whether a name is defined does not matter for distances. -/
theorem distance?_mark (name other : String) (first second : Bool) (scopes : Scopes) :
    distance? other (scopes.mark name first) = distance? other (scopes.mark name second) := by
  by_cases same : other = name
  · cases scopes with
    | nil => rfl
    | cons scope outer => simp [Scopes.mark, distance?_cons, Bindings.contains, same]
  · rw [distance?_mark_of_ne same, distance?_mark_of_ne same]

namespace Provides

variable {enclosing : ClassKind} {scopes : Scopes}

theorem push (provides : Provides enclosing scopes) {scope : LocalScope}
    (noThis : scope.contains "this" = false) (noSuper : scope.contains "super" = false) :
    Provides enclosing (scope :: scopes) where
  this inside := by
    rw [distance?_cons, noThis]
    simpa using provides.this inside
  super derived := by
    obtain ⟨inner, super, this⟩ := provides.super derived
    refine ⟨inner + 1, ?_, ?_⟩
    · rw [distance?_cons, noSuper, super]
      rfl
    · rw [distance?_cons, noThis, this]
      rfl

theorem mark (provides : Provides enclosing scopes) {name : Token} (named : name.IsName)
    (defined : Bool) : Provides enclosing (scopes.mark name.lexeme defined) where
  this inside := by
    rw [distance?_mark_of_ne named.ne_this.symm]
    exact provides.this inside
  super derived := by
    unfold HasSuper
    rw [distance?_mark_of_ne named.ne_super.symm, distance?_mark_of_ne named.ne_this.symm]
    exact provides.super derived

end Provides

namespace Settled

variable {enclosing : ClassKind} {scopes : Scopes}

theorem ready (settled : Settled enclosing scopes) : Ready enclosing scopes where
  outer scope member := settled.defined scope (List.mem_of_mem_tail member)
  this scope member := settled.defined scope member "this"
  provides := settled.provides

theorem global : Settled .outside [] where
  defined := by simp
  provides := ⟨fun inside => absurd rfl inside, nofun⟩

/-- The scope of a new block or function. -/
theorem push (settled : Settled enclosing scopes) {scope : LocalScope}
    (defined : ∀ name, scope.find? name ≠ some false) (noThis : scope.contains "this" = false)
    (noSuper : scope.contains "super" = false) : Settled enclosing (scope :: scopes) where
  defined := List.forall_mem_cons.mpr ⟨defined, settled.defined⟩
  provides := settled.provides.push noThis noSuper

theorem block (settled : Settled enclosing scopes) : Settled enclosing ([] :: scopes) :=
  settled.push (by simp) rfl rfl

theorem mark (settled : Settled enclosing scopes) {name : Token} (named : name.IsName) :
    Settled enclosing (scopes.mark name.lexeme true) where
  defined := by
    cases scopes with
    | nil => exact settled.defined
    | cons scope outer =>
        obtain ⟨here, others⟩ := List.forall_mem_cons.mp settled.defined
        refine List.forall_mem_cons.mpr ⟨fun found => ?_, others⟩
        by_cases same : found = name.lexeme
        · simp [same]
        · rw [Bindings.find?_insert_of_ne same]
          exact here found
  provides := settled.provides.mark named true

/-- A declared name does not have to be defined yet for an expression. -/
theorem declared (settled : Settled enclosing scopes) {name : Token} (named : name.IsName) :
    Ready enclosing (scopes.mark name.lexeme false) where
  outer := by
    rw [tail_mark]
    exact settled.ready.outer
  this := by
    cases scopes with
    | nil => exact settled.ready.this
    | cons scope outer =>
        obtain ⟨here, others⟩ := List.forall_mem_cons.mp settled.ready.this
        refine List.forall_mem_cons.mpr ⟨?_, others⟩
        rwa [Bindings.find?_insert_of_ne named.ne_this.symm]
  provides := settled.provides.mark named false

/-- The scopes around the methods of a class. -/
theorem aroundMethods (settled : Settled enclosing scopes) (superclass : Option Expr) :
    Settled (classKind superclass) (scopes.aroundMethods superclass) := by
  have one : ∀ word name : String, Bindings.find? name [(word, true)] ≠ some false := by
    intro word name
    simp only [Bindings.find?]
    split <;> simp
  have this : (distance? "this" (scopes.aroundMethods superclass)).isSome := by
    unfold Scopes.aroundMethods
    rw [distance?_cons]
    rfl
  cases superclass with
  | none =>
      exact ⟨List.forall_mem_cons.mpr ⟨one _, settled.defined⟩, fun _ => this,
        fun derived => by cases derived⟩
  | some parent =>
      refine ⟨List.forall_mem_cons.mpr ⟨one _, List.forall_mem_cons.mpr ⟨one _, settled.defined⟩⟩,
        fun _ => this, fun _ => ⟨0, ?_, ?_⟩⟩
      · rw [Scopes.aroundMethods, distance?_cons, distance?_cons]
        rfl
      · rw [Scopes.aroundMethods, distance?_cons]
        rfl

end Settled

/-- What the scope of parameters knows: their names, all defined. -/
theorem find?_ofParams (params : List Token) (name : String) :
    Bindings.find? name (ofParams params) =
      if name ∈ params.map Token.lexeme then some true else none := by
  have general : ∀ scope : LocalScope, Bindings.find? name
      (params.foldl (fun scope param => scope.insert param.lexeme true) scope) =
        if name ∈ params.map Token.lexeme then some true else scope.find? name := by
    induction params with
    | nil => simp
    | cons param rest ih =>
        intro scope
        rw [List.foldl_cons, ih]
        by_cases same : name = param.lexeme
        · simp [same]
        · rw [Bindings.find?_insert_of_ne same]
          simp [same]
  exact general []

/-- The scope of parameters does not know a word that none of them is. -/
theorem contains_ofParams {params : List Token} {word : String}
    (others : ∀ param ∈ params, param.lexeme ≠ word) :
    Bindings.contains word (ofParams params) = false := by
  have absent : word ∉ params.map Token.lexeme := by
    intro found
    obtain ⟨param, member, same⟩ := List.mem_map.mp found
    exact others param member same
  rw [Bindings.contains, find?_ofParams, if_neg absent]
  rfl

theorem Settled.function {enclosing : ClassKind} {scopes : Scopes}
    (settled : Settled enclosing scopes) {params : List Token}
    (named : ∀ param ∈ params, param.IsName) : Settled enclosing (ofParams params :: scopes) := by
  refine settled.push (fun name => ?_)
    (contains_ofParams fun param member => (named param member).ne_this)
    (contains_ofParams fun param member => (named param member).ne_super)
  rw [find?_ofParams]
  split <;> simp

end Scopes

/-! ## Chains of frames that match scopes -/

/-- A value that may be bound to a name: an instance to `this`, a class to
`super`, and anything to other names. -/
structure Value.Suits (name : String) (value : Value) : Prop where
  this : name = "this" → ∃ object, value = .object object
  super : name = "super" → ∃ parent, value = .cls parent

theorem Value.suits_of_isName {name : Token} (named : name.IsName) (value : Value) :
    value.Suits name.lexeme :=
  ⟨fun same => absurd same named.ne_this, fun same => absurd same named.ne_super⟩

namespace Store

/-- A frame binds every name that a scope has defined. -/
def Holds (store : Store) (scope : LocalScope) (frame : Env) : Prop :=
  ∀ name, scope.find? name = some true →
    ∃ value, store.findIn? frame name = some value ∧ value.Suits name

/-- The frames of an environment are those of the scopes around a point. -/
def Matches (store : Store) : Scopes → Env → Prop
  | [], env => env = Env.global
  | scope :: outer, env =>
    store.Holds scope env ∧
      ∃ parent, store.enclosing? env = some parent ∧ store.Matches outer parent

/-- How a run changes a store: it grows, and in the frames that are there,
`this` and `super` stay what they are. -/
structure Extends (before after : Store) : Prop extends before.Grows after where
  this : ∀ env < before.frames.size, after.findIn? env "this" = before.findIn? env "this"
  super : ∀ env < before.frames.size, after.findIn? env "super" = before.findIn? env "super"

theorem lt_of_enclosing? {store : Store} {env parent : Env}
    (found : store.enclosing? env = some parent) : env < store.frames.size := by
  by_cases inside : env < store.frames.size
  · exact inside
  · rw [enclosing?, Array.getElem?_eq_none (Nat.le_of_not_lt inside)] at found
    cases found

/-- The environment some links out stays the same as the store grows. -/
theorem Grows.ancestor? {before after : Store} (grows : before.Grows after) {frame : Env} :
    ∀ {distance : Nat} {env : Env}, before.ancestor? env distance = some frame →
      after.ancestor? env distance = some frame
  | 0, _, found => found
  | distance + 1, env, found => by
      simp only [Store.ancestor?] at found ⊢
      split at found
      next outer link =>
        rw [grows.enclosing env (lt_of_enclosing? link), link]
        exact grows.ancestor? found
      next => cases found

namespace Extends

theorem refl (store : Store) : store.Extends store :=
  ⟨.refl store, fun _ _ => rfl, fun _ _ => rfl⟩

theorem trans {first second third : Store} (earlier : first.Extends second)
    (later : second.Extends third) : first.Extends third where
  toGrows := earlier.toGrows.trans later.toGrows
  this env inside := by
    rw [later.this env (Nat.lt_of_lt_of_le inside earlier.size), earlier.this env inside]
  super env inside := by
    rw [later.super env (Nat.lt_of_lt_of_le inside earlier.size), earlier.super env inside]

theorem of_frames {before after : Store} (same : after.frames = before.frames) :
    before.Extends after :=
  ⟨.of_frames same, fun _ _ => by simp only [findIn?, same],
    fun _ _ => by simp only [findIn?, same]⟩

end Extends

section Monotone

variable {before after : Store}

theorem Holds.mono {scope : LocalScope} {frame : Env} (holds : before.Holds scope frame)
    (extended : before.Extends after) : after.Holds scope frame := by
  intro name defined
  obtain ⟨value, found, suits⟩ := holds name defined
  have inside := lt_of_findIn? found
  by_cases this : name = "this"
  · subst this
    exact ⟨value, (extended.this frame inside).trans found, suits⟩
  · by_cases super : name = "super"
    · subst super
      exact ⟨value, (extended.super frame inside).trans found, suits⟩
    · obtain ⟨now, here⟩ := Option.isSome_iff_exists.mp
        (extended.bound frame name (Option.isSome_iff_exists.mpr ⟨value, found⟩))
      exact ⟨now, here, fun same => absurd same this, fun same => absurd same super⟩

theorem Matches.mono (extended : before.Extends after) : ∀ {scopes : Scopes} {env : Env},
    before.Matches scopes env → after.Matches scopes env
  | [], _, global => global
  | _ :: _, env, ⟨holds, parent, link, outer⟩ =>
    ⟨holds.mono extended, parent,
      (extended.enclosing env (lt_of_enclosing? link)).trans link, outer.mono extended⟩

end Monotone

variable {store : Store}

theorem Matches.lt (inhabited : 0 < store.frames.size) : ∀ {scopes : Scopes} {env : Env},
    store.Matches scopes env → env < store.frames.size
  | [], _, global => by rw [global]; exact inhabited
  | _ :: _, _, ⟨_, _, link, _⟩ => lt_of_enclosing? link

/-- A frame and a scope some way out match as well. -/
theorem Matches.ancestor : ∀ {scopes : Scopes} {env : Env} {distance : Nat} {scope : LocalScope},
    store.Matches scopes env → scopes[distance]? = some scope →
      ∃ frame, store.ancestor? env distance = some frame ∧ store.Holds scope frame
  | [], _, _, _, _, found => by cases found
  | _ :: _, env, 0, _, ⟨holds, _⟩, found => by
      cases found
      exact ⟨env, rfl, holds⟩
  | _ :: _, env, distance + 1, _, ⟨_, parent, link, outer⟩, found => by
      obtain ⟨frame, reached, holds⟩ := outer.ancestor found
      refine ⟨frame, ?_, holds⟩
      rw [ancestor?, link]
      exact reached

theorem Holds.insert {scope : LocalScope} {frame : Env} {name : String} {value : Value}
    (holds : store.Holds scope frame) (found : store.findIn? frame name = some value)
    (suits : value.Suits name) : store.Holds (scope.insert name true) frame := by
  intro other defined
  by_cases same : other = name
  · exact same ▸ ⟨value, found, suits⟩
  · rw [Bindings.find?_insert_of_ne same] at defined
    exact holds other defined

/-- A name that the innermost frame binds may be marked as defined. -/
theorem Matches.mark {scopes : Scopes} {env : Env} {name : Token} (chain : store.Matches scopes env)
    (named : name.IsName) (bound : (store.findIn? env name.lexeme).isSome) :
    store.Matches (scopes.mark name.lexeme true) env := by
  cases scopes with
  | nil => exact chain
  | cons scope outer =>
      obtain ⟨value, found⟩ := Option.isSome_iff_exists.mp bound
      exact ⟨chain.1.insert found (Value.suits_of_isName named value), chain.2⟩

/-- A name may always be marked as declared. -/
theorem Matches.declare {scopes : Scopes} {env : Env} (chain : store.Matches scopes env)
    (name : String) : store.Matches (scopes.mark name false) env := by
  cases scopes with
  | nil => exact chain
  | cons scope outer =>
      refine ⟨fun other defined => ?_, chain.2⟩
      by_cases same : other = name
      · rw [same, Bindings.find?_insert_self] at defined
        cases defined
      · rw [Bindings.find?_insert_of_ne same] at defined
        exact chain.1 other defined

end Store

/-! ## Values that fit -/

section Fits

variable (placed : Placing) (store : Store)

/-- A function fits if its declaration is scoped in scopes that its environment
matches. -/
structure Closure.FitsIn (closure : Closure) (around : Surroundings) (scopes : Scopes) : Prop where
  settled : scopes.Settled around.enclosing
  wellFormed : closure.declaration.WellFormed
  inside : closure.declaration.Scoped placed around scopes
  chain : store.Matches scopes closure.env

/-- A function fits in some scopes. -/
def Closure.Fits (closure : Closure) : Prop :=
  ∃ around scopes, closure.FitsIn placed store around scopes

/-- A method fits if it would as a function in a frame with `this`. -/
structure Closure.FitsBound (method : Closure) (around : Surroundings) (scopes : Scopes) :
    Prop where
  settled : Scopes.Settled around.enclosing ([("this", true)] :: scopes)
  wellFormed : method.declaration.WellFormed
  inside : method.declaration.Scoped placed around ([("this", true)] :: scopes)
  chain : store.Matches scopes method.env

/-- A class fits if every method in its tables does. -/
abbrev Class.Fits (cls : Class) : Prop :=
  cls.Every fun method => ∃ around scopes, method.FitsBound placed store around scopes

/-- A value fits if the functions do that can be had from it. -/
def Value.Fits : Value → Prop
  | .function closure => closure.Fits placed store
  | .cls found => found.Fits placed store
  | .object found => found.cls.Fits placed store
  | _ => True

/-- The same for something to call. -/
def Callable.Fits : Callable → Prop
  | .native _ => True
  | .function closure => closure.Fits placed store
  | .cls found => found.Fits placed store

/-- Every value in the store fits. -/
structure Store.Fits : Prop extends store.Every (Value.Fits placed store) where
  inhabited : 0 < store.frames.size

end Fits

section Monotone

variable {placed finer : Placing} {before after : Store}

theorem Closure.Fits.mono {closure : Closure} (fits : closure.Fits placed before)
    (le : placed.Le finer) (extended : before.Extends after) : closure.Fits finer after := by
  obtain ⟨around, scopes, fits⟩ := fits
  exact ⟨around, scopes, fits.settled, fits.wellFormed,
    FunctionDecl.scoped_mono le around scopes _ fits.inside, fits.chain.mono extended⟩

theorem Class.Fits.mono {cls : Class} (fits : cls.Fits placed before) (le : placed.Le finer)
    (extended : before.Extends after) : cls.Fits finer after :=
  Every.mono fits fun _ ⟨around, scopes, fits⟩ => ⟨around, scopes, fits.settled, fits.wellFormed,
    FunctionDecl.scoped_mono le around _ _ fits.inside, fits.chain.mono extended⟩

theorem Value.Fits.mono {value : Value} (fits : value.Fits placed before) (le : placed.Le finer)
    (extended : before.Extends after) : value.Fits finer after := by
  cases value with
  | function closure => exact Closure.Fits.mono fits le extended
  | cls cls | object object => exact Class.Fits.mono fits le extended
  | _ => trivial

/-- A store with the same values fits for a finer placing. -/
theorem Store.Fits.mono {store : Store} (fits : store.Fits placed) (le : placed.Le finer) :
    store.Fits finer :=
  ⟨fits.toEvery.mono fun _ fitting => fitting.mono le (.refl store), fits.inhabited⟩

theorem Placing.Le.refl (placed : Placing) : placed.Le placed :=
  fun _ _ here => here

theorem Value.Fits.later {value : Value} (fits : value.Fits placed before)
    (extended : before.Extends after) : value.Fits placed after :=
  fits.mono (.refl placed) extended

end Monotone

section Values

variable {placed : Placing} {store : Store}

theorem Value.Fits.callable {value : Value} (fits : value.Fits placed store) {callable : Callable}
    (found : value.callable? = some callable) : callable.Fits placed store := by
  cases value <;> cases found <;> exact fits

theorem Value.IsPlain.fits {value : Value} (plain : value.IsPlain) : value.Fits placed store := by
  cases value <;> trivial

/-- The methods of a class, closed over the environment they are scoped in. -/
theorem fits_methodTable {enclosing : ClassKind} {scopes : Scopes} {env : Env}
    (settled : Scopes.Settled enclosing ([("this", true)] :: scopes))
    (chain : store.Matches scopes env) (declarations : List FunctionDecl)
    (wellFormed : FunctionDecl.AllWellFormed declarations)
    (inside : FunctionDecl.AllScoped placed enclosing ([("this", true)] :: scopes) declarations)
    {name : String} {method : Closure}
    (found : (Eval.methodTable env declarations).find? name = some method) :
    ∃ around scopes, method.FitsBound placed store around scopes := by
  obtain ⟨declaration, member, _, rfl⟩ := Eval.exists_of_find?_methodTable found
  exact ⟨⟨methodKind declaration, enclosing⟩, scopes, settled,
    FunctionDecl.wellFormed_of_mem wellFormed member, FunctionDecl.scoped_of_mem inside member,
    chain⟩

end Values

/-! ## Steps on a store that fits -/

namespace Store

variable {placed : Placing} {before after : Store}

/-- The values fit in every later store. -/
theorem Fits.every (fits : before.Fits placed) (extended : before.Extends after) :
    before.Every (Value.Fits placed after) :=
  fits.toEvery.mono fun _ fitting => fitting.later extended

/-- All that has to be looked at behind a step are the values in the new
store. -/
theorem Fits.extended (fits : before.Fits placed) (extended : before.Extends after)
    (every : after.Every (Value.Fits placed after)) : after.Fits placed :=
  ⟨every, Nat.lt_of_lt_of_le fits.inhabited extended.size⟩

theorem Extends.bindIn (extended : before.Extends after) {frame : Env} {name : String}
    (untouched : before.frames.size ≤ frame ∨ name ≠ "this" ∧ name ≠ "super") (value : Value) :
    before.Extends (after.bindIn frame name value) := by
  have kept : ∀ env < before.frames.size, ∀ word, word = "this" ∨ word = "super" →
      (after.bindIn frame name value).findIn? env word = after.findIn? env word := by
    intro env inside word reserved
    refine findIn?_bindIn_of_ne ?_ after value
    rcases untouched with fresh | ⟨ne_this, ne_super⟩
    · exact .inl (Nat.ne_of_lt (Nat.lt_of_lt_of_le inside fresh))
    · rcases reserved with rfl | rfl
      · exact .inr ne_this.symm
      · exact .inr ne_super.symm
  exact ⟨extended.toGrows.trans (grows_bindIn _ _ _ _),
    fun env inside => (kept env inside _ (.inl rfl)).trans (extended.this env inside),
    fun env inside => (kept env inside _ (.inr rfl)).trans (extended.super env inside)⟩

theorem extends_bindIn (store : Store) (frame : Env) {name : Token} (named : name.IsName)
    (value : Value) : store.Extends (store.bindIn frame name.lexeme value) :=
  (Extends.refl store).bindIn (.inr ⟨named.ne_this, named.ne_super⟩) value

/-- The new value may need the name it is bound to. -/
theorem Fits.bindIn {store : Store} (fits : store.Fits placed) (frame : Env) {name : Token}
    (named : name.IsName) {value : Value}
    (fitting : value.Fits placed (store.bindIn frame name.lexeme value)) :
    (store.bindIn frame name.lexeme value).Fits placed :=
  have extended := store.extends_bindIn frame named value
  fits.extended extended ((fits.every extended).bindIn frame name.lexeme fitting)

theorem extends_child (store : Store) (env : Env) : store.Extends (store.child env).2 :=
  ⟨store.grows_child env, fun _ _ => findIn?_child .., fun _ _ => findIn?_child ..⟩

theorem Fits.child {store : Store} (fits : store.Fits placed) (env : Env) :
    (store.child env).2.Fits placed :=
  fits.extended (store.extends_child env) ((fits.every (store.extends_child env)).child env)

theorem enclosing?_child (store : Store) (env : Env) :
    (store.child env).2.enclosing? (store.child env).1 = some env := by
  simp [Store.child, enclosing?]

/-- The frame of a new block. -/
theorem Matches.child {store : Store} {scopes : Scopes} {env : Env}
    (chain : store.Matches scopes env) :
    (store.child env).2.Matches ([] :: scopes) (store.child env).1 :=
  ⟨nofun, env, store.enclosing?_child env, chain.mono (store.extends_child env)⟩

/-! ### New frames with names -/

theorem Extends.defineAll : ∀ (names : List String) (values : List Value) {after : Store}
    {frame : Env}, before.Extends after → before.frames.size ≤ frame →
      before.Extends (after.defineAll frame names values)
  | [], _, _, _, extended, _ => extended
  | _ :: _, [], _, _, extended, _ => extended
  | _ :: names, value :: values, _, _, extended, fresh =>
    Extends.defineAll names values (extended.bindIn (.inl fresh) value) fresh

/-- With a value for each name, all of them are bound. -/
theorem isSome_defineAll {frame : Env} {name : String} : ∀ {names : List String}
    {values : List Value} {store : Store}, frame < store.frames.size →
      names.length = values.length → name ∈ names →
        ((store.defineAll frame names values).findIn? frame name).isSome
  | first :: names, value :: values, store, inside, lengths, member => by
      by_cases same : name = first
      · subst same
        refine (grows_defineAll frame names values _).bound frame name ?_
        rw [define, findIn?_bindIn_self inside]
        rfl
      · have further : frame < (store.define frame first value).frames.size := by
          rwa [define, size_bindIn]
        rw [defineAll]
        exact isSome_defineAll further (Nat.succ.inj lengths)
          ((List.mem_cons.mp member).resolve_left same)

/-- The store with a new frame that binds names to values. -/
theorem extends_childWith (store : Store) (env : Env) (names : List String)
    (values : List Value) :
    store.Extends ((store.child env).2.defineAll (store.child env).1 names values) :=
  (store.extends_child env).defineAll names values (Nat.le_refl _)

theorem Fits.childWith {store : Store} (fits : store.Fits placed) (env : Env)
    (names : List String) (values : List Value)
    (fitting : ∀ value ∈ values, value.Fits placed store) :
    ((store.child env).2.defineAll (store.child env).1 names values).Fits placed :=
  have extended := store.extends_childWith env names values
  fits.extended extended ((fits.every extended).childWith env names fun value member =>
    (fitting value member).later extended)

/-- A new frame with names is inside the environment it was made in. -/
theorem enclosing?_childWith (store : Store) (env : Env) (names : List String)
    (values : List Value) :
    ((store.child env).2.defineAll (store.child env).1 names values).enclosing?
      (store.child env).1 = some env := by
  have link := store.enclosing?_child env
  rw [(grows_defineAll _ names values _).enclosing _ (lt_of_enclosing? link)]
  exact link

/-- The new frame matches a scope whose names it binds. -/
theorem Matches.childWith {store : Store} {scopes : Scopes} {env : Env} {names : List String}
    {values : List Value} (chain : store.Matches scopes env) {scope : LocalScope}
    (holds : Holds ((store.child env).2.defineAll (store.child env).1 names values) scope
      (store.child env).1) :
    Matches ((store.child env).2.defineAll (store.child env).1 names values) (scope :: scopes)
      (store.child env).1 :=
  ⟨holds, env, store.enclosing?_childWith env names values,
    chain.mono (store.extends_childWith env names values)⟩

/-- The frame of a call binds the parameters. -/
theorem holds_ofParams (store : Store) (env : Env) {params : List Token}
    (named : ∀ param ∈ params, param.IsName) {values : List Value}
    (lengths : values.length = params.length) :
    Holds ((store.child env).2.defineAll (store.child env).1 (params.map Token.lexeme) values)
      (Scopes.ofParams params) (store.child env).1 := by
  intro name defined
  rw [Scopes.find?_ofParams] at defined
  split at defined
  next member =>
    obtain ⟨value, found⟩ := Option.isSome_iff_exists.mp
      (isSome_defineAll (lt_of_enclosing? (store.enclosing?_child env))
        (by rw [List.length_map, lengths]) member)
    obtain ⟨param, among, rfl⟩ := List.mem_map.mp member
    exact ⟨value, found, Value.suits_of_isName (named param among) value⟩
  next => cases defined

/-- A new frame that binds one name matches the scope of that name. -/
theorem holds_single (store : Store) (env : Env) {name : String} {value : Value}
    (suits : value.Suits name) :
    Holds ((store.child env).2.defineAll (store.child env).1 [name] [value]) [(name, true)]
      (store.child env).1 := by
  intro other defined
  simp only [Bindings.find?] at defined
  split at defined
  next same =>
    rw [← eq_of_beq same]
    refine ⟨value, ?_, suits⟩
    exact findIn?_bindIn_self (lt_of_enclosing? (store.enclosing?_child env)) name value
  next => cases defined

/-! ### Bound methods, classes and instances -/

theorem extends_bindMethod (store : Store) (method : Closure) (object : Instance) :
    store.Extends (store.bindMethod method object).2 :=
  store.extends_childWith method.env ["this"] [.object object]

theorem Fits.bindMethod {store : Store} (fits : store.Fits placed) (method : Closure)
    {object : Instance} (fitting : object.cls.Fits placed store) :
    (store.bindMethod method object).2.Fits placed :=
  fits.childWith method.env ["this"] [.object object] (List.forall_mem_singleton.mpr fitting)

/-- A method bound to an instance fits as a function. -/
theorem fits_bindMethod (store : Store) {method : Closure} {around : Surroundings}
    {scopes : Scopes} (fits : method.FitsBound placed store around scopes) (object : Instance) :
    (store.bindMethod method object).1.Fits placed (store.bindMethod method object).2 := by
  have suits : (Value.object object).Suits "this" :=
    ⟨fun _ => ⟨object, rfl⟩, fun same => absurd same (by decide)⟩
  exact ⟨around, [("this", true)] :: scopes, fits.settled, fits.wellFormed, fits.inside,
    fits.chain.childWith (store.holds_single method.env suits)⟩

theorem extends_newInstance (store : Store) (cls : Class) :
    store.Extends (store.newInstance cls).2 :=
  .of_frames rfl

theorem Fits.newInstance {store : Store} (fits : store.Fits placed) (cls : Class) :
    (store.newInstance cls).2.Fits placed :=
  have extended := store.extends_newInstance cls
  fits.extended extended ((fits.every extended).newInstance cls)

theorem Fits.setField {store : Store} (fits : store.Fits placed) (object : Instance)
    (name : String) {value : Value} (fitting : value.Fits placed store) :
    (store.setField object name value).Fits placed :=
  have extended : store.Extends (store.setField object name value) := .of_frames rfl
  fits.extended extended ((fits.every extended).setField object name (fitting.later extended))

theorem Fits.newClass {store : Store} (fits : store.Fits placed) (name : String)
    (superclass : Option Class) (own : MethodTable) :
    (store.newClass name superclass own).2.Fits placed :=
  have extended : store.Extends (store.newClass name superclass own).2 := .of_frames rfl
  fits.extended extended ⟨(fits.every extended).bound, (fits.every extended).fields⟩

end Store

end LoxLang
