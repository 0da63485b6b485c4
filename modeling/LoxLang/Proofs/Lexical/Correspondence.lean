import LoxLang.Proofs.Lexical.Likeness

/-!
# States that simulate machines

A state simulates a machine if global names, cells and fields hold values that
are alike, if every captured scope mirrors the environment of its making, and
if the output, the clock and the number of calls are the same (`Simulates`).
In the world no cell has the place of another, and no function was made twice
(`World.Distinct`).

The lemmas say for each change of a store which change of a state goes with
it: binding a name (`Simulates.define`), binding a name to a value made with a
new scope (`Simulates.make`), adding frames without variables
(`Simulates.frames`), declaring a name (`Simulates.declare`), and what is done
to classes, instances and their fields.
-/

namespace LoxLang.Lexical

set_option autoImplicit false

open Resolution

/-- No two cells have one place, and no two makings of functions have the same
number and environment. -/
structure World.Distinct (world : World) : Prop where
  places : ∀ (cell other : Nat) (place : Env × String), world.places[cell]? = some place →
    world.places[other]? = some place → cell = other
  makings : ∀ (made other : Env) (making found : Making) (id : Nat),
    world.makings[made]? = some making → world.makings[other]? = some found →
      making.id = some id → found.id = some id → making.env = found.env → made = other

/-- Global names, cells and fields hold like values. Every variable in a frame
other than the global one has a cell. -/
structure Stored (placed : Placing) (world : World) (store : Store) (state : State) : Prop where
  globals : ∀ name, Both (Like placed world) (store.findIn? Env.global name)
    (state.globals.find? name)
  cellCount : world.places.size = state.cells.size
  cells : ∀ (cell : Nat) (frame : Env) (name : String) (value : Value),
    world.places[cell]? = some (frame, name) → store.findIn? frame name = some value →
      ∃ twin, state.cells[cell]? = some twin ∧ Like placed world value twin
  inside : ∀ (cell : Nat) (frame : Env) (name : String),
    world.places[cell]? = some (frame, name) →
      Plain name ∧ frame ≠ Env.global ∧ frame < store.frames.size
  known : ∀ frame name value, frame ≠ Env.global → Plain name →
    store.findIn? frame name = some value → ∃ cell : Nat, world.places[cell]? = some (frame, name)
  fieldCount : store.fields.size = state.fields.size
  fields : ∀ (object twin : Instance) (name : String), twin.id = object.id →
    Both (Like placed world) (store.field? object name) (state.field? twin name)
  classCount : store.classCount = state.classCount

/-- A state simulates a machine. -/
structure Simulates (placed : Placing) (world : World) (machine : Machine) (state : State) :
    Prop where
  table : ∀ id distance, placed id distance → machine.distances.find? id = distance
  global : machine.store.enclosing? Env.global = none
  inhabited : Env.global < machine.store.frames.size
  stored : Stored placed world machine.store state
  madeCount : world.makings.size = state.captured.size
  captured : ∀ (made : Env) (making : Making), world.makings[made]? = some making →
    Mirrors placed world machine.store making.scopes making.env (state.scopeOf made)
  distinct : world.Distinct
  depth : machine.depth = state.depth
  output : machine.output = state.output
  clock : machine.clock = state.clock
  readings : machine.readings = state.readings

/-- What a name in a scope stands for is the variable in a frame. -/
def Targets (world : World) (frame : Env) (scope : Scope) (name : String) : Prop :=
  match scope.names.find? name with
  | some cell => world.places[cell]? = some (frame, name)
  | none => frame = Env.global

/-- A name that was just declared stands for the variable in the innermost
frame. -/
theorem Mirrors.targets {placed : Placing} {world : World} {store : Store} {scopes : Scopes}
    {env : Env} {scope : Scope} {name : String} {flag : Bool}
    (mirrors : Mirrors placed world store (scopes.mark name flag) env scope) (plain : Plain name) :
    Targets world env scope name := by
  unfold Targets
  cases scopes with
  | nil =>
      rw [mirrors.missing name plain rfl]
      exact mirrors.chain
  | cons top outer =>
      have here : distance? name (Scopes.mark name flag (top :: outer)) = some 0 := by
        rw [Scopes.mark, Scopes.distance?_cons, Bindings.contains, Bindings.find?_insert_self]
        rfl
      obtain ⟨cell, found, known⟩ := mirrors.names name 0 env plain here rfl
      rw [found]
      exact known

namespace Stored

variable {placed : Placing} {world : World} {store : Store} {state : State}

/-- Something is made that is not stored yet. -/
theorem capture (stored : Stored placed world store state) (making : Making) (scope : Scope) :
    Stored placed (world.withMaking making) store (state.capture scope).2 := by
  have le := world.le_withMaking making
  refine ⟨fun name => (stored.globals name).mono fun _ _ => Like.mono le, stored.cellCount,
    fun cell frame name value known found => ?_, stored.inside, stored.known, stored.fieldCount,
    fun object twin name same => (stored.fields object twin name same).mono fun _ _ => Like.mono le,
    stored.classCount⟩
  obtain ⟨twin, here, like⟩ := stored.cells cell frame name value known found
  exact ⟨twin, here, like.mono le⟩

theorem defineLocal (stored : Stored placed world store state) (distinct : world.Distinct)
    {frame : Env} {name : String} {cell : Nat} (place : world.places[cell]? = some (frame, name))
    {value twin : Value} (like : Like placed world value twin) :
    Stored placed world (store.bindIn frame name value)
      { state with cells := state.cells.setIfInBounds cell twin } := by
  obtain ⟨_, inner, inside⟩ := stored.inside cell frame name place
  have room : cell < state.cells.size := by
    rw [← stored.cellCount]
    exact (Array.getElem?_eq_some_iff.mp place).1
  refine ⟨fun other => ?_, by simpa using stored.cellCount,
    fun found home word content known here => ?_, fun found home word known => ?_,
    fun home word content local_ plain here => ?_, stored.fieldCount, stored.fields,
    stored.classCount⟩
  · rw [Store.findIn?_bindIn_of_ne (.inl inner.symm)]
    exact stored.globals other
  · rw [Store.findIn?_bindIn] at here
    by_cases same : found = cell
    · -- the cell that is set
      subst same
      cases known.symm.trans place
      rw [if_pos ⟨rfl, rfl, inside⟩] at here
      cases here
      exact ⟨twin, by simp [room], like⟩
    · split at here
      next all =>
        obtain ⟨rfl, rfl, _⟩ := all
        exact absurd (distinct.places _ _ _ known place) same
      next =>
        rw [Array.getElem?_setIfInBounds_ne (Ne.symm same)]
        exact stored.cells found home word content known here
  · rw [Store.size_bindIn]
    exact stored.inside found home word known
  · rw [Store.findIn?_bindIn] at here
    split at here
    next all =>
      obtain ⟨rfl, rfl, _⟩ := all
      exact ⟨cell, place⟩
    next => exact stored.known home word content local_ plain here

theorem defineGlobal (stored : Stored placed world store state)
    (inhabited : Env.global < store.frames.size) (name : String) {value twin : Value}
    (like : Like placed world value twin) :
    Stored placed world (store.bindIn Env.global name value)
      { state with globals := state.globals.insert name twin } := by
  have others : ∀ (frame : Env) (word : String), frame ≠ Env.global →
      (store.bindIn Env.global name value).findIn? frame word = store.findIn? frame word :=
    fun frame word inner => Store.findIn?_bindIn_of_ne (.inl inner) store value
  refine ⟨fun other => ?_, stored.cellCount, fun cell frame word content known here => ?_,
    fun cell frame word known => ?_, fun frame word content inner plain here => ?_,
    stored.fieldCount, stored.fields, stored.classCount⟩
  · by_cases same : other = name
    · subst same
      rw [Store.findIn?_bindIn_self inhabited, Bindings.find?_insert_self]
      exact like
    · rw [Store.findIn?_bindIn_of_ne (.inr same), Bindings.find?_insert_of_ne same]
      exact stored.globals other
  · rw [others frame word (stored.inside cell frame word known).2.1] at here
    exact stored.cells cell frame word content known here
  · rw [Store.size_bindIn]
    exact stored.inside cell frame word known
  · rw [others frame word inner] at here
    exact stored.known frame word content inner plain here

/-- **Binding a name** in a frame and giving it its value in a scope. -/
theorem define (stored : Stored placed world store state) (distinct : world.Distinct)
    (inhabited : Env.global < store.frames.size) {frame : Env} {scope : Scope} {name : String}
    (targets : Targets world frame scope name) {value twin : Value}
    (like : Like placed world value twin) :
    Stored placed world (store.bindIn frame name value) (state.define scope name twin) := by
  unfold Targets at targets
  unfold State.define
  cases here : scope.names.find? name with
  | none =>
      simp only [here] at targets
      rw [targets]
      exact stored.defineGlobal inhabited name like
  | some cell =>
      simp only [here] at targets
      exact stored.defineLocal distinct targets like

/-- A new cell for a name that is not bound in its frame. -/
theorem declare (stored : Stored placed world store state) {env : Env} {name : String}
    (inner : env ≠ Env.global) (inside : env < store.frames.size) (plain : Plain name)
    (fresh : ∀ cell : Nat, world.places[cell]? ≠ some (env, name)) :
    Stored placed (world.withPlace (env, name)) store
      { state with cells := state.cells.push .nil } := by
  have le := world.le_withPlace (env, name)
  have old : ∀ (cell : Nat) (place : Env × String),
      (world.withPlace (env, name)).places[cell]? = some place →
        place = (env, name) ∨ world.places[cell]? = some place := by
    intro cell place known
    rw [World.withPlace, Array.getElem?_push] at known
    split at known
    · exact .inl (Option.some.inj known).symm
    · exact .inr known
  refine ⟨fun other => (stored.globals other).mono fun _ _ => Like.mono le,
    by simp [World.withPlace, stored.cellCount], fun cell frame word content known here => ?_,
    fun cell frame word known => ?_, fun frame word content local_ isPlain here => ?_,
    stored.fieldCount, fun object twin word same => (stored.fields object twin word same).mono
      fun _ _ => Like.mono le, stored.classCount⟩
  · rcases old cell _ known with same | known
    · obtain ⟨rfl, rfl⟩ := Prod.mk.inj same
      obtain ⟨other, place⟩ := stored.known frame word content inner plain here
      exact absurd place (fresh other)
    · obtain ⟨twin, found, like⟩ := stored.cells cell frame word content known here
      exact ⟨twin, World.getElem?_push_of_some found _, like.mono le⟩
  · rcases old cell _ known with same | known
    · obtain ⟨rfl, rfl⟩ := Prod.mk.inj same
      exact ⟨plain, inner, inside⟩
    · exact stored.inside cell frame word known
  · obtain ⟨cell, place⟩ := stored.known frame word content local_ isPlain here
    exact ⟨cell, le.places _ _ place⟩

/-- Frames are added that hold no variables. -/
theorem frames (stored : Stored placed world store state) {after : Store}
    (size : store.frames.size ≤ after.frames.size)
    (same : ∀ frame name, frame = Env.global ∨ Plain name →
      after.findIn? frame name = store.findIn? frame name)
    (fields : after.fields = store.fields) (classCount : after.classCount = store.classCount) :
    Stored placed world after state where
  globals name := by
    rw [same _ _ (.inl rfl)]
    exact stored.globals name
  cellCount := stored.cellCount
  cells cell frame name value known here := by
    rw [same _ _ (.inr (stored.inside cell frame name known).1)] at here
    exact stored.cells cell frame name value known here
  inside cell frame name known := by
    obtain ⟨plain, inner, inside⟩ := stored.inside cell frame name known
    exact ⟨plain, inner, Nat.lt_of_lt_of_le inside size⟩
  known frame name value inner plain here := by
    rw [same _ _ (.inr plain)] at here
    exact stored.known frame name value inner plain here
  fieldCount := by rw [fields, stored.fieldCount]
  fields object twin name same := by
    simp only [Store.field?, fields]
    exact stored.fields object twin name same
  classCount := classCount.trans stored.classCount

/-- A new class on both sides. -/
theorem newClass (stored : Stored placed world store state) :
    Stored placed world { store with classCount := store.classCount + 1 }
      { state with classCount := state.classCount + 1 } :=
  ⟨stored.globals, stored.cellCount, stored.cells, stored.inside, stored.known, stored.fieldCount,
    stored.fields, congrArg (· + 1) stored.classCount⟩

/-- A new instance on both sides has no fields. -/
theorem newInstance (stored : Stored placed world store state) :
    Stored placed world { store with fields := store.fields.push [] }
      { state with fields := state.fields.push [] } := by
  refine ⟨stored.globals, stored.cellCount, stored.cells, stored.inside, stored.known,
    by simp [stored.fieldCount], fun object twin name same => ?_, stored.classCount⟩
  have old := stored.fields object twin name same
  simp only [Store.field?, State.field?, Array.getElem?_push, stored.fieldCount, same] at old ⊢
  by_cases new : object.id = state.fields.size
  · rw [if_pos new, if_pos new]
    trivial
  · rw [if_neg new, if_neg new]
    exact old

/-- A field is set on both sides. -/
theorem setField (stored : Stored placed world store state) {object twin : Instance}
    (same : twin.id = object.id) (name : String) {value other : Value}
    (like : Like placed world value other) :
    Stored placed world (store.setField object name value) (state.setField twin name other) := by
  refine ⟨stored.globals, stored.cellCount, stored.cells, stored.inside, stored.known,
    by simpa [Store.setField, State.setField] using stored.fieldCount,
    fun found foundTwin field sameFound => ?_, stored.classCount⟩
  have old := stored.fields found foundTwin field sameFound
  simp only [Store.setField, State.setField, Store.field?, State.field?, Array.getElem?_modify,
    same, sameFound] at old ⊢
  by_cases here : object.id = found.id
  · rw [if_pos here, if_pos here]
    -- both sides have the instance or neither does
    have sizes := stored.fieldCount
    cases left : store.fields[found.id]? with
    | none =>
        have absent := Array.getElem?_eq_none_iff.mp left
        rw [sizes] at absent
        rw [Array.getElem?_eq_none absent]
        trivial
    | some bindings =>
        have present := (Array.getElem?_eq_some_iff.mp left).1
        rw [sizes] at present
        obtain ⟨twins, right⟩ : ∃ twins, state.fields[found.id]? = some twins :=
          ⟨_, Array.getElem?_eq_getElem present⟩
        rw [left, right] at old
        rw [right]
        by_cases names : field = name
        · subst names
          simp only [Option.map_some, Bindings.find?_insert_self]
          exact like
        · simp only [Option.map_some, Bindings.find?_insert_of_ne names]
          exact old
  · rw [if_neg here, if_neg here]
    exact old

end Stored

/-! ## Worlds that grow -/

/-- No function of an environment has one of the given numbers yet. -/
def World.Unmade (world : World) (env : Env) (ids : List Nat) : Prop :=
  ∀ (made : Env) (making : Making) (id : Nat), world.makings[made]? = some making →
    making.id = some id → making.env = env → id ∉ ids

namespace World

variable {world : World}

/-- What is in a world with one more making. -/
theorem getElem?_withMaking {making found : Making} {made : Env}
    (known : (world.withMaking making).makings[made]? = some found) :
    made = world.makings.size ∧ found = making ∨ world.makings[made]? = some found := by
  rw [withMaking, Array.getElem?_push] at known
  split at known
  next new => exact .inl ⟨new, (Option.some.inj known).symm⟩
  next => exact .inr known

/-- What is in a world with one more cell. -/
theorem getElem?_withPlace {place found : Env × String} {cell : Nat}
    (known : (world.withPlace place).places[cell]? = some found) :
    cell = world.places.size ∧ found = place ∨ world.places[cell]? = some found := by
  rw [withPlace, Array.getElem?_push] at known
  split at known
  next new => exact .inl ⟨new, (Option.some.inj known).symm⟩
  next => exact .inr known

theorem Distinct.withMaking (distinct : world.Distinct) {making : Making}
    (unmade : ∀ id, making.id = some id → world.Unmade making.env [id]) :
    (world.withMaking making).Distinct := by
  refine ⟨distinct.places, fun made other first second id known found numbered same env => ?_⟩
  rcases getElem?_withMaking known with ⟨new, rfl⟩ | earlier
  · rcases getElem?_withMaking found with ⟨also, rfl⟩ | before
    · rw [new, also]
    · exact absurd (List.mem_singleton_self id)
        (unmade id numbered other second id before same env.symm)
  · rcases getElem?_withMaking found with ⟨_, rfl⟩ | before
    · exact absurd (List.mem_singleton_self id) (unmade id same made first id earlier numbered env)
    · exact distinct.makings made other first second id earlier before numbered same env

theorem Distinct.withPlace (distinct : world.Distinct) {place : Env × String}
    (fresh : ∀ cell : Nat, world.places[cell]? ≠ some place) :
    (world.withPlace place).Distinct := by
  refine ⟨fun cell other found known same => ?_, distinct.makings⟩
  rcases getElem?_withPlace known with ⟨new, rfl⟩ | earlier
  · rcases getElem?_withPlace same with ⟨also, _⟩ | before
    · rw [new, also]
    · exact absurd before (fresh other)
  · rcases getElem?_withPlace same with ⟨_, rfl⟩ | before
    · exact absurd earlier (fresh cell)
    · exact distinct.places cell other found earlier before

end World

/-! ## Steps on both sides -/

/-- Giving a name its value changes cells and global names only. -/
theorem State.define_eq (state : State) (scope : Scope) (name : String) (value : Value) :
    ∃ cells globals, state.define scope name value =
      { state with cells := cells, globals := globals } := by
  unfold State.define
  split
  · exact ⟨_, state.globals, rfl⟩
  · exact ⟨state.cells, _, rfl⟩

/-- The scopes of makings with one more. -/
theorem State.scopeOf_capture (state : State) (scope : Scope) (made : Env) :
    (state.capture scope).2.scopeOf made =
      if made = state.captured.size then scope else state.scopeOf made := by
  simp only [State.capture, State.scopeOf, Array.getElem?_push]
  split <;> rfl

namespace Simulates

variable {placed : Placing} {world wider : World} {machine : Machine} {state : State}
  {store : Store}

/-- The store is extended, and nothing is made. -/
theorem later (simulates : Simulates placed world machine state)
    (extended : machine.store.Extends store) (le : world.Le wider)
    (makings : wider.makings = world.makings) (distinct : wider.Distinct) {cells : Array Value}
    {globals : Bindings Value} {fields : Array (Bindings Value)} {classCount : Nat}
    (stored : Stored placed wider store { state with
      cells := cells, globals := globals, fields := fields, classCount := classCount }) :
    Simulates placed wider { machine with store := store } { state with
      cells := cells, globals := globals, fields := fields, classCount := classCount } where
  table := simulates.table
  global := (extended.enclosing _ simulates.inhabited).trans simulates.global
  inhabited := Nat.lt_of_lt_of_le simulates.inhabited extended.size
  stored := stored
  madeCount := by rw [makings, simulates.madeCount]
  captured made making known :=
    (simulates.captured made making (makings ▸ known)).mono le extended
  distinct := distinct
  depth := simulates.depth
  output := simulates.output
  clock := simulates.clock
  readings := simulates.readings

/-- The store is extended, and something is made whose scope mirrors its
environment in the new store. -/
theorem make (simulates : Simulates placed world machine state)
    (extended : machine.store.Extends store) {making : Making}
    (unmade : ∀ id, making.id = some id → world.Unmade making.env [id]) {scope : Scope}
    (mirrors : Mirrors placed (world.withMaking making) store making.scopes making.env scope)
    {cells : Array Value} {globals : Bindings Value}
    (stored : Stored placed (world.withMaking making) store { state with
      captured := state.captured.push scope, cells := cells, globals := globals }) :
    Simulates placed (world.withMaking making) { machine with store := store } { state with
      captured := state.captured.push scope, cells := cells, globals := globals } where
  table := simulates.table
  global := (extended.enclosing _ simulates.inhabited).trans simulates.global
  inhabited := Nat.lt_of_lt_of_le simulates.inhabited extended.size
  stored := stored
  madeCount := by simp [World.withMaking, simulates.madeCount]
  captured made found known := by
    change Mirrors placed _ store found.scopes found.env ((state.capture scope).2.scopeOf made)
    rw [State.scopeOf_capture, ← simulates.madeCount]
    rcases World.getElem?_withMaking known with ⟨new, rfl⟩ | old
    · rw [if_pos new]
      exact mirrors
    · rw [if_neg (Nat.ne_of_lt (Array.getElem?_eq_some_iff.mp old).1)]
      exact (simulates.captured made found old).mono (world.le_withMaking making) extended
  distinct := simulates.distinct.withMaking unmade
  depth := simulates.depth
  output := simulates.output
  clock := simulates.clock
  readings := simulates.readings

/-- A name is bound in a frame and given its value in a scope. -/
theorem define (simulates : Simulates placed world machine state) {frame : Env} {scope : Scope}
    {name : String} (plain : Plain name) (targets : Targets world frame scope name)
    {value twin : Value} (like : Like placed world value twin) :
    Simulates placed world { machine with store := machine.store.bindIn frame name value }
      (state.define scope name twin) := by
  have stored := simulates.stored.define simulates.distinct simulates.inhabited targets like
  obtain ⟨cells, globals, same⟩ := state.define_eq scope name twin
  rw [same] at stored ⊢
  exact simulates.later ((Store.Extends.refl _).bindIn (.inr ⟨plain.ne_this, plain.ne_super⟩) value)
    (.refl world) rfl simulates.distinct stored

/-- A function is made and bound to its own name, which its scope already
knows. -/
theorem defineMade (simulates : Simulates placed world machine state) {making : Making}
    (unmade : ∀ id, making.id = some id → world.Unmade making.env [id]) {frame : Env}
    {scope : Scope} {name : String} (plain : Plain name) (targets : Targets world frame scope name)
    {value twin : Value} (like : Like placed (world.withMaking making) value twin)
    (mirrors : Mirrors placed (world.withMaking making) (machine.store.bindIn frame name value)
      making.scopes making.env scope) :
    Simulates placed (world.withMaking making)
      { machine with store := machine.store.bindIn frame name value }
      ((state.capture scope).2.define scope name twin) := by
  have stored := (simulates.stored.capture making scope).define
    (simulates.distinct.withMaking unmade) simulates.inhabited targets like
  obtain ⟨cells, globals, same⟩ := (state.capture scope).2.define_eq scope name twin
  rw [same] at stored ⊢
  exact simulates.make ((Store.Extends.refl _).bindIn (.inr ⟨plain.ne_this, plain.ne_super⟩) value)
    unmade mirrors stored

/-- The environment of methods is captured. -/
theorem capture (simulates : Simulates placed world machine state) (making : Making)
    (unmade : ∀ id, making.id = some id → world.Unmade making.env [id]) {scope : Scope}
    (mirrors : Mirrors placed world machine.store making.scopes making.env scope) :
    Simulates placed (world.withMaking making) machine (state.capture scope).2 :=
  simulates.make (.refl _) unmade (mirrors.mono (world.le_withMaking making) (.refl _))
    (simulates.stored.capture making scope)

/-- A local name gets a new cell. -/
theorem declare (simulates : Simulates placed world machine state) {env : Env} {name : String}
    (inner : env ≠ Env.global) (inside : env < machine.store.frames.size) (plain : Plain name)
    (fresh : ∀ cell : Nat, world.places[cell]? ≠ some (env, name)) :
    Simulates placed (world.withPlace (env, name)) machine
      { state with cells := state.cells.push .nil } :=
  simulates.later (.refl _) (world.le_withPlace _) rfl (simulates.distinct.withPlace fresh)
    (simulates.stored.declare inner inside plain fresh)

/-- A new frame without names. -/
theorem child (simulates : Simulates placed world machine state) (env : Env) :
    Simulates placed world { machine with store := (machine.store.child env).2 } state :=
  have extended := machine.store.extends_child env
  simulates.later extended (.refl world) rfl simulates.distinct
    (simulates.stored.frames extended.size (fun _ _ _ => Store.findIn?_child ..) rfl rfl)

/-- A new frame for a reserved word. -/
theorem reservedChild (simulates : Simulates placed world machine state) (env : Env) {word : String}
    (reserved : ¬ Plain word) (value : Value) :
    Simulates placed world { machine with
      store := Lexical.reservedChild machine.store env word value } state :=
  have extended := machine.store.extends_childWith env [word] [value]
  simulates.later extended (.refl world) rfl simulates.distinct
    (simulates.stored.frames extended.size
      (fun _ _ => findIn?_reservedChild simulates.inhabited env reserved value) rfl rfl)

theorem newClass (simulates : Simulates placed world machine state) :
    Simulates placed world
      { machine with store := { machine.store with classCount := machine.store.classCount + 1 } }
      { state with classCount := state.classCount + 1 } :=
  simulates.later (.of_frames (by rfl)) (.refl world) rfl simulates.distinct
    simulates.stored.newClass

theorem newInstance (simulates : Simulates placed world machine state) :
    Simulates placed world
      { machine with store := { machine.store with fields := machine.store.fields.push [] } }
      { state with fields := state.fields.push [] } :=
  simulates.later (.of_frames (by rfl)) (.refl world) rfl simulates.distinct
    simulates.stored.newInstance

theorem setField (simulates : Simulates placed world machine state) {object twin : Instance}
    (same : twin.id = object.id) (name : String) {value other : Value}
    (like : Like placed world value other) :
    Simulates placed world { machine with store := machine.store.setField object name value }
      (state.setField twin name other) :=
  simulates.later (.of_frames (by rfl)) (.refl world) rfl simulates.distinct
    (simulates.stored.setField same name like)

/-- The current environment does not matter. -/
theorem withEnv (simulates : Simulates placed world machine state) (env : Env) :
    Simulates placed world { machine with env := env } state :=
  { simulates with }

theorem withDepth (simulates : Simulates placed world machine state) {depth twin : Nat}
    (same : depth = twin) :
    Simulates placed world { machine with depth := depth } { state with depth := twin } :=
  { simulates with
    stored := { simulates.stored with }
    depth := same }

/-- What was written. -/
theorem withOutput (simulates : Simulates placed world machine state) (output : Sink) :
    Simulates placed world { machine with output := output } { state with output := output } :=
  { simulates with
    stored := { simulates.stored with }
    output := rfl }

/-- How often the clock was read. -/
theorem withReadings (simulates : Simulates placed world machine state) (readings : Nat) :
    Simulates placed world { machine with readings := readings }
      { state with readings := readings } :=
  { simulates with
    stored := { simulates.stored with }
    readings := rfl }

end Simulates

/-! ## Operators -/

section Operators

variable {placed : Placing} {world : World}

/-- **Functions are the same if they come from one making.** -/
theorem LikeFunction.same (distinct : world.Distinct) {left right leftTwin rightTwin : Closure}
    (first : LikeFunction placed world left leftTwin)
    (second : LikeFunction placed world right rightTwin) :
    leftTwin.same rightTwin = left.same right := by
  obtain ⟨scopes, known, _⟩ := first.made
  obtain ⟨others, found, _⟩ := second.made
  have iff : leftTwin.env = rightTwin.env ↔
      left.declaration.id = right.declaration.id ∧ left.env = right.env := by
    constructor
    · intro same
      rw [same, found] at known
      obtain ⟨envs, _, ids⟩ := Making.mk.inj (Option.some.inj known)
      exact ⟨(Option.some.inj ids).symm, envs.symm⟩
    · rintro ⟨ids, envs⟩
      exact distinct.makings _ _ _ _ left.declaration.id known found rfl
        (congrArg some ids.symm) envs
  rw [Bool.eq_iff_iff]
  simp only [Closure.same, first.declaration, second.declaration, Bool.and_eq_true, beq_iff_eq, iff]
  exact ⟨fun both => both.2, fun both => ⟨both.1, both⟩⟩

/-- Like values are compared with the same result. -/
theorem Like.same (distinct : world.Distinct) {left right leftTwin rightTwin : Value}
    (first : Like placed world left leftTwin) (second : Like placed world right rightTwin) :
    leftTwin.same rightTwin = left.same right := by
  cases first with
  | function like =>
      cases second with
      | function other => exact like.same distinct other
      | _ => rfl
  | cls like =>
      cases second with
      | cls other => simp only [Value.same, like.id, other.id]
      | _ => rfl
  | object id like =>
      cases second with
      | object other likeOther => simp only [Value.same, id, other]
      | _ => rfl
  | _ => cases second <;> rfl

/-- A result of the operators that is the same on both sides. -/
def LikeResult (placed : Placing) (world : World) (result twin : Except RuntimeCause Value) :
    Prop :=
  twin = result ∧ ∀ value, result = .ok value → Like placed world value value

theorem like_unary (operator : Token) {operand twin : Value}
    (like : Like placed world operand twin) :
    LikeResult placed world (Operator.unary operator operand) (Operator.unary operator twin) := by
  unfold Operator.unary
  split
  · cases like with
    | number value => exact ⟨rfl, fun _ same => by cases same; exact .number _⟩
    | _ => exact ⟨rfl, fun _ same => by cases same⟩
  · rw [like.isTruthy]
    exact ⟨rfl, fun _ same => by cases same; exact .bool _⟩
  · exact ⟨rfl, fun _ same => by cases same⟩

theorem like_arithmetic (operator : Token) (left right : Float) :
    LikeResult placed world (Operator.arithmetic operator left right)
      (Operator.arithmetic operator left right) := by
  refine ⟨rfl, fun value ended => ?_⟩
  unfold Operator.arithmetic at ended
  split at ended <;> cases ended
  · exact .number _
  · exact .number _
  · exact .number _
  · exact .bool _
  · exact .bool _
  · exact .bool _
  · exact .bool _

theorem like_sum {left right leftTwin rightTwin : Value} (first : Like placed world left leftTwin)
    (second : Like placed world right rightTwin) :
    LikeResult placed world (Operator.sum left right) (Operator.sum leftTwin rightTwin) := by
  cases first with
  | number value =>
      cases second with
      | number other => exact ⟨rfl, fun _ same => by cases same; exact .number _⟩
      | _ => exact ⟨rfl, fun _ same => by cases same⟩
  | string value =>
      cases second with
      | string other => exact ⟨rfl, fun _ same => by cases same; exact .string _⟩
      | _ => exact ⟨rfl, fun _ same => by cases same⟩
  | _ => cases second <;> exact ⟨rfl, fun _ same => by cases same⟩

theorem like_binary (distinct : world.Distinct) (operator : Token)
    {left right leftTwin rightTwin : Value} (first : Like placed world left leftTwin)
    (second : Like placed world right rightTwin) :
    LikeResult placed world (Operator.binary operator left right)
      (Operator.binary operator leftTwin rightTwin) := by
  unfold Operator.binary
  split
  · exact like_sum first second
  · rw [first.same distinct second]
    exact ⟨rfl, fun _ same => by cases same; exact .bool _⟩
  · rw [first.same distinct second]
    exact ⟨rfl, fun _ same => by cases same; exact .bool _⟩
  · cases first with
    | number value =>
        cases second with
        | number other => exact like_arithmetic operator value other
        | _ => exact ⟨rfl, fun _ same => by cases same⟩
    | _ => cases second <;> exact ⟨rfl, fun _ same => by cases same⟩

end Operators

/-! ## Classes -/

section Classes

variable {placed : Placing} {world : World} {machine : Machine} {state : State}

/-- A new class has its own methods, and behind them those it inherits. -/
theorem Simulates.like_newClass (simulates : Simulates placed world machine state) (name : String)
    {superclass twin : Option Class} (parents : Both (LikeClass placed world) superclass twin)
    {own ownTwin : MethodTable}
    (methods : ∀ name, Both (LikeMethod placed world) (own.find? name) (ownTwin.find? name)) :
    LikeClass placed world (machine.store.newClass name superclass own).1
      (state.newClass name twin ownTwin).1 := by
  refine ⟨simulates.stored.classCount.symm, rfl, fun method => ?_⟩
  simp only [Store.newClass, State.newClass, Class.findMethod?, List.findSome?_cons]
  rcases (methods method).cases with ⟨here, there⟩ | ⟨first, second, here, there, alike⟩
  · rw [here, there]
    rcases parents.cases with ⟨rfl, rfl⟩ | ⟨parent, other, rfl, rfl, alike⟩
    · trivial
    · exact alike.methods method
  · rw [here, there]
    exact alike

end Classes

end LoxLang.Lexical
