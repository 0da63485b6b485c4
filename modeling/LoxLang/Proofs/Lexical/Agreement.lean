import LoxLang.Proofs.Lexical.Correspondence
import LoxLang.Proofs.Run.Soundness

/-!
# Steps that agree

Two steps, one of the machine and one of the second interpreter, agree if they
end in the same way, in states that simulate each other again: both with results
that are alike, or both with the same interrupt (`Agree`). Steps put together
agree if their parts do (`Agree.bind`).

The world grows along the way. Where new cells and functions may belong is said
by a room: an expression fills new frames only, while a declaration also adds
its own name and function to the current frame (`Room`). What is known about
the other frames therefore stays true.
-/

namespace LoxLang.Lexical

set_option autoImplicit false

open Resolution

/-! ## Where a world may grow -/

/-- The frames and names that may get a cell, and the environments and numbers
that may get a function. -/
structure Room where
  cell : Env → String → Prop
  function : Env → Nat → Prop

namespace Room

/-- All frames from a number on. -/
def fromFrame (first : Nat) : Room := ⟨fun frame _ => first ≤ frame, fun env _ => first ≤ env⟩

/-- A room in which there is place for all frames from a number on. -/
def Open (room : Room) (first : Nat) : Prop :=
  ∀ frame, first ≤ frame → (∀ name, room.cell frame name) ∧ ∀ id, room.function frame id

/-- A room inside another one. -/
structure Le (room wider : Room) : Prop where
  cell : ∀ frame name, room.cell frame name → wider.cell frame name
  function : ∀ env id, room.function env id → wider.function env id

theorem Le.refl (room : Room) : room.Le room :=
  ⟨fun _ _ here => here, fun _ _ here => here⟩

theorem open_fromFrame (first : Nat) : (fromFrame first).Open first :=
  fun _ later => ⟨fun _ => later, fun _ => later⟩

theorem Open.mono {room : Room} {first later : Nat} (isOpen : room.Open first)
    (le : first ≤ later) : room.Open later :=
  fun frame inside => isOpen frame (Nat.le_trans le inside)

theorem Open.le {room : Room} {first : Nat} (isOpen : room.Open first) :
    (fromFrame first).Le room :=
  ⟨fun frame name later => (isOpen frame later).1 name,
    fun env id later => (isOpen env later).2 id⟩

end Room

/-- A world that has grown in a room. -/
structure Grown (room : Room) (world wider : World) : Prop where
  le : world.Le wider
  places : ∀ (cell : Nat) (frame : Env) (name : String),
    wider.places[cell]? = some (frame, name) →
      world.places[cell]? = some (frame, name) ∨ room.cell frame name
  makings : ∀ (made : Env) (making : Making) (id : Nat), wider.makings[made]? = some making →
    making.id = some id → world.makings[made]? = some making ∨ room.function making.env id

namespace Grown

variable {room : Room} {world wider : World}

theorem refl (room : Room) (world : World) : Grown room world world :=
  ⟨.refl world, fun _ _ _ known => .inl known, fun _ _ _ known _ => .inl known⟩

theorem trans {last : World} (earlier : Grown room world wider) (later : Grown room wider last) :
    Grown room world last := by
  refine ⟨earlier.le.trans later.le, fun cell frame name known => ?_,
    fun made making id known numbered => ?_⟩
  · rcases later.places cell frame name known with before | new
    · exact earlier.places cell frame name before
    · exact .inr new
  · rcases later.makings made making id known numbered with before | new
    · exact earlier.makings made making id before numbered
    · exact .inr new

theorem mono {larger : Room} (grown : Grown room world wider) (le : room.Le larger) :
    Grown larger world wider :=
  ⟨grown.le, fun cell frame name known => (grown.places cell frame name known).imp_right
    (le.cell frame name), fun made making id known numbered =>
      (grown.makings made making id known numbered).imp_right (le.function making.env id)⟩

theorem withMaking {making : Making} (allowed : ∀ id, making.id = some id →
    room.function making.env id) : Grown room world (world.withMaking making) := by
  refine ⟨world.le_withMaking making, fun _ _ _ known => .inl known,
    fun made found id known numbered => ?_⟩
  rcases World.getElem?_withMaking known with ⟨_, rfl⟩ | before
  · exact .inr (allowed id numbered)
  · exact .inl before

theorem withPlace {frame : Env} {name : String} (allowed : room.cell frame name) :
    Grown room world (world.withPlace (frame, name)) := by
  refine ⟨world.le_withPlace _, fun cell found word known => ?_, fun _ _ _ known _ => .inl known⟩
  rcases World.getElem?_withPlace known with ⟨_, same⟩ | before
  · obtain ⟨rfl, rfl⟩ := Prod.mk.inj same
    exact .inr allowed
  · exact .inl before

end Grown

/-! ## Agreement -/

/-- How a run goes on from a machine: in a world that has grown, with the
environment put back, in a state that simulates the new machine. -/
structure Advances (placed : Placing) (room : Room) (world : World) (before : Machine)
    (wider : World) (after : Machine) (reached : State) : Prop where
  grown : Grown room world wider
  env : after.env = before.env
  store : before.store.Extends after.store
  simulates : Simulates placed wider after reached

namespace Advances

variable {placed : Placing} {room : Room} {world wider last : World} {first second third : Machine}
  {state reached : State}

theorem refl (room : Room) (simulates : Simulates placed world first state) :
    Advances placed room world first world first state :=
  ⟨.refl room world, rfl, .refl _, simulates⟩

theorem trans (earlier : Advances placed room world first wider second state)
    (later : Advances placed room wider second last third reached) :
    Advances placed room world first last third reached :=
  ⟨earlier.grown.trans later.grown, later.env.trans earlier.env, earlier.store.trans later.store,
    later.simulates⟩

theorem widen {smaller : Room} (advances : Advances placed smaller world first wider second state)
    (le : smaller.Le room) : Advances placed room world first wider second state :=
  ⟨advances.grown.mono le, advances.env, advances.store, advances.simulates⟩

/-- The environment is put back. -/
theorem within {env : Env}
    (advances : Advances placed room world { first with env := env } wider second state) :
    Advances placed room world first wider { second with env := first.env } state :=
  ⟨advances.grown, rfl, advances.store, advances.simulates.withEnv _⟩

/-- A call is left. -/
theorem nested (advances :
      Advances placed room world { first with depth := first.depth + 1 } wider second state) :
    Advances placed room world first wider { second with depth := second.depth - 1 }
      { state with depth := state.depth - 1 } :=
  ⟨advances.grown, advances.env, advances.store,
    advances.simulates.withDepth (congrArg (· - 1) advances.simulates.depth)⟩

end Advances

/-- Two steps have ended in the same way. -/
def Agree {Result Twin : Type} (placed : Placing) (room : Room) (world : World) (before : Machine)
    (good : World → Store → Result → Twin → Prop) :
    EStateM.Result Interrupt Machine Result → EStateM.Result Interrupt State Twin → Prop
  | .ok result after, .ok twin reached =>
    ∃ wider, Advances placed room world before wider after reached ∧
      good wider after.store result twin
  | .error interrupt after, .error other reached =>
    interrupt = other ∧ ∃ wider, Advances placed room world before wider after reached
  | _, _ => False

namespace Agree

variable {placed : Placing} {room : Room} {world : World} {before : Machine} {state : State}
  {Result Twin Other OtherTwin : Type} {good : World → Store → Result → Twin → Prop}
  {final : World → Store → Other → OtherTwin → Prop}

theorem pure (simulates : Simulates placed world before state) {result : Result} {twin : Twin}
    (fine : good world before.store result twin) :
    Agree placed room world before good (.ok result before) (.ok twin state) :=
  ⟨world, .refl room simulates, fine⟩

theorem raiseAt (simulates : Simulates placed world before state) (line : Nat)
    (cause : RuntimeCause) :
    Agree placed room world before good (Eval.raiseAt line cause before)
      (Lexical.raiseAt line cause state) :=
  ⟨rfl, world, .refl room simulates⟩

/-- The two ways in which steps can have ended. -/
theorem cases {result : EStateM.Result Interrupt Machine Result}
    {twin : EStateM.Result Interrupt State Twin}
    (agree : Agree placed room world before good result twin) :
    (∃ value other wider after reached, result = .ok value after ∧ twin = .ok other reached ∧
      Advances placed room world before wider after reached ∧ good wider after.store value other) ∨
    ∃ interrupt wider after reached, result = .error interrupt after ∧
      twin = .error interrupt reached ∧ Advances placed room world before wider after reached := by
  cases result with
  | ok value after =>
      cases twin with
      | ok other reached =>
          obtain ⟨wider, advances, fine⟩ := agree
          exact .inl ⟨value, other, wider, after, reached, rfl, rfl, advances, fine⟩
      | error interrupt reached => exact agree.elim
  | error interrupt after =>
      cases twin with
      | ok other reached => exact agree.elim
      | error other reached =>
          obtain ⟨rfl, wider, advances⟩ := agree
          exact .inr ⟨interrupt, wider, after, reached, rfl, rfl, advances⟩

/-- Results that agree in a smaller room and in a sharper sense. -/
theorem mono {smaller : Room} {sharper : World → Store → Result → Twin → Prop}
    {result : EStateM.Result Interrupt Machine Result}
    {twin : EStateM.Result Interrupt State Twin}
    (agree : Agree placed smaller world before sharper result twin) (le : smaller.Le room)
    (weaker : ∀ wider after reached value other,
      Advances placed smaller world before wider after reached →
        sharper wider after.store value other → good wider after.store value other) :
    Agree placed room world before good result twin := by
  rcases agree.cases with ⟨value, other, wider, after, reached, rfl, rfl, advances, fine⟩ |
    ⟨interrupt, wider, after, reached, rfl, rfl, advances⟩
  · exact ⟨wider, advances.widen le, weaker wider after reached value other advances fine⟩
  · exact ⟨rfl, wider, advances.widen le⟩

/-- Steps that agree in a smaller room. -/
theorem widen {smaller : Room} {result : EStateM.Result Interrupt Machine Result}
    {twin : EStateM.Result Interrupt State Twin}
    (agree : Agree placed smaller world before good result twin) (le : smaller.Le room) :
    Agree placed room world before good result twin :=
  agree.mono le fun _ _ _ _ _ _ fine => fine

/-- What agrees behind a step that did so agrees altogether. -/
theorem since {wider : World} {middle : Machine} {reached : State}
    {result : EStateM.Result Interrupt Machine Result}
    {twin : EStateM.Result Interrupt State Twin}
    (advances : Advances placed room world before wider middle reached)
    (agree : Agree placed room wider middle good result twin) :
    Agree placed room world before good result twin := by
  rcases agree.cases with ⟨value, other, widest, after, last, rfl, rfl, later, fine⟩ |
    ⟨interrupt, widest, after, last, rfl, rfl, later⟩
  · exact ⟨widest, advances.trans later, fine⟩
  · exact ⟨rfl, widest, advances.trans later⟩

theorem bind {step : Eval Result} {twinStep : Run Twin} {next : Result → Eval Other}
    {twinNext : Twin → Run OtherTwin}
    (first : Agree placed room world before good (step before) (twinStep state))
    (second : ∀ result twin wider after reached,
      Advances placed room world before wider after reached → good wider after.store result twin →
        Agree placed room wider after final (next result after) (twinNext twin reached)) :
    Agree placed room world before final ((step >>= next) before)
      ((twinStep >>= twinNext) state) := by
  rcases first.cases with ⟨value, other, wider, after, reached, left, right, advances, fine⟩ |
    ⟨interrupt, wider, after, reached, left, right, advances⟩
  · simp only [Bind.bind, EStateM.bind, left, right]
    exact .since advances (second value other wider after reached advances fine)
  · simp only [Bind.bind, EStateM.bind, left, right]
    exact ⟨rfl, wider, advances⟩

/-- Results changed in step. -/
theorem map {step : Eval Result} {twinStep : Run Twin} (change : Result → Other)
    (twinChange : Twin → OtherTwin)
    (first : Agree placed room world before
      (fun wider store result twin => final wider store (change result) (twinChange twin))
      (step before) (twinStep state)) :
    Agree placed room world before final ((change <$> step) before)
      ((twinChange <$> twinStep) state) := by
  rcases first.cases with ⟨value, other, wider, after, reached, left, right, advances, fine⟩ |
    ⟨interrupt, wider, after, reached, left, right, advances⟩
  · simp only [Functor.map, EStateM.map, left, right]
    exact ⟨wider, advances, fine⟩
  · simp only [Functor.map, EStateM.map, left, right]
    exact ⟨rfl, wider, advances⟩

/-- A first step that only the machine takes. -/
theorem behind {step : Eval Other} {next : Other → Eval Result} {middle : Machine} {other : Other}
    {twin : EStateM.Result Interrupt State Twin} (ran : step before = .ok other middle)
    (agree : Agree placed room world before good (next other middle) twin) :
    Agree placed room world before good ((step >>= next) before) twin := by
  simp only [Bind.bind, EStateM.bind, ran]
  exact agree

/-- A first step that only the second interpreter takes. -/
theorem behindTwin {result : EStateM.Result Interrupt Machine Result} {step : Run OtherTwin}
    {next : OtherTwin → Run Twin} {middle : State} {other : OtherTwin}
    (ran : step state = .ok other middle)
    (agree : Agree placed room world before good result (next other middle)) :
    Agree placed room world before good result ((step >>= next) state) := by
  simp only [Bind.bind, EStateM.bind, ran]
  exact agree

/-- A result of the second interpreter that is only put together anew. -/
theorem mapTwin {result : EStateM.Result Interrupt Machine Result} {twinStep : Run Twin}
    (twinChange : Twin → OtherTwin) {changed : World → Store → Result → OtherTwin → Prop}
    (first : Agree placed room world before
      (fun wider store result twin => changed wider store result (twinChange twin))
      result (twinStep state)) :
    Agree placed room world before changed result
      ((twinStep >>= fun twin => Pure.pure (twinChange twin)) state) := by
  rcases first.cases with ⟨value, other, wider, after, reached, rfl, right, advances, fine⟩ |
    ⟨interrupt, wider, after, reached, rfl, right, advances⟩
  · simp only [Bind.bind, EStateM.bind, right]
    exact ⟨wider, advances, fine⟩
  · simp only [Bind.bind, EStateM.bind, right]
    exact ⟨rfl, wider, advances⟩

/-- The environment of the machine is put back behind a step. -/
theorem within {step : Eval Result} {twin : EStateM.Result Interrupt State Twin} {env : Env}
    (inner : Agree placed room world { before with env := env } good
      (step { before with env := env }) twin) :
    Agree placed room world before good (Eval.within env step before) twin := by
  rcases inner.cases with ⟨value, other, wider, after, reached, left, rfl, advances, fine⟩ |
    ⟨interrupt, wider, after, reached, left, rfl, advances⟩
  · simp only [Eval.within, left]
    exact ⟨wider, advances.within, fine⟩
  · simp only [Eval.within, left]
    exact ⟨rfl, wider, advances.within⟩

/-- A step one call deeper, on both sides. -/
theorem nested {step : Eval Result} {twinStep : Run Twin}
    (inner : Agree placed room world { before with depth := before.depth + 1 } good
      (step { before with depth := before.depth + 1 })
      (twinStep { state with depth := state.depth + 1 })) :
    Agree placed room world before good (Eval.nested step before)
      (Lexical.nested twinStep state) := by
  rcases inner.cases with ⟨value, other, wider, after, reached, left, right, advances, fine⟩ |
    ⟨interrupt, wider, after, reached, left, right, advances⟩
  · simp only [Eval.nested, Lexical.nested, left, right]
    exact ⟨wider, advances.nested, fine⟩
  · simp only [Eval.nested, Lexical.nested, left, right]
    exact ⟨rfl, wider, advances.nested⟩

end Agree

/-! ## Running, reading and standing somewhere -/

/-- A run goes on in new frames at least. -/
structure Running (placed : Placing) (room : Room) (world : World) (machine : Machine)
    (state : State) : Prop where
  simulates : Simulates placed world machine state
  isOpen : room.Open machine.store.frames.size

/-- An expression is evaluated in scopes that are mirrored. -/
structure Reading (placed : Placing) (room : Room) (world : World) (machine : Machine)
    (state : State) (enclosing : ClassKind) (scopes : Scopes) (scope : Scope) : Prop
    extends Running placed room world machine state where
  ready : scopes.Ready enclosing
  mirrors : Mirrors placed world machine.store scopes machine.env scope

section Advance

variable {placed : Placing} {room : Room} {world wider : World} {machine after : Machine}
  {state reached : State} {enclosing : ClassKind} {scopes : Scopes} {scope : Scope}

theorem Running.advance (running : Running placed room world machine state)
    (advances : Advances placed room world machine wider after reached) :
    Running placed room wider after reached :=
  ⟨advances.simulates, running.isOpen.mono advances.store.size⟩

theorem Reading.advance (reading : Reading placed room world machine state enclosing scopes scope)
    (advances : Advances placed room world machine wider after reached) :
    Reading placed room wider after reached enclosing scopes scope := by
  refine ⟨reading.toRunning.advance advances, reading.ready, ?_⟩
  rw [advances.env]
  exact reading.mirrors.mono advances.grown.le advances.store

/-- The frame at the distance of a name. -/
theorem Reading.ancestor? (reading : Reading placed room world machine state enclosing scopes scope)
    {name : String} {distance : Nat} (found : distance? name scopes = some distance) :
    ∃ frame, machine.store.ancestor? machine.env distance = some frame := by
  obtain ⟨_, inside, _⟩ := Scopes.exists_scope_of_distance? found
  obtain ⟨frame, reached, _⟩ := reading.mirrors.chain.ancestor inside
  exact ⟨frame, reached⟩

theorem Reading.readsIn (reading : Reading placed room world machine state enclosing scopes scope) :
    machine.ReadsIn enclosing scopes :=
  ⟨reading.ready, reading.mirrors.chain⟩

end Advance

/-! ## Names -/

/-- A value and its twin. -/
abbrev likeValue (placed : Placing) (world : World) (_ : Store) (value twin : Value) : Prop :=
  Like placed world value twin

/-- A step that gives nothing back. -/
abbrev likeDone (_ : World) (_ : Store) (_ _ : Unit) : Prop := True

section Names

variable {placed : Placing} {room : Room} {world : World} {machine : Machine} {state : State}
  {enclosing : ClassKind} {scopes : Scopes} {scope : Scope}

theorem agree_lookUp (reading : Reading placed room world machine state enclosing scopes scope)
    {occurrence : Occurrence} (named : occurrence.token.IsName)
    (readable : scopes.Readable occurrence.name)
    (here : placed occurrence.id (distance? occurrence.name scopes)) :
    Agree placed room world machine (likeValue placed) (Eval.lookUp occurrence machine)
      (lookUp scope occurrence state) := by
  have plain : Plain occurrence.name := plain_of_isName named
  have recorded := reading.simulates.table _ _ here
  cases found : distance? occurrence.name scopes with
  | some distance =>
      rw [found] at recorded
      obtain ⟨frame, value, reached, bound, _⟩ := reading.readsIn.frame
        (fun _ inside => reading.readsIn.defined readable inside) found
      obtain ⟨cell, known, place⟩ := reading.mirrors.names _ distance frame plain found reached
      obtain ⟨twin, content, like⟩ := reading.simulates.stored.cells cell frame _ value place bound
      simp only [Eval.lookUp, Machine.value, recorded, Store.getAt, Store.frameAt, reached, bound,
        lookUp, State.find?, known, content]
      exact .pure reading.simulates like
  | none =>
      rw [found] at recorded
      have missing := reading.mirrors.missing _ plain found
      simp only [Eval.lookUp, Machine.value, recorded, Store.get,
        Store.chain_of_root reading.simulates.global, List.findSome?_cons, List.findSome?_nil,
        lookUp, State.find?, missing]
      rcases (reading.simulates.stored.globals occurrence.name).cases with ⟨left, right⟩ |
        ⟨value, twin, left, right, like⟩
      · rw [left, right]
        exact .raiseAt reading.simulates _ _
      · rw [left, right]
        exact .pure reading.simulates like

theorem agree_lookUpThis (reading : Reading placed room world machine state enclosing scopes scope)
    {occurrence : Occurrence} (named : occurrence.name = "this") (inside : enclosing ≠ .outside)
    (here : placed occurrence.id (distance? occurrence.name scopes)) :
    Agree placed room world machine (likeValue placed) (Eval.lookUp occurrence machine)
      (lookUpThis scope occurrence state) := by
  rw [named] at here
  have recorded := reading.simulates.table _ _ here
  obtain ⟨distance, found⟩ := Option.isSome_iff_exists.mp (reading.ready.provides.this inside)
  rw [found] at recorded
  obtain ⟨frame, object, reached, bound⟩ := reading.readsIn.this found
  obtain ⟨other, twin, same, known, like⟩ := reading.mirrors.this distance frame found reached
  cases bound.symm.trans same
  simp only [Eval.lookUp, Machine.value, recorded, Store.getAt, Store.frameAt, reached, bound,
    lookUpThis, known, named]
  exact .pure reading.simulates like

/-- A name that is bound in a frame on both sides. -/
theorem agree_bound (running : Running placed room world machine state) {frame : Env}
    {scope : Scope} {name : String} (plain : Plain name) (targets : Targets world frame scope name)
    {value twin : Value} (like : Like placed world value twin) :
    Agree placed room world machine likeDone
      (.ok () { machine with store := machine.store.bindIn frame name value })
      (.ok () (state.define scope name twin)) :=
  ⟨world, ⟨.refl room world, rfl,
    (Store.Extends.refl _).bindIn (.inr ⟨plain.ne_this, plain.ne_super⟩) value,
    running.simulates.define plain targets like⟩, trivial⟩

theorem agree_assign (reading : Reading placed room world machine state enclosing scopes scope)
    {occurrence : Occurrence} (named : occurrence.token.IsName)
    (here : placed occurrence.id (distance? occurrence.name scopes)) {value twin : Value}
    (like : Like placed world value twin) :
    Agree placed room world machine likeDone (Eval.assign occurrence value machine)
      (assign scope occurrence twin state) := by
  have plain : Plain occurrence.name := plain_of_isName named
  have recorded := reading.simulates.table _ _ here
  cases found : distance? occurrence.name scopes with
  | some distance =>
      rw [found] at recorded
      obtain ⟨frame, reached⟩ := reading.ancestor? found
      obtain ⟨cell, known, place⟩ := reading.mirrors.names _ distance frame plain found reached
      have targets : Targets world frame scope occurrence.name := by
        simp only [Targets, known]
        exact place
      simp only [Eval.assign, Machine.target, recorded, Store.frameAt, reached, assign,
        Bindings.contains, known, Option.isSome_some, Bool.true_or, if_true]
      exact agree_bound reading.toRunning plain targets like
  | none =>
      rw [found] at recorded
      have missing := reading.mirrors.missing _ plain found
      have targets : Targets world Env.global scope occurrence.name := by
        simp only [Targets, missing]
      simp only [Eval.assign, Machine.target, recorded, Store.holder,
        Store.chain_of_root reading.simulates.global, List.find?_cons, List.find?_nil, assign,
        Bindings.contains, missing, Option.isSome_none, Bool.false_or]
      rcases (reading.simulates.stored.globals occurrence.name).cases with ⟨left, right⟩ |
        ⟨old, oldTwin, left, right, _⟩
      · rw [left, right]
        exact .raiseAt reading.simulates _ _
      · rw [left, right]
        exact agree_bound reading.toRunning plain targets like

end Names

/-! ## Methods and instances -/

section Methods

variable {placed : Placing} {room : Room} {world : World} {machine : Machine} {state : State}

/-- The environments of makings are in the store. -/
theorem Simulates.making_lt (simulates : Simulates placed world machine state) {made : Env}
    {making : Making} (known : world.makings[made]? = some making) :
    making.env < machine.store.frames.size :=
  (simulates.captured made making known).chain.lt simulates.inhabited

/-- A new making has the number of its scope. -/
theorem Simulates.getElem?_made (simulates : Simulates placed world machine state)
    (making : Making) (scope : Scope) :
    (world.withMaking making).makings[(state.capture scope).1]? = some making := by
  simp [World.withMaking, State.capture, ← simulates.madeCount]

/-- Nothing has been made in an environment that is not there yet. -/
theorem Simulates.unmade (simulates : Simulates placed world machine state) {env : Env}
    (new : machine.store.frames.size ≤ env) (ids : List Nat) : world.Unmade env ids :=
  fun _ _ _ known _ same =>
    absurd (same ▸ simulates.making_lt known) (Nat.not_lt.mpr new)

/-- A method is bound to an instance on both sides. -/
theorem agree_bindMethod (running : Running placed room world machine state)
    {method twin : Closure} (like : LikeMethod placed world method twin) {object other : Instance}
    (likeObject : Like placed world (.object object) (.object other)) :
    Agree placed room world machine
      (fun wider _ closure other => closure.declaration = method.declaration ∧
        LikeFunction placed wider closure other)
      (Eval.bindMethod method object machine) (bindMethod twin other state) := by
  obtain ⟨scopes, known, declared⟩ := like.made
  have simulates := running.simulates
  have new : machine.store.frames.size ≤ (machine.store.child method.env).1 := Nat.le_refl _
  have mirrors := (simulates.captured _ _ known).boundTo likeObject
  let making : Making :=
    ⟨(machine.store.child method.env).1, [("this", true)] :: scopes, some method.declaration.id⟩
  have bound := (simulates.reservedChild method.env not_plain_this (.object object)).capture
    making (fun _ _ => simulates.unmade new _) mirrors
  refine ⟨world.withMaking making, ⟨.withMaking fun id _ => (running.isOpen _ new).2 id, rfl,
    machine.store.extends_bindMethod method object, bound⟩, rfl, like.declaration,
    like.isInitializer,
    [("this", true)] :: scopes, ?_, declared, fun _ => rfl⟩
  exact simulates.getElem?_made making { state.scopeOf twin.env with this := some other }

theorem agree_boundMethod (running : Running placed room world machine state)
    {method twin : Closure} (like : LikeMethod placed world method twin) {object other : Instance}
    (likeObject : Like placed world (.object object) (.object other)) :
    Agree placed room world machine (likeValue placed)
      ((Value.function <$> Eval.bindMethod method object) machine)
      ((Value.function <$> bindMethod twin other) state) :=
  .map _ _ ((agree_bindMethod running like likeObject).mono (.refl room)
    fun _ _ _ _ _ _ alike => .function alike.2)

theorem agree_property (running : Running placed room world machine state) {object twin : Instance}
    (id : twin.id = object.id) (like : LikeClass placed world object.cls twin.cls) (name : Token) :
    Agree placed room world machine (likeValue placed) (Eval.property object name machine)
      (property twin name state) := by
  unfold Eval.property property
  rcases (running.simulates.stored.fields object twin name.lexeme id).cases with ⟨left, right⟩ |
    ⟨value, other, left, right, likeValue⟩
  · rw [left, right]
    rcases (like.methods name.lexeme).cases with ⟨left, right⟩ |
      ⟨method, other, left, right, likeMethod⟩
    · simp only [left, right]
      exact .raiseAt running.simulates _ _
    · simp only [left, right]
      exact agree_boundMethod running likeMethod (.object id like)
  · rw [left, right]
    exact .pure running.simulates likeValue

theorem agree_superMethod {enclosing : ClassKind} {scopes : Scopes} {scope : Scope}
    (reading : Reading placed room world machine state enclosing scopes scope)
    {occurrence : Occurrence} (named : occurrence.name = "super") (derived : enclosing = .derived)
    (here : placed occurrence.id (distance? occurrence.name scopes)) (method : Token) :
    Agree placed room world machine (likeValue placed) (Eval.superMethod occurrence method machine)
      (superMethod scope occurrence method state) := by
  subst derived
  rw [named] at here
  have recorded := reading.simulates.table _ _ here
  obtain ⟨inner, above, near⟩ := reading.ready.provides.super rfl
  obtain ⟨frame, reached⟩ := reading.ancestor? above
  obtain ⟨below, lower⟩ := reading.ancestor? near
  obtain ⟨parent, parentTwin, bound, known, likeParent⟩ :=
    reading.mirrors.super _ frame above reached
  obtain ⟨object, twin, found, present, likeObject⟩ := reading.mirrors.this _ below near lower
  rw [above] at recorded
  have binding : machine.superBinding? occurrence = some (parent, object) := by
    simp only [Machine.superBinding?, recorded, Store.implicitAt?, reached, lower, bound, found]
  simp only [Eval.superMethod, binding, superMethod, known, present]
  cases likeParent with
  | cls like =>
      rcases (like.methods method.lexeme).cases with ⟨left, right⟩ |
        ⟨first, second, left, right, likeMethod⟩
      · simp only [left, right]
        exact .raiseAt reading.simulates _ _
      · simp only [left, right]
        exact agree_boundMethod reading.toRunning likeMethod likeObject

/-- A field is set on both sides. -/
theorem agree_setField (running : Running placed room world machine state) {object twin : Instance}
    (id : twin.id = object.id) (name : String) {value other : Value}
    (like : Like placed world value other) :
    Agree placed room world machine likeDone (Eval.setField object name value machine)
      (setField twin name other state) :=
  ⟨world, ⟨.refl room world, rfl, .of_frames (by rfl), running.simulates.setField id name like⟩,
    trivial⟩

/-- A new instance on both sides. -/
theorem agree_newInstance (running : Running placed room world machine state) {cls twin : Class}
    (like : LikeClass placed world cls twin) :
    Agree placed room world machine
      (fun wider _ object other => Like placed wider (.object object) (.object other))
      (Eval.newInstance cls machine) (newInstance twin state) :=
  ⟨world, ⟨.refl room world, rfl, .of_frames (by rfl), running.simulates.newInstance⟩,
    .object running.simulates.stored.fieldCount.symm like⟩

end Methods

/-! ## Calls and the outside world -/

/-- Two ends of a statement. -/
inductive LikeFlow (placed : Placing) (world : World) : Flow → Flow → Prop where
  | normal : LikeFlow placed world .normal .normal
  | returned {value twin : Value} (like : Like placed world value twin) :
      LikeFlow placed world (.returned value) (.returned twin)

section Outside

variable {placed : Placing} {room : Room} {world : World} {machine : Machine} {state : State}

theorem agree_lift (running : Running placed room world machine state) (token : Token)
    {result twin : Except RuntimeCause Value} (like : LikeResult placed world result twin) :
    Agree placed room world machine (likeValue placed) (Eval.lift token result machine)
      (lift token twin state) := by
  obtain ⟨rfl, fine⟩ := like
  cases twin with
  | ok value => exact .pure running.simulates (fine value rfl)
  | error cause => exact .raiseAt running.simulates _ _

/-- What a call gives back. An initializer gives the instance that its scope
has as `this`. -/
theorem agree_callResult (running : Running placed room world machine state)
    {closure twin : Closure} (like : LikeFunction placed world closure twin) {flow other : Flow}
    (likeFlow : LikeFlow placed world flow other) :
    Agree placed room world machine (likeValue placed) (Eval.callResult closure flow machine)
      (callResult twin other state) := by
  unfold Eval.callResult callResult
  rw [like.isInitializer]
  cases initializer : closure.isInitializer with
  | true =>
      obtain ⟨scopes, known, _, head⟩ := like.made
      have near : distance? "this" scopes = some 0 := by
        obtain ⟨outer, rfl⟩ := List.head?_eq_some_iff.mp (head initializer)
        rw [Scopes.distance?_cons]
        rfl
      obtain ⟨object, instance_, found, present, alike⟩ :=
        (running.simulates.captured _ _ known).this 0 closure.env near rfl
      refine ⟨world, .refl room running.simulates, ?_⟩
      simp only [Store.implicitAt?, Store.ancestor?, found, present]
      exact alike
  | false =>
      cases likeFlow with
      | normal => exact .pure running.simulates .nil
      | returned like => exact .pure running.simulates like

theorem agree_printLine (running : Running placed room world machine state) (text : String) :
    Agree placed room world machine likeDone (Eval.printLine text machine)
      (printLine text state) := by
  simp only [Eval.printLine, printLine, running.simulates.output]
  split
  · exact ⟨world, ⟨.refl room world, rfl, .refl _, running.simulates.withOutput _⟩, trivial⟩
  · exact ⟨rfl, world, ⟨.refl room world, rfl, .refl _, running.simulates.withOutput _⟩⟩

theorem agree_flush (running : Running placed room world machine state) :
    Agree placed room world machine likeDone (Eval.flush machine) (flush state) := by
  unfold Eval.flush flush
  rw [running.simulates.output]
  split
  · exact .pure running.simulates trivial
  · exact ⟨rfl, world, .refl room running.simulates⟩

theorem agree_checkDepth (running : Running placed room world machine state) (paren : Token) :
    Agree placed room world machine likeDone (Eval.checkDepth paren machine)
      (checkDepth paren state) := by
  unfold Eval.checkDepth checkDepth
  rw [running.simulates.depth]
  split
  · exact .raiseAt running.simulates _ _
  · exact .pure running.simulates trivial

theorem agree_readClock (running : Running placed room world machine state) :
    Agree placed room world machine (likeValue placed) ((Value.number <$> Eval.readClock) machine)
      ((Value.number <$> readClock) state) := by
  refine .map _ _ ⟨world, ⟨.refl room world, rfl, .refl _, ?_⟩, ?_⟩
  · simp only [running.simulates.readings]
    exact running.simulates.withReadings _
  · simp only [running.simulates.readings, running.simulates.clock]
    exact .number _

end Outside

end LoxLang.Lexical
