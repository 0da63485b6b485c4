import LoxLang.Proofs.LexicalScoping
import LoxLang.Proofs.Session.Settled

/-!
# From source to source

A session goes on with the machine that its sources have left, and so does the
second interpreter. Between two sources the distances of the next one come in,
which leaves all earlier trees placed as they were (`Placing.Le`), and numbers are
drawn that no function in the store has. Functions with other numbers need not
be told apart any more, so their numbers are forgotten (`World.forget`). After
any sources a session is therefore simulated by a state (`Session.Simulated`), and
the next one starts in the global scope of it (`Simulated.starts`).
-/

namespace LoxLang

set_option autoImplicit false

open Resolution

namespace Lexical

/-! ## Old numbers -/

/-- The making without its number, if that is not below a bound. -/
def Making.forget (bound : Nat) (making : Making) : Making :=
  { making with id := making.id.filter (· < bound) }

/-- The world with the numbers below a bound. -/
def World.forget (world : World) (bound : Nat) : World :=
  { world with makings := world.makings.map (Making.forget bound) }

theorem Making.id_forget {bound id : Nat} {making : Making}
    (numbered : (making.forget bound).id = some id) : making.id = some id ∧ id < bound := by
  obtain ⟨here, below⟩ := Option.filter_eq_some_iff.mp numbered
  exact ⟨here, of_decide_eq_true below⟩

namespace World

variable {world : World} {bound : Nat} {made : Env}

theorem exists_of_forget {making : Making}
    (known : (world.forget bound).makings[made]? = some making) :
    ∃ whole, world.makings[made]? = some whole ∧ making = whole.forget bound := by
  simp only [forget, Array.getElem?_map] at known
  obtain ⟨whole, here, rfl⟩ := Option.map_eq_some_iff.mp known
  exact ⟨whole, here, rfl⟩

theorem getElem?_forget {making : Making} (known : world.makings[made]? = some making)
    (old : ∀ id, making.id = some id → id < bound) :
    (world.forget bound).makings[made]? = some making := by
  have same : making.forget bound = making := by
    obtain ⟨env, scopes, id⟩ := making
    cases id with
    | none => rfl
    | some id => simp [Making.forget, old id rfl]
  simp only [forget, Array.getElem?_map, known, Option.map_some, same]

theorem Distinct.forget (distinct : world.Distinct) (bound : Nat) :
    (world.forget bound).Distinct := by
  refine ⟨distinct.places, fun made other making found id known there numbered same env => ?_⟩
  obtain ⟨_, before, rfl⟩ := exists_of_forget known
  obtain ⟨_, earlier, rfl⟩ := exists_of_forget there
  exact distinct.makings made other _ _ id before earlier (Making.id_forget numbered).1
    (Making.id_forget same).1 env

/-- Numbers that are drawn later have no function. -/
theorem unmade_forget (world : World) {ids : List Nat} (new : ∀ id ∈ ids, bound ≤ id) (env : Env) :
    (world.forget bound).Unmade env ids := by
  intro made making id known numbered _ member
  obtain ⟨_, _, rfl⟩ := exists_of_forget known
  exact absurd (Making.id_forget numbered).2 (Nat.not_lt.mpr (new id member))

end World

/-! ## More distances -/

section Continued

variable {placed finer : Placing} {world : World} {bound : Nat}

theorem Declared.mono (le : placed.Le finer) {scopes : Scopes} {declaration : FunctionDecl}
    (declared : Declared placed scopes declaration) : Declared finer scopes declaration := by
  obtain ⟨around, settled, wellFormed, numbers, inside⟩ := declared
  exact ⟨around, settled, wellFormed, numbers, declaration.scoped_mono le _ _ inside⟩

theorem LikeMethod.continued (le : placed.Le finer) {closure twin : Closure}
    (like : LikeMethod placed world closure twin) :
    LikeMethod finer (world.forget bound) closure twin := by
  obtain ⟨scopes, known, declared⟩ := like.made
  refine ⟨like.declaration, like.isInitializer, scopes, World.getElem?_forget known ?_,
    declared.mono le⟩
  intro id same
  cases same

theorem LikeClass.continued (le : placed.Le finer) {cls twin : Class}
    (like : LikeClass placed world cls twin) : LikeClass finer (world.forget bound) cls twin :=
  ⟨like.id, like.name, fun name => (like.methods name).mono fun _ _ => LikeMethod.continued le⟩

/-- Of a value, only the number of a function can be one that is forgotten. -/
theorem Like.continued (le : placed.Le finer) {value twin : Value}
    (like : Like placed world value twin)
    (old : ∀ closure, value = .function closure → closure.declaration.id < bound) :
    Like finer (world.forget bound) value twin := by
  cases like with
  | nil | bool | number | string | native => constructor
  | function like =>
      obtain ⟨scopes, known, declared, bound⟩ := like.made
      refine .function ⟨like.declaration, like.isInitializer, scopes, ?_, declared.mono le, bound⟩
      refine World.getElem?_forget known fun id same => ?_
      cases same
      exact old _ rfl
  | cls like => exact .cls (like.continued le)
  | object id like => exact .object id (like.continued le)

theorem Both.continued (le : placed.Le finer) {found twin : Option Value}
    (both : Both (Like placed world) found twin)
    (old : ∀ closure, found = some (.function closure) → closure.declaration.id < bound) :
    Both (Like finer (world.forget bound)) found twin := by
  rcases both.cases with ⟨rfl, rfl⟩ | ⟨value, other, rfl, rfl, like⟩
  · trivial
  · exact like.continued le fun closure same => old closure (congrArg some same)

theorem Mirrors.continued (le : placed.Le finer) {store : Store} {scopes : Scopes} {env : Env}
    {scope : Scope} (mirrors : Mirrors placed world store scopes env scope) :
    Mirrors finer (world.forget bound) store scopes env scope where
  chain := mirrors.chain
  missing := mirrors.missing
  names := mirrors.names
  this distance frame found reached := by
    obtain ⟨object, twin, held, here, like⟩ := mirrors.this distance frame found reached
    exact ⟨object, twin, held, here, like.continued le fun _ same => by cases same⟩
  super distance frame found reached := by
    obtain ⟨parent, twin, held, here, like⟩ := mirrors.super distance frame found reached
    exact ⟨parent, twin, held, here, like.continued le fun _ same => by cases same⟩

/-- The numbers of all functions in a store are below a bound. -/
structure OldFunctions (store : Store) (bound : Nat) : Prop where
  frames : ∀ frame name closure, store.findIn? frame name = some (.function closure) →
    closure.declaration.id < bound
  fields : ∀ object name closure, store.field? object name = some (.function closure) →
    closure.declaration.id < bound

/-- A value that a relabelling of later numbers leaves alone. -/
theorem id_lt_of_relabel {closure : Closure}
    (same : (Value.function closure).relabel (.moveIds bound 1) = .function closure) :
    closure.declaration.id < bound := by
  have kept : (closure.declaration.relabel (.moveIds bound 1)).id = closure.declaration.id := by
    rw [Value.relabel, Value.function.injEq] at same
    exact congrArg (fun closure => closure.declaration.id) same
  rw [FunctionDecl.id_relabel] at kept
  simp only [Relabelling.moveIds] at kept
  split at kept
  next below => exact below
  next => omega

theorem oldFunctions_of_settled {machine : Machine} (settled : machine.Settled bound) :
    OldFunctions machine.store bound := by
  have same := settled.store _ (Relabelling.keepsBelow_moveIds bound 1)
  constructor
  · intro frame name closure found
    have moved := Store.findIn?_relabel (Relabelling.moveIds bound 1) machine.store frame name
    rw [same, found] at moved
    exact id_lt_of_relabel (Option.some.inj moved).symm
  · intro object name closure found
    have moved := Store.field?_relabel (Relabelling.moveIds bound 1) machine.store object name
    -- a field is found by the number of the instance, which has not changed
    have here : machine.store.field? (object.relabel (.moveIds bound 1)) name =
        some (.function closure) := found
    rw [same, here, found] at moved
    exact id_lt_of_relabel (Option.some.inj moved).symm

theorem Stored.continued (le : placed.Le finer) {store : Store} {state : State}
    (stored : Stored placed world store state) (old : OldFunctions store bound) :
    Stored finer (world.forget bound) store state where
  globals name := (stored.globals name).continued le (old.frames _ name)
  cellCount := stored.cellCount
  cells cell frame name value known found := by
    obtain ⟨twin, here, like⟩ := stored.cells cell frame name value known found
    refine ⟨twin, here, like.continued le ?_⟩
    rintro closure rfl
    exact old.frames frame name closure found
  inside := stored.inside
  known := stored.known
  fieldCount := stored.fieldCount
  fields object twin name same := (stored.fields object twin name same).continued le
    (old.fields object name)
  classCount := stored.classCount

/-- **The next source.** A state that simulates a machine does so with more
distances in the table, if old trees keep theirs. -/
theorem Simulates.continued (le : placed.Le finer) {machine : Machine} {state : State}
    (simulates : Simulates placed world machine state) (old : OldFunctions machine.store bound)
    {table : DistanceTable} (finds : ∀ id distance, finer id distance → table.find? id = distance) :
    Simulates finer (world.forget bound) { machine with distances := table } state where
  table := finds
  global := simulates.global
  inhabited := simulates.inhabited
  stored := simulates.stored.continued le old
  madeCount := by
    rw [← simulates.madeCount]
    exact Array.size_map
  captured made making known := by
    obtain ⟨whole, before, rfl⟩ := World.exists_of_forget known
    exact (simulates.captured made whole before).continued le
  distinct := simulates.distinct.forget bound
  depth := simulates.depth
  output := simulates.output
  clock := simulates.clock
  readings := simulates.readings

end Continued

end Lexical

/-! ## Sessions -/

namespace Session

open Lexical

variable {session next : Session} {source : String} {distances : List (Nat × Nat)}

/-- Some state simulates the machine of a session. -/
def Simulated (session : Session) : Prop :=
  ∃ world state, Simulates (session.machine.distances.placing session.nextId) world
    session.machine state

theorem simulated_start (output errors : Sink) (clock : Nat → Float) :
    (start output errors clock).Simulated :=
  ⟨.empty, .initial output clock, simulates_prepared output errors clock [] _⟩

/-- A session that only draws numbers stays simulated. -/
theorem Simulated.of_machine (simulated : session.Simulated) (settled : session.Settled)
    (machine : next.machine = session.machine) (nextId : session.nextId ≤ next.nextId) :
    next.Simulated := by
  obtain ⟨world, state, simulates⟩ := simulated
  rw [Simulated, machine]
  refine ⟨world.forget session.nextId, state, simulates.continued (fun id distance placed => ?_)
    (oldFunctions_of_settled settled) fun _ _ placed => placed.2⟩
  exact ⟨Nat.lt_of_lt_of_le placed.1 nextId, placed.2⟩

/-- **A source starts in the global scope** of a state that simulates the session,
and none of its functions is made yet. -/
theorem Simulated.starts (simulated : session.Simulated) (settled : session.Settled)
    (sound : session.Sound) (runnable : session.Runnable source distances) :
    ∃ world state,
      Standing ((session.prepared distances).distances.placing (session.read source).2.nextId)
        world (session.prepared distances) state .outside [] .global ∧
      world.Unmade (session.prepared distances).env (Stmt.numbersAll (session.read source).1) := by
  obtain ⟨world, state, simulates⟩ := simulated
  have continued : Simulates _ _ (session.prepared distances) state :=
    simulates.continued runnable.le_placing (oldFunctions_of_settled settled)
      fun _ _ placed => placed.2
  exact ⟨world.forget session.nextId, state, continued.standing sound.env,
    world.unmade_forget (fun id member => (runnable.numbered.range id member).1) _⟩

theorem simulated_run {fuel : Nat} (simulated : session.Simulated) (settled : session.Settled)
    (sound : session.Sound) (ran : session.run fuel source = some next) : next.Simulated := by
  rcases run_cases ran with ⟨faults, rfl⟩ | ⟨distances, runnable, executed⟩
  · refine simulated.of_machine settled (by rw [machine_reportAll, machine_read]) ?_
    rw [nextId_reportAll]
    exact session.nextId_le_read source
  · obtain ⟨machine, nextId⟩ := machine_execute executed
    rw [prepared_read] at machine
    obtain ⟨world, state, standing, unmade⟩ := simulated.starts settled sound runnable
    have agree := agree_program fuel standing runnable.wellFormed (runnable.inside sound.unplaced)
      runnable.numbered.nodup unmade
    have restored := Eval.restores_program fuel (session.read source).1
      (session.prepared distances)
    rw [Simulated, machine, nextId, restored.distances]
    rcases agree.cases with ⟨_, _, wider, after, reached, left, _, advances, _⟩ |
      ⟨_, wider, after, reached, left, _, advances⟩
    · rw [left]
      exact ⟨wider, reached, advances.simulates⟩
    · rw [left]
      exact ⟨wider, reached, advances.simulates⟩

/-- **Every session is simulated**, whatever its sources were. -/
theorem simulated_reaches {output errors : Sink} {clock : Nat → Float}
    (reached : (start output errors clock).Reaches session) : session.Simulated := by
  induction reached with
  | start => exact simulated_start output errors clock
  | run earlier fuel source ran ih =>
      exact simulated_run ih (settled_reaches earlier (settled_start output errors clock))
        (sound_reaches earlier (sound_start output errors clock)) ran
  | reset _ ih => exact ih

end Session

end LoxLang
