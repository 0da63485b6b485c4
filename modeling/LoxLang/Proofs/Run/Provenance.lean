import LoxLang.Proofs.Run.StoredValues
import LoxLang.Proofs.Run.Moments
import LoxLang.Proofs.Scope.ClassWords

/-!
# Where classes, bound methods and calls come from

The frames that `this` and `super` are read from are made at three times: when
a class statement is executed (`Declaration`), when a method is taken from its
class and bound to an instance (`BoundMethod`), and when the bound method is
called (`Activation`). Each of these happens at a moment of the run, and a
moment is named here by the machine it begins in.

What a run has in its hands can be traced back to these moments. A class was
made by a class statement, and so were all its ancestors (`Class.Made`). A
function is a bound method, or it was declared in the course of an activation,
some blocks and functions inside the body of the method (`Closure.Traced`). In
a store that is traced, every value is (`Store.Traced`).

The moments that count are those on record (`Chronicle`). They may belong to
several runs, one behind the other, as long as the frames made by one are still
there in the next.
-/

namespace LoxLang

set_option autoImplicit false

/-! ## Class statements -/

namespace Declaration

/-- The environment that the methods close over. With a superclass it is a new
one, whose frame holds the superclass. -/
def env (declared : Declaration) : Env :=
  match declared.parent with
  | none => declared.ready.env
  | some _ => declared.ready.store.frames.size

/-- The methods that the class declares itself. -/
def own (declared : Declaration) : MethodTable := Eval.methodTable declared.env declared.methods

/-- The class that the statement makes. -/
def cls (declared : Declaration) : Class :=
  (declared.ready.store.newClass declared.name.lexeme declared.parent declared.own).1

/-- A method is looked for in the class itself and then in its superclass. -/
theorem findMethod?_cls (declared : Declaration) (name : String) :
    declared.cls.findMethod? name =
      (declared.own.find? name).or
        (declared.parent.bind fun parent => parent.findMethod? name) := by
  unfold cls Store.newClass Class.findMethod?
  rw [List.findSome?_cons]
  cases declared.own.find? name with
  | some method => rfl
  | none => cases declared.parent <;> rfl

end Declaration

/-- The search for a method: a class that has it itself gives it, and every
other class leaves the search to the class that its superclass stood for. -/
inductive Class.Finds (seen : Moment → Prop) (name : String) : Class → Option Closure → Prop where
  | own {declared : Declaration} {method : Closure} (happened : declared.Happened seen)
      (here : declared.own.find? name = some method) : Finds seen name declared.cls (some method)
  | inherited {declared : Declaration} {parent : Class} {result : Option Closure}
      (happened : declared.Happened seen) (missing : declared.own.find? name = none)
      (above : declared.parent = some parent) (further : Finds seen name parent result) :
      Finds seen name declared.cls result
  | nowhere {declared : Declaration} (happened : declared.Happened seen)
      (missing : declared.own.find? name = none) (top : declared.parent = none) :
      Finds seen name declared.cls none

/-! ## Bound methods -/

/-- A method of a class that is bound to an instance in a store. -/
structure BoundMethod where
  declared : Declaration
  method : Closure
  object : Instance
  store : Store

namespace BoundMethod

/-- The bound method as a function. -/
def closure (bound : BoundMethod) : Closure := (bound.store.bindMethod bound.method bound.object).1

/-- The store with the frame that holds the instance. -/
def after (bound : BoundMethod) : Store := (bound.store.bindMethod bound.method bound.object).2

/-- The method is one that the class statement gave to its class, and it was
bound at one of the places for that. -/
structure Happened (seen : Moment → Prop) (bound : BoundMethod) : Prop where
  declared : bound.declared.Happened seen
  own : ∃ name, bound.declared.own.find? name = some bound.method
  binding : Binding seen bound.method bound.object bound.store

theorem Happened.mono {seen more : Moment → Prop} {bound : BoundMethod}
    (happened : bound.Happened seen) (le : ∀ moment, seen moment → more moment) :
    bound.Happened more :=
  ⟨happened.declared.mono le, happened.own, happened.binding.mono le⟩

end BoundMethod

/-! ## Activations -/

/-- A call of a bound method. -/
structure Activation extends BoundMethod where
  fuel : Nat
  values : List Value
  machine : Machine

namespace Activation

/-- The moment at which the call is begun. -/
def moment (activation : Activation) : Moment :=
  ⟨activation.fuel + 1, .applyClosure activation.closure activation.values, activation.machine⟩

/-- The frame that the call makes for its parameters and local variables. -/
def frame (activation : Activation) : Env := activation.machine.store.frames.size

/-- The store at the start of the body. -/
def opened (activation : Activation) : Store :=
  (activation.machine.inBody activation.closure activation.values).store

/-- The uses of names that belong to the method: those in its body, at any
depth of blocks and functions, but not in the methods of further classes. -/
def uses (activation : Activation) : List PlacedUse :=
  Stmt.ownUsesAll 0 activation.method.declaration.body

/-- The method was bound and then called. -/
structure Happened (seen : Moment → Prop) (activation : Activation) : Prop where
  bound : activation.toBoundMethod.Happened seen
  begun : seen activation.moment
  kept : activation.after.Extends activation.machine.store

theorem Happened.mono {seen more : Moment → Prop} {activation : Activation}
    (happened : activation.Happened seen) (le : ∀ moment, seen moment → more moment) :
    activation.Happened more :=
  ⟨happened.bound.mono le, le _ happened.begun, happened.kept⟩

/-- A use of a name belongs to the method, and the environment at hand is as
many frames inside the activation as the use has blocks and functions around
it. -/
def Encloses (activation : Activation) (machine : Machine) (use : Use) : Prop :=
  activation.opened.Extends machine.store ∧ ∃ depth, ⟨depth, use⟩ ∈ activation.uses ∧
    machine.store.ancestor? machine.env depth = some activation.frame

end Activation

/-! ## The record -/

/-- How numbers are placed, and the moments on record. With a moment, the tasks
it begins are on record too. -/
structure Chronicle where
  placed : Placing
  seen : Moment → Prop
  begun : ∀ {moment next : Moment}, seen moment → Begins moment next → seen next

/-- A record that has been continued. -/
structure Chronicle.Le (record further : Chronicle) : Prop where
  placed : record.placed.Le further.placed
  seen : ∀ moment, record.seen moment → further.seen moment

theorem Chronicle.Le.refl (record : Chronicle) : record.Le record :=
  ⟨.refl _, fun _ here => here⟩

/-- The superclass is still held where the methods find it, and the words of the
class are placed by their depth. -/
structure Declaration.Stands (record : Chronicle) (store : Store) (declared : Declaration) :
    Prop where
  happened : declared.Happened record.seen
  words : ∀ method ∈ declared.methods, method.WordsPlaced record.placed declared.superclass
  super : ∀ parent, declared.parent = some parent →
    store.findIn? declared.env "super" = some (.cls parent)

/-- The instance is still held where the function finds it. -/
structure BoundMethod.Stands (record : Chronicle) (store : Store) (bound : BoundMethod) :
    Prop where
  happened : bound.Happened record.seen
  above : bound.declared.Stands record store
  kept : bound.after.Extends store

/-- The frame of the call is still there. -/
structure Activation.Stands (record : Chronicle) (store : Store) (activation : Activation) :
    Prop where
  happened : activation.Happened record.seen
  above : activation.declared.Stands record store
  opened : activation.opened.Extends store

/-- Every use of `this` or `super` in a list is enclosed by an activation, seen
from an environment. -/
def Covers (record : Chronicle) (store : Store) (env : Env) (uses : List PlacedUse) : Prop :=
  ∀ found ∈ uses, found.use.IsWord → ∃ (activation : Activation) (depth : Nat),
    activation.Stands record store ∧ store.ancestor? env depth = some activation.frame ∧
      ⟨depth + found.depth, found.use⟩ ∈ activation.uses

/-! ## Values that are traced -/

section Traced

variable (record : Chronicle) (store : Store)

/-- A class was made by a class statement, and so were its ancestors. -/
inductive Class.Made : Class → Prop where
  | intro {declared : Declaration} (stands : declared.Stands record store)
      (above : ∀ parent, declared.parent = some parent → Made parent) : Made declared.cls

/-- A function is declared inside the activations that it needs and is no
initializer, or it is a bound method. -/
def Closure.Traced (closure : Closure) : Prop :=
  closure.isInitializer = false ∧
      Covers record store closure.env (closure.declaration.ownUses 0) ∨
    ∃ bound : BoundMethod, bound.Stands record store ∧ bound.closure = closure

/-- A value is traced if what can be called in it is. -/
def Value.Traced : Value → Prop
  | .function closure => closure.Traced record store
  | .cls found => found.Made record store
  | .object found => found.cls.Made record store
  | _ => True

/-- The same for something to call. -/
def Callable.Traced : Callable → Prop
  | .native _ => True
  | .function closure => closure.Traced record store
  | .cls found => found.Made record store

/-- The same for every value of a list. -/
def Value.AllTraced (values : List Value) : Prop := ∀ value ∈ values, value.Traced record store

/-- Every value in the store is traced. -/
abbrev Store.Traced : Prop := store.Every (Value.Traced record store)

end Traced

theorem Value.IsPlain.traced {record : Chronicle} {store : Store} {value : Value}
    (plain : value.IsPlain) : value.Traced record store := by
  cases value <;> trivial

theorem Value.Traced.callable {record : Chronicle} {store : Store} {value : Value}
    (traced : value.Traced record store) {callable : Callable}
    (found : value.callable? = some callable) : callable.Traced record store := by
  cases value <;> cases found <;> exact traced

/-! ## Later stores and longer records -/

section Monotone

variable {record further : Chronicle} {before after : Store}

theorem Declaration.Stands.mono {declared : Declaration} (stands : declared.Stands record before)
    (le : record.Le further) (extended : before.Extends after) :
    declared.Stands further after where
  happened := stands.happened.mono le.seen
  words method member := (stands.words method member).mono le.placed
  super parent same := by
    have bound := stands.super parent same
    rw [extended.super _ (Store.lt_of_findIn? bound), bound]

theorem BoundMethod.Stands.mono {bound : BoundMethod} (stands : bound.Stands record before)
    (le : record.Le further) (extended : before.Extends after) : bound.Stands further after where
  happened := stands.happened.mono le.seen
  above := stands.above.mono le extended
  kept := stands.kept.trans extended

theorem Activation.Stands.mono {activation : Activation}
    (stands : activation.Stands record before) (le : record.Le further)
    (extended : before.Extends after) : activation.Stands further after where
  happened := stands.happened.mono le.seen
  above := stands.above.mono le extended
  opened := stands.opened.trans extended

theorem Covers.mono {env : Env} {uses : List PlacedUse} (covers : Covers record before env uses)
    (le : record.Le further) (extended : before.Extends after) :
    Covers further after env uses := by
  intro found member word
  obtain ⟨activation, depth, stands, reached, belongs⟩ := covers found member word
  exact ⟨activation, depth, stands.mono le extended,
    extended.toGrows.ancestor? reached, belongs⟩

theorem Class.Made.mono {cls : Class} (made : cls.Made record before) (le : record.Le further)
    (extended : before.Extends after) : cls.Made further after := by
  induction made with
  | intro stands _ ih => exact .intro (stands.mono le extended) ih

theorem Closure.Traced.mono {closure : Closure} (traced : closure.Traced record before)
    (le : record.Le further) (extended : before.Extends after) :
    closure.Traced further after := by
  rcases traced with ⟨plain, covers⟩ | ⟨bound, stands, same⟩
  · exact .inl ⟨plain, covers.mono le extended⟩
  · exact .inr ⟨bound, stands.mono le extended, same⟩

theorem Value.Traced.mono {value : Value} (traced : value.Traced record before)
    (le : record.Le further) (extended : before.Extends after) : value.Traced further after := by
  cases value with
  | function closure => exact Closure.Traced.mono traced le extended
  | cls cls | object object => exact Class.Made.mono traced le extended
  | _ => trivial

theorem Value.Traced.later {value : Value} (traced : value.Traced record before)
    (extended : before.Extends after) : value.Traced record after :=
  traced.mono (.refl record) extended

/-- A store stays traced as the record goes on. -/
theorem Store.Traced.mono {store : Store} (traced : store.Traced record)
    (le : record.Le further) : store.Traced further :=
  Every.mono traced fun _ tracedValue => tracedValue.mono le (.refl store)

end Monotone

/-! ## Uses seen from an environment -/

namespace Covers

variable {record : Chronicle} {store : Store} {env : Env} {uses : List PlacedUse}

theorem of_subset {more : List PlacedUse} (covers : Covers record store env more)
    (subset : uses ⊆ more) : Covers record store env uses :=
  fun found member => covers found (subset member)

/-- Without `this` and `super` there is nothing to cover. -/
theorem of_noWords (plain : ∀ found ∈ uses, ¬ found.use.IsWord) : Covers record store env uses :=
  fun found member word => absurd word (plain found member)

/-- Seen from a frame further inside, the uses are one less deep. -/
theorem inside {after : Store} {inner : Env}
    (covers : Covers record store env (uses.map PlacedUse.deeper))
    (extended : store.Extends after) (link : after.enclosing? inner = some env) :
    Covers record after inner uses := by
  intro found member word
  obtain ⟨activation, depth, stands, reached, belongs⟩ :=
    covers found.deeper (List.mem_map_of_mem member) word
  refine ⟨activation, depth + 1, stands.mono (.refl record) extended, ?_, ?_⟩
  · rw [Store.ancestor?, link]
    exact extended.toGrows.ancestor? reached
  · rwa [Nat.add_assoc, Nat.add_comm 1]

end Covers

/-! ## Methods of a class that is traced -/

namespace Class.Made

variable {record : Chronicle} {store : Store} {cls : Class}

/-- Every method that can be found was given to a class by its statement. -/
theorem findMethod? (made : cls.Made record store) {name : String} {method : Closure}
    (found : cls.findMethod? name = some method) :
    ∃ declared : Declaration, declared.Stands record store ∧
      declared.own.find? name = some method := by
  induction made with
  | @intro declared stands above ih =>
      rw [declared.findMethod?_cls] at found
      cases here : declared.own.find? name with
      | some first =>
          rw [here] at found
          cases found
          exact ⟨declared, stands, here⟩
      | none =>
          rw [here, Option.none_or] at found
          obtain ⟨parent, same, further⟩ := Option.bind_eq_some_iff.mp found
          exact ih parent same further

/-- What is found is what the search along the superclasses gives. -/
theorem finds (made : cls.Made record store) (name : String) :
    Class.Finds record.seen name cls (cls.findMethod? name) := by
  induction made with
  | @intro declared stands above ih =>
      rw [declared.findMethod?_cls]
      cases here : declared.own.find? name with
      | some method => exact .own stands.happened here
      | none =>
          cases parent : declared.parent with
          | none => exact .nowhere stands.happened here parent
          | some found => exact .inherited stands.happened here parent (ih found parent)

end Class.Made

/-! ## Steps on a store that is traced -/

namespace Store

variable {record : Chronicle} {store before after : Store}

/-- The values are traced in every later store. -/
theorem Traced.every (traced : before.Traced record) (extended : before.Extends after) :
    before.Every (Value.Traced record after) :=
  Every.mono traced fun _ tracedValue => tracedValue.later extended

theorem Traced.bindIn (traced : store.Traced record) (frame : Env) {name : Token}
    (named : name.IsName) {value : Value} (tracedValue : value.Traced record store) :
    (store.bindIn frame name.lexeme value).Traced record :=
  have extended := store.extends_bindIn frame named value
  (traced.every extended).bindIn frame name.lexeme (tracedValue.later extended)

theorem Traced.child (traced : store.Traced record) (env : Env) :
    (store.child env).2.Traced record :=
  (traced.every (store.extends_child env)).child env

theorem Traced.childWith (traced : store.Traced record) (env : Env) (names : List String)
    {values : List Value} (tracedValues : Value.AllTraced record store values) :
    ((store.child env).2.defineAll (store.child env).1 names values).Traced record :=
  have extended := store.extends_childWith env names values
  (traced.every extended).childWith env names fun value member =>
    (tracedValues value member).later extended

theorem Traced.bindMethod (traced : store.Traced record) (method : Closure) {object : Instance}
    (made : object.cls.Made record store) : (store.bindMethod method object).2.Traced record :=
  have receiver : (Value.object object).Traced record store := made
  traced.childWith method.env ["this"] (List.forall_mem_singleton.mpr receiver)

theorem Traced.newInstance (traced : store.Traced record) (cls : Class) :
    (store.newInstance cls).2.Traced record :=
  (traced.every (store.extends_newInstance cls)).newInstance cls

theorem Traced.setField (traced : store.Traced record) (object : Instance) (name : String)
    {value : Value} (tracedValue : value.Traced record store) :
    (store.setField object name value).Traced record :=
  have extended : store.Extends (store.setField object name value) := .of_frames rfl
  (traced.every extended).setField object name (tracedValue.later extended)

theorem Traced.newClass (traced : store.Traced record) (name : String) (superclass : Option Class)
    (own : MethodTable) : (store.newClass name superclass own).2.Traced record :=
  have extended : store.Extends (store.newClass name superclass own).2 := .of_frames rfl
  ⟨(traced.every extended).bound, (traced.every extended).fields⟩

/-- A method of a class, bound to an instance. -/
theorem traced_bindMethod {method : Closure} {object : Instance} {declared : Declaration}
    (stands : declared.Stands record store) (own : ∃ name, declared.own.find? name = some method)
    (binding : Binding record.seen method object store) :
    (store.bindMethod method object).1.Traced record (store.bindMethod method object).2 :=
  .inr ⟨⟨declared, method, object, store⟩,
    ⟨⟨stands.happened, own, binding⟩,
      stands.mono (.refl record) (store.extends_bindMethod method object), .refl _⟩, rfl⟩

end Store

/-- **The body of a function that is traced is covered.** A bound method opens an
activation of its own. -/
theorem Closure.Traced.body {record : Chronicle} {machine : Machine} {closure : Closure}
    (traced : closure.Traced record machine.store) {fuel : Nat} {values : List Value}
    (begun : record.seen ⟨fuel + 1, .applyClosure closure values, machine⟩) :
    Covers record (machine.inBody closure values).store (machine.inBody closure values).env
      (Stmt.ownUsesAll 0 closure.declaration.body) := by
  have extended : machine.store.Extends (machine.inBody closure values).store :=
    Store.extends_childWith _ _ _ _
  rcases traced with ⟨_, covers⟩ | ⟨bound, stands, rfl⟩
  · rw [FunctionDecl.ownUses_eq_map] at covers
    exact covers.inside extended (Store.enclosing?_childWith _ _ _ _)
  · intro found member _
    have opens : Activation.Stands record (machine.inBody bound.closure values).store
        ⟨bound, fuel, values, machine⟩ :=
      ⟨⟨stands.happened, begun, stands.kept⟩, stands.above.mono (.refl record) extended, .refl _⟩
    refine ⟨⟨bound, fuel, values, machine⟩, 0, opens, rfl, ?_⟩
    rw [Nat.zero_add]
    exact member

/-- The frame of a bound method binds `this` to the instance. -/
theorem BoundMethod.this {bound : BoundMethod} {store : Store} (kept : bound.after.Extends store) :
    store.findIn? bound.closure.env "this" = some (.object bound.object) := by
  have held : bound.after.findIn? bound.closure.env "this" = some (.object bound.object) :=
    Store.findIn?_bindIn_self (Store.lt_of_enclosing? (Store.enclosing?_child _ _)) _ _
  rw [kept.this _ (Store.lt_of_findIn? held), held]

/-! ## Frames around the body of a method -/

/-- One frame further out. -/
theorem Store.ancestor?_succ {store : Store} {outer : Env} : ∀ {distance : Nat} {env frame : Env},
    store.ancestor? env distance = some frame → store.enclosing? frame = some outer →
      store.ancestor? env (distance + 1) = some outer
  | 0, env, _, reached, link => by
      cases reached
      rw [ancestor?, link]
      rfl
  | distance + 1, env, frame, reached, link => by
      rw [ancestor?] at reached ⊢
      split at reached
      next further => exact ancestor?_succ reached link
      next => cases reached

namespace Activation.Stands

variable {record : Chronicle} {store : Store} {activation : Activation}

/-- What was there when the method was bound is there still. -/
theorem kept (stands : activation.Stands record store) : activation.after.Extends store :=
  (stands.happened.kept.trans (Store.extends_childWith _ _ _ _)).trans stands.opened

/-- The method is one of those that the class statement declares. -/
theorem method (stands : activation.Stands record store) :
    activation.method.env = activation.declared.env ∧
      activation.method.declaration.WordsPlaced record.placed activation.declared.superclass := by
  obtain ⟨name, own⟩ := stands.happened.bound.own
  obtain ⟨declaration, member, _, same⟩ := Eval.exists_of_find?_methodTable own
  rw [same]
  exact ⟨rfl, stands.above.words declaration member⟩

/-- The frame of the call is inside the frame with the instance. -/
theorem enclosing_frame (stands : activation.Stands record store) :
    store.enclosing? activation.frame = some activation.closure.env := by
  have link : activation.opened.enclosing? activation.frame = some activation.closure.env :=
    Store.enclosing?_childWith _ _ _ _
  rw [stands.opened.enclosing _ (Store.lt_of_enclosing? link), link]

/-- That frame binds `this` to the instance. -/
theorem this (stands : activation.Stands record store) :
    store.findIn? activation.closure.env "this" = some (.object activation.object) :=
  BoundMethod.this stands.kept

/-- It is inside the environment that the methods of the class close over. -/
theorem enclosing_closure (stands : activation.Stands record store) :
    store.enclosing? activation.closure.env = some activation.declared.env := by
  have link : activation.after.enclosing? activation.closure.env = some activation.method.env :=
    Store.enclosing?_childWith _ _ ["this"] [.object activation.object]
  rw [stands.kept.enclosing _ (Store.lt_of_enclosing? link), link, stands.method.1]

end Activation.Stands

end LoxLang
