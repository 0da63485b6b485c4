import LoxLang.Diagnostic
import LoxLang.Run.Value

/-!
# The store

The store holds the frames of all environments and the fields of all
instances. A frame has the names bound in it and a link to the environment
around it; only the global frame has no link. Frames are only ever added, and
each is younger than the one around it.

A name can be looked up in two ways. Along the chain of links, the nearest
frame that binds it counts. At a distance, one frame is meant, and it either
binds the name or does not.
-/

namespace LoxLang

set_option autoImplicit false

/-- What a frame binds, and the environment around it. -/
structure Frame where
  bindings : Bindings Value
  enclosing : Option Env

/-- Frames and fields by number, and the number of classes made so far. -/
structure Store where
  frames : Array Frame
  fields : Array (Bindings Value)
  classCount : Nat

namespace Store

/-- A store with an empty global frame. -/
def initial : Store := ⟨#[⟨[], none⟩], #[], 0⟩

/-! ## Frames -/

/-- What a frame binds to a name. -/
def findIn? (store : Store) (frame : Env) (name : String) : Option Value :=
  match store.frames[frame]? with
  | some found => found.bindings.find? name
  | none => none

/-- The environment around an environment. -/
def enclosing? (store : Store) (env : Env) : Option Env :=
  match store.frames[env]? with
  | some found => found.enclosing
  | none => none

/-- Binds a name in a frame. -/
def bindIn (store : Store) (frame : Env) (name : String) (value : Value) : Store :=
  { store with frames := store.frames.modify frame fun found =>
      { found with bindings := found.bindings.insert name value } }

/-- A name just bound in a frame of the store is found there. -/
theorem findIn?_bindIn_self {store : Store} {frame : Env} (inside : frame < store.frames.size)
    (name : String) (value : Value) :
    (store.bindIn frame name value).findIn? frame name = some value := by
  simp [bindIn, findIn?, Array.getElem?_modify, Array.getElem?_eq_getElem inside]

/-- Binding a name does not touch other names or other frames. -/
theorem findIn?_bindIn_of_ne {frame other : Env} {name found : String}
    (distinct : other ≠ frame ∨ found ≠ name) (store : Store) (value : Value) :
    (store.bindIn frame name value).findIn? other found = store.findIn? other found := by
  by_cases same : frame = other
  · subst same
    have names : found ≠ name := distinct.resolve_left (fun differs => differs rfl)
    cases content : store.frames[frame]? with
    | none => simp [bindIn, findIn?, Array.getElem?_modify, content]
    | some bindings =>
      simp [bindIn, findIn?, Array.getElem?_modify, content, Bindings.find?_insert_of_ne names]
  · simp [bindIn, findIn?, Array.getElem?_modify, same]

@[simp] theorem size_bindIn (store : Store) (frame : Env) (name : String) (value : Value) :
    (store.bindIn frame name value).frames.size = store.frames.size := by
  simp [bindIn]

/-- Binding a name does not touch the links. -/
@[simp] theorem enclosing?_bindIn (store : Store) (frame : Env) (name : String) (value : Value)
    (env : Env) : (store.bindIn frame name value).enclosing? env = store.enclosing? env := by
  by_cases same : frame = env
  · subst same
    cases content : store.frames[frame]? with
    | none => simp [bindIn, enclosing?, Array.getElem?_modify, content]
    | some found => simp [bindIn, enclosing?, Array.getElem?_modify, content]
  · simp [bindIn, enclosing?, Array.getElem?_modify, same]

/-- A new environment with an empty frame inside an environment. -/
def child (store : Store) (env : Env) : Env × Store :=
  (store.frames.size, { store with frames := store.frames.push ⟨[], some env⟩ })

/-- A new frame is empty, and the others stay as they are. -/
theorem findIn?_child (store : Store) (env : Env) (frame : Env) (name : String) :
    (store.child env).2.findIn? frame name = store.findIn? frame name := by
  by_cases new : frame = store.frames.size
  · simp [child, findIn?, new]
  · simp [child, findIn?, Array.getElem?_push, new]

/-- Binds a name in the innermost frame. -/
def define (store : Store) (env : Env) (name : String) (value : Value) : Store :=
  store.bindIn env name value

/-- Binds names in the innermost frame, as far as there are values. -/
def defineAll (store : Store) (env : Env) : List String → List Value → Store
  | name :: names, value :: values => (store.define env name value).defineAll env names values
  | _, _ => store

/-! ## Along the chain -/

/-- The frames of an environment, from the innermost outwards. A link leads to
an older frame, so the walk comes to an end. -/
def chain (store : Store) (env : Env) : List Env :=
  match store.enclosing? env with
  | some outer => if outer < env then env :: store.chain outer else [env]
  | none => [env]
termination_by env

/-- The nearest frame that binds a name. -/
def holder (store : Store) (env : Env) (name : String) : Except RuntimeCause Env :=
  match (store.chain env).find? fun frame => (store.findIn? frame name).isSome with
  | some frame => .ok frame
  | none => .error (.undefinedVariable name)

/-- The value of a name in the nearest frame that binds it. -/
def get (store : Store) (env : Env) (name : String) : Except RuntimeCause Value :=
  match (store.chain env).findSome? fun frame => store.findIn? frame name with
  | some value => .ok value
  | none => .error (.undefinedVariable name)

/-- Replaces the value of a name in the nearest frame that binds it. -/
def assign (store : Store) (env : Env) (name : String) (value : Value) :
    Except RuntimeCause Store :=
  match store.holder env name with
  | .ok frame => .ok (store.bindIn frame name value)
  | .error cause => .error cause

/-! ## At a distance -/

/-- The environment a number of links outwards. -/
def ancestor? (store : Store) (env : Env) : Nat → Option Env
  | 0 => some env
  | distance + 1 => match store.enclosing? env with
    | some outer => store.ancestor? outer distance
    | none => none

/-- The frame at a distance, asked for on behalf of a name. -/
def frameAt (store : Store) (env : Env) (distance : Nat) (name : String) :
    Except RuntimeCause Env :=
  match store.ancestor? env distance with
  | some frame => .ok frame
  | none => .error (.missingScope distance name)

/-- What the frame at a distance binds to a name. -/
def implicitAt? (store : Store) (env : Env) (distance : Nat) (name : String) : Option Value :=
  match store.ancestor? env distance with
  | some frame => store.findIn? frame name
  | none => none

/-- The value of a name in the frame at a distance. -/
def getAt (store : Store) (env : Env) (distance : Nat) (name : String) :
    Except RuntimeCause Value :=
  match store.frameAt env distance name with
  | .error cause => .error cause
  | .ok frame => match store.findIn? frame name with
    | some value => .ok value
    | none => .error (.undefinedVariable name)

/-- Binds a name in the frame at a distance, whether it was bound there or
not. -/
def assignAt (store : Store) (env : Env) (distance : Nat) (name : String) (value : Value) :
    Except RuntimeCause Store :=
  match store.frameAt env distance name with
  | .ok frame => .ok (store.bindIn frame name value)
  | .error cause => .error cause

/-! ## Classes and instances -/

/-- A new class below a superclass, if there is one. -/
def newClass (store : Store) (name : String) (superclass : Option Class) (own : MethodTable) :
    Class × Store :=
  let inherited := match superclass with
    | some parent => parent.tables
    | none => []
  (⟨store.classCount, name, own :: inherited⟩, { store with classCount := store.classCount + 1 })

/-- A new instance of a class, without fields. -/
def newInstance (store : Store) (cls : Class) : Instance × Store :=
  (⟨store.fields.size, cls⟩, { store with fields := store.fields.push [] })

/-- The value of a field. -/
def field? (store : Store) (object : Instance) (name : String) : Option Value :=
  match store.fields[object.id]? with
  | some bindings => bindings.find? name
  | none => none

/-- Sets a field. -/
def setField (store : Store) (object : Instance) (name : String) (value : Value) : Store :=
  { store with fields := store.fields.modify object.id fun bindings => bindings.insert name value }

/-- A method bound to an instance: its environment extended by a frame that
holds `this`. -/
def bindMethod (store : Store) (method : Closure) (object : Instance) : Closure × Store :=
  let (env, extended) := store.child method.env
  ({ method with env := env }, extended.define env "this" (.object object))

end Store

end LoxLang
