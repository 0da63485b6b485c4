import LoxLang.Proofs.ControlState
import LoxLang.Proofs.Tree.Relabelling

/-!
# Relabelled values and stores

Values hold trees only in the functions that they give access to, so a
relabelling acts on values and stores as well, and the operations on a store
commute with it. Two machines are similar if the store of one is the relabelled
store of the other, and the distance tables give the same distance to each
number and its new number (`Machine.Similar`).
-/

namespace LoxLang

set_option autoImplicit false

/-! ## Bindings -/

namespace Bindings

variable {Bound Other : Type}

/-- A map with every value changed. -/
def mapBound (change : Bound → Other) (bindings : Bindings Bound) : Bindings Other :=
  bindings.map fun entry => (entry.1, change entry.2)

@[simp] theorem find?_mapBound (change : Bound → Other) (name : String)
    (bindings : Bindings Bound) :
    (bindings.mapBound change).find? name = (bindings.find? name).map change := by
  induction bindings with
  | nil => rfl
  | cons entry rest ih =>
      rw [mapBound, List.map_cons, find?, find?]
      split
      · rfl
      · exact ih

theorem mapBound_insert (change : Bound → Other) (name : String) (value : Bound)
    (bindings : Bindings Bound) :
    (bindings.insert name value).mapBound change =
      (bindings.mapBound change).insert name (change value) := by
  induction bindings with
  | nil => rfl
  | cons entry rest ih =>
      simp only [mapBound, insert, List.map_cons]
      split
      · rfl
      · exact congrArg _ ih

end Bindings

/-! ## Values -/

section Values

variable (change : Relabelling)

/-- A function with a relabelled declaration. -/
def Closure.relabel (closure : Closure) : Closure :=
  { closure with declaration := closure.declaration.relabel change }

/-- A class with relabelled methods. -/
def Class.relabel (cls : Class) : Class :=
  { cls with tables := cls.tables.map (Bindings.mapBound (Closure.relabel change)) }

/-- An instance of a relabelled class. -/
def Instance.relabel (object : Instance) : Instance :=
  { object with cls := object.cls.relabel change }

/-- A value with relabelled functions. -/
def Value.relabel : Value → Value
  | .function closure => .function (closure.relabel change)
  | .cls found => .cls (found.relabel change)
  | .object found => .object (found.relabel change)
  | other => other

/-- Something to call, relabelled. -/
def Callable.relabel : Callable → Callable
  | .native value => .native value
  | .function closure => .function (closure.relabel change)
  | .cls found => .cls (found.relabel change)

/-- The end of a statement with a relabelled value. -/
def Flow.relabel : Flow → Flow
  | .normal => .normal
  | .returned value => .returned (value.relabel change)

/-- An interrupt on a new line, if it has one. -/
def Interrupt.relabel : Interrupt → Interrupt
  | .fault error => .fault (error.relabel change)
  | .output problem => .output problem
  | .outOfFuel => .outOfFuel

theorem Interrupt.diagnostic?_relabel (interrupt : Interrupt) :
    (interrupt.relabel change).diagnostic? =
      interrupt.diagnostic?.map (Diagnostic.relabel change) := by
  cases interrupt <;> rfl

theorem Class.findMethod?_relabel (cls : Class) (name : String) :
    (cls.relabel change).findMethod? name =
      (cls.findMethod? name).map (Closure.relabel change) := by
  obtain ⟨id, text, tables⟩ := cls
  simp only [findMethod?, relabel, List.findSome?_map]
  induction tables with
  | nil => rfl
  | cons table rest ih =>
      simp only [List.findSome?_cons, Function.comp, Bindings.find?_mapBound] at ih ⊢
      cases table.find? name with
      | some method => rfl
      | none => exact ih

@[simp] theorem Closure.arity_relabel (closure : Closure) :
    (closure.relabel change).arity = closure.arity := by
  simp [arity, relabel]

@[simp] theorem Class.arity_relabel (cls : Class) : (cls.relabel change).arity = cls.arity := by
  rw [arity, arity, findMethod?_relabel]
  cases cls.findMethod? initializerName with
  | none => rfl
  | some method => exact method.arity_relabel change

@[simp] theorem Callable.arity_relabel (callable : Callable) :
    (callable.relabel change).arity = callable.arity := by
  cases callable with
  | native value => rfl
  | function closure => exact closure.arity_relabel change
  | cls found => exact found.arity_relabel change

theorem Value.callable?_relabel (value : Value) :
    (value.relabel change).callable? = value.callable?.map (Callable.relabel change) := by
  cases value <;> rfl

@[simp] theorem Value.isTruthy_relabel (value : Value) :
    (value.relabel change).isTruthy = value.isTruthy := by
  cases value <;> rfl

@[simp] theorem Value.text_relabel (value : Value) : (value.relabel change).text = value.text := by
  cases value with
  | function closure => simp [relabel, text, Closure.name, Closure.relabel]
  | _ => rfl

@[simp] theorem Value.relabel_ofLiteral (value : Literal) :
    (Value.ofLiteral value).relabel change = .ofLiteral value := by
  cases value <;> rfl

variable {change}

/-- Functions stay the same, or different, because numbers do. -/
theorem Value.same_relabel (faithful : Function.Injective change.id) (left right : Value) :
    (left.relabel change).same (right.relabel change) = left.same right := by
  cases left <;> cases right <;> try rfl
  next left right =>
    have ids : (change.id left.declaration.id == change.id right.declaration.id) =
        (left.declaration.id == right.declaration.id) := by
      rw [Bool.eq_iff_iff, beq_iff_eq, beq_iff_eq]
      exact ⟨fun equal => faithful equal, congrArg change.id⟩
    simp only [relabel, same, Closure.same, Closure.relabel, FunctionDecl.id_relabel, ids]

/-! ### Operators -/

theorem Operator.unary_relabel (operator : Token) (operand : Value) :
    unary (operator.relabel change) (operand.relabel change) =
      (unary operator operand).map (Value.relabel change) := by
  unfold unary
  rw [Token.kind_relabel]
  split
  · cases operand <;> rfl
  · rw [Value.isTruthy_relabel]
    rfl
  · rfl

theorem Operator.arithmetic_relabel (operator : Token) (left right : Float) :
    arithmetic (operator.relabel change) left right =
      (arithmetic operator left right).map (Value.relabel change) := by
  unfold arithmetic
  rw [Token.kind_relabel]
  split <;> rfl

theorem Operator.binary_relabel (faithful : Function.Injective change.id) (operator : Token)
    (left right : Value) :
    binary (operator.relabel change) (left.relabel change) (right.relabel change) =
      (binary operator left right).map (Value.relabel change) := by
  unfold binary
  rw [Token.kind_relabel]
  split
  · cases left <;> cases right <;> rfl
  · rw [Value.same_relabel faithful]
    rfl
  · rw [Value.same_relabel faithful]
    rfl
  · cases left <;> cases right <;> first | rfl | exact arithmetic_relabel operator _ _

theorem Operator.settles_relabel (operator : Token) (left : Value) :
    settles (operator.relabel change) (left.relabel change) = settles operator left := by
  rw [settles, settles, Value.isTruthy_relabel]
  rfl

end Values

/-! ## Stores -/

/-- A store with relabelled values. -/
def Store.relabel (change : Relabelling) (store : Store) : Store where
  frames := store.frames.map fun frame =>
    { frame with bindings := frame.bindings.mapBound (Value.relabel change) }
  fields := store.fields.map (Bindings.mapBound (Value.relabel change))
  classCount := store.classCount

namespace Store

variable (change : Relabelling) (store : Store)

theorem findIn?_relabel (frame : Env) (name : String) :
    (store.relabel change).findIn? frame name =
      (store.findIn? frame name).map (Value.relabel change) := by
  simp only [findIn?, relabel, Array.getElem?_map]
  cases store.frames[frame]? with
  | none => rfl
  | some found => exact Bindings.find?_mapBound _ _ _

theorem enclosing?_relabel (env : Env) :
    (store.relabel change).enclosing? env = store.enclosing? env := by
  simp only [enclosing?, relabel, Array.getElem?_map]
  cases store.frames[env]? with
  | none => rfl
  | some found => rfl

theorem relabel_bindIn (frame : Env) (name : String) (value : Value) :
    (store.bindIn frame name value).relabel change =
      (store.relabel change).bindIn frame name (value.relabel change) := by
  simp only [relabel, bindIn, Store.mk.injEq, and_true]
  apply Array.ext_getElem?
  intro index
  simp only [Array.getElem?_map, Array.getElem?_modify]
  by_cases same : frame = index
  · simp only [if_pos same, Option.map_map]
    congr 1
    funext found
    simp only [Function.comp, Bindings.mapBound_insert]
  · simp only [if_neg same]

theorem relabel_child (env : Env) :
    (store.relabel change).child env =
      ((store.child env).1, (store.child env).2.relabel change) := by
  simp only [child, relabel, Array.map_push, Array.size_map]
  rfl

theorem relabel_defineAll (env : Env) : ∀ (names : List String) (values : List Value)
    (store : Store), (store.defineAll env names values).relabel change =
      (store.relabel change).defineAll env names (values.map (Value.relabel change))
  | [], _, _ => rfl
  | _ :: _, [], _ => rfl
  | name :: names, value :: values, store => by
      rw [defineAll, relabel_defineAll env names values, define, relabel_bindIn]
      rfl

/-- The chain follows the links, which are kept. -/
theorem chain_relabel (env : Env) : (store.relabel change).chain env = store.chain env := by
  induction env using Nat.strongRecOn with
  | ind env ih =>
      rw [chain, chain, enclosing?_relabel]
      split
      next outer _ =>
        split
        next older => rw [ih outer older]
        next => rfl
      next => rfl

theorem holder_relabel (env : Env) (name : String) :
    (store.relabel change).holder env name = store.holder env name := by
  simp only [holder, chain_relabel, findIn?_relabel, Option.isSome_map]

theorem get_relabel (env : Env) (name : String) :
    (store.relabel change).get env name = (store.get env name).map (Value.relabel change) := by
  have mapped : ∀ frames : List Env,
      frames.findSome? (fun frame => (store.relabel change).findIn? frame name) =
        (frames.findSome? fun frame => store.findIn? frame name).map (Value.relabel change) := by
    intro frames
    induction frames with
    | nil => rfl
    | cons frame rest ih =>
        rw [List.findSome?_cons, List.findSome?_cons, findIn?_relabel]
        cases store.findIn? frame name with
        | some value => rfl
        | none => exact ih
  simp only [get, chain_relabel, mapped]
  cases (store.chain env).findSome? fun frame => store.findIn? frame name with
  | none => rfl
  | some value => rfl

theorem ancestor?_relabel : ∀ (distance : Nat) (env : Env),
    (store.relabel change).ancestor? env distance = store.ancestor? env distance
  | 0, _ => rfl
  | distance + 1, env => by
      rw [ancestor?, ancestor?, enclosing?_relabel]
      split
      next outer _ => exact ancestor?_relabel distance outer
      next => rfl

theorem frameAt_relabel (env : Env) (distance : Nat) (name : String) :
    (store.relabel change).frameAt env distance name = store.frameAt env distance name := by
  rw [frameAt, frameAt, ancestor?_relabel]

theorem implicitAt?_relabel (env : Env) (distance : Nat) (name : String) :
    (store.relabel change).implicitAt? env distance name =
      (store.implicitAt? env distance name).map (Value.relabel change) := by
  rw [implicitAt?, implicitAt?, ancestor?_relabel]
  cases store.ancestor? env distance with
  | none => rfl
  | some frame => exact findIn?_relabel change store frame name

theorem getAt_relabel (env : Env) (distance : Nat) (name : String) :
    (store.relabel change).getAt env distance name =
      (store.getAt env distance name).map (Value.relabel change) := by
  rw [getAt, getAt, frameAt_relabel]
  cases store.frameAt env distance name with
  | error cause => rfl
  | ok frame =>
      simp only [findIn?_relabel]
      cases store.findIn? frame name with
      | none => rfl
      | some value => rfl

theorem relabel_newClass (name : String) (superclass : Option Class) (own : MethodTable) :
    (store.relabel change).newClass name (superclass.map (Class.relabel change))
        (own.mapBound (Closure.relabel change)) =
      ((store.newClass name superclass own).1.relabel change,
        (store.newClass name superclass own).2.relabel change) := by
  cases superclass <;> rfl

theorem relabel_newInstance (cls : Class) :
    (store.relabel change).newInstance (cls.relabel change) =
      ((store.newInstance cls).1.relabel change, (store.newInstance cls).2.relabel change) := by
  simp only [newInstance, relabel, Array.map_push, Array.size_map]
  rfl

theorem field?_relabel (object : Instance) (name : String) :
    (store.relabel change).field? (object.relabel change) name =
      (store.field? object name).map (Value.relabel change) := by
  simp only [field?, relabel, Instance.relabel, Array.getElem?_map]
  cases store.fields[object.id]? with
  | none => rfl
  | some bindings => exact Bindings.find?_mapBound _ _ _

theorem relabel_setField (object : Instance) (name : String) (value : Value) :
    (store.setField object name value).relabel change =
      (store.relabel change).setField (object.relabel change) name (value.relabel change) := by
  simp only [relabel, setField, Instance.relabel, Store.mk.injEq, true_and, and_true]
  apply Array.ext_getElem?
  intro index
  simp only [Array.getElem?_map, Array.getElem?_modify]
  by_cases same : object.id = index
  · simp only [if_pos same, Option.map_map]
    congr 1
    funext found
    simp only [Function.comp, Bindings.mapBound_insert]
  · simp only [if_neg same]

theorem relabel_bindMethod (method : Closure) (object : Instance) :
    (store.relabel change).bindMethod (method.relabel change) (object.relabel change) =
      ((store.bindMethod method object).1.relabel change,
        (store.bindMethod method object).2.relabel change) := by
  simp only [bindMethod, Closure.relabel, relabel_child, define, relabel_bindIn]
  rfl

/-- A new machine holds no functions but the built-in ones. -/
theorem relabel_machineInitial (output : Sink) (clock : Nat → Float) :
    (Machine.initial output clock).store.relabel change =
      (Machine.initial output clock).store := by
  have empty : initial.relabel change = initial := by
    simp [relabel, initial, Bindings.mapBound]
  simp only [Machine.initial, define, relabel_bindIn, empty, Value.relabel]

end Store

/-! ## Similar machines -/

/-- Two machines that differ by a relabelling. A number and its new number have
the same distance. -/
structure Machine.Similar (change : Relabelling) (machine other : Machine) : Prop where
  store : other.store = machine.store.relabel change
  env : other.env = machine.env
  depth : other.depth = machine.depth
  table : ∀ id, other.distances.find? (change.id id) = machine.distances.find? id
  output : other.output = machine.output
  clock : other.clock = machine.clock
  readings : other.readings = machine.readings

namespace Machine.Similar

variable {change : Relabelling} {machine other : Machine}

/-- A store is changed alike on both sides. -/
theorem withStore (similar : machine.Similar change other) (store : Store) :
    ({ machine with store := store } : Machine).Similar change
      { other with store := store.relabel change } :=
  { similar with store := rfl }

theorem value (similar : machine.Similar change other) (occurrence : Occurrence) :
    other.value (occurrence.relabel change) =
      (machine.value occurrence).map (Value.relabel change) := by
  simp only [Machine.value, Occurrence.relabel, similar.table, similar.store, similar.env]
  cases machine.distances.find? occurrence.id with
  | none => exact Store.get_relabel change _ _ _
  | some distance => exact Store.getAt_relabel change _ _ _ _

theorem target (similar : machine.Similar change other) (occurrence : Occurrence) :
    other.target (occurrence.relabel change) = machine.target occurrence := by
  simp only [Machine.target, Occurrence.relabel, similar.table, similar.store, similar.env]
  cases machine.distances.find? occurrence.id with
  | none => exact Store.holder_relabel change _ _ _
  | some distance => exact Store.frameAt_relabel change _ _ _ _

theorem superBinding? (similar : machine.Similar change other) (occurrence : Occurrence) :
    other.superBinding? (occurrence.relabel change) =
      (machine.superBinding? occurrence).map fun found =>
        (found.1.relabel change, found.2.relabel change) := by
  simp only [Machine.superBinding?, Occurrence.relabel, similar.table, similar.store, similar.env,
    Store.implicitAt?_relabel]
  split
  next inner _ =>
    cases machine.store.implicitAt? machine.env (inner + 1) "super" with
    | none => rfl
    | some above =>
        cases machine.store.implicitAt? machine.env inner "this" with
        | none => cases above <;> rfl
        | some below => cases above <;> cases below <;> rfl
  next => rfl

end Machine.Similar

end LoxLang
