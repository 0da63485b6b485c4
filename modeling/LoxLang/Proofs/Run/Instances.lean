import LoxLang.Proofs.Run.StoredValues

/-!
# The instances that exist

An instance exists in a store once it was made there, and from then on
(`Instance.Exists`). Only making an instance adds one, so whatever a run has in
its hands exists: the values of expressions, what frames bind, what fields hold
and what is passed to a call. This is a discipline of evaluation (`closing_laws`).
Every rule keeps the store closed under it and gives results that exist, and all
moments of a run are closed (`Moment.Closed.of_performs`).
-/

namespace LoxLang

set_option autoImplicit false

/-! ## Values and stores -/

/-- The instance was made in the store: its fields have a place there. -/
def Instance.Exists (store : Store) (object : Instance) : Prop := object.id < store.fields.size

/-- If the value is an instance, then it exists. -/
def Value.Exists (store : Store) : Value → Prop
  | .object found => found.Exists store
  | _ => True

/-- The same for every value of a list. -/
def Value.AllExist (store : Store) (values : List Value) : Prop :=
  ∀ value ∈ values, value.Exists store

/-- Every instance in the store exists there. -/
abbrev Store.Closed (store : Store) : Prop := store.Every (Value.Exists store)

theorem Value.IsPlain.exists {store : Store} {value : Value} (plain : value.IsPlain) :
    value.Exists store := by
  cases value <;> trivial

theorem Value.Exists.later {before after : Store} (size : before.fields.size ≤ after.fields.size)
    {value : Value} (here : value.Exists before) : value.Exists after := by
  cases value with
  | object found => exact Nat.lt_of_lt_of_le here size
  | _ => trivial

namespace Store.Closed

variable {store after : Store}

/-- What exists goes on to exist where no instance is lost. -/
theorem every (closed : store.Closed) (size : store.fields.size ≤ after.fields.size) :
    store.Every (Value.Exists after) :=
  closed.mono fun _ here => here.later size

theorem childWith (closed : store.Closed) (env : Env) (names : List String) {values : List Value}
    (exist : Value.AllExist store values) :
    ((store.child env).2.defineAll (store.child env).1 names values).Closed := by
  have size : store.fields.size ≤
      ((store.child env).2.defineAll (store.child env).1 names values).fields.size := by
    rw [fields_defineAll]
    exact Nat.le_refl _
  exact ((closed.every size).childWith env names fun value member =>
    (exist value member).later size)

theorem newInstance (closed : store.Closed) (cls : Class) : (store.newInstance cls).2.Closed :=
  ((closed.every (by simp [Store.newInstance])).newInstance cls)

theorem setField (closed : store.Closed) (object : Instance) (name : String) {value : Value}
    (exists_ : value.Exists store) : (store.setField object name value).Closed := by
  have size : store.fields.size ≤ (store.setField object name value).fields.size := by
    simp [Store.setField]
  exact ((closed.every size).setField object name (exists_.later size))

/-- The built-in functions are no instances. -/
theorem initial (output : Sink) (clock : Nat → Float) :
    (Machine.initial output clock).store.Closed :=
  (.start fun _ => trivial)

end Store.Closed

/-! ## Moments -/

/-- The store has lost no instance, and all instances in it exist. -/
structure Machine.Keeps (before after : Machine) : Prop where
  size : before.store.fields.size ≤ after.store.fields.size
  closed : after.store.Closed

/-- The values that a task was handed. -/
def Task.handed : Task → List Value
  | .call _ called values => called :: values
  | .apply _ values => values
  | .applyClosure _ values => values
  | _ => []

/-- All instances at a moment exist: those in the store, and those that the task
was handed. -/
structure Moment.Closed (moment : Moment) : Prop where
  store : moment.machine.store.Closed
  handed : Value.AllExist moment.machine.store moment.task.handed

/-- Instances exist, and go on to exist. -/
def closing : Discipline where
  holds := Moment.Closed
  keeps := Machine.Keeps
  good := Value.Exists
  explains _ _ := True

theorem closing_handed_iff {store : Store} {task : Task} :
    closing.handed store task ↔ Value.AllExist store task.handed := by
  cases task with
  | call paren called values => exact List.forall_mem_cons.symm
  | apply callable values => cases callable <;> exact ⟨And.right, fun exist => ⟨trivial, exist⟩⟩
  | applyClosure closure values => exact ⟨And.right, fun exist => ⟨trivial, exist⟩⟩
  | _ => exact ⟨fun _ => nofun, fun _ => trivial⟩

namespace Eval

variable {machine : Machine}

theorem closing_declareClass (closed : machine.store.Closed) (name : Token)
    (superclass : Option Class) (declarations : List FunctionDecl) :
    closing.Ended machine (fun _ => True) Discipline.done
      (declareClass name superclass declarations machine) := by
  have defines : closing.Ended machine (fun _ => True) Discipline.done
      (define name.lexeme .nil machine) := ⟨⟨Nat.le_refl _, closed.bindIn _ _ trivial⟩, trivial⟩
  refine .bind defines fun _ defined _ keeps _ => ?_
  have opens : closing.Ended machine (fun _ => True) (fun _ _ => True)
      (methodEnv superclass defined) := by
    cases superclass with
    | none => exact ⟨keeps, trivial⟩
    | some parent =>
        have held : Value.AllExist defined.store [.cls parent] :=
          List.forall_mem_singleton.mpr trivial
        exact ⟨⟨keeps.size, keeps.closed.childWith defined.env ["super"] held⟩, trivial⟩
  refine .bind opens fun env around _ keeps _ => ?_
  have makes : closing.Ended machine (fun _ => True) (fun _ _ => True)
      (newClass name.lexeme superclass (methodTable env declarations) around) :=
    ⟨⟨keeps.size, keeps.closed.bound, keeps.closed.fields⟩, trivial⟩
  refine .bind makes fun cls after _ keeps _ => ?_
  unfold reassign
  split
  · exact ⟨⟨keeps.size, keeps.closed.bindIn _ _ trivial⟩, trivial⟩
  · exact ⟨keeps, fun _ _ => trivial⟩

end Eval

theorem closing_laws : closing.Laws where
  handed closed := closing_handed_iff.mpr closed.handed
  here closed := ⟨Nat.le_refl _, closed.store⟩
  settled keeps := ⟨Nat.le_refl _, keeps.closed⟩
  trans earlier later := ⟨Nat.le_trans earlier.size later.size, later.closed⟩
  later keeps exists_ := exists_.later keeps.size
  plain := Value.IsPlain.exists
  owner _ := trivial
  within keeps := ⟨keeps.size, keeps.closed⟩
  nested keeps := ⟨keeps.size, keeps.closed⟩
  outside keeps _ _ := ⟨keeps.size, keeps.closed⟩
  bound keeps := keeps.closed.bound _ _ _
  fields keeps := keeps.closed.fields _ _ _
  setField object name _ keeps exists_ :=
    ⟨by simp [Store.setField], keeps.closed.setField object name exists_⟩
  childWith env names _ keeps exist :=
    ⟨by simp only [Store.fields_defineAll]; exact Nat.le_refl _,
      keeps.closed.childWith env names exist⟩
  newInstance {_ cls} keeps _ :=
    ⟨⟨by simp [Store.newInstance], keeps.closed.newInstance cls⟩,
      by simp [closing, Value.Exists, Instance.Exists, Store.newInstance]⟩
  bindMethod {_ machine _ _ _ object} _ keeps _ _ exists_ _ :=
    have bound : Value.AllExist machine.store [.object object] :=
      List.forall_mem_singleton.mpr exists_
    ⟨⟨Nat.le_refl _, keeps.closed.childWith _ ["this"] bound⟩, trivial⟩
  bindIn _ _ _ _ _ keeps exists_ := ⟨Nat.le_refl _, keeps.closed.bindIn _ _ exists_⟩
  function closed := ⟨Nat.le_refl _, closed.store.bindIn _ _ trivial⟩
  declareClass _ _ keeps _ := Eval.closing_declareClass keeps.closed _ _ _
  part _ _ _ keeps handed := ⟨keeps.closed, closing_handed_iff.mp handed⟩
  apply closed _ _ _ := ⟨closed.store, (List.forall_mem_cons.mp closed.handed).2⟩
  body closed := ⟨closed.store.childWith _ _ closed.handed, nofun⟩
  block {_ machine _} closed :=
    have none : Value.AllExist machine.store [] := nofun
    ⟨closed.store.childWith machine.env [] none, nofun⟩
  begun _ _ := trivial
  raises _ _ _ := trivial

theorem closing_governs (fuel : Nat) :
    closing.Governs fuel fun _ machine => machine.store.Closed where
  laws := closing_laws
  here closed := ⟨Nat.le_refl _, closed⟩
  first closed := ⟨closed, nofun⟩
  others _ _ keeps := keeps.closed

/-- All instances at a moment of a program exist. -/
theorem Moment.Closed.of_performs {fuel : Nat} {program : List Stmt} {machine : Machine}
    {moment : Moment} (performs : Performs fuel program machine moment)
    (closed : machine.store.Closed) : moment.Closed :=
  (closing_governs fuel).performs performs closed

/-! ## Expressions and calls -/

namespace Eval

/-- How a step ended: all instances are kept, and its result is good. -/
def Accounts {Result : Type} (start : Machine) (good : Store → Result → Prop)
    (outcome : EStateM.Result Interrupt Machine Result) : Prop :=
  closing.Ended start (fun _ => True) good outcome

theorem Accounts.of_ok {Result : Type} {start after : Machine} {good : Store → Result → Prop}
    {outcome : EStateM.Result Interrupt Machine Result} (accounts : Accounts start good outcome)
    {result : Result} (ran : outcome = .ok result after) :
    start.Keeps after ∧ good after.store result :=
  Discipline.Ended.of_ok accounts ran

/-- What expressions and calls give with a certain amount of fuel. -/
structure AccountsAt (fuel : Nat) : Prop where
  expression : ∀ (found : Expr) {machine : Machine}, machine.store.Closed →
    Accounts machine Value.Exists (expression fuel found machine)
  call : ∀ (paren : Token) (called : Callable) {values : List Value} {machine : Machine},
    machine.store.Closed → Value.AllExist machine.store values →
      Accounts machine Value.Exists (call fuel paren called.value values machine)

/-- **Results exist**, whatever the fuel. -/
theorem accountsAt (fuel : Nat) : AccountsAt fuel where
  expression found machine closed := by
    have here : closing.holds ⟨fuel, .expression found, machine⟩ := ⟨closed, nofun⟩
    exact closing_laws.endsWell here
  call paren called values machine closed exist := by
    have value : called.value.Exists machine.store := by cases called <;> trivial
    have here : closing.holds ⟨fuel, .call paren called.value values, machine⟩ :=
      ⟨closed, List.forall_mem_cons.mpr ⟨value, exist⟩⟩
    exact closing_laws.endsWell here

end Eval

end LoxLang
