import LoxLang.Proofs.Run.StoredValues
import LoxLang.Tree.Uses

/-!
# Where the nodes of a run come from

A run evaluates nodes of the tree it was started with and of the functions that it
finds in its store, and nothing else. So if all the uses of names in these are known
ones, then so are those in every task of the run and in the functions that the run
leaves in its store (`retaining_governs`). Values hold trees only in the functions
that can be had from them, so being made from known uses is a matter of the value
alone (`Value.From`).

All this time the distance table stays the same.
-/

namespace LoxLang

set_option autoImplicit false

/-! ## Values and stores -/

section Values

variable (known : Use → Prop)

/-- The uses in the body of a function are known. -/
def Closure.From (closure : Closure) : Prop := ∀ use ∈ closure.declaration.uses, known use

/-- The uses in the methods that a class has or inherits are known. -/
abbrev Class.From (cls : Class) : Prop := cls.Every (Closure.From known)

/-- The uses in the functions that can be had from a value are known. -/
def Value.From : Value → Prop
  | .function closure => closure.From known
  | .cls found => found.From known
  | .object found => found.cls.From known
  | _ => True

/-- The same for every value of a store. -/
abbrev Store.From (store : Store) : Prop := store.Every (Value.From known)

/-- A machine with a given distance table, whose store holds functions with known
uses only. -/
structure Machine.From (table : DistanceTable) (machine : Machine) : Prop where
  distances : machine.distances = table
  store : machine.store.From known

end Values

section Facts

variable {known : Use → Prop}

theorem Value.IsPlain.from {value : Value} (plain : value.IsPlain) : value.From known := by
  cases value <;> trivial

theorem Value.From.mono {value : Value} {more : Use → Prop} (made : value.From known)
    (le : ∀ use, known use → more use) : value.From more := by
  cases value with
  | function closure => exact fun use member => le use (made use member)
  | cls found | object found =>
      exact Class.Every.mono made fun method here use member => le use (here use member)
  | _ => trivial

theorem FunctionDecl.uses_eq (declaration : FunctionDecl) :
    declaration.uses = Stmt.usesAll declaration.body := by
  cases declaration
  rfl

theorem FunctionDecl.known_of_mem {declaration : FunctionDecl} :
    ∀ {declarations : List FunctionDecl},
      (∀ use ∈ FunctionDecl.usesAll declarations, known use) → declaration ∈ declarations →
        ∀ use ∈ declaration.uses, known use
  | _ :: _, among, member => by
      obtain ⟨one, many⟩ := List.forall_mem_append.mp among
      rcases List.mem_cons.mp member with rfl | later
      · exact one
      · exact FunctionDecl.known_of_mem many later

end Facts

theorem Store.From.mono {known more : Use → Prop} {store : Store} (made : store.From known)
    (le : ∀ use, known use → more use) : store.From more :=
  Every.mono made fun _ good => good.mono le

/-! ## Tasks -/

/-- The uses of names in the tree that a task is about. -/
def Task.allUses : Task → List Use
  | .expression found => found.uses
  | .expressions found => Expr.usesAll found
  | .statement found => found.uses
  | .statements found => Stmt.usesAll found
  | .rounds condition body => condition.uses ++ body.uses
  | _ => []

/-- A task begins tasks about its own tree, unless it applies a function. -/
theorem Begins.allUses_subset {moment next : Moment} (begins : Begins moment next)
    (stays : moment.task.opensScope = false) : next.task.allUses ⊆ moment.task.allUses := by
  cases begins with
  | body | block => cases stays
  | @condition _ _ _ _ elseBranch | @thenBranch _ _ _ _ _ elseBranch =>
      cases elseBranch <;> simp [Task.allUses, Stmt.uses]
  | _ => simp [Task.allUses, Expr.uses, Expr.usesAll, Expr.usesOption, Stmt.uses, Stmt.usesAll]

/-! ## Runs -/

/-- At a moment, the uses in the task, in what it was handed and in the store are
known. -/
structure Moment.From (known : Use → Prop) (table : DistanceTable) (moment : Moment) : Prop where
  machine : moment.machine.From known table
  uses : ∀ use ∈ moment.task.allUses, known use
  handed : moment.task.Handed (Value.From known)

/-- All uses are known, and the distance table stays as it is. -/
def retaining (known : Use → Prop) (table : DistanceTable) : Discipline where
  holds := Moment.From known table
  keeps _ after := after.From known table
  good _ value := value.From known
  explains _ _ := True

variable {known : Use → Prop} {table : DistanceTable}

theorem Eval.retaining_declareClass {machine : Machine} (made : machine.From known table)
    (name : Token) {superclass : Option Class}
    (above : ∀ parent, superclass = some parent → parent.From known)
    {declarations : List FunctionDecl}
    (among : ∀ use ∈ FunctionDecl.usesAll declarations, known use) :
    (retaining known table).Ended machine (fun _ => True) Discipline.done
      (declareClass name superclass declarations machine) := by
  have defines : (retaining known table).Ended machine (fun _ => True) Discipline.done
      (define name.lexeme .nil machine) :=
    ⟨⟨made.distances, made.store.bindIn _ _ trivial⟩, trivial⟩
  refine .bind defines fun _ defined _ made _ => ?_
  have opens : (retaining known table).Ended machine (fun _ => True) (fun _ _ => True)
      (methodEnv superclass defined) := by
    cases superclass with
    | none => exact ⟨made, trivial⟩
    | some parent =>
        have held : ∀ value ∈ [Value.cls parent], value.From known :=
          List.forall_mem_singleton.mpr (above parent rfl)
        exact ⟨⟨made.distances, made.store.childWith defined.env ["super"] held⟩, trivial⟩
  refine .bind opens fun env around _ made _ => ?_
  have makes : (retaining known table).Ended machine (fun _ => True)
      (fun _ cls => cls.From known)
      (newClass name.lexeme superclass (methodTable env declarations) around) := by
    refine ⟨⟨made.distances, made.store.bound, made.store.fields⟩,
      Store.every_newClass _ _ above fun _ method found => ?_⟩
    obtain ⟨declaration, member, _, rfl⟩ := exists_of_find?_methodTable found
    exact FunctionDecl.known_of_mem among member
  refine .bind makes fun cls after _ made good => ?_
  unfold reassign
  split
  · exact ⟨⟨made.distances, made.store.bindIn _ _ good⟩, trivial⟩
  · exact ⟨made, fun _ _ => trivial⟩

theorem retaining_laws : (retaining known table).Laws where
  handed made := made.handed
  here made := made.machine
  settled made := made
  trans _ made := made
  later _ good := good
  plain := Value.IsPlain.from
  owner good := good
  within made := ⟨made.distances, made.store⟩
  nested made := ⟨made.distances, made.store⟩
  outside made _ _ := ⟨made.distances, made.store⟩
  bound made := made.store.bound _ _ _
  fields made := made.store.fields _ _ _
  setField object name _ made good := ⟨made.distances, made.store.setField object name good⟩
  childWith env names _ made good := ⟨made.distances, made.store.childWith env names good⟩
  newInstance {_ cls} made good := ⟨⟨made.distances, made.store.newInstance cls⟩, good⟩
  bindMethod {_ _ _ _ method _} _ made good found receiver _ := by
    have inherited : method.From known := Class.Every.findMethod? good found
    exact ⟨⟨made.distances, made.store.bindMethod method receiver⟩, inherited⟩
  bindIn _ _ _ _ _ made good := ⟨made.distances, made.store.bindIn _ _ good⟩
  function made := ⟨made.machine.distances, made.machine.store.bindIn _ _ made.uses⟩
  declareClass made happened ready above := by
    cases happened.begun
    exact Eval.retaining_declareClass ready _ above (List.forall_mem_append.mp made.uses).2
  part made begins stays kept handed :=
    ⟨kept, fun use member => made.uses use (begins.allUses_subset stays member), handed⟩
  apply made found _ _ :=
    ⟨⟨made.machine.distances, made.machine.store⟩, nofun, made.handed.apply found⟩
  body {_ _ closure _} made := by
    have uses : ∀ use ∈ Stmt.usesAll closure.declaration.body, known use :=
      closure.declaration.uses_eq ▸ made.handed.1
    exact ⟨⟨made.machine.distances, made.machine.store.childWith _ _ made.handed.2⟩, uses, trivial⟩
  block made := ⟨⟨made.machine.distances, made.machine.store.child _⟩, made.uses, trivial⟩
  begun _ _ := trivial
  raises _ _ _ := trivial

/-- **A program with known uses comes across known uses only**, and leaves no others. -/
theorem retaining_governs (fuel : Nat) : (retaining known table).Governs fuel
    fun program machine => machine.From known table ∧ ∀ use ∈ Stmt.usesAll program, known use where
  laws := retaining_laws
  here begun := begun.1
  first begun := ⟨begun.1, (List.forall_mem_append.mp begun.2).1, trivial⟩
  others begun _ made := ⟨made, (List.forall_mem_append.mp begun.2).2⟩

end LoxLang
