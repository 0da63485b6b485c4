import LoxLang.Proofs.Run.LoopFree

/-!
# Programs without loops come to an end

Recursion of any shape is cut off by the limit on the calls in progress, so
only a loop can make a run go on for ever. A step settles if enough fuel brings
it to an outcome that more fuel does not change, and the outcome is not that
fuel was used up (`Eval.Settles`).

The bodies that a run executes come from the values in its store, so induction
on the program alone does not reach them. The measure has two parts. The first
is the number of calls that may still be begun: a call settles if all bodies do
that run one call deeper (`Eval.settles_call`). The second is the tree that is
being run: at a given depth its parts settle if calls do
(`Eval.settles_expression`, `Eval.settles_statement`). What a settled step
leaves in the store is free of loops again, and the depth is what it was.

A function that calls itself for ever has the outcome that is left: a fault at the
limit (`Eval.overflows_callOf`).
-/

namespace LoxLang

set_option autoImplicit false

namespace Eval

variable {Result Other : Type}

/-! ## Steps that settle -/

/-- With enough fuel a step has a certain outcome, which more fuel does not
change. -/
def Gives (step : Nat → Eval Result) (machine : Machine)
    (outcome : EStateM.Result Interrupt Machine Result) : Prop :=
  ∃ enough, ∀ fuel, enough ≤ fuel → step fuel machine = outcome

/-- There is only one such outcome. -/
theorem Gives.unique {step : Nat → Eval Result} {machine : Machine}
    {one other : EStateM.Result Interrupt Machine Result} (first : Gives step machine one)
    (second : Gives step machine other) : one = other := by
  obtain ⟨enough, same⟩ := first
  obtain ⟨plenty, alike⟩ := second
  rw [← same (max enough plenty) (Nat.le_max_left _ _),
    alike (max enough plenty) (Nat.le_max_right _ _)]

/-- An outcome at a depth with a good result, or one that is an error for
another reason than fuel. The store it leaves is free of loops. -/
def Concluded (depth : Nat) (good : Result → Prop) :
    EStateM.Result Interrupt Machine Result → Prop
  | .ok result after => after.depth = depth ∧ after.store.LoopFree ∧ good result
  | .error interrupt after => interrupt ≠ .outOfFuel ∧ after.store.LoopFree

/-- Whatever the rest of the machine, a step that is begun at a depth, with a
store that is free of loops, comes to an outcome. -/
def Settles (depth : Nat) (step : Nat → Eval Result) (good : Result → Prop) : Prop :=
  ∀ machine : Machine, machine.depth = depth → machine.store.LoopFree →
    ∃ outcome, Gives step machine outcome ∧ Concluded depth good outcome

namespace Settles

variable {depth : Nat} {good : Result → Prop} {final : Other → Prop}

/-- A step that takes no fuel. -/
theorem single {step : Eval Result} (concludes : ∀ machine : Machine, machine.depth = depth →
    machine.store.LoopFree → Concluded depth good (step machine)) :
    Settles depth (fun _ => step) good :=
  fun machine deep free => ⟨step machine, ⟨0, fun _ _ => rfl⟩, concludes machine deep free⟩

theorem pure {result : Result} (holds : good result) :
    Settles depth (fun _ => Pure.pure result) good :=
  single fun _ deep free => ⟨deep, free, holds⟩

theorem raise (token : Token) (cause : RuntimeCause) :
    Settles depth (fun _ => Eval.raise token cause) good :=
  single fun _ _ free => ⟨nofun, free⟩

/-- A rule hands less fuel on than it was given. -/
theorem succ {rule step : Nat → Eval Result} (unfolds : ∀ fuel, rule (fuel + 1) = step fuel)
    (settles : Settles depth step good) : Settles depth rule good := by
  intro machine deep free
  obtain ⟨outcome, ⟨enough, same⟩, concluded⟩ := settles machine deep free
  refine ⟨outcome, ⟨enough + 1, fun fuel le => ?_⟩, concluded⟩
  obtain ⟨less, rfl⟩ : ∃ less, fuel = less + 1 := ⟨fuel - 1, by omega⟩
  rw [unfolds]
  exact same less (by omega)

/-- Enough fuel for two steps is the greater of what each needs. -/
theorem bind {step : Nat → Eval Result} {next : Nat → Result → Eval Other}
    (first : Settles depth step good)
    (second : ∀ result, good result → Settles depth (fun fuel => next fuel result) final) :
    Settles depth (fun fuel => step fuel >>= next fuel) final := by
  intro machine deep free
  obtain ⟨outcome, ⟨enough, same⟩, concluded⟩ := first machine deep free
  cases outcome with
  | error interrupt after =>
      refine ⟨.error interrupt after, ⟨enough, fun fuel le => ?_⟩, concluded⟩
      simp only [Bind.bind, EStateM.bind, same fuel le]
  | ok result after =>
      obtain ⟨kept, unlooped, holds⟩ := concluded
      obtain ⟨outcome, ⟨plenty, alike⟩, concluded⟩ := second result holds after kept unlooped
      refine ⟨outcome, ⟨max enough plenty, fun fuel le => ?_⟩, concluded⟩
      simp only [Bind.bind, EStateM.bind, same fuel (Nat.le_trans (Nat.le_max_left _ _) le)]
      exact alike fuel (Nat.le_trans (Nat.le_max_right _ _) le)

/-- The environment plays no part in whether a step settles. -/
theorem within {step : Nat → Eval Result} (env : Env) (inner : Settles depth step good) :
    Settles depth (fun fuel => Eval.within env (step fuel)) good := by
  intro machine deep free
  obtain ⟨outcome, ⟨enough, same⟩, concluded⟩ := inner { machine with env := env } deep free
  refine ⟨_, ⟨enough, fun fuel le => (within_eq ..).trans (congrArg _ (same fuel le))⟩, ?_⟩
  cases outcome <;> exact concluded

/-- A step one call deeper ends one call deeper, and that call is taken off
again. -/
theorem nested {step : Nat → Eval Result} (inner : Settles (depth + 1) step good) :
    Settles depth (fun fuel => Eval.nested (step fuel)) good := by
  intro machine deep free
  obtain ⟨outcome, ⟨enough, same⟩, concluded⟩ :=
    inner { machine with depth := machine.depth + 1 } (by rw [← deep]) free
  refine ⟨_, ⟨enough, fun fuel le => (nested_eq ..).trans (congrArg _ (same fuel le))⟩, ?_⟩
  cases outcome with
  | ok result after => exact ⟨by simp [concluded.1], concluded.2⟩
  | error interrupt after => exact concluded

end Settles

/-! ## The steps of the machine -/

section Steps

variable {depth : Nat}

/-- A result that is not looked at. -/
abbrev anything (_ : Result) : Prop := True

theorem settles_lift (token : Token) {result : Except RuntimeCause Value}
    (harmless : ∀ value, result = .ok value → value.LoopFree) :
    Settles depth (fun _ => lift token result) Value.LoopFree := by
  cases result with
  | ok value => exact .pure (harmless value rfl)
  | error cause => exact .raise token cause

theorem settles_env : Settles depth (fun _ => env) anything :=
  .single fun _ deep free => ⟨deep, free, trivial⟩

/-- The check lets a call pass below the limit only. -/
theorem settles_checkDepth (paren : Token) :
    Settles depth (fun _ => checkDepth paren) fun _ => depth < Machine.depthLimit := by
  refine .single fun machine deep free => ?_
  unfold checkDepth
  split
  · exact ⟨nofun, free⟩
  next room => exact ⟨deep, free, by omega⟩

theorem settles_lookUp (occurrence : Occurrence) :
    Settles depth (fun _ => lookUp occurrence) Value.LoopFree := by
  refine .single fun machine deep free => ?_
  unfold lookUp
  split
  next value found =>
    obtain ⟨frame, here⟩ := Machine.exists_findIn?_of_value found
    exact ⟨deep, free, free.bound _ _ _ here⟩
  next => exact ⟨nofun, free⟩

theorem settles_assign (occurrence : Occurrence) {value : Value} (harmless : value.LoopFree) :
    Settles depth (fun _ => assign occurrence value) anything := by
  refine .single fun machine deep free => ?_
  unfold assign
  split
  · exact ⟨deep, free.bindIn _ _ harmless, trivial⟩
  · exact ⟨nofun, free⟩

theorem settles_define (name : String) {value : Value} (harmless : value.LoopFree) :
    Settles depth (fun _ => define name value) anything :=
  .single fun _ deep free => ⟨deep, free.bindIn _ _ harmless, trivial⟩

theorem settles_reassign (name : Token) {value : Value} (harmless : value.LoopFree) :
    Settles depth (fun _ => reassign name value) anything := by
  refine .single fun machine deep free => ?_
  unfold reassign
  split
  · exact ⟨deep, free.bindIn _ _ harmless, trivial⟩
  · exact ⟨nofun, free⟩

theorem settles_child (env : Env) : Settles depth (fun _ => child env) anything :=
  .single fun _ deep free => ⟨deep, free.child env, trivial⟩

theorem settles_childWith (env : Env) (names : List String) {values : List Value}
    (harmless : Value.AllLoopFree values) :
    Settles depth (fun _ => childWith env names values) anything :=
  .single fun _ deep free => ⟨deep, free.childWith env names harmless, trivial⟩

theorem settles_newInstance {cls : Class} (harmless : cls.LoopFree) :
    Settles depth (fun _ => newInstance cls) fun object => object.cls.LoopFree :=
  .single fun _ deep free => ⟨deep, free.newInstance cls, harmless⟩

theorem settles_bindMethod {method : Closure} (harmless : method.LoopFree) {object : Instance}
    (receiver : object.cls.LoopFree) :
    Settles depth (fun _ => bindMethod method object) Closure.LoopFree :=
  .single fun _ deep free => ⟨deep, free.bindMethod method receiver, harmless⟩

/-- A bound method as a value. -/
theorem concluded_bindMethod {method : Closure} (harmless : method.LoopFree) {object : Instance}
    (receiver : object.cls.LoopFree) {machine : Machine} (deep : machine.depth = depth)
    (free : machine.store.LoopFree) :
    Concluded depth Value.LoopFree ((Value.function <$> bindMethod method object) machine) :=
  ⟨deep, free.bindMethod method receiver, harmless⟩

theorem settles_property {object : Instance} (harmless : object.cls.LoopFree) (name : Token) :
    Settles depth (fun _ => property object name) Value.LoopFree := by
  refine .single fun machine deep free => ?_
  unfold property
  split
  next value found => exact ⟨deep, free, free.fields object _ value found⟩
  next =>
    split
    next method found => exact concluded_bindMethod (harmless.findMethod? found) harmless deep free
    next => exact ⟨nofun, free⟩

theorem settles_setField (object : Instance) (name : String) {value : Value}
    (harmless : value.LoopFree) : Settles depth (fun _ => setField object name value) anything :=
  .single fun _ deep free => ⟨deep, free.setField object name harmless, trivial⟩

theorem settles_superMethod (occurrence : Occurrence) (method : Token) :
    Settles depth (fun _ => superMethod occurrence method) Value.LoopFree := by
  refine .single fun machine deep free => ?_
  unfold superMethod
  split
  next => exact ⟨nofun, free⟩
  next parent object found =>
    obtain ⟨⟨upper, above⟩, lower, below⟩ := Machine.exists_findIn?_of_superBinding? found
    have harmless : parent.LoopFree := free.bound _ _ _ above
    have receiver : object.cls.LoopFree := free.bound _ _ _ below
    split
    next inherited here =>
      exact concluded_bindMethod (harmless.findMethod? here) receiver deep free
    next => exact ⟨nofun, free⟩

theorem settles_printLine (text : String) : Settles depth (fun _ => printLine text) anything := by
  refine .single fun machine deep free => ?_
  simp only [printLine]
  split
  · exact ⟨deep, free, trivial⟩
  · exact ⟨by simp, free⟩

theorem settles_flush : Settles depth (fun _ => flush) anything := by
  refine .single fun machine deep free => ?_
  unfold flush
  split
  · exact ⟨deep, free, trivial⟩
  · exact ⟨by simp, free⟩

theorem settles_callResult (closure : Closure) {flow : Flow} (harmless : flow.LoopFree) :
    Settles depth (fun _ => callResult closure flow) Value.LoopFree := by
  unfold callResult
  split
  · refine .single fun machine deep free => ⟨deep, free, ?_⟩
    cases found : machine.store.implicitAt? closure.env 0 "this" with
    | none => trivial
    | some value =>
        obtain ⟨frame, here⟩ := Store.exists_findIn?_of_implicitAt? found
        exact free.bound _ _ _ here
  · cases flow with
    | normal => exact .pure trivial
    | returned value => exact .pure harmless

theorem settles_declareClass (name : Token) {superclass : Option Class}
    (above : ∀ parent, superclass = some parent → parent.LoopFree)
    {declarations : List FunctionDecl} (free : FunctionDecl.allLoopFree declarations = true) :
    Settles depth (fun _ => declareClass name superclass declarations) anything := by
  refine .bind (settles_define _ trivial) fun _ _ => ?_
  have closes : Settles depth (fun _ => methodEnv superclass) anything := by
    cases superclass with
    | none => exact settles_env
    | some parent =>
        refine settles_env.bind fun env _ => settles_childWith env _ fun value member => ?_
        rw [List.mem_singleton.mp member]
        exact above parent rfl
  refine closes.bind fun closed _ => ?_
  have makes : Settles depth
      (fun _ => newClass name.lexeme superclass (methodTable closed declarations))
      Class.LoopFree := by
    refine .single fun machine deep kept => ⟨deep, ⟨kept.bound, kept.fields⟩,
      machine.store.every_newClass name.lexeme above fun _ _ found => ?_⟩
    obtain ⟨declaration, member, _, rfl⟩ := exists_of_find?_methodTable found
    exact FunctionDecl.isLoopFree_of_mem free member
  exact makes.bind fun cls harmless => settles_reassign name harmless

end Steps

/-! ## Trees at a depth -/

/-- Every call that is made at a depth settles. -/
def CallsSettle (depth : Nat) : Prop :=
  ∀ (paren : Token) (called : Value) (values : List Value), called.LoopFree →
    Value.AllLoopFree values →
      Settles depth (fun fuel => call fuel paren called values) Value.LoopFree

section Trees

variable {depth : Nat}

mutual

/-- **Expressions settle** at a depth where calls do. -/
theorem settles_expression (calls : CallsSettle depth) :
    ∀ found : Expr, Settles depth (fun fuel => expression fuel found) Value.LoopFree
  | .literal value => .succ (fun _ => rfl) (.pure (Value.isPlain_ofLiteral value).loopFree)
  | .grouping inner => .succ (fun _ => rfl) (settles_expression calls inner)
  | .unary operator operand => .succ (fun _ => rfl) <|
    (settles_expression calls operand).bind fun _ _ =>
      settles_lift operator fun _ result => (Operator.isPlain_unary result).loopFree
  | .binary left operator right => .succ (fun _ => rfl) <|
    (settles_expression calls left).bind fun _ _ =>
      (settles_expression calls right).bind fun _ _ =>
        settles_lift operator fun _ result => (Operator.isPlain_binary result).loopFree
  | .logical left operator right => .succ (fun _ => rfl) <|
    (settles_expression calls left).bind fun first harmless => by
      split
      · exact .pure harmless
      · exact settles_expression calls right
  | .var occurrence => .succ (fun _ => rfl) (settles_lookUp occurrence)
  | .assign occurrence value => .succ (fun _ => rfl) <|
    (settles_expression calls value).bind fun _ harmless =>
      (settles_assign occurrence harmless).bind fun _ _ => .pure harmless
  | .call callee paren arguments => .succ (fun _ => rfl) <|
    (settles_expression calls callee).bind fun called harmless =>
      (settles_expressions calls arguments).bind fun values =>
        calls paren called values harmless
  | .get object name => .succ (fun _ => rfl) <|
    (settles_expression calls object).bind fun value harmless => by
      cases value with
      | object found => exact settles_property harmless name
      | _ => exact .raise name _
  | .set object name value => .succ (fun _ => rfl) <|
    (settles_expression calls object).bind fun holder _ => by
      cases holder with
      | object found =>
          exact (settles_expression calls value).bind fun _ harmless =>
            (settles_setField found _ harmless).bind fun _ _ => .pure harmless
      | _ => exact .raise name _
  | .thisRef occurrence => .succ (fun _ => rfl) (settles_lookUp occurrence)
  | .superRef occurrence method => .succ (fun _ => rfl) (settles_superMethod occurrence method)

theorem settles_expressions (calls : CallsSettle depth) : ∀ found : List Expr,
    Settles depth (fun fuel => expressions fuel found) Value.AllLoopFree
  | [] => .succ (fun _ => rfl) (.pure nofun)
  | first :: rest => .succ (fun _ => rfl) <|
    (settles_expression calls first).bind fun _ one =>
      (settles_expressions calls rest).bind fun _ many =>
        .pure (List.forall_mem_cons.mpr ⟨one, many⟩)

end

mutual

/-- **Statements without loops settle** at a depth where calls do. -/
theorem settles_statement (calls : CallsSettle depth) : ∀ found : Stmt,
    found.isLoopFree = true → Settles depth (fun fuel => statement fuel found) Flow.LoopFree
  | .expression value, _ => .succ (fun _ => rfl) <|
    (settles_expression calls value).bind fun _ _ => .pure trivial
  | .print value, _ => .succ (fun _ => rfl) <|
    (settles_expression calls value).bind fun _ _ =>
      (settles_printLine _).bind fun _ _ => .pure trivial
  | .var name none, _ => .succ (fun _ => rfl) <|
    (settles_define _ (show Value.LoopFree .nil from trivial)).bind fun _ _ => .pure trivial
  | .var name (some initializer), _ => .succ (fun _ => rfl) <|
    (settles_expression calls initializer).bind fun _ harmless =>
      (settles_define _ harmless).bind fun _ _ => .pure trivial
  | .block body, free => .succ (fun _ => rfl) <|
    settles_env.bind fun env _ => (settles_child env).bind fun inner _ =>
      (settles_statements calls body free).within inner
  | .cond condition thenBranch none, free => .succ (fun _ => rfl) <|
    (settles_expression calls condition).bind fun value _ => by
      split
      · exact settles_statement calls thenBranch free
      · exact .pure trivial
  | .cond condition thenBranch (some elseBranch), free => .succ (fun _ => rfl) <|
    (settles_expression calls condition).bind fun value _ => by
      split
      · exact settles_statement calls thenBranch (Bool.and_eq_true_iff.mp free).1
      · exact settles_statement calls elseBranch (Bool.and_eq_true_iff.mp free).2
  | .function declaration, free => .succ (fun _ => rfl) <|
    settles_env.bind fun env _ =>
      (settles_define _ (show Value.LoopFree (.function ⟨declaration, env, false⟩) from free)).bind
        fun _ _ => .pure trivial
  | .ret _ none, _ => .succ (fun _ => rfl) (.pure trivial)
  | .ret _ (some value), _ => .succ (fun _ => rfl) <|
    (settles_expression calls value).bind fun _ harmless => .pure harmless
  | .classDecl name none declarations, free => .succ (fun _ => rfl) <|
    (settles_declareClass name (fun _ above => by cases above) free).bind fun _ _ => .pure trivial
  | .classDecl name (some superclass) declarations, free => .succ (fun _ => rfl) <|
    (settles_expression calls superclass).bind fun value harmless => by
      cases value with
      | cls parent =>
          refine (settles_declareClass name ?_ free).bind fun _ _ => .pure trivial
          rintro _ ⟨⟩
          exact harmless
      | _ => exact .raise _ _

theorem settles_statements (calls : CallsSettle depth) : ∀ found : List Stmt,
    Stmt.allLoopFree found = true →
      Settles depth (fun fuel => statements fuel found) Flow.LoopFree
  | [], _ => .succ (fun _ => rfl) (.pure trivial)
  | first :: rest, free => .succ (fun _ => rfl) <|
    (settles_statement calls first (Bool.and_eq_true_iff.mp free).1).bind fun flow harmless => by
      cases flow with
      | normal => exact settles_statements calls rest (Bool.and_eq_true_iff.mp free).2
      | returned value => exact .pure harmless

end

end Trees

/-! ## Calls -/

section Calls

variable {depth : Nat}

theorem settles_applyClosure (calls : CallsSettle depth) {closure : Closure}
    (free : closure.LoopFree) {values : List Value} (harmless : Value.AllLoopFree values) :
    Settles depth (fun fuel => applyClosure fuel closure values) Value.LoopFree := by
  have body : Stmt.allLoopFree closure.declaration.body = true := by
    obtain ⟨⟨id, name, params, body⟩, env, isInitializer⟩ := closure
    exact free
  exact .succ (fun _ => rfl) <| (settles_childWith _ _ harmless).bind fun inner _ =>
    ((settles_statements calls _ body).within inner).bind fun flow returned =>
      settles_callResult closure returned

theorem settles_apply (calls : CallsSettle depth) {callable : Callable}
    (free : callable.LoopFree) {values : List Value} (harmless : Value.AllLoopFree values) :
    Settles depth (fun fuel => apply fuel callable values) Value.LoopFree := by
  cases callable with
  | native value =>
      cases value with
      | clock => exact .succ (fun _ => rfl) (.single fun _ deep kept => ⟨deep, kept, trivial⟩)
  | function closure => exact .succ (fun _ => rfl) (settles_applyClosure calls free harmless)
  | cls cls =>
      refine .succ (fun _ => rfl) ((settles_newInstance free).bind fun object made => ?_)
      cases found : cls.findMethod? initializerName with
      | none => exact .pure made
      | some method =>
          -- the initializer runs inside the call of its class, at the same depth
          exact (settles_bindMethod (Class.Every.findMethod? free found) made).bind
            fun initializer bound => (settles_applyClosure calls bound harmless).bind fun _ _ =>
              .pure made

/-- **A call settles** if the limit is reached, or if the calls that are made
inside of it settle. -/
theorem settles_call (inner : depth < Machine.depthLimit → CallsSettle (depth + 1)) :
    CallsSettle depth := by
  intro paren called values harmless all
  cases found : called.callable? with
  | none =>
      refine .succ (fun fuel => ?_) (.raise paren .notCallable)
      rw [call, found]
  | some callable =>
      by_cases arity : values.length = callable.arity
      · have unfolds : ∀ fuel, call (fuel + 1) paren called values = (do
            checkDepth paren
            nested (apply fuel callable values)) := by
          intro fuel
          simp only [call, found, if_pos arity]
        exact .succ unfolds ((settles_checkDepth paren).bind fun _ room =>
          (settles_apply (inner room) (harmless.callable found) all).nested)
      · refine .succ (fun fuel => ?_)
          (.raise paren (.wrongArgumentCount callable.arity values.length))
        simp only [call, found, if_neg arity]

/-- Calls settle at every depth: the induction is on the calls that may still
be begun. -/
theorem callsSettle : ∀ (room depth : Nat), Machine.depthLimit ≤ depth + room → CallsSettle depth
  | 0, _, full => settles_call fun below => absurd full (Nat.not_le.mpr below)
  | room + 1, depth, le => settles_call fun _ => callsSettle room (depth + 1) (by omega)

end Calls

/-! ## Programs -/

theorem settles_topLevel (depth : Nat) : ∀ program : List Stmt, Stmt.allLoopFree program = true →
    Settles depth (fun fuel => topLevel fuel program) anything
  | [], _ => .pure trivial
  | first :: rest, free =>
    (settles_statement (callsSettle _ depth (Nat.le_add_left _ _)) first
      (Bool.and_eq_true_iff.mp free).1).bind fun _ _ =>
        settles_topLevel depth rest (Bool.and_eq_true_iff.mp free).2

theorem settles_program (depth : Nat) {found : List Stmt} (free : Stmt.allLoopFree found = true) :
    Settles depth (fun fuel => program fuel found) anything :=
  (settles_topLevel depth found free).bind fun _ _ => settles_flush

end Eval

/-! ## A function that calls itself -/

/-- A name that is called without arguments. -/
def callOf (name : String) : Stmt :=
  .expression (.call (.var ⟨0, ⟨.identifier, name, 1⟩⟩) ⟨.punct .rightParen, ")", 1⟩ [])

/-- A function that does nothing but call itself. -/
def recursion : FunctionDecl := ⟨1, ⟨.identifier, "f", 1⟩, [], [callOf "f"]⟩

def callsItself : Stmt := .function recursion

/-- What the name of the function is bound to where it is declared. -/
def itself : Closure := ⟨recursion, Env.global, false⟩

/-- The name of the function stands for it. -/
structure Machine.Recurs (machine : Machine) : Prop where
  unplaced : machine.distances = .empty
  root : machine.store.enclosing? Env.global = none
  bound : machine.store.findIn? Env.global "f" = some (.function itself)

theorem Machine.Recurs.lookUp {machine : Machine} (recurs : machine.Recurs) :
    Eval.lookUp ⟨0, ⟨.identifier, "f", 1⟩⟩ machine = .ok (.function itself) machine := by
  have found : machine.value ⟨0, ⟨.identifier, "f", 1⟩⟩ = .ok (.function itself) := by
    simp only [Machine.value, recurs.unplaced, DistanceTable.find?_empty, Store.get,
      Store.chain_of_root recurs.root, Occurrence.name, List.findSome?_cons, recurs.bound]
  rw [Eval.lookUp, found]

theorem Machine.Recurs.inBody {machine : Machine} (recurs : machine.Recurs) :
    (Machine.inBody { machine with depth := machine.depth + 1 } itself []).Recurs where
  unplaced := recurs.unplaced
  root := ((machine.store.grows_child Env.global).enclosing _
    (Store.lt_of_findIn? recurs.bound)).trans recurs.root
  bound := (machine.store.findIn?_child Env.global Env.global "f").trans recurs.bound

namespace Eval

variable {Result Other : Type}

/-- An outcome at the limit on the calls in progress, unless fuel was used up
before. -/
def Overflows : EStateM.Result Interrupt Machine Result → Prop
  | .ok _ _ => False
  | .error interrupt _ => interrupt = .outOfFuel ∨ interrupt = .fault ⟨.stackOverflow, 1⟩

theorem Overflows.bind {step : Eval Result} {machine : Machine} (first : Overflows (step machine))
    (next : Result → Eval Other) : Overflows ((step >>= next) machine) := by
  simp only [Bind.bind, EStateM.bind]
  cases ended : step machine with
  | ok result after =>
      rw [ended] at first
      exact first.elim
  | error interrupt after => rwa [ended] at first

theorem Overflows.onMachine {outcome : EStateM.Result Interrupt Machine Result}
    (overflows : Overflows outcome) (change : Machine → Machine) :
    Overflows (onMachine change outcome) := by
  cases outcome <;> exact overflows

theorem Overflows.within {step : Eval Result} {machine : Machine} {env : Env}
    (inner : Overflows (step { machine with env := env })) :
    Overflows (within env step machine) := by
  rw [within_eq]
  exact inner.onMachine _

/-- The function overflows if the call in its body does. -/
theorem overflows_apply {machine : Machine} : ∀ fuel : Nat,
    (∀ less < fuel, Overflows (statement less (callOf "f") (machine.inBody itself []))) →
      Overflows (apply fuel (.function itself) [] machine)
  | 0, _ | 1, _ | 2, _ => .inl rfl
  | fuel + 3, inner => .bind (.within (.bind (inner fuel (by omega)) _)) _

/-- A call of the function is refused at the limit and runs the function below
it. -/
theorem overflows_call {fuel : Nat} {paren : Token} (line : paren.line = 1) {machine : Machine}
    (inner : Overflows (apply fuel (.function itself) []
      { machine with depth := machine.depth + 1 })) :
    Overflows (call (fuel + 1) paren (.function itself) [] machine) := by
  show Overflows ((checkDepth paren >>= _) machine)
  by_cases full : Machine.depthLimit ≤ machine.depth
  · refine .bind ?_ _
    rw [checkDepth, if_pos full]
    exact .inr (by rw [line])
  · simp only [Bind.bind, EStateM.bind, checkDepth, if_neg full]
    rw [nested_eq]
    exact inner.onMachine _

/-- Every call of the function overflows: its body makes the same call, one call
deeper and with less fuel. -/
theorem overflows_callOf {machine : Machine} (recurs : machine.Recurs) : ∀ fuel : Nat,
    Overflows (statement fuel (callOf "f") machine)
  | 0 | 1 | 2 => .inl rfl
  | fuel + 3 => by
      refine .bind ?_ _
      simp only [expression, expressions, Bind.bind, EStateM.bind, recurs.lookUp]
      exact overflows_call rfl (overflows_apply fuel fun less _ =>
        overflows_callOf recurs.inBody less)

end Eval

/-! ## One program after another -/

/-- The machines that come about from a new one by running programs without
loops, one after another and whatever their outcome, each with a distance table
of its own. -/
inductive Machine.LoopFreeReaches (output : Sink) (clock : Nat → Float) : Machine → Prop where
  | initial : LoopFreeReaches output clock (Machine.initial output clock)
  | run {machine : Machine} (earlier : LoopFreeReaches output clock machine)
      (distances : DistanceTable) {program : List Stmt} (free : Stmt.allLoopFree program = true)
      {outcome : EStateM.Result Interrupt Machine Unit}
      (ran : Eval.Gives (fun fuel => Eval.program fuel program)
        { machine with distances := distances } outcome) :
      LoopFreeReaches output clock (Eval.reached outcome)

/-- What is reached without loops holds none. -/
theorem Machine.LoopFreeReaches.loopFree {output : Sink} {clock : Nat → Float} {machine : Machine}
    (reached : Machine.LoopFreeReaches output clock machine) : machine.store.LoopFree := by
  induction reached with
  | initial => exact .start fun _ => trivial
  | @run machine _ distances program free outcome ran kept =>
      obtain ⟨settled, gives, concluded⟩ := Eval.settles_program machine.depth free
        { machine with distances := distances } rfl kept
      rw [ran.unique gives]
      cases settled with
      | ok _ after => exact concluded.2.1
      | error _ after => exact concluded.2

/-- **Programs without loops come to an end.** Take any machine that was reached
by running programs without loops, any distance table and a program without
loops. From some amount of fuel on, the run of the program has one and the same
outcome, which is success or an error with a diagnostic. -/
theorem loop_free_programs_end {output : Sink} {clock : Nat → Float} {machine : Machine}
    (reached : Machine.LoopFreeReaches output clock machine) (distances : DistanceTable)
    {program : List Stmt} (free : Stmt.allLoopFree program = true) :
    ∃ outcome, Eval.Gives (fun fuel => Eval.program fuel program)
        { machine with distances := distances } outcome ∧
      ((∃ after, outcome = .ok () after) ∨
        ∃ interrupt diagnostic after, outcome = .error interrupt after ∧
          interrupt.diagnostic? = some diagnostic) := by
  obtain ⟨outcome, gives, concluded⟩ := Eval.settles_program machine.depth free
    { machine with distances := distances } rfl reached.loopFree
  refine ⟨outcome, gives, ?_⟩
  cases outcome with
  | ok _ after => exact .inl ⟨after, rfl⟩
  | error interrupt after =>
      refine .inr ?_
      cases interrupt with
      | fault error => exact ⟨.fault error, .runtime error, after, rfl, rfl⟩
      | output problem => exact ⟨.output problem, .output problem, after, rfl, rfl⟩
      | outOfFuel => exact absurd rfl concluded.1

/-- A function that calls itself for ever is declared by one program and called
by the next. Both come to an end, the second with a fault at the limit on the
calls in progress, which is never exceeded. -/
theorem endless_recursion_ends :
    ∃ declared, Eval.Gives (fun fuel => Eval.program fuel [callsItself])
        { Machine.initial Sink.unlimited fun _ => 0 with distances := .empty } declared ∧
      ∃ after, Eval.Gives (fun fuel => Eval.program fuel [callOf "f"])
          { Eval.reached declared with distances := .empty }
          (.error (.fault ⟨.stackOverflow, 1⟩) after) ∧
        ∀ fuel moment, Performs fuel [callOf "f"]
          { Eval.reached declared with distances := .empty } moment →
            moment.machine.depth ≤ Machine.depthLimit := by
  have fresh : Machine.LoopFreeReaches Sink.unlimited (fun _ => 0)
      (Machine.initial Sink.unlimited fun _ => 0) := .initial
  have declares : Stmt.allLoopFree [callsItself] = true := rfl
  have calls : Stmt.allLoopFree [callOf "f"] = true := rfl
  obtain ⟨declared, gives, _⟩ := loop_free_programs_end fresh .empty declares
  have begun : Machine.Recurs { Eval.reached declared with distances := .empty } ∧
      (Eval.reached declared).depth ≤ Machine.depthLimit := by
    obtain ⟨enough, same⟩ := gives
    rw [← same (enough + 1) (Nat.le_succ _)]
    exact ⟨⟨rfl, rfl, rfl⟩, Nat.zero_le _⟩
  obtain ⟨outcome, ends, ended⟩ :=
    loop_free_programs_end (.run fresh .empty declares gives) .empty calls
  have overflows : Eval.Overflows outcome := by
    obtain ⟨enough, same⟩ := ends
    rw [← same enough (Nat.le_refl _)]
    exact ((Eval.overflows_callOf begun.1 enough).bind _).bind _
  rcases ended with ⟨after, rfl⟩ | ⟨interrupt, diagnostic, after, rfl, reported⟩
  · exact overflows.elim
  · rcases overflows with rfl | rfl
    · cases reported
    · exact ⟨declared, gives, after, ends, fun _ _ performs =>
        Eval.depth_le_of_performs performs begun.2⟩

end LoxLang
