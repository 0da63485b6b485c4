import LoxLang.Proofs.Run.Relabelling

/-!
# Runs of relabelled programs

Similar machines stay similar (`Eval.tracksAt`): a run of a tree and a run of
the relabelled tree have the same outcome up to the relabelling. New numbers
have to be different for different nodes, because functions are told apart by
them. Lines may be changed in any way. The second run may also be given more
fuel than the first, so a finished run is not changed by more fuel.
-/

namespace LoxLang

set_option autoImplicit false

/-! ## Steps that track each other -/

namespace Eval

variable {Result Other : Type} (change : Relabelling) (extra : Nat)

/-- Two outcomes that differ by a relabelling. If the second run had more fuel,
then nothing is said of a first one that had not enough. -/
def Parallel (move : Result → Result) :
    EStateM.Result Interrupt Machine Result → EStateM.Result Interrupt Machine Result → Prop
  | .ok result after, outcome =>
    ∃ reached, outcome = .ok (move result) reached ∧ after.Similar change reached
  | .error interrupt after, outcome =>
    (interrupt = .outOfFuel ∧ extra ≠ 0) ∨
      ∃ reached, outcome = .error (interrupt.relabel change) reached ∧
        after.Similar change reached

/-- From similar machines two steps have outcomes that differ by a
relabelling. -/
def Tracks (move : Result → Result) (step other : Eval Result) : Prop :=
  ∀ machine twin : Machine, machine.Similar change twin →
    Parallel change extra move (step machine) (other twin)

variable {change extra}

theorem Parallel.onMachine {move : Result → Result}
    {outcome other : EStateM.Result Interrupt Machine Result}
    (parallel : Parallel change extra move outcome other) {back putBack : Machine → Machine}
    (similar : ∀ {after reached : Machine}, after.Similar change reached →
      (back after).Similar change (putBack reached)) :
    Parallel change extra move (Eval.onMachine back outcome) (Eval.onMachine putBack other) := by
  cases outcome with
  | error interrupt after =>
      refine parallel.imp_right fun ⟨reached, same, alike⟩ => ?_
      exact ⟨putBack reached, by rw [same]; rfl, similar alike⟩
  | ok result after =>
      obtain ⟨reached, rfl, alike⟩ := parallel
      exact ⟨putBack reached, rfl, similar alike⟩

namespace Tracks

variable {move : Result → Result} {shift : Other → Other}

theorem pure (result : Result) :
    Tracks change extra move (Pure.pure result) (Pure.pure (move result)) :=
  fun _ twin similar => ⟨twin, rfl, similar⟩

theorem bind {step other : Eval Result} {next following : Result → Eval Other}
    (first : Tracks change extra move step other)
    (second : ∀ result, Tracks change extra shift (next result) (following (move result))) :
    Tracks change extra shift (step >>= next) (other >>= following) := by
  intro machine twin similar
  have early := first machine twin similar
  simp only [Bind.bind, EStateM.bind]
  cases ran : step machine with
  | error interrupt after =>
      rw [ran] at early
      rcases early with starved | ⟨reached, same, alike⟩
      · exact .inl starved
      · rw [same]
        exact .inr ⟨reached, rfl, alike⟩
  | ok result after =>
      rw [ran] at early
      obtain ⟨reached, same, alike⟩ := early
      rw [same]
      exact second result after reached alike

theorem map {step other : Eval Result} {wrap : Result → Other}
    (first : Tracks change extra move step other)
    (commutes : ∀ result, wrap (move result) = shift (wrap result)) :
    Tracks change extra shift (wrap <$> step) (wrap <$> other) := by
  rw [map_eq_pure_bind, map_eq_pure_bind]
  refine first.bind fun result => ?_
  rw [commutes]
  exact .pure _

theorem within {step other : Eval Result} (env : Env)
    (inner : Tracks change extra move step other) :
    Tracks change extra move (Eval.within env step) (Eval.within env other) := by
  intro machine twin similar
  have early := inner { machine with env := env } { twin with env := env }
    { similar with env := rfl }
  rw [within_eq, within_eq]
  exact early.onMachine fun alike => { alike with env := similar.env }

theorem nested {step other : Eval Result} (inner : Tracks change extra move step other) :
    Tracks change extra move (Eval.nested step) (Eval.nested other) := by
  intro machine twin similar
  have early := inner { machine with depth := machine.depth + 1 }
    { twin with depth := twin.depth + 1 }
    { similar with depth := congrArg (· + 1) similar.depth }
  rw [nested_eq, nested_eq]
  exact early.onMachine fun alike => { alike with depth := congrArg (· - 1) alike.depth }

end Tracks

/-! ### The steps of the machine -/

section Steps

variable {move : Result → Result}

/-- A rule without fuel promises nothing to one with more. -/
theorem tracks_outOfFuel (rule : Nat → Eval Result) (empty : rule 0 = outOfFuel) :
    Tracks change extra move outOfFuel (rule (extra + 0)) := by
  intro machine twin similar
  by_cases more : extra = 0
  · subst more
    exact .inr ⟨twin, by rw [empty]; rfl, similar⟩
  · exact .inl ⟨rfl, more⟩

theorem tracks_raise (token : Token) (cause : RuntimeCause) :
    Tracks change extra move (raise token cause) (raise (token.relabel change) cause) :=
  fun _ twin similar => .inr ⟨twin, rfl, similar⟩

theorem tracks_lift (token : Token) (result : Except RuntimeCause Value) :
    Tracks change extra (Value.relabel change) (lift token result)
      (lift (token.relabel change) (result.map (Value.relabel change))) := by
  cases result with
  | ok value => exact .pure value
  | error cause => exact tracks_raise token cause

theorem tracks_env : Tracks change extra id env env :=
  fun _ twin similar => ⟨twin, by rw [env, similar.env]; rfl, similar⟩

theorem tracks_checkDepth (paren : Token) :
    Tracks change extra id (checkDepth paren) (checkDepth (paren.relabel change)) := by
  intro machine twin similar
  unfold checkDepth
  rw [similar.depth]
  split
  · exact tracks_raise paren _ machine twin similar
  · exact ⟨twin, rfl, similar⟩

theorem tracks_lookUp (occurrence : Occurrence) :
    Tracks change extra (Value.relabel change) (lookUp occurrence)
      (lookUp (occurrence.relabel change)) := by
  intro machine twin similar
  simp only [lookUp, similar.value]
  cases machine.value occurrence with
  | ok value => exact ⟨twin, rfl, similar⟩
  | error cause => exact .inr ⟨twin, rfl, similar⟩

theorem tracks_assign (occurrence : Occurrence) (value : Value) :
    Tracks change extra id (assign occurrence value)
      (assign (occurrence.relabel change) (value.relabel change)) := by
  intro machine twin similar
  simp only [assign, similar.target]
  cases machine.target occurrence with
  | ok frame =>
      refine ⟨_, rfl, ?_⟩
      rw [similar.store, Occurrence.name_relabel, ← Store.relabel_bindIn]
      exact similar.withStore _
  | error cause => exact .inr ⟨twin, rfl, similar⟩

theorem tracks_define (name : String) (value : Value) :
    Tracks change extra id (define name value) (define name (value.relabel change)) := by
  intro machine twin similar
  have stores : twin.store.define twin.env name (value.relabel change) =
      (machine.store.define machine.env name value).relabel change := by
    rw [similar.store, similar.env]
    exact (Store.relabel_bindIn change _ _ _ _).symm
  refine ⟨_, rfl, ?_⟩
  rw [stores]
  exact similar.withStore _

theorem tracks_reassign (name : Token) (value : Value) :
    Tracks change extra id (reassign name value)
      (reassign (name.relabel change) (value.relabel change)) := by
  intro machine twin similar
  simp only [reassign, similar.store, similar.env, Store.holder_relabel, Token.lexeme_relabel]
  cases machine.store.holder machine.env name.lexeme with
  | ok frame =>
      exact ⟨_, rfl,
        { similar with store := (Store.relabel_bindIn change _ _ _ _).symm, env := rfl }⟩
  | error cause => exact tracks_raise name cause machine twin similar

theorem tracks_child (env : Env) : Tracks change extra id (child env) (child env) := by
  intro machine twin similar
  simp only [child, similar.store, Store.relabel_child]
  exact ⟨_, rfl, similar.withStore _⟩

theorem tracks_childWith (env : Env) (names : List String) (values : List Value) :
    Tracks change extra id (childWith env names values)
      (childWith env names (values.map (Value.relabel change))) := by
  intro machine twin similar
  simp only [childWith, similar.store, Store.relabel_child, ← Store.relabel_defineAll]
  exact ⟨_, rfl, similar.withStore _⟩

theorem tracks_newClass (name : String) (superclass : Option Class) (own : MethodTable) :
    Tracks change extra (Class.relabel change) (newClass name superclass own)
      (newClass name (superclass.map (Class.relabel change))
        (own.mapBound (Closure.relabel change))) := by
  intro machine twin similar
  simp only [newClass, similar.store, Store.relabel_newClass]
  exact ⟨_, rfl, similar.withStore _⟩

theorem tracks_newInstance (cls : Class) :
    Tracks change extra (Instance.relabel change) (newInstance cls)
      (newInstance (cls.relabel change)) := by
  intro machine twin similar
  simp only [newInstance, similar.store, Store.relabel_newInstance]
  exact ⟨_, rfl, similar.withStore _⟩

theorem tracks_bindMethod (method : Closure) (object : Instance) :
    Tracks change extra (Closure.relabel change) (bindMethod method object)
      (bindMethod (method.relabel change) (object.relabel change)) := by
  intro machine twin similar
  simp only [bindMethod, similar.store, Store.relabel_bindMethod]
  exact ⟨_, rfl, similar.withStore _⟩

/-- A bound method as a value. -/
theorem tracks_boundMethod (method : Closure) (object : Instance) :
    Tracks change extra (Value.relabel change) (Value.function <$> bindMethod method object)
      (Value.function <$> bindMethod (method.relabel change) (object.relabel change)) :=
  (tracks_bindMethod method object).map fun _ => rfl

theorem tracks_property (object : Instance) (name : Token) :
    Tracks change extra (Value.relabel change) (property object name)
      (property (object.relabel change) (name.relabel change)) := by
  intro machine twin similar
  simp only [property, similar.store, Store.field?_relabel, Token.lexeme_relabel]
  cases machine.store.field? object name.lexeme with
  | some value => exact ⟨twin, rfl, similar⟩
  | none =>
      have methods : (object.relabel change).cls.findMethod? name.lexeme =
          (object.cls.findMethod? name.lexeme).map (Closure.relabel change) :=
        object.cls.findMethod?_relabel change name.lexeme
      simp only [Option.map_none, methods]
      cases object.cls.findMethod? name.lexeme with
      | some method =>
          exact tracks_boundMethod method object machine twin similar
      | none => exact tracks_raise name _ machine twin similar

theorem tracks_setField (object : Instance) (name : String) (value : Value) :
    Tracks change extra id (setField object name value)
      (setField (object.relabel change) name (value.relabel change)) := by
  intro machine twin similar
  refine ⟨_, rfl, ?_⟩
  rw [similar.store, ← Store.relabel_setField]
  exact similar.withStore _

theorem tracks_superMethod (occurrence : Occurrence) (method : Token) :
    Tracks change extra (Value.relabel change) (superMethod occurrence method)
      (superMethod (occurrence.relabel change) (method.relabel change)) := by
  intro machine twin similar
  simp only [superMethod, similar.superBinding?, Token.lexeme_relabel]
  cases machine.superBinding? occurrence with
  | none => exact .inr ⟨twin, rfl, similar⟩
  | some found =>
      obtain ⟨parent, object⟩ := found
      simp only [Option.map_some, Class.findMethod?_relabel]
      cases parent.findMethod? method.lexeme with
      | some inherited =>
          exact tracks_boundMethod inherited object machine twin similar
      | none => exact tracks_raise method _ machine twin similar

theorem tracks_printLine (text : String) :
    Tracks change extra id (printLine text) (printLine text) := by
  intro machine twin similar
  simp only [printLine, similar.output]
  split
  · exact ⟨_, rfl, { similar with output := rfl }⟩
  · exact .inr ⟨_, rfl, { similar with output := rfl }⟩

theorem tracks_flush : Tracks change extra id flush flush := by
  intro machine twin similar
  simp only [flush, similar.output]
  split
  · exact ⟨twin, rfl, similar⟩
  · exact .inr ⟨twin, rfl, similar⟩

theorem tracks_readClock : Tracks change extra id readClock readClock := by
  intro machine twin similar
  simp only [readClock, similar.clock, similar.readings]
  exact ⟨_, rfl, { similar with clock := rfl, readings := rfl }⟩

theorem tracks_methodEnv (superclass : Option Class) :
    Tracks change extra id (methodEnv superclass)
      (methodEnv (superclass.map (Class.relabel change))) := by
  cases superclass with
  | none => exact tracks_env
  | some parent => exact tracks_env.bind fun env => tracks_childWith env ["super"] [.cls parent]

/-- The table of relabelled methods. -/
theorem methodTable_relabel (env : Env) (declarations : List FunctionDecl) :
    methodTable env (FunctionDecl.relabelAll change declarations) =
      (methodTable env declarations).mapBound (Closure.relabel change) := by
  have general : ∀ (declarations : List FunctionDecl) (table : MethodTable),
      (FunctionDecl.relabelAll change declarations).foldl (fun table declaration =>
          table.insert declaration.name.lexeme
            (⟨declaration, env, declaration.isInitializer⟩ : Closure))
          (table.mapBound (Closure.relabel change)) =
        Bindings.mapBound (Closure.relabel change) (declarations.foldl
          (fun table declaration => table.insert declaration.name.lexeme
            (⟨declaration, env, declaration.isInitializer⟩ : Closure)) table) := by
    intro declarations
    induction declarations with
    | nil => exact fun _ => rfl
    | cons first rest ih =>
        intro table
        simp only [FunctionDecl.relabelAll, List.foldl_cons, ← ih, Bindings.mapBound_insert,
          Closure.relabel, FunctionDecl.name_relabel, Token.lexeme_relabel,
          FunctionDecl.isInitializer_relabel]
  exact general declarations []

theorem tracks_declareClass (name : Token) (superclass : Option Class)
    (declarations : List FunctionDecl) :
    Tracks change extra id (declareClass name superclass declarations)
      (declareClass (name.relabel change) (superclass.map (Class.relabel change))
        (FunctionDecl.relabelAll change declarations)) := by
  refine (tracks_define name.lexeme .nil).bind fun _ =>
    (tracks_methodEnv superclass).bind fun closed => ?_
  rw [id, methodTable_relabel]
  exact (tracks_newClass _ _ _).bind fun cls => tracks_reassign name (.cls cls)

theorem tracks_callResult (closure : Closure) (flow : Flow) :
    Tracks change extra (Value.relabel change) (callResult closure flow)
      (callResult (closure.relabel change) (flow.relabel change)) := by
  obtain ⟨declaration, env, isInitializer⟩ := closure
  cases isInitializer with
  | true =>
      intro machine twin similar
      refine ⟨twin, ?_, similar⟩
      have bound : (twin.store.implicitAt? env 0 "this").getD .nil =
          ((machine.store.implicitAt? env 0 "this").getD .nil).relabel change := by
        rw [similar.store, Store.implicitAt?_relabel]
        cases machine.store.implicitAt? env 0 "this" <;> rfl
      exact congrArg (EStateM.Result.ok · twin) bound
  | false =>
      cases flow with
      | normal => exact .pure _
      | returned value => exact .pure value

end Steps

/-! ## The rules of evaluation -/

theorem superclassToken_relabel (name : Token) (superclass : Expr) :
    superclassToken (name.relabel change) (superclass.relabel change) =
      (superclassToken name superclass).relabel change := by
  cases superclass <;> rfl

variable (change extra)

/-- With a certain amount of fuel, every rule is tracked by the rule for the
relabelled tree. -/
structure TracksAt (fuel : Nat) : Prop where
  expression : ∀ found, Tracks change extra (Value.relabel change) (expression fuel found)
    (expression (extra + fuel) (found.relabel change))
  expressions : ∀ found, Tracks change extra (List.map (Value.relabel change))
    (expressions fuel found) (expressions (extra + fuel) (Expr.relabelAll change found))
  call : ∀ paren called values, Tracks change extra (Value.relabel change)
    (call fuel paren called values)
    (call (extra + fuel) (paren.relabel change) (called.relabel change)
      (values.map (Value.relabel change)))
  apply : ∀ callable values, Tracks change extra (Value.relabel change)
    (apply fuel callable values)
    (apply (extra + fuel) (callable.relabel change) (values.map (Value.relabel change)))
  applyClosure : ∀ closure values, Tracks change extra (Value.relabel change)
    (applyClosure fuel closure values)
    (applyClosure (extra + fuel) (closure.relabel change) (values.map (Value.relabel change)))
  statement : ∀ found, Tracks change extra (Flow.relabel change) (statement fuel found)
    (statement (extra + fuel) (found.relabel change))
  statements : ∀ found, Tracks change extra (Flow.relabel change) (statements fuel found)
    (statements (extra + fuel) (Stmt.relabelAll change found))
  rounds : ∀ condition body, Tracks change extra (Flow.relabel change)
    (rounds fuel condition body)
    (rounds (extra + fuel) (condition.relabel change) (body.relabel change))

variable {change extra}

namespace TracksAt

variable {fuel : Nat}

theorem zero : TracksAt change extra 0 where
  expression found := tracks_outOfFuel (fun fuel =>
    Eval.expression fuel (found.relabel change)) rfl
  expressions found := tracks_outOfFuel (fun fuel =>
    Eval.expressions fuel (Expr.relabelAll change found)) rfl
  call paren called values := tracks_outOfFuel (fun fuel =>
    Eval.call fuel (paren.relabel change) (called.relabel change)
      (values.map (Value.relabel change))) rfl
  apply callable values := tracks_outOfFuel (fun fuel =>
    Eval.apply fuel (callable.relabel change) (values.map (Value.relabel change))) rfl
  applyClosure closure values := tracks_outOfFuel (fun fuel =>
    Eval.applyClosure fuel (closure.relabel change) (values.map (Value.relabel change))) rfl
  statement found := tracks_outOfFuel (fun fuel =>
    Eval.statement fuel (found.relabel change)) rfl
  statements found := tracks_outOfFuel (fun fuel =>
    Eval.statements fuel (Stmt.relabelAll change found)) rfl
  rounds condition body := tracks_outOfFuel (fun fuel =>
    Eval.rounds fuel (condition.relabel change) (body.relabel change)) rfl

theorem expression_succ (faithful : Function.Injective change.id)
    (less : TracksAt change extra fuel) (found : Expr) :
    Tracks change extra (Value.relabel change) (Eval.expression (fuel + 1) found)
      (Eval.expression (extra + (fuel + 1)) (found.relabel change)) := by
  cases found with
  | literal value =>
      have kept := Value.relabel_ofLiteral change value
      exact fun _ twin similar => ⟨twin, by rw [kept]; rfl, similar⟩
  | grouping inner => exact less.expression inner
  | unary operator operand =>
      refine (less.expression operand).bind fun value => ?_
      rw [Operator.unary_relabel]
      exact tracks_lift operator _
  | binary left operator right =>
      refine (less.expression left).bind fun first => (less.expression right).bind fun second => ?_
      rw [Operator.binary_relabel faithful]
      exact tracks_lift operator _
  | logical left operator right =>
      refine (less.expression left).bind fun first => ?_
      rw [Operator.settles_relabel]
      split
      · exact .pure first
      · exact less.expression right
  | var occurrence => exact tracks_lookUp occurrence
  | assign occurrence value =>
      exact (less.expression value).bind fun assigned =>
        (tracks_assign occurrence assigned).bind fun _ => .pure assigned
  | call callee paren arguments =>
      exact (less.expression callee).bind fun called =>
        (less.expressions arguments).bind fun values => less.call paren called values
  | get object name =>
      refine (less.expression object).bind fun value => ?_
      cases value with
      | object found => exact tracks_property found name
      | _ => exact tracks_raise name _
  | set object name value =>
      refine (less.expression object).bind fun holder => ?_
      cases holder with
      | object found =>
          exact (less.expression value).bind fun assigned =>
            (tracks_setField found name.lexeme assigned).bind fun _ => .pure assigned
      | _ => exact tracks_raise name _
  | thisRef occurrence => exact tracks_lookUp occurrence
  | superRef occurrence method => exact tracks_superMethod occurrence method

theorem expressions_succ (less : TracksAt change extra fuel) (found : List Expr) :
    Tracks change extra (List.map (Value.relabel change)) (Eval.expressions (fuel + 1) found)
      (Eval.expressions (extra + (fuel + 1)) (Expr.relabelAll change found)) := by
  cases found with
  | nil => exact .pure []
  | cons first rest =>
      exact (less.expression first).bind fun value => (less.expressions rest).bind fun values =>
        .pure (value :: values)

theorem call_succ (less : TracksAt change extra fuel) (paren : Token) (called : Value)
    (values : List Value) :
    Tracks change extra (Value.relabel change) (Eval.call (fuel + 1) paren called values)
      (Eval.call (extra + (fuel + 1)) (paren.relabel change) (called.relabel change)
        (values.map (Value.relabel change))) := by
  rw [← Nat.add_assoc]
  simp only [Eval.call, Value.callable?_relabel]
  cases called.callable? with
  | none => exact tracks_raise paren _
  | some callable =>
      simp only [Option.map_some, List.length_map, Callable.arity_relabel]
      split
      · exact (tracks_checkDepth paren).bind fun _ => (less.apply callable values).nested
      · exact tracks_raise paren _

theorem apply_succ (less : TracksAt change extra fuel) (callable : Callable)
    (values : List Value) :
    Tracks change extra (Value.relabel change) (Eval.apply (fuel + 1) callable values)
      (Eval.apply (extra + (fuel + 1)) (callable.relabel change)
        (values.map (Value.relabel change))) := by
  cases callable with
  | native value =>
      cases value with
      | clock => exact tracks_readClock.map fun _ => rfl
  | function closure => exact less.applyClosure closure values
  | cls cls =>
      refine (tracks_newInstance cls).bind fun object => ?_
      rw [Class.findMethod?_relabel]
      cases cls.findMethod? initializerName with
      | none => exact .pure (Value.object object)
      | some method =>
          exact (tracks_bindMethod method object).bind fun initializer =>
            (less.applyClosure initializer values).bind fun _ => .pure (Value.object object)

theorem applyClosure_succ (less : TracksAt change extra fuel) (closure : Closure)
    (values : List Value) :
    Tracks change extra (Value.relabel change) (Eval.applyClosure (fuel + 1) closure values)
      (Eval.applyClosure (extra + (fuel + 1)) (closure.relabel change)
        (values.map (Value.relabel change))) := by
  have names : (closure.relabel change).declaration.params.map Token.lexeme =
      closure.declaration.params.map Token.lexeme := by
    simp [Closure.relabel]
  have body : (closure.relabel change).declaration.body =
      Stmt.relabelAll change closure.declaration.body :=
    FunctionDecl.body_relabel change _
  rw [← Nat.add_assoc]
  simp only [Eval.applyClosure, names, body]
  exact (tracks_childWith _ _ values).bind fun inner =>
    ((less.statements _).within inner).bind fun flow => tracks_callResult closure flow

theorem statement_succ (less : TracksAt change extra fuel) (found : Stmt) :
    Tracks change extra (Flow.relabel change) (Eval.statement (fuel + 1) found)
      (Eval.statement (extra + (fuel + 1)) (found.relabel change)) := by
  cases found with
  | expression value => exact (less.expression value).bind fun _ => .pure Flow.normal
  | print value =>
      refine (less.expression value).bind fun printed => ?_
      rw [Value.text_relabel]
      exact (tracks_printLine _).bind fun _ => .pure Flow.normal
  | var name initializer =>
      cases initializer with
      | none => exact (tracks_define name.lexeme .nil).bind fun _ => .pure Flow.normal
      | some value =>
          exact (less.expression value).bind fun bound =>
            (tracks_define name.lexeme bound).bind fun _ => .pure Flow.normal
  | block body =>
      exact tracks_env.bind fun env => (tracks_child env).bind fun inner =>
        (less.statements body).within inner
  | cond condition thenBranch elseBranch =>
      rw [Stmt.relabel_cond]
      refine (less.expression condition).bind fun value => ?_
      rw [Value.isTruthy_relabel]
      split
      · exact less.statement thenBranch
      · cases elseBranch with
        | none => exact .pure Flow.normal
        | some branch => exact less.statement branch
  | loop condition body => exact less.rounds condition body
  | function declaration =>
      refine tracks_env.bind fun env => ?_
      have made : Tracks change extra id
          (define declaration.name.lexeme (.function ⟨declaration, env, false⟩))
          (define declaration.name.lexeme (.function ⟨declaration.relabel change, env, false⟩)) :=
        tracks_define _ _
      rw [FunctionDecl.name_relabel]
      exact made.bind fun _ => .pure Flow.normal
  | ret keyword value =>
      cases value with
      | none => exact .pure (Flow.returned .nil)
      | some found =>
          exact (less.expression found).bind fun returned => .pure (Flow.returned returned)
  | classDecl name superclass declarations =>
      cases superclass with
      | none => exact (tracks_declareClass name none declarations).bind fun _ => .pure Flow.normal
      | some found =>
          refine (less.expression found).bind fun value => ?_
          cases value with
          | cls parent =>
              exact (tracks_declareClass name (some parent) declarations).bind fun _ =>
                .pure Flow.normal
          | _ =>
              simp only [Value.relabel, superclassToken_relabel]
              exact tracks_raise _ _

theorem statements_succ (less : TracksAt change extra fuel) (found : List Stmt) :
    Tracks change extra (Flow.relabel change) (Eval.statements (fuel + 1) found)
      (Eval.statements (extra + (fuel + 1)) (Stmt.relabelAll change found)) := by
  cases found with
  | nil => exact .pure Flow.normal
  | cons first rest =>
      refine (less.statement first).bind fun flow => ?_
      cases flow with
      | normal => exact less.statements rest
      | returned value => exact .pure (Flow.returned value)

theorem rounds_succ (less : TracksAt change extra fuel) (condition : Expr) (body : Stmt) :
    Tracks change extra (Flow.relabel change) (Eval.rounds (fuel + 1) condition body)
      (Eval.rounds (extra + (fuel + 1)) (condition.relabel change) (body.relabel change)) := by
  refine (less.expression condition).bind fun value => ?_
  rw [Value.isTruthy_relabel]
  split
  · refine (less.statement body).bind fun flow => ?_
    cases flow with
    | normal => exact less.rounds condition body
    | returned result => exact .pure (Flow.returned result)
  · exact .pure Flow.normal

end TracksAt

/-- **A run of a relabelled tree is the relabelled run**, whatever the fuel and
however much more of it the second run is given. -/
theorem tracksAt (faithful : Function.Injective change.id) : ∀ fuel, TracksAt change extra fuel
  | 0 => .zero
  | fuel + 1 =>
    have less := tracksAt faithful fuel
    { expression := less.expression_succ faithful
      expressions := less.expressions_succ
      call := less.call_succ
      apply := less.apply_succ
      applyClosure := less.applyClosure_succ
      statement := less.statement_succ
      statements := less.statements_succ
      rounds := less.rounds_succ }

theorem tracks_topLevel (faithful : Function.Injective change.id) (fuel : Nat)
    (found : List Stmt) : Tracks change extra id (topLevel fuel found)
      (topLevel (extra + fuel) (Stmt.relabelAll change found)) := by
  induction found with
  | nil => exact .pure ()
  | cons first rest ih => exact ((tracksAt faithful fuel).statement first).bind fun _ => ih

theorem tracks_program (faithful : Function.Injective change.id) (fuel : Nat)
    (found : List Stmt) : Tracks change extra id (program fuel found)
      (program (extra + fuel) (Stmt.relabelAll change found)) :=
  (tracks_topLevel faithful fuel found).bind fun _ => tracks_flush

end Eval

end LoxLang
