import LoxLang.Proofs.Run.LoopFree

/-!
# Expressions without functions of their own

As long as no name is bound to a function, a class or an instance, all that an
expression can call is a built-in function. Such a call writes nothing, and its
result is again a plain value. So expressions on such a store write nothing and
leave such a store (`Eval.silent_expression`).
-/

namespace LoxLang

set_option autoImplicit false

/-- Names are bound to plain values only. -/
def Store.Plain (store : Store) : Prop :=
  ∀ (frame : Env) (name : String) (value : Value),
    store.findIn? frame name = some value → value.IsPlain

namespace Store.Plain

theorem bindIn {store : Store} (plain : store.Plain) (frame : Env) (name : String) {value : Value}
    (simple : value.IsPlain) : (store.bindIn frame name value).Plain := by
  intro other found bound here
  rw [findIn?_bindIn] at here
  split at here
  · rwa [← Option.some.inj here]
  · exact plain other found bound here

/-- The built-in functions are plain values. -/
theorem initial (output : Sink) (clock : Nat → Float) :
    (Machine.initial output clock).store.Plain := by
  refine Store.Plain.bindIn (fun frame name value here => ?_) _ _ (show (Value.native _).IsPlain
    from trivial)
  rw [findIn?_initial] at here
  cases here

end Store.Plain

namespace Eval

variable {Result Other : Type}

/-- The condition on a step that ends with the output as it was, in a plain store
and with a good result, or else with a fault. -/
def Silenced (good : Result → Prop) (output : Sink) :
    EStateM.Result Interrupt Machine Result → Prop
  | .ok result after => after.output = output ∧ after.store.Plain ∧ good result
  | .error interrupt after => after.output = output ∧ ∀ problem, interrupt ≠ .output problem

/-- A step that writes nothing on a plain store. -/
def Silent (good : Result → Prop) (step : Eval Result) : Prop :=
  ∀ machine : Machine, machine.store.Plain → Silenced good machine.output (step machine)

namespace Silent

variable {good : Result → Prop} {final : Other → Prop}

theorem pure {result : Result} (holds : good result) : Silent good (Pure.pure result) :=
  fun _ plain => ⟨rfl, plain, holds⟩

theorem outOfFuel : Silent good (outOfFuel : Eval Result) :=
  fun _ _ => ⟨rfl, nofun⟩

theorem raise (token : Token) (cause : RuntimeCause) : Silent good (raise token cause) :=
  fun _ _ => ⟨rfl, nofun⟩

theorem bind {step : Eval Result} {next : Result → Eval Other} (first : Silent good step)
    (second : ∀ result, good result → Silent final (next result)) :
    Silent final (step >>= next) := by
  intro machine plain
  have early := first machine plain
  simp only [Bind.bind, EStateM.bind]
  cases ended : step machine with
  | error interrupt after => rwa [ended] at early
  | ok result after =>
      rw [ended] at early
      obtain ⟨same, kept, holds⟩ := early
      rw [← same]
      exact second result holds after kept

theorem nested {step : Eval Result} (inner : Silent good step) : Silent good (nested step) := by
  intro machine plain
  have early := inner { machine with depth := machine.depth + 1 } plain
  rw [nested_eq]
  cases ended : step { machine with depth := machine.depth + 1 } <;> rwa [ended] at early

end Silent

/-! ## The steps of the machine -/

theorem silent_lift (token : Token) {result : Except RuntimeCause Value}
    (simple : ∀ value, result = .ok value → value.IsPlain) :
    Silent Value.IsPlain (lift token result) := by
  cases result with
  | ok value => exact .pure (simple value rfl)
  | error cause => exact .raise token cause

theorem silent_checkDepth (paren : Token) : Silent (fun _ => True) (checkDepth paren) := by
  intro machine plain
  unfold checkDepth
  split
  · exact ⟨rfl, nofun⟩
  · exact ⟨rfl, plain, trivial⟩

theorem silent_lookUp (occurrence : Occurrence) : Silent Value.IsPlain (lookUp occurrence) := by
  intro machine plain
  unfold lookUp
  split
  next value found =>
    obtain ⟨frame, here⟩ := Machine.exists_findIn?_of_value found
    exact ⟨rfl, plain, plain frame _ value here⟩
  next => exact ⟨rfl, nofun⟩

theorem silent_assign (occurrence : Occurrence) {value : Value} (simple : value.IsPlain) :
    Silent (fun _ => True) (assign occurrence value) := by
  intro machine plain
  unfold assign
  split
  · exact ⟨rfl, plain.bindIn _ _ simple, trivial⟩
  · exact ⟨rfl, nofun⟩

/-- Without classes in the store there is no superclass. -/
theorem silent_superMethod (occurrence : Occurrence) (method : Token) :
    Silent Value.IsPlain (superMethod occurrence method) := by
  intro machine plain
  unfold superMethod
  split
  next => exact ⟨rfl, nofun⟩
  next parent object found =>
    obtain ⟨⟨frame, here⟩, -⟩ := Machine.exists_findIn?_of_superBinding? found
    exact (plain frame _ _ here).elim

/-- A plain value that can be called reads the clock. -/
theorem silent_apply {called : Value} (simple : called.IsPlain) {callable : Callable}
    (calls : called.callable? = some callable) (fuel : Nat) (values : List Value) :
    Silent Value.IsPlain (apply fuel callable values) := by
  cases fuel with
  | zero => exact .outOfFuel
  | succ fuel =>
      cases called with
      | native function =>
          cases calls
          cases function with
          | clock => exact fun machine plain => ⟨rfl, plain, trivial⟩
      | function closure => exact simple.elim
      | cls cls => exact simple.elim
      | _ => cases calls

theorem silent_call (fuel : Nat) (paren : Token) {called : Value} (simple : called.IsPlain)
    (values : List Value) : Silent Value.IsPlain (call fuel paren called values) := by
  cases fuel with
  | zero => exact .outOfFuel
  | succ fuel =>
      unfold call
      split
      · exact .raise paren _
      next callable calls =>
        split
        · exact (silent_checkDepth paren).bind fun _ _ =>
            (silent_apply simple calls fuel values).nested
        · exact .raise paren _

/-! ## Expressions -/

/-- A rule without fuel does nothing at all. -/
theorem Silent.fueled {good : Result → Prop} {rule step : Nat → Eval Result}
    (empty : rule 0 = Eval.outOfFuel) (unfolds : ∀ fuel, rule (fuel + 1) = step fuel)
    (silent : ∀ fuel, Silent good (step fuel)) : ∀ fuel, Silent good (rule fuel)
  | 0 => empty ▸ .outOfFuel
  | fuel + 1 => unfolds fuel ▸ silent fuel

mutual

/-- **An expression on a plain store writes nothing** and has a plain value. -/
theorem silent_expression : ∀ (found : Expr) (fuel : Nat),
    Silent Value.IsPlain (expression fuel found)
  | .literal value => .fueled rfl (fun _ => rfl) fun _ => .pure (Value.isPlain_ofLiteral value)
  | .grouping inner => .fueled rfl (fun _ => rfl) (silent_expression inner)
  | .unary operator operand => .fueled rfl (fun _ => rfl) fun fuel =>
    (silent_expression operand fuel).bind fun _ _ =>
      silent_lift operator fun _ => Operator.isPlain_unary
  | .binary left operator right => .fueled rfl (fun _ => rfl) fun fuel =>
    (silent_expression left fuel).bind fun _ _ => (silent_expression right fuel).bind fun _ _ =>
      silent_lift operator fun _ => Operator.isPlain_binary
  | .logical left operator right => .fueled rfl (fun _ => rfl) fun fuel =>
    (silent_expression left fuel).bind fun first simple => by
      split
      · exact .pure simple
      · exact silent_expression right fuel
  | .var occurrence => .fueled rfl (fun _ => rfl) fun _ => silent_lookUp occurrence
  | .assign occurrence value => .fueled rfl (fun _ => rfl) fun fuel =>
    (silent_expression value fuel).bind fun _ simple =>
      (silent_assign occurrence simple).bind fun _ _ => .pure simple
  | .call callee paren arguments => .fueled rfl (fun _ => rfl) fun fuel =>
    (silent_expression callee fuel).bind fun _ simple =>
      (silent_expressions arguments fuel).bind fun values _ => silent_call fuel paren simple values
  | .get object name => .fueled rfl (fun _ => rfl) fun fuel =>
    (silent_expression object fuel).bind fun value simple => by
      cases value with
      | object found => exact simple.elim
      | _ => exact .raise name _
  | .set object name value => .fueled rfl (fun _ => rfl) fun fuel =>
    (silent_expression object fuel).bind fun holder simple => by
      cases holder with
      | object found => exact simple.elim
      | _ => exact .raise name _
  | .thisRef occurrence => .fueled rfl (fun _ => rfl) fun _ => silent_lookUp occurrence
  | .superRef occurrence method => .fueled rfl (fun _ => rfl) fun _ =>
    silent_superMethod occurrence method

theorem silent_expressions : ∀ (found : List Expr) (fuel : Nat),
    Silent (fun _ => True) (expressions fuel found)
  | [] => .fueled rfl (fun _ => rfl) fun _ => .pure trivial
  | first :: rest => .fueled rfl (fun _ => rfl) fun fuel =>
    (silent_expression first fuel).bind fun _ _ => (silent_expressions rest fuel).bind fun _ _ =>
      .pure trivial

end

end Eval

end LoxLang
