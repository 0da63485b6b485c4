import LoxLang.Proofs.ControlState
import LoxLang.Proofs.Run.Moments

/-!
# Runs on a sink with a limit

A run never looks at its output. So a run whose output has a limit does the same
as the run without one, up to the first line that does not fit. There it stops, and
it has written the bytes of the other run up to the limit (`Eval.Follows`).

The two runs are compared along the moments of the run without a limit
(`Eval.limitedAt`). Among these is the one at which a line is printed across the
limit (`Moment.Crosses`), and what the other run has done to the store when it
stops is what had been done to it at that moment.
-/

namespace LoxLang

set_option autoImplicit false

/-! ## Sinks with and without a limit -/

namespace Sink

/-- The sink with a limit on all its bytes, those included that it has taken. -/
def capped (limit : Nat) (sink : Sink) : Sink :=
  { sink with room := some (limit - sink.written.size) }

/-- A sink without a limit has taken more bytes. -/
structure Continues (before after : Sink) : Prop where
  room : after.room = none
  written : ∃ more, after.written = before.written ++ more

variable {before middle after sink : Sink} {limit : Nat}

namespace Continues

theorem refl (free : sink.room = none) : sink.Continues sink :=
  ⟨free, ByteArray.empty, ByteArray.append_empty.symm⟩

theorem trans (earlier : before.Continues middle) (later : middle.Continues after) :
    before.Continues after := by
  obtain ⟨-, one, early⟩ := earlier
  obtain ⟨room, other, late⟩ := later
  exact ⟨room, one ++ other, by rw [late, early, ByteArray.append_assoc]⟩

theorem size_le (continues : before.Continues after) :
    before.written.size ≤ after.written.size := by
  obtain ⟨more, same⟩ := continues.written
  rw [same, ByteArray.size_append]
  exact Nat.le_add_right _ _

/-- The first bytes stay what they are. -/
theorem extract (continues : before.Continues after) (taken : limit ≤ before.written.size) :
    after.written.extract 0 limit = before.written.extract 0 limit := by
  obtain ⟨more, same⟩ := continues.written
  rw [same, ByteArray.extract_append, Nat.sub_eq_zero_of_le taken]
  simp

end Continues

theorem continues_write (free : sink.room = none) (text : String) :
    sink.Continues (sink.write text) := by
  rw [write_of_unlimited free]
  exact ⟨free, text.toUTF8, rfl⟩

theorem extract_of_size_le {bytes : ByteArray} (fits : bytes.size ≤ limit) :
    bytes.extract 0 limit = bytes := by
  have none : bytes.extract bytes.size limit = ByteArray.empty := by
    rw [← ByteArray.size_eq_zero_iff, ByteArray.size_extract]
    omega
  rw [ByteArray.extract_eq_extract_append_extract bytes.size (Nat.zero_le _) fits,
    ByteArray.extract_zero_size, none, ByteArray.append_empty]

theorem fits_capped (free : sink.room = none) (inside : sink.written.size ≤ limit)
    (text : String) :
    (sink.capped limit).fits text = true ↔ (sink.write text).written.size ≤ limit := by
  have size : text.toUTF8.size = text.utf8ByteSize := rfl
  rw [write_of_unlimited free]
  simp only [fits, capped, ByteArray.size_append, decide_eq_true_eq]
  omega

/-- A text that fits is taken whole. -/
theorem write_capped (free : sink.room = none) {text : String}
    (fits : (sink.write text).written.size ≤ limit) :
    (sink.capped limit).write text = (sink.write text).capped limit := by
  rw [write_of_unlimited free] at fits ⊢
  simp only [ByteArray.size_append] at fits
  have whole : text.toUTF8.extract 0 (limit - sink.written.size) = text.toUTF8 :=
    extract_of_size_le (by omega)
  simp only [write, capped, whole, ByteArray.size_append, Nat.sub_sub]

/-- Of every text the bytes up to the limit are taken. -/
theorem written_write_capped (free : sink.room = none) (inside : sink.written.size ≤ limit)
    (text : String) :
    ((sink.capped limit).write text).written = (sink.write text).written.extract 0 limit := by
  rw [write_of_unlimited free]
  simp only [write, capped, ByteArray.extract_append, Nat.zero_sub, extract_of_size_le inside]

end Sink

namespace Machine

/-- The machine with another output. -/
def withOutput (machine : Machine) (sink : Sink) : Machine := { machine with output := sink }

/-- The machine with a limit on its output. -/
def capped (limit : Nat) (machine : Machine) : Machine :=
  machine.withOutput (machine.output.capped limit)

end Machine

namespace Eval

variable {Result Other : Type}

/-! ## Steps that do not look at the output -/

/-- A step that does the same on any output and leaves it alone. -/
def Blind (step : Eval Result) : Prop :=
  ∀ (machine : Machine) (sink : Sink),
    step (machine.withOutput sink) = onMachine (·.withOutput sink) (step machine)

namespace Blind

theorem pure (result : Result) : Blind (Pure.pure result : Eval Result) := fun _ _ => rfl

theorem bind {step : Eval Result} {next : Result → Eval Other} (first : Blind step)
    (second : ∀ result, Blind (next result)) : Blind (step >>= next) := by
  intro machine sink
  simp only [Bind.bind, EStateM.bind, first machine sink]
  cases step machine with
  | ok result after => exact second result after sink
  | error interrupt after => rfl

theorem map {step : Eval Result} (first : Blind step) (change : Result → Other) :
    Blind (change <$> step) := by
  intro machine sink
  simp only [Functor.map, EStateM.map, first machine sink]
  cases step machine <;> rfl

/-- The output is left as it was found. -/
theorem output {step : Eval Result} (blind : Blind step) (machine : Machine) :
    (reached (step machine)).output = machine.output := by
  have same := blind machine machine.output
  rw [show machine.withOutput machine.output = machine from rfl] at same
  rw [same]
  cases step machine <;> rfl

end Blind

theorem blind_raise (token : Token) (cause : RuntimeCause) :
    Blind (raise token cause : Eval Result) := fun _ _ => rfl

theorem blind_lift (token : Token) (result : Except RuntimeCause Value) :
    Blind (lift token result) := by
  cases result with
  | ok value => exact .pure value
  | error cause => exact blind_raise token cause

theorem blind_checkDepth (paren : Token) : Blind (checkDepth paren) := by
  intro machine sink
  have same : (machine.withOutput sink).depth = machine.depth := rfl
  simp only [checkDepth, same]
  split <;> rfl

theorem blind_lookUp (occurrence : Occurrence) : Blind (lookUp occurrence) := by
  intro machine sink
  have same : (machine.withOutput sink).value occurrence = machine.value occurrence := rfl
  simp only [lookUp, same]
  cases machine.value occurrence <;> rfl

theorem blind_assign (occurrence : Occurrence) (value : Value) :
    Blind (assign occurrence value) := by
  intro machine sink
  have same : (machine.withOutput sink).target occurrence = machine.target occurrence := rfl
  simp only [assign, same]
  cases machine.target occurrence <;> rfl

theorem blind_define (name : String) (value : Value) : Blind (define name value) :=
  fun _ _ => rfl

theorem blind_reassign (name : Token) (value : Value) : Blind (reassign name value) := by
  intro machine sink
  simp only [reassign, Machine.withOutput]
  cases machine.store.holder machine.env name.lexeme <;> rfl

theorem blind_bindMethod (method : Closure) (object : Instance) :
    Blind (bindMethod method object) := fun _ _ => rfl

theorem blind_property (object : Instance) (name : Token) : Blind (property object name) := by
  intro machine sink
  simp only [property, Machine.withOutput]
  cases machine.store.field? object name.lexeme with
  | some value => rfl
  | none =>
      cases object.cls.findMethod? name.lexeme with
      | some method => exact (blind_bindMethod method object).map _ machine sink
      | none => rfl

theorem blind_superMethod (occurrence : Occurrence) (method : Token) :
    Blind (superMethod occurrence method) := by
  intro machine sink
  have same : (machine.withOutput sink).superBinding? occurrence =
      machine.superBinding? occurrence := rfl
  simp only [superMethod, same]
  cases machine.superBinding? occurrence with
  | none => rfl
  | some found =>
      obtain ⟨parent, object⟩ := found
      dsimp only
      cases parent.findMethod? method.lexeme with
      | some inherited => exact (blind_bindMethod inherited object).map _ machine sink
      | none => rfl

theorem blind_methodEnv (superclass : Option Class) : Blind (methodEnv superclass) := by
  cases superclass with
  | none | some parent => exact fun _ _ => rfl

theorem blind_declareClass (name : Token) (superclass : Option Class)
    (declarations : List FunctionDecl) : Blind (declareClass name superclass declarations) :=
  (blind_define _ _).bind fun _ => (blind_methodEnv superclass).bind fun _ =>
    Blind.bind (fun _ _ => rfl) fun _ => blind_reassign _ _

theorem blind_callResult (closure : Closure) (flow : Flow) : Blind (callResult closure flow) := by
  unfold callResult
  split
  · exact fun _ _ => rfl
  · cases flow with
    | normal => exact .pure _
    | returned value => exact .pure value

/-! ## An outcome and the one with a limit -/

/-- How a step ends on an output with a limit, given how it ends without one. If
all the output fits, it ends the same. If not, it stops in the state of a machine
at the crossing of the limit, but for what is put back on the way out. -/
inductive Follows (limit : Nat) (crossing : Machine → Prop)
    (outcome : EStateM.Result Interrupt Machine Result) :
    EStateM.Result Interrupt Machine Result → Prop where
  | whole (inside : (reached outcome).output.written.size ≤ limit) :
      Follows limit crossing outcome (onMachine (Machine.capped limit) outcome)
  | cut {middle stopped : Machine} (beyond : limit < (reached outcome).output.written.size)
      (written : stopped.output.written = (reached outcome).output.written.extract 0 limit)
      (crosses : crossing middle) (store : stopped.store = middle.store)
      (readings : stopped.readings = middle.readings) :
      Follows limit crossing outcome (.error (.output .full) stopped)

/-- A step without a limit, and the same step with one. The second follows the
first if it starts within the limit. That the output only grows is needed from any
start, because the run without a limit goes on beyond it. -/
structure Limited (limit : Nat) (crossing : Machine → Prop) (start : Machine)
    (outcome limited : EStateM.Result Interrupt Machine Result) : Prop where
  continues : start.output.Continues (reached outcome).output
  follows : start.output.written.size ≤ limit → Follows limit crossing outcome limited

namespace Limited

variable {limit : Nat} {crossing wider : Machine → Prop} {start : Machine}

theorem mono {outcome limited : EStateM.Result Interrupt Machine Result}
    (one : Limited limit crossing start outcome limited)
    (weaker : ∀ middle, crossing middle → wider middle) :
    Limited limit wider start outcome limited := by
  refine ⟨one.continues, fun inside => ?_⟩
  cases one.follows inside with
  | whole fits => exact .whole fits
  | cut beyond written crosses store readings =>
      exact .cut beyond written (weaker _ crosses) store readings

/-- A step that leaves the output alone and does the same with a limit. -/
theorem same {step : Eval Result} (free : start.output.room = none)
    (output : (reached (step start)).output = start.output)
    (alike : step (start.capped limit) = onMachine (Machine.capped limit) (step start)) :
    Limited limit crossing start (step start) (step (start.capped limit)) := by
  refine ⟨by rw [output]; exact .refl free, fun inside => ?_⟩
  rw [alike]
  exact .whole (by rwa [output])

theorem blind {step : Eval Result} (blind : Blind step) (free : start.output.room = none) :
    Limited limit crossing start (step start) (step (start.capped limit)) := by
  have output := blind.output start
  refine .same free output ?_
  rw [Machine.capped, blind start]
  cases ended : step start
  all_goals
    rw [ended] at output
    simp only [onMachine, Machine.capped, ← output, reached]

/-- Once the limit is crossed, the steps behind it only add to the output that is
cut off. -/
theorem bind {step : Eval Result} {next : Result → Eval Other}
    (first : Limited limit crossing start (step start) (step (start.capped limit)))
    (second : ∀ result after, step start = .ok result after → after.output.room = none →
      Limited limit crossing after (next result after) (next result (after.capped limit))) :
    Limited limit crossing start ((step >>= next) start)
      ((step >>= next) (start.capped limit)) := by
  simp only [Bind.bind, EStateM.bind]
  generalize step (start.capped limit) = limited at first
  cases ended : step start with
  | error interrupt after =>
      rw [ended] at first
      refine ⟨first.continues, fun inside => ?_⟩
      cases first.follows inside with
      | whole fits => exact .whole fits
      | cut beyond written crosses store readings =>
          exact .cut beyond written crosses store readings
  | ok result after =>
      rw [ended] at first
      have later := second result after ended first.continues.room
      refine ⟨first.continues.trans later.continues, fun inside => ?_⟩
      cases first.follows inside with
      | whole fits => exact later.follows fits
      | cut beyond written crosses store readings =>
          -- Only one of the two goes on, and what it writes is behind the cut.
          refine .cut (Nat.lt_of_lt_of_le beyond later.continues.size_le) ?_ crosses store readings
          rw [written]
          exact (later.continues.extract (Nat.le_of_lt beyond)).symm

/-- What is put back on the way out of both is not part of the comparison. -/
theorem putBack {begun : Machine} {outcome limited : EStateM.Result Interrupt Machine Result}
    {back : Machine → Machine} (inner : Limited limit crossing begun outcome limited)
    (same : begun.output = start.output)
    (elsewhere : ∀ machine, (back machine).output = machine.output ∧
      (back machine).store = machine.store ∧ (back machine).readings = machine.readings)
    (apart : ∀ machine, back (machine.capped limit) = (back machine).capped limit) :
    Limited limit crossing start (onMachine back outcome) (onMachine back limited) := by
  have output : (reached (onMachine back outcome)).output = (reached outcome).output := by
    rw [reached_onMachine, (elsewhere _).1]
  refine ⟨by rw [output, ← same]; exact inner.continues, fun inside => ?_⟩
  cases inner.follows (by rwa [same]) with
  | whole fits =>
      have alike : onMachine back (onMachine (Machine.capped limit) outcome) =
          onMachine (Machine.capped limit) (onMachine back outcome) := by
        cases outcome <;> exact congrArg _ (apart _)
      rw [alike]
      exact .whole (by rwa [output])
  | @cut middle stopped beyond written crosses store readings =>
      obtain ⟨sameOutput, sameStore, sameReadings⟩ := elsewhere stopped
      exact .cut (by rwa [output]) (by rw [output, sameOutput, written]) crosses
        (sameStore.trans store) (sameReadings.trans readings)

theorem within {step : Eval Result} {env : Env}
    (inner : Limited limit crossing { start with env := env } (step { start with env := env })
      (step (Machine.capped limit { start with env := env }))) :
    Limited limit crossing start (Eval.within env step start)
      (Eval.within env step (start.capped limit)) := by
  rw [within_eq, within_eq]
  exact inner.putBack rfl (fun _ => ⟨rfl, rfl, rfl⟩) fun _ => rfl

theorem nested {step : Eval Result}
    (inner : Limited limit crossing { start with depth := start.depth + 1 }
      (step { start with depth := start.depth + 1 })
      (step (Machine.capped limit { start with depth := start.depth + 1 }))) :
    Limited limit crossing start (Eval.nested step start)
      (Eval.nested step (start.capped limit)) := by
  rw [nested_eq, nested_eq]
  exact inner.putBack rfl (fun _ => ⟨rfl, rfl, rfl⟩) fun _ => rfl

end Limited

/-- A line that does not fit is where the limit is crossed. -/
theorem limited_printLine {limit : Nat} {crossing : Machine → Prop} {start : Machine}
    (free : start.output.room = none) {text : String}
    (crosses : start.output.written.size ≤ limit →
      limit < (start.output.write (text ++ "\n")).written.size → crossing start) :
    Limited limit crossing start (printLine text start) (printLine text (start.capped limit)) := by
  have goes : printLine text start =
      .ok () { start with output := start.output.write (text ++ "\n") } := by
    simp only [printLine, Sink.fits, free, if_true]
  rw [goes]
  refine ⟨Sink.continues_write free _, fun inside => ?_⟩
  have known := Sink.fits_capped free inside (text ++ "\n")
  cases fits : (start.output.capped limit).fits (text ++ "\n") with
  | true =>
      have short := known.mp fits
      have same : printLine text (start.capped limit) = onMachine (Machine.capped limit)
          (.ok () { start with output := start.output.write (text ++ "\n") }) := by
        simp only [printLine, Machine.capped, Machine.withOutput, fits, if_true, onMachine,
          Sink.write_capped free short]
      rw [same]
      exact .whole short
  | false =>
      have long : limit < (start.output.write (text ++ "\n")).written.size :=
        Nat.lt_of_not_le fun short => by simp [known.mpr short] at fits
      have stops : printLine text (start.capped limit) = .error (.output .full)
          { start with output := (start.output.capped limit).write (text ++ "\n") } := by
        simp only [printLine, Machine.capped, Machine.withOutput, fits, Bool.false_eq_true,
          if_false]
      rw [stops]
      exact .cut long (Sink.written_write_capped free inside _) (crosses inside long) rfl rfl

theorem limited_flush {limit : Nat} {crossing : Machine → Prop} {start : Machine}
    (free : start.output.room = none) :
    Limited limit crossing start (flush start) (flush (start.capped limit)) := by
  have same : (start.capped limit).output.flushes = start.output.flushes := rfl
  refine .same free ?_ ?_
  · unfold flush
    split <;> rfl
  · simp only [flush, same]
    split <;> rfl

end Eval

/-! ## The crossing of the limit -/

/-- A moment at which a line is printed across the limit, with the machine that has
found the value to print. -/
inductive Moment.Crosses (limit : Nat) : Moment → Machine → Prop where
  | print {fuel : Nat} {machine middle : Machine} {value : Expr} {printed : Value}
      (ran : Eval.expression fuel value machine = .ok printed middle)
      (inside : middle.output.written.size ≤ limit)
      (beyond : limit < (middle.output.write (printed.text ++ "\n")).written.size) :
      Crosses limit ⟨fuel + 1, .statement (.print value), machine⟩ middle

/-- The limit is crossed at one of the moments of a task. -/
def Moment.LeadsAcross (limit : Nat) (moment : Moment) (middle : Machine) : Prop :=
  ∃ last, Visits moment last ∧ last.Crosses limit middle

namespace Eval

variable {Result : Type} {limit fuel : Nat}

/-- A rule that can be run with a limit from a moment on. -/
def Limits (limit : Nat) (moment : Moment) (rule : Eval Result) : Prop :=
  moment.machine.output.room = none →
    Limited limit (moment.LeadsAcross limit) moment.machine (rule moment.machine)
      (rule (moment.machine.capped limit))

theorem Limits.begun {moment next : Moment} {rule : Eval Result} (limits : Limits limit next rule)
    (begins : Begins moment next) (free : next.machine.output.room = none) :
    Limited limit (moment.LeadsAcross limit) next.machine (rule next.machine)
      (rule (next.machine.capped limit)) :=
  (limits free).mono fun _ leads => leads.imp fun _ found => ⟨.begun begins found.1, found.2⟩

/-- All rules can be run with a limit, with a certain amount of fuel. -/
structure LimitedAt (limit fuel : Nat) : Prop where
  expression : ∀ found machine,
    Limits limit ⟨fuel, .expression found, machine⟩ (expression fuel found)
  expressions : ∀ found machine,
    Limits limit ⟨fuel, .expressions found, machine⟩ (expressions fuel found)
  call : ∀ paren called values machine,
    Limits limit ⟨fuel, .call paren called values, machine⟩ (call fuel paren called values)
  apply : ∀ callable values machine,
    Limits limit ⟨fuel, .apply callable values, machine⟩ (apply fuel callable values)
  applyClosure : ∀ closure values machine,
    Limits limit ⟨fuel, .applyClosure closure values, machine⟩ (applyClosure fuel closure values)
  statement : ∀ found machine,
    Limits limit ⟨fuel, .statement found, machine⟩ (statement fuel found)
  statements : ∀ found machine,
    Limits limit ⟨fuel, .statements found, machine⟩ (statements fuel found)
  rounds : ∀ condition body machine,
    Limits limit ⟨fuel, .rounds condition body, machine⟩ (rounds fuel condition body)

namespace LimitedAt

theorem zero : LimitedAt limit 0 := by
  constructor <;> intros <;> exact fun free => .blind (fun _ _ => rfl) free

theorem expression_succ (less : LimitedAt limit fuel) (found : Expr) (machine : Machine) :
    Limits limit ⟨fuel + 1, .expression found, machine⟩ (Eval.expression (fuel + 1) found) := by
  intro free
  cases found with
  | literal value => exact .blind (.pure _) free
  | grouping inner => exact (less.expression inner machine).begun .grouping free
  | unary operator operand =>
      exact .bind ((less.expression operand machine).begun .unary free) fun _ _ _ free =>
        .blind (blind_lift operator _) free
  | binary left operator right =>
      refine .bind ((less.expression left machine).begun .binaryLeft free)
        fun first middle ran free => ?_
      exact .bind ((less.expression right middle).begun (.binaryRight ran) free) fun _ _ _ free =>
        .blind (blind_lift operator _) free
  | logical left operator right =>
      refine .bind ((less.expression left machine).begun .logicalLeft free)
        fun first middle ran free => ?_
      cases settled : Operator.settles operator first with
      | true => exact .blind (.pure _) free
      | false => exact (less.expression right middle).begun (.logicalRight ran settled) free
  | var occurrence => exact .blind (blind_lookUp occurrence) free
  | assign occurrence value =>
      exact .bind ((less.expression value machine).begun .assigned free) fun assigned _ _ free =>
        .blind ((blind_assign occurrence assigned).bind fun _ => .pure _) free
  | call callee paren arguments =>
      refine .bind ((less.expression callee machine).begun .callee free)
        fun called middle ran free => ?_
      refine .bind ((less.expressions arguments middle).begun (.arguments ran) free)
        fun values last passed free => ?_
      exact (less.call paren called values last).begun (.call ran passed) free
  | get object name =>
      refine .bind ((less.expression object machine).begun .getObject free)
        fun value middle ran free => ?_
      cases value with
      | object found => exact .blind (blind_property found name) free
      | _ => exact .blind (blind_raise name _) free
  | set object name value =>
      refine .bind ((less.expression object machine).begun .setObject free)
        fun holder middle ran free => ?_
      cases holder with
      | object found =>
          exact .bind ((less.expression value middle).begun (.setValue ran) free)
            fun _ _ _ free => .blind (fun _ _ => rfl) free
      | _ => exact .blind (blind_raise name _) free
  | thisRef occurrence => exact .blind (blind_lookUp occurrence) free
  | superRef occurrence method => exact .blind (blind_superMethod occurrence method) free

theorem expressions_succ (less : LimitedAt limit fuel) (found : List Expr) (machine : Machine) :
    Limits limit ⟨fuel + 1, .expressions found, machine⟩ (Eval.expressions (fuel + 1) found) := by
  intro free
  cases found with
  | nil => exact .blind (.pure _) free
  | cons first rest =>
      refine .bind ((less.expression first machine).begun .firstExpression free)
        fun value middle ran free => ?_
      exact .bind ((less.expressions rest middle).begun (.otherExpressions ran) free)
        fun _ _ _ free => .blind (.pure _) free

theorem call_succ (less : LimitedAt limit fuel) (paren : Token) (called : Value)
    (values : List Value) (machine : Machine) :
    Limits limit ⟨fuel + 1, .call paren called values, machine⟩
      (Eval.call (fuel + 1) paren called values) := by
  intro free
  cases found : called.callable? with
  | none =>
      simp only [Eval.call, found]
      exact .blind (blind_raise paren _) free
  | some callable =>
      simp only [Eval.call, found]
      split
      next arity =>
        refine .bind (.blind (blind_checkDepth paren) free) fun _ checked ran free => ?_
        unfold checkDepth at ran
        split at ran
        next => cases ran
        next room =>
          cases ran
          exact .nested ((less.apply callable values _).begun
            (.apply found arity (Nat.not_le.mp room)) free)
      next => exact .blind (blind_raise paren _) free

theorem apply_succ (less : LimitedAt limit fuel) (callable : Callable) (values : List Value)
    (machine : Machine) :
    Limits limit ⟨fuel + 1, .apply callable values, machine⟩
      (Eval.apply (fuel + 1) callable values) := by
  intro free
  cases callable with
  | native value =>
      cases value with
      | clock => exact .blind (fun _ _ => rfl) free
  | function closure => exact (less.applyClosure closure values machine).begun .applyClosure free
  | cls cls =>
      refine .bind (.blind (fun _ _ => rfl) free) fun object made ran free => ?_
      cases found : cls.findMethod? initializerName with
      | none => exact .blind (.pure _) free
      | some method =>
          cases ran
          refine .bind (.blind (blind_bindMethod method _) free)
            fun initializer ready ran free => ?_
          cases ran
          exact .bind ((less.applyClosure _ values _).begun (.initializer found) free)
            fun _ _ _ free => .blind (.pure _) free

theorem applyClosure_succ (less : LimitedAt limit fuel) (closure : Closure) (values : List Value)
    (machine : Machine) :
    Limits limit ⟨fuel + 1, .applyClosure closure values, machine⟩
      (Eval.applyClosure (fuel + 1) closure values) := by
  intro free
  refine .bind (.blind (fun _ _ => rfl) free) fun inner opened ran free => ?_
  cases ran
  exact .bind (.within ((less.statements _ _).begun .body free)) fun flow _ _ free =>
    .blind (blind_callResult closure flow) free

theorem statement_succ (less : LimitedAt limit fuel) (found : Stmt) (machine : Machine) :
    Limits limit ⟨fuel + 1, .statement found, machine⟩ (Eval.statement (fuel + 1) found) := by
  intro free
  cases found with
  | expression value =>
      exact .bind ((less.expression value machine).begun .expression free) fun _ _ _ free =>
        .blind (.pure _) free
  | print value =>
      refine .bind ((less.expression value machine).begun .printed free)
        fun printed middle ran free => ?_
      have here (inside : middle.output.written.size ≤ limit)
          (beyond : limit < (middle.output.write (printed.text ++ "\n")).written.size) :
          Moment.LeadsAcross limit ⟨fuel + 1, .statement (.print value), machine⟩ middle :=
        ⟨_, .here _, .print ran inside beyond⟩
      exact .bind (limited_printLine free here) fun _ _ _ free => .blind (.pure _) free
  | var name initializer =>
      cases initializer with
      | none => exact .blind ((blind_define _ _).bind fun _ => .pure _) free
      | some value =>
          exact .bind ((less.expression value machine).begun .initial free) fun _ _ _ free =>
            .blind ((blind_define _ _).bind fun _ => .pure _) free
  | block body =>
      refine .bind (.blind (fun _ _ => rfl) free) fun around _ ran free => ?_
      cases ran
      refine .bind (.blind (fun _ _ => rfl) free) fun inner opened ran free => ?_
      cases ran
      exact .within ((less.statements body _).begun .block free)
  | cond condition thenBranch elseBranch =>
      refine .bind ((less.expression condition machine).begun .condition free)
        fun value middle ran still => ?_
      cases truth : value.isTruthy with
      | true => exact (less.statement thenBranch middle).begun (.thenBranch ran truth) still
      | false =>
          cases elseBranch with
          | none => exact .blind (.pure _) still
          | some branch => exact (less.statement branch middle).begun (.elseBranch ran truth) still
  | loop condition body => exact (less.rounds condition body machine).begun .loop free
  | function declaration =>
      refine .bind (.blind (fun _ _ => rfl) free) fun closed _ ran free => ?_
      exact .blind ((blind_define _ _).bind fun _ => .pure _) free
  | ret keyword value =>
      cases value with
      | none => exact .blind (.pure _) free
      | some returned =>
          exact .bind ((less.expression returned machine).begun .returned free) fun _ _ _ free =>
            .blind (.pure _) free
  | classDecl name superclass declarations =>
      cases superclass with
      | none => exact .blind ((blind_declareClass name none _).bind fun _ => .pure _) free
      | some parent =>
          refine .bind ((less.expression parent machine).begun .superclass free)
            fun value middle ran free => ?_
          cases value with
          | cls found => exact .blind ((blind_declareClass name _ _).bind fun _ => .pure _) free
          | _ => exact .blind (blind_raise _ _) free

theorem statements_succ (less : LimitedAt limit fuel) (found : List Stmt) (machine : Machine) :
    Limits limit ⟨fuel + 1, .statements found, machine⟩ (Eval.statements (fuel + 1) found) := by
  intro free
  cases found with
  | nil => exact .blind (.pure _) free
  | cons first rest =>
      refine .bind ((less.statement first machine).begun .firstStatement free)
        fun flow middle ran free => ?_
      cases flow with
      | returned value => exact .blind (.pure _) free
      | normal => exact (less.statements rest middle).begun (.otherStatements ran) free

theorem rounds_succ (less : LimitedAt limit fuel) (condition : Expr) (body : Stmt)
    (machine : Machine) :
    Limits limit ⟨fuel + 1, .rounds condition body, machine⟩
      (Eval.rounds (fuel + 1) condition body) := by
  intro free
  refine .bind ((less.expression condition machine).begun .roundCondition free)
    fun value middle ran free => ?_
  cases truth : value.isTruthy with
  | false => exact .blind (.pure _) free
  | true =>
      refine .bind ((less.statement body middle).begun (.roundBody ran truth) free)
        fun flow last done free => ?_
      cases flow with
      | returned result => exact .blind (.pure _) free
      | normal => exact (less.rounds condition body last).begun (.nextRound ran truth done) free

end LimitedAt

/-- **With a limit, the rules do the same up to the line that crosses it.** -/
theorem limitedAt (limit : Nat) : ∀ fuel : Nat, LimitedAt limit fuel
  | 0 => .zero
  | fuel + 1 =>
    have less := limitedAt limit fuel
    { expression := less.expression_succ
      expressions := less.expressions_succ
      call := less.call_succ
      apply := less.apply_succ
      applyClosure := less.applyClosure_succ
      statement := less.statement_succ
      statements := less.statements_succ
      rounds := less.rounds_succ }

/-! ## Programs -/

theorem limited_topLevel (fuel : Nat) (program : List Stmt) {machine : Machine}
    (free : machine.output.room = none) :
    Limited limit (fun middle => ∃ moment, Performs fuel program machine moment ∧
        moment.Crosses limit middle) machine
      (topLevel fuel program machine) (topLevel fuel program (machine.capped limit)) := by
  induction program generalizing machine with
  | nil => exact .blind (.pure _) free
  | cons first rest ih =>
      have one := (limitedAt limit fuel).statement first machine free
      refine .bind (one.mono fun _ leads => ?_) fun flow middle ran free => ?_
      · obtain ⟨last, visits, crosses⟩ := leads
        exact ⟨last, .first visits, crosses⟩
      · refine (ih free).mono fun _ found => ?_
        obtain ⟨moment, performs, crosses⟩ := found
        exact ⟨moment, .others ran performs, crosses⟩

/-- **With a limit, a program does the same up to the line that crosses it.** -/
theorem limited_program (fuel : Nat) (program : List Stmt) {machine : Machine}
    (free : machine.output.room = none) :
    Limited limit (fun middle => ∃ moment, Performs fuel program machine moment ∧
        moment.Crosses limit middle) machine
      (Eval.program fuel program machine) (Eval.program fuel program (machine.capped limit)) :=
  .bind (limited_topLevel fuel program free) fun _ _ _ free => limited_flush free

end Eval

end LoxLang
