import LoxLang.Proofs.Scope.Violations
import LoxLang.Proofs.Session.Settled
import LoxLang.Proofs.Token.Concatenation

/-!
# Programs that break a static rule

A source that is scanned and parsed without faults gives a well-formed program.
Resolution rejects it if and only if it breaks a rule, with one fault for each
violation, and a rejected program is not evaluated at all
(`violations_are_reported`).
-/

namespace LoxLang

set_option autoImplicit false

/-- The faults that resolution gives are those of the walk, and there are some. -/
theorem resolve_eq_error_iff {program : List Stmt} {errors : List BindingError} :
    resolve program = .error errors ↔
      (Resolution.program program).errors = errors ∧ errors ≠ [] := by
  unfold resolve
  dsimp only
  split
  next none =>
    rw [none]
    exact ⟨nofun, fun ⟨same, faulty⟩ => absurd same.symm faulty⟩
  next errors faulty =>
    simp only [Except.error.injEq]
    exact ⟨fun same => same ▸ ⟨rfl, faulty⟩, fun ⟨same, _⟩ => same⟩

theorem exists_resolve_eq_ok_iff {program : List Stmt} :
    (∃ distances, resolve program = .ok distances) ↔
      (Resolution.program program).errors = [] := by
  unfold resolve
  dsimp only
  split
  next none => exact ⟨fun _ => none, fun _ => ⟨_, rfl⟩⟩
  next faulty => exact ⟨nofun, fun none => absurd none faulty⟩

/-! ## Sources -/

namespace Session

variable {session : Session} {source : String}

theorem wellFormed_read
    (parsed : (Grammar.program (Lexer.stream source) session.nextId).errors = []) :
    Stmt.AllWellFormed (session.read source).1 :=
  (Grammar.readBody_of_program parsed).wellFormed fun token member =>
    Lexer.allSpelled_itemsFrom _ _ _ token (List.takeWhile_subset _ member)

/-- Reading a source without faults records none. -/
theorem hasStaticFault_read (scanned : Lexer.faults source = [])
    (parsed : (Grammar.program (Lexer.stream source) session.nextId).errors = []) :
    (session.read source).2.hasStaticFault = session.hasStaticFault := by
  have none : (Grammar.program (.ofTokens (Lexer.tokens source)) session.nextId).errors = [] :=
    parsed
  rw [read_eq]
  simp [scanned, none, reportAll, hasStaticFault]

/-- A source whose names are not resolved is not executed. -/
theorem run_of_unresolved {errors : List BindingError}
    (faulty : resolve (session.read source).1 = .error errors) (fuel : Nat) :
    ∃ next, session.run fuel source = some next ∧ next.machine = session.machine := by
  simp only [run, faulty]
  split
  · exact ⟨_, rfl, machine_read session source⟩
  · exact ⟨_, rfl, by rw [machine_reportAll, machine_read]⟩

end Session

/-- **Resolution rejects exactly the programs that break a rule, with one fault
for each violation.** Take a source that is scanned and parsed without faults.
The faults that resolution gives are the violations, in some order, so there are
as many. It gives distances if and only if there is no violation. If there is
one, the source is not evaluated at all; if there is none, and no static fault of
an earlier source is recorded, the program is. -/
theorem violations_are_reported (session : Session) (source : String)
    (scanned : Lexer.faults source = [])
    (parsed : (Grammar.program (Lexer.stream source) session.nextId).errors = []) :
    (∀ errors, resolve (session.read source).1 = .error errors →
      errors.Perm (violations (session.read source).1) ∧
        errors.length = (violations (session.read source).1).length) ∧
    ((∃ distances, resolve (session.read source).1 = .ok distances) ↔
      violations (session.read source).1 = []) ∧
    (violations (session.read source).1 ≠ [] →
      ∀ fuel, ∃ next, session.run fuel source = some next ∧ next.machine = session.machine) ∧
    (violations (session.read source).1 = [] → session.hasStaticFault = false →
      ∃ distances, resolve (session.read source).1 = .ok distances ∧
        ∀ fuel, session.run fuel source = (session.read source).2.concluded
          (Eval.program fuel (session.read source).1 (session.prepared distances))) := by
  have perm := Resolution.perm_violations _ (Session.wellFormed_read parsed)
  have accepted : (∃ distances, resolve (session.read source).1 = .ok distances) ↔
      violations (session.read source).1 = [] := by
    rw [exists_resolve_eq_ok_iff]
    exact ⟨fun none => (none ▸ perm).nil_eq.symm, fun none => (none ▸ perm).eq_nil⟩
  refine ⟨fun errors rejected => ?_, accepted, fun some fuel => ?_, fun none quiet => ?_⟩
  · obtain ⟨rfl, _⟩ := resolve_eq_error_iff.mp rejected
    exact ⟨perm, perm.length_eq⟩
  · cases resolved : resolve (session.read source).1 with
    | ok distances => exact absurd (accepted.mp ⟨distances, resolved⟩) some
    | error errors => exact Session.run_of_unresolved resolved fuel
  · obtain ⟨distances, resolved⟩ := accepted.mpr none
    have runnable : session.Runnable source distances :=
      ⟨(Session.hasStaticFault_read scanned parsed).trans quiet, resolved⟩
    exact ⟨distances, resolved, Session.run_of_runnable runnable⟩

/-- An initializer that returns a value and repeats its parameter, a class that
inherits from itself, a variable that reads itself and is declared twice, and two
words outside of all functions and classes. -/
def ruleBreaker : String :=
  "class A<A{init(b){return super.c;var b;}}{var d=d;var d;}return this;"

/-- Seven rules are broken, and nothing is run. -/
theorem ruleBreaker_is_not_run :
    let session := Session.start Sink.unlimited Sink.unlimited fun _ => 0
    Lexer.faults ruleBreaker = [] ∧
      (Grammar.program (Lexer.stream ruleBreaker) session.nextId).errors = [] ∧
      (violations (session.read ruleBreaker).1).length = 7 ∧
      ∀ fuel, ∃ next, session.run fuel ruleBreaker = some next ∧
        next.machine = session.machine := by
  intro session
  have facts : Lexer.faults ruleBreaker = [] ∧
      (Grammar.program (Lexer.stream ruleBreaker) session.nextId).errors = [] ∧
      (violations (session.read ruleBreaker).1).length = 7 := by
    decide +kernel
  obtain ⟨scanned, parsed, seven⟩ := facts
  refine ⟨scanned, parsed, seven, ?_⟩
  refine (violations_are_reported session ruleBreaker scanned parsed).2.2.1 fun none => ?_
  rw [none] at seven
  cases seven

end LoxLang
