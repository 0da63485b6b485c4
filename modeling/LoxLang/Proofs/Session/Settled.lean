import LoxLang.Proofs.Run.Tracking
import LoxLang.Proofs.ScopeChain

/-!
# What a session remembers of node numbers

A session draws numbers one after the other, so the numbers that are still to
be drawn mean nothing to its machine: no function in the store holds one, and
the distance table has none. This is said by relabelling (`Machine.Settled`): a
relabelling that keeps the numbers drawn so far does not change the store. It
holds of a new session and after every run (`Session.settled_run`), because a
run of a program that is not changed by a relabelling tracks itself.

It follows that more fuel does not change a finished run (`Session.run_of_le`).
-/

namespace LoxLang

set_option autoImplicit false

/-! ## Relabellings that keep old numbers -/

/-- All lines and the numbers below a bound are kept, and numbers stay
different. -/
structure Relabelling.KeepsBelow (change : Relabelling) (bound : Nat) : Prop where
  line : ∀ line, change.line line = line
  id : ∀ id < bound, change.id id = id
  faithful : Function.Injective change.id

namespace Relabelling

theorem keepsBelow_same (bound : Nat) : same.KeepsBelow bound :=
  ⟨fun _ => rfl, fun _ _ => rfl, Function.injective_id⟩

theorem keepsBelow_moveIds (first room : Nat) : (moveIds first room).KeepsBelow first :=
  ⟨fun _ => rfl, fun _ below => if_pos below, injective_moveIds first room⟩

namespace KeepsBelow

variable {change : Relabelling} {bound : Nat}

theorem mono {less : Nat} (keeps : change.KeepsBelow bound) (le : less ≤ bound) :
    change.KeepsBelow less :=
  ⟨keeps.line, fun id below => keeps.id id (Nat.lt_of_lt_of_le below le), keeps.faithful⟩

/-- Other numbers stay above the bound, where they differ from the kept ones. -/
theorem above (keeps : change.KeepsBelow bound) {id : Nat} (new : bound ≤ id) :
    bound ≤ change.id id := by
  refine Nat.le_of_not_lt fun below => ?_
  have same := keeps.faithful (keeps.id _ below)
  omega

theorem fixes (keeps : change.KeepsBelow bound) {numbers : List Nat}
    (old : ∀ id ∈ numbers, id < bound) : change.Fixes numbers :=
  ⟨keeps.line, fun id member => keeps.id id (old id member)⟩

end KeepsBelow

end Relabelling

/-! ## Machines -/

/-- No number from a bound on has a meaning on the machine. -/
structure Machine.Settled (machine : Machine) (bound : Nat) : Prop where
  unplaced : ∀ id, bound ≤ id → machine.distances.find? id = none
  store : ∀ change : Relabelling, change.KeepsBelow bound →
    machine.store.relabel change = machine.store

namespace Machine.Settled

variable {machine : Machine} {bound : Nat}

theorem mono {more : Nat} (settled : machine.Settled bound) (le : bound ≤ more) :
    machine.Settled more :=
  ⟨fun id new => settled.unplaced id (Nat.le_trans le new),
    fun change keeps => settled.store change (keeps.mono le)⟩

/-- Old numbers keep their distances, and new ones have none. -/
theorem table {change : Relabelling} (settled : machine.Settled bound)
    (keeps : change.KeepsBelow bound) (id : Nat) :
    machine.distances.find? (change.id id) = machine.distances.find? id := by
  by_cases old : id < bound
  · rw [keeps.id id old]
  · have new := Nat.le_of_not_lt old
    rw [settled.unplaced id new, settled.unplaced _ (keeps.above new)]

theorem similar {change : Relabelling} (settled : machine.Settled bound)
    (keeps : change.KeepsBelow bound) : machine.Similar change machine :=
  ⟨(settled.store change keeps).symm, rfl, rfl, settled.table keeps, rfl, rfl, rfl⟩

/-- **A run leaves a settled machine settled**, if the program has no numbers
from the bound on. -/
theorem program {found : List Stmt} (settled : machine.Settled bound)
    (old : ∀ id ∈ Stmt.numbersAll found, id < bound) (fuel : Nat) :
    (Eval.reached (Eval.program fuel found machine)).Settled bound := by
  refine ⟨fun id new => ?_, fun change keeps => ?_⟩
  · rw [(Eval.restores_program fuel found machine).distances]
    exact settled.unplaced id new
  · have tracks : Eval.Tracks change 0 id _ _ := Eval.tracks_program keeps.faithful fuel found
    rw [Stmt.relabelAll_fixed found (keeps.fixes old), Nat.zero_add] at tracks
    have parallel := tracks machine machine (settled.similar keeps)
    cases ended : Eval.program fuel found machine with
    | ok result after =>
        rw [ended] at parallel
        obtain ⟨reached, same, similar⟩ := parallel
        cases same
        exact similar.store.symm
    | error interrupt after =>
        rw [ended] at parallel
        obtain ⟨reached, same, similar⟩ := parallel.resolve_left fun more => more.2 rfl
        obtain ⟨-, rfl⟩ := EStateM.Result.error.inj same
        exact similar.store.symm

/-- A machine that is similar to a settled one may differ from it in the
distances alone. -/
theorem eq_of_similar {other : Machine} {change : Relabelling} (settled : machine.Settled bound)
    (keeps : change.KeepsBelow bound) (similar : machine.Similar change other) :
    other = { machine with distances := other.distances } := by
  have same := similar.store.trans (settled.store change keeps)
  obtain ⟨store, env, depth, table, output, clock, readings⟩ := other
  obtain ⟨-, rfl, rfl, -, rfl, rfl, rfl⟩ := similar
  cases same
  rfl

/-- A finished run has the same outcome with more fuel. -/
theorem program_of_le {found : List Stmt} (settled : machine.Settled bound)
    (old : ∀ id ∈ Stmt.numbersAll found, id < bound) {fuel more : Nat} (le : fuel ≤ more)
    (finished : ∀ after, Eval.program fuel found machine ≠ .error .outOfFuel after) :
    Eval.program more found machine = Eval.program fuel found machine := by
  obtain ⟨extra, rfl⟩ := Nat.exists_eq_add_of_le' le
  have keeps := Relabelling.keepsBelow_same bound
  have tracks : Eval.Tracks .same extra id _ _ := Eval.tracks_program keeps.faithful fuel found
  rw [Stmt.relabelAll_fixed found (keeps.fixes old)] at tracks
  have parallel := tracks machine machine (settled.similar keeps)
  have after := settled.program old fuel
  have less := (Eval.restores_program fuel found machine).distances
  have greater := (Eval.restores_program (extra + fuel) found machine).distances
  cases ended : Eval.program fuel found machine with
  | ok result middle =>
      rw [ended] at parallel after less
      obtain ⟨reached, same, similar⟩ := parallel
      rw [same] at greater
      rw [same, after.eq_of_similar keeps similar, show reached.distances = _ from greater, ← less]
      rfl
  | error interrupt middle =>
      rw [ended] at parallel after less
      have enough : interrupt ≠ .outOfFuel := by
        rintro rfl
        exact finished middle ended
      obtain ⟨reached, same, similar⟩ := parallel.resolve_left fun more => enough more.1
      rw [same] at greater
      rw [same, after.eq_of_similar keeps similar, show reached.distances = _ from greater, ← less]
      cases interrupt <;> rfl

end Machine.Settled

/-! ## Sessions -/

namespace Session

variable {session next : Session} {fuel : Nat} {source : String} {distances : List (Nat × Nat)}

/-- What reading a source does: it reports the faults of the tokens and of the
grammar, and draws numbers. -/
theorem read_eq (session : Session) (source : String) :
    let program := Grammar.program (.ofTokens (Lexer.tokens source)) session.nextId
    session.read source = (program.statements,
      { session.reportAll ((Lexer.faults source).map .lexical ++ program.errors.map .grammar) with
        nextId := program.nextId }) := by
  simp only [read, reportAll, List.foldl_append]
  rfl

/-- What a run of a source can do: read it and report more static faults, or
read and resolve it without any and execute it. -/
theorem run_cases (ran : session.run fuel source = some next) :
    (∃ faults, next = (session.read source).2.reportAll faults) ∨
      ∃ distances, session.Runnable source distances ∧
        (session.read source).2.execute fuel (session.read source).1 distances = some next := by
  simp only [run] at ran
  split at ran
  · exact .inl ⟨[], (Option.some.inj ran).symm⟩
  next quiet =>
    split at ran
    next errors _ => exact .inl ⟨errors.map .binding, (Option.some.inj ran).symm⟩
    next distances resolved => exact .inr ⟨distances, ⟨by simpa using quiet, resolved⟩, ran⟩

/-- What becomes of a session by the outcome of a program. -/
def concluded (session : Session) : EStateM.Result Interrupt Machine Unit → Option Session
  | .ok () machine => some { session with machine := machine }
  | .error interrupt machine =>
    interrupt.diagnostic?.map fun diagnostic =>
      { session with machine := machine }.report diagnostic

theorem execute_eq_concluded (session : Session) (fuel : Nat) (program : List Stmt)
    (distances : List (Nat × Nat)) :
    session.execute fuel program distances =
      session.concluded (Eval.program fuel program (session.prepared distances)) := rfl

theorem prepared_read (distances : List (Nat × Nat)) :
    (session.read source).2.prepared distances = session.prepared distances := by
  rw [prepared, prepared, machine_read]

theorem run_of_runnable (runnable : session.Runnable source distances) (fuel : Nat) :
    session.run fuel source = (session.read source).2.concluded
      (Eval.program fuel (session.read source).1 (session.prepared distances)) := by
  simp only [run, runnable.quiet, Bool.false_eq_true, if_false, runnable.resolved]
  rw [execute_eq_concluded, prepared_read]

/-- The numbers that are still to be drawn mean nothing to the session. -/
def Settled (session : Session) : Prop := session.machine.Settled session.nextId

theorem settled_start (output errors : Sink) (clock : Nat → Float) :
    (start output errors clock).Settled :=
  ⟨fun _ _ => DistanceTable.find?_empty _, fun change _ =>
    Store.relabel_machineInitial change output clock⟩

theorem Settled.reset (settled : session.Settled) : session.reset.Settled := settled

/-- The machine that a source is run on is settled. -/
theorem Settled.prepared (settled : session.Settled)
    (runnable : session.Runnable source distances) :
    (session.prepared distances).Settled (session.read source).2.nextId :=
  ⟨fun _ new => runnable.unplaced_prepared settled.unplaced new,
    fun change keeps => settled.store change (keeps.mono runnable.numbered.le)⟩

theorem Runnable.numbers_lt (runnable : session.Runnable source distances) :
    ∀ id ∈ Stmt.numbersAll (session.read source).1, id < (session.read source).2.nextId :=
  fun id member => (runnable.numbered.range id member).2

theorem settled_run (settled : session.Settled) (ran : session.run fuel source = some next) :
    next.Settled := by
  rcases run_cases ran with ⟨faults, rfl⟩ | ⟨distances, runnable, executed⟩
  · rw [Settled, machine_reportAll, machine_read, nextId_reportAll]
    exact settled.mono (session.nextId_le_read source)
  · obtain ⟨machine, nextId⟩ := machine_execute executed
    rw [Settled, machine, nextId, prepared_read]
    exact (settled.prepared runnable).program runnable.numbers_lt fuel

theorem settled_reaches {first : Session} (reached : first.Reaches session)
    (settled : first.Settled) : session.Settled := by
  induction reached with
  | start => exact settled
  | run _ fuel source ran ih => exact settled_run ih ran
  | reset _ ih => exact ih.reset

/-- A program with an outcome for the session did not run out of fuel. -/
theorem finished_of_concluded {outcome : EStateM.Result Interrupt Machine Unit}
    (ended : session.concluded outcome = some next) (after : Machine) :
    outcome ≠ .error .outOfFuel after := by
  rintro rfl
  simp [concluded, Interrupt.diagnostic?] at ended

/-- **More fuel does not change a finished run.** -/
theorem run_of_le (settled : session.Settled) {more : Nat} (le : fuel ≤ more)
    (ran : session.run fuel source = some next) : session.run more source = some next := by
  by_cases runs : ∃ distances, session.Runnable source distances
  · obtain ⟨distances, runnable⟩ := runs
    rw [run_of_runnable runnable] at ran ⊢
    rwa [(settled.prepared runnable).program_of_le runnable.numbers_lt le
      (finished_of_concluded ran)]
  · simp only [run] at ran ⊢
    split
    next fault => rwa [if_pos fault] at ran
    next quiet =>
      rw [if_neg quiet] at ran
      split
      next resolved => rwa [resolved] at ran
      next distances resolved => exact absurd ⟨distances, by simpa using quiet, resolved⟩ runs

end Session

end LoxLang
