import LoxLang.Proofs.Grammar.Acceptance
import LoxLang.Proofs.Grammar.Transport

/-!
# Declarations one behind the other

A list of declarations is read one by one, and each reading ends where the next
one begins (`Reader.Declared`). So declarations that are read without errors are
read in the same way in front of any tokens that do not begin with `else`
(`Reader.Declared.inFront`), and no program without errors begins with `else`.
-/

namespace LoxLang

set_option autoImplicit false

/-- The stream of a token list with one end marker, its last token. -/
theorem TokenStream.ofTokens_append {segment : List Token} {marker : Token}
    (noEnd : ∀ token ∈ segment, token.isEnd = false)
    (last : marker.isEnd = true) :
    TokenStream.ofTokens (segment ++ [marker]) = ⟨segment, marker.line⟩ :=
  ofTokens_split noEnd last

/-- The place where the tokens already stand. -/
def Transport.here : Transport := ⟨.same, [], id, [], 0, fun _ _ => rfl⟩

theorem Transport.state_here (state : ReaderState) : here.state state = state := by
  have tokens : state.rest.map (Token.relabel .same) = state.rest :=
    List.map_id'' (fun _ => rfl) _
  have errors : state.errors.map (Located.relabel .same) = state.errors :=
    List.map_id'' (fun _ => rfl) _
  simp only [Transport.state, here, tokens, errors, List.append_nil, List.nil_append]
  rfl

namespace Reader

/-- A step that does the same with more fuel, and did not run out of fuel. -/
theorem Carries.eq_of_here {Result : Type} {change : Result → Result}
    {step more : Reader Result} (carries : Carries .here False change step more)
    (fixed : ∀ result, change result = result) (start : ReaderState)
    (ended : ∀ after, step start ≠ .error .outOfFuel after) : more start = step start := by
  have whole : Transport.here.Whole := ⟨rfl, fun _ => rfl⟩
  have carried := carries start (Nat.zero_le _)
  cases reading : step start with
  | ok result after =>
      rw [reading] at carried
      have same := carried.2 (.inr (.inr whole))
      rwa [Transport.state_here, Transport.state_here, fixed] at same
  | error stop after =>
      cases stop with
      | outOfFuel => exact absurd reading (ended after)
      | fault error =>
          rw [reading] at carried
          have same := carried.2 (.inr whole)
          rwa [Transport.state_here, Transport.state_here] at same

/-! ## The loop over declarations -/

/-- Declarations are read until no token is left. One that is broken gives no
statement, and the next one begins at the boundary behind the fault. -/
inductive Declared : Nat → ReaderState → List Stmt → ReaderState → Prop where
  | done {fuel : Nat} {state : ReaderState} (ended : state.rest = []) :
      Declared (fuel + 1) state [] state
  | read {fuel : Nat} {start middle after : ReaderState} {first : Stmt} {others : List Stmt}
      (more : start.rest ≠ []) (reading : declaration fuel start = .ok first middle)
      (rest : Declared fuel middle others after) : Declared (fuel + 1) start (first :: others) after
  | broken {fuel : Nat} {start middle after : ReaderState} {error : GrammarError}
      {others : List Stmt} (more : start.rest ≠ [])
      (reading : declaration fuel start = .error (.fault error) middle)
      (rest : Declared fuel { middle.report error with rest := boundary middle.rest } others
        after) : Declared (fuel + 1) start others after

variable {fuel : Nat} {start after : ReaderState} {found : List Stmt}

theorem Declared.declarations (declared : Declared fuel start found after) :
    declarations fuel start = .ok found after := by
  induction declared with
  | done ended =>
      simp only [Reader.declarations, Bind.bind, EStateM.bind, atEnd, ended, List.isEmpty_nil,
        if_true]
      rfl
  | read more reading _ ih | broken more reading _ ih =>
      simp only [Reader.declarations, Bind.bind, EStateM.bind, atEnd, List.isEmpty_iff, more,
        if_false, recover, reading, ih]
      rfl

theorem declared_of_declarations : ∀ {fuel : Nat} {start after : ReaderState} {found : List Stmt},
    declarations fuel start = .ok found after → Declared fuel start found after
  | 0, _, _, _, reading => nomatch reading
  | fuel + 1, start, after, found, reading => by
      cases shape : start.rest with
      | nil =>
          have done : Declared (fuel + 1) start [] start := .done shape
          rw [done.declarations] at reading
          cases reading
          exact done
      | cons token rest =>
          have more : start.rest ≠ [] := by simp [shape]
          simp only [declarations, Bind.bind, EStateM.bind, atEnd, List.isEmpty_iff, more, if_false,
            recover] at reading
          cases trial : declaration fuel start with
          | ok first middle =>
              simp only [trial] at reading
              cases loop : declarations fuel middle with
              | ok others last =>
                  simp only [loop] at reading
                  cases reading
                  exact .read more trial (declared_of_declarations loop)
              | error stop last => simp only [loop] at reading; cases reading
          | error stop middle =>
              cases stop with
              | outOfFuel => simp only [trial] at reading; cases reading
              | fault error =>
                  simp only [trial] at reading
                  cases loop : declarations fuel
                      { middle.report error with rest := boundary middle.rest } with
                  | ok others last =>
                      simp only [loop] at reading
                      cases reading
                      exact .broken more trial (declared_of_declarations loop)
                  | error stop last => simp only [loop] at reading; cases reading

/-- Reported errors stay. -/
theorem Declared.errors_prefix (declared : Declared fuel start found after) :
    start.errors <+: after.errors := by
  have grown := grows_rule fuel .declarations start
  rwa [Rule.read, declared.declarations] at grown

section Quiet

variable {middle : ReaderState} {others : List Stmt}

/-- Nothing is reported by the first declaration if nothing is reported at all. -/
theorem Declared.quiet_first {first : Stmt} (reading : declaration fuel start = .ok first middle)
    (rest : Declared fuel middle others after) (quiet : after.errors = start.errors) :
    middle.errors = start.errors := by
  have grown := grows_rule fuel .declaration start
  rw [Rule.read, reading] at grown
  exact (grown.eq_of_length_le (quiet ▸ rest.errors_prefix.length_le)).symm

/-- A broken declaration is reported. -/
theorem Declared.not_quiet {error : GrammarError}
    (reading : declaration fuel start = .error (.fault error) middle)
    (rest : Declared fuel { middle.report error with rest := boundary middle.rest } others after) :
    after.errors ≠ start.errors := by
  intro quiet
  have grown := grows_rule fuel .declaration start
  rw [Rule.read, reading, errorsOf] at grown
  have early := grown.length_le
  have late := rest.errors_prefix.length_le
  simp only [ReaderState.report, List.length_append, List.length_singleton, quiet] at late
  omega

end Quiet

/-! ## Declarations in front of others -/

/-- **Declarations without errors are read in front of other tokens as alone**,
and then reading goes on with those. -/
theorem Declared.inFront {place : Transport} (branch : EndsBranch place) {last : ReaderState}
    {later : List Stmt} {more : Nat} (declared : Declared fuel start found after) :
    after.errors = start.errors → place.first ≤ start.nextId → fuel ≤ found.length + more →
    Declared more (place.state after) later last →
    Declared (found.length + more) (place.state start)
      (Stmt.relabelAll place.change found ++ later) last := by
  induction declared with
  | done ended =>
      intro _ _ _ behind
      rw [List.length_nil, Nat.zero_add]
      exact behind
  | @read fuel start middle after first others notEmpty reading rest ih =>
      intro quiet numbered le behind
      have silent := Declared.quiet_first reading rest quiet
      rw [List.length_cons] at le
      have enough : fuel ≤ others.length + more := by omega
      have carried := carries_rule enough .declaration start numbered
      rw [Rule.read, reading] at carried
      obtain ⟨numbered, moved⟩ := carried
      have loop := ih (quiet.trans silent.symm) numbered enough behind
      rw [List.length_cons, Nat.succ_add]
      exact .read (by simp [Transport.state, notEmpty]) (moved (.inl branch)) loop
  | broken _ reading rest _ => exact fun quiet => absurd quiet (Declared.not_quiet reading rest)

/-- More fuel makes no difference. -/
theorem Declared.of_le (declared : Declared fuel start found after) {more : Nat}
    (le : fuel ≤ more) : Declared more start found after := by
  have carries : Carries .here False _ _ _ := carries_rule le .declarations
  have ended (last : ReaderState) : Reader.declarations fuel start ≠ .error .outOfFuel last := by
    rw [declared.declarations]
    intro out
    cases out
  have same := carries.eq_of_here
    (fun found => Stmt.relabelAll_fixed found ⟨fun _ => rfl, fun _ _ => rfl⟩) start ended
  exact declared_of_declarations (same.trans declared.declarations)

/-- A declaration takes a token. -/
theorem length_lt_of_declaration {first : Stmt} {middle : ReaderState}
    (reading : declaration fuel start = .ok first middle) :
    middle.rest.length < start.rest.length :=
  @length_of_rule _ fuel .declaration start middle first reading

/-- In front of a token, a declaration takes one whether it is broken or not. -/
theorem length_lt_of_recover {first : Option Stmt} {middle : ReaderState}
    (reading : recover (declaration fuel) start = .ok first middle) (more : start.rest ≠ []) :
    middle.rest.length < start.rest.length := by
  simp only [recover] at reading
  cases trial : declaration fuel start with
  | ok found reached =>
      simp only [trial] at reading
      cases reading
      exact length_lt_of_declaration trial
  | error stop reached =>
      cases stop with
      | outOfFuel => simp only [trial] at reading; cases reading
      | fault error =>
          simp only [trial] at reading
          cases reading
          have fewer := @length_le_of_fault _ fuel .declaration start reached error trial
          exact length_boundary_lt fewer (List.length_pos_iff.mpr more)

/-- Without errors there are no more declarations than tokens. -/
theorem Declared.length_le (declared : Declared fuel start found after) :
    after.errors = start.errors → found.length ≤ start.rest.length := by
  induction declared with
  | done => exact fun _ => Nat.zero_le _
  | @read fuel start middle after first others notEmpty reading rest ih =>
      intro quiet
      have silent := Declared.quiet_first reading rest quiet
      have shorter := ih (quiet.trans silent.symm)
      have takes := length_lt_of_declaration reading
      rw [List.length_cons]
      omega
  | broken _ reading rest _ => exact fun quiet => absurd quiet (Declared.not_quiet reading rest)

theorem endsBranch_iff {place : Transport} :
    EndsBranch place ↔ ¬ startsElse place.behind := by
  constructor
  · rintro branch ⟨token, next, isElse⟩
    rw [← Token.isKeyword_iff, branch token next] at isElse
    cases isElse
  · intro none token next
    cases isElse : token.isKeyword .kwElse with
    | false => rfl
    | true => exact absurd ⟨token, next, Token.isKeyword_iff.mp isElse⟩ none

end Reader

namespace Grammar

open Reader

/-- A program is read to its end. -/
theorem declared_program (stream : TokenStream) (nextId : Nat) :
    ∃ after, Declared (fuelFor stream) (ReaderState.start stream nextId)
        (program stream nextId).statements after ∧
      after.rest = [] ∧ after.errors = (program stream nextId).errors ∧
      after.nextId = (program stream nextId).nextId := by
  have ended := ends_program stream (ReaderState.start stream nextId) rfl
  unfold program
  cases reading : declarations (fuelFor stream) (ReaderState.start stream nextId) with
  | ok found after =>
      rw [reading] at ended
      exact ⟨after, declared_of_declarations reading, List.length_eq_zero_iff.mp ended, rfl, rfl⟩
  | error stop after =>
      rw [reading] at ended
      cases stop with
      | fault error => exact absurd reading (faultless_declarations _ _ _ _)
      | outOfFuel => exact absurd trivial ended

theorem program_of_declared {stream : TokenStream} {nextId : Nat} {found : List Stmt}
    {after : ReaderState}
    (declared : Declared (fuelFor stream) (ReaderState.start stream nextId) found after) :
    program stream nextId = ⟨found, after.errors, after.nextId⟩ := by
  rw [program, declared.declarations]

/-- A program without errors does not begin with `else`. -/
theorem not_startsElse_of_program {stream : TokenStream} {nextId : Nat}
    (none : (program stream nextId).errors = []) {tail : List Token} (last : ¬ startsElse tail) :
    ¬ startsElse (stream.tokens ++ tail) :=
  not_startsElse_append (readBody_of_program none).covers last

/-- **A program with other numbers and on other lines** is read into the same
with other numbers and on other lines, if numbers are drawn one by one there. -/
theorem program_relabel {change : Relabelling} {nextId : Nat}
    (steady : ∀ id, nextId ≤ id → change.id (id + 1) = change.id id + 1) (stream : TokenStream) :
    program ⟨stream.tokens.map (Token.relabel change), change.line stream.endLine⟩
        (change.id nextId) =
      ⟨Stmt.relabelAll change (program stream nextId).statements,
        (program stream nextId).errors.map (Located.relabel change),
        change.id (program stream nextId).nextId⟩ := by
  let place : Transport := ⟨change, [], change.line, [], nextId, steady⟩
  let moved : TokenStream := ⟨stream.tokens.map (Token.relabel change), change.line stream.endLine⟩
  obtain ⟨after, declared, -, errors, last⟩ := declared_program stream nextId
  have fuel : fuelFor stream ≤ fuelFor moved := by simp [fuelFor, moved]
  have carries : Carries place False _ _ _ := carries_rule fuel .declarations
  have carried := carries (ReaderState.start stream nextId) (Nat.le_refl _)
  rw [Rule.read, declared.declarations] at carried
  have reading := carried.2 (.inr (.inr ⟨rfl, fun _ => rfl⟩))
  have start : place.state (ReaderState.start stream nextId) =
      ReaderState.start moved (change.id nextId) := by
    simp [Transport.state, ReaderState.start, place, moved]
  rw [start] at reading
  rw [program_of_declared (declared_of_declarations reading), ← errors, ← last]
  rfl

/-- With other numbers and on the same lines, only the numbers in the tree are
others. -/
theorem program_renumber {change : Relabelling} {nextId : Nat}
    (steady : ∀ id, nextId ≤ id → change.id (id + 1) = change.id id + 1)
    (lines : ∀ line, change.line line = line) (stream : TokenStream) :
    program stream (change.id nextId) =
      ⟨Stmt.relabelAll change (program stream nextId).statements, (program stream nextId).errors,
        change.id (program stream nextId).nextId⟩ := by
  have tokens : stream.tokens.map (Token.relabel change) = stream.tokens :=
    List.map_id'' (fun token => by rw [Token.relabel, lines]) _
  have errors : (program stream nextId).errors.map (Located.relabel change) =
      (program stream nextId).errors :=
    List.map_id'' (fun error => by rw [Located.relabel, lines]) _
  have moved := program_relabel steady stream
  rwa [tokens, errors, lines] at moved

/-- **A program without errors in front of other tokens** is read into the same,
and then the others are read. -/
theorem program_append {change : Relabelling} {nextId : Nat}
    (steady : ∀ id, nextId ≤ id → change.id (id + 1) = change.id id + 1)
    {stream behind : TokenStream} (quiet : (program stream nextId).errors = [])
    (branch : ¬ startsElse behind.tokens) :
    let later := program behind (change.id (program stream nextId).nextId)
    program ⟨stream.tokens.map (Token.relabel change) ++ behind.tokens, behind.endLine⟩
        (change.id nextId) =
      ⟨Stmt.relabelAll change (program stream nextId).statements ++ later.statements, later.errors,
        later.nextId⟩ := by
  intro later
  let place : Transport :=
    ⟨change, behind.tokens, fun _ => behind.endLine, [], nextId, steady⟩
  let whole : TokenStream :=
    ⟨stream.tokens.map (Token.relabel change) ++ behind.tokens, behind.endLine⟩
  obtain ⟨middle, early, none, errors, next⟩ := declared_program stream nextId
  rw [quiet] at errors
  have fewer := early.length_le errors
  obtain ⟨last, late, -, reported, final⟩ :=
    declared_program behind (change.id (program stream nextId).nextId)
  have start : place.state middle = ReaderState.start behind (change.id middle.nextId) := by
    simp [Transport.state, ReaderState.start, place, none, errors]
  rw [← next, ← start] at late
  have length : (program stream nextId).statements.length ≤ stream.tokens.length := fewer
  have sum : fuelFor whole = 16 * (stream.tokens.length + behind.tokens.length + 1) := by
    simp [fuelFor, whole]
  obtain ⟨more, room⟩ : ∃ more, fuelFor whole =
      (program stream nextId).statements.length + more :=
    Nat.exists_eq_add_of_le (by omega)
  have behindAll := late.of_le (show fuelFor behind ≤ more by rw [fuelFor]; omega)
  have both := early.inFront (endsBranch_iff.mpr branch) errors (Nat.le_refl _)
    (by rw [← room, sum, fuelFor]; omega) behindAll
  rw [← room] at both
  have begun : place.state (ReaderState.start stream nextId) =
      ReaderState.start whole (change.id nextId) := by
    simp [Transport.state, ReaderState.start, place, whole]
  rw [begun] at both
  rw [program_of_declared both, reported, final, next]

/-- **Lines that no token is on do not matter** to a program without errors. -/
theorem relabelAll_program {change : Relabelling} (ids : ∀ id, change.id id = id)
    {stream : TokenStream} {nextId : Nat} (quiet : (program stream nextId).errors = [])
    (lines : ∀ token ∈ stream.tokens, change.line token.line = token.line) :
    Stmt.relabelAll change (program stream nextId).statements =
      (program stream nextId).statements := by
  have tokens : stream.tokens.map (Token.relabel change) ++ [] = stream.tokens := by
    rw [List.append_nil]
    refine (List.map_congr_left fun token member => ?_).trans (List.map_id _)
    rw [Token.relabel, lines token member]
    rfl
  have none : ¬ startsElse [] := by rintro ⟨_, member, _⟩; cases member
  have steady : ∀ id, nextId ≤ id → change.id (id + 1) = change.id id + 1 :=
    fun id _ => by rw [ids, ids]
  let nothing : TokenStream := ⟨[], stream.endLine⟩
  have moved := program_append steady quiet (show ¬ startsElse nothing.tokens from none)
  have ended (id : Nat) : (program nothing id).statements = [] := rfl
  simp only [nothing, tokens, ids] at moved
  simp only [nothing] at ended
  rw [ended, List.append_nil] at moved
  exact (congrArg Program.statements moved).symm

end Grammar

end LoxLang
