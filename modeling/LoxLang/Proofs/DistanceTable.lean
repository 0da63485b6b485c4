import LoxLang.Proofs.Scope.Entries
import LoxLang.Proofs.Scope.Positions
import LoxLang.Proofs.Scope.Relabelling
import LoxLang.Proofs.Scope.Source
import LoxLang.Proofs.Token.Concatenation

/-!
# The distance table is exact

Resolution keeps a stack of scopes that changes along its walk, so which names a
scope knows depends on the moment at which an occurrence is visited. What it
records can be said without that stack. Around each use of a name there are
lexical scopes, and which names they hold for it is a matter of positions in the
program (`Stmt.StandsIn`). The table has a use at the first of these scopes that
holds its name, it does not have the use if none does, and it has nothing but
uses (`distance_table_is_exact`).
-/

namespace LoxLang

set_option autoImplicit false

/-! ## Distances of a program -/

section Program

variable {program : List Stmt} {distances : List (Nat × Nat)}

/-- Only uses have distances. -/
theorem exists_use_of_mem (resolved : resolve program = .ok distances) {entry : Nat × Nat}
    (member : entry ∈ distances) :
    ∃ use ∈ Stmt.usesAll program, use.occurrence.id = entry.1 := by
  obtain ⟨-, rfl⟩ := resolve_eq_ok_iff.mp resolved
  exact Resolution.exists_use_of_mem_program member

/-- A use has the distance of the first scope around it that holds its name. -/
theorem lookup_eq_nearest? (resolved : resolve program = .ok distances)
    (wellFormed : Stmt.AllWellFormed program) (distinct : (Stmt.numbersAll program).Nodup)
    {use : Use} {scopes : List LexicalScope} (stands : Stmt.StandsIn use program scopes) :
    distances.lookup use.occurrence.id =
      LexicalScope.nearest? use.occurrence.name scopes := by
  obtain ⟨quiet, rfl⟩ := resolve_eq_ok_iff.mp resolved
  have walked := Resolution.walked_statements program ⟨.topLevel, .outside⟩ Resolution.start
    wellFormed distinct
  obtain ⟨added, same, -, holds⟩ := walked.entries
  have table : (Resolution.program program).distances = added := same.trans (List.append_nil _)
  obtain ⟨before, inner, after, rfl, inside⟩ := stands
  have throughout := holds quiet (fun id distance => added.lookup id = distance) fun _ _ => rfl
  have mirrored : (inner.after (Stmt.afterAll Resolution.start.scopes before)).Mirrored [] := by
    rw [show Resolution.start.scopes = [] from rfl, Stmt.afterAll_nil, Stmt.after_nil]
    exact .nil
  have placed := inside.placed_nearest (Stmt.wellFormed_of_append before wellFormed)
    (Stmt.scoped_of_append before _ throughout) mirrored
  rwa [List.append_nil, ← table] at placed

end Program

/-- **The distance table is exact.** Take a source that is parsed and resolved
without faults, with nodes numbered from any number on. Every use of a name in its
program stands somewhere, with lexical scopes around it. Wherever a use stands,
the table has it at a distance if and only if the scope at that distance is the
first one that holds its name, and the table does not have it if and only if no
scope around it does. There are no distances but those of uses. -/
theorem distance_table_is_exact (source : String) (nextId : Nat) {distances : List (Nat × Nat)}
    (parsed : (Grammar.program (Lexer.stream source) nextId).errors = [])
    (resolved : resolve (Grammar.program (Lexer.stream source) nextId).statements =
      .ok distances) :
    let program := (Grammar.program (Lexer.stream source) nextId).statements
    (∀ use ∈ Stmt.usesAll program, ∃ scopes, Stmt.StandsIn use program scopes) ∧
    (∀ use scopes, Stmt.StandsIn use program scopes →
      (∀ distance, distances.lookup use.occurrence.id = some distance ↔
        LexicalScope.FirstAt use.occurrence.name scopes distance) ∧
      (distances.lookup use.occurrence.id = none ↔
        ∀ scope ∈ scopes, ¬ scope.Holds use.occurrence.name)) ∧
    ∀ entry ∈ distances, ∃ use ∈ Stmt.usesAll program, use.occurrence.id = entry.1 := by
  intro program
  have read := Grammar.readBody_of_program parsed
  have wellFormed : Stmt.AllWellFormed program := read.wellFormed fun token member =>
    Lexer.allSpelled_itemsFrom _ _ _ token (List.takeWhile_subset _ member)
  refine ⟨fun use => Stmt.exists_standsIn program, fun use scopes stands => ?_,
    fun entry => exists_use_of_mem resolved⟩
  rw [lookup_eq_nearest? resolved wellFormed read.numbered.nodup stands]
  exact ⟨fun _ => LexicalScope.nearest?_eq_some_iff, LexicalScope.nearest?_eq_none_iff⟩

/-- A function reads a variable of the outer block; a variable of the same name is
declared behind the function in the inner block. -/
def shadowedLater : String :=
  "{var a;{fun f(){print a;}var a;}}"

/-- The read passes over the inner block, which does not hold the name yet. -/
theorem shadowedLater_reads_outer_block :
    let program := (Grammar.program (Lexer.stream shadowedLater) 0).statements
    let use : Use := ⟨.read, 0, ⟨.identifier, "a", 1⟩⟩
    (Grammar.program (Lexer.stream shadowedLater) 0).errors = [] ∧
      resolve program = .ok [(0, 2)] ∧
      ∃ scopes, Stmt.StandsIn use program scopes ∧ LexicalScope.FirstAt "a" scopes 2 := by
  intro program use
  have facts : (Grammar.program (Lexer.stream shadowedLater) 0).errors = [] ∧
      resolve program = .ok [(0, 2)] ∧ Stmt.usesAll program = [use] := by
    decide +kernel
  obtain ⟨parsed, resolved, uses⟩ := facts
  obtain ⟨stands, exactly, -⟩ := distance_table_is_exact shadowedLater 0 parsed resolved
  obtain ⟨scopes, stands⟩ := stands use (uses ▸ List.mem_singleton_self use)
  exact ⟨parsed, resolved, scopes, stands, ((exactly use scopes stands).1 2).mp rfl⟩

end LoxLang
