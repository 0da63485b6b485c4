import LoxLang.Proofs.Grammar.Acceptance
import LoxLang.Proofs.Scope.Placement
import LoxLang.Session

/-!
# Sources that can be run

A source that is read without faults gives a program that is well formed and
whose nodes have new numbers. If its names are resolved without faults too,
then the program is scoped with respect to the distance table of the session,
the new distances put in (`Session.Runnable.inside`). The trees of earlier
sources stay scoped, because the distances of their nodes are not touched
(`Session.Runnable.le_placing`).
-/

namespace LoxLang

set_option autoImplicit false

open Resolution

/-! ## Tokens of a source -/

namespace Lexer

/-- If a piece is a token, then one that is spelled right. -/
def Piece.Spelled (piece : Piece) : Prop :=
  ∀ kind line, piece.meaning = .token kind → Token.Spelled ⟨kind, String.ofList piece.text, line⟩

theorem spelled_string (rest : List Char) : (Piece.string rest).Spelled := by
  intro kind line token
  unfold Piece.string at token
  split at token
  · cases token
  · cases token
    trivial

theorem spelled_number (digit : Char) (rest : List Char) : (Piece.number digit rest).Spelled := by
  intro kind line token
  simp only [Piece.number] at token
  split at token
  · split at token
    · cases token
      trivial
    · cases token
      trivial
  · cases token
    trivial

/-- A name is compared with the reserved words. -/
theorem spelled_name (char : Char) (rest : List Char) : (Piece.name char rest).Spelled := by
  intro kind line token
  cases token
  simp only [Token.Spelled, Piece.name]
  cases found : Keyword.ofText? (String.ofList (char :: rest.takeWhile isNamePart)) with
  | none => rfl
  | some word =>
      have same := List.find?_some found
      exact (eq_of_beq same).symm

theorem spelled_mark (char : Char) (rest : List Char) : (Piece.mark char rest).Spelled := by
  intro kind line token
  unfold Piece.mark at token
  split at token
  · cases token
    trivial
  · split at token
    · cases token
      trivial
    · cases token

theorem spelled_first (char : Char) (rest : List Char) : (Piece.first char rest).Spelled := by
  unfold Piece.first
  split
  · exact fun _ _ => nofun
  · split
    · exact fun _ _ => nofun
    · split
      · exact spelled_string rest
      · split
        · exact spelled_number char rest
        · split
          · exact spelled_name char rest
          · exact spelled_mark char rest

/-- Every token of a source is spelled right. -/
theorem allSpelled_itemsFrom : ∀ (fuel line : Nat) (source : List Char),
    AllSpelled ((itemsFrom fuel line source).filterMap Item.token?)
  | 0, _, _ | _ + 1, _, [] => allSpelled_cons.mpr ⟨trivial, nofun⟩
  | fuel + 1, line, char :: rest => by
      have behind := allSpelled_itemsFrom fuel (line + (Piece.first char rest).lineEnds)
        (Piece.first char rest).rest
      simp only [itemsFrom]
      split
      · exact behind
      next kind token => exact allSpelled_cons.mpr ⟨spelled_first char rest kind _ token, behind⟩
      · exact behind

end Lexer

/-! ## Distances -/

namespace DistanceTable

/-- A list of distances goes before the table it is put into. -/
theorem find?_insertAll (table : DistanceTable) (entries : List (Nat × Nat)) (id : Nat) :
    (table.insertAll entries).find? id = (entries.lookup id).or (table.find? id) := by
  induction entries with
  | nil => rfl
  | cons entry rest ih =>
      obtain ⟨other, distance⟩ := entry
      rw [insertAll, List.lookup_cons]
      by_cases same : id = other
      · rw [same, find?_insert_self, beq_self_eq_true]
        rfl
      · rw [find?_insert_of_ne same, ih, beq_eq_false_iff_ne.mpr same]

/-- Numbers below a bound are placed where the table has them. -/
def placing (table : DistanceTable) (bound : Nat) : Placing :=
  fun id distance => id < bound ∧ table.find? id = distance

end DistanceTable

/-! ## Programs -/

namespace Session

/-- A source that is read and resolved without faults, and so is run. -/
structure Runnable (session : Session) (source : String) (distances : List (Nat × Nat)) :
    Prop where
  quiet : (session.read source).2.hasStaticFault = false
  resolved : resolve (session.read source).1 = .ok distances

theorem diagnostics_reportAll (diagnostics : List Diagnostic) (session : Session) :
    (session.reportAll diagnostics).diagnostics = session.diagnostics ++ diagnostics := by
  induction diagnostics generalizing session with
  | nil => simp [reportAll]
  | cons first rest ih =>
      rw [reportAll, List.foldl_cons, ← reportAll, ih]
      simp [report]

theorem hasStaticFault_reportAll {session : Session} {diagnostics : List Diagnostic}
    (static : ∀ diagnostic ∈ diagnostics, diagnostic.isStatic = true)
    (quiet : (session.reportAll diagnostics).hasStaticFault = false) :
    diagnostics = [] ∧ session.hasStaticFault = false := by
  rw [hasStaticFault, diagnostics_reportAll, List.any_append, Bool.or_eq_false_iff] at quiet
  refine ⟨?_, quiet.1⟩
  cases diagnostics with
  | nil => rfl
  | cons first rest =>
      have here := static first List.mem_cons_self
      simp [here] at quiet

/-- What a source that is read without faults gives. -/
theorem readBody_read {session : Session} {source : String}
    (quiet : (session.read source).2.hasStaticFault = false) :
    Stmt.AllWellFormed (session.read source).1 ∧
      Numbered (Stmt.numbersAll (session.read source).1) session.nextId
        (session.read source).2.nextId := by
  have none : (Grammar.program (TokenStream.ofTokens ((Lexer.items source).filterMap
      Lexer.Item.token?)) session.nextId).errors = [] := by
    have reported := (hasStaticFault_reportAll (by simp [Diagnostic.isStatic]) quiet).1
    exact List.map_eq_nil_iff.mp reported
  have read := Grammar.readBody_of_program none
  refine ⟨read.wellFormed fun token member => ?_, read.numbered⟩
  exact Lexer.allSpelled_itemsFrom _ _ _ token (List.takeWhile_subset _ member)

namespace Runnable

variable {session : Session} {source : String} {distances : List (Nat × Nat)}

theorem wellFormed (runnable : session.Runnable source distances) :
    Stmt.AllWellFormed (session.read source).1 :=
  (readBody_read runnable.quiet).1

theorem numbered (runnable : session.Runnable source distances) :
    Numbered (Stmt.numbersAll (session.read source).1) session.nextId
      (session.read source).2.nextId :=
  (readBody_read runnable.quiet).2

/-- What resolution has found. -/
theorem entries (runnable : session.Runnable source distances) :
    (∀ entry ∈ distances, entry.1 ∈ Stmt.numbersAll (session.read source).1) ∧
      ∀ placed : Placing,
        (∀ id ∈ Stmt.numbersAll (session.read source).1, placed id (distances.lookup id)) →
          Stmt.AllScoped placed ⟨.topLevel, .outside⟩ [] (session.read source).1 := by
  have walked := walked_statements (session.read source).1 ⟨.topLevel, .outside⟩ Resolution.start
    runnable.wellFormed runnable.numbered.nodup
  obtain ⟨added, same, among, holds⟩ := walked.entries
  have resolved := runnable.resolved
  simp only [resolve, Resolution.program] at resolved
  split at resolved
  next none =>
    cases resolved
    rw [same, show Resolution.start.distances = [] from rfl, List.append_nil]
    exact ⟨among, holds none⟩
  next => cases resolved

variable (unplaced : ∀ id, session.nextId ≤ id → session.machine.distances.find? id = none)

include unplaced in
/-- **The program of a source is scoped** by the distances in the table. -/
theorem inside (runnable : session.Runnable source distances) :
    Stmt.AllScoped ((session.prepared distances).distances.placing (session.read source).2.nextId)
      ⟨.topLevel, .outside⟩ [] (session.read source).1 := by
  refine runnable.entries.2 _ fun id member => ?_
  obtain ⟨new, below⟩ := runnable.numbered.range id member
  refine ⟨below, ?_⟩
  rw [prepared, DistanceTable.find?_insertAll, unplaced id new, Option.or_none]

/-- The numbers of a source are not those of any source before it. -/
theorem lookup_of_lt (runnable : session.Runnable source distances) {id : Nat}
    (old : id < session.nextId) : distances.lookup id = none := by
  refine lookup_eq_none runnable.entries.1 fun member => ?_
  exact absurd (runnable.numbered.range id member).1 (Nat.not_le.mpr old)

/-- **Earlier trees stay scoped**: their distances are not touched. -/
theorem le_placing (runnable : session.Runnable source distances) :
    Placing.Le (session.machine.distances.placing session.nextId)
      ((session.prepared distances).distances.placing (session.read source).2.nextId) := by
  rintro id distance ⟨old, recorded⟩
  refine ⟨Nat.lt_of_lt_of_le old runnable.numbered.le, ?_⟩
  rw [prepared, DistanceTable.find?_insertAll, runnable.lookup_of_lt old, recorded, Option.none_or]

include unplaced in
/-- Numbers that are not drawn yet have no distance. -/
theorem unplaced_prepared (runnable : session.Runnable source distances) {id : Nat}
    (new : (session.read source).2.nextId ≤ id) :
    (session.prepared distances).distances.find? id = none := by
  have absent : distances.lookup id = none :=
    lookup_eq_none runnable.entries.1 fun member =>
      absurd (runnable.numbered.range id member).2 (Nat.not_lt.mpr new)
  rw [prepared, DistanceTable.find?_insertAll, absent,
    unplaced id (Nat.le_trans runnable.numbered.le new), Option.none_or]

end Runnable

end Session

end LoxLang
