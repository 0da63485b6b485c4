import LoxLang.Proofs.Grammar.BrokenStatement
import LoxLang.Proofs.Grammar.Segments

/-!
# Recovery behind a broken statement

A program is made of declarations that are intact and simple statements that
are broken, in any order. Then each of them is read as it is read alone: a
broken statement gives its own errors and no statement, an intact declaration
gives its own statement and no error (`recovery_is_local`).

Behind the fault of a broken statement, reading goes on behind its semicolon:
the fault is in front of the semicolon, and no token in between opens a
statement.
-/

namespace LoxLang

set_option autoImplicit false

namespace Grammar

open Reader

/-- What tokens in front of an end marker are read into by themselves. -/
def alone (marker : Token) (tokens : List Token) : Program :=
  program (TokenStream.ofTokens (tokens ++ [marker])) 0

/-- The words that open a declaration or a statement. -/
def openingWords : List Keyword :=
  [.kwClass, .kwFun, .kwVar, .kwFor, .kwIf, .kwWhile, .kwPrint, .kwReturn]

/-- One declaration that is read alone without errors. -/
structure Intact (marker : Token) (tokens : List Token) : Prop where
  noEnd : ∀ token ∈ tokens, token.isEnd = false
  one : ∃ found, (alone marker tokens).statements = [found]
  quiet : (alone marker tokens).errors = []

/-- A simple statement that cannot be read alone. Its last token is its only
semicolon, it has no braces, and only its first token may be a word that opens a
statement, though not `for`. -/
structure Broken (marker : Token) (tokens : List Token) : Prop where
  noEnd : ∀ token ∈ tokens, token.isEnd = false
  semicolon : ∃ front last, tokens = front ++ [last] ∧ last.isPunct .semicolon = true ∧
    ∀ token ∈ front, token.isPunct .semicolon = false
  noBrace : ∀ token ∈ tokens,
    token.isPunct .leftBrace = false ∧ token.isPunct .rightBrace = false
  opening : ∀ token ∈ tokens.head?,
    token.isKeyword .kwFor = false ∧ token.isKeyword .kwElse = false
  simple : ∀ token ∈ tokens.tail, ∀ word ∈ openingWords, token.isKeyword word = false
  none : (alone marker tokens).statements = []

theorem opensStatement_eq_false {token : Token}
    (simple : ∀ word ∈ openingWords, token.isKeyword word = false) :
    opensStatement token = false := by
  cases opens : opensStatement token with
  | false => rfl
  | true =>
      simp only [opensStatement] at opens
      split at opens
      next word kind =>
        have other := simple word (by cases word <;> first | decide | cases opens)
        rw [Token.isKeyword, kind] at other
        simp at other
      next => cases opens

/-- Tokens with one semicolon at the end are those of a simple statement. -/
theorem simple_of_forall {last : Token} (semicolon : last.isPunct .semicolon = true) :
    ∀ {front : List Token}, (∀ token ∈ front, insideStatement token = true) →
      Simple (front ++ [last])
  | [], _ => by
      refine .last last ?_
      rw [Token.isPunct] at semicolon
      split at semicolon
      next mark kind => rw [kind, beq_iff_eq.mp semicolon]
      next => cases semicolon
  | token :: rest, inside =>
      .cons token (inside token List.mem_cons_self)
        (simple_of_forall semicolon fun other member =>
          inside other (List.mem_cons_of_mem _ member))

theorem insideStatement_eq_true {token : Token} (noSemicolon : token.isPunct .semicolon = false)
    (noBrace : token.isPunct .leftBrace = false ∧ token.isPunct .rightBrace = false)
    (noFor : token.isKeyword .kwFor = false) : insideStatement token = true := by
  obtain ⟨noLeft, noRight⟩ := noBrace
  simp only [Token.isPunct, Token.isKeyword] at noSemicolon noLeft noRight noFor
  unfold insideStatement
  split <;> simp_all

section Broken

variable {marker : Token} {tokens : List Token}

theorem Broken.noFor (broken : Broken marker tokens) :
    ∀ token ∈ tokens, token.isKeyword .kwFor = false := by
  intro token member
  cases tokens with
  | nil => cases member
  | cons first rest =>
      rcases List.mem_cons.mp member with rfl | later
      · exact (broken.opening token rfl).1
      · exact broken.simple token later .kwFor (by decide)

theorem Broken.isSimple (broken : Broken marker tokens) : Simple tokens := by
  obtain ⟨front, last, rfl, semicolon, others⟩ := broken.semicolon
  refine simple_of_forall semicolon fun token member => ?_
  have inside : token ∈ front ++ [last] := List.mem_append.mpr (.inl member)
  exact insideStatement_eq_true (others token member) (broken.noBrace token inside)
    (broken.noFor token inside)

end Broken

/-- Behind a fault, reading goes on behind the semicolon. -/
theorem boundaryAfter_simple {dropped : Token} {rest : List Token}
    (simple : Simple (dropped :: rest))
    (others : ∀ token ∈ rest, opensStatement token = false) (behind : List Token) :
    boundaryAfter dropped (rest ++ behind) = behind := by
  induction rest generalizing dropped with
  | nil =>
      cases simple with
      | last _ semicolon =>
          cases behind with
          | nil => rfl
          | cons token rest =>
              rw [List.nil_append, boundaryAfter, isPunct_of_kind semicolon]
              rfl
      | cons _ _ simple => exact absurd rfl simple.ne_nil
  | cons token rest ih =>
      cases simple with
      | cons _ inside simple =>
          have closed : opensStatement token = false := others token List.mem_cons_self
          rw [List.cons_append, boundaryAfter, not_semicolon_of_inside inside, closed]
          exact ih simple fun other member => others other (List.mem_cons_of_mem _ member)

theorem boundary_simple {rest : List Token} (simple : Simple rest)
    (others : ∀ token ∈ rest.tail, opensStatement token = false) (behind : List Token) :
    boundary (rest ++ behind) = behind := by
  cases rest with
  | nil => exact absurd rfl simple.ne_nil
  | cons dropped rest => exact boundaryAfter_simple simple others behind

/-! ## One segment in front of others -/

section Segments

variable {marker : Token} {segment : List Token}

/-- The place of a segment in front of other tokens, with the numbers and errors
of a state. -/
def among (state : ReaderState) (behind : List Token) : Transport where
  change := ⟨fun id => id + state.nextId, fun line => line⟩
  behind := behind
  endLine _ := state.endLine
  earlier := state.errors
  first := 0
  steady id _ := Nat.succ_add id state.nextId

theorem state_among (state old : ReaderState) (behind : List Token) :
    (among state behind).state old =
      ⟨old.rest ++ behind, state.endLine, state.errors ++ old.errors,
        old.nextId + state.nextId⟩ := by
  have tokens : old.rest.map (Token.relabel (among state behind).change) = old.rest :=
    List.map_id'' (fun _ => rfl) _
  have errors : old.errors.map (Located.relabel (among state behind).change) = old.errors :=
    List.map_id'' (fun _ => rfl) _
  rw [Transport.state, tokens, errors]
  rfl

/-- At the start of a segment the new place is the state itself. -/
theorem state_among_start {state : ReaderState} {behind : List Token} {line : Nat}
    (shape : state.rest = segment ++ behind) :
    (among state behind).state (ReaderState.start ⟨segment, line⟩ 0) = state := by
  rw [state_among, ReaderState.start, ← shape, List.append_nil, Nat.zero_add]

/-- A segment is read in front of others as it is read alone. -/
def ReadAlike (marker : Token) (segment : List Token) : Prop :=
  ∀ (state : ReaderState) (behind : List Token) (more : Nat),
    state.rest = segment ++ behind → ¬ startsElse behind → 16 * (segment.length + 1) ≤ more + 1 →
    ∃ nextId, ∀ later last,
      Declared more ⟨behind, state.endLine, state.errors ++ (alone marker segment).errors, nextId⟩
        later last →
      ∃ found, Declared (more + 1) state (found ++ later) last ∧
        Stmt.relabelAll .forgetIds found =
          Stmt.relabelAll .forgetIds (alone marker segment).statements

theorem Intact.readAlike (intact : Intact marker segment) (last : marker.isEnd = true) :
    ReadAlike marker segment := by
  intro state behind more shape branch enough
  obtain ⟨found, one⟩ := intact.one
  have quiet := intact.quiet
  obtain ⟨after, declared, none, errors, -⟩ :=
    declared_program (TokenStream.ofTokens (segment ++ [marker])) 0
  rw [← alone, TokenStream.ofTokens_append intact.noEnd last] at declared
  rw [← alone, quiet] at errors
  rw [one] at declared
  have ends : EndsBranch (among state behind) := endsBranch_iff.mpr branch
  refine ⟨after.nextId + state.nextId, fun later final rest => ?_⟩
  have fuel : fuelFor ⟨segment, marker.line⟩ ≤ [found].length + more := by
    simp only [fuelFor, List.length_singleton]
    omega
  have next : Declared more ((among state behind).state after) later final := by
    rw [state_among, none, errors, ← quiet]
    exact rest
  have moved := declared.inFront ends errors (Nat.zero_le _) fuel next
  rw [state_among_start shape, List.length_singleton, Nat.add_comm] at moved
  refine ⟨_, moved, ?_⟩
  rw [one, Stmt.relabelAll_relabelAll]
  rfl

theorem eq_of_declared_nil {fuel : Nat} {start after : ReaderState} {found : List Stmt}
    (declared : Declared fuel start found after) (ended : start.rest = []) : after = start := by
  cases declared with
  | done => rfl
  | read more | broken more => exact absurd ended more

theorem mem_tail_of_suffix {rest tokens : List Token} {token : Token} (suffix : rest <:+ tokens)
    (member : token ∈ rest.tail) : token ∈ tokens.tail := by
  obtain ⟨before, rfl⟩ := suffix
  cases before with
  | nil => exact member
  | cons first others => exact List.mem_append.mpr (.inr (List.mem_of_mem_tail member))

/-- The fault of a broken statement, with the semicolon still ahead. -/
structure Faulty (marker : Token) (segment : List Token) (fuel : Nat) (middle : ReaderState)
    (error : GrammarError) : Prop where
  enough : fuel + 1 = 16 * (segment.length + 1)
  reading : declaration fuel (ReaderState.start ⟨segment, marker.line⟩ 0) =
    .error (.fault error) middle
  kept : Kept (ReaderState.start ⟨segment, marker.line⟩ 0) middle
  fatal : error.cause.isFatal = true
  errors : (alone marker segment).errors = middle.errors ++ [error]
  boundary : ∀ behind, boundary (middle.rest ++ behind) = behind

theorem Broken.faulty (broken : Broken marker segment) (last : marker.isEnd = true) :
    ∃ fuel middle error, Faulty marker segment fuel middle error := by
  obtain ⟨after, declared, -, errors, -⟩ :=
    declared_program (TokenStream.ofTokens (segment ++ [marker])) 0
  rw [← alone, TokenStream.ofTokens_append broken.noEnd last, broken.none] at declared
  rw [← alone] at errors
  have simple := broken.isSimple
  generalize enough : fuelFor ⟨segment, marker.line⟩ = fuel at declared
  cases declared with
  | done ended => exact absurd ended simple.ne_nil
  | @broken fuel _ middle _ error _ more reading rest =>
      have stayed := stays_declaration fuel (ReaderState.start ⟨segment, marker.line⟩ 0) simple
      rw [reading] at stayed
      obtain ⟨kept, fatal⟩ := stayed
      have closed : ∀ token ∈ middle.rest.tail, opensStatement token = false := by
        intro token member
        refine opensStatement_eq_false (broken.simple token ?_)
        exact mem_tail_of_suffix kept.suffix member
      have behind := boundary_simple kept.simple closed
      have all := eq_of_declared_nil rest (by simpa using behind [])
      refine ⟨fuel, middle, error, enough.symm, reading, kept, fatal, ?_, behind⟩
      rw [← errors, all]
      rfl

theorem Broken.readAlike (broken : Broken marker segment) (last : marker.isEnd = true) :
    ReadAlike marker segment := by
  intro state behind more shape branch enough
  obtain ⟨fuel, middle, error, faulty⟩ := broken.faulty last
  have fewer : fuel ≤ more := by
    have := faulty.enough
    omega
  have carries : Carries (among state behind) _ _ _ _ := carries_rule fewer .declaration
  have carried := carries (ReaderState.start ⟨segment, marker.line⟩ 0) (Nat.zero_le _)
  rw [Rule.read, faulty.reading] at carried
  have moved := carried.2 (.inl faulty.kept.simple.ne_nil)
  rw [state_among_start shape, state_among] at moved
  refine ⟨middle.nextId + state.nextId, fun later final rest => ⟨[], ?_, ?_⟩⟩
  · refine .broken ?_ moved ?_
    · rw [shape]
      exact List.append_ne_nil_of_left_ne_nil broken.isSimple.ne_nil _
    · simp only [ReaderState.report, faulty.boundary, List.append_assoc]
      rw [faulty.errors] at rest
      exact rest
  · rw [broken.none]

end Segments

/-! ## All segments -/

section All

variable {marker : Token} (last : marker.isEnd = true) {segment : List Token}
  (kind : Intact marker segment ∨ Broken marker segment)

include last kind

theorem readAlike_segment : ReadAlike marker segment :=
  kind.elim (·.readAlike last) (·.readAlike last)

theorem length_segment_pos : 0 < segment.length := by
  rcases kind with intact | broken
  · obtain ⟨found, one⟩ := intact.one
    obtain ⟨after, declared, -, errors, -⟩ :=
      declared_program (TokenStream.ofTokens (segment ++ [marker])) 0
    have takes := declared.length_le (by rw [errors, ← alone, intact.quiet]; rfl)
    rwa [← alone, one, TokenStream.ofTokens_append intact.noEnd last] at takes
  · exact List.length_pos_iff.mpr broken.isSimple.ne_nil

theorem not_startsElse_segment {behind : List Token} (branch : ¬ startsElse behind) :
    ¬ startsElse (segment ++ behind) := by
  rcases kind with intact | broken
  · have starts := not_startsElse_of_program intact.quiet branch
    rwa [TokenStream.ofTokens_append intact.noEnd last] at starts
  · obtain ⟨first, rest, rfl⟩ := List.exists_cons_of_ne_nil broken.isSimple.ne_nil
    rintro ⟨token, next, isElse⟩
    rw [← Token.isKeyword_iff, (broken.opening token next).2] at isElse
    cases isElse

omit kind

theorem not_startsElse_segments : ∀ {segments : List (List Token)},
    (∀ segment ∈ segments, Intact marker segment ∨ Broken marker segment) →
      ¬ startsElse segments.flatten
  | [], _ => by rintro ⟨_, member, _⟩; cases member
  | _ :: _, each => by
      obtain ⟨kind, others⟩ := List.forall_mem_cons.mp each
      exact not_startsElse_segment last kind (not_startsElse_segments others)

/-- The loop goes from segment to segment. -/
theorem read_segments : ∀ {segments : List (List Token)},
    (∀ segment ∈ segments, Intact marker segment ∨ Broken marker segment) →
    ∀ (state : ReaderState) (fuel : Nat), state.rest = segments.flatten →
      16 * (state.rest.length + 1) ≤ fuel →
      ∃ found after, Declared fuel state found after ∧
        Stmt.relabelAll .forgetIds found = Stmt.relabelAll .forgetIds
          (segments.flatMap fun segment => (alone marker segment).statements) ∧
        after.errors = state.errors ++
          segments.flatMap fun segment => (alone marker segment).errors
  | [], _, state, fuel, shape, enough => by
      obtain ⟨more, rfl⟩ := Nat.exists_eq_add_of_le' (Nat.le_trans (by omega : 1 ≤ _) enough)
      exact ⟨[], state, .done shape, rfl, by simp⟩
  | segment :: segments, each, state, fuel, shape, enough => by
      obtain ⟨kind, others⟩ := List.forall_mem_cons.mp each
      rw [List.flatten_cons] at shape
      have some := length_segment_pos last kind
      rw [shape, List.length_append] at enough
      obtain ⟨more, rfl⟩ := Nat.exists_eq_add_of_le' (Nat.le_trans (by omega : 1 ≤ _) enough)
      obtain ⟨nextId, goesOn⟩ := readAlike_segment last kind state segments.flatten more shape
        (not_startsElse_segments last others) (by omega)
      obtain ⟨later, after, declared, statements, errors⟩ := read_segments others
        ⟨segments.flatten, state.endLine, state.errors ++ (alone marker segment).errors, nextId⟩
        more rfl (by dsimp only; omega)
      obtain ⟨found, whole, same⟩ := goesOn later after declared
      refine ⟨found ++ later, after, whole, ?_, ?_⟩
      · rw [List.flatMap_cons, Stmt.relabelAll_append, Stmt.relabelAll_append, same, statements]
      · rw [List.flatMap_cons, errors, List.append_assoc]

end All

end Grammar

open Grammar

/-- **Recovery is local.** A program is made of intact declarations and broken
statements, in any order. It is read into the statements of the declarations,
up to the numbers of nodes, and its errors are those of the broken statements,
each read alone: a broken statement has no statement, and an intact declaration
no error. The errors of a broken statement end with one that is fatal, and the
others are not. -/
theorem recovery_is_local {marker : Token} (last : marker.isEnd = true)
    {segments : List (List Token)}
    (each : ∀ segment ∈ segments, Intact marker segment ∨ Broken marker segment) (nextId : Nat) :
    let whole := program (TokenStream.ofTokens (segments.flatten ++ [marker])) nextId
    Stmt.relabelAll .forgetIds whole.statements = Stmt.relabelAll .forgetIds
        (segments.flatMap fun segment => (alone marker segment).statements) ∧
      whole.errors = (segments.flatMap fun segment => (alone marker segment).errors) ∧
      ∀ segment ∈ segments, Broken marker segment → ∃ minor fatal,
        (alone marker segment).errors = minor ++ [fatal] ∧ fatal.cause.isFatal = true ∧
          ∀ error ∈ minor, error.cause.isFatal = false := by
  intro whole
  have noEnd : ∀ token ∈ segments.flatten, token.isEnd = false := by
    intro token member
    obtain ⟨segment, inside, member⟩ := List.mem_flatten.mp member
    exact (each segment inside).elim (·.noEnd token member) (·.noEnd token member)
  have stream := TokenStream.ofTokens_append noEnd last
  obtain ⟨found, after, declared, statements, errors⟩ := read_segments last each
    (ReaderState.start ⟨segments.flatten, marker.line⟩ nextId)
    (fuelFor ⟨segments.flatten, marker.line⟩) rfl (Nat.le_refl _)
  have read : whole = ⟨found, after.errors, after.nextId⟩ := by
    rw [← program_of_declared declared, ← stream]
  rw [read]
  refine ⟨statements, errors, fun segment _ broken => ?_⟩
  obtain ⟨fuel, middle, error, faulty⟩ := broken.faulty last
  obtain ⟨minor, same, none⟩ := faulty.kept.minor
  refine ⟨minor, error, ?_, faulty.fatal, none⟩
  rw [faulty.errors, same]
  rfl

/-- The tokens of `x = y;`, of `"a" = b c;` and `print;`, which are broken, and of
`fun f() { x; }`, each on a line of its own. -/
def mixedSegments : List (List Token) :=
  let word (line : Nat) (found : Keyword) : Token := ⟨.keyword found, found.text, line⟩
  let mark (line : Nat) (found : Punct) : Token := ⟨.punct found, found.text, line⟩
  let name (line : Nat) (text : String) : Token := ⟨.identifier, text, line⟩
  [[name 1 "x", mark 1 .equal, name 1 "y", mark 1 .semicolon],
    [⟨.string "a", "\"a\"", 2⟩, mark 2 .equal, name 2 "b", name 2 "c", mark 2 .semicolon],
    [word 3 .kwPrint, mark 3 .semicolon],
    [word 4 .kwFun, name 4 "f", mark 4 .leftParen, mark 4 .rightParen, mark 4 .leftBrace,
      name 4 "x", mark 4 .semicolon, mark 4 .rightBrace]]

/-- Two broken statements give three errors, of which two are fatal, and the
declarations around them are read. -/
theorem broken_statements_between_declarations :
    (∀ segment ∈ mixedSegments, Intact endMarker segment ∨ Broken endMarker segment) ∧
      (program (TokenStream.ofTokens (mixedSegments.flatten ++ [endMarker])) 0).errors =
        [⟨.invalidAssignmentTarget, 2, .atLexeme "="⟩,
          ⟨.expected .expressionEnd, 2, .atLexeme "c"⟩,
          ⟨.expected .expression, 3, .atLexeme ";"⟩] := by
  have each : ∀ segment ∈ mixedSegments,
      Intact endMarker segment ∨ Broken endMarker segment := by
    rw [mixedSegments]
    simp only [List.forall_mem_cons, List.not_mem_nil, false_implies, implies_true, and_true]
    refine ⟨.inl ⟨by decide, ⟨_, rfl⟩, by decide +kernel⟩, .inr ?_, .inr ?_,
      .inl ⟨by decide, ⟨_, rfl⟩, by decide +kernel⟩⟩
    · refine ⟨by decide, ⟨[_, _, _, _], _, rfl, rfl, ?_⟩, by decide, by decide, by decide, rfl⟩
      decide
    · refine ⟨by decide, ⟨[_], _, rfl, rfl, ?_⟩, by decide, by decide, by decide, rfl⟩
      decide
  have last : endMarker.isEnd = true := rfl
  exact ⟨each, (recovery_is_local last each 0).2.1.trans (by decide +kernel)⟩

end LoxLang
