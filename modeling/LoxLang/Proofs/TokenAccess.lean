import LoxLang.Proofs.Grammar.Following
import Mathlib.Data.List.TakeWhile

/-!
# Every token list is read within its bounds

A cursor that is set in front of any token list, with end markers at any place
or none, comes to an end with what the grammar reads (`Grammar.program`,
`Grammar.singleExpression`). It never looks where no token stands: its index
stays at or in front of the first end marker, and it only looks back from
behind a token. A program is read up to that marker, and each declaration on
the way moves the cursor on, a broken one too.

The cursor follows the reader (`Cursor.follows_declarations`), and the reader
has enough fuel (`Reader.ends_declarations`). What is left is that the tokens
with a marker behind them part at the first marker as the stream of the
grammar does (`Cursor.exists_input`).
-/

namespace LoxLang

set_option autoImplicit false

namespace Cursor

/-- The cursor stands at or in front of an index, and all that it did was
there. -/
structure Bounded (cursor : Cursor) (limit : Nat) : Prop where
  current : cursor.current ≤ limit
  trail : ∀ event ∈ cursor.trail, event.Within limit

/-! ## The tokens in front of the first marker -/

theorem Input.findIdx?_tokens (input : Input) :
    input.tokens.findIdx? Token.isEnd = some input.body.length := by
  rw [Input.tokens, List.findIdx?_append, List.findIdx?_eq_none_iff.mpr input.noEnd]
  simp [List.findIdx?_cons, input.ends]

/-- Tokens are closed by adding to them behind, if at all. -/
theorem exists_closed_eq_append (tokens : List Token) :
    ∃ added, closed tokens = tokens ++ added := by
  unfold closed
  split
  · split
    · exact ⟨[], (List.append_nil _).symm⟩
    · exact ⟨_, rfl⟩
  next none => exact ⟨_, by rw [List.getLast?_eq_none_iff.mp none, List.nil_append]⟩

/-- Closed tokens have a first end marker, and the stream ends there. -/
theorem exists_input (tokens : List Token) :
    ∃ input : Input, closed tokens = input.tokens ∧
      TokenStream.ofTokens tokens = input.stream := by
  cases found : tokens.find? Token.isEnd with
  | some marker =>
      obtain ⟨ends, body, behind, rfl, noEnd⟩ := List.find?_eq_some_iff_append.mp found
      obtain ⟨added, closing⟩ := exists_closed_eq_append (body ++ marker :: behind)
      have noEnd : ∀ token ∈ body, token.isEnd = false := fun token member => by
        simpa using noEnd token member
      have stream := @TokenStream.ofTokens_split body behind marker noEnd ends
      refine ⟨⟨body, marker, behind ++ added, noEnd, ends⟩, ?_, stream⟩
      rw [closing, Input.tokens, List.append_assoc, List.cons_append]
  | none =>
      have noEnd : ∀ token ∈ tokens, token.isEnd = false := fun token member => by
        simpa using List.find?_eq_none.mp found token member
      -- The marker that is added stands where the stream ends without one.
      have all : tokens.takeWhile (fun token => !token.isEnd) = tokens :=
        List.takeWhile_eq_self_iff.mpr fun token member => by simp [noEnd token member]
      cases last : tokens.getLast? with
      | none =>
          obtain rfl := List.getLast?_eq_none_iff.mp last
          exact ⟨⟨[], ⟨.endOfInput, "", 1⟩, [], noEnd, rfl⟩, rfl, rfl⟩
      | some token =>
          have goes := noEnd token (List.mem_of_getLast? last)
          refine ⟨⟨tokens, ⟨.endOfInput, "", token.line⟩, [], noEnd, rfl⟩, ?_, ?_⟩
          · simp only [closed, last, goes, Bool.false_eq_true, if_false]
            rfl
          · simp only [TokenStream.ofTokens, all, found, last]
            rfl

/-! ## Whole readings -/

variable {input : Input}

theorem sees_start {tokens : List Token} (closing : closed tokens = input.tokens) (nextId : Nat) :
    input.Sees (start tokens nextId) (ReaderState.start input.stream nextId) where
  tokens := closing
  current := Nat.zero_le _
  rest := rfl
  endLine := rfl
  errors := rfl
  nextId := rfl
  trail := fun _ member => nomatch member

theorem Input.Sees.bounded {cursor : Cursor} {state : ReaderState}
    (sees : input.Sees cursor state) : cursor.Bounded input.body.length :=
  ⟨sees.current, sees.trail⟩

theorem Input.Sees.current_of_nil {cursor : Cursor} {state : ReaderState}
    (sees : input.Sees cursor state) (ended : state.rest = []) :
    cursor.current = input.body.length := by
  have length := sees.length
  rwa [ended] at length

/-- A program is read up to the marker. -/
theorem exists_program (start : Cursor) (nextId more : Nat)
    (sees : input.Sees start (ReaderState.start input.stream nextId)) :
    ∃ statements final,
      declarations (Grammar.fuelFor input.stream + more) start = .ok statements final ∧
      final.Bounded input.body.length ∧ final.current = input.body.length ∧
      Grammar.program input.stream nextId = ⟨statements, final.errors, final.nextId⟩ := by
  obtain ⟨after, declared, ended, errors, ids⟩ := Grammar.declared_program input.stream nextId
  have reading := (declared.of_le (Nat.le_add_right _ more)).declarations
  have agrees := follows_declarations (Grammar.fuelFor input.stream + more) start _ sees
  rw [reading] at agrees
  generalize declarations (Grammar.fuelFor input.stream + more) start = outcome at agrees ⊢
  cases agrees with
  | @ok _ final _ seen =>
      refine ⟨_, final, rfl, seen.bounded, seen.current_of_nil ended, ?_⟩
      rw [seen.errors, seen.nextId, errors, ids]

/-- One expression is read up to the marker, or up to a fault. -/
theorem exists_singleExpression (start : Cursor) (more : Nat)
    (sees : input.Sees start (ReaderState.start input.stream 0)) :
    let outcome := expressionToEnd (Grammar.fuelFor input.stream + more) start
    ∃ final, final.Bounded input.body.length ∧
      ((∃ found, outcome = .ok found final ∧ final.current = input.body.length ∧
          Grammar.singleExpression input.stream = final.errors.head?.elim (.ok found) .error) ∨
        ∃ error, outcome = .error (.fault error) final ∧
          Grammar.singleExpression input.stream = .error error) := by
  intro outcome
  have ended := Grammar.ends_singleExpression input.stream (ReaderState.start input.stream 0) rfl
  have carries : Reader.Carries .here False _ _ _ :=
    Reader.carries_expressionToEnd (Nat.le_add_right (Grammar.fuelFor input.stream) more)
  have same := carries.eq_of_here
    (fun found => Expr.relabel_fixed found ⟨fun _ => rfl, fun _ _ => rfl⟩)
    (ReaderState.start input.stream 0) (fun last out => by rw [out] at ended; exact ended trivial)
  -- The grammar reads with just enough fuel, the cursor with more.
  have agrees : Agrees input outcome _ := follows_expressionToEnd _ start _ sees
  rw [same] at agrees
  simp only [Grammar.singleExpression]
  generalize Reader.expressionToEnd (Grammar.fuelFor input.stream)
    (ReaderState.start input.stream 0) = reading at agrees ended ⊢
  clear_value outcome
  cases agrees with
  | @ok found final after seen =>
      have none : after.rest = [] := List.length_eq_zero_iff.mp ended
      refine ⟨final, seen.bounded, .inl ⟨found, rfl, seen.current_of_nil none, ?_⟩⟩
      rw [seen.errors]
      dsimp only
      cases after.errors with
      | nil => rfl
      | cons error others => rfl
  | @fault error final after seen => exact ⟨final, seen.bounded, .inr ⟨error, rfl, rfl⟩⟩
  | outOfFuel seen => exact absurd trivial ended

end Cursor

/-- **Every token list is read within its bounds.** Whatever the tokens, there
is a first end marker behind them or among them. With enough fuel, and with any
more, the cursor reads the program of the grammar and stops at that marker, or
reads the single expression of the grammar, or the fault in it. On the way it
never stands behind the marker, only looks at tokens that are there, and moves
on with each declaration. -/
theorem token_access_stays_in_range (tokens : List Token) (nextId more : Nat) :
    let stream := TokenStream.ofTokens tokens
    let fuel := Grammar.fuelFor stream + more
    let limit := Cursor.firstEnd tokens
    (Cursor.closed tokens).findIdx? Token.isEnd = some limit ∧
    (∃ statements final,
      Cursor.declarations fuel (Cursor.start tokens nextId) = .ok statements final ∧
      final.Bounded limit ∧ final.current = limit ∧
      Grammar.program stream nextId = ⟨statements, final.errors, final.nextId⟩) ∧
    ∃ final, final.Bounded limit ∧
      ((∃ found, Cursor.expressionToEnd fuel (Cursor.start tokens 0) = .ok found final ∧
          final.current = limit ∧
          Grammar.singleExpression stream = final.errors.head?.elim (.ok found) .error) ∨
        ∃ error, Cursor.expressionToEnd fuel (Cursor.start tokens 0) = .error (.fault error) final ∧
          Grammar.singleExpression stream = .error error) := by
  intro stream fuel limit
  obtain ⟨input, closing, same⟩ := Cursor.exists_input tokens
  have found := input.findIdx?_tokens
  have first : limit = input.body.length := by
    rw [← closing] at found
    exact (List.findIdx?_eq_some_iff_findIdx_eq.mp found).2
  simp only [stream, fuel, same, first]
  refine ⟨closing ▸ found, ?_, ?_⟩
  · exact Cursor.exists_program _ nextId more (Cursor.sees_start closing nextId)
  · exact Cursor.exists_singleExpression _ more (Cursor.sees_start closing 0)

-- The fault is at the end here, and recovery looks back without moving. The one
-- declaration still went from the first index to the end.
example :
    (match Cursor.declarations 32 (Cursor.start [⟨.keyword .kwPrint, "print", 1⟩] 0) with
      | .ok _ final => final.current == 1 && final.trail.contains (.declared 0 1) &&
        final.trail.all fun event => event.Within 1
      | .error _ _ => false) = true := by
  decide

end LoxLang
