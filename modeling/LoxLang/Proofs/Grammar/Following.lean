import LoxLang.Proofs.Grammar.Cursor
import LoxLang.Proofs.Grammar.Segments

/-!
# The cursor follows the reader

A cursor sees what a reader has left if the tokens from its index up to the
first end marker are the reader's tokens (`Cursor.Input.Sees`). Then a step of
the cursor and the step of the reader with the same name come to the same
result and end at places that correspond again, or they stop with the same
fault or both for want of fuel (`Cursor.Follows`). No outcome of a reader
corresponds to a look where no token stands, so the cursor never looks there.

Sight includes the trail. Every look so far was at an index up to the first end
marker, every look back was behind a token, and every declaration moved the
cursor on. The steps that look add to the trail, and so this is shown once for
each of them and holds for all rules.

The one place where a look back could fail is the recovery from a fault, which
looks back without having moved if the fault is at the end. But a declaration is
only begun in front of a token, and so there is one behind the cursor by then
(`Cursor.agrees_recover`).
-/

namespace LoxLang

set_option autoImplicit false

/-- The event is between the first token and an index: looks ahead are at most
at the index, looks back are also behind a token, and a declaration moves on. -/
def Event.Within (limit : Nat) : Event → Prop
  | .next current => current ≤ limit
  | .previous current => 1 ≤ current ∧ current ≤ limit
  | .declared start stop => start < stop ∧ stop ≤ limit

instance (limit : Nat) : DecidablePred (Event.Within limit)
  | .next current => inferInstanceAs (Decidable (current ≤ limit))
  | .previous current => inferInstanceAs (Decidable (1 ≤ current ∧ current ≤ limit))
  | .declared start stop => inferInstanceAs (Decidable (start < stop ∧ stop ≤ limit))

namespace Cursor

/-- Tokens with an end marker among them, parted at the first one. -/
structure Input where
  body : List Token
  marker : Token
  behind : List Token
  noEnd : ∀ token ∈ body, token.isEnd = false
  ends : marker.isEnd = true

namespace Input

/-- The tokens in a row. -/
def tokens (input : Input) : List Token := input.body ++ input.marker :: input.behind

/-- The tokens of an input up to its marker. -/
def stream (input : Input) : TokenStream := ⟨input.body, input.marker.line⟩

/-- The cursor stands in front of the reader's tokens, and everything on its
trail is within the body. -/
structure Sees (input : Input) (cursor : Cursor) (state : ReaderState) : Prop where
  tokens : cursor.tokens = input.tokens
  current : cursor.current ≤ input.body.length
  rest : state.rest = input.body.drop cursor.current
  endLine : state.endLine = input.marker.line
  errors : cursor.errors = state.errors
  nextId : cursor.nextId = state.nextId
  trail : ∀ event ∈ cursor.trail, event.Within input.body.length

end Input

variable {input : Input} {cursor : Cursor} {state : ReaderState}

namespace Input.Sees

theorem length (sees : input.Sees cursor state) :
    cursor.current + state.rest.length = input.body.length := by
  have current := sees.current
  rw [sees.rest, List.length_drop]
  omega

theorem note (sees : input.Sees cursor state) {event : Event}
    (within : event.Within input.body.length) : input.Sees (cursor.note event) state where
  tokens := sees.tokens
  current := sees.current
  rest := sees.rest
  endLine := sees.endLine
  errors := sees.errors
  nextId := sees.nextId
  trail := by
    intro noted member
    rcases List.mem_append.mp member with earlier | last
    · exact sees.trail noted earlier
    · rw [List.mem_singleton.mp last]
      exact within

/-- The next token of the cursor is the first one left, or the marker. -/
theorem getElem?_current (sees : input.Sees cursor state) :
    cursor.tokens[cursor.current]? = some (state.rest.headD input.marker) := by
  rw [← List.head?_drop, sees.tokens, Input.tokens,
    List.drop_append_of_le_length sees.current, ← sees.rest]
  cases state.rest <;> rfl

/-- The next token is an end marker only if nothing is left. -/
theorem isEnd_next (sees : input.Sees cursor state) :
    (state.rest.headD input.marker).isEnd = state.rest.isEmpty := by
  cases shape : state.rest with
  | nil => exact input.ends
  | cons token rest =>
      have member : token ∈ state.rest := by simp [shape]
      rw [sees.rest] at member
      exact input.noEnd token (List.mem_of_mem_drop member)

/-- A cause at the next token has the same line and place for both. -/
theorem located_next (sees : input.Sees cursor state) (cause : GrammarCause) :
    Located.ofToken cause (state.rest.headD input.marker) = state.located cause := by
  have ended := sees.isEnd_next
  cases shape : state.rest with
  | nil =>
      rw [shape] at ended
      simp only [ReaderState.located, shape, Located.ofToken, Token.place, ended, sees.endLine]
      rfl
  | cons token rest =>
      rw [shape] at ended
      simp only [ReaderState.located, shape, Located.ofToken, Token.place, ended]
      rfl

/-- Behind the next token the cursor sees the others. -/
theorem move (sees : input.Sees cursor state) {token : Token} {rest : List Token}
    (shape : state.rest = token :: rest) :
    input.Sees { cursor with current := cursor.current + 1 } { state with rest := rest } where
  tokens := sees.tokens
  current := by
    have length := sees.length
    rw [shape, List.length_cons] at length
    exact Nat.le.intro (by omega : cursor.current + 1 + rest.length = input.body.length)
  rest := by
    change rest = input.body.drop (cursor.current + 1)
    rw [← List.drop_drop, ← sees.rest, shape, List.drop_one, List.tail_cons]
  endLine := sees.endLine
  errors := sees.errors
  nextId := sees.nextId
  trail := sees.trail

theorem report (sees : input.Sees cursor state) (error : GrammarError) :
    input.Sees { cursor with errors := cursor.errors ++ [error] } (state.report error) where
  tokens := sees.tokens
  current := sees.current
  rest := sees.rest
  endLine := sees.endLine
  errors := congrArg (· ++ [error]) sees.errors
  nextId := sees.nextId
  trail := sees.trail

end Input.Sees

/-! ## Corresponding outcomes -/

variable {Result Other : Type}

/-- The outcome of a cursor corresponds to that of a reader. -/
inductive Agrees (input : Input) :
    EStateM.Result CursorStop Cursor Result → EStateM.Result ReaderStop ReaderState Result → Prop
  | ok {result : Result} {cursor : Cursor} {state : ReaderState}
      (sees : input.Sees cursor state) : Agrees input (.ok result cursor) (.ok result state)
  | fault {error : GrammarError} {cursor : Cursor} {state : ReaderState}
      (sees : input.Sees cursor state) :
      Agrees input (.error (.fault error) cursor) (.error (.fault error) state)
  | outOfFuel {cursor : Cursor} {state : ReaderState} (sees : input.Sees cursor state) :
      Agrees input (.error .outOfFuel cursor) (.error .outOfFuel state)

/-- From places that correspond, the step of a cursor comes to an outcome that
corresponds to the reader's. -/
def Follows (input : Input) (step : Step Result) (reading : Reader Result) : Prop :=
  ∀ cursor state, input.Sees cursor state → Agrees input (step cursor) (reading state)

theorem Agrees.bind {step : Step Result} {reading : Reader Result}
    {next : Result → Step Other} {going : Result → Reader Other}
    (first : Agrees input (step cursor) (reading state))
    (second : ∀ result reached after, reading state = .ok result after →
      input.Sees reached after → Agrees input (next result reached) (going result after)) :
    Agrees input ((step >>= next) cursor) ((reading >>= going) state) := by
  simp only [Bind.bind, EStateM.bind]
  generalize read : reading state = outcome at first ⊢
  generalize step cursor = reached at first ⊢
  cases first with
  | ok sees => exact second _ _ _ read sees
  | fault sees => exact .fault sees
  | outOfFuel sees => exact .outOfFuel sees

namespace Follows

variable {step : Step Result} {reading : Reader Result}

theorem pure (result : Result) : Follows input (pure result) (pure result) :=
  fun _ _ sees => .ok sees

theorem bind {next : Result → Step Other} {going : Result → Reader Other}
    (first : Follows input step reading)
    (second : ∀ result, Follows input (next result) (going result)) :
    Follows input (step >>= next) (reading >>= going) :=
  fun cursor state sees =>
    (first cursor state sees).bind fun result reached after _ seen =>
      second result reached after seen

end Follows

/-! ## Looking and moving -/

section Looking

variable (sees : input.Sees cursor state)
include sees

theorem peek_eq :
    peek cursor = .ok (state.rest.headD input.marker) (cursor.note (.next cursor.current)) := by
  simp only [peek, sees.getElem?_current]

theorem sees_peek : input.Sees (cursor.note (.next cursor.current)) state :=
  sees.note sees.current

theorem isAtEnd_eq :
    isAtEnd cursor = .ok state.rest.isEmpty (cursor.note (.next cursor.current)) := by
  simp only [isAtEnd, Bind.bind, EStateM.bind, peek_eq sees]
  rw [sees.isEnd_next]
  rfl

end Looking

/-- The token right before the index of a cursor. -/
def Behind (cursor : Cursor) (token : Token) : Prop :=
  ∃ before, cursor.current = before + 1 ∧ cursor.tokens[before]? = some token

theorem previous_eq {token : Token} (behind : cursor.Behind token) :
    previous cursor = .ok token (cursor.note (.previous cursor.current)) := by
  obtain ⟨before, current, found⟩ := behind
  simp only [previous, current, found]

theorem sees_previous {token : Token} (sees : input.Sees cursor state)
    (behind : cursor.Behind token) : input.Sees (cursor.note (.previous cursor.current)) state := by
  obtain ⟨before, current, _⟩ := behind
  exact sees.note ⟨by omega, sees.current⟩

/-- In front of a token, the cursor moves behind it. -/
theorem advance_of_cons (sees : input.Sees cursor state) {token : Token} {rest : List Token}
    (shape : state.rest = token :: rest) :
    ∃ reached, advance cursor = .ok token reached ∧
      input.Sees reached { state with rest := rest } ∧ reached.Behind token := by
  have looked := sees_peek sees
  have moved := looked.move shape
  have found := sees.getElem?_current
  rw [shape] at found
  have behind : Behind { cursor.note (.next cursor.current) with
      current := cursor.current + 1 } token := ⟨cursor.current, rfl, found⟩
  refine ⟨_, ?_, sees_previous moved behind, behind⟩
  simp only [advance, Bind.bind, EStateM.bind, isAtEnd_eq sees, shape, List.isEmpty_cons,
    Bool.false_eq_true, if_false, move]
  exact previous_eq behind

/-- At the end, the cursor stays and looks back. -/
theorem advance_of_nil (sees : input.Sees cursor state) (shape : state.rest = [])
    {token : Token} (behind : cursor.Behind token) :
    ∃ reached, advance cursor = .ok token reached ∧ input.Sees reached state ∧
      reached.Behind token := by
  have looked := sees_peek sees
  have still : (cursor.note (.next cursor.current)).Behind token := behind
  refine ⟨_, ?_, sees_previous looked still, behind⟩
  simp only [advance, Bind.bind, EStateM.bind, isAtEnd_eq sees, shape, List.isEmpty_nil, if_true]
  exact previous_eq still

/-! ## The steps that rules are made of -/

theorem follows_outOfFuel :
    Follows input (stop .outOfFuel : Step Result) (Reader.outOfFuel : Reader Result) :=
  fun _ _ sees => .outOfFuel sees

theorem follows_freshId : Follows input freshId Reader.freshId := by
  intro cursor state sees
  simp only [freshId, Reader.freshId, sees.nextId]
  exact .ok { sees with nextId := rfl }

theorem follows_reportAt (token : Token) (cause : GrammarCause) :
    Follows input (reportAt token cause) (Reader.reportAt token cause) :=
  fun _ _ sees => .ok (sees.report _)

theorem follows_reportHere (cause : GrammarCause) :
    Follows input (reportHere cause) (Reader.reportHere cause) := by
  intro cursor state sees
  simp only [reportHere, Bind.bind, EStateM.bind, peek_eq sees, reportAt, sees.located_next]
  exact .ok ((sees_peek sees).report _)

theorem follows_fail (expectation : Expectation) :
    Follows input (fail expectation : Step Result) (Reader.fail expectation) := by
  intro cursor state sees
  simp only [fail, Bind.bind, EStateM.bind, peek_eq sees, stop, sees.located_next]
  exact .fault (sees_peek sees)

theorem follows_isAtEnd : Follows input isAtEnd Reader.atEnd := by
  intro cursor state sees
  rw [isAtEnd_eq sees]
  exact .ok (sees_peek sees)

/-- A check looks twice in front of a token and once at the end. -/
theorem check_eq (sees : input.Sees cursor state) (test : Token → Bool) :
    ∃ reached, check test cursor = .ok (state.rest.head?.any test) reached ∧
      input.Sees reached state := by
  have looked := sees_peek sees
  cases shape : state.rest with
  | nil =>
      refine ⟨_, ?_, looked⟩
      simp only [check, Bind.bind, EStateM.bind, isAtEnd_eq sees, shape, List.isEmpty_nil, if_true]
      rfl
  | cons token rest =>
      refine ⟨_, ?_, sees_peek looked⟩
      simp only [check, Bind.bind, EStateM.bind, isAtEnd_eq sees, shape, List.isEmpty_cons,
        Bool.false_eq_true, if_false, peek_eq looked]
      rfl

theorem follows_check (test : Token → Bool) :
    Follows input (check test) (Reader.upcoming test) := by
  intro cursor state sees
  obtain ⟨reached, checked, seen⟩ := check_eq sees test
  rw [checked]
  unfold Reader.upcoming
  cases shape : state.rest with
  | nil => exact .ok seen
  | cons token rest => exact .ok seen

theorem follows_accept? (test : Token → Bool) :
    Follows input (accept? test) (Reader.accept? test) := by
  intro cursor state sees
  obtain ⟨reached, checked, seen⟩ := check_eq sees test
  simp only [accept?, Reader.accept?, Bind.bind, EStateM.bind, checked]
  cases shape : state.rest with
  | nil => exact .ok seen
  | cons token rest =>
      cases passes : test token with
      | false =>
          simp only [List.head?_cons, Option.any_some, passes, Bool.false_eq_true, if_false]
          exact .ok seen
      | true =>
          obtain ⟨last, advanced, moved, _⟩ := advance_of_cons seen shape
          simp only [List.head?_cons, Option.any_some, passes, if_true, EStateM.bind, advanced]
          exact .ok moved

theorem follows_acceptAs? {Class : Type} (classify : Token → Option Class) :
    Follows input (acceptAs? classify) (Reader.acceptAs? classify) := by
  intro cursor state sees
  have looked := sees_peek sees
  cases shape : state.rest with
  | nil =>
      simp only [acceptAs?, Reader.acceptAs?, Bind.bind, EStateM.bind, isAtEnd_eq sees, shape,
        List.isEmpty_nil, if_true]
      exact .ok looked
  | cons token rest =>
      simp only [acceptAs?, Reader.acceptAs?, Bind.bind, EStateM.bind, isAtEnd_eq sees, shape,
        List.isEmpty_cons, Bool.false_eq_true, if_false, peek_eq looked, List.headD_cons]
      cases classify token with
      | none => exact .ok (sees_peek looked)
      | some found =>
          obtain ⟨last, advanced, moved, _⟩ := advance_of_cons (sees_peek looked) shape
          simp only [EStateM.bind, advanced]
          exact .ok moved

theorem follows_expect (test : Token → Bool) (expectation : Expectation) :
    Follows input (expect test expectation) (Reader.expect test expectation) := by
  intro cursor state sees
  obtain ⟨reached, checked, seen⟩ := check_eq sees test
  have fails : Follows input (fail expectation : Step Token) (Reader.fail expectation) :=
    follows_fail expectation
  have failed := fails reached state seen
  simp only [expect, Reader.expect, Bind.bind, EStateM.bind, checked]
  cases shape : state.rest with
  | nil => exact failed
  | cons token rest =>
      cases passes : test token with
      | false =>
          simp only [List.head?_cons, Option.any_some, passes, Bool.false_eq_true, if_false]
          exact failed
      | true =>
          obtain ⟨last, advanced, moved, _⟩ := advance_of_cons seen shape
          simp only [List.head?_cons, Option.any_some, passes, if_true, advanced]
          exact .ok moved

/-! ## Going on behind a fault -/

/-- The rounds suffice to come to the boundary that the reader goes to. The
induction is on the tokens left, of which each round takes one. -/
theorem skip_eq : ∀ (rest : List Token) {rounds : Nat} {cursor : Cursor} {state : ReaderState}
    {dropped : Token}, input.Sees cursor state → state.rest = rest → rest.length < rounds →
    cursor.Behind dropped →
    ∃ reached, skip rounds cursor = .ok () reached ∧
      input.Sees reached { state with rest := Reader.boundaryAfter dropped rest }
  | _, 0, _, _, _, _, _, enough, _ => by omega
  | [], rounds + 1, cursor, state, dropped, sees, shape, _, _ => by
      rw [Reader.boundaryAfter, ← shape]
      refine ⟨_, ?_, sees_peek sees⟩
      simp only [skip, Bind.bind, EStateM.bind, isAtEnd_eq sees, shape, List.isEmpty_nil, if_true]
      rfl
  | token :: rest, rounds + 1, cursor, state, dropped, sees, shape, enough, behind => by
      have looked := sees_peek sees
      have back : previous (cursor.note (.next cursor.current)) = _ := previous_eq behind
      have seen := sees_previous looked behind
      simp only [skip, Bind.bind, EStateM.bind, isAtEnd_eq sees, shape, List.isEmpty_cons,
        Bool.false_eq_true, if_false, back, Reader.boundaryAfter]
      cases semicolon : dropped.isPunct .semicolon with
      | true =>
          simp only [Bool.true_or, if_true, ← shape]
          exact ⟨_, rfl, seen⟩
      | false =>
          have again := sees_peek seen
          simp only [Bool.false_or, Bool.false_eq_true, if_false, EStateM.bind, peek_eq seen, shape,
            List.headD_cons]
          cases opens : Reader.opensStatement token with
          | true =>
              simp only [if_true, ← shape]
              exact ⟨_, rfl, again⟩
          | false =>
              obtain ⟨last, advanced, moved, passed⟩ := advance_of_cons again shape
              simp only [Bool.false_eq_true, if_false, EStateM.bind, advanced]
              obtain ⟨reached, skipped, boundary⟩ :=
                skip_eq rest moved rfl (Nat.lt_of_succ_lt_succ enough) passed
              exact ⟨reached, skipped, boundary⟩

/-- At the end of a body that is not empty, there is a token behind the cursor. -/
theorem exists_behind (sees : input.Sees cursor state) (ended : state.rest = [])
    (more : input.body ≠ []) : ∃ token, cursor.Behind token := by
  have length := sees.length
  have some := List.length_pos_iff.mpr more
  rw [ended, List.length_nil] at length
  have inside : cursor.current - 1 < input.body.length := by omega
  refine ⟨input.body[cursor.current - 1], cursor.current - 1, by omega, ?_⟩
  rw [sees.tokens, Input.tokens, List.getElem?_append_left inside]
  exact List.getElem?_eq_getElem inside

/-- Behind a fault in a body that is not empty, cursor and reader go on at the
same boundary. -/
theorem synchronize_eq (sees : input.Sees cursor state) (more : input.body ≠ []) :
    ∃ reached, synchronize cursor = .ok () reached ∧
      input.Sees reached { state with rest := Reader.boundary state.rest } := by
  have rounds {reached : Cursor} {after : ReaderState} (sees : input.Sees reached after) :
      after.rest.length < reached.tokens.length - reached.current := by
    have length := sees.length
    rw [sees.tokens, Input.tokens, List.length_append, List.length_cons]
    omega
  cases shape : state.rest with
  | nil =>
      -- The cursor does not move here, and looks back at the last token of the body.
      obtain ⟨token, behind⟩ := exists_behind sees shape more
      obtain ⟨back, advanced, seen, still⟩ := advance_of_nil sees shape behind
      obtain ⟨reached, skipped, boundary⟩ :=
        skip_eq [] seen shape (by have enough := rounds seen; rwa [shape] at enough) still
      refine ⟨reached, ?_, boundary⟩
      simp only [synchronize, Bind.bind, EStateM.bind, advanced, skipped]
  | cons token rest =>
      obtain ⟨next, advanced, moved, behind⟩ := advance_of_cons sees shape
      obtain ⟨reached, skipped, boundary⟩ := skip_eq rest moved rfl (rounds moved) behind
      refine ⟨reached, ?_, boundary⟩
      simp only [synchronize, Bind.bind, EStateM.bind, advanced, skipped]

/-- A fault in a body that is not empty is recovered from alike. -/
theorem agrees_recover {step : Step Result} {reading : Reader Result}
    (agrees : Agrees input (step cursor) (reading state)) (more : input.body ≠ []) :
    Agrees input (recover step cursor) (Reader.recover reading state) := by
  simp only [recover, Reader.recover]
  generalize reading state = outcome at agrees ⊢
  generalize step cursor = reached at agrees ⊢
  cases agrees with
  | ok sees => exact .ok sees
  | outOfFuel sees => exact .outOfFuel sees
  | @fault error reached after sees =>
      obtain ⟨last, skipped, boundary⟩ := synchronize_eq (sees.report error) more
      simp only [Bind.bind, EStateM.bind, report, skipped]
      exact .ok boundary

/-- A step that takes a token is charted as one that moves on. -/
theorem agrees_charted {step : Step Result} {reading : Reader Result}
    (sees : input.Sees cursor state) (agrees : Agrees input (step cursor) (reading state))
    (shorter : ∀ result after, reading state = .ok result after →
      after.rest.length < state.rest.length) :
    Agrees input (charted step cursor) (reading state) := by
  simp only [charted]
  generalize read : reading state = outcome at agrees shorter ⊢
  generalize step cursor = reached at agrees ⊢
  cases agrees with
  | @ok result reached after seen =>
      have before := sees.length
      have behind := seen.length
      have less := shorter result after rfl
      exact .ok (seen.note ⟨by omega, seen.current⟩)
  | fault seen => exact .fault seen
  | outOfFuel seen => exact .outOfFuel seen

/-- A declaration is begun in front of a token, and so there is one behind the
cursor if it is broken. -/
theorem follows_declared? {fuel : Nat} {step : Step Stmt} (ended : Bool)
    (follows : Follows input step (Reader.declaration fuel)) :
    Follows input (declared? ended step) (Reader.declared? ended fuel) := by
  intro cursor state sees
  have looked := sees_peek sees
  simp only [declared?, Reader.declared?, Bind.bind, EStateM.bind, isAtEnd_eq sees, Reader.atEnd]
  cases stops : ended || state.rest.isEmpty with
  | true => exact .ok looked
  | false =>
      have more : state.rest ≠ [] := fun none => by simp [none] at stops
      have filled : input.body ≠ [] := by
        intro none
        rw [sees.rest, none, List.drop_nil] at more
        exact more rfl
      have agrees := agrees_recover (follows _ state looked) filled
      have moves := agrees_charted looked agrees fun _ _ read =>
        Reader.length_lt_of_recover read more
      exact moves.bind fun found reached after _ sees => .ok sees

/-! ## The rules -/

/-- If the rules are followed, then so is a plan. -/
theorem follows_plan {fuel : Nat} {rules : {Result : Type} → Rule Result → Step Result}
    (follows : ∀ {Result : Type} (rule : Rule Result), Follows input (rules rule) (rule.read fuel))
    (plan : Plan Result) : Follows input (follow rules plan) (plan.read fuel) := by
  induction plan with
  | done result => exact .pure result
  | andThen first next ihFirst ihNext => exact ihFirst.bind ihNext
  | call rule => exact follows rule
  | fail expectation => exact follows_fail expectation
  | limit count cause =>
      rw [follow, Plan.read]
      split
      · exact follows_reportHere cause
      · exact .pure ()
  | reportAt token cause => exact follows_reportAt token cause
  | freshId => exact follows_freshId
  | atEnd => exact follows_isAtEnd
  | upcoming test => exact follows_check test
  | accept? test => exact follows_accept? test
  | acceptAs? classify => exact follows_acceptAs? classify
  | expect test expectation => exact follows_expect test expectation
  | declared? stop => exact follows_declared? stop (follows .declaration)

theorem follows_rule : ∀ (fuel : Nat) {Result : Type} (found : Rule Result),
    Follows input (rule fuel found) (found.read fuel)
  | 0, _, found => by
      rw [found.read_zero]
      exact follows_outOfFuel
  | fuel + 1, _, found => by
      rw [found.read_succ]
      exact follows_plan (follows_rule fuel) found.plan

theorem follows_declarations (fuel : Nat) :
    Follows input (declarations fuel) (Reader.declarations fuel) :=
  follows_rule fuel .declarations

theorem follows_expressionToEnd (fuel : Nat) :
    Follows input (expressionToEnd fuel) (Reader.expressionToEnd fuel) := by
  rw [← Plan.read_expressionToEnd]
  exact follows_plan (follows_rule fuel) Plan.expressionToEnd

end Cursor

end LoxLang
