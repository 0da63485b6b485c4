import LoxLang.Proofs.Grammar.Progress
import LoxLang.Proofs.Tree.Relabelling

/-!
# Reading in another place

A rule of the grammar looks at one token after the other and never further than
the next one. So it makes the same of some tokens wherever they stand: behind
other tokens, in front of others, with other node numbers and on other lines.
A `Transport` is such a change of place, and `Carries` says that a step follows
it.

What stands behind can only be seen by a step that has used up its own tokens.
A step is *closed* if it may do so and still not look further: a statement ends
with a semicolon or a brace that it takes itself, and only an `if` looks for an
`else` behind that. An expression does look for more behind it, but a semicolon
cannot go on with any. `Rule.Closed` says when a rule is closed, and `Rule.moves_plan`
shows it step by step.
-/

namespace LoxLang

set_option autoImplicit false

/-- Another place for the tokens of a reading. The tokens and the tree are
relabelled, other tokens stand behind, and the earlier errors are given.
Numbers from `first` on are drawn one by one in the new place too. -/
structure Transport where
  change : Relabelling
  behind : List Token
  endLine : Nat → Nat
  earlier : List GrammarError
  first : Nat
  steady : ∀ id, first ≤ id → change.id (id + 1) = change.id id + 1

namespace Transport

/-- The state of a reading in the new place. -/
def state (place : Transport) (old : ReaderState) : ReaderState where
  rest := old.rest.map (Token.relabel place.change) ++ place.behind
  endLine := place.endLine old.endLine
  errors := place.earlier ++ old.errors.map (Located.relabel place.change)
  nextId := place.change.id old.nextId

/-- Nothing stands behind, and the end of the input is relabelled too. -/
def Whole (place : Transport) : Prop :=
  place.behind = [] ∧ ∀ line, place.endLine line = place.change.line line

/-- With these tokens left, the end of the tokens is out of sight or the same. -/
def Within (place : Transport) (rest : List Token) : Prop :=
  rest ≠ [] ∨ place.Whole

variable {place : Transport}

theorem Within.of_length_le {rest longer : List Token} (within : place.Within rest)
    (le : rest.length ≤ longer.length) : place.Within longer := by
  rcases within with more | none
  · exact .inl (List.ne_nil_of_length_pos
      (Nat.lt_of_lt_of_le (List.length_pos_iff.mpr more) le))
  · exact .inr none

/-- The first token in the new place. -/
theorem rest_state_of_cons {old : ReaderState} {token : Token} {rest : List Token}
    (shape : old.rest = token :: rest) :
    (place.state old).rest =
      token.relabel place.change :: (rest.map (Token.relabel place.change) ++ place.behind) := by
  rw [state, shape, List.map_cons, List.cons_append]

theorem rest_state_of_nil {old : ReaderState} (shape : old.rest = []) :
    (place.state old).rest = place.behind := by
  rw [state, shape, List.map_nil, List.nil_append]

/-- A fault at the next token is on that token's new line. -/
theorem located_state {old : ReaderState} (cause : GrammarCause)
    (within : place.Within old.rest) :
    (place.state old).located cause = (old.located cause).relabel place.change := by
  cases shape : old.rest with
  | cons token rest =>
      simp only [ReaderState.located, rest_state_of_cons shape, shape]
      rfl
  | nil =>
      obtain ⟨none, same⟩ := within.resolve_left (· shape)
      simp only [ReaderState.located, rest_state_of_nil shape, none, shape, Located.relabel]
      rw [state, same]

theorem report_state (old : ReaderState) (error : GrammarError) :
    (place.state old).report (error.relabel place.change) = place.state (old.report error) := by
  simp [state, ReaderState.report]

end Transport

namespace Reader

open Transport

variable {Result Other : Type} {place : Transport}

/-- How a reading goes in the new place, if it went in a certain way in the old
one. If it has used up all tokens then this is known of a closed step only. -/
def Carried (place : Transport) (closed : Prop) (change : Result → Result)
    (moved : Reader Result) (start : ReaderState) :
    EStateM.Result ReaderStop ReaderState Result → Prop
  | .ok result after =>
    place.first ≤ after.nextId ∧ (closed ∨ place.Within after.rest →
      moved (place.state start) = .ok (change result) (place.state after))
  | .error (.fault error) after =>
    place.first ≤ after.nextId ∧ (place.Within after.rest → moved (place.state start) =
      .error (.fault (error.relabel place.change)) (place.state after))
  | .error .outOfFuel _ => True

/-- In the new place a step does the same. -/
def Carries (place : Transport) (closed : Prop) (change : Result → Result)
    (step moved : Reader Result) : Prop :=
  ∀ start : ReaderState, place.first ≤ start.nextId →
    Carried place closed change moved start (step start)

/-- How a part of a reading goes in the new place. Of the part in front this is
`known` even if that has used up all tokens; the goal is about the two results, and when
as much is known behind this part. -/
def Moved (place : Transport) (known : Prop) (goal : Result → Result → Prop → Prop)
    (moved : Reader Result) (start : ReaderState) :
    EStateM.Result ReaderStop ReaderState Result → Prop
  | .ok result after =>
    place.first ≤ after.nextId ∧ after.rest.length ≤ start.rest.length ∧
      ∃ other later, goal result other later ∧ (later ∨ place.Within after.rest →
        (known ∨ place.Within start.rest) ∧
          moved (place.state start) = .ok other (place.state after))
  | .error (.fault error) after =>
    place.first ≤ after.nextId ∧ after.rest.length ≤ start.rest.length ∧
      (place.Within after.rest → moved (place.state start) =
        .error (.fault (error.relabel place.change)) (place.state after))
  | .error .outOfFuel _ => True

/-- A part of a reading goes the same in the new place. -/
def Moves (place : Transport) (known : Prop) (step moved : Reader Result)
    (goal : Result → Result → Prop → Prop) : Prop :=
  ∀ start : ReaderState, place.first ≤ start.nextId →
    Moved place known goal moved start (step start)

/-! ## The steps of a reader -/

section Steps

variable {known : Prop} {step moved : Reader Result} {goal : Result → Result → Prop → Prop}

theorem Moves.bind {final : Other → Other → Prop → Prop} {next continued : Result → Reader Other}
    (first : Moves place known step moved fun part other later =>
      Moves place later (next part) (continued other) final) :
    Moves place known (step >>= next) (moved >>= continued) final := by
  intro start numbered
  have one := first start numbered
  cases reading : step start with
  | error stop after =>
      rw [reading] at one
      rw [bind_of_error reading]
      cases stop with
      | outOfFuel => trivial
      | fault error =>
          obtain ⟨later, length, same⟩ := one
          exact ⟨later, length, fun within => bind_of_error (same within) continued⟩
  | ok part middle =>
      rw [reading] at one
      rw [bind_of_ok reading]
      obtain ⟨later, length, other, reached, second, same⟩ := one
      have two := second middle later
      cases going : next part middle with
      | error stop after =>
          rw [going] at two
          cases stop with
          | outOfFuel => trivial
          | fault error =>
              obtain ⟨latest, shorter, equal⟩ := two
              refine ⟨latest, Nat.le_trans shorter length, fun within => ?_⟩
              rw [bind_of_ok (same (.inr (within.of_length_le shorter))).2, equal within]
      | ok last after =>
          rw [going] at two
          obtain ⟨latest, shorter, result, behind, good, equal⟩ := two
          refine ⟨latest, Nat.le_trans shorter length, result, behind, good, fun seen => ?_⟩
          obtain ⟨before, equal⟩ := equal seen
          obtain ⟨earlier, same⟩ := same before
          exact ⟨earlier, (bind_of_ok same continued).trans equal⟩

theorem Moves.mono {final : Result → Result → Prop → Prop}
    (moves : Moves place known step moved goal)
    (weaker : ∀ result other later, goal result other later → final result other later) :
    Moves place known step moved final := by
  intro start numbered
  have moved := moves start numbered
  cases reading : step start with
  | ok result after =>
      rw [reading] at moved
      obtain ⟨later, length, other, known, good, same⟩ := moved
      exact ⟨later, length, other, known, weaker _ _ _ good, same⟩
  | error stop after =>
      rw [reading] at moved
      cases stop <;> exact moved

theorem moves_pure {result other : Result} (good : goal result other known) :
    Moves place known (pure result) (pure other) goal :=
  fun _ numbered => ⟨numbered, Nat.le_refl _, other, known, good, fun seen => ⟨seen, rfl⟩⟩

/-- If the part in front is known, a reading is carried to the new place as a whole. -/
theorem Moves.carries {closed : Prop} {change : Result → Result}
    (moves : Moves place True step moved fun result other known =>
      other = change result ∧ (closed → known)) : Carries place closed change step moved := by
  intro start numbered
  have moved := moves start numbered
  cases reading : step start with
  | ok result after =>
      rw [reading] at moved
      obtain ⟨later, -, _, known, ⟨rfl, closes⟩, same⟩ := moved
      exact ⟨later, fun seen => (same (seen.imp_left closes)).2⟩
  | error stop after =>
      rw [reading] at moved
      cases stop with
      | fault error => exact ⟨moved.1, moved.2.2⟩
      | outOfFuel => trivial

theorem moves_fail (expectation : Expectation) :
    Moves place known (fail expectation) (fail expectation) goal := by
  intro start numbered
  refine ⟨numbered, Nat.le_refl _, fun within => ?_⟩
  rw [fail, located_state _ within]

/-- A step that looks at the next token at most, and sees the same if it may see
what stands `behind`. -/
theorem moved_still {start after : ReaderState} {result other : Result} {behind : Prop}
    (numbered : place.first ≤ after.nextId) (still : after.rest = start.rest)
    (same : behind ∨ place.Within start.rest →
      moved (place.state start) = .ok other (place.state after))
    {later : Prop} (good : goal result other later) (lasts : later → known ∧ behind) :
    Moved place known goal moved start (.ok result after) := by
  refine ⟨numbered, Nat.le_of_eq (congrArg List.length still), other, later, good, fun seen => ?_⟩
  have seen : known ∧ behind ∨ place.Within start.rest := still ▸ seen.imp_left lasts
  exact ⟨seen.imp_left And.left, same (seen.imp_left And.right)⟩

/-- A token that is taken has stood there. -/
theorem moved_taken {start after : ReaderState} {token : Token} {result other : Result}
    (numbered : place.first ≤ after.nextId) (shape : start.rest = token :: after.rest)
    (same : moved (place.state start) = .ok other (place.state after))
    (good : goal result other True) : Moved place known goal moved start (.ok result after) :=
  ⟨numbered, by simp [shape], other, True, good,
    fun _ => ⟨.inr (.inl (shape ▸ List.cons_ne_nil _ _)), same⟩⟩

theorem moves_reportHere {goal : Unit → Unit → Prop → Prop} (cause : GrammarCause)
    (good : goal () () False) :
    Moves place known (reportHere cause) (reportHere cause) goal := by
  refine fun start numbered => moved_still numbered rfl (fun seen => ?_) good
    fun none => ⟨none.elim, none⟩
  rw [reportHere, located_state cause (seen.resolve_left id), report_state]

theorem moves_reportAt {goal : Unit → Unit → Prop → Prop} (token : Token) (cause : GrammarCause)
    (good : goal () () known) :
    Moves place known (reportAt token cause) (reportAt (token.relabel place.change) cause)
      goal := by
  refine fun start numbered => moved_still numbered rfl (fun _ => ?_) good (⟨·, trivial⟩)
  rw [reportAt, ← Located.relabel_ofToken, report_state]

theorem moves_freshId {goal : Nat → Nat → Prop → Prop}
    (good : ∀ id, goal id (place.change.id id) known) :
    Moves place known freshId freshId goal := by
  refine fun start numbered => moved_still (Nat.le_succ_of_le numbered) rfl (fun _ => ?_) (good _)
    (⟨·, trivial⟩)
  simp only [freshId, Transport.state, place.steady _ numbered]

theorem moves_atEnd {goal : Bool → Bool → Prop → Prop}
    (good : ∀ ended, goal ended ended False) : Moves place known atEnd atEnd goal := by
  refine fun start numbered => moved_still numbered rfl (fun seen => ?_) (good _)
    fun none => ⟨none.elim, none⟩
  have same : (place.state start).rest.isEmpty = start.rest.isEmpty := by
    cases shape : start.rest with
    | cons token rest => rw [rest_state_of_cons shape]; rfl
    | nil => rw [rest_state_of_nil shape, ((seen.resolve_left id).resolve_left (· shape)).1]
  rw [atEnd, same]

/-- A step that looks behind its tokens sees one that it has nothing to do
with. -/
theorem rejected_of_seen {unfit : Token → Prop} {rest behind : List Token} {token : Token}
    (back : place.behind = token :: behind) (shape : rest = [])
    (seen : (∀ token ∈ place.behind.head?, unfit token) ∨ place.Within rest) : unfit token := by
  rcases seen with others | within
  · exact others token (by rw [back]; rfl)
  · exact absurd (within.resolve_left (· shape)).1 (by simp [back])

variable {test : Token → Bool} (kept : ∀ token, test (token.relabel place.change) = test token)

include kept

theorem moves_upcoming {goal : Bool → Bool → Prop → Prop}
    (good : ∀ passed, goal passed passed
      (known ∧ ∀ token ∈ place.behind.head?, test token = false)) :
    Moves place known (upcoming test) (upcoming test) goal := by
  intro start numbered
  cases shape : start.rest with
  | cons token rest =>
      simp only [upcoming, shape]
      refine moved_still numbered rfl (fun _ => ?_) (good _) id
      simp only [upcoming, rest_state_of_cons shape, kept]
  | nil =>
      simp only [upcoming, shape]
      refine moved_still numbered rfl (fun seen => ?_) (good _) id
      simp only [upcoming, rest_state_of_nil shape]
      cases back : place.behind with
      | nil => rfl
      | cons token rest => simp only [rejected_of_seen back shape seen]

/-- A token that may be taken is not looked for further if the tokens behind
begin with another one. -/
theorem moves_accept? {goal : Option Token → Option Token → Prop → Prop}
    (refused : goal none none (known ∧ ∀ token ∈ place.behind.head?, test token = false))
    (taken : ∀ token, goal (some token) (some (token.relabel place.change)) True) :
    Moves place known (accept? test) (accept? test) goal := by
  intro start numbered
  cases shape : start.rest with
  | cons token rest =>
      simp only [accept?, shape]
      cases passes : test token with
      | true =>
          refine moved_taken numbered shape ?_ (taken token)
          simp only [accept?, rest_state_of_cons shape, kept, passes, if_true]
          rfl
      | false =>
          refine moved_still numbered rfl (fun _ => ?_) refused id
          simp only [accept?, rest_state_of_cons shape, kept, passes, Bool.false_eq_true, if_false]
  | nil =>
      simp only [accept?, shape]
      refine moved_still numbered rfl (fun seen => ?_) refused id
      simp only [accept?, rest_state_of_nil shape]
      cases back : place.behind with
      | nil => rfl
      | cons token rest =>
          simp only [rejected_of_seen back shape seen, Bool.false_eq_true, if_false]

theorem moves_expect {goal : Token → Token → Prop → Prop} (expectation : Expectation)
    (taken : ∀ token, goal token (token.relabel place.change) True) :
    Moves place known (expect test expectation) (expect test expectation) goal := by
  intro start numbered
  cases shape : start.rest with
  | cons token rest =>
      simp only [expect, shape]
      cases passes : test token with
      | true =>
          refine moved_taken numbered shape ?_ (taken token)
          simp only [expect, rest_state_of_cons shape, kept, passes, if_true]
          rfl
      | false =>
          refine ⟨numbered, Nat.le_refl _, fun within => ?_⟩
          simp only [expect, rest_state_of_cons shape, kept, passes, Bool.false_eq_true, if_false,
            located_state _ within]
  | nil =>
      simp only [expect, shape]
      refine ⟨numbered, Nat.le_refl _, fun within => ?_⟩
      have none : place.behind = [] := (within.resolve_left (· shape)).1
      simp only [expect, rest_state_of_nil shape, none, located_state _ within]

omit kept

theorem moves_acceptAs? {Class : Type} {classify : Token → Option Class}
    {goal : Option (Token × Class) → Option (Token × Class) → Prop → Prop}
    (kept : ∀ token, classify (token.relabel place.change) = classify token)
    (refused : goal none none (known ∧ ∀ token ∈ place.behind.head?, classify token = none))
    (taken : ∀ token found, goal (some (token, found))
      (some (token.relabel place.change, found)) True) :
    Moves place known (acceptAs? classify) (acceptAs? classify) goal := by
  intro start numbered
  cases shape : start.rest with
  | cons token rest =>
      simp only [acceptAs?, shape]
      cases found : classify token with
      | some head =>
          refine moved_taken numbered shape ?_ (taken token head)
          simp only [acceptAs?, rest_state_of_cons shape, kept, found]
          rfl
      | none =>
          refine moved_still numbered rfl (fun _ => ?_) refused id
          simp only [acceptAs?, rest_state_of_cons shape, kept, found]
  | nil =>
      simp only [acceptAs?, shape]
      refine moved_still numbered rfl (fun seen => ?_) refused id
      simp only [acceptAs?, rest_state_of_nil shape]
      cases back : place.behind with
      | nil => rfl
      | cons token rest => simp only [rejected_of_seen back shape seen]

/-- A boundary in front of some token is found there. -/
theorem boundaryAfter_append (change : Relabelling) (behind : List Token) :
    ∀ (tokens : List Token) (dropped : Token), boundaryAfter dropped tokens ≠ [] ∨ behind = [] →
      boundaryAfter (dropped.relabel change) (tokens.map (Token.relabel change) ++ behind) =
        (boundaryAfter dropped tokens).map (Token.relabel change) ++ behind
  | [], _, within => by
      obtain rfl := within.resolve_left (· rfl)
      rfl
  | token :: rest, dropped, within => by
      have same : ((dropped.relabel change).isPunct .semicolon ||
          opensStatement (token.relabel change)) =
          (dropped.isPunct .semicolon || opensStatement token) := rfl
      rw [List.map_cons, List.cons_append, boundaryAfter, same]
      rw [boundaryAfter] at within ⊢
      split
      · rfl
      next goes =>
        rw [if_neg goes] at within
        exact boundaryAfter_append change behind rest token within

theorem boundary_append {change : Relabelling} {behind tokens : List Token}
    (within : boundary tokens ≠ [] ∨ behind = []) :
    boundary (tokens.map (Token.relabel change) ++ behind) =
      (boundary tokens).map (Token.relabel change) ++ behind := by
  cases tokens with
  | nil =>
      obtain rfl := within.resolve_left (· rfl)
      rfl
  | cons token rest => exact boundaryAfter_append change behind rest token within

theorem length_boundary_le (tokens : List Token) : (boundary tokens).length ≤ tokens.length := by
  cases tokens with
  | nil => exact Nat.le_refl _
  | cons token rest => exact Nat.le_succ_of_le (length_boundaryAfter_le token rest)

/-- A rule that takes a token has not begun behind the last one. -/
theorem moves_call {fuel : Nat} {rule : Rule Result} {closed : Prop} {change : Result → Result}
    (carries : Carries place closed change (rule.read fuel) moved)
    (good : ∀ result, goal result (change result) (closed ∧ (rule.takes = true ∨ known))) :
    Moves place known (rule.read fuel) moved goal := by
  intro start numbered
  have carried := carries start numbered
  cases reading : rule.read fuel start with
  | ok result after =>
      rw [reading] at carried
      obtain ⟨later, same⟩ := carried
      have shorter := length_of_rule reading
      refine ⟨later, by omega, _, _, good result, fun seen => ⟨?_, same (seen.imp_left And.left)⟩⟩
      rcases seen with ⟨_, takes | known⟩ | within
      · rw [takes, Bool.toNat_true] at shorter
        exact .inr (.inl (List.ne_nil_of_length_pos (by omega)))
      · exact .inl known
      · exact .inr (within.of_length_le (by omega))
  | error stop after =>
      rw [reading] at carried
      cases stop with
      | fault error => exact ⟨carried.1, length_le_of_fault reading, carried.2⟩
      | outOfFuel => trivial

theorem moves_recover {fuel : Nat} {rule : Rule Result} {closed : Prop}
    {change : Result → Result} {goal : Option Result → Option Result → Prop → Prop}
    (carries : Carries place closed change (rule.read fuel) moved)
    (good : ∀ found, goal found (found.map change) False) :
    Moves place known (recover (rule.read fuel)) (recover moved) goal := by
  intro start numbered
  have carried := carries start numbered
  cases reading : rule.read fuel start with
  | ok result after =>
      rw [reading] at carried
      obtain ⟨later, same⟩ := carried
      have shorter := Nat.le_of_add_right_le (length_of_rule reading)
      simp only [recover, reading]
      refine ⟨later, shorter, _, False, good _, fun seen => ?_⟩
      have within : place.Within after.rest := seen.resolve_left id
      simp only [recover, same (.inr within)]
      exact ⟨.inr (within.of_length_le shorter), rfl⟩
  | error stop after =>
      rw [reading] at carried
      cases stop with
      | outOfFuel => simp only [recover, reading]; trivial
      | fault error =>
          obtain ⟨later, same⟩ := carried
          have least := length_boundary_le after.rest
          have shorter := Nat.le_trans least (length_le_of_fault reading)
          simp only [recover, reading]
          refine ⟨later, shorter, _, False, good _, fun seen => ?_⟩
          have within : place.Within (boundary after.rest) := seen.resolve_left id
          refine ⟨.inr (within.of_length_le shorter), ?_⟩
          simp only [recover, same (within.of_length_le least), report_state]
          congr 1
          exact congrArg (fun rest => { place.state (after.report error) with rest := rest })
            (boundary_append (within.imp_right And.left))

end Steps

/-- The tokens behind begin with a semicolon, if there are any, and no expression
goes on with that. -/
def ClosesExpression (place : Transport) : Prop :=
  ∀ token ∈ place.behind.head?, token.kind = .punct .semicolon

/-- The tokens behind do not go on with an `else`. -/
def EndsBranch (place : Transport) : Prop :=
  ∀ token ∈ place.behind.head?, token.isKeyword .kwElse = false

end Reader

/-! ## Rules in the new place -/

/-- What a rule is given is relabelled. -/
@[simp] def Rule.relabel (change : Relabelling) {Result : Type} : Rule Result → Rule Result
  | operandTail tier left => operandTail tier (left.relabel change)
  | callTail callee => callTail (callee.relabel change)
  | rule => rule

/-- What becomes of the result of a rule. -/
@[simp] def Rule.moves (change : Relabelling) {Result : Type} : Rule Result → Result → Result
  | expression | operand _ | operandTail _ _ | unary | callTail _ | primary => Expr.relabel change
  | arguments _ => Expr.relabelAll change
  | parameters _ => List.map (Token.relabel change)
  | methods => FunctionDecl.relabelAll change
  | function _ => FunctionDecl.relabel change
  | block | blockBody | declarations => Stmt.relabelAll change
  | declaration | classDeclaration | statement | forStatement | ifStatement | whileStatement =>
    Stmt.relabel change

/-- When a rule is closed. A list goes on until something else is seen. -/
@[simp] def Rule.Closed (place : Transport) {Result : Type} : Rule Result → Prop
  | expression | operand _ | operandTail _ _ | unary | callTail _ | primary =>
    Reader.ClosesExpression place
  | arguments _ | parameters _ | methods | blockBody | declarations => False
  | _ => Reader.EndsBranch place

namespace Plan

variable {Part Result : Type}

def Gives (plan : Plan Result) (goal : Result → Prop) : Prop :=
  ∃ result, plan = done result ∧ goal result

def Splits (plan : Plan Result) (goal : Plan Part → (Part → Plan Result) → Prop) : Prop :=
  ∃ first next, plan = andThen first next ∧ goal first next

@[simp] theorem gives_done {result : Result} {goal : Result → Prop} :
    (done result).Gives goal ↔ goal result := by
  simp [Gives]

@[simp] theorem splits_andThen {first : Plan Part} {next : Part → Plan Result}
    {goal : Plan Part → (Part → Plan Result) → Prop} :
    (andThen first next).Splits goal ↔ goal first next := by
  constructor
  · rintro ⟨_, _, same, holds⟩
    cases same
    exact holds
  · exact fun holds => ⟨first, next, rfl, holds⟩

/-- A plan goes the same in the new place. If a token is looked for behind the end, then
nothing is known but that the tokens behind begin with another one. -/
@[simp] def Moves (place : Transport) {Result : Type} :
    Plan Result → Plan Result → Prop → (Result → Result → Prop → Prop) → Prop
  | done result, moved, known, goal => moved.Gives fun other => goal result other known
  | andThen first next, moved, known, goal =>
    moved.Splits fun before behind =>
      first.Moves place before known fun part other later =>
        (next part).Moves place (behind other) later goal
  | call rule, moved, known, goal =>
    moved = call (rule.relabel place.change) ∧ ∀ result, goal result
      (rule.moves place.change result) (rule.Closed place ∧ (rule.takes = true ∨ known))
  | fail expectation, moved, _, _ => moved = fail expectation
  | limit count cause, moved, _, goal => moved = limit count cause ∧ goal () () False
  | reportAt token cause, moved, known, goal =>
    moved = reportAt (token.relabel place.change) cause ∧ goal () () known
  | freshId, moved, known, goal => moved = freshId ∧ ∀ id, goal id (place.change.id id) known
  | atEnd, moved, _, goal => moved = atEnd ∧ ∀ ended, goal ended ended False
  | upcoming test, moved, known, goal =>
    moved = upcoming test ∧ (∀ token, test (token.relabel place.change) = test token) ∧
      ∀ passed, goal passed passed (known ∧ ∀ token ∈ place.behind.head?, test token = false)
  | accept? test, moved, known, goal =>
    moved = accept? test ∧ (∀ token, test (token.relabel place.change) = test token) ∧
      goal none none (known ∧ ∀ token ∈ place.behind.head?, test token = false) ∧
      ∀ token, goal (some token) (some (token.relabel place.change)) True
  | acceptAs? classify, moved, known, goal =>
    moved = acceptAs? classify ∧
      (∀ token, classify (token.relabel place.change) = classify token) ∧
      goal none none (known ∧ ∀ token ∈ place.behind.head?, classify token = none) ∧
      ∀ token found, goal (some (token, found)) (some (token.relabel place.change, found)) True
  | expect test expectation, moved, _, goal =>
    moved = expect test expectation ∧ (∀ token, test (token.relabel place.change) = test token) ∧
      ∀ token, goal token (token.relabel place.change) True
  | declared? stop, moved, _, goal =>
    moved = declared? stop ∧ goal none none False ∧
      ∀ found, goal (some found) (some (found.map (Stmt.relabel place.change))) False

end Plan

namespace Rule

variable {place : Transport}

theorem isPunct_relabel (mark : Punct) (token : Token) :
    (token.relabel place.change).isPunct mark = token.isPunct mark := rfl

theorem isKeyword_relabel (word : Keyword) (token : Token) :
    (token.relabel place.change).isKeyword word = token.isKeyword word := rfl

theorem isIdentifier_relabel (token : Token) :
    (token.relabel place.change).isIdentifier = token.isIdentifier := rfl

/-- Only a semicolon stands behind an expression. -/
theorem isPunct_of_closes (closes : Reader.ClosesExpression place) {mark : Punct}
    (other : (.semicolon == mark) = false) (token : Token)
    (next : place.behind.head? = some token) : token.isPunct mark = false := by
  rw [Token.isPunct, closes token next]
  exact other

/-- **A rule does the same in the new place**, and where it is closed it does not
look behind its end. -/
theorem moves_plan {Result : Type} (rule : Rule Result) :
    rule.plan.Moves place (rule.relabel place.change).plan True fun found other known =>
      other = rule.moves place.change found ∧ (rule.Closed place → known) := by
  cases rule with
  | expression =>
      refine ⟨_, _, rfl, rfl, fun target => ?_⟩
      refine ⟨_, _, rfl, rfl, isPunct_relabel _, ?_, fun equals => ?_⟩
      · exact ⟨_, rfl, rfl, fun closes => ⟨⟨closes, .inl rfl⟩, isPunct_of_closes closes rfl⟩⟩
      · refine ⟨_, _, rfl, rfl, fun value => ?_⟩
        cases target <;> simp [Plan.assignment, Expr.relabel, Occurrence.relabel]
  | operand tier => cases tier <;> simp
  | operandTail tier left =>
      have kept (token : Token) :
          tier.isOperator (token.relabel place.change) = tier.isOperator token := by
        cases tier <;> rfl
      have other (closes : Reader.ClosesExpression place) (token : Token)
          (next : place.behind.head? = some token) : tier.isOperator token = false := by
        cases tier <;> simp [Tier.isOperator, Token.isPunct, Token.isKeyword, closes token next]
      simpa [kept, Tier.relabel_node] using other
  | unary =>
      have other (closes : Reader.ClosesExpression place) (token : Token)
          (next : place.behind.head? = some token) : Reader.isUnaryOperator token = false := by
        simp [Reader.isUnaryOperator, Token.isPunct, closes token next]
      have kept (token : Token) :
          Reader.isUnaryOperator (token.relabel place.change) = Reader.isUnaryOperator token := rfl
      simp [kept, Expr.relabel]
  | callTail callee =>
      have other (closes : Reader.ClosesExpression place) :
          (∀ token, place.behind.head? = some token → token.isPunct .leftParen = false) ∧
            ∀ token, place.behind.head? = some token → token.isPunct .dot = false :=
        ⟨isPunct_of_closes closes rfl, isPunct_of_closes closes rfl⟩
      simpa [isPunct_relabel, isIdentifier_relabel, Expr.relabel, Expr.relabelAll] using other
  | arguments => simp [isPunct_relabel, Expr.relabelAll]
  | primary =>
      refine ⟨_, _, rfl, ⟨rfl, fun _ => rfl, rfl, fun token head => ?_⟩⟩
      cases head <;> simp [isPunct_relabel, isIdentifier_relabel, Expr.relabel, Occurrence.relabel]
  | parameters => simp [isPunct_relabel, isIdentifier_relabel]
  | declaration =>
      refine ⟨_, _, rfl, ⟨rfl, fun _ => rfl, ?_, fun token head => ?_⟩⟩
      · simp
      · cases head <;> simp [isPunct_relabel, isIdentifier_relabel, Stmt.relabel]
  | classDeclaration =>
      simp [isPunct_relabel, isIdentifier_relabel, Stmt.relabel, Expr.relabel, Occurrence.relabel]
  | methods => simp [isPunct_relabel, FunctionDecl.relabelAll]
  | function => simp [isPunct_relabel, isIdentifier_relabel, FunctionDecl.relabel]
  | block => simp [isPunct_relabel]
  | blockBody => simp [isPunct_relabel, Stmt.relabelAll, Stmt.relabelAll_toList_append]
  | statement =>
      refine ⟨_, _, rfl, ⟨rfl, fun _ => rfl, ?_, fun token head => ?_⟩⟩
      · simp [isPunct_relabel, Stmt.relabel]
      · cases head <;> simp [isPunct_relabel, Stmt.relabel]
  | forStatement =>
      simp [isPunct_relabel, isKeyword_relabel, isIdentifier_relabel, Stmt.relabel_counting,
        Stmt.relabel]
  | ifStatement =>
      -- Only here a closed rule looks at what stands behind it.
      have other (ends : Reader.EndsBranch place) : Reader.EndsBranch place ∧
          ∀ token, place.behind.head? = some token → token.isKeyword .kwElse = false :=
        ⟨ends, ends⟩
      simpa [isPunct_relabel, isKeyword_relabel, Stmt.relabel_cond] using fun _ _ => other
  | whileStatement => simp [isPunct_relabel, Stmt.relabel]
  | declarations => simp [Stmt.relabelAll, Stmt.relabelAll_toList_append]

end Rule

namespace Reader

variable {place : Transport} {fuel more : Nat}

/-- If the rules can be carried to the new place, then so can a plan. -/
theorem moves_plan
    (rules : ∀ {Part : Type} (rule : Rule Part), Carries place (rule.Closed place)
      (rule.moves place.change) (rule.read fuel) ((rule.relabel place.change).read more))
    {Result : Type} (plan : Plan Result) {moved : Plan Result} {known : Prop}
    {goal : Result → Result → Prop → Prop} (moves : plan.Moves place moved known goal) :
    Moves place known (plan.read fuel) (moved.read more) goal := by
  induction plan generalizing known with
  | done result =>
      obtain ⟨other, rfl, good⟩ := moves
      exact moves_pure good
  | andThen first next ihFirst ihNext =>
      obtain ⟨before, behind, rfl, moves⟩ := moves
      exact .bind ((ihFirst moves).mono fun part other later moves => ihNext part moves)
  | call rule =>
      obtain ⟨rfl, good⟩ := moves
      exact moves_call (rules rule) good
  | fail expectation =>
      cases moves
      exact moves_fail expectation
  | limit count cause =>
      obtain ⟨rfl, good⟩ := moves
      rw [Plan.read, Plan.read]
      split
      · exact moves_reportHere cause good
      · exact fun _ numbered => moved_still numbered rfl (fun _ => rfl) good
          fun none => ⟨none.elim, trivial⟩
  | reportAt token cause =>
      obtain ⟨rfl, good⟩ := moves
      exact moves_reportAt token cause good
  | freshId =>
      obtain ⟨rfl, good⟩ := moves
      exact moves_freshId good
  | atEnd =>
      obtain ⟨rfl, good⟩ := moves
      exact moves_atEnd good
  | upcoming test =>
      obtain ⟨rfl, kept, good⟩ := moves
      exact moves_upcoming kept good
  | accept? test =>
      obtain ⟨rfl, kept, refused, taken⟩ := moves
      exact moves_accept? kept refused taken
  | acceptAs? classify =>
      obtain ⟨rfl, kept, refused, taken⟩ := moves
      exact moves_acceptAs? kept refused taken
  | expect test expectation =>
      obtain ⟨rfl, kept, taken⟩ := moves
      exact moves_expect kept expectation taken
  | declared? stop =>
      obtain ⟨rfl, stopped, found⟩ := moves
      refine .bind (moves_atEnd fun ended => ?_)
      split
      · exact moves_pure stopped
      · exact .bind (moves_recover (rules .declaration) fun first => moves_pure (found first))

/-- **Every rule can be carried to a place with more fuel.** -/
theorem carries_rule : ∀ {fuel more : Nat}, fuel ≤ more → ∀ {Result : Type} (rule : Rule Result),
    Carries place (rule.Closed place) (rule.moves place.change) (rule.read fuel)
      ((rule.relabel place.change).read more)
  | 0, _, _, _, rule => by
      rw [rule.read_zero]
      exact fun _ _ => trivial
  | fuel + 1, more + 1, le, _, rule => by
      rw [rule.read_succ, Rule.read_succ]
      have less := Nat.le_of_succ_le_succ le
      exact (moves_plan (carries_rule less) rule.plan rule.moves_plan).carries

theorem carries_expressionToEnd (le : fuel ≤ more) :
    Carries place False (Expr.relabel place.change) (expressionToEnd fuel)
      (expressionToEnd more) := by
  have moves : Plan.expressionToEnd.Moves place Plan.expressionToEnd True fun found other known =>
      other = found.relabel place.change ∧ (False → known) := by
    simp [Plan.expressionToEnd]
  rw [← Plan.read_expressionToEnd, ← Plan.read_expressionToEnd]
  exact (moves_plan (carries_rule le) Plan.expressionToEnd moves).carries

end Reader

end LoxLang
