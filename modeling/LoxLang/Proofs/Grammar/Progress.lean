import LoxLang.Proofs.Grammar.Plans

/-!
# Reading never uses up its fuel

Every rule of the grammar is given fuel by the length of what is left of the
stream. `Ends` says of a step, for streams of one length, what may be left behind
it, and that it does not run out of fuel if there is enough. A rule nests less than
sixteen deep before it takes a token, so each rule has a rank below sixteen, and
sixteen times the length plus the rank is enough fuel for it (`Reader.ends_rule`).
What has to be seen of the single rules is that up to their first token they call
on rules of a lower rank only (`Rule.ranked_plan`).
-/

namespace LoxLang

set_option autoImplicit false

namespace Reader

variable {Result Other : Type}

/-- A reading that did not run out of `enough` fuel. The result and the length that
is left satisfy a condition; a fault leaves at most as much as there was. -/
def Ended (enough : Prop) (length : Nat) (left : Result → Nat → Prop) :
    EStateM.Result ReaderStop ReaderState Result → Prop
  | .ok result after => left result after.rest.length
  | .error (.fault _) after => after.rest.length ≤ length
  | .error .outOfFuel _ => ¬ enough

/-- On every stream of a given length the step ends if there is enough fuel, with
a condition on what it leaves. -/
def Ends (enough : Prop) (length : Nat) (step : Reader Result) (left : Result → Nat → Prop) :
    Prop :=
  ∀ state : ReaderState, state.rest.length = length → Ended enough length left (step state)

variable {enough : Prop}

namespace Ends

variable {length : Nat}

theorem mono {plenty : Prop} {step : Reader Result} {left right : Result → Nat → Prop}
    (ends : Ends enough length step left) (fits : plenty → enough)
    (weaker : ∀ result rest, left result rest → right result rest) :
    Ends plenty length step right := by
  intro state start
  have ended := ends state start
  cases reading : step state with
  | ok result after =>
      rw [reading] at ended
      exact weaker result after.rest.length ended
  | error stop after =>
      rw [reading] at ended
      cases stop with
      | fault error => exact ended
      | outOfFuel => exact fun some => ended (fits some)

theorem pure {left : Result → Nat → Prop} (result : Result) (holds : left result length) :
    Ends enough length (pure result : Reader Result) left := by
  intro state start
  subst start
  exact holds

/-- The next step goes on with the length that the first one leaves. -/
theorem bind {step : Reader Result} {next : Result → Reader Other} {left : Other → Nat → Prop}
    (ends : Ends enough length step fun result rest =>
      rest ≤ length ∧ Ends enough rest (next result) left) :
    Ends enough length (step >>= next) left := by
  intro state start
  have ended := ends state start
  simp only [Bind.bind, EStateM.bind]
  cases reading : step state with
  | error stop after =>
      rw [reading] at ended
      cases stop <;> exact ended
  | ok result after =>
      rw [reading] at ended
      have later := ended.2 after rfl
      dsimp only
      cases going : next result after with
      | ok last final =>
          rw [going] at later
          exact later
      | error stop final =>
          rw [going] at later
          cases stop with
          | fault error => exact Nat.le_trans later ended.1
          | outOfFuel => exact later

end Ends

/-! ## The steps of a reader -/

section Steps

variable {length : Nat}

theorem ends_fail {left : Result → Nat → Prop} (expectation : Expectation) :
    Ends enough length (fail expectation) left := by
  intro state start
  exact Nat.le_of_eq start

/-- A step that takes no token. -/
theorem ends_still {step : Reader Result} {left : Result → Nat → Prop}
    (still : ∀ state, ∃ result after, step state = .ok result after ∧ after.rest = state.rest)
    (holds : ∀ result, left result length) : Ends enough length step left := by
  intro state start
  obtain ⟨result, after, ran, same⟩ := still state
  rw [ran]
  subst start
  exact same ▸ holds result

theorem upcoming_eq (test : Token → Bool) (state : ReaderState) :
    ∃ result after, upcoming test state = .ok result after ∧ after.rest = state.rest := by
  unfold upcoming
  split <;> exact ⟨_, _, rfl, rfl⟩

theorem ends_atEnd {left : Bool → Nat → Prop} (holds : left (decide (length = 0)) length) :
    Ends enough length atEnd left := by
  intro state start
  subst start
  have same : state.rest.isEmpty = decide (state.rest.length = 0) := by
    cases state.rest <;> rfl
  simp only [atEnd, same]
  exact holds

/-- A token that is taken shortens the stream. -/
theorem ends_accept? {left : Option Token → Nat → Prop} (test : Token → Bool)
    (refused : left none length)
    (taken : ∀ token rest, rest + 1 = length → left (some token) rest) :
    Ends enough length (accept? test) left := by
  intro state start
  subst start
  unfold accept?
  split
  next token rest shape =>
    split
    · exact taken token rest.length (by rw [shape, List.length_cons])
    · exact refused
  next => exact refused

theorem ends_acceptAs? {Class : Type} {left : Option (Token × Class) → Nat → Prop}
    (classify : Token → Option Class) (refused : left none length)
    (taken : ∀ token found rest, rest + 1 = length → left (some (token, found)) rest) :
    Ends enough length (acceptAs? classify) left := by
  intro state start
  subst start
  unfold acceptAs?
  split
  next token rest shape =>
    split
    next found _ => exact taken token found rest.length (by rw [shape, List.length_cons])
    next => exact refused
  next => exact refused

theorem ends_expect {left : Token → Nat → Prop} (test : Token → Bool) (expectation : Expectation)
    (taken : ∀ token rest, rest + 1 = length → left token rest) :
    Ends enough length (expect test expectation) left := by
  intro state start
  subst start
  unfold expect
  split
  next token rest shape =>
    split
    · exact taken token rest.length (by rw [shape, List.length_cons])
    · exact Nat.le_refl _
  next => exact Nat.le_refl _

theorem length_boundaryAfter_le (dropped : Token) (tokens : List Token) :
    (boundaryAfter dropped tokens).length ≤ tokens.length := by
  induction tokens generalizing dropped with
  | nil => simp [boundaryAfter]
  | cons token rest ih =>
      unfold boundaryAfter
      split
      · exact Nat.le_refl _
      · exact Nat.le_succ_of_le (ih token)

/-- Behind a fault at least one token is dropped, if there is one. -/
theorem length_boundary_lt {tokens : List Token} {length : Nat} (le : tokens.length ≤ length)
    (some : 0 < length) : (boundary tokens).length < length := by
  cases tokens with
  | nil => exact some
  | cons token rest =>
      have shorter := length_boundaryAfter_le token rest
      simp only [List.length_cons] at le
      simp only [boundary]
      omega

theorem ends_recover {step : Reader Result} (some : 0 < length)
    (ends : Ends enough length step fun _ rest => rest < length) :
    Ends enough length (recover step) fun _ rest => rest < length := by
  intro state start
  have ended := ends state start
  unfold recover
  cases reading : step state with
  | ok result after =>
      rw [reading] at ended
      exact ended
  | error stop after =>
      rw [reading] at ended
      cases stop with
      | fault error => exact length_boundary_lt ended some
      | outOfFuel => exact ended

/-- A declaration is begun in front of a token only. -/
theorem ends_declared? {fuel : Nat} {left : Option (Option Stmt) → Nat → Prop} (stop : Bool)
    (ends : Ends enough length (declaration fuel) fun _ rest => rest < length)
    (stopped : stop = true ∨ length = 0 → left none length)
    (found : ∀ first rest, rest < length → left (some first) rest) :
    Ends enough length (declared? stop fuel) left := by
  refine .bind (ends_atEnd ⟨Nat.le_refl _, ?_⟩)
  split
  next done => exact .pure _ (stopped (by simpa using done))
  next goes =>
    have some : 0 < length := by
      simp only [Bool.or_eq_true, decide_eq_true_eq] at goes
      omega
    refine .bind ((ends_recover some ends).mono id fun first rest shorter => ⟨by omega, ?_⟩)
    exact .pure _ (found first rest shorter)

end Steps

end Reader

/-! ## The ranks of rules -/

/-- The rank of an operand: the looser its tier, the deeper it nests. -/
def operandRank : Option Tier → Nat
  | none => 3
  | some .factor => 4
  | some .term => 5
  | some .comparison => 6
  | some .equality => 7
  | some .conjunction => 8
  | some .disjunction => 9

/-- The rank of a rule: how deep it nests before it takes a token. -/
@[simp] def Rule.rank {Result : Type} : Rule Result → Nat
  | operand tier => operandRank tier
  | unary => 2
  | methods => 2
  | expression => 10
  | arguments _ => 11
  | statement => 11
  | declaration => 12
  | blockBody => 13
  | declarations => 13
  | block => 14
  | _ => 1

/-- Whether a rule takes a token in any case. -/
@[simp] def Rule.takes {Result : Type} : Rule Result → Bool
  | operandTail _ _ => false
  | callTail _ => false
  | methods => false
  | blockBody => false
  | declarations => false
  | _ => true

/-- Until a plan has `taken` a token, it calls on rules of a lower rank only. Its
goal is about the result, and whether a token has been taken by then. -/
@[simp] def Plan.Ranked (rank : Nat) {Result : Type} :
    Plan Result → Bool → (Result → Bool → Prop) → Prop
  | done result, taken, goal => goal result taken
  | andThen first next, taken, goal =>
    first.Ranked rank taken fun part taken => (next part).Ranked rank taken goal
  | call rule, taken, goal =>
    (taken = true ∨ rule.rank < rank) ∧ ∀ result, goal result (taken || rule.takes)
  | fail _, _, _ => True
  | limit _ _, taken, goal => goal () taken
  | reportAt _ _, taken, goal => goal () taken
  | freshId, taken, goal => ∀ id, goal id taken
  | atEnd, taken, goal => ∀ ended, goal ended taken
  | upcoming _, taken, goal => ∀ passed, goal passed taken
  | accept? _, taken, goal => goal none taken ∧ ∀ token, goal (some token) true
  | acceptAs? _, taken, goal => goal none taken ∧ ∀ token found, goal (some (token, found)) true
  | expect _ _, _, goal => ∀ token, goal token true
  | declared? _, taken, goal =>
    (taken = true ∨ Rule.declaration.rank < rank) ∧ goal none taken ∧
      ∀ found, goal (some found) true

variable {Result : Type}

theorem Rule.rank_bounds (rule : Rule Result) : 0 < rule.rank ∧ rule.rank < 16 := by
  cases rule with
  | operand tier =>
      rcases tier with _ | tier
      · simp [operandRank]
      · cases tier <;> simp [operandRank]
  | _ => simp

theorem Rule.ranked_plan (rule : Rule Result) :
    rule.plan.Ranked rule.rank false fun _ taken => rule.takes = true → taken = true := by
  cases rule with
  | expression =>
      refine ⟨.inr (by decide), fun target => ⟨fun _ => rfl, fun equals => ?_⟩⟩
      refine ⟨.inl rfl, fun value => ?_⟩
      cases target <;> simp [Plan.assignment]
  | operand tier =>
      rcases tier with _ | tier
      · simp [operandRank]
      · cases tier <;> simp [operandRank, Tier.tighter?]
  | primary => exact ⟨trivial, fun token head => by cases head <;> simp⟩
  | statement | declaration => exact ⟨by simp, fun token head => by cases head <;> simp⟩
  | _ => simp

/-! ## Rules and their fuel -/

namespace Reader

/-- If the rules have enough fuel, each in its rank, then so has a plan. -/
theorem ends_plan {fuel rank length : Nat}
    (rules : ∀ {Result : Type} (rule : Rule Result) (now : Nat),
      Ends (16 * now + rule.rank ≤ fuel) now (rule.read fuel) fun _ rest =>
        rest + rule.takes.toNat ≤ now)
    {Result : Type} (plan : Plan Result) {taken : Bool} {goal : Result → Bool → Prop} {now : Nat}
    (ranked : plan.Ranked rank taken goal) (within : now + taken.toNat ≤ length) :
    Ends (16 * length + rank ≤ fuel + 1) now (plan.read fuel) fun result rest =>
      rest ≤ now ∧ ∃ taken : Bool, rest + taken.toNat ≤ length ∧ goal result taken := by
  have fits {Result : Type} (rule : Rule Result) {taken : Bool} {now : Nat}
      (lower : taken = true ∨ rule.rank < rank) (within : now + taken.toNat ≤ length)
      (enough : 16 * length + rank ≤ fuel + 1) : 16 * now + rule.rank ≤ fuel := by
    have small := rule.rank_bounds.2
    rcases lower with rfl | lower
    · rw [Bool.toNat_true] at within
      omega
    · omega
  have stays {Result : Type} {goal : Result → Bool → Prop} {result : Result} {taken : Bool}
      {now : Nat} (within : now + taken.toNat ≤ length) (holds : goal result taken) :
      now ≤ now ∧ ∃ taken : Bool, now + taken.toNat ≤ length ∧ goal result taken :=
    ⟨Nat.le_refl _, taken, within, holds⟩
  induction plan generalizing taken now with
  | done result => exact .pure _ (stays within ranked)
  | andThen first next ihFirst ihNext =>
      refine .bind ((ihFirst ranked within).mono id
        fun part rest ⟨less, taken, within, later⟩ => ?_)
      refine ⟨less, (ihNext part later within).mono id fun result last ⟨shorter, reached⟩ => ?_⟩
      exact ⟨Nat.le_trans shorter less, reached⟩
  | call rule =>
      refine (rules rule now).mono (fits rule ranked.1 within) fun result rest less => ?_
      refine ⟨by omega, taken || rule.takes, ?_, ranked.2 result⟩
      cases taken with
      | false => rw [Bool.false_or]; exact Nat.le_trans less within
      | true =>
          rw [Bool.true_or]
          exact Nat.le_trans (Nat.add_le_add_right (Nat.le_of_add_right_le less) _) within
  | fail expectation => exact ends_fail expectation
  | limit count cause =>
      rw [Plan.read]
      split <;> exact ends_still (fun _ => ⟨_, _, rfl, rfl⟩) fun _ => stays within ranked
  | reportAt token cause =>
      exact ends_still (fun _ => ⟨_, _, rfl, rfl⟩) fun _ => stays within ranked
  | freshId => exact ends_still (fun _ => ⟨_, _, rfl, rfl⟩) fun id => stays within (ranked id)
  | atEnd => exact ends_still (fun _ => ⟨_, _, rfl, rfl⟩) fun ended => stays within (ranked ended)
  | upcoming test => exact ends_still (upcoming_eq test) fun passed => stays within (ranked passed)
  | accept? test =>
      refine ends_accept? test (stays within ranked.1) fun token rest shorter => ?_
      exact ⟨by omega, true, by simp; omega, ranked.2 token⟩
  | acceptAs? classify =>
      refine ends_acceptAs? classify (stays within ranked.1)
        fun token found rest shorter => ?_
      exact ⟨by omega, true, by simp; omega, ranked.2 token found⟩
  | expect test expectation =>
      refine ends_expect test expectation fun token rest shorter => ?_
      exact ⟨by omega, true, by simp; omega, ranked token⟩
  | declared? stop =>
      have declares := (rules .declaration now).mono (fits _ ranked.1 within) fun _ _ less => less
      refine ends_declared? stop declares (fun _ => stays within ranked.2.1)
        fun first rest shorter => ?_
      exact ⟨by omega, true, by simp; omega, ranked.2.2 first⟩

/-- **Sixteen units of fuel for each token are enough**, with the rank of a rule
for the way to its first token. -/
theorem ends_rule : ∀ (fuel : Nat) {Result : Type} (rule : Rule Result) (length : Nat),
    Ends (16 * length + rule.rank ≤ fuel) length (rule.read fuel) fun _ rest =>
      rest + rule.takes.toNat ≤ length
  | 0, _, rule, _ => by
      rw [rule.read_zero]
      intro state _ enough
      have positive := rule.rank_bounds.1
      omega
  | fuel + 1, _, rule, length => by
      rw [rule.read_succ]
      have ends := ends_plan (ends_rule fuel) rule.plan rule.ranked_plan (Nat.le_refl length)
      refine ends.mono id fun result rest ⟨_, taken, within, takes⟩ => ?_
      cases always : rule.takes with
      | false => exact Nat.le_trans (Nat.le_add_right ..) within
      | true => rwa [takes always] at within

theorem length_of_rule {fuel : Nat} {rule : Rule Result} {start after : ReaderState}
    {result : Result} (reading : rule.read fuel start = .ok result after) :
    after.rest.length + rule.takes.toNat ≤ start.rest.length := by
  have ended := ends_rule fuel rule start.rest.length start rfl
  rwa [reading] at ended

theorem length_le_of_fault {fuel : Nat} {rule : Rule Result} {start after : ReaderState}
    {error : GrammarError} (reading : rule.read fuel start = .error (.fault error) after) :
    after.rest.length ≤ start.rest.length := by
  have ended := ends_rule fuel rule start.rest.length start rfl
  rwa [reading] at ended

/-- Declarations are read up to the end of the input. -/
theorem ends_declarations : ∀ (fuel length : Nat), 16 * length + 13 ≤ fuel →
    Ends True length (declarations fuel) fun _ rest => rest = 0
  | 0, _, enough => by omega
  | fuel + 1, length, enough => by
      have first : Ends True length (declaration fuel) fun _ rest => rest < length :=
        (ends_rule fuel .declaration length).mono (fun _ => by simp; omega) fun _ _ less => less
      show Ends True length (Rule.declarations.read (fuel + 1)) _
      rw [Rule.read_succ]
      refine .bind (ends_declared? false first (fun done => ⟨Nat.le_refl _, ?_⟩)
        fun first rest shorter => ⟨by omega, ?_⟩)
      · exact .pure _ (by simpa using done)
      · exact .bind ((ends_declarations fuel rest (by omega)).mono id fun _ _ done =>
          ⟨by omega, .pure _ done⟩)

theorem ends_expressionToEnd {fuel length : Nat} (enough : 16 * length + 10 ≤ fuel) :
    Ends True length (expressionToEnd fuel) fun _ rest => rest = 0 := by
  refine .bind ((ends_rule fuel .expression length).mono (fun _ => enough)
    fun found behind shorter => ⟨by omega, ?_⟩)
  refine .bind (ends_atEnd ⟨Nat.le_refl _, ?_⟩)
  split
  next done => exact .pure _ (by simpa using done)
  next => exact ends_fail _

end Reader

end LoxLang
