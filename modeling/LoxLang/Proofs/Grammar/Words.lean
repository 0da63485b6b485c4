import LoxLang.Proofs.Grammar.Rules

/-!
# The words of the grammar

What a reader that looks one token ahead has to know about the words of the
grammar: which terminals can open a word of a rule, how loosely a terminal
behind an expression could go on with it, and which of two readings of `else`
is taken.

The rules leave open to which `if` an `else` belongs. `Complete word tail` is
the choice of the nearest one: the statement `word` is read as a whole in front
of `tail`. Every statement is complete in front of a tail that does not begin
with `else` (`complete_of_covers`). Nothing is lost by the choice: a statement
that is not complete in front of an `else` is again a statement together with
it and a statement behind it (`complete_or_open`).
-/

namespace LoxLang

set_option autoImplicit false

open Phrase

namespace Phrase

variable {first second third : Phrase} {tokens : List Token}

/-- A sequence that begins with a terminal. -/
theorem covers_behind {found : Terminal} : (both (terminal found) second).Covers tokens ↔
    ∃ token back, tokens = token :: back ∧ token.terminal = found ∧ second.Covers back := by
  rw [covers_both]
  constructor
  · rintro ⟨front, back, rfl, one, other⟩
    obtain ⟨token, rfl, same⟩ := covers_terminal.mp one
    exact ⟨token, back, rfl, same, other⟩
  · rintro ⟨token, back, rfl, same, other⟩
    exact ⟨[token], back, rfl, covers_terminal.mpr ⟨token, rfl, same⟩, other⟩

theorem covers_both_assoc : (both first (both second third)).Covers tokens ↔
    (both (both first second) third).Covers tokens := by
  simp only [covers_both]
  constructor
  · rintro ⟨one, _, rfl, left, two, three, rfl, middle, right⟩
    exact ⟨one ++ two, three, by simp, ⟨one, two, rfl, left, middle⟩, right⟩
  · rintro ⟨_, three, rfl, ⟨one, two, rfl, left, middle⟩, right⟩
    exact ⟨one, two ++ three, by simp, left, two, three, rfl, middle, right⟩

/-- A sequence may be cut in two. -/
theorem covers_seq_append (one : Phrase) (front : List Phrase) (next : Phrase)
    (back : List Phrase) : (seq (one :: front ++ next :: back)).Covers tokens ↔
      (both (seq (one :: front)) (seq (next :: back))).Covers tokens := by
  induction front generalizing one tokens with
  | nil => exact Iff.rfl
  | cons two rest ih =>
      show (both one (seq (two :: rest ++ next :: back))).Covers tokens ↔
        (both (both one (seq (two :: rest))) (seq (next :: back))).Covers tokens
      rw [← covers_both_assoc]
      simp only [covers_both, ih]

end Phrase

/-! ## First tokens -/

namespace Terminal

/-- Whether an expression can begin with a terminal. -/
def opensExpression : Terminal → Bool
  | number | string | identifier => true
  | keyword found => match found with
    | .kwTrue | .kwFalse | .kwNil | .kwThis | .kwSuper => true
    | _ => false
  | punct found => match found with
    | .leftParen | .bang | .minus => true
    | _ => false
  | endOfInput => false

/-- Whether a statement can begin with a terminal. -/
def opensStatement : Terminal → Bool
  | keyword .kwFor | keyword .kwIf | keyword .kwPrint | keyword .kwReturn | keyword .kwWhile => true
  | punct .leftBrace => true
  | found => found.opensExpression

/-- Whether a declaration can begin with a terminal. -/
def opensDeclaration : Terminal → Bool
  | keyword .kwClass | keyword .kwFun | keyword .kwVar => true
  | found => found.opensStatement

end Terminal

/-- A terminal that passes a test is none that fails it. -/
theorem terminal_ne {test : Terminal → Bool} {token : Token} {other : Terminal}
    (passes : test token.terminal = true) (fails : test other = false) :
    token.terminal ≠ other := by
  rintro rfl
  rw [fails] at passes
  cases passes

/-- A word whose first terminal passes a test. -/
def OpensWith (test : Terminal → Bool) (word : List Token) : Prop :=
  ∃ token rest, word = token :: rest ∧ test token.terminal = true

namespace OpensWith

variable {test other : Terminal → Bool} {word front back : List Token}

theorem append (opens : OpensWith test front) : OpensWith test (front ++ back) := by
  obtain ⟨token, rest, rfl, passes⟩ := opens
  exact ⟨token, rest ++ back, rfl, passes⟩

theorem mono (opens : OpensWith test word)
    (weaker : ∀ found, test found = true → other found = true) : OpensWith other word := by
  obtain ⟨token, rest, rfl, passes⟩ := opens
  exact ⟨token, rest, rfl, weaker _ passes⟩

theorem of_both {first second : Phrase} (covers : (both first second).Covers word)
    (opens : ∀ front, first.Covers front → OpensWith test front) : OpensWith test word := by
  obtain ⟨front, back, rfl, one, _⟩ := covers_both.mp covers
  exact (opens front one).append

theorem of_terminal {found : Terminal} (passes : test found = true)
    (covers : (terminal found).Covers word) : OpensWith test word := by
  obtain ⟨token, rfl, rfl⟩ := covers_terminal.mp covers
  exact ⟨token, [], rfl, passes⟩

/-- A sequence that begins with a terminal opens with it. -/
theorem of_behind {found : Terminal} {second : Phrase} (passes : test found = true)
    (covers : (both (terminal found) second).Covers word) : OpensWith test word :=
  of_both covers fun _ => of_terminal passes

end OpensWith

section First

variable {word : List Token}

theorem primary_opens (covers : (rule .primary).Covers word) :
    OpensWith (fun found => found.opensExpression && found != .punct .bang &&
      found != .punct .minus) word := by
  obtain ⟨phrase, member, derives⟩ := covers_oneOf.mp (covers_rule.mp covers)
  simp only [List.mem_cons, List.not_mem_nil, or_false] at member
  obtain rfl | rfl | rfl | rfl | rfl | rfl | rfl | rfl | rfl := member
  case inr.inr.inr.inr.inr.inr.inr.inl => exact .of_behind rfl derives
  case inr.inr.inr.inr.inr.inr.inr.inr => exact .of_behind rfl derives
  all_goals exact .of_terminal rfl derives

theorem call_opens (covers : (rule .call).Covers word) :
    OpensWith (fun found => found.opensExpression && found != .punct .bang &&
      found != .punct .minus) word :=
  .of_both (covers_rule.mp covers) fun _ => primary_opens

theorem unary_opens (covers : (rule .unary).Covers word) :
    OpensWith Terminal.opensExpression word := by
  rcases covers_either.mp (covers_rule.mp covers) with operated | call
  · refine .of_both operated fun front operator => ?_
    rcases covers_either.mp operator with bang | minus
    · exact .of_terminal rfl bang
    · exact .of_terminal rfl minus
  · refine (call_opens call).mono fun found passes => ?_
    simp only [Bool.and_eq_true] at passes
    exact passes.1.1

/-- A tier begins as the next tighter one does. -/
theorem tier_opens (tier : Tier)
    (tighter : ∀ front, (rule (Tier.nonterminal tier.tighter?)).Covers front →
      OpensWith Terminal.opensExpression front)
    (covers : (rule (Tier.nonterminal (some tier))).Covers word) :
    OpensWith Terminal.opensExpression word := by
  rw [covers_rule, Tier.expansion_nonterminal] at covers
  exact .of_both covers tighter

theorem logicOr_opens (covers : (rule .logicOr).Covers word) :
    OpensWith Terminal.opensExpression word :=
  tier_opens .disjunction (fun _ => tier_opens .conjunction fun _ => tier_opens .equality fun _ =>
    tier_opens .comparison fun _ => tier_opens .term fun _ => tier_opens .factor fun _ =>
      unary_opens) covers

theorem expression_opens (covers : (rule .expression).Covers word) :
    OpensWith Terminal.opensExpression word := by
  rcases covers_either.mp (covers_rule.mp (covers_rule.mp covers)) with assigned | plain
  · obtain ⟨front, back, rfl, target, rest⟩ := covers_both.mp assigned
    rcases covers_optional.mp target with rfl | object
    · exact .of_behind rfl rest
    · have opens : OpensWith _ front := .of_both object fun _ => call_opens
      refine opens.append.mono fun found passes => ?_
      simp only [Bool.and_eq_true] at passes
      exact passes.1.1
  · exact logicOr_opens plain

theorem Terminal.opensStatement_of_opensExpression {found : Terminal}
    (opens : found.opensExpression = true) : found.opensStatement = true := by
  unfold opensStatement
  split
  case h_7 => exact opens
  all_goals rfl

theorem Terminal.opensDeclaration_of_opensStatement {found : Terminal}
    (opens : found.opensStatement = true) : found.opensDeclaration = true := by
  unfold opensDeclaration
  split
  case h_4 => exact opens
  all_goals rfl

theorem statement_opens (covers : (rule .statement).Covers word) :
    OpensWith Terminal.opensStatement word := by
  obtain ⟨phrase, member, derives⟩ := covers_oneOf.mp (covers_rule.mp covers)
  simp only [List.mem_cons, List.not_mem_nil, or_false] at member
  obtain rfl | rfl | rfl | rfl | rfl | rfl | rfl := member
  case inl =>
    refine .of_both (covers_rule.mp derives) fun front value => ?_
    exact (expression_opens value).mono fun _ => Terminal.opensStatement_of_opensExpression
  all_goals exact .of_behind rfl (covers_rule.mp derives)

theorem declaration_opens (covers : (rule .declaration).Covers word) :
    OpensWith Terminal.opensDeclaration word := by
  obtain ⟨phrase, member, derives⟩ := covers_oneOf.mp (covers_rule.mp covers)
  simp only [List.mem_cons, List.not_mem_nil, or_false] at member
  obtain rfl | rfl | rfl | rfl := member
  case inr.inr.inr =>
    exact (statement_opens derives).mono fun _ => Terminal.opensDeclaration_of_opensStatement
  all_goals exact .of_behind rfl (covers_rule.mp derives)

end First

/-! ## What can go on behind an expression -/

/-- How loosely a terminal behind an expression goes on with it: calls and
properties bind tightest, then the tiers of operators, then assignment. A
terminal that cannot go on comes last. -/
def Terminal.looseness : Terminal → Nat
  | .punct .leftParen | .punct .dot => 0
  | .punct .slash | .punct .star => 1
  | .punct .minus | .punct .plus => 2
  | .punct .greater | .punct .greaterEqual | .punct .less | .punct .lessEqual => 3
  | .punct .bangEqual | .punct .equalEqual => 4
  | .keyword .kwAnd => 5
  | .keyword .kwOr => 6
  | .punct .equal => 7
  | _ => 8

/-- The looseness of the operators of a tier. -/
def Tier.looseness : Option Tier → Nat
  | none => 0
  | some factor => 1
  | some term => 2
  | some comparison => 3
  | some equality => 4
  | some conjunction => 5
  | some disjunction => 6

theorem Tier.looseness_tighter (tier : Tier) :
    looseness tier.tighter? + 1 = looseness (some tier) := by
  cases tier <;> rfl

theorem Tier.isOperator_iff_looseness {tier : Tier} {token : Token} :
    tier.isOperator token = true ↔ token.terminal.looseness = looseness (some tier) := by
  unfold isOperator Token.isKeyword Token.isPunct Token.terminal
  cases token.kind with
  | punct mark => cases tier <;> cases mark <;> decide
  | keyword word => cases tier <;> cases word <;> decide
  | _ => cases tier <;> simp [Terminal.looseness, looseness]

/-- The tail does not go on with an expression at the given looseness or
tighter. -/
def Stops (looseness : Nat) (tail : List Token) : Prop :=
  ∀ token ∈ tail.head?, looseness < token.terminal.looseness

theorem Stops.mono {tight loose : Nat} {tail : List Token} (stops : Stops loose tail)
    (le : tight ≤ loose) : Stops tight tail :=
  fun token member => Nat.lt_of_le_of_lt le (stops token member)

theorem stops_cons {looseness : Nat} {token : Token} {rest : List Token}
    (loose : looseness < token.terminal.looseness) : Stops looseness (token :: rest) := by
  intro found member
  cases member
  exact loose

/-- The operators of a tier and what is behind them do not go on with the left
operand. -/
theorem stops_operators {tier : Tier} {word tail : List Token}
    (covers : (repeated (both tier.operator (rule (Tier.nonterminal tier.tighter?)))).Covers word)
    (stops : Stops (Tier.looseness (some tier)) tail) :
    Stops (Tier.looseness tier.tighter?) (word ++ tail) := by
  have below := tier.looseness_tighter
  rcases covers_repeated.mp covers with rfl | ⟨front, back, rfl, once, _⟩
  · exact stops.mono (by omega)
  · obtain ⟨start, operand, rfl, operator, _⟩ := covers_both.mp once
    obtain ⟨token, rfl, operates⟩ := Tier.covers_operator.mp operator
    have loose := Tier.isOperator_iff_looseness.mp operates
    exact stops_cons (by omega)

/-! ## Complete statements -/

/-- The words in front of the branches of a condition. -/
def ifHead : Phrase :=
  seq [Phrase.word .kwIf, mark .leftParen, rule .expression, mark .rightParen]

/-- The words in front of the body of a loop. -/
def whileHead : Phrase :=
  seq [Phrase.word .kwWhile, mark .leftParen, rule .expression, mark .rightParen]

/-- The words in front of the body of a counting loop. -/
def forHead : Phrase :=
  seq [Phrase.word .kwFor, mark .leftParen, oneOf (rule .varDecl) [rule .exprStmt, mark .semicolon],
    optional (rule .expression), mark .semicolon, optional (rule .expression), mark .rightParen]

/-- The statements that do not end with another statement. -/
def plainStatements : List Nonterminal := [.exprStmt, .printStmt, .returnStmt, .block]

/-- Whether a tail begins with `else`. -/
def startsElse (tail : List Token) : Prop :=
  ∃ token ∈ tail.head?, token.terminal = .keyword .kwElse

/-- A statement that is read as a whole in front of a tail, if each `else`
belongs to the nearest `if`. -/
inductive Complete : List Token → List Token → Prop where
  | plain {kind : Nonterminal} {word tail : List Token} (member : kind ∈ plainStatements)
      (covers : (rule kind).Covers word) : Complete word tail
  | loop {head : Phrase} {front body tail : List Token} (member : head ∈ [whileHead, forHead])
      (covers : head.Covers front) (inner : Complete body tail) : Complete (front ++ body) tail
  | cond {front branch tail : List Token} (covers : ifHead.Covers front)
      (inner : Complete branch tail) (last : ¬ startsElse tail) : Complete (front ++ branch) tail
  | condElse {front one two tail : List Token} {other : Token} (covers : ifHead.Covers front)
      (turns : other.terminal = .keyword .kwElse) (inner : Complete one (other :: two ++ tail))
      (last : Complete two tail) : Complete (front ++ (one ++ other :: two)) tail

/-- The ways to derive a statement. -/
inductive StatementCases (word : List Token) : Prop where
  | plain {kind : Nonterminal} (member : kind ∈ plainStatements) (covers : (rule kind).Covers word)
  | loop {head : Phrase} {front body : List Token} (shape : word = front ++ body)
      (member : head ∈ [whileHead, forHead]) (covers : head.Covers front)
      (inner : (rule .statement).Covers body)
  | cond {front branch : List Token} (shape : word = front ++ branch)
      (covers : ifHead.Covers front) (inner : (rule .statement).Covers branch)
  | condElse {front one two : List Token} {other : Token}
      (shape : word = front ++ (one ++ other :: two)) (covers : ifHead.Covers front)
      (turns : other.terminal = .keyword .kwElse) (inner : (rule .statement).Covers one)
      (last : (rule .statement).Covers two)

section Statements

variable {word front back body tail : List Token}

/-- No declaration begins with `else`. -/
theorem not_startsElse_append (covers : (repeated (rule .declaration)).Covers word)
    (last : ¬ startsElse tail) : ¬ startsElse (word ++ tail) := by
  rcases covers_repeated.mp covers with rfl | ⟨front, back, rfl, once, _⟩
  · exact last
  · obtain ⟨token, rest, rfl, opens⟩ := declaration_opens once
    rintro ⟨found, member, same⟩
    cases member
    exact terminal_ne opens rfl same

theorem covers_ifStmt : (rule .ifStmt).Covers word ↔ (both ifHead
    (both (rule .statement) (optional (both (Phrase.word .kwElse) (rule .statement))))).Covers
      word := by
  rw [covers_rule]
  exact covers_seq_append _ [mark .leftParen, rule .expression, mark .rightParen] _ [_]

theorem covers_whileStmt :
    (rule .whileStmt).Covers word ↔ (both whileHead (rule .statement)).Covers word := by
  rw [covers_rule]
  exact covers_seq_append _ [mark .leftParen, rule .expression, mark .rightParen] _ []

theorem covers_forStmt :
    (rule .forStmt).Covers word ↔ (both forHead (rule .statement)).Covers word := by
  rw [covers_rule]
  exact covers_seq_append _ [mark .leftParen, _, optional (rule .expression), mark .semicolon,
    optional (rule .expression), mark .rightParen] _ []

theorem statement_cases (covers : (rule .statement).Covers word) : StatementCases word := by
  obtain ⟨phrase, member, derives⟩ := covers_oneOf.mp (covers_rule.mp covers)
  simp only [List.mem_cons, List.not_mem_nil, or_false] at member
  obtain rfl | rfl | rfl | rfl | rfl | rfl | rfl := member
  · exact .plain (by simp [plainStatements]) derives
  · obtain ⟨front, body, rfl, head, inner⟩ := covers_both.mp (covers_forStmt.mp derives)
    exact .loop rfl (by simp) head inner
  · obtain ⟨front, branches, rfl, head, rest⟩ := covers_both.mp (covers_ifStmt.mp derives)
    obtain ⟨one, others, rfl, inner, last⟩ := covers_both.mp rest
    rcases covers_optional.mp last with rfl | other
    · exact .cond (by rw [List.append_nil]) head inner
    · obtain ⟨token, two, rfl, turns, final⟩ := covers_behind.mp other
      exact .condElse rfl head turns inner final
  · exact .plain (by simp [plainStatements]) derives
  · exact .plain (by simp [plainStatements]) derives
  · obtain ⟨front, body, rfl, head, inner⟩ := covers_both.mp (covers_whileStmt.mp derives)
    exact .loop rfl (by simp) head inner
  · exact .plain (by simp [plainStatements]) derives

theorem statement_of_loop {head : Phrase} (member : head ∈ [whileHead, forHead])
    (covers : head.Covers front) (inner : (rule .statement).Covers body) :
    (rule .statement).Covers (front ++ body) := by
  have both := covers_both.mpr ⟨front, body, rfl, covers, inner⟩
  rw [covers_rule]
  simp only [List.mem_cons, List.not_mem_nil, or_false] at member
  rcases member with rfl | rfl
  · exact covers_oneOf.mpr ⟨rule .whileStmt, by simp, covers_whileStmt.mpr both⟩
  · exact covers_oneOf.mpr ⟨rule .forStmt, by simp, covers_forStmt.mpr both⟩

theorem statement_of_if {branches : List Token} (covers : ifHead.Covers front)
    (inner : (both (rule .statement) (optional (both (Phrase.word .kwElse)
      (rule .statement)))).Covers branches) : (rule .statement).Covers (front ++ branches) :=
  covers_rule.mpr (covers_oneOf.mpr ⟨rule .ifStmt, by simp,
    covers_ifStmt.mpr (covers_both.mpr ⟨front, branches, rfl, covers, inner⟩)⟩)

theorem statement_of_condElse {other : Token} (covers : ifHead.Covers front)
    (inner : (rule .statement).Covers body) (turns : other.terminal = .keyword .kwElse)
    (last : (rule .statement).Covers back) :
    (rule .statement).Covers (front ++ (body ++ other :: back)) := by
  have behind : (both (Phrase.word .kwElse) (rule .statement)).Covers (other :: back) :=
    covers_behind.mpr ⟨other, back, rfl, turns, last⟩
  exact statement_of_if covers
    (covers_both.mpr ⟨body, _, rfl, inner, covers_optional.mpr (.inr behind)⟩)

/-- A statement that takes up an `else` behind it. -/
def OpenStatement (word : List Token) : Prop :=
  ∀ (other : Token) (back : List Token), other.terminal = .keyword .kwElse →
    (rule .statement).Covers back → (rule .statement).Covers (word ++ other :: back)

theorem ne_nil_of_ifHead (covers : ifHead.Covers front) : 0 < front.length := by
  obtain ⟨token, rest, rfl, _⟩ := covers_behind.mp covers
  simp

theorem ne_nil_of_loopHead {head : Phrase} (member : head ∈ [whileHead, forHead])
    (covers : head.Covers front) : 0 < front.length := by
  simp only [List.mem_cons, List.not_mem_nil, or_false] at member
  rcases member with rfl | rfl
  all_goals
    obtain ⟨token, rest, rfl, _⟩ := covers_behind.mp covers
    simp

/-- A statement is complete in front of everything, or it takes up an `else`. -/
theorem complete_or_open (covers : (rule .statement).Covers word) :
    (∀ tail, Complete word tail) ∨ OpenStatement word := by
  induction size : word.length using Nat.strongRecOn generalizing word with
  | _ length ih =>
  cases statement_cases covers with
  | plain member covers => exact .inl fun tail => .plain member covers
  | loop shape member head inner =>
      subst shape
      have some := ne_nil_of_loopHead member head
      rcases ih _ (by simp at size; omega) inner rfl with complete | opens
      · exact .inl fun tail => .loop member head (complete tail)
      · refine .inr fun other back turns last => ?_
        rw [List.append_assoc]
        exact statement_of_loop member head (opens other back turns last)
  | cond shape head inner =>
      subst shape
      refine .inr fun other back turns last => ?_
      rw [List.append_assoc]
      exact statement_of_condElse head inner turns last
  | @condElse front one two other shape head turns inner last =>
      subst shape
      rcases ih one.length (by simp at size; omega) inner rfl with first | early
      · rcases ih two.length (by simp at size; omega) last rfl with second | late
        · exact .inl fun tail => .condElse head turns (first _) (second tail)
        · refine .inr fun next back again final => ?_
          have more := statement_of_condElse head inner turns (late next back again final)
          simpa using more
      -- The inner statement takes up the `else`, so the outer one is left without.
      · refine .inr fun next back again final => ?_
        have whole := statement_of_condElse head (early other two turns last) again final
        simpa using whole

/-- Every statement is complete in front of a tail that has no `else` for it. -/
theorem complete_of_covers (covers : (rule .statement).Covers word) (last : ¬ startsElse tail) :
    Complete word tail := by
  induction size : word.length using Nat.strongRecOn generalizing word with
  | _ length ih =>
  cases statement_cases covers with
  | plain member covers => exact .plain member covers
  | loop shape member head inner =>
      subst shape
      have some := ne_nil_of_loopHead member head
      exact .loop member head (ih _ (by simp at size; omega) inner rfl)
  | cond shape head inner =>
      subst shape
      have some := ne_nil_of_ifHead head
      exact .cond head (ih _ (by simp at size; omega) inner rfl) last
  | @condElse front one two other shape head turns inner final =>
      subst shape
      have some := ne_nil_of_ifHead head
      rcases complete_or_open inner with complete | opens
      · exact .condElse head turns (complete _) (ih two.length (by simp at size; omega) final rfl)
      · exact .cond head (ih (one ++ other :: two).length (by simp at size ⊢; omega)
          (opens other two turns final) rfl) last

end Statements

end LoxLang
