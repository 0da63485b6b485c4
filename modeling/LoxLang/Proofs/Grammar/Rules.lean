import LoxLang.Grammar.Statement

/-!
# The grammar as rules

The grammar of the language, written as rules that are independent of any way
of reading. The right side of a rule is a phrase: terminals and rules put in
sequence, alternatives, optional and repeated parts. A phrase derives words of
terminals (`Derives`). A terminal is what a token is, without its text, its
line and the value of a literal.

The lists of parameters and of arguments have a limit, so their rules repeat
the part behind the first element one time less than that.
-/

namespace LoxLang

set_option autoImplicit false

/-- What the grammar tells apart about tokens. -/
inductive Terminal where
  | punct (mark : Punct)
  | keyword (word : Keyword)
  | identifier
  | string
  | number
  | endOfInput
  deriving DecidableEq, Repr

/-- The terminal that a token is. -/
def Token.terminal (token : Token) : Terminal :=
  match token.kind with
  | .punct mark => .punct mark
  | .keyword word => .keyword word
  | .identifier => .identifier
  | .string _ => .string
  | .number _ => .number
  | .endOfInput => .endOfInput

/-- The left sides of the rules. -/
inductive Nonterminal where
  | program | declaration | classDecl | funDecl | function | varDecl
  | statement | exprStmt | forStmt | printStmt | returnStmt | whileStmt | ifStmt | block
  | parameters
  | expression | assignment | logicOr | logicAnd | equality | comparison | term | factor
  | unary | call | arguments | primary
  deriving DecidableEq, Repr

/-- The right sides of the rules. -/
inductive Phrase where
  | nothing
  | terminal (found : Terminal)
  | rule (left : Nonterminal)
  | both (first second : Phrase)
  | either (first second : Phrase)
  | optional (inner : Phrase)
  | repeated (inner : Phrase)
  | atMost (limit : Nat) (inner : Phrase)
  deriving Repr

namespace Phrase

/-- Phrases one after another. -/
def seq : List Phrase → Phrase
  | [] => nothing
  | [only] => only
  | first :: rest => both first (seq rest)

/-- One of several phrases. -/
def oneOf (first : Phrase) : List Phrase → Phrase
  | [] => first
  | second :: rest => either first (oneOf second rest)

/-- A punctuator. -/
def mark (found : Punct) : Phrase := terminal (.punct found)

/-- A reserved word. -/
def word (found : Keyword) : Phrase := terminal (.keyword found)

/-- A name. -/
def name : Phrase := terminal .identifier

/-- Operands with operators of one tier between them. -/
def operands (operand : Nonterminal) (operator : Phrase) : Phrase :=
  seq [rule operand, repeated (seq [operator, rule operand])]

/-- The right side of each rule. -/
def expansion : Nonterminal → Phrase
  | .program => seq [repeated (rule .declaration), terminal .endOfInput]
  | .declaration => oneOf (rule .classDecl) [rule .funDecl, rule .varDecl, rule .statement]
  | .classDecl => seq [word .kwClass, name, optional (seq [mark .less, name]),
      mark .leftBrace, repeated (rule .function), mark .rightBrace]
  | .funDecl => seq [word .kwFun, rule .function]
  | .function => seq [name, mark .leftParen, optional (rule .parameters), mark .rightParen,
      rule .block]
  | .varDecl => seq [word .kwVar, name, optional (seq [mark .equal, rule .expression]),
      mark .semicolon]
  | .statement => oneOf (rule .exprStmt) [rule .forStmt, rule .ifStmt, rule .printStmt,
      rule .returnStmt, rule .whileStmt, rule .block]
  | .exprStmt => seq [rule .expression, mark .semicolon]
  | .forStmt => seq [word .kwFor, mark .leftParen,
      oneOf (rule .varDecl) [rule .exprStmt, mark .semicolon],
      optional (rule .expression), mark .semicolon, optional (rule .expression),
      mark .rightParen, rule .statement]
  | .printStmt => seq [word .kwPrint, rule .expression, mark .semicolon]
  | .returnStmt => seq [word .kwReturn, optional (rule .expression), mark .semicolon]
  | .whileStmt => seq [word .kwWhile, mark .leftParen, rule .expression, mark .rightParen,
      rule .statement]
  | .ifStmt => seq [word .kwIf, mark .leftParen, rule .expression, mark .rightParen,
      rule .statement, optional (seq [word .kwElse, rule .statement])]
  | .block => seq [mark .leftBrace, repeated (rule .declaration), mark .rightBrace]
  | .parameters => seq [name, atMost (listLimit - 1) (seq [mark .comma, name])]
  | .expression => rule .assignment
  | .assignment => oneOf (seq [optional (seq [rule .call, mark .dot]), name, mark .equal,
      rule .assignment]) [rule .logicOr]
  | .logicOr => operands .logicAnd (word .kwOr)
  | .logicAnd => operands .equality (word .kwAnd)
  | .equality => operands .comparison (oneOf (mark .bangEqual) [mark .equalEqual])
  | .comparison => operands .term
      (oneOf (mark .greater) [mark .greaterEqual, mark .less, mark .lessEqual])
  | .term => operands .factor (oneOf (mark .minus) [mark .plus])
  | .factor => operands .unary (oneOf (mark .slash) [mark .star])
  | .unary => oneOf (seq [oneOf (mark .bang) [mark .minus], rule .unary]) [rule .call]
  | .call => seq [rule .primary, repeated (oneOf
      (seq [mark .leftParen, optional (rule .arguments), mark .rightParen])
      [seq [mark .dot, name]])]
  | .arguments => seq [rule .expression,
      atMost (listLimit - 1) (seq [mark .comma, rule .expression])]
  | .primary => oneOf (terminal .number) [terminal .string, word .kwTrue, word .kwFalse,
      word .kwNil, word .kwThis, name,
      seq [mark .leftParen, rule .expression, mark .rightParen],
      seq [word .kwSuper, mark .dot, name]]

end Phrase

/-- The words that a phrase derives. -/
inductive Derives : Phrase → List Terminal → Prop where
  | nothing : Derives .nothing []
  | terminal (found : Terminal) : Derives (.terminal found) [found]
  | rule {left : Nonterminal} {word : List Terminal}
      (expanded : Derives (Phrase.expansion left) word) : Derives (.rule left) word
  | both {first second : Phrase} {front back : List Terminal} (one : Derives first front)
      (other : Derives second back) : Derives (.both first second) (front ++ back)
  | left {first second : Phrase} {word : List Terminal} (one : Derives first word) :
      Derives (.either first second) word
  | right {first second : Phrase} {word : List Terminal} (other : Derives second word) :
      Derives (.either first second) word
  | absent {inner : Phrase} : Derives (.optional inner) []
  | present {inner : Phrase} {word : List Terminal} (found : Derives inner word) :
      Derives (.optional inner) word
  | done {inner : Phrase} : Derives (.repeated inner) []
  | again {inner : Phrase} {front back : List Terminal} (once : Derives inner front)
      (more : Derives (.repeated inner) back) : Derives (.repeated inner) (front ++ back)
  | enough {limit : Nat} {inner : Phrase} : Derives (.atMost limit inner) []
  | another {limit : Nat} {inner : Phrase} {front back : List Terminal}
      (once : Derives inner front) (more : Derives (.atMost limit inner) back) :
      Derives (.atMost (limit + 1) inner) (front ++ back)

/-! ## Phrases and tokens -/

namespace Token

variable {token : Token}

theorem isPunct_iff {mark : Punct} : token.isPunct mark = true ↔ token.terminal = .punct mark := by
  unfold isPunct terminal
  cases token.kind <;> simp

theorem isKeyword_iff {word : Keyword} :
    token.isKeyword word = true ↔ token.terminal = .keyword word := by
  unfold isKeyword terminal
  cases token.kind <;> simp

theorem isPunct_eq_false {mark : Punct} (other : token.terminal ≠ .punct mark) :
    token.isPunct mark = false :=
  Bool.eq_false_iff.mpr (mt isPunct_iff.mp other)

theorem isKeyword_eq_false {word : Keyword} (other : token.terminal ≠ .keyword word) :
    token.isKeyword word = false :=
  Bool.eq_false_iff.mpr (mt isKeyword_iff.mp other)

theorem isIdentifier_iff : token.isIdentifier = true ↔ token.terminal = .identifier := by
  unfold isIdentifier terminal
  cases token.kind <;> simp

theorem isEnd_iff : token.isEnd = true ↔ token.terminal = .endOfInput := by
  unfold isEnd terminal
  cases token.kind <;> simp

end Token

namespace Phrase

/-- A phrase covers tokens if it derives their terminals. -/
def Covers (phrase : Phrase) (tokens : List Token) : Prop :=
  Derives phrase (tokens.map Token.terminal)

variable {first second inner : Phrase} {tokens front back : List Token}

theorem covers_terminal {found : Terminal} :
    (terminal found).Covers tokens ↔
      ∃ token : Token, tokens = [token] ∧ token.terminal = found := by
  constructor
  · intro covers
    unfold Covers at covers
    generalize shape : tokens.map Token.terminal = word at covers
    cases covers
    obtain ⟨token, rfl, same⟩ := List.map_eq_singleton_iff.mp shape
    exact ⟨token, rfl, same⟩
  · rintro ⟨token, rfl, rfl⟩
    exact .terminal token.terminal

theorem covers_rule {left : Nonterminal} :
    (rule left).Covers tokens ↔ (expansion left).Covers tokens := by
  constructor
  · intro covers
    cases covers with
    | rule expanded => exact expanded
  · exact .rule

theorem covers_both : (both first second).Covers tokens ↔
    ∃ front back, tokens = front ++ back ∧ first.Covers front ∧ second.Covers back := by
  constructor
  · intro covers
    unfold Covers at covers
    generalize shape : tokens.map Token.terminal = word at covers
    cases covers with
    | both one other =>
      obtain ⟨front, back, rfl, rfl, rfl⟩ := List.map_eq_append_iff.mp shape
      exact ⟨front, back, rfl, one, other⟩
  · rintro ⟨front, back, rfl, one, other⟩
    unfold Covers
    rw [List.map_append]
    exact .both one other

theorem covers_either : (either first second).Covers tokens ↔
    first.Covers tokens ∨ second.Covers tokens := by
  constructor
  · intro covers
    cases covers with
    | left one => exact .inl one
    | right other => exact .inr other
  · rintro (one | other)
    · exact .left one
    · exact .right other

theorem covers_oneOf {others : List Phrase} : (oneOf first others).Covers tokens ↔
    ∃ phrase ∈ first :: others, phrase.Covers tokens := by
  induction others generalizing first with
  | nil => simp [oneOf]
  | cons second rest ih => simp [oneOf, covers_either, ih]

theorem covers_optional : (optional inner).Covers tokens ↔ tokens = [] ∨ inner.Covers tokens := by
  constructor
  · intro covers
    unfold Covers at covers
    generalize shape : tokens.map Token.terminal = word at covers
    cases covers with
    | absent => exact .inl (List.map_eq_nil_iff.mp shape)
    | present found => exact .inr (by rw [Covers, shape]; exact found)
  · rintro (rfl | found)
    · exact .absent
    · exact .present found

theorem covers_repeated : (repeated inner).Covers tokens ↔ tokens = [] ∨
    ∃ front back, tokens = front ++ back ∧ inner.Covers front ∧ (repeated inner).Covers back := by
  constructor
  · intro covers
    unfold Covers at covers
    generalize shape : tokens.map Token.terminal = word at covers
    cases covers with
    | done => exact .inl (List.map_eq_nil_iff.mp shape)
    | again once more =>
      obtain ⟨front, back, rfl, rfl, rfl⟩ := List.map_eq_append_iff.mp shape
      exact .inr ⟨front, back, rfl, once, more⟩
  · rintro (rfl | ⟨front, back, rfl, once, more⟩)
    · exact .done
    · unfold Covers
      rw [List.map_append]
      exact .again once more

theorem covers_atMost {limit : Nat} : (atMost limit inner).Covers tokens ↔ tokens = [] ∨
    ∃ fewer front back, limit = fewer + 1 ∧ tokens = front ++ back ∧ inner.Covers front ∧
      (atMost fewer inner).Covers back := by
  constructor
  · intro covers
    unfold Covers at covers
    generalize shape : tokens.map Token.terminal = word at covers
    cases covers with
    | enough => exact .inl (List.map_eq_nil_iff.mp shape)
    | another once more =>
      obtain ⟨front, back, rfl, rfl, rfl⟩ := List.map_eq_append_iff.mp shape
      exact .inr ⟨_, front, back, rfl, rfl, once, more⟩
  · rintro (rfl | ⟨fewer, front, back, rfl, rfl, once, more⟩)
    · exact .enough
    · unfold Covers
      rw [List.map_append]
      exact .another once more

/-- A repeated part may be repeated once more at the end. -/
theorem covers_repeated_concat (many : (repeated inner).Covers front)
    (last : inner.Covers back) : (repeated inner).Covers (front ++ back) := by
  unfold Covers at many
  generalize shape : front.map Token.terminal = word at many
  generalize kind : repeated inner = phrase at many
  induction many generalizing front with
  | done =>
      cases kind
      rw [List.map_eq_nil_iff.mp shape]
      exact covers_repeated.mpr (.inr ⟨back, [], by simp, last, .done⟩)
  | again once more _ ih =>
      obtain ⟨start, rest, rfl, rfl, rfl⟩ := List.map_eq_append_iff.mp shape
      cases kind
      rw [List.append_assoc]
      exact covers_repeated.mpr (.inr ⟨start, rest ++ back, rfl, once, ih rfl rfl⟩)
  | _ => cases kind

theorem covers_mark {found : Punct} {token : Token} (same : token.isPunct found = true) :
    (mark found).Covers [token] :=
  covers_terminal.mpr ⟨token, rfl, Token.isPunct_iff.mp same⟩

theorem covers_word {found : Keyword} {token : Token} (same : token.isKeyword found = true) :
    (word found).Covers [token] :=
  covers_terminal.mpr ⟨token, rfl, Token.isKeyword_iff.mp same⟩

theorem covers_name {token : Token} (same : token.isIdentifier = true) : name.Covers [token] :=
  covers_terminal.mpr ⟨token, rfl, Token.isIdentifier_iff.mp same⟩

/-- A list with commas, behind `count` elements that were read before. -/
def listFrom (element : Phrase) (count : Nat) : Phrase :=
  both element (atMost (listLimit - 1 - count) (both (mark .comma) element))

/-- A list is one element, or an element and a list behind one element more. -/
theorem covers_listFrom {element : Phrase} {count : Nat} :
    (listFrom element count).Covers tokens ↔ element.Covers tokens ∨
      ∃ front comma back, tokens = front ++ comma :: back ∧ count + 1 < listLimit ∧
        element.Covers front ∧ comma.isPunct .comma = true ∧
          (listFrom element (count + 1)).Covers back := by
  constructor
  · intro covers
    obtain ⟨front, others, rfl, one, rest⟩ := covers_both.mp covers
    rcases covers_atMost.mp rest with rfl | ⟨fewer, next, back, room, rfl, once, many⟩
    · exact .inl (by rwa [List.append_nil])
    · obtain ⟨separator, second, rfl, found, other⟩ := covers_both.mp once
      obtain ⟨comma, rfl, same⟩ := covers_terminal.mp found
      have same_fewer : fewer = listLimit - 1 - (count + 1) := by omega
      subst same_fewer
      refine .inr ⟨front, comma, second ++ back, by simp, by omega, one,
        Token.isPunct_iff.mpr same, covers_both.mpr ⟨second, back, rfl, other, many⟩⟩
  · rintro (one | ⟨front, comma, back, rfl, room, one, separates, others⟩)
    · exact covers_both.mpr ⟨tokens, [], by simp, one, covers_atMost.mpr (.inl rfl)⟩
    · obtain ⟨second, rest, rfl, other, many⟩ := covers_both.mp others
      refine covers_both.mpr ⟨front, _, rfl, one, covers_atMost.mpr (.inr
        ⟨listLimit - 1 - (count + 1), comma :: second, rest, by omega, rfl, ?_, many⟩)⟩
      exact covers_both.mpr ⟨[comma], second, rfl, covers_mark separates, other⟩

/-! ## Operators -/

theorem covers_unaryOperator : (oneOf (mark .bang) [mark .minus]).Covers tokens ↔
    ∃ token, tokens = [token] ∧ Reader.isUnaryOperator token = true := by
  simp only [oneOf, mark, covers_either, covers_terminal, Reader.isUnaryOperator, Bool.or_eq_true,
    Token.isPunct_iff, ← exists_or, ← and_or_left]

end Phrase


namespace Tier

/-- The rule for the operands of a tier, or for the unary ones. -/
def nonterminal : Option Tier → Nonterminal
  | none => .unary
  | some disjunction => .logicOr
  | some conjunction => .logicAnd
  | some equality => .equality
  | some comparison => .comparison
  | some term => .term
  | some factor => .factor

/-- The operators of a tier. -/
def operator : Tier → Phrase
  | disjunction => .word .kwOr
  | conjunction => .word .kwAnd
  | equality => .oneOf (.mark .bangEqual) [.mark .equalEqual]
  | comparison =>
    .oneOf (.mark .greater) [.mark .greaterEqual, .mark .less, .mark .lessEqual]
  | term => .oneOf (.mark .minus) [.mark .plus]
  | factor => .oneOf (.mark .slash) [.mark .star]

theorem expansion_nonterminal (tier : Tier) :
    Phrase.expansion (nonterminal (some tier)) =
      .operands (nonterminal tier.tighter?) tier.operator := by
  cases tier <;> rfl

open Phrase in
theorem covers_operator {tier : Tier} {tokens : List Token} :
    tier.operator.Covers tokens ↔
      ∃ token : Token, tokens = [token] ∧ tier.isOperator token = true := by
  cases tier <;>
    simp only [operator, oneOf, mark, word, covers_either, covers_terminal, isOperator,
      Bool.or_eq_true, Token.isPunct_iff, Token.isKeyword_iff, ← exists_or, ← and_or_left, or_assoc]
  next =>
    constructor
    · rintro ⟨token, rfl, found⟩
      exact ⟨token, rfl, found.symm⟩
    · rintro ⟨token, rfl, found⟩
      exact ⟨token, rfl, found.symm⟩

end Tier

end LoxLang
