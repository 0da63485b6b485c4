import LoxLang.Proofs.Grammar.Flattening
import LoxLang.Proofs.Grammar.Rules

/-!
# What a reading without errors gives

If a rule of the reader ends with a result and has reported nothing, then the
tokens it has used follow the rule of the grammar, and the tree is well formed
(`Read`).

For expressions this is a matter of the trees. An expression that is read flattens
to the tokens that were used and is levelled, and what a levelled tree flattens to
follows the rule of its level (`Expr.covers_flatten`). Statements are followed
through the plans of their rules (`Rule.reads_plan`).
-/

namespace LoxLang

set_option autoImplicit false

open Phrase

namespace Phrase.Covers

variable {first second inner : Phrase} {tokens front back : List Token}

theorem rule {left : Nonterminal} (expanded : (expansion left).Covers tokens) :
    (Phrase.rule left).Covers tokens :=
  covers_rule.mpr expanded

theorem both (one : first.Covers front) (other : second.Covers back) :
    (Phrase.both first second).Covers (front ++ back) :=
  covers_both.mpr ⟨front, back, rfl, one, other⟩

/-- A sequence whose first part is a single token. -/
theorem led {token : Token} (one : first.Covers [token]) (other : second.Covers back) :
    (Phrase.both first second).Covers (token :: back) :=
  covers_both.mpr ⟨[token], back, rfl, one, other⟩

theorem left (one : first.Covers tokens) : (either first second).Covers tokens :=
  covers_either.mpr (.inl one)

theorem right (other : second.Covers tokens) : (either first second).Covers tokens :=
  covers_either.mpr (.inr other)

theorem absent : (optional inner).Covers [] :=
  covers_optional.mpr (.inl rfl)

theorem present (found : inner.Covers tokens) : (optional inner).Covers tokens :=
  covers_optional.mpr (.inr found)

theorem done : (repeated inner).Covers [] :=
  covers_repeated.mpr (.inl rfl)

theorem again (once : inner.Covers front) (more : (repeated inner).Covers back) :
    (repeated inner).Covers (front ++ back) :=
  covers_repeated.mpr (.inr ⟨front, back, rfl, once, more⟩)

end Phrase.Covers

/-- All tokens of a list are spelled as their kinds say. -/
def AllSpelled (tokens : List Token) : Prop := ∀ token ∈ tokens, token.Spelled

theorem allSpelled_append {front back : List Token} :
    AllSpelled (front ++ back) ↔ AllSpelled front ∧ AllSpelled back :=
  List.forall_mem_append

theorem allSpelled_cons {token : Token} {rest : List Token} :
    AllSpelled (token :: rest) ↔ token.Spelled ∧ AllSpelled rest :=
  List.forall_mem_cons

/-! ## The end of the input -/

/-- No end marker is asked for, neither by the phrase nor by the rule for programs. -/
def Phrase.isEndFree : Phrase → Bool
  | nothing => true
  | terminal found => found != .endOfInput
  | rule left => left != .program
  | both first second | either first second => first.isEndFree && second.isEndFree
  | optional inner | repeated inner | atMost _ inner => inner.isEndFree

/-- Only programs have an end marker. -/
theorem Derives.endOfInput_notMem {phrase : Phrase} {word : List Terminal}
    (derives : Derives phrase word) (free : phrase.isEndFree = true) :
    .endOfInput ∉ word := by
  induction derives with
  | nothing | absent | done | enough => exact List.not_mem_nil
  | terminal found =>
      have other : found ≠ .endOfInput := bne_iff_ne.mp free
      exact fun member => other (List.mem_singleton.mp member).symm
  | @rule left word _ ih =>
      refine ih ?_
      cases left with
      | program => cases free
      | _ => rfl
  | both _ _ one other =>
      obtain ⟨first, second⟩ := Bool.and_eq_true_iff.mp free
      exact fun member => (List.mem_append.mp member).elim (one first) (other second)
  | left _ ih => exact ih (Bool.and_eq_true_iff.mp free).1
  | right _ ih => exact ih (Bool.and_eq_true_iff.mp free).2
  | present _ ih => exact ih free
  | again _ _ one more | another _ _ one more =>
      exact fun member => (List.mem_append.mp member).elim (one free) (more free)

/-! ## Expressions -/

namespace Level

/-- The rule for the expressions of a level. -/
def nonterminal : Level → Nonterminal
  | assignment => .assignment
  | disjunction => .logicOr
  | conjunction => .logicAnd
  | equality => .equality
  | comparison => .comparison
  | term => .term
  | factor => .factor
  | unary => .unary
  | call => .call
  | primary => .primary

theorem nonterminal_tier (tier : Option Tier) :
    (Tier.level tier).nonterminal = Tier.nonterminal tier := by
  cases tier with
  | none => rfl
  | some tier => cases tier <;> rfl

theorem exists_looser {tight : Level} (looser : tight.rank ≠ 0) :
    ∃ next : Level, tight.rank = next.rank + 1 := by
  cases tight with
  | assignment => exact absurd rfl looser
  | disjunction => exact ⟨assignment, rfl⟩
  | conjunction => exact ⟨disjunction, rfl⟩
  | equality => exact ⟨conjunction, rfl⟩
  | comparison => exact ⟨equality, rfl⟩
  | term => exact ⟨comparison, rfl⟩
  | factor => exact ⟨term, rfl⟩
  | unary => exact ⟨factor, rfl⟩
  | call => exact ⟨unary, rfl⟩
  | primary => exact ⟨call, rfl⟩

variable {tokens : List Token}

/-- What follows the rule of a level follows the rule of the next looser one. -/
theorem covers_looser {tight loose : Level} (next : tight.rank = loose.rank + 1)
    (covers : (rule tight.nonterminal).Covers tokens) :
    (rule loose.nonterminal).Covers tokens := by
  have alone {more : Phrase} :
      (both (rule tight.nonterminal) (repeated more)).Covers tokens := by
    rw [← List.append_nil tokens]
    exact covers.both .done
  cases loose <;> cases tight <;>
    first
    | exact absurd next (by decide)
    | exact .rule (.right covers)
    | exact .rule alone

theorem covers_of_le {loose tight : Level} (le : loose ≤ tight)
    (covers : (rule tight.nonterminal).Covers tokens) :
    (rule loose.nonterminal).Covers tokens := by
  obtain ⟨distance, far⟩ := Nat.exists_eq_add_of_le le
  induction distance generalizing tight with
  | zero => rwa [rank_injective far] at covers
  | succ distance ih =>
      obtain ⟨middle, next⟩ := exists_looser (show tight.rank ≠ 0 by omega)
      have close : middle.rank = loose.rank + distance := by omega
      exact ih (Nat.le.intro close.symm) (covers_looser next covers) close

/-- Every level may stand where an expression is asked for. -/
theorem covers_expression {level : Level} (covers : (rule level.nonterminal).Covers tokens) :
    (rule .expression).Covers tokens :=
  .rule (covers_of_le (show assignment ≤ level from Nat.zero_le _) covers)

end Level

section Words

variable {front back : List Token}

/-- The operands of a tier with one more operator and operand. -/
theorem covers_operands_concat {tier : Tier} {operator : Token}
    (before : (rule (Tier.nonterminal (some tier))).Covers front)
    (found : tier.isOperator operator = true)
    (after : (rule (Tier.nonterminal tier.tighter?)).Covers back) :
    (rule (Tier.nonterminal (some tier))).Covers (front ++ operator :: back) := by
  rw [covers_rule, Tier.expansion_nonterminal] at before ⊢
  obtain ⟨start, rest, rfl, one, many⟩ := covers_both.mp before
  have last : (both tier.operator (rule (Tier.nonterminal tier.tighter?))).Covers
      ([operator] ++ back) :=
    (Tier.covers_operator.mpr ⟨operator, rfl, found⟩).both after
  rw [List.append_assoc]
  exact one.both (covers_repeated_concat many last)

/-- A call or a property behind a callee is a longer callee. -/
theorem covers_call_concat (callee : (rule .call).Covers front)
    (last : (either (both (mark .leftParen) (both (optional (rule .arguments)) (mark .rightParen)))
      (both (mark .dot) name)).Covers back) : (rule .call).Covers (front ++ back) := by
  obtain ⟨start, rest, rfl, one, many⟩ := covers_both.mp (covers_rule.mp callee)
  rw [List.append_assoc]
  exact .rule (one.both (covers_repeated_concat many last))

/-- A name behind a callee and a dot, or alone, with a value assigned to it. -/
theorem covers_assigned {value : List Token} {token : Token}
    (callee : (optional (both (rule .call) (mark .dot))).Covers front)
    (named : token.isIdentifier = true) (whole : (rule .expression).Covers value) :
    (rule .assignment).Covers (front ++ token :: Punct.equal.token :: value) :=
  .rule (.left (callee.both (Covers.led (covers_name named)
    (Covers.led (covers_mark rfl) (covers_rule.mp whole)))))

theorem covers_token (found : Punct) : (mark found).Covers [found.token] :=
  .terminal _

theorem covers_literal (value : Literal) : (rule .primary).Covers [value.token] := by
  refine .rule ?_
  cases value with
  | number value => exact .left (.terminal _)
  | string value => exact .right (.left (.terminal _))
  | bool value =>
      cases value with
      | true => exact .right (.right (.left (.terminal _)))
      | false => exact .right (.right (.right (.left (.terminal _))))
  | nil => exact .right (.right (.right (.right (.left (.terminal _)))))

end Words

namespace Expr

/-- An operator of a tier between two operands. -/
theorem covers_node {tier : Tier} {operator : Token} {left right : Expr}
    (operates : tier.isOperator operator = true)
    (levelled : (tier.node left operator right).Levelled)
    (first : left.Levelled → (rule left.level.nonterminal).Covers left.flatten)
    (second : right.Levelled → (rule right.level.nonterminal).Covers right.flatten) :
    (rule (tier.node left operator right).level.nonterminal).Covers
      (tier.node left operator right).flatten := by
  obtain ⟨loose, tight, one, other⟩ := (Tier.levelled_node operates left right).mp levelled
  have before := Level.covers_of_le loose (first one)
  have after := Level.covers_of_le tight (second other)
  rw [Level.nonterminal_tier] at before after
  rw [Tier.level_node operates, Tier.flatten_node, Level.nonterminal_tier]
  exact covers_operands_concat before operates after

mutual

/-- **What a levelled tree flattens to follows the rule of its level.** -/
theorem covers_flatten : ∀ found : Expr, found.Levelled →
    (rule found.level.nonterminal).Covers found.flatten
  | literal value, _ => covers_literal value
  | unary _ operand, ⟨operates, tight, levelled⟩ =>
    .rule (.left (Covers.led (covers_unaryOperator.mpr ⟨_, rfl, operates⟩)
      (Level.covers_of_le tight (covers_flatten operand levelled))))
  | binary left _ right, levelled => by
      obtain ⟨tier, operates, same⟩ := Tier.exists_binary levelled.1
      rw [← same left right] at levelled ⊢
      exact covers_node operates levelled (covers_flatten left) (covers_flatten right)
  | logical left _ right, levelled => by
      obtain ⟨tier, operates, same⟩ := Tier.exists_logical levelled.1
      rw [← same left right] at levelled ⊢
      exact covers_node operates levelled (covers_flatten left) (covers_flatten right)
  | grouping inner, levelled => by
      have whole := Level.covers_expression (covers_flatten inner levelled)
      have group := Covers.led (covers_token .leftParen) (whole.both (covers_token .rightParen))
      exact .rule (.right (.right (.right (.right (.right (.right (.right (.left group))))))))
  | var _, named =>
    .rule (.right (.right (.right (.right (.right (.right (.left (covers_name named))))))))
  | assign _ value, ⟨named, levelled⟩ =>
    covers_assigned .absent named (Level.covers_expression (covers_flatten value levelled))
  | call callee _ arguments, ⟨closes, tight, room, levelled, all⟩ => by
      have given : (optional (rule .arguments)).Covers (flattenAll arguments) := by
        rcases covers_flattenAll arguments all 0 (by rwa [Nat.zero_add]) with rfl | list
        · exact .absent
        · exact .present (.rule list)
      exact covers_call_concat (Level.covers_of_le tight (covers_flatten callee levelled))
        (.left (Covers.led (covers_token _) (given.both (covers_mark closes))))
  | get object _, ⟨named, tight, levelled⟩ =>
    covers_call_concat (Level.covers_of_le tight (covers_flatten object levelled))
      (.right (Covers.led (covers_token _) (covers_name named)))
  | set object _ value, ⟨named, tight, levelled, inner⟩ => by
      have callee := Level.covers_of_le tight (covers_flatten object levelled)
      rw [flatten, List.append_cons]
      exact covers_assigned (.present (callee.both (covers_token .dot))) named
        (Level.covers_expression (covers_flatten value inner))
  | thisRef _, word => .rule (.right (.right (.right (.right (.right (.left (covers_word word)))))))
  | superRef _ _, ⟨word, named⟩ =>
    .rule (.right (.right (.right (.right (.right (.right (.right (.right
      (Covers.led (covers_word word) (Covers.led (covers_token _) (covers_name named)))))))))))

/-- The same for arguments behind a number of others. -/
theorem covers_flattenAll : ∀ arguments : List Expr, AllLevelled arguments →
    ∀ count, count + arguments.length ≤ listLimit →
      arguments = [] ∨ (listFrom (rule .expression) count).Covers (flattenAll arguments)
  | [], _, _, _ => .inl rfl
  | [only], ⟨levelled, _⟩, count, _ => by
      rw [flattenAll, flattenMore, List.append_nil]
      have covers := Level.covers_expression (covers_flatten only levelled)
      exact .inr (covers_listFrom.mpr (.inl covers))
  | first :: second :: rest, ⟨levelled, others⟩, count, room => by
      rw [List.length_cons, List.length_cons] at room
      have behind := (covers_flattenAll (second :: rest) others (count + 1)
        (by rw [List.length_cons]; omega)).resolve_left (List.cons_ne_nil _ _)
      exact .inr (covers_listFrom.mpr (.inr ⟨first.flatten, Punct.comma.token, _, rfl, by omega,
        Level.covers_expression (covers_flatten first levelled), rfl, behind⟩))

end

/-- No tree holds an end marker. -/
theorem notEnd_flatten (found : Expr) (levelled : found.Levelled) :
    ∀ token ∈ found.flatten, token.isEnd = false := by
  intro token member
  have free :=
    Derives.endOfInput_notMem (Level.covers_expression (covers_flatten found levelled)) rfl
  refine Bool.eq_false_iff.mpr fun ends => free ?_
  exact Token.isEnd_iff.mp ends ▸ List.mem_map_of_mem member

mutual

/-- A levelled tree whose tokens are spelled right is well formed. -/
theorem wellFormed_of_levelled : ∀ found : Expr, found.Levelled → AllSpelled found.kept →
    found.WellFormed
  | literal _, _, _ => trivial
  | unary _ operand, ⟨operates, _, levelled⟩, spelled =>
    ⟨operates, operand.wellFormed_of_levelled levelled (allSpelled_cons.mp spelled).2⟩
  | binary left _ right, ⟨operates, _, _, first, second⟩, spelled =>
    have ⟨one, other⟩ := allSpelled_append.mp spelled
    ⟨operates, left.wellFormed_of_levelled first one,
      right.wellFormed_of_levelled second (allSpelled_cons.mp other).2⟩
  | logical left _ right, ⟨_, _, _, first, second⟩, spelled =>
    have ⟨one, other⟩ := allSpelled_append.mp spelled
    ⟨left.wellFormed_of_levelled first one,
      right.wellFormed_of_levelled second (allSpelled_cons.mp other).2⟩
  | grouping inner, levelled, spelled => inner.wellFormed_of_levelled levelled spelled
  | var _, named, spelled => Token.isName_of_isIdentifier (allSpelled_cons.mp spelled).1 named
  | assign _ value, ⟨named, levelled⟩, spelled =>
    have ⟨one, others⟩ := allSpelled_cons.mp spelled
    ⟨Token.isName_of_isIdentifier one named, value.wellFormed_of_levelled levelled others⟩
  | call callee _ arguments, ⟨_, _, _, levelled, all⟩, spelled =>
    have ⟨one, others⟩ := allSpelled_append.mp spelled
    ⟨callee.wellFormed_of_levelled levelled one,
      allWellFormed_of_levelled arguments all (allSpelled_append.mp others).1⟩
  | get object _, ⟨_, _, levelled⟩, spelled =>
    object.wellFormed_of_levelled levelled (allSpelled_append.mp spelled).1
  | set object _ value, ⟨_, _, levelled, inner⟩, spelled =>
    have ⟨one, others⟩ := allSpelled_append.mp spelled
    ⟨object.wellFormed_of_levelled levelled one,
      value.wellFormed_of_levelled inner (allSpelled_cons.mp others).2⟩
  | thisRef _, word, spelled => Token.lexeme_of_isKeyword (allSpelled_cons.mp spelled).1 word
  | superRef _ _, ⟨word, _⟩, spelled =>
    Token.lexeme_of_isKeyword (allSpelled_cons.mp spelled).1 word

theorem allWellFormed_of_levelled : ∀ found : List Expr, AllLevelled found →
    AllSpelled (keptAll found) → AllWellFormed found
  | [], _, _ => trivial
  | first :: rest, ⟨levelled, others⟩, spelled =>
    have ⟨one, more⟩ := allSpelled_append.mp spelled
    ⟨first.wellFormed_of_levelled levelled one, allWellFormed_of_levelled rest others more⟩

end

end Expr

/-- What a reading without errors gives: the used tokens follow a phrase, and
if they are spelled right then the tree is well formed. -/
structure Read (phrase : Phrase) (wellFormed : Prop) (used : List Token) : Prop where
  covers : phrase.Covers used
  wellFormed : AllSpelled used → wellFormed

/-- Tokens that mean the same follow the same phrases. -/
theorem Phrase.Covers.of_meaning {phrase : Phrase} {tokens used : List Token}
    (covers : phrase.Covers tokens)
    (same : tokens.map Token.meaning = used.map Token.meaning) : phrase.Covers used := by
  have kinds : tokens.map Token.terminal = used.map Token.terminal := by
    have mapped := congrArg (List.map fun meaning => Token.terminal ⟨meaning.1, "", 0⟩) same
    rwa [List.map_map, List.map_map] at mapped
  unfold Covers at covers ⊢
  rwa [← kinds]

theorem Writes.read {used : List Token} {found : Expr} (writes : Writes .assignment used found) :
    Read (rule .expression) found.WellFormed used where
  covers :=
    (Level.covers_expression (found.covers_flatten writes.levelled)).of_meaning writes.tokens
  wellFormed spelled := found.wellFormed_of_levelled writes.levelled fun token member =>
    spelled token (writes.kept.subset member)

/-! ## Statements -/

/-- What a reading of an expression that may be missing gives. -/
abbrev ReadOption (phrase : Phrase) (used : List Token) (found : Option Expr) : Prop :=
  Read phrase (Expr.OptionWellFormed found) used

/-- What a reading of a statement gives. -/
abbrev ReadStmt (phrase : Phrase) (used : List Token) (found : Stmt) : Prop :=
  Read phrase found.WellFormed used

/-- What a reading of a statement that is no declaration gives. -/
structure ReadPlain (phrase : Phrase) (used : List Token) (found : Stmt) : Prop extends
    ReadStmt phrase used found where
  plain : found.isDeclaration = false

theorem ReadPlain.change {phrase other : Phrase} {used : List Token} {found : Stmt}
    (read : ReadPlain phrase used found)
    (covers : phrase.Covers used → other.Covers used) : ReadPlain other used found :=
  { read with covers := covers read.covers }

/-! ### Counting loops -/

/-- The statement in front of a loop, if there is one. -/
def Stmt.OptionWellFormed : Option Stmt → Prop
  | none => True
  | some found => found.WellFormed

namespace Stmt

variable {initializer : Option Stmt} {condition increment : Option Expr} {body : Stmt}

theorem counting_plain : (counting initializer condition increment body).isDeclaration = false := by
  cases initializer <;> rfl

theorem counting_wellFormed (start : OptionWellFormed initializer)
    (test : Expr.OptionWellFormed condition) (step : Expr.OptionWellFormed increment)
    (inner : body.WellFormed) (plain : body.isDeclaration = false) :
    (counting initializer condition increment body).WellFormed := by
  have tested : (condition.getD (.literal (.bool true))).WellFormed := by
    cases condition with
    | none => trivial
    | some found => exact test
  cases increment with
  | none =>
      cases initializer with
      | none => exact ⟨tested, inner, plain⟩
      | some first => exact ⟨start, ⟨tested, inner, plain⟩, trivial⟩
  | some last =>
      cases initializer with
      | none => exact ⟨tested, ⟨inner, step, trivial⟩, rfl⟩
      | some first => exact ⟨start, ⟨tested, ⟨inner, step, trivial⟩, rfl⟩, trivial⟩

end Stmt

/-- What a reading of a list of statements gives. -/
abbrev ReadBody (phrase : Phrase) (used : List Token) (found : List Stmt) : Prop :=
  Read phrase (Stmt.AllWellFormed found) used

/-- A declaration that could be read in front of others. -/
theorem readBody_cons {front back : List Token} {one : Stmt} {others : List Stmt}
    (read : ReadStmt (rule .declaration) front one)
    (rest : ReadBody (repeated (rule .declaration)) back others) :
    ReadBody (repeated (rule .declaration)) (front ++ back) (one :: others) := by
  refine ⟨read.covers.again rest.covers, fun spelled => ?_⟩
  obtain ⟨here, behind⟩ := allSpelled_append.mp spelled
  exact ⟨read.wellFormed here, rest.wellFormed behind⟩

/-- What the rules give. Those that are read behind their first token cover that
token as well. -/
def Rule.Reads {Part : Type} : Rule Part → List Token → Part → Prop
  | parameters count => fun used found =>
    count < listLimit ∧ Read (listFrom name count) (∀ param ∈ found, param.IsName) used
  | declaration => ReadStmt (Phrase.rule .declaration)
  | classDeclaration => fun used found => ∀ keyword, keyword.isKeyword .kwClass = true →
    ReadStmt (Phrase.rule .classDecl) (keyword :: used) found
  | methods => fun used found =>
    Read (repeated (Phrase.rule .function)) (FunctionDecl.AllWellFormed found) used
  | function _ => fun used found => Read (Phrase.rule .function) found.WellFormed used
  | block => fun used found => ∀ brace, brace.isPunct .leftBrace = true →
    ReadBody (Phrase.rule .block) (brace :: used) found
  | blockBody | declarations => ReadBody (repeated (Phrase.rule .declaration))
  | statement => ReadPlain (Phrase.rule .statement)
  | forStatement => fun used found => ∀ keyword, keyword.isKeyword .kwFor = true →
    ReadPlain (Phrase.rule .forStmt) (keyword :: used) found
  | ifStatement => fun used found => ∀ keyword, keyword.isKeyword .kwIf = true →
    ReadPlain (Phrase.rule .ifStmt) (keyword :: used) found
  | whileStatement => fun used found => ∀ keyword, keyword.isKeyword .kwWhile = true →
    ReadPlain (Phrase.rule .whileStmt) (keyword :: used) found
  | found => found.Writes

theorem Rule.writes_of_reads {Part : Type} (found : Rule Part) (used : List Token) (result : Part)
    (reads : found.Reads used result) : found.Writes used result := by
  cases found <;> first | exact reads | trivial

section Clauses

variable {used : List Token}

theorem yields_expressionUnless {goal : List Token → Option Expr → Prop} (mark : Punct)
    (good : ∀ more found, ReadOption (optional (rule .expression)) more found →
      goal (used ++ more) found) : (Plan.expressionUnless mark).Yields Rule.Reads used goal := by
  intro passed
  cases passed with
  | true =>
      have missing := good [] none ⟨.absent, fun _ => trivial⟩
      rwa [List.append_nil] at missing
  | false =>
      intro more found writes
      exact good more (some found) ⟨.present writes.read.covers, writes.read.wellFormed⟩

theorem yields_expressionStatement {goal : List Token → Stmt → Prop}
    (good : ∀ more found, ReadPlain (rule .exprStmt) more found → goal (used ++ more) found) :
    Plan.expressionStatement.Yields Rule.Reads used goal := by
  intro more value writes token ends
  rw [List.append_assoc]
  exact good _ _ ⟨⟨.rule (writes.read.covers.both (covers_mark ends)),
    fun spelled => writes.read.wellFormed (allSpelled_append.mp spelled).1⟩, rfl⟩

theorem yields_printStatement {goal : List Token → Stmt → Prop} {keyword : Token}
    (word : keyword.isKeyword .kwPrint = true)
    (good : ∀ more found, ReadPlain (rule .printStmt) (keyword :: more) found →
      goal (used ++ more) found) : Plan.printStatement.Yields Rule.Reads used goal := by
  intro more value writes token ends
  have ended := writes.read.covers.both (covers_mark ends)
  rw [List.append_assoc]
  refine good _ _ ⟨⟨.rule (Covers.both (covers_word word) ended), fun spelled => ?_⟩, rfl⟩
  exact writes.read.wellFormed (allSpelled_append.mp (allSpelled_cons.mp spelled).2).1

theorem yields_returnStatement {goal : List Token → Stmt → Prop} {keyword : Token}
    (word : keyword.isKeyword .kwReturn = true)
    (good : ∀ more found, ReadPlain (rule .returnStmt) (keyword :: more) found →
      goal (used ++ more) found) : (Plan.returnStatement keyword).Yields Rule.Reads used goal := by
  refine yields_expressionUnless _ fun more value read token ends => ?_
  have ended := read.covers.both (covers_mark ends)
  rw [List.append_assoc]
  refine good _ _ ⟨⟨.rule (Covers.both (covers_word word) ended), fun spelled => ?_⟩, rfl⟩
  exact read.wellFormed (allSpelled_append.mp (allSpelled_cons.mp spelled).2).1

theorem yields_varDeclaration {goal : List Token → Stmt → Prop} {keyword : Token}
    (word : keyword.isKeyword .kwVar = true)
    (good : ∀ more found, ReadStmt (rule .varDecl) (keyword :: more) found →
      goal (used ++ more) found) : Plan.varDeclaration.Yields Rule.Reads used goal := by
  intro name named
  have closed {more : List Token} {initializer : Option Expr}
      (read : ReadOption (optional (both (mark .equal) (rule .expression))) more initializer)
      (token : Token) (ends : token.isPunct .semicolon = true) :
      goal (used ++ [name] ++ more ++ [token]) (.var name initializer) := by
    have ended := read.covers.both (covers_mark ends)
    simp only [List.append_assoc, List.singleton_append]
    refine good _ _ ⟨.rule (Covers.led (covers_word word) (Covers.led (covers_name named) ended)),
      fun spelled => ?_⟩
    obtain ⟨first, others⟩ := allSpelled_cons.mp (allSpelled_cons.mp spelled).2
    exact ⟨Token.isName_of_isIdentifier first named,
      read.wellFormed (allSpelled_append.mp others).1⟩
  refine ⟨?_, fun equals equal more value writes => ?_⟩
  · have missing := @closed [] none ⟨.absent, fun _ => trivial⟩
    rwa [List.append_nil] at missing
  · have present := @closed (equals :: more) (some value) ⟨.present (Covers.led (covers_mark equal)
      writes.read.covers), fun spelled => writes.read.wellFormed (allSpelled_cons.mp spelled).2⟩
    rwa [List.append_cons] at present

theorem yields_forInitializer {goal : List Token → Option Stmt → Prop}
    (good : ∀ more found, Read (oneOf (rule .varDecl) [rule .exprStmt, mark .semicolon])
      (Stmt.OptionWellFormed found) more → goal (used ++ more) found) :
    Plan.forInitializer.Yields Rule.Reads used goal := by
  refine ⟨⟨?_, fun keyword word => ?_⟩, fun token ends => ?_⟩
  · exact yields_expressionStatement fun more found read =>
      good more (some found) ⟨.right (.left read.covers), read.wellFormed⟩
  · refine yields_varDeclaration word fun more found read => ?_
    rw [List.append_assoc]
    exact good _ (some found) ⟨.left read.covers, read.wellFormed⟩
  · exact good [token] none ⟨.right (.right (covers_mark ends)), fun _ => trivial⟩

theorem yields_superclass {goal : List Token → Option Expr → Prop}
    (good : ∀ more found, Read (optional (both (mark .less) name)) (Expr.IsSuperclass found) more →
      goal (used ++ more) found) : Plan.superclass.Yields Rule.Reads used goal := by
  refine ⟨?_, fun less inherits name named id => ?_⟩
  · have missing := good [] none ⟨.absent, fun _ => trivial⟩
    rwa [List.append_nil] at missing
  · rw [List.append_assoc]
    refine good _ _ ⟨.present (Covers.led (covers_mark inherits) (covers_name named)),
      fun spelled => ?_⟩
    exact Token.isName_of_isIdentifier
      (allSpelled_cons.mp (allSpelled_cons.mp spelled).2).1 named

end Clauses

namespace Reader

/-- The keyword behind each opening of a declaration. -/
def DeclarationHead.keyword : DeclarationHead → Keyword
  | .classWord => .kwClass
  | .funWord => .kwFun
  | .varWord => .kwVar

theorem isKeyword_of_declarationHead? {token : Token} {head : DeclarationHead}
    (opens : declarationHead? token = some head) : token.isKeyword head.keyword = true := by
  unfold declarationHead? at opens
  unfold Token.isKeyword
  split at opens <;> simp_all [DeclarationHead.keyword] <;> subst opens <;> rfl

/-- What a token has to be for each opening of a statement. -/
def StatementHead.accepts (token : Token) : StatementHead → Bool
  | .forWord => token.isKeyword .kwFor
  | .ifWord => token.isKeyword .kwIf
  | .whileWord => token.isKeyword .kwWhile
  | .returnWord => token.isKeyword .kwReturn
  | .printWord => token.isKeyword .kwPrint
  | .brace => token.isPunct .leftBrace

theorem accepts_of_statementHead? {token : Token} {head : StatementHead}
    (opens : statementHead? token = some head) : head.accepts token = true := by
  unfold statementHead? at opens
  split at opens <;> simp_all <;> subst opens <;>
    simp [StatementHead.accepts, Token.isKeyword, Token.isPunct, *]

end Reader

open Reader

namespace Rule

theorem reads_parameters (count : Nat) :
    (parameters count).plan.Yields Reads [] (parameters count).Reads := by
  refine fun below first named => ⟨?_, fun comma separates rest others ⟨less, read⟩ => ?_⟩
  · refine ⟨below, covers_listFrom.mpr (.inl (covers_name named)), fun spelled => ?_⟩
    simpa using Token.isName_of_isIdentifier (allSpelled_cons.mp spelled).1 named
  · have covers := covers_listFrom.mpr
      (.inr ⟨[first], comma, rest, rfl, less, covers_name named, separates, read.covers⟩)
    refine ⟨below, covers, fun spelled => ?_⟩
    obtain ⟨one, behind⟩ := allSpelled_cons.mp spelled
    exact List.forall_mem_cons.mpr ⟨Token.isName_of_isIdentifier one named,
      read.wellFormed (allSpelled_cons.mp behind).2⟩

theorem reads_declaration : declaration.plan.Yields Reads [] declaration.Reads := by
  refine ⟨fun used found read => ?_, fun token head opens => ?_⟩
  · exact { read with covers := .rule (.right (.right (.right read.covers))) }
  · have word := isKeyword_of_declarationHead? opens
    cases head with
    | classWord =>
        refine fun used found read => ?_
        have read := read token word
        exact { read with covers := .rule (.left read.covers) }
    | funWord =>
        refine fun used found read => ?_
        exact ⟨.rule (.right (.left (.rule (.led (covers_word word) read.covers)))),
          fun spelled => read.wellFormed (allSpelled_cons.mp spelled).2⟩
    | varWord =>
        refine yields_varDeclaration word fun used found read => ?_
        exact { read with covers := .rule (.right (.right (.left read.covers))) }

theorem reads_classDeclaration : classDeclaration.plan.Yields Reads [] classDeclaration.Reads := by
  refine fun name named => yields_superclass fun front parent inherits brace opens => ?_
  intro inner methods read last closes keyword word
  have body : (both (mark .leftBrace)
      (both (repeated (Phrase.rule .function)) (mark .rightBrace))).Covers
      (brace :: (inner ++ [last])) :=
    .led (covers_mark opens) (read.covers.both (covers_mark closes))
  simp only [List.append_assoc, List.singleton_append, List.nil_append]
  refine ⟨.rule (.led (covers_word word) (.led (covers_name named)
    (inherits.covers.both body))), fun spelled => ?_⟩
  obtain ⟨first, others⟩ := allSpelled_cons.mp (allSpelled_cons.mp spelled).2
  obtain ⟨parents, methods⟩ := allSpelled_append.mp others
  exact ⟨Token.isName_of_isIdentifier first named, inherits.wellFormed parents,
    read.wellFormed (allSpelled_append.mp (allSpelled_cons.mp methods).2).1⟩

theorem reads_forStatement : forStatement.plan.Yields Reads [] forStatement.Reads := by
  refine fun paren opens => yields_forInitializer fun front initializer start => ?_
  refine yields_expressionUnless _ fun second condition test token ends => ?_
  refine yields_expressionUnless _ fun third increment step last closes => ?_
  intro inner body read keyword word
  have clauses := start.covers.both (test.covers.both (.led (covers_mark ends)
    (step.covers.both (.led (covers_mark closes) read.covers))))
  simp only [List.append_assoc, List.singleton_append, List.nil_append]
  refine ⟨⟨.rule (.led (covers_word word) (.led (covers_mark opens) clauses)),
    fun spelled => ?_⟩, Stmt.counting_plain⟩
  obtain ⟨one, others⟩ :=
    allSpelled_append.mp (allSpelled_cons.mp (allSpelled_cons.mp spelled).2).2
  obtain ⟨two, others⟩ := allSpelled_append.mp others
  obtain ⟨three, others⟩ := allSpelled_append.mp (allSpelled_cons.mp others).2
  exact Stmt.counting_wellFormed (start.wellFormed one) (test.wellFormed two)
    (step.wellFormed three) (read.wellFormed (allSpelled_cons.mp others).2) read.plain

theorem reads_methods : methods.plan.Yields Reads [] methods.Reads := by
  intro closing ended
  dsimp only
  split
  · exact ⟨.done, fun _ => trivial⟩
  · intro front method read back others rest
    refine ⟨read.covers.again rest.covers, fun spelled => ?_⟩
    obtain ⟨one, many⟩ := allSpelled_append.mp spelled
    exact ⟨read.wellFormed one, rest.wellFormed many⟩

theorem reads_function (callee : Callee) :
    (function callee).plan.Yields Reads [] (function callee).Reads := by
  intro name named paren opens empty
  -- behind the parameters, whether there are any or not
  have closed {used : List Token} {params : List Token}
      (list : Read (optional (Phrase.rule .parameters)) (∀ param ∈ params, param.IsName) used)
      (last : Token) (closes : last.isPunct .rightParen = true) (brace : Token)
      (begins : brace.isPunct .leftBrace = true) (inner : List Token) (body : List Stmt)
      (read : Rule.block.Reads inner body) (id : Nat) :
      Read (Phrase.rule .function) (FunctionDecl.mk id name params body).WellFormed
        ([name] ++ [paren] ++ used ++ [last] ++ [brace] ++ inner) := by
    have read := read brace begins
    simp only [List.append_assoc, List.cons_append, List.nil_append]
    refine ⟨.rule (.led (covers_name named) (.led (covers_mark opens)
      (list.covers.both (.led (covers_mark closes) read.covers)))), fun spelled => ?_⟩
    obtain ⟨first, others⟩ := allSpelled_cons.mp spelled
    obtain ⟨names, rest⟩ := allSpelled_append.mp (allSpelled_cons.mp others).2
    exact ⟨Token.isName_of_isIdentifier first named, list.wellFormed names,
      read.wellFormed (allSpelled_cons.mp rest).2⟩
  cases empty with
  | true => exact @closed [] [] ⟨.absent, fun _ => by simp⟩
  | false =>
      exact fun used params ⟨_, read⟩ =>
        closed ⟨.present (.rule read.covers), read.wellFormed⟩

theorem reads_statement : statement.plan.Yields Reads [] statement.Reads := by
  have chosen : ∀ {phrase : Phrase} {used : List Token},
      phrase ∈ [Phrase.rule .exprStmt, Phrase.rule .forStmt, Phrase.rule .ifStmt,
        Phrase.rule .printStmt, Phrase.rule .returnStmt, Phrase.rule .whileStmt,
        Phrase.rule .block] → phrase.Covers used → (Phrase.rule .statement).Covers used :=
    fun member covers => .rule (covers_oneOf.mpr ⟨_, member, covers⟩)
  refine ⟨?_, fun token head opens => ?_⟩
  · exact yields_expressionStatement fun _ _ read => read.change (chosen (by simp))
  · have accepts := accepts_of_statementHead? opens
    cases head with
    | forWord | ifWord | whileWord =>
        exact fun _ _ read => (read token accepts).change (chosen (by simp))
    | printWord =>
        exact yields_printStatement accepts fun _ _ read => read.change (chosen (by simp))
    | returnWord =>
        exact yields_returnStatement accepts fun _ _ read => read.change (chosen (by simp))
    | brace =>
        refine fun used body read => ?_
        have read := read token accepts
        exact ⟨⟨chosen (by simp) read.covers, read.wellFormed⟩, rfl⟩

theorem reads_ifStatement : ifStatement.plan.Yields Reads [] ifStatement.Reads := by
  intro paren opens used condition writes last closes front thenBranch read
  have test := writes.read
  refine ⟨fun keyword word => ?_, fun other turns back elseBranch rest keyword word => ?_⟩
  · simp only [List.append_assoc, List.singleton_append, List.nil_append]
    rw [← List.append_nil front]
    refine ⟨⟨.rule (.led (covers_word word) (.led (covers_mark opens) (test.covers.both
      (.led (covers_mark closes) (read.covers.both .absent))))), fun spelled => ?_⟩, rfl⟩
    obtain ⟨one, others⟩ :=
      allSpelled_append.mp (allSpelled_cons.mp (allSpelled_cons.mp spelled).2).2
    obtain ⟨two, _⟩ := allSpelled_append.mp (allSpelled_cons.mp others).2
    exact ⟨test.wellFormed one, read.wellFormed two, read.plain⟩
  · simp only [List.append_assoc, List.singleton_append, List.nil_append]
    have branches := test.covers.both (.led (covers_mark closes)
      (read.covers.both (.present (.led (covers_word turns) rest.covers))))
    refine ⟨⟨.rule (.led (covers_word word) (.led (covers_mark opens) branches)),
      fun spelled => ?_⟩, rfl⟩
    obtain ⟨one, others⟩ :=
      allSpelled_append.mp (allSpelled_cons.mp (allSpelled_cons.mp spelled).2).2
    obtain ⟨two, others⟩ := allSpelled_append.mp (allSpelled_cons.mp others).2
    exact ⟨test.wellFormed one, ⟨read.wellFormed two, read.plain⟩,
      rest.wellFormed (allSpelled_cons.mp others).2, rest.plain⟩

theorem reads_whileStatement : whileStatement.plan.Yields Reads [] whileStatement.Reads := by
  intro paren opens used condition writes last closes front body read keyword word
  have test := writes.read
  have round := test.covers.both (.led (covers_mark closes) read.covers)
  simp only [List.append_assoc, List.singleton_append, List.nil_append]
  refine ⟨⟨.rule (.led (covers_word word) (.led (covers_mark opens) round)),
    fun spelled => ?_⟩, rfl⟩
  obtain ⟨one, others⟩ :=
    allSpelled_append.mp (allSpelled_cons.mp (allSpelled_cons.mp spelled).2).2
  exact ⟨test.wellFormed one, read.wellFormed (allSpelled_cons.mp others).2, read.plain⟩

/-- The plan of a rule gives what the rule has to give. -/
theorem reads_plan {Result : Type} (rule : Rule Result) :
    rule.plan.Yields Reads [] rule.Reads := by
  cases rule with
  | parameters count => exact reads_parameters count
  | declaration => exact reads_declaration
  | classDeclaration => exact reads_classDeclaration
  | forStatement => exact reads_forStatement
  | methods => exact reads_methods
  | function callee => exact reads_function callee
  | block =>
      intro used body read last closes brace opens
      refine ⟨.rule (.led (covers_mark opens) (read.covers.both (covers_mark closes))),
        fun spelled => ?_⟩
      exact read.wellFormed (allSpelled_append.mp (allSpelled_cons.mp spelled).2).1
  | blockBody =>
      refine fun closing => ⟨⟨.done, fun _ => trivial⟩, fun front one read back others rest => ?_⟩
      exact readBody_cons read rest
  | declarations =>
      refine ⟨⟨.done, fun _ => trivial⟩, fun front one read back others rest => ?_⟩
      exact readBody_cons read rest
  | statement => exact reads_statement
  | ifStatement => exact reads_ifStatement
  | whileStatement => exact reads_whileStatement
  | expression | operand _ | operandTail _ _ | unary | callTail _ | arguments _ | primary =>
      exact (writes_plan _).mono writes_of_reads fun _ _ => id

end Rule

namespace Reader

theorem reads_rule : ∀ (fuel : Nat) {Result : Type} (found : Rule Result),
    Yields (found.read fuel) found.Reads
  | 0, _, found => by
      rw [found.read_zero]
      exact fun _ _ _ reading => by cases reading
  | fuel + 1, _, found => by
      rw [found.read_succ]
      exact yields_plan (reads_rule fuel) found.plan found.reads_plan

theorem yields_declarations (fuel : Nat) :
    Yields (declarations fuel) (ReadBody (repeated (rule .declaration))) :=
  reads_rule fuel .declarations

theorem yields_expression (fuel : Nat) : Yields (expression fuel) fun used found =>
    Read (rule .expression) found.WellFormed used :=
  (writes_rule fuel .expression).mono fun _ _ writes => writes.read

end Reader

end LoxLang
