import LoxLang.Proofs.Grammar.Acceptance
import LoxLang.Proofs.Grammar.Flattening
import LoxLang.Proofs.Tree.Relabelling

/-!
# Precedence and associativity

Reading and flattening are inverse to each other. What is read flattens to the
tokens it was read from, and a levelled tree is read back from its tokens, up to
the numbers of its nodes (`flatten_reads_back`).

For the second half each rule of the reader has to stop where the tree ends.
A rule that goes on with a left part does not see the tree of its result before
it is done: in front of the tokens of `a + b + c` it has read `a`. So the
statement about such a rule has the tokens behind the tree in it (`Rereads`). If
the rule can go on from the tree through those tokens, then it can start in front
of the tree. The induction is on the tree, and inside of it on the levels, from
the tightest to the loosest.
-/

namespace LoxLang

set_option autoImplicit false

open Reader

/-- Two expressions are the same up to the numbers of their nodes. -/
def Expr.Alike (one other : Expr) : Prop := other.relabel .forgetIds = one.relabel .forgetIds

namespace Reader

/-! ## How a tree begins -/

theorem isUnaryOperator_of_primaryHead {token : Token}
    (opens : (primaryHead? token).isSome = true) : isUnaryOperator token = false := by
  unfold primaryHead? at opens
  unfold isUnaryOperator Token.isPunct
  split at opens <;> simp_all

theorem isRightParen_of_primaryHead {token : Token}
    (opens : (primaryHead? token).isSome = true) : token.isPunct .rightParen = false := by
  unfold primaryHead? at opens
  unfold Token.isPunct
  split at opens <;> simp_all

theorem primaryHead_literal (value : Literal) :
    primaryHead? value.token = some (.literal value) := by
  cases value with
  | bool value => cases value <;> rfl
  | _ => rfl

/-- The tokens of a tree begin with a primary expression, or with a unary operator
unless the tree is as tight as a call. -/
def Opens (tokens : List Token) (level : Level) : Prop :=
  ∃ token rest, tokens = token :: rest ∧
    ((primaryHead? token).isSome = true ∨ isUnaryOperator token = true ∧ ¬ .call ≤ level)

theorem Opens.primary {token : Token} {rest : List Token} {head : PrimaryHead} {level : Level}
    (found : primaryHead? token = some head) : Opens (token :: rest) level :=
  ⟨token, rest, rfl, .inl (by rw [found]; rfl)⟩

theorem Opens.append {tokens : List Token} {tight loose : Level} (opens : Opens tokens tight)
    (behind : List Token) (le : .call ≤ loose → .call ≤ tight) :
    Opens (tokens ++ behind) loose := by
  obtain ⟨token, rest, rfl, first⟩ := opens
  refine ⟨token, rest ++ behind, rfl, first.imp_right fun ⟨operates, looser⟩ => ⟨operates, ?_⟩⟩
  exact fun tighter => looser (le tighter)

theorem not_call_le_of_lt {level : Level} (looser : level < .call) : ¬ .call ≤ level :=
  Nat.not_le.mpr looser

theorem opens_flatten : ∀ found : Expr, found.Levelled → Opens found.flatten found.level
  | .literal value, _ => .primary (primaryHead_literal value)
  | .unary _ _, ⟨operates, _, _⟩ =>
    ⟨_, _, rfl, .inr ⟨operates, not_call_le_of_lt (Nat.lt_succ_self _)⟩⟩
  | .binary left _ right, levelled => by
      obtain ⟨tier, operates, same⟩ := Tier.exists_binary levelled.1
      refine (opens_flatten left levelled.2.2.2.1).append _ fun tight => ?_
      rw [← same left right, Tier.level_node operates] at tight
      exact absurd tight (not_call_le_of_lt (Nat.lt_succ_of_lt tier.rank_lt.2))
  | .logical left _ right, levelled => by
      obtain ⟨tier, operates, same⟩ := Tier.exists_logical levelled.1
      refine (opens_flatten left levelled.2.2.2.1).append _ fun tight => ?_
      rw [← same left right, Tier.level_node operates] at tight
      exact absurd tight (not_call_le_of_lt (Nat.lt_succ_of_lt tier.rank_lt.2))
  | .grouping _, _ => .primary (show primaryHead? Punct.leftParen.token = some .group from rfl)
  | .var _, named => .primary (primaryHead?_eq (Token.isIdentifier_iff.mp named) rfl)
  | .assign _ _, ⟨named, _⟩ => .primary (primaryHead?_eq (Token.isIdentifier_iff.mp named) rfl)
  | .call callee _ _, ⟨_, tight, _, levelled, _⟩ =>
    (opens_flatten callee levelled).append _ fun _ => tight
  | .get object _, ⟨_, tight, levelled⟩ => (opens_flatten object levelled).append _ fun _ => tight
  | .set object _ _, ⟨_, tight, levelled, _⟩ =>
    (opens_flatten object levelled).append _ fun _ => tight
  | .thisRef _, word => .primary (primaryHead?_eq (Token.isKeyword_iff.mp word) rfl)
  | .superRef _ _, ⟨word, _⟩ => .primary (primaryHead?_eq (Token.isKeyword_iff.mp word) rfl)

/-- A tree as tight as a call does not begin with a unary operator. -/
theorem refuses_unary_flatten {found : Expr} (levelled : found.Levelled)
    (tight : .call ≤ found.level) (tail : List Token) :
    Refuses isUnaryOperator (found.flatten ++ tail) := by
  obtain ⟨token, rest, same, first | ⟨_, looser⟩⟩ := opens_flatten found levelled
  · rw [same]
    exact refuses_cons (isUnaryOperator_of_primaryHead first)
  · exact absurd tight looser

/-- No tree begins with a closing parenthesis. -/
theorem refuses_paren_flatten {found : Expr} (levelled : found.Levelled) (tail : List Token) :
    Refuses (Token.isPunct .rightParen) (found.flatten ++ tail) := by
  obtain ⟨token, rest, same, first | ⟨operates, _⟩⟩ := opens_flatten found levelled
  · rw [same]
    exact refuses_cons (isRightParen_of_primaryHead first)
  · rw [same]
    refine refuses_cons (Token.isPunct_eq_false ?_)
    simp only [isUnaryOperator, Bool.or_eq_true, Token.isPunct_iff] at operates
    rcases operates with bang | minus
    · simp [bang]
    · simp [minus]

/-! ## Reading a tree back -/

/-- A tree is read back as an operand of a tier, in front of tokens that do not go
on with it at a tighter tier, if the tier can go on from the tree through them. -/
def RereadsOperand (found : Expr) (tier : Tier) : Prop :=
  ∀ ⦃rest : List Token⦄ ⦃goal : Expr → List Token → Prop⦄,
    Stops (Tier.looseness tier.tighter?) rest →
    (∀ other, found.Alike other → (Rule.operandTail tier other).Succeeds rest goal) →
      (Rule.operand (some tier)).Succeeds (found.flatten ++ rest) goal

/-- A tree is read back as a unary expression. -/
def RereadsUnary (found : Expr) : Prop :=
  ∀ ⦃tail : List Token⦄ ⦃goal : Expr → List Token → Prop⦄, Stops 0 tail →
    (∀ other, found.Alike other → goal other tail) →
      Rule.unary.Succeeds (found.flatten ++ tail) goal

/-- A tree is read back as a call, in front of tokens that are behind it, if calls
and properties can go on from the tree through them. -/
def RereadsCall (found : Expr) : Prop :=
  ∀ ⦃rest : List Token⦄ ⦃goal : Expr → List Token → Prop⦄,
    (∀ other, found.Alike other → (Rule.callTail other).Succeeds rest goal) →
      Rule.primary.Succeeds (found.flatten ++ rest) fun callee rest =>
        (Rule.callTail callee).Succeeds rest goal

/-- A tree is read back wherever it is tight enough to stand. -/
structure Rereads (found : Expr) : Prop where
  whole : ∀ {tail} {goal : Expr → List Token → Prop}, EndsExpression tail →
    (∀ other, found.Alike other → goal other tail) →
      Rule.expression.Succeeds (found.flatten ++ tail) goal
  asOperand : ∀ tier, Tier.level (some tier) ≤ found.level → RereadsOperand found tier
  asUnary : .unary ≤ found.level → RereadsUnary found
  asCall : .call ≤ found.level → RereadsCall found

/-! ### From tight levels to loose ones -/

section Levels

variable {found : Expr} {tail : List Token} {goal : Expr → List Token → Prop}

/-- A tree that stands where an operand of a tier is asked for. -/
theorem RereadsOperand.succeeds {tier : Tier} (rereads : RereadsOperand found tier)
    (stops : Stops (Tier.looseness (some tier)) tail)
    (goes : ∀ other, found.Alike other → goal other tail) :
    (Rule.operand (some tier)).Succeeds (found.flatten ++ tail) goal := by
  have below := tier.looseness_tighter
  refine rereads (stops.mono (by omega)) fun other alike => ?_
  exact Rule.Accepts.succeeds (.noOperator stops (goes other alike))

theorem Rereads.succeeds_operand (rereads : Rereads found) {tier : Option Tier}
    (tight : Tier.level tier ≤ found.level) (stops : Stops (Tier.looseness tier) tail)
    (goes : ∀ other, found.Alike other → goal other tail) :
    (Rule.operand tier).Succeeds (found.flatten ++ tail) goal := by
  cases tier with
  | none => exact Rule.succeeds_of_plan (rereads.asUnary tight stops goes)
  | some tier => exact (rereads.asOperand tier tight).succeeds stops goes

/-- A call that does not begin with a unary operator. -/
theorem RereadsCall.unary (rereads : RereadsCall found) (levelled : found.Levelled)
    (tight : .call ≤ found.level) : RereadsUnary found := by
  intro tail goal stops goes
  refine Rule.succeeds_of_plan ?_
  refine Plan.succeeds_refuse (refuses_unary_flatten levelled tight tail) ?_
  exact rereads fun other alike => Rule.Accepts.succeeds (.noSuffix stops (goes other alike))

/-- A tree that is no assignment is read back at all levels if it is at its own:
looser tiers find nothing to go on with. -/
theorem rereads_of_own (plain : .assignment < found.level)
    (own : ∀ tier, Tier.level (some tier) = found.level → RereadsOperand found tier)
    (unary : .unary ≤ found.level → RereadsUnary found)
    (call : .call ≤ found.level → RereadsCall found) : Rereads found := by
  have operands : ∀ tier, Tier.level (some tier) ≤ found.level → RereadsOperand found tier := by
    refine Tier.induction fun tier tighter tight => ?_
    by_cases same : Tier.level (some tier) = found.level
    · exact own tier same
    · have differs : (Tier.level (some tier)).rank ≠ found.level.rank :=
        fun equal => same (Level.rank_injective equal)
      have below : (Tier.level (some tier)).rank ≤ found.level.rank := tight
      have next : Tier.level tier.tighter? ≤ found.level := by
        show (Tier.level tier.tighter?).rank ≤ found.level.rank
        rw [tier.rank_tighter]
        omega
      intro rest goal stops goes
      refine Rule.succeeds_of_plan ?_
      show (Rule.operand tier.tighter?).Succeeds _ _
      cases shape : tier.tighter? with
      | none =>
          rw [shape] at next stops
          exact Rule.succeeds_of_plan (unary next stops goes)
      | some inner =>
          rw [shape] at next stops
          exact (tighter inner shape next).succeeds stops goes
  refine ⟨fun ends goes => Rule.succeeds_of_plan ?_, operands, unary, call⟩
  refine (operands .disjunction plain).succeeds (ends.mono (by decide)) fun other alike => ?_
  refine Plan.succeeds_refuse (refuses_of_stops ends fun token passes => ?_) (goes other alike)
  exact Nat.le_of_eq (by rw [Token.isPunct_iff.mp passes])

end Levels

/-! ### One case per constructor -/

/-- A tree as tight as a call. -/
theorem RereadsCall.rereads {found : Expr} (call : RereadsCall found) (levelled : found.Levelled)
    (tight : .call ≤ found.level) : Rereads found := by
  refine rereads_of_own (Nat.lt_of_lt_of_le (by decide) tight) (fun tier same => ?_)
    (fun _ => call.unary levelled tight) fun _ => call
  rw [← same] at tight
  exact absurd (Nat.lt_succ_of_lt tier.rank_lt.2) (Nat.not_lt.mpr tight)

theorem rereads_primary {found : Expr} (levelled : found.Levelled)
    (tight : found.level = .primary)
    (reads : ∀ rest (goal : Expr → List Token → Prop),
      (∀ other, found.Alike other → goal other rest) →
        Rule.primary.plan.Succeeds Rule.Succeeds (found.flatten ++ rest) goal) : Rereads found := by
  refine RereadsCall.rereads (fun rest goal goes => ?_) levelled (tight ▸ by decide)
  exact Rule.succeeds_of_plan (reads rest _ goes)

theorem rereads_literal (value : Literal) : Rereads (.literal value) :=
  rereads_primary trivial rfl fun _ _ goes =>
    Plan.succeeds_acceptAs (primaryHead_literal value) (goes _ rfl)

theorem rereads_var {occurrence : Occurrence} (named : occurrence.token.isIdentifier = true) :
    Rereads (.var occurrence) :=
  rereads_primary named rfl fun _ _ goes =>
    Plan.succeeds_acceptAs (primaryHead?_eq (Token.isIdentifier_iff.mp named) rfl) fun _ =>
      goes _ rfl

theorem rereads_this {occurrence : Occurrence}
    (word : occurrence.token.isKeyword .kwThis = true) : Rereads (.thisRef occurrence) :=
  rereads_primary word rfl fun _ _ goes =>
    Plan.succeeds_acceptAs (primaryHead?_eq (Token.isKeyword_iff.mp word) rfl) fun _ => goes _ rfl

theorem rereads_super {occurrence : Occurrence} {method : Token}
    (word : occurrence.token.isKeyword .kwSuper = true) (named : method.isIdentifier = true) :
    Rereads (.superRef occurrence method) :=
  rereads_primary ⟨word, named⟩ rfl fun _ _ goes =>
    Plan.succeeds_acceptAs (primaryHead?_eq (Token.isKeyword_iff.mp word) rfl)
      ⟨rfl, named, fun _ => goes _ rfl⟩

theorem rereads_grouping {inner : Expr} (levelled : inner.Levelled) (rereads : Rereads inner) :
    Rereads (.grouping inner) := by
  refine rereads_primary levelled rfl fun rest goal goes => ?_
  rw [Expr.flatten, List.cons_append, List.append_assoc]
  refine Plan.succeeds_acceptAs (show primaryHead? Punct.leftParen.token = some .group from rfl) ?_
  refine rereads.whole (endsExpression_cons (by decide)) fun other alike => ?_
  exact ⟨rfl, goes _ (congrArg Expr.grouping alike)⟩

theorem rereads_unary {operator : Token} {operand : Expr}
    (operates : isUnaryOperator operator = true) (tight : .unary ≤ operand.level)
    (rereads : Rereads operand) : Rereads (.unary operator operand) := by
  refine rereads_of_own (show Level.assignment < Level.unary by decide) (fun tier same => ?_)
    (fun _ tail goal stops goes => Rule.succeeds_of_plan ?_) fun tight => ?_
  · exact absurd (same ▸ tier.rank_lt.2) (Nat.lt_irrefl _)
  · refine Plan.succeeds_accept operates (rereads.asUnary tight stops fun other alike => ?_)
    exact goes _ (congrArg (Expr.unary operator) alike)
  · exact absurd tight (not_call_le_of_lt (show Level.unary < Level.call by decide))

theorem alike_node (tier : Tier) (operator : Token) {left right one other : Expr}
    (first : left.Alike one) (second : right.Alike other) :
    (tier.node left operator right).Alike (tier.node one operator other) := by
  unfold Expr.Alike at first second ⊢
  cases tier <;> simp [Tier.node, Expr.relabel, first, second]

/-- Operators group to the left: the left operand is read as an operand of the
same tier, which goes on through the operator and the right operand. -/
theorem rereads_node {tier : Tier} {left right : Expr} {operator : Token}
    (operates : tier.isOperator operator = true)
    (levelled : (tier.node left operator right).Levelled) (first : Rereads left)
    (second : Rereads right) : Rereads (tier.node left operator right) := by
  have level := Tier.level_node operates left right
  obtain ⟨looser, tighter, _, _⟩ := (Tier.levelled_node operates left right).mp levelled
  have loose := Tier.isOperator_iff_looseness.mp operates
  have below := tier.looseness_tighter
  refine rereads_of_own (level ▸ tier.rank_lt.1) (fun other same => ?_) (fun tight => ?_)
    fun tight => ?_
  · obtain rfl := Tier.level_injective (same.trans level)
    intro rest goal stops goes
    rw [Tier.flatten_node, List.append_assoc, List.cons_append]
    refine first.asOperand other looser (stops_cons (by omega)) fun one alike => ?_
    refine Rule.succeeds_of_plan (Plan.succeeds_accept operates ?_)
    refine second.succeeds_operand tighter stops fun another same => ?_
    exact goes _ (alike_node other operator alike same)
  · exact absurd tier.rank_lt.2 (Nat.not_lt.mpr (level ▸ tight))
  · exact absurd (Nat.lt_succ_of_lt tier.rank_lt.2) (Nat.not_lt.mpr (level ▸ tight))

theorem rereads_get {object : Expr} {name : Token} (named : name.isIdentifier = true)
    (tight : .call ≤ object.level) (levelled : object.Levelled) (rereads : Rereads object) :
    Rereads (.get object name) := by
  refine RereadsCall.rereads (fun rest goal goes => ?_) ⟨named, tight, levelled⟩ (Nat.le_refl _)
  rw [Expr.flatten, List.append_assoc]
  refine rereads.asCall tight fun other alike => Rule.succeeds_of_plan ?_
  refine Plan.succeeds_refuse (refuses_cons rfl) (Plan.succeeds_accept rfl ⟨named, ?_⟩)
  exact goes _ (congrArg (Expr.get · name) alike)

/-- Arguments with commas between them, in front of the closing parenthesis. -/
theorem succeeds_arguments {paren : Token} {tail : List Token}
    (closes : paren.isPunct .rightParen = true) : ∀ (arguments : List Expr),
    (∀ found ∈ arguments, Rereads found) → arguments ≠ [] →
      ∀ (count : Nat) (goal : List Expr → List Token → Prop),
      count + arguments.length ≤ listLimit →
        (∀ others, Expr.relabelAll .forgetIds others = Expr.relabelAll .forgetIds arguments →
          goal others (paren :: tail)) →
          (Rule.arguments count).Succeeds (Expr.flattenAll arguments ++ paren :: tail) goal := by
  intro arguments
  induction arguments with
  | nil => exact fun _ some => absurd rfl some
  | cons first rest ih =>
      intro each _ count goal room goes
      have one := each first List.mem_cons_self
      have closing := Token.isPunct_iff.mp closes
      rw [List.length_cons] at room
      refine Rule.succeeds_of_plan ⟨by omega, ?_⟩
      rw [Expr.flattenAll, List.append_assoc]
      cases rest with
      | nil =>
          refine one.whole (endsExpression_mark closing (by decide)) fun other alike => ?_
          refine Plan.succeeds_refuse (refuses_cons ?_) (goes _ (congrArg (· :: []) alike))
          exact Token.isPunct_eq_false (by simp [closing])
      | cons second more =>
          refine one.whole (endsExpression_cons (by decide)) fun other alike => ?_
          refine Plan.succeeds_accept rfl (ih ?_ (List.cons_ne_nil _ _) (count + 1) _ ?_ ?_)
          · exact fun found member => each found (List.mem_cons_of_mem _ member)
          · omega
          · intro others same
            refine goes _ ?_
            rw [Expr.relabelAll, same, show other.relabel .forgetIds = _ from alike]
            rfl

theorem rereads_call {callee : Expr} {paren : Token} {arguments : List Expr}
    (levelled : (Expr.call callee paren arguments).Levelled) (rereads : Rereads callee)
    (each : ∀ found ∈ arguments, Rereads found) : Rereads (.call callee paren arguments) := by
  have ⟨closes, tight, room, _, all⟩ := levelled
  refine RereadsCall.rereads (fun rest goal goes => ?_) levelled (Nat.le_refl _)
  simp only [Expr.flatten, List.append_assoc, List.cons_append, List.nil_append]
  refine rereads.asCall tight fun other alike => Rule.succeeds_of_plan ?_
  -- behind the arguments, whether there are any or not
  have closed : ∀ others,
      Expr.relabelAll .forgetIds others = Expr.relabelAll .forgetIds arguments →
        (Rule.callTail (.call other paren others)).Succeeds rest goal := by
    intro others same
    refine goes _ ?_
    unfold Expr.Alike at alike ⊢
    simp only [Expr.relabel, alike, same]
  refine Plan.succeeds_accept rfl ?_
  cases arguments with
  | nil => exact Plan.succeeds_missing closes ⟨closes, closed [] rfl⟩
  | cons first others =>
      refine Plan.succeeds_present ?_ (succeeds_arguments closes _ each ?_ 0 _ ?_ ?_)
      · rw [Expr.flattenAll, List.append_assoc]
        exact refuses_paren_flatten all.1 _
      · exact List.cons_ne_nil _ _
      · omega
      · exact fun others same => ⟨closes, closed others same⟩

/-- The target of an assignment is read as an operand and only then turned into
one. -/
theorem rereads_assigned {target value assigned : Expr} (first : Rereads target)
    (second : Rereads value) (plain : .disjunction ≤ target.level)
    (place : assigned.level = .assignment)
    (tokens : assigned.flatten = target.flatten ++ Punct.equal.token :: value.flatten)
    (joins : ∀ equals one other tail (goal : Expr → List Token → Prop),
      target.Alike one → value.Alike other →
        (∀ found, assigned.Alike found → goal found tail) →
          (Plan.assignment one equals other).Succeeds Rule.Succeeds tail goal) :
    Rereads assigned := by
  refine ⟨fun ends goes => Rule.succeeds_of_plan ?_, fun tier tight => ?_, fun tight => ?_,
    fun tight => ?_⟩
  · rw [tokens, List.append_assoc, List.cons_append]
    refine (first.asOperand .disjunction plain).succeeds (stops_cons (by decide)) ?_
    intro one alike
    refine Plan.succeeds_accept rfl (second.whole ends fun other same => ?_)
    exact joins _ one other _ _ alike same goes
  · exact absurd tier.rank_lt.1 (Nat.not_lt.mpr (place ▸ tight))
  · exact absurd (place ▸ tight) (by decide)
  · exact absurd (place ▸ tight) (by decide)

theorem rereads_assign {occurrence : Occurrence} {value : Expr}
    (named : occurrence.token.isIdentifier = true) (rereads : Rereads value) :
    Rereads (.assign occurrence value) := by
  refine rereads_assigned (rereads_var named) rereads
    (show Level.disjunction ≤ Level.primary by decide) rfl rfl ?_
  intro equals one other tail goal alike same goes
  unfold Expr.Alike at alike same
  cases one with
  | var found =>
      refine fun id => goes _ ?_
      have name : found.relabel .forgetIds = occurrence.relabel .forgetIds := Expr.var.inj alike
      simp only [Expr.Alike, Expr.relabel, same, ← name]
      rfl
  | _ => cases alike

theorem rereads_set {object value : Expr} {name : Token} (named : name.isIdentifier = true)
    (tight : .call ≤ object.level) (levelled : object.Levelled) (first : Rereads object)
    (second : Rereads value) : Rereads (.set object name value) := by
  refine rereads_assigned (rereads_get named tight levelled first) second
    (show Level.disjunction ≤ Level.call by decide) rfl ?_ ?_
  · simp [Expr.flatten]
  · intro equals one other tail goal alike same goes
    unfold Expr.Alike at alike same
    cases one with
    | get found property =>
        refine goes _ ?_
        simp_all [Expr.Alike, Expr.relabel]
    | _ => cases alike

mutual

/-- **A levelled tree is read back.** -/
theorem rereads : ∀ found : Expr, found.Levelled → Rereads found
  | .literal value, _ => rereads_literal value
  | .unary _ operand, ⟨operates, tight, levelled⟩ =>
    rereads_unary operates tight (rereads operand levelled)
  | .binary left operator right, levelled => by
      obtain ⟨tier, operates, same⟩ := Tier.exists_binary levelled.1
      have first := rereads left levelled.2.2.2.1
      have second := rereads right levelled.2.2.2.2
      rw [← same left right] at levelled ⊢
      exact rereads_node operates levelled first second
  | .logical left operator right, levelled => by
      obtain ⟨tier, operates, same⟩ := Tier.exists_logical levelled.1
      have first := rereads left levelled.2.2.2.1
      have second := rereads right levelled.2.2.2.2
      rw [← same left right] at levelled ⊢
      exact rereads_node operates levelled first second
  | .grouping inner, levelled => rereads_grouping levelled (rereads inner levelled)
  | .var _, named => rereads_var named
  | .assign _ value, ⟨named, levelled⟩ => rereads_assign named (rereads value levelled)
  | .call callee _ arguments, levelled =>
    rereads_call levelled (rereads callee levelled.2.2.2.1)
      (rereadsAll arguments levelled.2.2.2.2)
  | .get object _, ⟨named, tight, levelled⟩ =>
    rereads_get named tight levelled (rereads object levelled)
  | .set object _ value, ⟨named, tight, levelled, inner⟩ =>
    rereads_set named tight levelled (rereads object levelled) (rereads value inner)
  | .thisRef _, word => rereads_this word
  | .superRef _ _, ⟨word, named⟩ => rereads_super word named

theorem rereadsAll : ∀ arguments : List Expr, Expr.AllLevelled arguments →
    ∀ found ∈ arguments, Rereads found
  | [], _ => nofun
  | first :: rest, ⟨levelled, others⟩ =>
    List.forall_mem_cons.mpr ⟨rereads first levelled, rereadsAll rest others⟩

end

end Reader

/-! ## Token lists -/

namespace Grammar

theorem writes_of_singleExpression {stream : TokenStream} {tree : Expr}
    (accepted : singleExpression stream = .ok tree) : Writes .assignment stream.tokens tree :=
  holds_of_singleExpression (fun fuel => yields_toEnd (writes_rule fuel .expression)) accepted

theorem singleExpression_flatten {stream : TokenStream} {tree : Expr} (levelled : tree.Levelled)
    (tokens : stream.tokens = tree.flatten) :
    ∃ read, singleExpression stream = .ok read ∧ tree.Alike read := by
  refine singleExpression_of_succeeds (succeeds_expressionToEnd (fun goal goes => ?_) _)
  rw [tokens, ← List.append_nil tree.flatten]
  exact (rereads tree levelled).whole (fun _ member => by cases member) goes

end Grammar

/-- **Reading and flattening are inverse to each other.** If a token list is read
as an expression, then the tree flattens to the tokens in front of the end, in
kind, in the value of literals and in the spelling of names, and it is levelled.
And the tokens of every levelled tree are read back as that tree, up to the
numbers of its nodes. So operators have their precedence and group to their
side. -/
theorem flatten_reads_back :
    (∀ (tokens : List Token) (tree : Expr),
      Grammar.singleExpression (.ofTokens tokens) = .ok tree →
        tree.flatten.map Token.meaning =
          (tokens.takeWhile fun token => !token.isEnd).map Token.meaning ∧ tree.Levelled) ∧
    (∀ tree : Expr, tree.Levelled → ∀ marker : Token, marker.isEnd = true →
      ∃ read, Grammar.singleExpression (.ofTokens (tree.flatten ++ [marker])) = .ok read ∧
        tree.Alike read) := by
  refine ⟨fun tokens tree accepted => ?_, fun tree levelled marker last => ?_⟩
  · have writes := Grammar.writes_of_singleExpression accepted
    exact ⟨writes.tokens, writes.levelled⟩
  · exact Grammar.singleExpression_flatten levelled
      (tokens_ofTokens (Expr.notEnd_flatten tree levelled) last)

/-- The tree of `a.b = -c + d * e(f, g = 1) + (h or nil)`. -/
def layeredTree : Expr :=
  let name (text : String) : Token := ⟨.identifier, text, 1⟩
  let var (text : String) : Expr := .var ⟨0, name text⟩
  let product := Expr.binary (var "d") Punct.star.token
    (.call (var "e") Punct.rightParen.token
      [var "f", .assign ⟨0, name "g"⟩ (.literal (.number 1))])
  let group := Expr.grouping (.logical (var "h") ⟨.keyword .kwOr, "or", 1⟩ (.literal .nil))
  .set (var "a") (name "b") (.binary (.binary (.unary Punct.minus.token (var "c"))
    Punct.plus.token product) Punct.plus.token group)

/-- A tree of all levels is read back. -/
theorem layeredTree_reads_back : layeredTree.Levelled ∧
    ∃ read, Grammar.singleExpression (.ofTokens (layeredTree.flatten ++ [endMarker])) = .ok read ∧
      layeredTree.Alike read := by
  have levelled : layeredTree.Levelled := by
    simp only [layeredTree, Expr.Levelled, Expr.AllLevelled]
    decide
  exact ⟨levelled, flatten_reads_back.2 layeredTree levelled endMarker rfl⟩

end LoxLang
