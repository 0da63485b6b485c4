import LoxLang.Proofs.Grammar.Yielding
import LoxLang.Proofs.Tree.Flatten

/-!
# What is read is written back

An expression that is read without errors flattens to the tokens that were used,
it is levelled, and the tokens it keeps are among those, in their order
(`Reader.writes_rule`). The rules that go on with a left
part rebuild it, so for them the statement is about that part as well: whatever
tokens it flattens to, the result flattens to those and the tokens used behind
them.
-/

namespace LoxLang

set_option autoImplicit false

/-! ## Tokens that a tree does not keep -/

theorem Token.meaning_of_isPunct {token : Token} {mark : Punct}
    (passes : token.isPunct mark = true) : token.meaning = mark.token.meaning := by
  unfold isPunct at passes
  split at passes
  next found kind =>
    rw [← eq_of_beq passes]
    simp [meaning, Punct.token, isIdentifier, kind]
  · cases passes

/-! ## Steps -/

/-- An expression stands for some tokens where a level is asked for. -/
structure Writes (level : Level) (used : List Token) (found : Expr) : Prop where
  level : level ≤ found.level
  levelled : found.Levelled
  tokens : found.flatten.map Token.meaning = used.map Token.meaning
  kept : found.kept.Sublist used

/-- The same for arguments. If there is room behind a number of others, then it is
enough for all of them. -/
structure WritesAll (count : Nat) (used : List Token) (found : List Expr) : Prop where
  length : count < listLimit → count + found.length ≤ listLimit
  levelled : Expr.AllLevelled found
  tokens : (Expr.flattenAll found).map Token.meaning = used.map Token.meaning
  kept : (Expr.keptAll found).Sublist used

theorem Writes.loosen {tight loose : Level} {used : List Token} {found : Expr}
    (writes : Writes tight used found) (le : loose ≤ tight) : Writes loose used found :=
  ⟨Nat.le_trans le writes.level, writes.levelled, writes.tokens, writes.kept⟩

/-- What the rules for expressions give. -/
def Rule.Writes {Part : Type} : Rule Part → List Token → Part → Prop
  | expression => LoxLang.Writes .assignment
  | operand tier => LoxLang.Writes (Tier.level tier)
  | operandTail tier left => fun back found =>
    ∀ front, LoxLang.Writes (Tier.level (some tier)) front left →
      LoxLang.Writes (Tier.level (some tier)) (front ++ back) found
  | unary => LoxLang.Writes .unary
  | callTail callee => fun back found =>
    ∀ front, LoxLang.Writes .call front callee → LoxLang.Writes .call (front ++ back) found
  | arguments count => fun used found =>
    count < listLimit ∧ found ≠ [] ∧ WritesAll count used found
  | primary => LoxLang.Writes .primary
  | _ => fun _ _ => True

theorem Tier.kept_node (tier : Tier) (left : Expr) (operator : Token) (right : Expr) :
    (tier.node left operator right).kept = left.kept ++ operator :: right.kept := by
  cases tier <;> rfl

/-- One more operator and operand of a tier. -/
theorem writes_node {tier : Tier} {front back : List Token} {left right : Expr} {operator : Token}
    (operates : tier.isOperator operator = true) (one : Writes (Tier.level (some tier)) front left)
    (other : Writes (Tier.level tier.tighter?) back right) :
    Writes (Tier.level (some tier)) (front ++ operator :: back)
      (tier.node left operator right) := by
  refine ⟨Nat.le_of_eq (by rw [Tier.level_node operates]), ?_, ?_, ?_⟩
  · exact (Tier.levelled_node operates left right).mpr
      ⟨one.level, other.level, one.levelled, other.levelled⟩
  · simp [Tier.flatten_node, one.tokens, other.tokens]
  · rw [Tier.kept_node]
    exact one.kept.append (other.kept.cons_cons _)

/-- A name or a property with a value behind it is an assignment. -/
theorem yields_assignment {target value : Expr} {equals : Token} {front used : List Token}
    (equal : equals.isPunct .equal = true) (place : Writes .disjunction front target)
    (assigned : Writes .assignment used value) :
    (Plan.assignment target equals value).Yields Rule.Writes (front ++ [equals] ++ used)
      (Writes .assignment) := by
  have sign := Token.meaning_of_isPunct equal
  rw [List.append_assoc, List.singleton_append]
  cases target with
  | var occurrence =>
      refine fun id => ⟨Nat.zero_le _, ⟨place.levelled, assigned.levelled⟩, ?_, ?_⟩
      · rw [List.map_append, List.map_cons, ← place.tokens, ← assigned.tokens, sign]
        rfl
      · exact place.kept.append (assigned.kept.cons _)
  | get object property =>
      obtain ⟨named, tight, levelled⟩ := place.levelled
      refine ⟨Nat.zero_le _, ⟨named, tight, levelled, assigned.levelled⟩, ?_, ?_⟩
      · rw [List.map_append, List.map_cons, ← place.tokens, ← assigned.tokens, sign]
        simp [Expr.flatten]
      · rw [Expr.kept, List.append_cons]
        exact place.kept.append (assigned.kept.cons _)
  | _ => exact trivial

theorem writes_call {callee : Expr} {paren close : Token} {front used : List Token}
    {arguments : List Expr} (opens : paren.isPunct .leftParen = true)
    (closes : close.isPunct .rightParen = true) (given : WritesAll 0 used arguments)
    (writes : Writes .call front callee) :
    Writes .call (front ++ ([paren] ++ (used ++ [close]))) (.call callee close arguments) := by
  refine ⟨Nat.le_refl _, ⟨closes, writes.level, by simpa using given.length (by decide),
    writes.levelled, given.levelled⟩, ?_,
    writes.kept.append ((given.kept.append (.refl [close])).cons _)⟩
  simp [Expr.flatten, writes.tokens, given.tokens, Token.meaning_of_isPunct opens]

theorem writes_get {object : Expr} {dot name : Token} {front : List Token}
    (point : dot.isPunct .dot = true) (named : name.isIdentifier = true)
    (writes : Writes .call front object) :
    Writes .call (front ++ [dot, name]) (.get object name) := by
  refine ⟨Nat.le_refl _, ⟨named, writes.level, writes.levelled⟩, ?_,
    writes.kept.append ((List.Sublist.refl [name]).cons _)⟩
  simp [Expr.flatten, writes.tokens, Token.meaning_of_isPunct point]

/-- What a primary expression starts with. -/
theorem accepts_of_primaryHead? {token : Token} {head : Reader.PrimaryHead}
    (found : Reader.primaryHead? token = some head) :
    match head with
    | .literal value => token.meaning = value.token.meaning
    | .thisWord => token.isKeyword .kwThis = true
    | .superWord => token.isKeyword .kwSuper = true
    | .name => token.isIdentifier = true
    | .group => token.isPunct .leftParen = true := by
  unfold Reader.primaryHead? at found
  split at found <;> cases found <;>
    simp_all [Token.meaning, Literal.token, Token.isKeyword, Token.isIdentifier, Token.isPunct]

theorem Rule.writes_plan {Result : Type} (rule : Rule Result) :
    rule.plan.Yields Rule.Writes [] rule.Writes := by
  cases rule with
  | expression =>
      refine fun front target place => ⟨place.loosen (Nat.zero_le _), fun equals equal => ?_⟩
      exact fun used value assigned => yields_assignment equal place assigned
  | operand tier =>
      cases tier with
      | none => exact fun used found writes => writes
      | some tier =>
          refine fun front left writes back found goes => goes front (writes.loosen ?_)
          exact Nat.le_of_lt (Nat.lt_of_succ_le (Nat.le_of_eq tier.rank_tighter.symm))
  | operandTail tier left =>
      refine ⟨fun front writes => by rwa [List.append_nil], fun operator operates => ?_⟩
      intro used right other back found goes front one
      have joined := goes (front ++ operator :: used) (writes_node operates one other)
      rwa [List.append_assoc] at joined
  | unary =>
      refine ⟨fun front callee writes back found goes => ?_, fun operator operates => ?_⟩
      · exact (goes front (writes.loosen (by decide))).loosen (by decide)
      · refine fun used operand writes => ?_
        refine ⟨Nat.le_refl _, ⟨operates, writes.level, writes.levelled⟩, ?_,
          writes.kept.cons_cons _⟩
        simp [Expr.flatten, writes.tokens]
  | callTail callee =>
      refine ⟨⟨fun front writes => by rwa [List.append_nil], fun dot point name named => ?_⟩,
        fun paren opens empty => ?_⟩
      · intro back found goes front writes
        have joined := goes (front ++ [dot, name]) (writes_get point named writes)
        rwa [List.append_assoc] at joined
      · -- behind the arguments, whether there are any or not
        have closed {used : List Token} {arguments : List Expr}
            (given : WritesAll 0 used arguments) (close : Token)
            (closes : close.isPunct .rightParen = true) (back : List Token) (found : Expr)
            (goes : (Rule.callTail (.call callee close arguments)).Writes back found) :
            (Rule.callTail callee).Writes ([paren] ++ used ++ [close] ++ back) found := by
          intro front writes
          have joined := goes _ (writes_call opens closes given writes)
          simpa only [List.append_assoc] using joined
        cases empty with
        | true =>
            have none : WritesAll 0 [] [] := ⟨fun _ => by decide, trivial, rfl, .slnil⟩
            exact closed none
        | false => exact fun used arguments given => closed given.2.2
  | arguments count =>
      refine fun below used first writes => ⟨?_, fun comma separates => ?_⟩
      · refine ⟨below, List.cons_ne_nil _ _, id, ⟨writes.levelled, trivial⟩, ?_, ?_⟩
        · simpa [Expr.flattenAll, Expr.flattenMore] using writes.tokens
        · simpa [Expr.keptAll] using writes.kept
      · intro rest others ⟨less, more, behind⟩
        have room := behind.length less
        refine ⟨below, List.cons_ne_nil _ _, fun _ => by rw [List.length_cons]; omega,
          ⟨writes.levelled, behind.levelled⟩, ?_, ?_⟩
        · simp [Expr.flattenAll, Expr.flattenMore_eq more, writes.tokens, behind.tokens,
            Token.meaning_of_isPunct separates]
        · simpa [Expr.keptAll] using writes.kept.append (behind.kept.cons comma)
  | primary =>
      refine ⟨trivial, fun token head found => ?_⟩
      have accepts := accepts_of_primaryHead? found
      cases head with
      | literal value =>
          exact ⟨Nat.le_refl _, trivial, by simp [Expr.flatten, accepts], List.nil_sublist _⟩
      | thisWord | name => exact fun id => ⟨Nat.le_refl _, accepts, rfl, .refl _⟩
      | superWord =>
          refine fun dot point method named id => ⟨Nat.le_refl _, ⟨accepts, named⟩, ?_,
            ((List.Sublist.refl [method]).cons _).cons_cons _⟩
          simp [Expr.flatten, Token.meaning_of_isPunct point]
      | group =>
          refine fun used inner writes close closes => ⟨Nat.le_refl _, writes.levelled, ?_,
            (writes.kept.trans (List.sublist_append_left _ _)).cons _⟩
          simp [Expr.flatten, writes.tokens, Token.meaning_of_isPunct accepts,
            Token.meaning_of_isPunct closes]
  | statement | declaration =>
      exact ⟨by simp [Rule.Writes], fun token head _ => by cases head <;> simp [Rule.Writes]⟩
  | _ => simp [Rule.Writes]

namespace Reader

theorem writes_rule : ∀ (fuel : Nat) {Result : Type} (rule : Rule Result),
    Yields (rule.read fuel) rule.Writes
  | 0, _, rule => by
      rw [rule.read_zero]
      exact fun _ _ _ reading => by cases reading
  | fuel + 1, _, rule => by
      rw [rule.read_succ]
      exact yields_plan (writes_rule fuel) rule.plan rule.writes_plan

/-- What the rule for expressions yields is yielded by an expression that fills the
input. -/
theorem yields_toEnd {holds : List Token → Expr → Prop} {fuel : Nat}
    (yields : Yields (expression fuel) holds) : Yields (expressionToEnd fuel) holds := by
  intro start result after reading quiet
  obtain ⟨found, middle, one, reading⟩ := exists_of_bind reading
  obtain ⟨ended, same, looked, reading⟩ := exists_of_bind reading
  cases looked
  split at reading <;> cases reading
  exact yields start result _ one quiet

end Reader

end LoxLang
