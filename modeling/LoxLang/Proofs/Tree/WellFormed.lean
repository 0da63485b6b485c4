import LoxLang.Grammar.Expression

/-!
# Well-formed trees

Trees may hold any token anywhere. Those that are read from tokens follow some
rules that a run relies on: operators stand where they mean something, names
are never spelled like `this` or `super`, a superclass is a name, and the
branches of a condition and the body of a loop are no declarations.

The nodes of a tree that was read are numbered from a range without
repetition (`Numbered`), because each number is drawn once.
-/

namespace LoxLang

set_option autoImplicit false

/-- A token is spelled as its kind says: a reserved word by its own letters,
and a name by none of theirs. -/
def Token.Spelled (token : Token) : Prop :=
  match token.kind with
  | .keyword word => token.lexeme = word.text
  | .identifier => Keyword.ofText? token.lexeme = none
  | _ => True

/-- A token that can name a variable. -/
structure Token.IsName (token : Token) : Prop where
  ne_this : token.lexeme ≠ "this"
  ne_super : token.lexeme ≠ "super"

theorem Token.isName_of_isIdentifier {token : Token} (spelled : token.Spelled)
    (identifier : token.isIdentifier = true) : token.IsName := by
  have none : Keyword.ofText? token.lexeme = none := by
    unfold Token.Spelled at spelled
    unfold Token.isIdentifier at identifier
    split at identifier
    · simpa [*] using spelled
    · simp at identifier
  constructor
  · intro same
    rw [same] at none
    exact absurd none (by decide)
  · intro same
    rw [same] at none
    exact absurd none (by decide)

theorem Token.lexeme_of_isKeyword {token : Token} {word : Keyword} (spelled : token.Spelled)
    (keyword : token.isKeyword word = true) : token.lexeme = word.text := by
  unfold Token.Spelled at spelled
  unfold Token.isKeyword at keyword
  split at keyword
  · simp_all
  · simp at keyword

/-! ## Expressions -/

namespace Expr

/-- Whether a token is an operator that joins two values. -/
def isBinaryOperator (token : Token) : Bool :=
  Tier.isOperator .equality token || Tier.isOperator .comparison token ||
    Tier.isOperator .term token || Tier.isOperator .factor token

mutual

/-- What holds of every expression that is read from tokens. -/
def WellFormed : Expr → Prop
  | literal _ => True
  | unary operator operand => Reader.isUnaryOperator operator = true ∧ operand.WellFormed
  | binary left operator right =>
    isBinaryOperator operator = true ∧ left.WellFormed ∧ right.WellFormed
  | logical left _ right => left.WellFormed ∧ right.WellFormed
  | grouping inner => inner.WellFormed
  | var occurrence => occurrence.token.IsName
  | assign occurrence value => occurrence.token.IsName ∧ value.WellFormed
  | call callee _ arguments => callee.WellFormed ∧ AllWellFormed arguments
  | get object _ => object.WellFormed
  | set object _ value => object.WellFormed ∧ value.WellFormed
  | thisRef occurrence => occurrence.name = "this"
  | superRef occurrence _ => occurrence.name = "super"

/-- The same for every expression of a list. -/
def AllWellFormed : List Expr → Prop
  | [] => True
  | first :: rest => first.WellFormed ∧ AllWellFormed rest

end

/-- The same for an expression that may be missing. -/
def OptionWellFormed : Option Expr → Prop
  | none => True
  | some found => found.WellFormed

mutual

/-- The numbers of the nodes of an expression. -/
def numbers : Expr → List Nat
  | literal _ => []
  | unary _ operand => operand.numbers
  | binary left _ right => left.numbers ++ right.numbers
  | logical left _ right => left.numbers ++ right.numbers
  | grouping inner => inner.numbers
  | var occurrence => [occurrence.id]
  | assign occurrence value => value.numbers ++ [occurrence.id]
  | call callee _ arguments => callee.numbers ++ numbersAll arguments
  | get object _ => object.numbers
  | set object _ value => object.numbers ++ value.numbers
  | thisRef occurrence => [occurrence.id]
  | superRef occurrence _ => [occurrence.id]

/-- The numbers of the nodes of a list of expressions. -/
def numbersAll : List Expr → List Nat
  | [] => []
  | first :: rest => first.numbers ++ numbersAll rest

end

/-- The numbers of the nodes of an expression that may be missing. -/
def numbersOption : Option Expr → List Nat
  | none => []
  | some found => found.numbers

end Expr

/-! ## Statements -/

/-- Whether a statement declares a name where it stands. -/
def Stmt.isDeclaration : Stmt → Bool
  | .var _ _ => true
  | .function _ => true
  | .classDecl _ _ _ => true
  | _ => false

/-- A superclass that is missing or a name. -/
def Expr.IsSuperclass : Option Expr → Prop
  | none => True
  | some (.var occurrence) => occurrence.token.IsName
  | some _ => False

mutual

/-- What holds of every statement that is read from tokens. -/
def Stmt.WellFormed : Stmt → Prop
  | .expression found => found.WellFormed
  | .print found => found.WellFormed
  | .var name initializer => name.IsName ∧ Expr.OptionWellFormed initializer
  | .block body => Stmt.AllWellFormed body
  | .cond condition thenBranch none =>
    condition.WellFormed ∧ thenBranch.WellFormed ∧ thenBranch.isDeclaration = false
  | .cond condition thenBranch (some elseBranch) =>
    condition.WellFormed ∧ (thenBranch.WellFormed ∧ thenBranch.isDeclaration = false) ∧
      elseBranch.WellFormed ∧ elseBranch.isDeclaration = false
  | .loop condition body =>
    condition.WellFormed ∧ body.WellFormed ∧ body.isDeclaration = false
  | .function declaration => declaration.WellFormed
  | .ret _ value => Expr.OptionWellFormed value
  | .classDecl name superclass methods =>
    name.IsName ∧ Expr.IsSuperclass superclass ∧ FunctionDecl.AllWellFormed methods

/-- The same for every statement of a list. -/
def Stmt.AllWellFormed : List Stmt → Prop
  | [] => True
  | first :: rest => first.WellFormed ∧ Stmt.AllWellFormed rest

/-- The same for a function. -/
def FunctionDecl.WellFormed : FunctionDecl → Prop
  | ⟨_, name, params, body⟩ =>
    name.IsName ∧ (∀ param ∈ params, param.IsName) ∧ Stmt.AllWellFormed body

/-- The same for every function of a list. -/
def FunctionDecl.AllWellFormed : List FunctionDecl → Prop
  | [] => True
  | first :: rest => first.WellFormed ∧ FunctionDecl.AllWellFormed rest

end

theorem FunctionDecl.wellFormed_of_mem {method : FunctionDecl} : ∀ {methods : List FunctionDecl},
    FunctionDecl.AllWellFormed methods → method ∈ methods → method.WellFormed
  | [], _, member => nomatch member
  | _ :: _, ⟨one, many⟩, member => by
      rcases List.mem_cons.mp member with rfl | later
      · exact one
      · exact FunctionDecl.wellFormed_of_mem many later

mutual

/-- The numbers of the nodes of a statement. -/
def Stmt.numbers : Stmt → List Nat
  | .expression found => found.numbers
  | .print found => found.numbers
  | .var _ initializer => Expr.numbersOption initializer
  | .block body => Stmt.numbersAll body
  | .cond condition thenBranch none => condition.numbers ++ thenBranch.numbers
  | .cond condition thenBranch (some elseBranch) =>
    condition.numbers ++ (thenBranch.numbers ++ elseBranch.numbers)
  | .loop condition body => condition.numbers ++ body.numbers
  | .function declaration => declaration.numbers
  | .ret _ value => Expr.numbersOption value
  | .classDecl _ superclass methods =>
    Expr.numbersOption superclass ++ FunctionDecl.numbersAll methods

/-- The numbers of the nodes of a list of statements. -/
def Stmt.numbersAll : List Stmt → List Nat
  | [] => []
  | first :: rest => first.numbers ++ Stmt.numbersAll rest

/-- The numbers of the nodes of a function, its own last. -/
def FunctionDecl.numbers : FunctionDecl → List Nat
  | ⟨id, _, _, body⟩ => Stmt.numbersAll body ++ [id]

/-- The numbers of the nodes of a list of functions. -/
def FunctionDecl.numbersAll : List FunctionDecl → List Nat
  | [] => []
  | first :: rest => first.numbers ++ FunctionDecl.numbersAll rest

end

/-! ## Numbering -/

/-- Numbers drawn from a range without repetition. -/
structure Numbered (numbers : List Nat) (first next : Nat) : Prop where
  le : first ≤ next
  range : ∀ number ∈ numbers, first ≤ number ∧ number < next
  nodup : numbers.Nodup

namespace Numbered

variable {front back : List Nat} {first middle next : Nat}

theorem nil (first : Nat) : Numbered [] first first :=
  ⟨Nat.le_refl _, by simp, List.nodup_nil⟩

theorem append (earlier : Numbered front first middle) (later : Numbered back middle next) :
    Numbered (front ++ back) first next where
  le := Nat.le_trans earlier.le later.le
  range number member := by
    rcases List.mem_append.mp member with early | late
    · exact ⟨(earlier.range number early).1,
        Nat.lt_of_lt_of_le (earlier.range number early).2 later.le⟩
    · exact ⟨Nat.le_trans earlier.le (later.range number late).1, (later.range number late).2⟩
  nodup := by
    refine List.nodup_append.mpr ⟨earlier.nodup, later.nodup, ?_⟩
    intro number early other late same
    have below := (earlier.range number early).2
    have above := (later.range other late).1
    omega

theorem swap (numbered : Numbered (front ++ back) first next) :
    Numbered (back ++ front) first next where
  le := numbered.le
  range number member := numbered.range number (by
    rcases List.mem_append.mp member with late | early
    · exact List.mem_append.mpr (.inr late)
    · exact List.mem_append.mpr (.inl early))
  nodup := (List.perm_append_comm.nodup_iff).mp numbered.nodup

end Numbered

end LoxLang
