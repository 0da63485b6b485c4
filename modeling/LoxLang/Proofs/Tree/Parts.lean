import LoxLang.Tree.Uses

/-!
# The parts of a statement

Three listings of what stands in a statement. The statements inside of it are
listed at any depth, those in the bodies of functions and methods included
(`Stmt.inside`). The returns are listed that end the function around the
statement, so those in a function of its own are left out (`Stmt.returns`). And
the uses of names are listed that belong to the class around the statement, so
those in the methods of a class of its own are left out (`Stmt.ownUses`); each is
listed with its depth, the number of blocks and functions around it.
-/

namespace LoxLang

set_option autoImplicit false

mutual

/-- The statements inside of a statement, at any depth. -/
def Stmt.inside : Stmt → List Stmt
  | .expression _ => []
  | .print _ => []
  | .var _ _ => []
  | .block body => Stmt.withinAll body
  | .cond _ thenBranch none => thenBranch :: thenBranch.inside
  | .cond _ thenBranch (some elseBranch) =>
    thenBranch :: thenBranch.inside ++ elseBranch :: elseBranch.inside
  | .loop _ body => body :: body.inside
  | .function declaration => declaration.inside
  | .ret _ _ => []
  | .classDecl _ _ methods => FunctionDecl.insideAll methods

/-- The statements of a list, and those inside of them. -/
def Stmt.withinAll : List Stmt → List Stmt
  | [] => []
  | first :: rest => first :: first.inside ++ Stmt.withinAll rest

/-- The statements in the body of a function. -/
def FunctionDecl.inside : FunctionDecl → List Stmt
  | ⟨_, _, _, body⟩ => Stmt.withinAll body

/-- The statements in the bodies of functions. -/
def FunctionDecl.insideAll : List FunctionDecl → List Stmt
  | [] => []
  | first :: rest => first.inside ++ FunctionDecl.insideAll rest

end

/-- A `return`: its first word and its value, if there is one. -/
structure Return where
  keyword : Token
  value : Option Expr

mutual

/-- The returns in a statement that end the function around it. -/
def Stmt.returns : Stmt → List Return
  | .expression _ => []
  | .print _ => []
  | .var _ _ => []
  | .block body => Stmt.returnsAll body
  | .cond _ thenBranch none => thenBranch.returns
  | .cond _ thenBranch (some elseBranch) => thenBranch.returns ++ elseBranch.returns
  | .loop _ body => body.returns
  | .function _ => []
  | .ret keyword value => [⟨keyword, value⟩]
  | .classDecl _ _ _ => []

/-- The same for a list of statements. -/
def Stmt.returnsAll : List Stmt → List Return
  | [] => []
  | first :: rest => first.returns ++ Stmt.returnsAll rest

end

/-- A use of a name, and the number of blocks and functions around it. -/
structure PlacedUse where
  depth : Nat
  use : Use
  deriving DecidableEq

/-- Uses that all stand at one depth. -/
def Use.allAt (depth : Nat) (uses : List Use) : List PlacedUse := uses.map fun use => ⟨depth, use⟩

@[simp] theorem Use.map_use_allAt (depth : Nat) (uses : List Use) :
    (Use.allAt depth uses).map PlacedUse.use = uses := by
  rw [Use.allAt, List.map_map]
  exact List.map_id uses

mutual

/-- The uses of names in a statement at a depth, apart from those in the methods
of a class that it declares. -/
def Stmt.ownUses (depth : Nat) : Stmt → List PlacedUse
  | .expression found => Use.allAt depth found.uses
  | .print found => Use.allAt depth found.uses
  | .var _ initializer => Use.allAt depth (Expr.usesOption initializer)
  | .block body => Stmt.ownUsesAll (depth + 1) body
  | .cond condition thenBranch none => Use.allAt depth condition.uses ++ thenBranch.ownUses depth
  | .cond condition thenBranch (some elseBranch) =>
    Use.allAt depth condition.uses ++ (thenBranch.ownUses depth ++ elseBranch.ownUses depth)
  | .loop condition body => Use.allAt depth condition.uses ++ body.ownUses depth
  | .function declaration => declaration.ownUses depth
  | .ret _ value => Use.allAt depth (Expr.usesOption value)
  | .classDecl _ superclass _ => Use.allAt depth (Expr.usesOption superclass)

/-- The same for a list of statements. -/
def Stmt.ownUsesAll (depth : Nat) : List Stmt → List PlacedUse
  | [] => []
  | first :: rest => first.ownUses depth ++ Stmt.ownUsesAll depth rest

/-- The same for the body of a function that stands at a depth. -/
def FunctionDecl.ownUses (depth : Nat) : FunctionDecl → List PlacedUse
  | ⟨_, _, _, body⟩ => Stmt.ownUsesAll (depth + 1) body

end

/-! ## Uses seen from further out -/

/-- The same use with one more block or function around it. -/
def PlacedUse.deeper (found : PlacedUse) : PlacedUse := ⟨found.depth + 1, found.use⟩

theorem Use.allAt_succ (depth : Nat) (uses : List Use) :
    Use.allAt (depth + 1) uses = (Use.allAt depth uses).map PlacedUse.deeper := by
  rw [Use.allAt, Use.allAt, List.map_map]
  rfl

mutual

theorem Stmt.ownUses_succ (depth : Nat) : ∀ found : Stmt,
    found.ownUses (depth + 1) = (found.ownUses depth).map PlacedUse.deeper
  | .expression _ | .print _ | .var _ _ | .ret _ _ | .classDecl _ _ _ => Use.allAt_succ depth _
  | .block body => Stmt.ownUsesAll_succ (depth + 1) body
  | .cond _ body none | .loop _ body => by
      rw [Stmt.ownUses, Stmt.ownUses, List.map_append, Use.allAt_succ, body.ownUses_succ]
  | .cond _ thenBranch (some elseBranch) => by
      rw [Stmt.ownUses, Stmt.ownUses, List.map_append, List.map_append, Use.allAt_succ,
        thenBranch.ownUses_succ, elseBranch.ownUses_succ]
  | .function declaration => declaration.ownUses_succ depth

theorem Stmt.ownUsesAll_succ (depth : Nat) : ∀ found : List Stmt,
    Stmt.ownUsesAll (depth + 1) found = (Stmt.ownUsesAll depth found).map PlacedUse.deeper
  | [] => rfl
  | first :: rest => by
      rw [Stmt.ownUsesAll, Stmt.ownUsesAll, List.map_append, first.ownUses_succ,
        Stmt.ownUsesAll_succ depth rest]

theorem FunctionDecl.ownUses_succ (depth : Nat) : ∀ found : FunctionDecl,
    found.ownUses (depth + 1) = (found.ownUses depth).map PlacedUse.deeper
  | ⟨_, _, _, body⟩ => Stmt.ownUsesAll_succ (depth + 1) body

end

/-- Seen from outside of a function, the uses in its body are one deeper. -/
theorem FunctionDecl.ownUses_eq_map (depth : Nat) (found : FunctionDecl) :
    found.ownUses depth = (Stmt.ownUsesAll depth found.body).map PlacedUse.deeper := by
  cases found
  exact Stmt.ownUsesAll_succ depth _

end LoxLang
