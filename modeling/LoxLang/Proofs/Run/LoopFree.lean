import LoxLang.Proofs.Run.StoredValues

/-!
# Programs without loops

A statement is free of loops if there is none in it, not even in the body of a
function or method that it declares. The values of a run are free of loops if
the functions are that can be had from them, and a store is if all its values
are (`Store.LoopFree`). A run takes the bodies it executes from its store, so
this is what keeps loops away from a run that was started without one.
-/

namespace LoxLang

set_option autoImplicit false

/-! ## Trees -/

mutual

/-- There is no loop in a statement. -/
def Stmt.isLoopFree : Stmt → Bool
  | .expression _ => true
  | .print _ => true
  | .var _ _ => true
  | .block body => Stmt.allLoopFree body
  | .cond _ thenBranch none => thenBranch.isLoopFree
  | .cond _ thenBranch (some elseBranch) => thenBranch.isLoopFree && elseBranch.isLoopFree
  | .loop _ _ => false
  | .function declaration => declaration.isLoopFree
  | .ret _ _ => true
  | .classDecl _ _ methods => FunctionDecl.allLoopFree methods

/-- There is no loop in a list of statements. -/
def Stmt.allLoopFree : List Stmt → Bool
  | [] => true
  | first :: rest => first.isLoopFree && Stmt.allLoopFree rest

/-- There is no loop in the body of a function. -/
def FunctionDecl.isLoopFree : FunctionDecl → Bool
  | ⟨_, _, _, body⟩ => Stmt.allLoopFree body

/-- There is no loop in a list of functions. -/
def FunctionDecl.allLoopFree : List FunctionDecl → Bool
  | [] => true
  | first :: rest => first.isLoopFree && FunctionDecl.allLoopFree rest

end

theorem FunctionDecl.isLoopFree_of_mem {declaration : FunctionDecl} :
    ∀ {declarations : List FunctionDecl}, FunctionDecl.allLoopFree declarations = true →
      declaration ∈ declarations → declaration.isLoopFree = true
  | _ :: _, free, member => by
      obtain ⟨one, many⟩ := Bool.and_eq_true_iff.mp free
      rcases List.mem_cons.mp member with rfl | later
      · exact one
      · exact FunctionDecl.isLoopFree_of_mem many later

/-! ## Values -/

/-- There is no loop in the body of a function. -/
def Closure.LoopFree (closure : Closure) : Prop := closure.declaration.isLoopFree = true

/-- There is no loop in the methods that a class has or inherits. -/
abbrev Class.LoopFree (cls : Class) : Prop := cls.Every Closure.LoopFree

/-- There is no loop in the functions that can be had from a value. -/
def Value.LoopFree : Value → Prop
  | .function closure => closure.LoopFree
  | .cls found => found.LoopFree
  | .object found => found.cls.LoopFree
  | _ => True

/-- The same for something to call. -/
def Callable.LoopFree : Callable → Prop
  | .native _ => True
  | .function closure => closure.LoopFree
  | .cls found => found.LoopFree

/-- The same for the value of a `return`. -/
def Flow.LoopFree : Flow → Prop
  | .normal => True
  | .returned value => value.LoopFree

/-- The same for every value of a list. -/
def Value.AllLoopFree (values : List Value) : Prop := ∀ value ∈ values, value.LoopFree

theorem Value.LoopFree.callable {value : Value} (free : value.LoopFree) {callable : Callable}
    (found : value.callable? = some callable) : callable.LoopFree := by
  cases value <;> cases found <;> exact free

theorem Value.IsPlain.loopFree {value : Value} (plain : value.IsPlain) : value.LoopFree := by
  cases value <;> trivial

/-- There is no loop in the functions that can be had from a store. -/
abbrev Store.LoopFree (store : Store) : Prop := store.Every Value.LoopFree

end LoxLang
