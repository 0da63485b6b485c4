import LoxLang.Bindings
import LoxLang.Number.Text
import LoxLang.Text.Quoted
import LoxLang.Tree.Basic

/-!
# Values

The values of a run. Scalars are compared by what they are. Classes and
instances have an identity of their own. A function is the declaration it was
made from together with the environment it closes over, and two functions are
the same when both of these are.

Values never hold other values: what an environment or an instance holds is
kept in the store, so every value is a finite piece of data.
-/

namespace LoxLang

set_option autoImplicit false

/-- An environment, by the number of its innermost frame in the store. The
frames around it are found there. -/
abbrev Env := Nat

/-- The environment of the global frame alone. -/
def Env.global : Env := 0

/-- A function: a declaration and the environment around it. The call of an
initializer gives back the instance it is bound to. -/
structure Closure where
  declaration : FunctionDecl
  env : Env
  isInitializer : Bool

namespace Closure

/-- The name that the function was declared with. -/
def name (closure : Closure) : String := closure.declaration.name.lexeme

/-- The number of arguments that the function takes. -/
def arity (closure : Closure) : Nat := closure.declaration.params.length

/-- Whether two functions come from one declaration in one environment. -/
def same (left right : Closure) : Bool :=
  left.declaration.id == right.declaration.id && left.env == right.env

end Closure

/-- The methods that a class declares itself. -/
abbrev MethodTable := Bindings Closure

/-- A class: its identity, its name, and the method tables in which a method is
looked for, its own first and then those of its ancestors. -/
structure Class where
  id : Nat
  name : String
  tables : List MethodTable

namespace Class

/-- The method with a name, its own or the nearest inherited one. -/
def findMethod? (cls : Class) (name : String) : Option Closure :=
  cls.tables.findSome? fun table => table.find? name

/-- The number of arguments that making an instance takes. -/
def arity (cls : Class) : Nat :=
  match cls.findMethod? initializerName with
  | some closure => closure.arity
  | none => 0

end Class

/-- An instance: its identity and its class. Its fields are in the store. -/
structure Instance where
  id : Nat
  cls : Class

/-- The functions that are built in. -/
inductive Native where
  | clock
  deriving DecidableEq, Repr

/-- The number of arguments that a built-in function takes. -/
def Native.arity : Native → Nat
  | .clock => 0

/-- A value. -/
inductive Value where
  | nil
  | bool (value : Bool)
  | number (value : Float)
  | string (value : String)
  | native (value : Native)
  | function (value : Closure)
  | cls (value : Class)
  | object (value : Instance)

/-- A value that can be called. -/
inductive Callable where
  | native (value : Native)
  | function (value : Closure)
  | cls (value : Class)

/-- The number of arguments that a call takes. -/
def Callable.arity : Callable → Nat
  | .native value => value.arity
  | .function value => value.arity
  | .cls value => value.arity

namespace Value

/-- The value of a literal. -/
def ofLiteral : Literal → Value
  | .nil => nil
  | .bool value => bool value
  | .number value => number value
  | .string value => string value

/-- Every value but `nil` and `false` counts as true. -/
def isTruthy : Value → Bool
  | nil => false
  | bool value => value
  | _ => true

/-- Equality of the language. Values of different sorts are never equal, and a
number that is not one differs from itself. -/
def same : Value → Value → Bool
  | nil, nil => true
  | bool left, bool right => left == right
  | number left, number right => left == right
  | string left, string right => left == right
  | native left, native right => left == right
  | function left, function right => left.same right
  | cls left, cls right => left.id == right.id
  | object left, object right => left.id == right.id
  | _, _ => false

/-- The value as something to call. -/
def callable? : Value → Option Callable
  | native value => some (.native value)
  | function value => some (.function value)
  | cls value => some (.cls value)
  | _ => none

/-- The text that `print` writes. -/
def text : Value → String
  | nil => "nil"
  | bool true => "true"
  | bool false => "false"
  | number value => Number.text Number.printedStyle value
  | string value => value
  | native _ => "<native fn>"
  | function value => "<fn " ++ value.name ++ ">"
  | cls value => value.name
  | object value => value.cls.name ++ " instance"

/-- The text of the value with strings in quotes. -/
def shown : Value → String
  | string value => Text.Quoted.quote Text.Quoted.shownEscape value
  | other => other.text

end Value

end LoxLang
