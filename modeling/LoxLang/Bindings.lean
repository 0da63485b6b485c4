/-!
# Bindings of names

A finite map from names to values, as a list in the order in which the names
were first bound. Binding a name again replaces its value in place, so a name
occurs at most once in a map that was built by `insert`.
-/

namespace LoxLang

set_option autoImplicit false

/-- A finite map from names. -/
abbrev Bindings (Bound : Type) := List (String × Bound)

namespace Bindings

variable {Bound : Type}

/-- The value bound to a name. -/
def find? (name : String) : Bindings Bound → Option Bound
  | [] => none
  | (other, value) :: rest => if other == name then some value else find? name rest

/-- Whether a name is bound. -/
def contains (name : String) (bindings : Bindings Bound) : Bool := (bindings.find? name).isSome

/-- Binds a name, in place of its earlier value if there is one. -/
def insert (name : String) (value : Bound) : Bindings Bound → Bindings Bound
  | [] => [(name, value)]
  | (other, earlier) :: rest =>
    if other == name then (name, value) :: rest else (other, earlier) :: insert name value rest

@[simp] theorem find?_nil (name : String) : find? name ([] : Bindings Bound) = none := rfl

/-- A name just bound has the value it was bound to. -/
@[simp] theorem find?_insert_self (name : String) (value : Bound) (bindings : Bindings Bound) :
    (bindings.insert name value).find? name = some value := by
  induction bindings with
  | nil => simp [insert, find?]
  | cons entry rest ih =>
    by_cases same : entry.1 = name
    · simp [insert, find?, same]
    · simp [insert, find?, same, ih]

/-- Binding a name does not touch the others. -/
theorem find?_insert_of_ne {name other : String} (distinct : other ≠ name) (value : Bound)
    (bindings : Bindings Bound) :
    (bindings.insert name value).find? other = bindings.find? other := by
  induction bindings with
  | nil => simp [insert, find?, distinct.symm]
  | cons entry rest ih =>
    by_cases same : entry.1 = name
    · subst same
      simp [insert, find?, distinct.symm]
    · by_cases found : entry.1 = other
      · subst found
        simp [insert, find?, distinct]
      · simp [insert, find?, same, found, ih]

end Bindings

end LoxLang
