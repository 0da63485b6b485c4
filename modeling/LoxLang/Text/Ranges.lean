/-!
# Ranges of code points

A set of characters as a list of closed ranges in increasing order. Looking a
code point up stops at the first range that begins beyond it.
-/

namespace LoxLang.Text

set_option autoImplicit false

/-- Closed ranges of code points, each with its first and its last member. -/
abbrev Ranges := List (Nat × Nat)

namespace Ranges

/-- Whether a code point is in one of the ranges, which are in increasing order. -/
def contains : Ranges → Nat → Bool
  | [], _ => false
  | (first, last) :: rest, code =>
    if code < first then false
    else if code ≤ last then true
    else contains rest code

end Ranges

end LoxLang.Text
