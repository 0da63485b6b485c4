import LoxLang.Diagnostic
import LoxLang.Run.Value

/-!
# Operators

What the operators make of values. A tree may hold any token as an operator;
one that means nothing is a fault. For binary operators that fault comes after
the check that both operands are numbers.
-/

namespace LoxLang.Operator

set_option autoImplicit false

/-- The result of a unary operator. -/
def unary (operator : Token) (operand : Value) : Except RuntimeCause Value :=
  match operator.kind with
  | .punct .minus => match operand with
    | .number value => .ok (.number (-value))
    | _ => .error .operandNotNumber
  | .punct .bang => .ok (.bool (!operand.isTruthy))
  | _ => .error .invalidUnaryOperator

/-- The result of an operator on two numbers. -/
def arithmetic (operator : Token) (left right : Float) : Except RuntimeCause Value :=
  match operator.kind with
  | .punct .minus => .ok (.number (left - right))
  | .punct .star => .ok (.number (left * right))
  | .punct .slash => .ok (.number (left / right))
  | .punct .greater => .ok (.bool (decide (right < left)))
  | .punct .greaterEqual => .ok (.bool (decide (right ≤ left)))
  | .punct .less => .ok (.bool (decide (left < right)))
  | .punct .lessEqual => .ok (.bool (decide (left ≤ right)))
  | _ => .error .invalidBinaryOperator

/-- The sum of two numbers, or two strings put together. -/
def sum : Value → Value → Except RuntimeCause Value
  | .number left, .number right => .ok (.number (left + right))
  | .string left, .string right => .ok (.string (left ++ right))
  | _, _ => .error .operandsNotAddable

/-- The result of a binary operator. -/
def binary (operator : Token) (left right : Value) : Except RuntimeCause Value :=
  match operator.kind with
  | .punct .plus => sum left right
  | .punct .equalEqual => .ok (.bool (left.same right))
  | .punct .bangEqual => .ok (.bool (!left.same right))
  | _ => match left, right with
    | .number first, .number second => arithmetic operator first second
    | _, _ => .error .operandsNotNumbers

/-- Whether a logical operator is settled by its left operand. The word `or` is
settled by a true one, any other token by a false one. -/
def settles (operator : Token) (left : Value) : Bool :=
  if operator.isKeyword .kwOr then left.isTruthy else !left.isTruthy

end LoxLang.Operator
