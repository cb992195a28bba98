import CambridgePolish.Error
import CambridgePolish.Value

/-!
# What the operators do

Integers are added, subtracted, multiplied and divided exactly, over the unbounded integers, and the
result must then be a 64-bit integer; division drops the fraction. Doubles follow IEEE 754 and
always give a double. The two sorts of numbers never mix.
-/

namespace CambridgePolish

/-- The 64-bit integer of a given value, if there is one. -/
def fit? (n : Int) : Option Int64 :=
  if Int64.minValue.toInt ≤ n ∧ n ≤ Int64.maxValue.toInt then some (Int64.ofInt n) else none

namespace Operator

/-- The operation on the unbounded integers; a quotient is rounded toward zero. -/
def onIntegers : Operator → Int → Int → Int
  | .add, a, b => a + b
  | .sub, a, b => a - b
  | .mul, a, b => a * b
  | .div, a, b => a.tdiv b

/-- The operation on doubles. -/
def onReals : Operator → Binary64 → Binary64 → Binary64
  | .add, x, y => x + y
  | .sub, x, y => x - y
  | .mul, x, y => x * y
  | .div, x, y => x / y

/-- **The operation on two values**; errors call the operator `name`. -/
def combine (o : Operator) (name : String) : Value → Value → Except EvalError Value
  | .int a, .int b =>
    if o = .div ∧ b = 0 then .error (.divisionByZero name)
    else
      match fit? (o.onIntegers a.toInt b.toInt) with
      | some c => .ok (.int c)
      | none => .error (.overflow name)
  | .real x, .real y => .ok (.real (o.onReals x y))
  | left, right => .error (.mismatch name left.kind right.kind)

/-- **A call** of the operator on its operands. -/
def call (o : Operator) : List Value → Except EvalError Value
  | [left, right] => o.combine o.symbol left right
  | operands => .error (.arity o.symbol arity operands.length)

end Operator

end CambridgePolish
