import CambridgePolish.Operator
import CambridgePolish.Traced

/-!
# Evaluation

An atom is its own value. A call evaluates its operands from left to right and then calls its
operator on their values; every operand is evaluated, once, before the call. The first failure ends
the evaluation and comes out wrapped once for every call around it. A call that is nested too
deeply fails before any of its operands is looked at.
-/

namespace CambridgePolish.Expr

mutual

/-- The value of an expression that stands at the given depth, counted from one. -/
def evalAt (limit depth : Nat) : Expr → Traced EvalError Value
  | .atom v => pure v
  | .call o es =>
    if depth ≤ limit then do
      let values ← evalOperands limit depth o 1 es
      Traced.log (.applying o values depth)
      Traced.ofExcept (o.call values)
    else Traced.fail (.tooDeep limit)

/-- The values of the operands, from the given position on, of a call of `o` at the given depth. -/
def evalOperands (limit depth : Nat) (o : Operator) (position : Nat) :
    List Expr → Traced EvalError (List Value)
  | [] => pure []
  | e :: es => do
    let v ← (evalAt limit (depth + 1) e).mapError (.operand o.symbol position)
    (v :: ·) <$> evalOperands limit depth o (position + 1) es

end

/-- **The value of an expression** whose calls may be nested `limit` deep. -/
def eval (limit : Nat) (e : Expr) : Traced EvalError Value :=
  e.evalAt limit 1

end CambridgePolish.Expr
