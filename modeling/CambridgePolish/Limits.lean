/-!
# Limits

How deep calls may nest and how many operands one call may have. The reader enforces both, and the
evaluator the first.
-/

namespace CambridgePolish

/-- The limits under which a line is read and evaluated. -/
structure Limits where
  /-- The deepest nesting of groups; `(+ 1 2)` has depth one. -/
  maxDepth : Nat := 64
  /-- The most operands that one call may have. -/
  maxOperands : Nat := 32
deriving DecidableEq, Repr

/-- The limits that hold unless others are given. -/
def Limits.default : Limits := {}

end CambridgePolish
