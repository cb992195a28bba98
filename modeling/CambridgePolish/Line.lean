import CambridgePolish.Expr.Eval
import CambridgePolish.Expr.Reader
import CambridgePolish.Token.Classify

/-!
# A line and its value

A line is cut into tokens, read as one expression, and evaluated. Each stage is noted when it
succeeds, and the first that fails decides the error.
-/

namespace CambridgePolish

/-- The expression on a line. -/
def readLine (limits : Limits) (line : String) : Traced ReadError Expr := do
  let tokens ← Token.ofLine line
  Traced.log (.tokenized tokens)
  let e ← readForm limits tokens
  Traced.log (.parsed e)
  return e

/-- **The value of a line.** -/
def evalLine (limits : Limits) (line : String) : Traced LineError Value := do
  let e ← (readLine limits line).mapError .read
  let v ← (e.eval limits.maxDepth).mapError .eval
  Traced.log (.evaluated v)
  return v

end CambridgePolish
