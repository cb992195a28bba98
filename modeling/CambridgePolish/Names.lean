import CambridgePolish.Error
import CambridgePolish.Numeral.Integer
import CambridgePolish.Numeral.Real
import CambridgePolish.Token.Basic
import CambridgePolish.Value

/-!
# Names, and what a token stands for

Four operators and two constants have names, and no line can add one. A token stands for the value
its text is bound to, whatever its kind; if the text is not bound, the kind says how to read it
(`Token.value`).
-/

namespace CambridgePolish

/-- The names of the constants, with their values. -/
def constants : List (String × Value) :=
  [("π", .real Binary64.pi), ("billion", .int 1000000000)]

/-- All bound names: the operators, then the constants. -/
def bindings : List (String × Value) :=
  (Operator.all.map fun o => (o.symbol, .operator o)) ++ constants

/-- The value a name is bound to. -/
def bound? (name : String) : Option Value :=
  bindings.lookup name

/-- The bound names in the order of their characters. -/
def boundNames : List String :=
  (bindings.map Prod.fst).mergeSort

/-- **The value of a token.** -/
def Token.value (t : Token) : Except ReadError Value :=
  match bound? t.text with
  | some v => .ok v
  | none =>
    match t.kind with
    | .integer =>
      match readInteger t.text.toList with
      | .ok n => .ok (.int n)
      | .error fault => .error (.numeral t.text t.column fault)
    | .float =>
      match readReal t.text.toList with
      | .ok x => .ok (.real x)
      | .error fault => .error (.numeral t.text t.column fault)
    | .procedure => .error (.unknownOperator t.text t.column)
    | .name => .error (.unknownName t.text t.column)
    | .groupOpen | .groupClose | .nil => .error (.noValue t.kind t.text t.column)

end CambridgePolish
