import CambridgePolish.Binary64.Text
import CambridgePolish.Kind
import CambridgePolish.Numeral.Integer
import CambridgePolish.Text.Quoted

/-!
# Values and operators

A value is an integer of 64 bits, a double, one of the four operators, or `nil`, which no line can
produce. An operator is a value like the others: it may stand among the operands of a call, where it
then has the wrong kind.

`Value.text` is what the program prints, and `Value.logText` what the event log shows.
-/

namespace CambridgePolish

/-- The operators of the language. -/
inductive Operator
  | add
  | sub
  | mul
  | div
deriving DecidableEq, Repr

namespace Operator

/-- The operators, in the order in which they are listed. -/
def all : List Operator := [.add, .sub, .mul, .div]

/-- How an operator is written. -/
def symbol : Operator → String
  | .add => "+"
  | .sub => "-"
  | .mul => "*"
  | .div => "/"

/-- The operator that is written so. -/
def ofSymbol? (s : String) : Option Operator :=
  all.find? fun o => o.symbol == s

/-- How many operands every operator takes. -/
def arity : Nat := 2

end Operator

/-- A value. -/
inductive Value
  | int (n : Int64)
  | real (x : Binary64)
  | operator (o : Operator)
  | nil
deriving DecidableEq, Repr

namespace Value

/-- The kind of a value. -/
def kind : Value → Kind
  | .int _ => .integer
  | .real _ => .float
  | .operator _ => .procedure
  | .nil => .nil

/-- **The printed value.** -/
def text : Value → String
  | .int n => integerText n.toInt
  | .real x => x.text
  | .operator o => "#<procedure " ++ o.symbol ++ ">"
  | .nil => "nil (interpreter bug)"

/-- The value in the event log: its kind, and the value in brackets. -/
def logText : Value → String
  | .int n => "Integer(" ++ integerText n.toInt ++ ")"
  | .real x => "Float(" ++ x.logText ++ ")"
  | .operator o => "Procedure(Procedure(" ++ quoted o.symbol ++ "))"
  | .nil => "Nil"

/-- Equality as numbers: doubles compare in the sense of IEEE 754, and values of different kinds are
never equal. -/
def eqv : Value → Value → Bool
  | .int a, .int b => a == b
  | .real x, .real y => x.eqv y
  | .operator o, .operator p => o == p
  | .nil, .nil => true
  | _, _ => false

end Value

end CambridgePolish
