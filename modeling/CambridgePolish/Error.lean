import CambridgePolish.Kind
import CambridgePolish.Numeral.Basic

/-!
# Errors

A line fails while it is read (`ReadError`) or while it is evaluated (`EvalError`). Each error is
a cause with the words and columns that belong to it; the wording of all of them is in
`ReadError.message` and `EvalError.message`.

An evaluation error is an **address**: every call on the way down to the place of failure adds an
`operand` around the error of its operand, so the whole error spells the path from the outermost
call to the call at fault, whose error is the `EvalError.root`.
-/

namespace CambridgePolish

/-! ### Reading -/

/-- Why a line has no expression. Columns count characters from one. -/
inductive ReadError
  /-- The line starts with a word that is neither a group nor a number. -/
  | startsWithName (word : String) (column : Nat)
  /-- A word that looks like a number is none. -/
  | numeral (text : String) (column : Nat) (fault : NumeralFault)
  /-- No operator is written so. -/
  | unknownOperator (name : String) (column : Nat)
  /-- The name is not bound. -/
  | unknownName (name : String) (column : Nat)
  /-- A token that stands for no value stands where a value is expected. -/
  | noValue (kind : Kind) (text : String) (column : Nat)
  /-- Nothing to evaluate: an empty line, or a group without an operator. -/
  | empty
  /-- Something else than an operator follows an opening parenthesis. -/
  | expectedOperator (found : String) (column : Nat)
  /-- The head of a group is bound to a number. -/
  | notAnOperator (name : String) (column : Nat)
  /-- A closing parenthesis without an opening one. -/
  | unmatchedClose (column : Nat)
  /-- More than one expression on the line. -/
  | severalForms (count : Nat)
  /-- Groups are nested deeper than allowed. -/
  | tooDeep (limit : Nat)
  /-- A call has more operands than allowed. -/
  | tooManyOperands (operator : String) (limit : Nat)
deriving DecidableEq, Repr

namespace ReadError

/-- The stage of reading that an error belongs to. -/
inductive Stage
  /-- Telling words apart and reading numerals. -/
  | lexical
  /-- Finding what a name stands for. -/
  | resolution
  /-- Building expressions. -/
  | structural
deriving DecidableEq, Repr

/-- The stage at which an error arises. -/
def stage : ReadError → Stage
  | .startsWithName .. | .numeral .. => .lexical
  | .unknownOperator .. | .unknownName .. => .resolution
  | _ => .structural

/-- The error in words. -/
def message : ReadError → String
  | .startsWithName word column =>
    s!"column {column}: an expression must start with \"(\", got \"{word}\""
  | .numeral text column fault =>
    s!"column {column}: could not convert \"{text}\" to a number: {fault.reason}"
  | .unknownOperator name column => s!"column {column}: unknown procedure \"{name}\""
  | .unknownName name column => s!"column {column}: unknown name \"{name}\""
  | .noValue kind text column =>
    s!"column {column}: cannot determine the value of {kind.text} token \"{text}\""
  | .empty => "empty expression; expected (procedure args...)"
  | .expectedOperator found column =>
    s!"column {column}: expected a procedure name after \"(\", got \"{found}\""
  | .notAnOperator name column => s!"column {column}: \"{name}\" is not a procedure"
  | .unmatchedClose column => s!"column {column}: unexpected \")\" with no open group"
  | .severalForms count => s!"expected a single expression per line, found {count}"
  | .tooDeep limit => s!"expression nesting exceeds the limit of {limit}"
  | .tooManyOperands operator limit => s!"\"{operator}\" was given more than {limit} arguments"

end ReadError

/-! ### Evaluation -/

/-- Why an expression has no value. -/
inductive EvalError
  /-- The call has the wrong number of operands. -/
  | arity (name : String) (expected received : Nat)
  /-- The operands are not two numbers of one kind. -/
  | mismatch (name : String) (left right : Kind)
  /-- Division of an integer by the integer zero. -/
  | divisionByZero (name : String)
  /-- The result is no 64-bit integer. -/
  | overflow (name : String)
  /-- The operand at a position, counted from one, has no value. -/
  | operand (name : String) (position : Nat) (cause : EvalError)
  /-- Calls are nested deeper than allowed. -/
  | tooDeep (limit : Nat)
deriving DecidableEq, Repr

namespace EvalError

/-- The error in words. -/
def message : EvalError → String
  | .arity name expected received => s!"\"{name}\" takes {expected} arguments, got: {received}"
  | .mismatch name left right =>
    s!"\"{name}\" arguments must match and be numeric (Integer or Float); " ++
      s!"got {left.text} and {right.text}"
  | .divisionByZero name => s!"\"{name}\": integer division by zero"
  | .overflow name => s!"\"{name}\": integer overflow"
  | .operand name position cause =>
    s!"argument {position} of \"{name}\": " ++ cause.message
  | .tooDeep limit => s!"evaluation nesting exceeds the limit of {limit}"

/-- The error at the end of the path. -/
def root : EvalError → EvalError
  | .operand _ _ cause => cause.root
  | e => e

/-- How many calls lie around the one at fault. -/
def height : EvalError → Nat
  | .operand _ _ cause => cause.height + 1
  | _ => 0

end EvalError

/-! ### A line -/

/-- Why a line has no value. -/
inductive LineError
  | read (e : ReadError)
  | eval (e : EvalError)
deriving DecidableEq, Repr

/-- The error in words. -/
def LineError.message : LineError → String
  | .read e => e.message
  | .eval e => e.message

end CambridgePolish
