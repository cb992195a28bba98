import CambridgePolish.Limits
import CambridgePolish.Names
import CambridgePolish.Traced

/-!
# Reading expressions

Tokens are read one at a time, from left to right. What has been read is a `Reader`: the forms
that are finished, the groups that are still open, and whether an operator has to come next. One
token takes a reader to the next (`Reader.step`) or is an error, so an error depends on nothing
that stands behind it. A finished expression is *placed*: into the innermost open group, or among
the forms if no group is open.

The line may end inside groups. They are then closed from the innermost outwards, as if their
parentheses stood there (`Reader.finish`), and an event notes each.

Two limits hold. A group that would be nested too deeply is refused at its opening parenthesis,
before anything in it is read; an operand too many only once it is complete, so that an error inside
it comes first.
-/

namespace CambridgePolish

/-- A group whose closing parenthesis has not been read. -/
structure Group where
  /-- The operator at its head. -/
  operator : Operator
  /-- The column of its opening parenthesis. -/
  column : Nat
  /-- The operands read so far, the last one first. -/
  operands : List Expr

namespace Group

/-- The call that the group is when it ends here. -/
def toExpr (g : Group) : Expr :=
  .call g.operator g.operands.reverse

/-- The group with one more operand. -/
def push (limits : Limits) (g : Group) (e : Expr) : Except ReadError Group :=
  if g.operands.length < limits.maxOperands then .ok { g with operands := e :: g.operands }
  else .error (.tooManyOperands g.operator.symbol limits.maxOperands)

/-- Closes the groups around an expression at the end of the input, innermost first. -/
def closeAround (limits : Limits) (e : Expr) : List Group → Traced ReadError Expr
  | [] => pure e
  | g :: gs => do
    let g ← Traced.ofExcept (g.push limits e)
    Traced.log (.unclosed g.operator g.column)
    closeAround limits g.toExpr gs

end Group

/-- What has been read so far. -/
structure Reader where
  /-- The finished forms, the last one first. -/
  forms : List Expr
  /-- The open groups, the innermost first. -/
  groups : List Group
  /-- The column of an opening parenthesis just read, whose operator has to come next. -/
  opened : Option Nat

namespace Reader

/-- Nothing has been read. -/
def start : Reader :=
  ⟨[], [], none⟩

/-- Puts an expression where it belongs: into the innermost open group, or among the forms. -/
def place (limits : Limits) (r : Reader) (e : Expr) : Except ReadError Reader :=
  match r.groups with
  | [] => .ok { r with forms := e :: r.forms }
  | g :: gs => do
    let g ← g.push limits e
    return { r with groups := g :: gs }

/-- Reads the token directly behind an opening parenthesis in the given column. -/
def readHead (r : Reader) (column : Nat) (t : Token) : Except ReadError Reader :=
  match t.kind with
  | .groupClose => .error .empty
  | .procedure => do
    match ← t.value with
    | .operator o => .ok { r with groups := ⟨o, column, []⟩ :: r.groups, opened := none }
    | _ => .error (.notAnOperator t.text t.column)
  | _ => .error (.expectedOperator t.text t.column)

/-- Reads any other token. -/
def readItem (limits : Limits) (r : Reader) (t : Token) : Except ReadError Reader :=
  match t.kind with
  | .groupOpen =>
    if r.groups.length < limits.maxDepth then .ok { r with opened := some t.column }
    else .error (.tooDeep limits.maxDepth)
  | .groupClose =>
    match r.groups with
    | [] => .error (.unmatchedClose t.column)
    | g :: gs => place limits { r with groups := gs } g.toExpr
  | _ => do
    let v ← t.value
    r.place limits (.atom v)

/-- **One step of reading.** -/
def step (limits : Limits) (r : Reader) (t : Token) : Except ReadError Reader :=
  match r.opened with
  | some column => r.readHead column t
  | none => r.readItem limits t

/-- The forms when the input ends here. -/
def finish (limits : Limits) (r : Reader) : Traced ReadError (List Expr) :=
  match r.opened, r.groups with
  | some _, _ => Traced.fail .empty
  | none, [] => pure r.forms.reverse
  | none, g :: gs => do
    Traced.log (.unclosed g.operator g.column)
    let e ← Group.closeAround limits g.toExpr gs
    return (e :: r.forms).reverse

end Reader

/-- **All expressions** that a list of tokens holds. -/
def readForms (limits : Limits) (tokens : List Token) : Traced ReadError (List Expr) := do
  let r ← Traced.ofExcept (tokens.foldlM (Reader.step limits) Reader.start)
  r.finish limits

/-- **The one expression** that a list of tokens holds. -/
def readForm (limits : Limits) (tokens : List Token) : Traced ReadError Expr := do
  match ← readForms limits tokens with
  | [] => Traced.fail .empty
  | [e] => pure e
  | forms => Traced.fail (.severalForms forms.length)

end CambridgePolish
