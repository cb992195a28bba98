import CambridgePolish.Value

/-!
# Expressions

An expression is a value that stands for itself or a call of an operator on expressions. Its shape
is that of the parentheses it is read from, and `Expr.text` writes it back with one space between
neighbours.

Functions on expressions come in pairs, one for an expression and one for a list of them.
-/

namespace CambridgePolish

/-- An expression. -/
inductive Expr
  /-- A literal, or the value a name is bound to. -/
  | atom (v : Value)
  /-- A call, with the operands as they were written. -/
  | call (o : Operator) (operands : List Expr)
deriving Repr

namespace Expr

/-- The value at the root: the operator of a call, or the value itself. -/
def head : Expr → Value
  | .atom v => v
  | .call o _ => .operator o

/-- The operands at the root. -/
def operands : Expr → List Expr
  | .atom _ => []
  | .call _ es => es

mutual

/-- How deep calls are nested: an atom has depth zero and `(+ 1 2)` has depth one. -/
def depth : Expr → Nat
  | .atom _ => 0
  | .call _ es => 1 + depths es

/-- The greatest depth in a list. -/
def depths : List Expr → Nat
  | [] => 0
  | e :: es => max e.depth (depths es)

end

mutual

/-- The expression and all expressions in it, every call in front of its operands. -/
def nodes : Expr → List Expr
  | .atom v => [.atom v]
  | .call o es => .call o es :: nodesOf es

/-- The nodes of a list of expressions. -/
def nodesOf : List Expr → List Expr
  | [] => []
  | e :: es => e.nodes ++ nodesOf es

end

mutual

/-- **The written expression.** An operator that is an operand is written by its symbol. -/
def text : Expr → String
  | .atom (.operator o) => o.symbol
  | .atom v => v.text
  | .call o es => "(" ++ o.symbol ++ texts es ++ ")"

/-- Written operands, each with a space in front. -/
def texts : List Expr → String
  | [] => ""
  | e :: es => " " ++ e.text ++ texts es

end

mutual

/-- The same shape with the same operators, and equal values in the sense of `Value.eqv`. -/
def eqv : Expr → Expr → Bool
  | .atom v, .atom w => v.eqv w
  | .call o es, .call p fs => o == p && eqvs es fs
  | _, _ => false

/-- Lists of one length, equal position by position. -/
def eqvs : List Expr → List Expr → Bool
  | [], [] => true
  | e :: es, f :: fs => e.eqv f && eqvs es fs
  | _, _ => false

end

end Expr

end CambridgePolish
