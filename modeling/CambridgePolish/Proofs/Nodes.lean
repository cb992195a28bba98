import CambridgePolish.Expr.Basic
import Mathlib.Tactic.Common

/-!
# Induction on expressions, and the nodes of an expression

An expression is built from lists of expressions, so the induction that Lean derives for it has one
hypothesis on an expression and one on a list. `Expr.induction` is the form that proofs use: to
prove something of a call, it may be assumed of each operand.

A condition on an expression as a whole is a condition on each of its nodes. What a call adds to the
nodes of its operands is itself (`Expr.mem_nodes_call`), so a condition on all atoms of a call is
one on its operands (`Expr.forall_atom_call_iff`), and a condition on all calls is one on itself and
on its operands (`Expr.forall_call_call_iff`). What it adds to their depth is one
(`Expr.add_depth_call_le_iff`).
-/

namespace CambridgePolish.Expr

/-- **Induction on expressions**: an atom, or a call all of whose operands satisfy the claim. -/
@[elab_as_elim, induction_eliminator]
theorem induction {P : Expr → Prop} (atom : ∀ v, P (.atom v))
    (call : ∀ o es, (∀ e ∈ es, P e) → P (.call o es)) : ∀ e, P e
  | .atom v => atom v
  | .call o es => call o es fun e _ => induction atom call e

variable {e n : Expr} {es : List Expr} {o : Operator} {v : Value}

/-! ### Nodes -/

theorem mem_nodesOf : n ∈ nodesOf es ↔ ∃ e ∈ es, n ∈ e.nodes := by
  induction es with
  | nil => simp [nodesOf]
  | cons e es ih => simp [nodesOf, ih]

@[simp] theorem mem_nodes_atom : n ∈ (atom v).nodes ↔ n = .atom v := by
  simp [nodes]

@[simp] theorem mem_nodes_call :
    n ∈ (call o es).nodes ↔ n = .call o es ∨ ∃ e ∈ es, n ∈ e.nodes := by
  simp [nodes, mem_nodesOf]

/-- Every expression is a node of itself. -/
theorem self_mem_nodes (e : Expr) : e ∈ e.nodes := by
  cases e <;> simp

/-- The atoms of a call are the atoms of its operands. -/
theorem forall_atom_call_iff {P : Value → Prop} :
    (∀ v, .atom v ∈ (call o es).nodes → P v) ↔ ∀ e ∈ es, ∀ v, .atom v ∈ e.nodes → P v := by
  simp only [mem_nodes_call, reduceCtorEq, false_or]
  constructor
  · intro h e he v hv
    exact h v ⟨e, he, hv⟩
  · rintro h v ⟨e, he, hv⟩
    exact h e he v hv

/-- The calls in a call are the call itself and the calls in its operands. -/
theorem forall_call_call_iff {P : Operator → List Expr → Prop} :
    (∀ p fs, .call p fs ∈ (call o es).nodes → P p fs) ↔
      P o es ∧ ∀ e ∈ es, ∀ p fs, .call p fs ∈ e.nodes → P p fs := by
  constructor
  · intro h
    refine ⟨h o es (self_mem_nodes _), fun e he p fs hmem => h p fs ?_⟩
    exact mem_nodes_call.mpr (Or.inr ⟨e, he, hmem⟩)
  · rintro ⟨hself, h⟩ p fs hmem
    rcases mem_nodes_call.mp hmem with heq | ⟨e, he, hmem'⟩
    · obtain ⟨rfl, rfl⟩ := call.inj heq
      exact hself
    · exact h e he p fs hmem'

/-! ### Depth -/

theorem depths_le_iff {m : Nat} : depths es ≤ m ↔ ∀ e ∈ es, e.depth ≤ m := by
  induction es with
  | nil => simp [depths]
  | cons e es ih => rw [depths, Nat.max_le, ih, List.forall_mem_cons]

@[simp] theorem depth_atom : (atom v).depth = 0 := by
  simp [depth]

/-- A call with `k` groups around it fits when its operands fit with one group more, and there is
room for that group, also when it has no operands. -/
theorem add_depth_call_le_iff {k m : Nat} :
    k + (call o es).depth ≤ m ↔ k < m ∧ ∀ e ∈ es, k + 1 + e.depth ≤ m := by
  rw [depth]
  constructor
  · intro h
    refine ⟨by omega, fun e he => ?_⟩
    have hle := depths_le_iff.mp (Nat.le_refl (depths es)) e he
    omega
  · rintro ⟨hk, h⟩
    have hle : depths es ≤ m - (k + 1) := depths_le_iff.mpr fun e he => by
      have := h e he
      omega
    omega

end CambridgePolish.Expr
