import CambridgePolish.Proofs.CallResults

/-!
# Where an evaluation fails

An evaluation that fails reports an address. The wrappers around its root, read from the outside,
are a path through the expression (`EvalError.within`): each names the operator of a call and the
position of one of its operands. This file says which path and which root are reported
(`Expr.eval_eq_error_iff_failsAt`): the path leads to a call, everything to the left of it has a
value, and that call is either the first one below the depth limit or one whose operands all have
values on which its operator is not defined.

The evaluator finds the path while it unwinds, and `Expr.FailsAt` describes it from the root of the
expression, with an index for every node on it. The two meet in `Expr.failsAt_cons_iff`: to fail
along a path is to fail along the rest of it in an operand, one call further down.
-/

namespace CambridgePolish

/-! ### Errors as addresses -/

/-- A way down from a call: to the operand at a position, counted from one, of an operator of the
given name. -/
structure Branch where
  /-- The name of the operator, as errors give it. -/
  name : String
  /-- The position of the operand. -/
  position : Nat
deriving DecidableEq, Repr

namespace EvalError

/-- **The error at the end of a path**: an error with one wrapper for each branch, the first one
outermost. -/
def within (root : EvalError) : List Branch → EvalError
  | [] => root
  | b :: path => .operand b.name b.position (root.within path)

/-- The error is no wrapper. -/
def IsRoot (e : EvalError) : Prop :=
  ∀ name position cause, e ≠ .operand name position cause

/-- The error comes from a call that is nested too deeply. -/
def IsTooDeep (e : EvalError) : Prop :=
  ∃ limit, e.root = .tooDeep limit

variable {root : EvalError}

theorem IsRoot.root_eq (h : root.IsRoot) : root.root = root := by
  cases root with
  | operand name position cause => exact absurd rfl (h name position cause)
  | _ => rfl

/-- Wrappers do not change the root. -/
theorem IsRoot.root_within (h : root.IsRoot) (path : List Branch) :
    (root.within path).root = root := by
  induction path with
  | nil => exact h.root_eq
  | cons b path ih => exact ih

/-- **An error is one address**: its root and its path are determined. -/
theorem IsRoot.within_inj {root' : EvalError} {path path' : List Branch} (h : root.IsRoot)
    (h' : root'.IsRoot) : root.within path = root'.within path' ↔ root = root' ∧ path = path' := by
  constructor
  · intro heq
    have hroot : root = root' := by
      rw [← h.root_within path, heq, h'.root_within]
    subst hroot
    refine ⟨rfl, ?_⟩
    induction path generalizing path' with
    | nil =>
      cases path' with
      | nil => rfl
      | cons b' path' => exact absurd heq (h b'.name b'.position _)
    | cons b path ih =>
      cases path' with
      | nil => exact absurd heq.symm (h b.name b.position _)
      | cons b' path' =>
        obtain ⟨name, position⟩ := b
        obtain ⟨name', position'⟩ := b'
        obtain ⟨rfl, rfl, hrest⟩ := operand.inj heq
        rw [ih hrest]
  · rintro ⟨rfl, rfl⟩
    rfl

end EvalError

/-- **Every way a call can fail by itself**; each names the operator. -/
theorem Operator.call_eq_error_cases {o : Operator} {vs : List Value} {err : EvalError}
    (h : o.call vs = .error err) :
    err = .arity o.symbol arity vs.length ∨ (∃ left right, err = .mismatch o.symbol left right) ∨
      err = .divisionByZero o.symbol ∨ err = .overflow o.symbol := by
  cases call_eq_iff_gives.mp h with
  | arity _ hcount => exact Or.inl rfl
  | mismatch left right hkinds => exact Or.inr (Or.inl ⟨left.kind, right.kind, rfl⟩)
  | zeroDivisor a b hzero => exact Or.inr (Or.inr (Or.inl rfl))
  | overflow a b n hdivisor hresult hrange => exact Or.inr (Or.inr (Or.inr rfl))

/-- An operator never fails for the depth of its call. -/
theorem Operator.not_isTooDeep_of_call {o : Operator} {vs : List Value} {err : EvalError}
    (h : o.call vs = .error err) : ¬err.IsTooDeep := by
  rintro ⟨limit, hroot⟩
  rcases call_eq_error_cases h with rfl | ⟨left, right, rfl⟩ | rfl | rfl <;> cases hroot

namespace Expr

variable {limit above : Nat} {e c n : Expr} {es : List Expr} {o : Operator} {b : Branch}
  {path : List Branch} {root err : EvalError}

/-! ### Paths -/

/-- The operand that a branch leads to, if the expression is a call of that operator and has such an
operand. -/
def operandAt? : Expr → Branch → Option Expr
  | .atom _, _ => none
  | .call o es, b => if b.name = o.symbol ∧ 0 < b.position then es[b.position - 1]? else none

/-- **The node at the end of a path.** -/
def nodeAt? (e : Expr) (path : List Branch) : Option Expr :=
  path.foldlM operandAt? e

theorem operandAt?_eq_some_iff :
    e.operandAt? b = some c ↔
      ∃ o es i, e = .call o es ∧ b = ⟨o.symbol, i + 1⟩ ∧ es[i]? = some c := by
  constructor
  · intro h
    cases e with
    | atom v => exact absurd h nofun
    | call o es =>
      rw [operandAt?] at h
      split_ifs at h with hb
      obtain ⟨hname, hpos⟩ := hb
      refine ⟨o, es, b.position - 1, rfl, ?_, h⟩
      rw [Nat.sub_add_cancel hpos, ← hname]
  · rintro ⟨o, es, i, rfl, rfl, hi⟩
    rw [operandAt?, if_pos ⟨rfl, Nat.succ_pos i⟩]
    exact hi

theorem nodeAt?_cons : e.nodeAt? (b :: path) = (e.operandAt? b).bind (·.nodeAt? path) := by
  rw [nodeAt?, List.foldlM_cons]
  rfl

theorem nodeAt?_cons_of_operand {i : Nat} (hc : es[i]? = some c) :
    (call o es).nodeAt? (⟨o.symbol, i + 1⟩ :: path) = c.nodeAt? path := by
  rw [nodeAt?_cons, operandAt?_eq_some_iff.mpr ⟨o, es, i, rfl, rfl, hc⟩, Option.bind_some]

theorem nodeAt?_cons_eq_some_iff :
    e.nodeAt? (b :: path) = some n ↔ ∃ o es i c,
      e = .call o es ∧ b = ⟨o.symbol, i + 1⟩ ∧ es[i]? = some c ∧ c.nodeAt? path = some n := by
  rw [nodeAt?_cons, Option.bind_eq_some_iff]
  constructor
  · rintro ⟨c, hc, hn⟩
    obtain ⟨o, es, i, he, hb, hi⟩ := operandAt?_eq_some_iff.mp hc
    exact ⟨o, es, i, c, he, hb, hi, hn⟩
  · rintro ⟨o, es, i, c, he, hb, hi, hn⟩
    exact ⟨c, operandAt?_eq_some_iff.mpr ⟨o, es, i, he, hb, hi⟩, hn⟩

/-! ### The first failure -/

/-- **The first failure** in an expression with `above` calls around it lies at the end of the path.
The node behind `i` branches stands at depth `above + i + 1`. -/
structure FailsAt (limit above : Nat) (e : Expr) (path : List Branch) (root : EvalError) :
    Prop where
  /-- All operands to the left of the path have values. -/
  left : ∀ i b, path[i]? = some b → ∀ o es, e.nodeAt? (path.take i) = some (.call o es) →
    ∀ c ∈ es.take (b.position - 1), ∃ v, (c.evalAt limit (above + i + 2)).outcome = .ok v
  /-- At its end there is a call, and that one is at fault: it is nested too deeply, or it is not,
  all its operands have values, and its operator has no result on them. -/
  fault : ∃ o es, e.nodeAt? path = some (.call o es) ∧
    (above + path.length = limit ∧ root = .tooDeep limit ∨
      above + path.length < limit ∧ ∃ vs,
        List.Forall₂ (fun c v => (c.evalAt limit (above + path.length + 2)).outcome = .ok v) es vs ∧
          o.call vs = .error root)

theorem FailsAt.length_le (h : e.FailsAt limit above path root) : above + path.length ≤ limit := by
  obtain ⟨o, es, -, ⟨hlen, -⟩ | ⟨hlen, -⟩⟩ := h.fault
  · exact Nat.le_of_eq hlen
  · exact Nat.le_of_lt hlen

theorem FailsAt.isRoot (h : e.FailsAt limit above path root) : root.IsRoot := by
  obtain ⟨o, es, -, ⟨-, rfl⟩ | ⟨-, vs, -, hcall⟩⟩ := h.fault
  · exact nofun
  · rcases Operator.call_eq_error_cases hcall with rfl | ⟨left, right, rfl⟩ | rfl | rfl <;>
      exact nofun

/-- A failure with no branch in front of it is one of the expression itself. -/
theorem failsAt_nil_iff :
    e.FailsAt limit above [] root ↔ ∃ o es, e = .call o es ∧
      (above = limit ∧ root = .tooDeep limit ∨
        above < limit ∧ ∃ vs,
          List.Forall₂ (fun c v => (c.evalAt limit (above + 2)).outcome = .ok v) es vs ∧
            o.call vs = .error root) := by
  constructor
  · rintro ⟨-, o, es, hnode, hfault⟩
    exact ⟨o, es, Option.some.inj hnode, hfault⟩
  · rintro ⟨o, es, rfl, hfault⟩
    exact ⟨nofun, o, es, rfl, hfault⟩

/-- **One branch of a path**: the rest of it leads to the first failure in an operand, which stands
one call further down, and the operands to the left have values. -/
theorem failsAt_cons_iff :
    e.FailsAt limit above (b :: path) root ↔ ∃ o es i c,
      e = .call o es ∧ b = ⟨o.symbol, i + 1⟩ ∧ es[i]? = some c ∧
        (∀ l ∈ es.take i, ∃ v, (l.evalAt limit (above + 2)).outcome = .ok v) ∧
          c.FailsAt limit (above + 1) path root := by
  -- depths count from the top of the expression on one side and from the operand on the other
  have hdepth : ∀ k, above + (k + 1) = above + 1 + k := fun k => by omega
  constructor
  · rintro ⟨hleft, o', es', hnode, hfault⟩
    obtain ⟨o, es, i, c, rfl, rfl, hc, hnode⟩ := nodeAt?_cons_eq_some_iff.mp hnode
    refine ⟨o, es, i, c, rfl, rfl, hc, hleft 0 _ rfl o es rfl, ?_, o', es', hnode, ?_⟩
    · intro j b hb p fs hp
      have h := hleft (j + 1) b hb p fs
        (by rw [List.take_succ_cons, nodeAt?_cons_of_operand hc, hp])
      rwa [hdepth j] at h
    · rwa [List.length_cons, hdepth] at hfault
  · rintro ⟨o, es, i, c, rfl, rfl, hc, hl, hleft, o', es', hnode, hfault⟩
    refine ⟨?_, o', es', ?_, ?_⟩
    · intro j b hb p fs hp
      cases j with
      | zero =>
        obtain rfl := Option.some.inj hb
        obtain ⟨-, rfl⟩ := call.inj (Option.some.inj hp)
        exact hl
      | succ j =>
        rw [List.take_succ_cons, nodeAt?_cons_of_operand hc] at hp
        rw [hdepth j]
        exact hleft j b hb p fs hp
    · rw [nodeAt?_cons_of_operand hc, hnode]
    · rwa [List.length_cons, hdepth]

/-! ### The evaluator -/

/-- The operands have no values when one of them has none and those to its left have;
the error names its position. -/
theorem evalOperands_eq_error_iff {depth position : Nat} :
    (evalOperands limit depth o position es).outcome = .error err ↔ ∃ i c cause,
      es[i]? = some c ∧ (∀ l ∈ es.take i, ∃ v, (l.evalAt limit (depth + 1)).outcome = .ok v) ∧
        (c.evalAt limit (depth + 1)).outcome = .error cause ∧
          err = .operand o.symbol (position + i) cause := by
  induction es generalizing position with
  | nil => simp [evalOperands]
  | cons e es ih =>
    simp only [evalOperands, Traced.outcome_bind_eq_error_iff, Traced.outcome_map_eq_error_iff,
      Traced.outcome_mapError_eq_error_iff, Traced.outcome_mapError_eq_ok_iff, ih]
    constructor
    · rintro (⟨cause, hcause, rfl⟩ | ⟨v, hv, i, c, cause, hc, hl, hcause, rfl⟩)
      · exact ⟨0, e, cause, rfl, by simp, hcause, rfl⟩
      · refine ⟨i + 1, c, cause, hc, ?_, hcause, by rw [Nat.add_assoc, Nat.add_comm 1]⟩
        exact List.forall_mem_cons.mpr ⟨⟨v, hv⟩, hl⟩
    · rintro ⟨_ | i, c, cause, hc, hl, hcause, rfl⟩
      · obtain rfl := Option.some.inj hc
        exact Or.inl ⟨cause, hcause, rfl⟩
      · obtain ⟨⟨v, hv⟩, hl⟩ := List.forall_mem_cons.mp hl
        exact Or.inr ⟨v, hv, i, c, cause, hc, hl, hcause, by rw [Nat.add_assoc, Nat.add_comm 1]⟩

/-- **When a call has no value**: it is nested too deeply, or one of its operands is the first to
fail, or none does and its operator has no result on their values. -/
theorem evalAt_call_eq_error_iff {depth : Nat} :
    (evalAt limit depth (.call o es)).outcome = .error err ↔
      limit < depth ∧ err = .tooDeep limit ∨
      depth ≤ limit ∧
        ((∃ i c cause, es[i]? = some c ∧
          (∀ l ∈ es.take i, ∃ v, (l.evalAt limit (depth + 1)).outcome = .ok v) ∧
            (c.evalAt limit (depth + 1)).outcome = .error cause ∧
              err = .operand o.symbol (i + 1) cause) ∨
        ∃ vs, List.Forall₂ (fun c v => (c.evalAt limit (depth + 1)).outcome = .ok v) es vs ∧
          o.call vs = .error err) := by
  rw [evalAt]
  split_ifs with hdepth
  · simp only [Traced.outcome_bind_eq_error_iff, evalOperands_eq_error_iff, evalOperands_eq_ok_iff,
      Traced.outcome_log_bind, Traced.outcome_ofExcept, hdepth, Nat.not_lt_of_le hdepth, false_and,
      true_and, false_or, Nat.add_comm 1]
  · simp [hdepth, Traced.fail, Nat.lt_of_not_le hdepth, eq_comm]

/-- **The evaluator reports the first failure**, with `above` calls around the expression. -/
theorem evalAt_eq_error_iff (habove : above ≤ limit) :
    (evalAt limit (above + 1) e).outcome = .error err ↔
      ∃ path root, err = root.within path ∧ e.FailsAt limit above path root := by
  induction e generalizing above err with
  | atom v =>
    refine iff_of_false (by simp) ?_
    rintro ⟨_ | ⟨b, path⟩, root, -, hfails⟩
    · obtain ⟨o, es, he, -⟩ := failsAt_nil_iff.mp hfails
      exact absurd he nofun
    · obtain ⟨o, es, i, c, he, -⟩ := failsAt_cons_iff.mp hfails
      exact absurd he nofun
  | call o es ih =>
    rw [evalAt_call_eq_error_iff]
    constructor
    · rintro (⟨hlimit, rfl⟩ | ⟨hlimit, ⟨i, c, cause, hc, hl, hcause, rfl⟩ | hcall⟩)
      · exact ⟨[], _, rfl, failsAt_nil_iff.mpr ⟨o, es, rfl, Or.inl ⟨by omega, rfl⟩⟩⟩
      · -- the operand reports its own first failure, one call further down
        obtain ⟨path, root, rfl, hfails⟩ := (ih c (List.mem_of_getElem? hc) hlimit).mp hcause
        exact ⟨⟨o.symbol, i + 1⟩ :: path, root, rfl,
          failsAt_cons_iff.mpr ⟨o, es, i, c, rfl, rfl, hc, hl, hfails⟩⟩
      · exact ⟨[], err, rfl, failsAt_nil_iff.mpr ⟨o, es, rfl, Or.inr ⟨hlimit, hcall⟩⟩⟩
    · rintro ⟨_ | ⟨b, path⟩, root, rfl, hfails⟩
      · obtain ⟨o', es', he, hfault⟩ := failsAt_nil_iff.mp hfails
        obtain ⟨rfl, rfl⟩ := call.inj he
        rcases hfault with ⟨rfl, rfl⟩ | ⟨hlimit, hcall⟩
        · exact Or.inl ⟨Nat.lt_succ_self _, rfl⟩
        · exact Or.inr ⟨hlimit, Or.inr hcall⟩
      · obtain ⟨o', es', i, c, he, rfl, hc, hl, hrest⟩ := failsAt_cons_iff.mp hfails
        obtain ⟨rfl, rfl⟩ := call.inj he
        have hlimit : above + 1 ≤ limit := Nat.le_of_add_right_le hrest.length_le
        have hcause := (ih c (List.mem_of_getElem? hc) hlimit).mpr ⟨path, root, rfl, hrest⟩
        exact Or.inr ⟨hlimit, Or.inl ⟨i, c, _, hc, hl, hcause, rfl⟩⟩

/-- **An error is the address of the first failure.** An evaluation fails with a given error
if and only if that is a root within wrappers whose path leads to the first failure, and the
root is what happens there: the limit is reached, or the operator has no result on the
values of the operands. The root is found by removing the wrappers, and there are never more
of them than the limit allows. -/
theorem eval_eq_error_iff_failsAt (limit : Nat) (e : Expr) (err : EvalError) :
    ((e.eval limit).outcome = .error err ↔
      ∃ path root, err = root.within path ∧ root.IsRoot ∧ e.FailsAt limit 0 path root) ∧
    ∀ path root, err = root.within path → e.FailsAt limit 0 path root →
      err.root = root ∧ path.length ≤ limit := by
  refine ⟨?_, ?_⟩
  · rw [eval, evalAt_eq_error_iff (Nat.zero_le limit)]
    constructor
    · rintro ⟨path, root, herr, hfails⟩
      exact ⟨path, root, herr, hfails.isRoot, hfails⟩
    · rintro ⟨path, root, herr, -, hfails⟩
      exact ⟨path, root, herr, hfails⟩
  · rintro path root rfl hfails
    have hlen := hfails.length_le
    exact ⟨hfails.isRoot.root_within path, by omega⟩

/-- In `(+ 1 (* (/ 1 0) nil))` the division is at fault, not the `nil` to the right of it. With room
for two calls only, it is still the division, for its depth. -/
theorem eval_eq_error_iff_failsAt_left_of_nil :
    let e : Expr := .call .add [.atom (.int 1),
      .call .mul [.call .div [.atom (.int 1), .atom (.int 0)], .atom .nil]]
    let path : List Branch := [⟨"+", 2⟩, ⟨"*", 1⟩]
    let zero := (EvalError.divisionByZero "/").within path
    let deep := (EvalError.tooDeep 2).within path
    (e.FailsAt 3 0 path (.divisionByZero "/") ∧ (e.eval 3).outcome = .error zero ∧
      zero.root = .divisionByZero "/" ∧ path.length ≤ 3) ∧
    e.FailsAt 2 0 path (.tooDeep 2) ∧ (e.eval 2).outcome = .error deep ∧
      deep.root = .tooDeep 2 ∧ path.length ≤ 2 := by
  intro e path zero deep
  -- the atom in front of the product is all that stands to the left of the path
  have hleft (limit i : Nat) (b : Branch) (hb : path[i]? = some b) (o : Operator) (es : List Expr)
      (hnode : e.nodeAt? (path.take i) = some (.call o es)) (c : Expr)
      (hc : c ∈ es.take (b.position - 1)) : ∃ v, (c.evalAt limit (0 + i + 2)).outcome = .ok v := by
    rcases i with _ | _ | i
    · obtain ⟨rfl, rfl⟩ := call.inj (Option.some.inj hnode)
      obtain rfl := Option.some.inj hb
      obtain rfl := List.mem_singleton.mp hc
      exact ⟨.int 1, rfl⟩
    · obtain rfl := Option.some.inj hb
      cases hc
    · cases hb
  have hzero : e.FailsAt 3 0 path (.divisionByZero "/") :=
    ⟨hleft 3, .div, _, rfl, Or.inr ⟨by decide, _, .cons rfl (.cons rfl .nil), rfl⟩⟩
  have hdeep : e.FailsAt 2 0 path (.tooDeep 2) := ⟨hleft 2, .div, _, rfl, Or.inl ⟨rfl, rfl⟩⟩
  have hthree := eval_eq_error_iff_failsAt 3 e zero
  have htwo := eval_eq_error_iff_failsAt 2 e deep
  exact ⟨⟨hzero, hthree.1.mpr ⟨path, _, rfl, nofun, hzero⟩, hthree.2 path _ rfl hzero⟩,
    hdeep, htwo.1.mpr ⟨path, _, rfl, nofun, hdeep⟩, htwo.2 path _ rfl hdeep⟩

end Expr

end CambridgePolish
