import CambridgePolish.Proofs.Failure

/-!
# A part may be evaluated first

If a part of an expression has a value, then putting the value in its place changes nothing: the
whole has the same value, or fails with the same error at the same address
(`Expr.eval_replaceAt_value`). The part need not be evaluated where it stands. It may be evaluated
by itself, under a depth limit that is less by the number of calls around it.

Two facts carry this. What a call comes to depends on nothing but what its operands come to, so a
part may be replaced by anything that has the same outcome in its place
(`Expr.outcome_evalAt_replaceAt`). And whether an expression has a value does not depend on how deep
it stands, but on how many levels are left below it (`Expr.evalAt_add_eq_ok_iff`). An error does
depend on it, since it names the limit.
-/

namespace CambridgePolish.Expr

variable {limit depth above : Nat} {e s new c : Expr} {es : List Expr} {o : Operator} {v : Value}
  {path : List Branch}

/-! ### Replacement -/

/-- **The expression with `new` in the place of the node at the end of a path**; it is left as it
is if there is no such node. -/
def replaceAt (new : Expr) : List Branch → Expr → Expr
  | [], _ => new
  | _ :: _, .atom v => .atom v
  | b :: path, .call o es =>
    if b.name = o.symbol ∧ 0 < b.position then
      .call o (es.modify (b.position - 1) (replaceAt new path))
    else .call o es

theorem replaceAt_cons (new : Expr) (path : List Branch) (o : Operator) (i : Nat) (es : List Expr) :
    replaceAt new (⟨o.symbol, i + 1⟩ :: path) (.call o es) =
      .call o (es.modify i (replaceAt new path)) := by
  rw [replaceAt, if_pos ⟨rfl, Nat.succ_pos i⟩]
  rfl

/-- Replacement puts the new expression where the path leads. -/
theorem nodeAt?_replaceAt (h : e.nodeAt? path = some s) :
    (replaceAt new path e).nodeAt? path = some new := by
  induction path generalizing e with
  | nil => rfl
  | cons b path ih =>
    obtain ⟨o, es, i, c, rfl, rfl, hc, hnode⟩ := nodeAt?_cons_eq_some_iff.mp h
    have hmodify : (es.modify i (replaceAt new path))[i]? = some (replaceAt new path c) := by
      simp [hc]
    rw [replaceAt_cons, nodeAt?_cons_of_operand hmodify, ih hnode]

/-! ### Outcomes -/

/-- An operand may be replaced by one with the same outcome. -/
theorem outcome_evalOperands_modify {i : Nat} {f : Expr → Expr} (hc : es[i]? = some c)
    (hf : (evalAt limit (depth + 1) (f c)).outcome = (evalAt limit (depth + 1) c).outcome)
    (position : Nat) :
    (evalOperands limit depth o position (es.modify i f)).outcome =
      (evalOperands limit depth o position es).outcome := by
  induction es generalizing i position with
  | nil => cases hc
  | cons e es ih =>
    cases i with
    | zero =>
      obtain rfl := Option.some.inj hc
      simp only [List.modify_zero_cons, evalOperands, Traced.outcome_bind,
        Traced.outcome_mapError, hf]
    | succ i =>
      simp only [List.modify_succ_cons, evalOperands, Traced.outcome_bind, Traced.outcome_map,
        ih hc (position + 1)]

/-- **A part may be replaced by anything that has the same outcome in its place.** -/
theorem outcome_evalAt_replaceAt (hnode : e.nodeAt? path = some s)
    (hs : (new.evalAt limit (above + path.length + 1)).outcome =
      (s.evalAt limit (above + path.length + 1)).outcome) :
    ((replaceAt new path e).evalAt limit (above + 1)).outcome =
      (e.evalAt limit (above + 1)).outcome := by
  induction path generalizing e above with
  | nil =>
    obtain rfl := Option.some.inj hnode
    exact hs
  | cons b path ih =>
    obtain ⟨o, es, i, c, rfl, rfl, hc, hnode⟩ := nodeAt?_cons_eq_some_iff.mp hnode
    -- the operand stands one call further down, and the rest of the path is shorter by one branch
    have hdepth : above + (path.length + 1) = above + 1 + path.length := by omega
    rw [List.length_cons, hdepth] at hs
    have hoperand := ih hnode hs
    rw [replaceAt_cons, evalAt, evalAt]
    split_ifs
    · rw [Traced.outcome_bind, Traced.outcome_bind, outcome_evalOperands_modify hc hoperand]
    · rfl

/-- **Only the levels that are left matter to having a value**: the depth and the
limit may be raised together. -/
theorem evalAt_add_eq_ok_iff (k : Nat) :
    (evalAt (limit + k) (depth + k) e).outcome = .ok v ↔
      (evalAt limit depth e).outcome = .ok v := by
  induction e generalizing depth v with
  | atom w => simp
  | call o es ih =>
    have hoperand : ∀ e ∈ es, ∀ w, (evalAt (limit + k) (depth + k + 1) e).outcome = .ok w ↔
        (evalAt limit (depth + 1) e).outcome = .ok w := by
      intro e he w
      rw [Nat.add_right_comm]
      exact ih e he
    rw [evalAt_call_eq_ok_iff, evalAt_call_eq_ok_iff, Nat.add_le_add_iff_right]
    refine and_congr_right fun _ => exists_congr fun vs => and_congr_left fun _ => ?_
    constructor
    · intro h
      exact ((List.forall₂_and_left es vs).mpr ⟨hoperand, h⟩).imp fun _ w hw => (hw.1 w).mp hw.2
    · intro h
      exact ((List.forall₂_and_left es vs).mpr ⟨hoperand, h⟩).imp fun _ w hw => (hw.1 w).mpr hw.2

/-- **Evaluation is compositional.** If the part of an expression at the end of a path has a value
by itself, under a depth limit that is less by the length of the path, then the expression with the
value in the place of the part has this value there and the same outcome as the expression itself:
the same value, or the same error. -/
theorem eval_replaceAt_value (limit : Nat) (e s : Expr) (path : List Branch) (v : Value)
    (hnode : e.nodeAt? path = some s) (hdepth : path.length ≤ limit)
    (hs : (s.eval (limit - path.length)).outcome = .ok v) :
    (replaceAt (.atom v) path e).nodeAt? path = some (.atom v) ∧
      ((replaceAt (.atom v) path e).eval limit).outcome = (e.eval limit).outcome := by
  have hplace : (s.evalAt limit (path.length + 1)).outcome = .ok v := by
    have hraised := (evalAt_add_eq_ok_iff path.length).mpr hs
    rwa [Nat.sub_add_cancel hdepth, Nat.add_comm 1] at hraised
  refine ⟨nodeAt?_replaceAt hnode, outcome_evalAt_replaceAt hnode ?_⟩
  rw [evalAt_atom, Nat.zero_add, hplace]

/-- In `(+ 1 (* (- 5 2) (/ 1 0)))` the difference may be taken first, at the depth limit;
the division fails as before. -/
theorem eval_replaceAt_value_beside_failure :
    (eval 1 (.call .sub [.atom (.int 5), .atom (.int 2)])).outcome = .ok (.int 3) ∧
    (eval 3 (.call .add [.atom (.int 1),
      .call .mul [.atom (.int 3), .call .div [.atom (.int 1), .atom (.int 0)]]])).outcome =
    (eval 3 (.call .add [.atom (.int 1),
      .call .mul [.call .sub [.atom (.int 5), .atom (.int 2)],
        .call .div [.atom (.int 1), .atom (.int 0)]]])).outcome := by
  have hs : (eval 1 (.call .sub [.atom (.int 5), .atom (.int 2)])).outcome = .ok (.int 3) := rfl
  obtain ⟨-, hwhole⟩ := eval_replaceAt_value 3 (.call .add [.atom (.int 1),
    .call .mul [.call .sub [.atom (.int 5), .atom (.int 2)],
      .call .div [.atom (.int 1), .atom (.int 0)]]])
    _ [⟨"+", 2⟩, ⟨"*", 1⟩] (.int 3) rfl (by decide) hs
  exact ⟨hs, hwhole⟩

end CambridgePolish.Expr
