import CambridgePolish.Expr.Eval
import CambridgePolish.Proofs.Nodes
import CambridgePolish.Proofs.Outcome
import Mathlib.Data.List.Forall2

/-!
# When an expression has a value

Success of an evaluation, read off one call at a time. A call has a value exactly when it is not
nested too deeply, each of its operands has one, and the operator is defined on these
(`Expr.evalAt_call_eq_ok_iff`). The operator is defined on two integers or on two doubles, and its
result on integers is the exact one (`Operator.combine_eq_ok_iff`): a 64-bit integer that equals an
integer outside the 64-bit range does not exist, so being in range needs no mention there.
-/

namespace CambridgePolish

/-! ### Operators -/

/-- The 64-bit integer of a given value is the one that has this value. -/
theorem fit?_eq_some_iff {n : Int} {c : Int64} : fit? n = some c ↔ c.toInt = n := by
  rw [fit?]
  split_ifs with h
  · rw [Option.some_inj]
    constructor
    · rintro rfl
      exact Int64.toInt_ofInt_of_le h.1 (Int.lt_add_one_of_le h.2)
    · rintro rfl
      exact Int64.ofInt_toInt c
  · refine iff_of_false nofun ?_
    rintro rfl
    exact h ⟨c.minValue_le_toInt, c.toInt_le⟩

namespace Operator

/-- **When an operator has a result.** -/
theorem combine_eq_ok_iff {o : Operator} {name : String} {left right v : Value} :
    o.combine name left right = .ok v ↔
      (∃ a b c : Int64, left = .int a ∧ right = .int b ∧ v = .int c ∧
        ¬(o = .div ∧ b = 0) ∧ c.toInt = o.onIntegers a.toInt b.toInt) ∨
      ∃ x y, left = .real x ∧ right = .real y ∧ v = .real (o.onReals x y) := by
  fun_cases combine o name left right with
  | case1 a b h => simp [h]
  | case2 a b h c hc =>
    have hval : ∀ d : Int64, d.toInt = o.onIntegers a.toInt b.toInt ↔ c = d := fun d => by
      rw [← fit?_eq_some_iff, hc, Option.some_inj]
    constructor
    · intro hv
      exact Or.inl ⟨a, b, c, rfl, rfl, (Except.ok.inj hv).symm, h, (hval c).mpr rfl⟩
    · rintro (⟨a', b', d, ha, hb, rfl, -, hd⟩ | ⟨x, y, hx, -, -⟩)
      · obtain rfl := Value.int.inj ha
        obtain rfl := Value.int.inj hb
        rw [(hval d).mp hd]
      · exact absurd hx nofun
  | case3 a b h hnone =>
    have hval : ∀ d : Int64, d.toInt ≠ o.onIntegers a.toInt b.toInt := fun d hd => by
      rw [← fit?_eq_some_iff, hnone] at hd
      exact absurd hd nofun
    simp [hval]
  | case4 x y => simp [eq_comm]
  | case5 left right hint hreal =>
    refine iff_of_false nofun ?_
    rintro (⟨a, b, c, rfl, rfl, -⟩ | ⟨x, y, rfl, rfl, -⟩)
    · exact hint a b rfl rfl
    · exact hreal x y rfl rfl

/-- A call has a result when there are two operands on which the operator has one. -/
theorem call_eq_ok_iff {o : Operator} {vs : List Value} {v : Value} :
    o.call vs = .ok v ↔
      ∃ left right, vs = [left, right] ∧ o.combine o.symbol left right = .ok v := by
  fun_cases call o vs with
  | case1 left right => simp
  | case2 vs hne =>
    refine iff_of_false nofun ?_
    rintro ⟨left, right, rfl, -⟩
    exact hne left right rfl

end Operator

/-! ### Calls -/

namespace Expr

variable {limit depth : Nat} {o : Operator} {es : List Expr} {v : Value}

@[simp] theorem evalAt_atom : (evalAt limit depth (.atom v)).outcome = .ok v := by
  simp [evalAt]

/-- The operands have values when each of them has one, whatever their positions. -/
theorem evalOperands_eq_ok_iff {position : Nat} {vs : List Value} :
    (evalOperands limit depth o position es).outcome = .ok vs ↔
      List.Forall₂ (fun e v => (evalAt limit (depth + 1) e).outcome = .ok v) es vs := by
  induction es generalizing position vs with
  | nil => simp [evalOperands, eq_comm]
  | cons e es ih =>
    simp only [evalOperands, Traced.outcome_bind_eq_ok_iff, Traced.outcome_map_eq_ok_iff,
      Traced.outcome_mapError_eq_ok_iff, ih, List.forall₂_cons_left_iff]
    constructor
    · rintro ⟨v, hv, vs', hvs', rfl⟩
      exact ⟨v, vs', hv, hvs', rfl⟩
    · rintro ⟨v, vs', hv, hvs', rfl⟩
      exact ⟨v, hv, vs', hvs', rfl⟩

/-- **When a call has a value.** -/
theorem evalAt_call_eq_ok_iff :
    (evalAt limit depth (.call o es)).outcome = .ok v ↔
      depth ≤ limit ∧ ∃ vs,
        List.Forall₂ (fun e v => (evalAt limit (depth + 1) e).outcome = .ok v) es vs ∧
          o.call vs = .ok v := by
  rw [evalAt]
  split_ifs with hdepth
  · simp only [Traced.outcome_bind_eq_ok_iff, evalOperands_eq_ok_iff, Traced.outcome_log_bind,
      Traced.outcome_ofExcept, hdepth, true_and]
  · simp [hdepth, Traced.fail]

end Expr

end CambridgePolish
