import CambridgePolish.Line
import CambridgePolish.Proofs.Outcome

/-!
# The stages of a line

A line is cut into tokens, the tokens are read, and the expression is evaluated. Its
outcome is that of the last stage, or that of the first one that fails, and the kind
of error tells which one it was.
-/

namespace CambridgePolish

variable {limits : Limits} {line : String} {e : Expr} {v : Value}

/-- A line is read when it has tokens and these are read. -/
theorem readLine_eq_ok_iff :
    (readLine limits line).outcome = .ok e ↔
      ∃ ts, (Token.ofLine line).outcome = .ok ts ∧ (readForm limits ts).outcome = .ok e := by
  simp only [readLine, Traced.outcome_bind_eq_ok_iff, Traced.outcome_log_bind, Traced.outcome_pure,
    Except.ok.injEq, exists_eq_right]

/-- A line is not read when it has no tokens or these are not read. -/
theorem readLine_eq_error_iff {err : ReadError} :
    (readLine limits line).outcome = .error err ↔
      (Token.ofLine line).outcome = .error err ∨
        ∃ ts, (Token.ofLine line).outcome = .ok ts ∧ (readForm limits ts).outcome = .error err := by
  simp only [readLine, Traced.outcome_bind_eq_error_iff, Traced.outcome_log_bind,
    Traced.outcome_pure, reduceCtorEq, and_false, exists_false, or_false]

theorem evalLine_eq_ok_iff :
    (evalLine limits line).outcome = .ok v ↔
      ∃ e, (readLine limits line).outcome = .ok e ∧ (e.eval limits.maxDepth).outcome = .ok v := by
  simp only [evalLine, Traced.outcome_bind_eq_ok_iff, Traced.outcome_mapError_eq_ok_iff,
    Traced.outcome_log_bind, Traced.outcome_pure, Except.ok.injEq, exists_eq_right]

theorem evalLine_eq_error_iff {err : LineError} :
    (evalLine limits line).outcome = .error err ↔
      (∃ cause, (readLine limits line).outcome = .error cause ∧ .read cause = err) ∨
        ∃ e, (readLine limits line).outcome = .ok e ∧
          ∃ cause, (e.eval limits.maxDepth).outcome = .error cause ∧ .eval cause = err := by
  simp only [evalLine, Traced.outcome_bind_eq_error_iff, Traced.outcome_mapError_eq_error_iff,
    Traced.outcome_mapError_eq_ok_iff, Traced.outcome_log_bind, Traced.outcome_pure, reduceCtorEq,
    and_false, exists_false, or_false]

/-- A reading error means that the line was not read. -/
theorem evalLine_eq_read_error_iff {err : ReadError} :
    (evalLine limits line).outcome = .error (.read err) ↔
      (readLine limits line).outcome = .error err := by
  simp [evalLine_eq_error_iff]

/-- An evaluation error means that the line was read and has no value. -/
theorem evalLine_eq_eval_error_iff {err : EvalError} :
    (evalLine limits line).outcome = .error (.eval err) ↔
      ∃ e, (readLine limits line).outcome = .ok e ∧
        (e.eval limits.maxDepth).outcome = .error err := by
  simp [evalLine_eq_error_iff]

end CambridgePolish
