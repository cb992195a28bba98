import CambridgePolish.Proofs.Preorder
import CambridgePolish.Proofs.Refusal

/-!
# Errors that nothing behind them can mend

A token is refused for what was read before it. So an error that a token raises is *final*: reading
fails with it however the input goes on. No other error is, since an error at the end of the input
gives way to another one as soon as a token follows that no reader accepts
(`forall_append_eq_error_iff`).

At the end of the input only two things can be wrong, and what has been read shows which: an
operator is missing behind the opening parenthesis that the input ends with, or a group that has to
be closed is an operand too many for the group around it. Every error that is neither of these is
final (`errors_of_tokens_are_final`).
-/

namespace CambridgePolish

/-- A token that has no value, and that is no operator either. -/
def Token.stray : Token :=
  ⟨.nil, "", 0⟩

namespace Reader

variable {limits : Limits} {ts : List Token} {r : Reader} {err : ReadError}

/-- **A stray token is refused everywhere**, and for other reasons than the end of the input. -/
theorem exists_refused_stray (limits : Limits) (r : Reader) :
    ∃ err, Refused limits .stray r err ∧ err ≠ .empty ∧
      ∀ operator limit, err ≠ .tooManyOperands operator limit := by
  obtain ⟨forms, gs, _ | column⟩ := r
  · have hvalue : Token.stray.value = .error (.noValue .nil "" 0) := by decide
    exact ⟨_, .itemValue forms gs _ (by decide) (by decide) hvalue, by simp, by simp⟩
  · exact ⟨_, .expectedOperator forms gs column (by decide) (by decide), by simp, by simp⟩

/-- What is wrong at the end of the input: an operator is missing, or an operand is one too many. -/
theorem eq_empty_or_tooManyOperands (h : (r.finish limits).outcome = .error err) :
    r.opened.isSome ∧ err = .empty ∨
      ∃ operator, err = .tooManyOperands operator limits.maxOperands := by
  rcases finish_eq_error_iff.mp h with hempty | ⟨-, inner, g, outer, -, -, -, rfl⟩
  · exact Or.inl hempty
  · exact Or.inr ⟨g.operator.symbol, rfl⟩

/-- An operator is missing only behind an opening parenthesis. -/
theorem exists_getLast?_of_opened (h : ts.foldlM (step limits) start = .ok r)
    (hopened : r.opened.isSome) : ∃ t, ts.getLast? = some t ∧ t.kind = .groupOpen := by
  rw [(mirrors_of_foldlM h).opened, Option.any_eq_true] at hopened
  obtain ⟨t, hlast, hkind⟩ := hopened
  exact ⟨t, hlast, of_decide_eq_true hkind⟩

end Reader

variable {limits : Limits} {ts : List Token} {err : ReadError}

/-- **An error is final** if and only if a token has raised it. -/
theorem forall_append_eq_error_iff :
    (∀ us, (readForms limits (ts ++ us)).outcome = .error err) ↔
      ts.foldlM (Reader.step limits) Reader.start = .error err := by
  constructor
  · intro h
    have hts := h []
    rw [List.append_nil] at hts
    rcases readForms_eq_error_iff.mp hts with hrun | ⟨r, hrun, hfinish⟩
    · exact hrun
    · -- the end of the input is at fault, so a stray token brings up another error
      obtain ⟨err', hrefused, hempty, hoperands⟩ := Reader.exists_refused_stray limits r
      have hrun' : (ts ++ [Token.stray]).foldlM (Reader.step limits) Reader.start = .error err' :=
        Reader.foldlM_eq_error_iff.mpr ⟨ts, .stray, [], r, rfl, hrun, hrefused⟩
      have heq : err' = err :=
        Except.error.inj ((readForms_eq_error_iff.mpr (Or.inl hrun')).symm.trans (h [.stray]))
      rcases Reader.eq_empty_or_tooManyOperands hfinish with ⟨-, rfl⟩ | ⟨operator, rfl⟩
      · exact absurd heq hempty
      · exact absurd heq (hoperands operator limits.maxOperands)
  · intro h us
    obtain ⟨before, t, after, r, rfl, hrun, hrefused⟩ := Reader.foldlM_eq_error_iff.mp h
    refine readForms_eq_error_iff.mpr (Or.inl (Reader.foldlM_eq_error_iff.mpr ?_))
    exact ⟨before, t, after ++ us, r, List.append_assoc before (t :: after) us, hrun, hrefused⟩

/-- **Errors of reading are decided by the tokens read so far.** If reading fails, then it fails
with the same error whatever tokens follow, unless the error is that there are too many operands, or
that the expression is empty and the tokens end with an opening parenthesis. -/
theorem errors_of_tokens_are_final (limits : Limits) (ts : List Token) (err : ReadError)
    (h : (readForms limits ts).outcome = .error err)
    (hoperands : ∀ operator limit, err ≠ .tooManyOperands operator limit)
    (hempty : ¬(err = .empty ∧ ∃ t, ts.getLast? = some t ∧ t.kind = .groupOpen)) (us : List Token) :
    (readForms limits (ts ++ us)).outcome = .error err := by
  rcases readForms_eq_error_iff.mp h with hrun | ⟨r, hrun, hfinish⟩
  · exact forall_append_eq_error_iff.mpr hrun us
  · rcases Reader.eq_empty_or_tooManyOperands hfinish with ⟨hopened, rfl⟩ | ⟨operator, rfl⟩
    · exact absurd ⟨rfl, Reader.exists_getLast?_of_opened hrun hopened⟩ hempty
    · exact absurd rfl (hoperands operator limits.maxOperands)

/-- A group without an operator stays an error, although the same error at the end of the
input does not (`()` and `(`). -/
theorem errors_of_tokens_are_final_behind_empty_group :
    (readForms .default [⟨.groupOpen, "(", 1⟩, ⟨.groupClose, ")", 2⟩]).outcome = .error .empty ∧
      (readForms .default
        [⟨.groupOpen, "(", 1⟩, ⟨.groupClose, ")", 2⟩, ⟨.procedure, "+", 3⟩]).outcome =
        .error .empty := by
  have h : (readForms .default [⟨.groupOpen, "(", 1⟩, ⟨.groupClose, ")", 2⟩]).outcome =
      .error .empty := rfl
  refine ⟨h, errors_of_tokens_are_final _ _ _ h (by simp) ?_ [⟨.procedure, "+", 3⟩]⟩
  rintro ⟨-, t, hlast, hkind⟩
  obtain rfl := Option.some.inj hlast
  cases hkind

/-- Behind an opening parenthesis the operator may still come. -/
example : (readForms .default [⟨.groupOpen, "(", 1⟩]).outcome = .error .empty ∧
    (readForms .default [⟨.groupOpen, "(", 1⟩, ⟨.procedure, "+", 2⟩]).outcome =
      .ok [.call .add []] :=
  ⟨rfl, rfl⟩

/-- A group that is an operand too many is refused when it ends, and something in it may be refused
before that. -/
example :
    (readForms ⟨2, 0⟩ [⟨.groupOpen, "(", 1⟩, ⟨.procedure, "+", 2⟩, ⟨.groupOpen, "(", 4⟩,
      ⟨.procedure, "*", 5⟩]).outcome = .error (.tooManyOperands "+" 0) ∧
    (readForms ⟨2, 0⟩ [⟨.groupOpen, "(", 1⟩, ⟨.procedure, "+", 2⟩, ⟨.groupOpen, "(", 4⟩,
      ⟨.procedure, "*", 5⟩, ⟨.name, "x", 7⟩]).outcome = .error (.unknownName "x" 7) :=
  ⟨rfl, rfl⟩

end CambridgePolish
