import CambridgePolish.Proofs.Failure
import CambridgePolish.Proofs.Reading
import CambridgePolish.Proofs.Stages

/-!
# Reading and evaluation agree on nesting

Nesting is counted three times: the reader counts the groups that are open, the evaluator the calls
it is inside of, and `Expr.depth` looks at the finished expression. The three counts have one
boundary. What was read keeps to the limits (`keepsTo_of_readForms`), an expression that keeps to
the depth limit is never refused for its depth (`Expr.not_isTooDeep_of_depth_le`), and one that does
not has no value (`Expr.depth_le_of_eval_eq_ok`). So no line is read and then found to be nested too
deeply (`reading_and_evaluation_agree_on_nesting`).

The reader's half is an invariant: an open group, taken as closed where the reading stands, keeps to
the limits in its place (`Reader.KeepsTo`). The evaluator's half needs no induction along the
evaluation, as an error already says where it comes from: a call that is refused for its depth
stands at the end of a path as long as the limit, and every branch of a path is one level of depth.
-/

namespace CambridgePolish

/-! ### Expressions within the limits -/

namespace Expr

variable {limits : Limits} {above : Nat} {e n : Expr} {es : List Expr} {o : Operator} {v : Value}

/-- **The expression keeps to the limits** with `above` calls around it. -/
structure KeepsTo (limits : Limits) (above : Nat) (e : Expr) : Prop where
  depth : above + e.depth ≤ limits.maxDepth
  operands : ∀ o es, .call o es ∈ e.nodes → es.length ≤ limits.maxOperands

theorem keepsTo_atom (h : above ≤ limits.maxDepth) : (atom v).KeepsTo limits above :=
  ⟨by simpa using h, by simp⟩

/-- A call keeps to the limits when there is room for it, it has not too many operands, and these
keep to the limits with one call more around them. -/
theorem keepsTo_call_iff :
    (call o es).KeepsTo limits above ↔
      above < limits.maxDepth ∧ es.length ≤ limits.maxOperands ∧
        ∀ e ∈ es, e.KeepsTo limits (above + 1) := by
  constructor
  · rintro ⟨hdepth, hoperands⟩
    obtain ⟨hlt, hdepth⟩ := add_depth_call_le_iff.mp hdepth
    obtain ⟨hlen, hoperands⟩ := forall_call_call_iff.mp hoperands
    exact ⟨hlt, hlen, fun e he => ⟨hdepth e he, hoperands e he⟩⟩
  · rintro ⟨hlt, hlen, hes⟩
    exact ⟨add_depth_call_le_iff.mpr ⟨hlt, fun e he => (hes e he).depth⟩,
      forall_call_call_iff.mpr ⟨hlen, fun e he => (hes e he).operands⟩⟩

end Expr

/-! ### The reader -/

namespace Group

variable {limits : Limits} {above : Nat} {e : Expr} {g : Group} {gs : List Group}

/-- Open groups, the innermost first, **keep to the limits**: each does, if it ends where it stands,
with the groups behind it in the list around it. -/
def KeepTo (limits : Limits) : List Group → Prop
  | [] => True
  | g :: gs => g.toExpr.KeepsTo limits gs.length ∧ KeepTo limits gs

/-- An operand that keeps to the limits may be added where there is room for it. -/
theorem keepsTo_push (hg : g.toExpr.KeepsTo limits above)
    (hroom : g.operands.length < limits.maxOperands) (he : e.KeepsTo limits (above + 1)) :
    (toExpr { g with operands := e :: g.operands }).KeepsTo limits above := by
  obtain ⟨hlt, -, hoperands⟩ := Expr.keepsTo_call_iff.mp hg
  refine Expr.keepsTo_call_iff.mpr ⟨hlt, by simpa [Nat.succ_le_iff] using hroom, fun f hf => ?_⟩
  rcases List.mem_cons.mp (List.mem_reverse.mp hf) with rfl | hmem
  · exact he
  · exact hoperands f (List.mem_reverse.mpr hmem)

/-- Groups that have room may be closed around an expression that keeps to the limits inside of
them. -/
theorem keepsTo_wrap (hgs : KeepTo limits gs)
    (hrooms : ∀ g ∈ gs, g.operands.length < limits.maxOperands)
    (he : e.KeepsTo limits gs.length) : (wrap e gs).KeepsTo limits 0 := by
  induction gs generalizing e with
  | nil => exact he
  | cons g gs ih =>
    obtain ⟨hroom, hrooms⟩ := List.forall_mem_cons.mp hrooms
    have hpush := keepsTo_push hgs.1 hroom he
    rw [toExpr, List.reverse_cons] at hpush
    exact ih hgs.2 hrooms hpush

end Group

namespace Reader

variable {limits : Limits} {r r' : Reader} {e : Expr} {t : Token} {ts : List Token}

/-- **What has been read keeps to the limits**, finished forms and open groups alike, and so does a
group that has just been opened. -/
structure KeepsTo (limits : Limits) (r : Reader) : Prop where
  forms : ∀ e ∈ r.forms, e.KeepsTo limits 0
  groups : Group.KeepTo limits r.groups
  opened : r.opened.isSome → r.groups.length < limits.maxDepth

theorem keepsTo_start : start.KeepsTo limits :=
  ⟨nofun, trivial, nofun⟩

theorem Placed.keepsTo (h : Placed limits e r r') (hr : r.KeepsTo limits)
    (he : e.KeepsTo limits r.groups.length) : r'.KeepsTo limits := by
  obtain ⟨hforms, hgroups, hopened⟩ := hr
  cases h with
  | form forms opened => exact ⟨List.forall_mem_cons.mpr ⟨he, hforms⟩, trivial, hopened⟩
  | operand forms g gs opened hroom =>
    exact ⟨hforms, ⟨Group.keepsTo_push hgroups.1 hroom he, hgroups.2⟩, hopened⟩

/-- A value fits wherever a reader stands: the groups around it are within the depth limit. -/
theorem KeepsTo.atom (hr : r.KeepsTo limits) (v : Value) :
    (Expr.atom v).KeepsTo limits r.groups.length := by
  obtain ⟨forms, _ | ⟨g, gs⟩, opened⟩ := r
  · exact Expr.keepsTo_atom (Nat.zero_le _)
  · exact Expr.keepsTo_atom (Expr.keepsTo_call_iff.mp hr.groups.1).1

/-- **One token** keeps the reader to the limits. -/
theorem Stepped.keepsTo (h : Stepped limits t r r') (hr : r.KeepsTo limits) :
    r'.KeepsTo limits := by
  cases h with
  | head forms gs column o hkind hvalue =>
    refine ⟨hr.forms, ⟨?_, hr.groups⟩, nofun⟩
    exact Expr.keepsTo_call_iff.mpr ⟨hr.opened rfl, Nat.zero_le _, nofun⟩
  | opening forms gs hkind hdepth => exact ⟨hr.forms, hr.groups, fun _ => hdepth⟩
  | closing forms g gs r' hkind hplaced =>
    exact hplaced.keepsTo ⟨hr.forms, hr.groups.2, nofun⟩ hr.groups.1
  | item forms gs v r' hopen hclose hvalue hplaced => exact hplaced.keepsTo hr (hr.atom v)

/-- **A whole run** keeps the reader to the limits. -/
theorem keepsTo_of_foldlM (h : ts.foldlM (step limits) start = .ok r) : r.KeepsTo limits :=
  run_induction (P := fun _ r => r.KeepsTo limits) keepsTo_start
    (fun _ _ _ _ hr hstep => hstep.keepsTo hr) h

/-- The forms keep to the limits when all open groups but the innermost have room
for the group inside of them. -/
theorem KeepsTo.forest (hr : r.KeepsTo limits)
    (hrooms : ∀ g ∈ r.groups.tail, g.operands.length < limits.maxOperands) :
    ∀ e ∈ r.forest, e.KeepsTo limits 0 := by
  obtain ⟨forms, _ | ⟨g, gs⟩, opened⟩ := r
  · intro e he
    exact hr.forms e (List.mem_reverse.mp he)
  · intro e he
    rcases List.mem_append.mp he with hmem | hmem
    · exact hr.forms e (List.mem_reverse.mp hmem)
    · obtain rfl := List.mem_singleton.mp hmem
      exact Group.keepsTo_wrap hr.groups.2 hrooms hr.groups.1

end Reader

/-- **What is read keeps to the limits.** -/
theorem keepsTo_of_readForms {limits : Limits} {ts : List Token} {forms : List Expr}
    (h : (readForms limits ts).outcome = .ok forms) : ∀ e ∈ forms, e.KeepsTo limits 0 := by
  obtain ⟨r, hrun, hfinish⟩ := readForms_eq_ok_iff.mp h
  obtain ⟨-, hrooms, rfl⟩ := Reader.finish_eq_ok_iff.mp hfinish
  exact (Reader.keepsTo_of_foldlM hrun).forest hrooms

/-! ### The evaluator -/

namespace Expr

variable {limit above : Nat} {e n : Expr} {v : Value} {err : EvalError}

/-- Every branch of a path is one level of depth. -/
theorem length_add_depth_le {path : List Branch} (h : e.nodeAt? path = some n) :
    path.length + n.depth ≤ e.depth := by
  induction path generalizing e with
  | nil =>
    obtain rfl := Option.some.inj h
    simp
  | cons b path ih =>
    obtain ⟨o, es, i, c, rfl, rfl, hc, hn⟩ := nodeAt?_cons_eq_some_iff.mp h
    have hle := (add_depth_call_le_iff.mp (Nat.le_of_eq (Nat.zero_add (call o es).depth))).2 c
      (List.mem_of_getElem? hc)
    have hrest := ih hn
    rw [List.length_cons]
    omega

/-- **An expression that keeps to the depth limit** is never refused for its depth. -/
theorem not_isTooDeep_of_depth_le (hdepth : e.depth ≤ limit)
    (h : (e.eval limit).outcome = .error err) : ¬err.IsTooDeep := by
  rintro ⟨bound, hroot⟩
  obtain ⟨path, root, rfl, hfails⟩ := (evalAt_eq_error_iff (Nat.zero_le limit)).mp h
  rw [hfails.isRoot.root_within] at hroot
  subst hroot
  obtain ⟨o, es, hnode, ⟨hlen, -⟩ | ⟨-, vs, -, hcall⟩⟩ := hfails.fault
  · -- the path is as long as the limit, and there is one more call at its end
    have hle := length_add_depth_le hnode
    rw [depth] at hle
    omega
  · exact Operator.not_isTooDeep_of_call hcall ⟨bound, rfl⟩

/-- A value is found within the depth limit only. -/
theorem add_depth_le_of_evalAt_eq_ok (habove : above ≤ limit)
    (h : (evalAt limit (above + 1) e).outcome = .ok v) : above + e.depth ≤ limit := by
  induction e generalizing above v with
  | atom w => simpa using habove
  | call o es ih =>
    obtain ⟨hlimit, vs, hvs, -⟩ := evalAt_call_eq_ok_iff.mp h
    refine add_depth_call_le_iff.mpr ⟨hlimit, fun e he => ?_⟩
    obtain ⟨i, hi, rfl⟩ := List.getElem_of_mem he
    exact ih _ he hlimit (hvs.get hi (hvs.length_eq ▸ hi))

/-- **An expression that has a value** keeps to the depth limit. -/
theorem depth_le_of_eval_eq_ok (h : (e.eval limit).outcome = .ok v) : e.depth ≤ limit := by
  have hle := add_depth_le_of_evalAt_eq_ok (Nat.zero_le limit) h
  omega

end Expr

/-- **Reading and evaluation agree on nesting.** What is read from any tokens is no deeper
than the depth limit and has no call with more operands than allowed. An expression within the
depth limit never fails for its depth, and one that is deeper always fails. So no line is read
and then fails for its depth. -/
theorem reading_and_evaluation_agree_on_nesting :
    (∀ limits ts forms, (readForms limits ts).outcome = .ok forms → ∀ e ∈ forms,
      e.depth ≤ limits.maxDepth ∧
        ∀ o es, .call o es ∈ e.nodes → es.length ≤ limits.maxOperands) ∧
    (∀ (e : Expr) limit, e.depth ≤ limit →
      ∀ err, (e.eval limit).outcome = .error err → ¬err.IsTooDeep) ∧
    (∀ (e : Expr) limit, limit < e.depth → ∃ err, (e.eval limit).outcome = .error err) ∧
    ∀ limits line err, (evalLine limits line).outcome = .error (.eval err) → ¬err.IsTooDeep := by
  refine ⟨?_, ?_, ?_, ?_⟩
  · intro limits ts forms h e he
    obtain ⟨hdepth, hoperands⟩ := keepsTo_of_readForms h e he
    exact ⟨by omega, hoperands⟩
  · intro e limit hdepth err h
    exact Expr.not_isTooDeep_of_depth_le hdepth h
  · intro e limit hdepth
    cases h : (e.eval limit).outcome with
    | error err => exact ⟨err, rfl⟩
    | ok v => exact absurd (Expr.depth_le_of_eval_eq_ok h) (Nat.not_le_of_lt hdepth)
  · intro limits line err h
    obtain ⟨e, hread, heval⟩ := evalLine_eq_eval_error_iff.mp h
    obtain ⟨ts, -, hform⟩ := readLine_eq_ok_iff.mp hread
    have hkeeps := keepsTo_of_readForms (readForm_eq_ok_iff.mp hform) e (List.mem_singleton_self e)
    exact Expr.not_isTooDeep_of_depth_le (by simpa using hkeeps.depth) heval

/-- Two calls under limits that just allow them, read from tokens and from a line. They have no
value, but not for their depth, and none either with room for one of them only. -/
theorem reading_and_evaluation_agree_on_nesting_at_limits :
    let limits : Limits := ⟨2, 2⟩
    let tokens : List Token := [⟨.groupOpen, "(", 1⟩, ⟨.procedure, "+", 2⟩, ⟨.integer, "1", 4⟩,
      ⟨.groupOpen, "(", 6⟩, ⟨.procedure, "/", 7⟩, ⟨.integer, "1", 9⟩, ⟨.integer, "0", 11⟩]
    let e : Expr := .call .add [.atom (.int 1), .call .div [.atom (.int 1), .atom (.int 0)]]
    let err : EvalError := .operand "+" 2 (.divisionByZero "/")
    ((readForms limits tokens).outcome = .ok [e] ∧
      e.depth ≤ 2 ∧ ∀ o es, .call o es ∈ e.nodes → es.length ≤ 2) ∧
    (e.depth = 2 ∧ (e.eval 2).outcome = .error err ∧ ¬err.IsTooDeep) ∧
    (∃ err', (e.eval 1).outcome = .error err') ∧
    (evalLine limits "(+ 1 (/ 1 0").outcome = .error (.eval err) ∧ ¬err.IsTooDeep := by
  intro limits tokens e err
  have hread : (readForms limits tokens).outcome = .ok [e] := rfl
  have hdepth : e.depth = 2 := rfl
  have heval : (e.eval 2).outcome = .error err := rfl
  have hline : (evalLine limits "(+ 1 (/ 1 0").outcome = .error (.eval err) := by decide +kernel
  obtain ⟨hforms, hwithin, hbeyond, hlines⟩ := reading_and_evaluation_agree_on_nesting
  exact ⟨⟨hread, hforms _ _ _ hread e (List.mem_singleton_self e)⟩,
    ⟨hdepth, heval, hwithin e 2 (Nat.le_of_eq hdepth) err heval⟩, hbeyond e 1 (by decide),
    hline, hlines _ _ _ hline⟩

end CambridgePolish
