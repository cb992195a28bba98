import CambridgePolish.Proofs.Failure
import CambridgePolish.Proofs.Stages

/-!
# Limits as cut-offs

What do wider limits change? A run either meets a limit, and fails for it, or it is the same run
under all wider limits, with the same value or error and the same events
(`wider_limits_change_nothing`).

Two runs of one computation are compared part by part. `CutOff exceeds x y` says that `x` is `y`
unless it failed with an error that `exceeds` describes. A sequence is cut off if its parts are
(`CutOff.bind`, `Traced.CutOff.bind`): an error for a limit ends the sequence, and as long as there
is none, the second parts start from the same value. What remains are the three places that look at
a limit: the opening of a group, an operand that is added to a group, and the evaluation of a call.
In each the narrow limit lets pass less than the wide one, and fails for nothing but itself.
-/

namespace CambridgePolish

/-- The limits are no wider than others. -/
structure Limits.Within (limits wider : Limits) : Prop where
  depth : limits.maxDepth ≤ wider.maxDepth
  operands : limits.maxOperands ≤ wider.maxOperands

/-! ### Errors for a limit -/

/-- The error is that a limit of reading is exceeded. -/
def ReadError.ExceedsLimit (err : ReadError) : Prop :=
  (∃ limit, err = .tooDeep limit) ∨ ∃ operator limit, err = .tooManyOperands operator limit

/-- The error is that a limit is exceeded, in reading a line or in evaluating it. -/
def LineError.ExceedsLimit : LineError → Prop
  | .read err => err.ExceedsLimit
  | .eval err => err.IsTooDeep

/-- The calls around a call that is nested too deeply fail for the same reason. -/
theorem EvalError.IsTooDeep.operand {err : EvalError} (h : err.IsTooDeep) (name : String)
    (position : Nat) : (EvalError.operand name position err).IsTooDeep :=
  h

/-! ### Computations that are cut off -/

section CutOff

variable {ε ε' α β σ : Type} {exceeds : ε → Prop}

/-- **An outcome that is cut off**: it is another one, or an error of the described kind. -/
def CutOff (exceeds : ε → Prop) (x y : Except ε α) : Prop :=
  (∃ err, exceeds err ∧ x = .error err) ∨ x = y

theorem CutOff.refl (x : Except ε α) : CutOff exceeds x x :=
  Or.inr rfl

/-- A check that the narrow limit passes less often, and fails with an error for the limit. -/
theorem CutOff.ite {p q : Prop} [Decidable p] [Decidable q] {err : ε} {x y : Except ε α}
    (hpq : p → q) (herr : exceeds err) :
    CutOff exceeds (if p then x else .error err) (if q then x else y) := by
  by_cases hp : p
  · rw [if_pos hp, if_pos (hpq hp)]
    exact CutOff.refl x
  · rw [if_neg hp]
    exact Or.inl ⟨err, herr, rfl⟩

/-- **A sequence is cut off** where its parts are. -/
theorem CutOff.bind {x y : Except ε α} {f g : α → Except ε β} (h : CutOff exceeds x y)
    (hfg : ∀ a, CutOff exceeds (f a) (g a)) : CutOff exceeds (x >>= f) (y >>= g) := by
  rcases h with ⟨err, herr, rfl⟩ | rfl
  · exact Or.inl ⟨err, herr, rfl⟩
  · cases x with
    | error err => exact CutOff.refl _
    | ok a => exact hfg a

/-- A run is cut off where its steps are. -/
theorem CutOff.foldlM {f g : σ → α → Except ε σ} (hfg : ∀ s a, CutOff exceeds (f s a) (g s a))
    (as : List α) (s : σ) : CutOff exceeds (as.foldlM f s) (as.foldlM g s) := by
  induction as generalizing s with
  | nil => exact CutOff.refl _
  | cons a as ih =>
    rw [List.foldlM_cons, List.foldlM_cons]
    exact (hfg s a).bind ih

namespace Traced

/-- **A traced computation that is cut off**: it is another one, events and all, or it ends with an
error of the described kind. -/
def CutOff (exceeds : ε → Prop) (x y : Traced ε α) : Prop :=
  (∃ err, exceeds err ∧ x.outcome = .error err) ∨ x = y

namespace CutOff

theorem refl (x : Traced ε α) : CutOff exceeds x x :=
  Or.inr rfl

theorem ofExcept {x y : Except ε α} (h : CambridgePolish.CutOff exceeds x y) :
    CutOff exceeds (Traced.ofExcept x) (Traced.ofExcept y) := by
  rcases h with ⟨err, herr, rfl⟩ | rfl
  · exact Or.inl ⟨err, herr, rfl⟩
  · exact refl _

/-- **A sequence is cut off** where its parts are. -/
theorem bind {x y : Traced ε α} {f g : α → Traced ε β} (h : CutOff exceeds x y)
    (hfg : ∀ a, CutOff exceeds (f a) (g a)) : CutOff exceeds (x >>= f) (y >>= g) := by
  rcases h with ⟨err, herr, hx⟩ | rfl
  · exact Or.inl ⟨err, herr, outcome_bind_eq_error_iff.mpr (Or.inl hx)⟩
  · obtain ⟨es, err | a⟩ := x
    · exact refl _
    · -- both second parts start from `a`, behind the same events
      rcases hfg a with ⟨err, herr, hf⟩ | hf
      · exact Or.inl ⟨err, herr, outcome_bind_eq_error_iff.mpr (Or.inr ⟨a, rfl, hf⟩)⟩
      · refine Or.inr (ext ?_ ?_)
        · simp only [events_bind, hf]
        · simp only [outcome_bind, Except.bind, hf]

theorem map {x y : Traced ε α} (f : α → β) (h : CutOff exceeds x y) :
    CutOff exceeds (f <$> x) (f <$> y) := by
  rcases h with ⟨err, herr, hx⟩ | rfl
  · exact Or.inl ⟨err, herr, outcome_map_eq_error_iff.mpr hx⟩
  · exact refl _

theorem mapError {exceeds' : ε' → Prop} {x y : Traced ε α} {f : ε → ε'}
    (hf : ∀ err, exceeds err → exceeds' (f err)) (h : CutOff exceeds x y) :
    CutOff exceeds' (x.mapError f) (y.mapError f) := by
  rcases h with ⟨err, herr, hx⟩ | rfl
  · exact Or.inl ⟨f err, hf err herr, outcome_mapError_eq_error_iff.mpr ⟨err, hx, rfl⟩⟩
  · exact refl _

/-- What was not cut off stays as it is. -/
theorem eq_of_forall_not {x y : Traced ε α} (h : CutOff exceeds x y)
    (hx : ∀ err, x.outcome = .error err → ¬exceeds err) : y = x := by
  rcases h with ⟨err, herr, hfail⟩ | rfl
  · exact absurd herr (hx err hfail)
  · rfl

end CutOff

end Traced

end CutOff

/-! ### Reading -/

section Reading

variable {limits wider : Limits}

open ReadError (ExceedsLimit)

theorem Group.cutOff_push (h : limits.Within wider) (g : Group) (e : Expr) :
    CutOff ExceedsLimit (g.push limits e) (g.push wider e) :=
  CutOff.ite (fun hlt => Nat.lt_of_lt_of_le hlt h.operands) (Or.inr ⟨_, _, rfl⟩)

theorem Group.cutOff_closeAround (h : limits.Within wider) (e : Expr) (gs : List Group) :
    Traced.CutOff ExceedsLimit (closeAround limits e gs) (closeAround wider e gs) := by
  induction gs generalizing e with
  | nil => exact Traced.CutOff.refl _
  | cons g gs ih =>
    refine (Traced.CutOff.ofExcept (cutOff_push h g e)).bind fun g' => ?_
    exact (Traced.CutOff.refl _).bind fun _ => ih g'.toExpr

namespace Reader

theorem cutOff_place (h : limits.Within wider) (r : Reader) (e : Expr) :
    CutOff ExceedsLimit (r.place limits e) (r.place wider e) := by
  unfold place
  cases r.groups with
  | nil => exact CutOff.refl _
  | cons g gs => exact (Group.cutOff_push h g e).bind fun _ => CutOff.refl _

theorem cutOff_readItem (h : limits.Within wider) (r : Reader) (t : Token) :
    CutOff ExceedsLimit (r.readItem limits t) (r.readItem wider t) := by
  unfold readItem
  split
  · exact CutOff.ite (fun hlt => Nat.lt_of_lt_of_le hlt h.depth) (Or.inl ⟨_, rfl⟩)
  · cases r.groups with
    | nil => exact CutOff.refl _
    | cons g gs => exact cutOff_place h _ g.toExpr
  · exact (CutOff.refl t.value).bind fun v => cutOff_place h r (.atom v)

/-- **One step of reading is cut off**: the token behind an opening parenthesis meets no limit. -/
theorem cutOff_step (h : limits.Within wider) (r : Reader) (t : Token) :
    CutOff ExceedsLimit (r.step limits t) (r.step wider t) := by
  unfold step
  cases r.opened with
  | some column => exact CutOff.refl _
  | none => exact cutOff_readItem h r t

theorem cutOff_finish (h : limits.Within wider) (r : Reader) :
    Traced.CutOff ExceedsLimit (r.finish limits) (r.finish wider) := by
  unfold finish
  split
  · exact Traced.CutOff.refl _
  · exact Traced.CutOff.refl _
  · next g gs _ _ =>
    refine (Traced.CutOff.refl _).bind fun _ => ?_
    exact (Group.cutOff_closeAround h g.toExpr gs).bind fun _ => Traced.CutOff.refl _

end Reader

theorem cutOff_readForms (h : limits.Within wider) (ts : List Token) :
    Traced.CutOff ExceedsLimit (readForms limits ts) (readForms wider ts) :=
  (Traced.CutOff.ofExcept (CutOff.foldlM (Reader.cutOff_step h) ts Reader.start)).bind
    (Reader.cutOff_finish h)

theorem cutOff_readLine (h : limits.Within wider) (line : String) :
    Traced.CutOff ExceedsLimit (readLine limits line) (readLine wider line) := by
  refine (Traced.CutOff.refl (Token.ofLine line)).bind fun ts => ?_
  refine (Traced.CutOff.refl _).bind fun _ => ?_
  have hform : Traced.CutOff ExceedsLimit (readForm limits ts) (readForm wider ts) :=
    (cutOff_readForms h ts).bind fun _ => Traced.CutOff.refl _
  exact hform.bind fun _ => Traced.CutOff.refl _

end Reading

/-! ### Evaluation -/

namespace Expr

variable {limit wider : Nat}

open EvalError (IsTooDeep)

theorem cutOff_evalOperands {depth : Nat} {es : List Expr}
    (h : ∀ e ∈ es,
      Traced.CutOff IsTooDeep (e.evalAt limit (depth + 1)) (e.evalAt wider (depth + 1)))
    (o : Operator) (position : Nat) :
    Traced.CutOff IsTooDeep (evalOperands limit depth o position es)
      (evalOperands wider depth o position es) := by
  induction es generalizing position with
  | nil => exact Traced.CutOff.refl _
  | cons e es ih =>
    obtain ⟨he, hes⟩ := List.forall_mem_cons.mp h
    have hfirst := he.mapError fun err herr => herr.operand o.symbol position
    exact hfirst.bind fun v => (ih hes (position + 1)).map (v :: ·)

/-- **Evaluation is cut off** by the depth limit. -/
theorem cutOff_evalAt (hle : limit ≤ wider) (e : Expr) (depth : Nat) :
    Traced.CutOff IsTooDeep (e.evalAt limit depth) (e.evalAt wider depth) := by
  induction e generalizing depth with
  | atom v => exact Traced.CutOff.refl _
  | call o es ih =>
    by_cases hdepth : depth ≤ limit
    · rw [evalAt, evalAt, if_pos hdepth, if_pos (Nat.le_trans hdepth hle)]
      have hoperands := cutOff_evalOperands (fun e he => ih e he (depth + 1)) o 1
      exact hoperands.bind fun _ => Traced.CutOff.refl _
    · rw [evalAt, if_neg hdepth]
      exact Or.inl ⟨.tooDeep limit, ⟨limit, rfl⟩, rfl⟩

end Expr

theorem cutOff_evalLine {limits wider : Limits} (h : limits.Within wider) (line : String) :
    Traced.CutOff LineError.ExceedsLimit (evalLine limits line) (evalLine wider line) := by
  have hread : Traced.CutOff LineError.ExceedsLimit ((readLine limits line).mapError .read)
      ((readLine wider line).mapError .read) :=
    (cutOff_readLine h line).mapError fun _ herr => herr
  refine hread.bind fun e => ?_
  have heval : Traced.CutOff LineError.ExceedsLimit ((e.eval limits.maxDepth).mapError .eval)
      ((e.eval wider.maxDepth).mapError .eval) :=
    (Expr.cutOff_evalAt h.depth e 1).mapError fun _ herr => herr
  exact heval.bind fun _ => Traced.CutOff.refl _

/-- **Wider limits change nothing but errors for a limit.** Tokens, expressions and lines that are
not refused for a limit have the same outcome under all wider limits, be it a value or an error, and
the same events lead to it. -/
theorem wider_limits_change_nothing {limits wider : Limits} (h : limits.Within wider) :
    (∀ ts, (∀ err, (readForms limits ts).outcome = .error err → ¬err.ExceedsLimit) →
      readForms wider ts = readForms limits ts) ∧
    (∀ e : Expr, (∀ err, (e.eval limits.maxDepth).outcome = .error err → ¬err.IsTooDeep) →
      e.eval wider.maxDepth = e.eval limits.maxDepth) ∧
    ∀ line, (∀ err, (evalLine limits line).outcome = .error err → ¬err.ExceedsLimit) →
      evalLine wider line = evalLine limits line := by
  refine ⟨?_, ?_, ?_⟩
  · intro ts hts
    exact (cutOff_readForms h ts).eq_of_forall_not hts
  · intro e he
    exact (Expr.cutOff_evalAt h.depth e 1).eq_of_forall_not he
  · intro line hline
    exact (cutOff_evalLine h line).eq_of_forall_not hline

/-- A line that reaches both limits and fails for neither, with two groups that
are closed for it. -/
theorem wider_limits_change_nothing_at_limits :
    Limits.Within ⟨2, 2⟩ .default ∧
      (evalLine ⟨2, 2⟩ "(+ 1 (/ 2 0").outcome =
        .error (.eval (.operand "+" 2 (.divisionByZero "/"))) ∧
      evalLine .default "(+ 1 (/ 2 0" = evalLine ⟨2, 2⟩ "(+ 1 (/ 2 0" := by
  have hwithin : Limits.Within ⟨2, 2⟩ .default := ⟨by decide, by decide⟩
  have hfail : (evalLine ⟨2, 2⟩ "(+ 1 (/ 2 0").outcome =
      .error (.eval (.operand "+" 2 (.divisionByZero "/"))) := by decide +kernel
  refine ⟨hwithin, hfail, (wider_limits_change_nothing hwithin).2.2 _ ?_⟩
  intro err herr
  obtain rfl := Except.error.inj (hfail.symm.trans herr)
  rintro ⟨limit, hroot⟩
  exact absurd hroot nofun

/-- With room for one group only, the same line meets the limit before the division is read. -/
example : (evalLine ⟨1, 2⟩ "(+ 1 (/ 2 0").outcome = .error (.read (.tooDeep 1)) := by
  decide +kernel

end CambridgePolish
