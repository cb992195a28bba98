import CambridgePolish.Proofs.Evaluation
import Mathlib.Tactic.Ring

/-!
# What a successful evaluation computes

The evaluator counts depths, checks numbers of operands and kinds, and refuses integers that do not
fit into 64 bits, all while it walks through the expression. The other side knows nothing of this:
it computes over the unbounded integers (`Expr.exactValue`) or over the doubles (`Expr.realValue`),
and an expression either lies within all bounds or it does not. The two agree
(`Expr.eval_eq_ok_iff_exact`): an expression has a value exactly when it is an atom, or it is a call
nested no deeper than allowed, each of its calls has two operands, its atoms are all integers or all
doubles, and – for integers – no divisor is zero and no intermediate result leaves the range.

What carries the proof is that *denoting a number* is compositional: a call denotes the integer `n`
when it has two operands, these denote integers, and `n` is the result on them
(`Expr.denotesInt_call_iff`). The evaluator has the same shape, so one induction compares them.
-/

namespace CambridgePolish.Expr

/-! ### Evaluation without limits -/

/-- **The value over the unbounded integers**, a quotient being rounded toward zero. It means
nothing where an atom is not an integer or a call has not two operands; such an expression gets
zero. -/
def exactValue : Expr → Int
  | .atom (.int n) => n.toInt
  | .call .add [l, r] => l.exactValue + r.exactValue
  | .call .sub [l, r] => l.exactValue - r.exactValue
  | .call .mul [l, r] => l.exactValue * r.exactValue
  | .call .div [l, r] => l.exactValue.tdiv r.exactValue
  | _ => 0

/-- **The value over the doubles**: each call applies its operation to the values of its two
operands. It means nothing for other expressions. -/
def realValue : Expr → Binary64
  | .atom (.real x) => x
  | .call .add [l, r] => l.realValue + r.realValue
  | .call .sub [l, r] => l.realValue - r.realValue
  | .call .mul [l, r] => l.realValue * r.realValue
  | .call .div [l, r] => l.realValue / r.realValue
  | _ => Binary64.nan false

/-! ### Conditions on all nodes -/

/-- Every call has exactly two operands. -/
def IsBinary (e : Expr) : Prop :=
  ∀ o es, .call o es ∈ e.nodes → es.length = 2

/-- Every atom is an integer. -/
def AllIntegers (e : Expr) : Prop :=
  ∀ v, .atom v ∈ e.nodes → ∃ n, v = .int n

/-- Every atom is a double. -/
def AllReals (e : Expr) : Prop :=
  ∀ v, .atom v ∈ e.nodes → ∃ x, v = .real x

/-- No division has a divisor that is zero over the unbounded integers. -/
def AvoidsZeroDivisors (e : Expr) : Prop :=
  ∀ l r, .call .div [l, r] ∈ e.nodes → r.exactValue ≠ 0

/-- The value of every call over the unbounded integers is a 64-bit integer. -/
def StaysInRange (e : Expr) : Prop :=
  ∀ o es, .call o es ∈ e.nodes →
    -2 ^ 63 ≤ (call o es).exactValue ∧ (call o es).exactValue ≤ 2 ^ 63 - 1

/-- The expression denotes the 64-bit integer `n`. -/
structure DenotesInt (e : Expr) (n : Int64) : Prop where
  binary : e.IsBinary
  integers : e.AllIntegers
  divisors : e.AvoidsZeroDivisors
  range : e.StaysInRange
  value : n.toInt = e.exactValue

/-- The expression denotes the double `x`. -/
structure DenotesReal (e : Expr) (x : Binary64) : Prop where
  binary : e.IsBinary
  reals : e.AllReals
  value : x = e.realValue

variable {e l r : Expr} {es : List Expr} {o : Operator} {v : Value}

theorem exactValue_call (o : Operator) (l r : Expr) :
    (call o [l, r]).exactValue = o.onIntegers l.exactValue r.exactValue := by
  cases o <;> simp [exactValue, Operator.onIntegers]

theorem realValue_call (o : Operator) (l r : Expr) :
    (call o [l, r]).realValue = o.onReals l.realValue r.realValue := by
  cases o <;> simp [realValue, Operator.onReals]

/-- A call with two operands is binary when these are. -/
theorem isBinary_call_iff : (call o es).IsBinary ↔ es.length = 2 ∧ ∀ e ∈ es, e.IsBinary :=
  forall_call_call_iff

theorem allIntegers_call_iff : (call o es).AllIntegers ↔ ∀ e ∈ es, e.AllIntegers :=
  forall_atom_call_iff

theorem allReals_call_iff : (call o es).AllReals ↔ ∀ e ∈ es, e.AllReals :=
  forall_atom_call_iff

theorem avoidsZeroDivisors_call_iff :
    (call o [l, r]).AvoidsZeroDivisors ↔
      (o = .div → r.exactValue ≠ 0) ∧ l.AvoidsZeroDivisors ∧ r.AvoidsZeroDivisors := by
  constructor
  · intro h
    refine ⟨?_, fun l' r' hmem => h l' r' ?_, fun l' r' hmem => h l' r' ?_⟩
    · rintro rfl
      exact h l r (self_mem_nodes _)
    · simp [hmem]
    · simp [hmem]
  · rintro ⟨hself, hl, hr⟩ l' r' hmem
    rcases mem_nodes_call.mp hmem with heq | ⟨e, he, hmem'⟩
    · obtain ⟨rfl, heq⟩ := call.inj heq
      obtain ⟨-, rfl⟩ : l' = l ∧ r' = r := by simpa using heq
      exact hself rfl
    · rcases List.mem_pair.mp he with rfl | rfl
      · exact hl l' r' hmem'
      · exact hr l' r' hmem'

theorem staysInRange_call_iff :
    (call o es).StaysInRange ↔
      (∃ n : Int64, n.toInt = (call o es).exactValue) ∧ ∀ e ∈ es, e.StaysInRange := by
  refine forall_call_call_iff.trans (and_congr_left fun _ => ?_)
  constructor
  · rintro ⟨hlow, hhigh⟩
    exact ⟨Int64.ofInt _, Int64.toInt_ofInt_of_le hlow (by omega)⟩
  · rintro ⟨n, hn⟩
    rw [← hn]
    have hlow := n.le_toInt
    have hhigh := n.toInt_lt
    omega

/-! ### Denoting a number is compositional -/

theorem denotesInt_atom_iff {n : Int64} : (atom v).DenotesInt n ↔ v = .int n := by
  constructor
  · rintro ⟨-, hint, -, -, hval⟩
    obtain ⟨m, rfl⟩ := hint v (self_mem_nodes _)
    rw [exactValue, Int64.toInt_inj] at hval
    rw [hval]
  · rintro rfl
    refine ⟨?_, ?_, ?_, ?_, ?_⟩
    · simp [IsBinary]
    · simp [AllIntegers]
    · simp [AvoidsZeroDivisors]
    · simp [StaysInRange]
    · rw [exactValue]

theorem denotesReal_atom_iff {x : Binary64} : (atom v).DenotesReal x ↔ v = .real x := by
  constructor
  · rintro ⟨-, hreal, hval⟩
    obtain ⟨y, rfl⟩ := hreal v (self_mem_nodes _)
    rw [hval, realValue]
  · rintro rfl
    refine ⟨?_, ?_, ?_⟩
    · simp [IsBinary]
    · simp [AllReals]
    · rw [realValue]

/-- All integers and within the range, an expression denotes some integer: its atoms are 64-bit
integers by their type. -/
theorem exists_toInt_eq_exactValue (hint : e.AllIntegers) (hrange : e.StaysInRange) :
    ∃ n : Int64, n.toInt = e.exactValue := by
  cases e with
  | atom v =>
    obtain ⟨n, rfl⟩ := hint v (self_mem_nodes _)
    exact ⟨n, by rw [exactValue]⟩
  | call o es => exact (staysInRange_call_iff.mp hrange).1

/-- **A call denotes an integer** when it has two operands that denote integers, and its operator
has an exact result on them. -/
theorem denotesInt_call_iff {n : Int64} :
    (call o es).DenotesInt n ↔ ∃ l r a b, es = [l, r] ∧ l.DenotesInt a ∧ r.DenotesInt b ∧
      ¬(o = .div ∧ b = 0) ∧ n.toInt = o.onIntegers a.toInt b.toInt := by
  constructor
  · rintro ⟨hbin, hint, hdiv, hrange, hval⟩
    obtain ⟨hlen, hbin⟩ := isBinary_call_iff.mp hbin
    obtain ⟨l, r, rfl⟩ := List.length_eq_two.mp hlen
    have hint := allIntegers_call_iff.mp hint
    obtain ⟨hself, hdivl, hdivr⟩ := avoidsZeroDivisors_call_iff.mp hdiv
    obtain ⟨-, hrange⟩ := staysInRange_call_iff.mp hrange
    obtain ⟨a, ha⟩ := exists_toInt_eq_exactValue (hint l (by simp)) (hrange l (by simp))
    obtain ⟨b, hb⟩ := exists_toInt_eq_exactValue (hint r (by simp)) (hrange r (by simp))
    refine ⟨l, r, a, b, rfl, ⟨hbin l (by simp), hint l (by simp), hdivl, hrange l (by simp), ha⟩,
      ⟨hbin r (by simp), hint r (by simp), hdivr, hrange r (by simp), hb⟩, ?_, ?_⟩
    · rintro ⟨ho, rfl⟩
      exact hself ho hb.symm
    · rw [hval, exactValue_call, ha, hb]
  · rintro ⟨l, r, a, b, rfl, hl, hr, hdiv, hval⟩
    have hexact : n.toInt = (call o [l, r]).exactValue := by
      rw [hval, exactValue_call, hl.value, hr.value]
    have hself : o = .div → r.exactValue ≠ 0 := fun ho h0 => by
      rw [← hr.value] at h0
      exact hdiv ⟨ho, Int64.toInt_inj.mp h0⟩
    refine ⟨isBinary_call_iff.mpr ⟨rfl, ?_⟩, allIntegers_call_iff.mpr ?_,
      avoidsZeroDivisors_call_iff.mpr ⟨hself, hl.divisors, hr.divisors⟩,
      staysInRange_call_iff.mpr ⟨⟨n, hexact⟩, ?_⟩, hexact⟩
    · simp [hl.binary, hr.binary]
    · simp [hl.integers, hr.integers]
    · simp [hl.range, hr.range]

/-- **A call denotes a double** when it has two operands that denote doubles. -/
theorem denotesReal_call_iff {z : Binary64} :
    (call o es).DenotesReal z ↔ ∃ l r x y, es = [l, r] ∧ l.DenotesReal x ∧ r.DenotesReal y ∧
      z = o.onReals x y := by
  constructor
  · rintro ⟨hbin, hreal, hval⟩
    obtain ⟨hlen, hbin⟩ := isBinary_call_iff.mp hbin
    obtain ⟨l, r, rfl⟩ := List.length_eq_two.mp hlen
    have hreal := allReals_call_iff.mp hreal
    exact ⟨l, r, l.realValue, r.realValue, rfl, ⟨hbin l (by simp), hreal l (by simp), rfl⟩,
      ⟨hbin r (by simp), hreal r (by simp), rfl⟩, by rw [hval, realValue_call]⟩
  · rintro ⟨l, r, x, y, rfl, hl, hr, rfl⟩
    refine ⟨isBinary_call_iff.mpr ⟨rfl, ?_⟩, allReals_call_iff.mpr ?_, ?_⟩
    · simp [hl.binary, hr.binary]
    · simp [hl.reals, hr.reals]
    · rw [realValue_call, hl.value, hr.value]

/-! ### The evaluator -/

variable {limit depth : Nat}

/-- **One step of a successful evaluation**: two operands of one kind of number. -/
theorem evalAt_call_eq_ok_iff_operands :
    (evalAt limit depth (.call o es)).outcome = .ok v ↔ depth ≤ limit ∧ ∃ l r, es = [l, r] ∧
      ((∃ a b c : Int64, (evalAt limit (depth + 1) l).outcome = .ok (.int a) ∧
        (evalAt limit (depth + 1) r).outcome = .ok (.int b) ∧ v = .int c ∧
        ¬(o = .div ∧ b = 0) ∧ c.toInt = o.onIntegers a.toInt b.toInt) ∨
      ∃ x y, (evalAt limit (depth + 1) l).outcome = .ok (.real x) ∧
        (evalAt limit (depth + 1) r).outcome = .ok (.real y) ∧ v = .real (o.onReals x y)) := by
  rw [evalAt_call_eq_ok_iff]
  refine and_congr_right fun _ => ?_
  constructor
  · rintro ⟨vs, hvs, hcall⟩
    obtain ⟨left, right, rfl, hcombine⟩ := Operator.call_eq_ok_iff.mp hcall
    obtain ⟨l, ls, hl, hls, rfl⟩ := List.forall₂_cons_right_iff.mp hvs
    obtain ⟨r, rs, hr, hrs, rfl⟩ := List.forall₂_cons_right_iff.mp hls
    obtain rfl := List.forall₂_nil_right_iff.mp hrs
    refine ⟨l, r, rfl, ?_⟩
    rcases Operator.combine_eq_ok_iff.mp hcombine with
      ⟨a, b, c, rfl, rfl, hv, hdiv, hc⟩ | ⟨x, y, rfl, rfl, hv⟩
    · exact Or.inl ⟨a, b, c, hl, hr, hv, hdiv, hc⟩
    · exact Or.inr ⟨x, y, hl, hr, hv⟩
  · rintro ⟨l, r, rfl, ⟨a, b, c, hl, hr, hv, hdiv, hc⟩ | ⟨x, y, hl, hr, hv⟩⟩
    · refine ⟨[.int a, .int b], .cons hl (.cons hr .nil), Operator.call_eq_ok_iff.mpr ?_⟩
      exact ⟨_, _, rfl, Operator.combine_eq_ok_iff.mpr (Or.inl ⟨a, b, c, rfl, rfl, hv, hdiv, hc⟩)⟩
    · refine ⟨[.real x, .real y], .cons hl (.cons hr .nil), Operator.call_eq_ok_iff.mpr ?_⟩
      exact ⟨_, _, rfl, Operator.combine_eq_ok_iff.mpr (Or.inr ⟨x, y, rfl, rfl, hv⟩)⟩

/-- **The evaluator finds integers**: those that the expression denotes, if it fits. -/
theorem evalAt_eq_int_iff (n : Int64) (hdepth : depth ≤ limit + 1) :
    (evalAt limit depth e).outcome = .ok (.int n) ↔
      depth + e.depth ≤ limit + 1 ∧ e.DenotesInt n := by
  induction e generalizing depth n with
  | atom v => simp [denotesInt_atom_iff, hdepth]
  | call o es ih =>
    rw [evalAt_call_eq_ok_iff_operands, denotesInt_call_iff]
    constructor
    -- the operands stand one level further down, so the hypothesis is used at `depth + 1`
    · rintro ⟨hlt, l, r, rfl, ⟨a, b, c, hl, hr, hv, hdiv, hc⟩ | ⟨x, y, -, -, hv⟩⟩
      · obtain ⟨hfitl, hl⟩ := (ih l (by simp) a (by omega)).mp hl
        obtain ⟨hfitr, hr⟩ := (ih r (by simp) b (by omega)).mp hr
        obtain rfl := Value.int.inj hv
        refine ⟨add_depth_call_le_iff.mpr ⟨by omega, ?_⟩, l, r, a, b, rfl, hl, hr, hdiv, hc⟩
        simp [hfitl, hfitr]
      · exact absurd hv nofun
    · rintro ⟨hfit, l, r, a, b, rfl, hl, hr, hdiv, hc⟩
      obtain ⟨hlt, hfits⟩ := add_depth_call_le_iff.mp hfit
      refine ⟨by omega, l, r, rfl, Or.inl ⟨a, b, n, ?_, ?_, rfl, hdiv, hc⟩⟩
      · exact (ih l (by simp) a (by omega)).mpr ⟨hfits l (by simp), hl⟩
      · exact (ih r (by simp) b (by omega)).mpr ⟨hfits r (by simp), hr⟩

/-- **The evaluator finds doubles**: those that the expression denotes, if it fits. -/
theorem evalAt_eq_real_iff (x : Binary64) (hdepth : depth ≤ limit + 1) :
    (evalAt limit depth e).outcome = .ok (.real x) ↔
      depth + e.depth ≤ limit + 1 ∧ e.DenotesReal x := by
  induction e generalizing depth x with
  | atom v => simp [denotesReal_atom_iff, hdepth]
  | call o es ih =>
    rw [evalAt_call_eq_ok_iff_operands, denotesReal_call_iff]
    constructor
    · rintro ⟨hlt, l, r, rfl, ⟨a, b, c, -, -, hv, -, -⟩ | ⟨y, z, hl, hr, hv⟩⟩
      · exact absurd hv nofun
      · obtain ⟨hfitl, hl⟩ := (ih l (by simp) y (by omega)).mp hl
        obtain ⟨hfitr, hr⟩ := (ih r (by simp) z (by omega)).mp hr
        refine ⟨add_depth_call_le_iff.mpr ⟨by omega, ?_⟩, l, r, y, z, rfl, hl, hr,
          Value.real.inj hv⟩
        simp [hfitl, hfitr]
    · rintro ⟨hfit, l, r, y, z, rfl, hl, hr, rfl⟩
      obtain ⟨hlt, hfits⟩ := add_depth_call_le_iff.mp hfit
      refine ⟨by omega, l, r, rfl, Or.inr ⟨y, z, ?_, ?_, rfl⟩⟩
      · exact (ih l (by simp) y (by omega)).mpr ⟨hfits l (by simp), hl⟩
      · exact (ih r (by simp) z (by omega)).mpr ⟨hfits r (by simp), hr⟩

/-- The value of a call is a number. -/
theorem evalAt_call_numeric (h : (evalAt limit depth (.call o es)).outcome = .ok v) :
    (∃ n, v = .int n) ∨ ∃ x, v = .real x := by
  obtain ⟨-, l, r, -, ⟨a, b, c, -, -, hv, -⟩ | ⟨x, y, -, -, hv⟩⟩ :=
    evalAt_call_eq_ok_iff_operands.mp h
  · exact Or.inl ⟨c, hv⟩
  · exact Or.inr ⟨_, hv⟩

/-- **Successful evaluation, exactly.** An expression has the value `v` if and only if it is
the atom `v`, or it is a call within the depth limit, every call in it has two operands, and
either all its atoms are integers, no divisor is zero, no intermediate result leaves the 64-bit
range and `v` is the value over the unbounded integers, or all its atoms are doubles and `v` is
the value over the doubles. -/
theorem eval_eq_ok_iff_exact (limit : Nat) (e : Expr) (v : Value) :
    (e.eval limit).outcome = .ok v ↔
      e = .atom v ∨
      (∃ o es, e = .call o es) ∧ e.depth ≤ limit ∧ e.IsBinary ∧
        (e.AllIntegers ∧ e.AvoidsZeroDivisors ∧ e.StaysInRange ∧
            (∃ n : Int64, n.toInt = e.exactValue ∧ v = .int n) ∨
          e.AllReals ∧ v = .real e.realValue) := by
  rw [eval]
  cases e with
  | atom w => simp [eq_comm]
  | call o es =>
    simp only [reduceCtorEq, false_or, call.injEq, exists_and_left, exists_eq', and_true, true_and]
    constructor
    · intro h
      rcases evalAt_call_numeric h with ⟨n, rfl⟩ | ⟨x, rfl⟩
      · obtain ⟨hfit, hn⟩ := (evalAt_eq_int_iff n (by omega)).mp h
        exact ⟨by omega, hn.binary, Or.inl ⟨hn.integers, hn.divisors, hn.range, n, hn.value, rfl⟩⟩
      · obtain ⟨hfit, hx⟩ := (evalAt_eq_real_iff x (by omega)).mp h
        exact ⟨by omega, hx.binary, Or.inr ⟨hx.reals, by rw [hx.value]⟩⟩
    · rintro ⟨hfit, hbin, ⟨hint, hdiv, hrange, n, hn, rfl⟩ | ⟨hreal, rfl⟩⟩
      · exact (evalAt_eq_int_iff n (by omega)).mpr ⟨by omega, hbin, hint, hdiv, hrange, hn⟩
      · exact (evalAt_eq_real_iff _ (by omega)).mpr ⟨by omega, hbin, hreal, rfl⟩

end CambridgePolish.Expr
