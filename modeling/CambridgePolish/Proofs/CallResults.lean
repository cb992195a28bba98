import CambridgePolish.Proofs.Evaluation
import Mathlib.Algebra.Ring.Int.Defs

/-!
# What a call comes to

`Operator.Gives` lists everything that a call of an operator can come to, one constructor for each
sort of operands: a count other than two, values that are not numbers of one kind, doubles, and
integers, where the divisor may be zero and the result may be out of range. The operators do this
and nothing else (`Operator.call_eq_iff_gives`). The order of the checks can be read off from the
conditions: the count comes before the kinds, and the divisor before the range.

For integers the result is said to be exact without computing it (`Operator.IsResult`). A quotient
is known by the remainder that it leaves, which is smaller than the divisor and has the sign of the
dividend; this determines it (`isQuotient_iff`). All 64-bit quotients are in range but one
(`quotient_out_of_range_iff`).
-/

namespace CambridgePolish

/-! ### Exact results -/

section Quotients

variable {a b q : Int}

/-- **The quotient rounded toward zero**: what is left over is less than the divisor, and is zero or
has the sign of the dividend. -/
def IsQuotient (a b q : Int) : Prop :=
  ∃ r, a = q * b + r ∧ r.natAbs < b.natAbs ∧ (r = 0 ∨ r.sign = a.sign)

theorem isQuotient_tdiv (hb : b ≠ 0) : IsQuotient a b (a.tdiv b) := by
  refine ⟨a.tmod b, ?_, ?_, ?_⟩
  · rw [Int.mul_comm, Int.mul_tdiv_add_tmod]
  · rw [Int.natAbs_tmod]
    exact Nat.mod_lt _ (Int.natAbs_pos.mpr hb)
  · have hsign := Int.sign_tmod a b
    split_ifs at hsign with hdvd
    · exact Or.inl (Int.sign_eq_zero_iff_zero.mp hsign)
    · exact Or.inr hsign

theorem IsQuotient.eq_tdiv (h : IsQuotient a b q) : q = a.tdiv b := by
  obtain ⟨r, ha, hr, hsign⟩ := h
  have hb : b ≠ 0 := by
    rintro rfl
    exact absurd hr (Nat.not_lt_zero _)
  have hsum : r + b * q = a := by rw [ha, Int.mul_comm q, Int.add_comm]
  -- the remainder lies on the same side of zero as the dividend
  rcases Int.le_total 0 a with hle | hle
  · have hnonneg : 0 ≤ r := by
      rcases hsign with rfl | hsign
      · exact Int.le_refl 0
      · exact Int.sign_nonneg_iff.mp (hsign ▸ Int.sign_nonneg_iff.mpr hle)
    exact ((Int.tdiv_tmod_unique hle hb).mpr ⟨hsum, hnonneg, by omega⟩).1.symm
  · have hnonpos : r ≤ 0 := by
      rcases hsign with rfl | hsign
      · exact Int.le_refl 0
      · exact Int.sign_nonpos_iff.mp (hsign ▸ Int.sign_nonpos_iff.mpr hle)
    exact ((Int.tdiv_tmod_unique' hle hb).mpr ⟨hsum, by omega, hnonpos⟩).1.symm

/-- **There is one quotient**, unless the divisor is zero. -/
theorem isQuotient_iff (hb : b ≠ 0) : IsQuotient a b q ↔ q = a.tdiv b := by
  constructor
  · exact IsQuotient.eq_tdiv
  · rintro rfl
    exact isQuotient_tdiv hb

end Quotients

namespace Operator

/-- **The exact result** of an operation on integers. -/
def IsResult : Operator → Int → Int → Int → Prop
  | .add, a, b, n => n = a + b
  | .sub, a, b, n => n = a - b
  | .mul, a, b, n => n = a * b
  | .div, a, b, n => IsQuotient a b n

/-- An operator has one exact result, unless it divides by zero. -/
theorem isResult_iff {o : Operator} {a b : Int64} {n : Int} (h : ¬(o = .div ∧ b = 0)) :
    o.IsResult a.toInt b.toInt n ↔ n = o.onIntegers a.toInt b.toInt := by
  cases o with
  | div => exact isQuotient_iff fun hb => h ⟨rfl, Int64.toInt_inj.mp hb⟩
  | _ => rfl

end Operator

/-! ### The range -/

/-- There is no 64-bit integer of a value outside of the range. -/
theorem fit?_eq_none_iff {n : Int} : fit? n = none ↔ n < -2 ^ 63 ∨ 2 ^ 63 - 1 < n := by
  have hmin : Int64.minValue.toInt = -2 ^ 63 := by decide
  have hmax : Int64.maxValue.toInt = 2 ^ 63 - 1 := by decide
  rw [fit?, hmin, hmax]
  split_ifs with h
  · exact iff_of_false (by simp) (by omega)
  · exact iff_of_true rfl (by omega)

/-- **The one quotient that is out of range** is that of the least integer by minus one. -/
theorem quotient_out_of_range_iff {a b : Int64} (hb : b.toInt ≠ 0) :
    (a.toInt.tdiv b.toInt < -2 ^ 63 ∨ 2 ^ 63 - 1 < a.toInt.tdiv b.toInt) ↔
      a.toInt = -2 ^ 63 ∧ b.toInt = -1 := by
  have hlow := a.le_toInt
  have hhigh := a.toInt_lt
  by_cases hunit : b.toInt.natAbs = 1
  · rcases Int.natAbs_eq_iff.mp hunit with hone | hone
    · rw [hone, Int.natCast_one, Int.tdiv_one]
      omega
    · rw [hone, Int.natCast_one, Int.tdiv_neg, Int.tdiv_one]
      omega
  · -- any other divisor halves the dividend at least
    have hhalf : (a.toInt.tdiv b.toInt).natAbs ≤ a.toInt.natAbs / 2 := by
      rw [Int.natAbs_tdiv]
      exact Nat.div_le_div_left (by omega) (by decide)
    omega

/-! ### Calls -/

namespace Operator

/-- The values are two numbers of one kind. -/
def OneKind (left right : Value) : Prop :=
  (∃ a b, left = .int a ∧ right = .int b) ∨ ∃ x y, left = .real x ∧ right = .real y

/-- **Everything that a call can come to.** -/
inductive Gives (o : Operator) : List Value → Except EvalError Value → Prop
  /-- There are not two operands. -/
  | arity (vs : List Value) (count : vs.length ≠ 2) :
    Gives o vs (.error (.arity o.symbol 2 vs.length))
  /-- The operands are not numbers of one kind. -/
  | mismatch (left right : Value) (kinds : ¬OneKind left right) :
    Gives o [left, right] (.error (.mismatch o.symbol left.kind right.kind))
  /-- Doubles always have a result. -/
  | reals (x y : Binary64) : Gives o [.real x, .real y] (.ok (.real (o.onReals x y)))
  /-- An integer is divided by zero. -/
  | zeroDivisor (a b : Int64) (zero : o = .div ∧ b = 0) :
    Gives o [.int a, .int b] (.error (.divisionByZero o.symbol))
  /-- The exact result is no 64-bit integer. -/
  | overflow (a b : Int64) (n : Int) (divisor : ¬(o = .div ∧ b = 0))
    (result : o.IsResult a.toInt b.toInt n) (range : n < -2 ^ 63 ∨ 2 ^ 63 - 1 < n) :
    Gives o [.int a, .int b] (.error (.overflow o.symbol))
  /-- The exact result is a 64-bit integer. -/
  | integers (a b c : Int64) (divisor : ¬(o = .div ∧ b = 0))
    (result : o.IsResult a.toInt b.toInt c.toInt) : Gives o [.int a, .int b] (.ok (.int c))

variable {o : Operator} {vs : List Value} {x : Except EvalError Value}

theorem gives_combine (o : Operator) (left right : Value) :
    o.Gives [left, right] (o.combine o.symbol left right) := by
  fun_cases combine o o.symbol left right with
  | case1 a b hzero => exact .zeroDivisor a b hzero
  | case2 a b hdivisor c hc =>
    exact .integers a b c hdivisor ((isResult_iff hdivisor).mpr (fit?_eq_some_iff.mp hc))
  | case3 a b hdivisor hnone =>
    exact .overflow a b _ hdivisor ((isResult_iff hdivisor).mpr rfl) (fit?_eq_none_iff.mp hnone)
  | case4 x y => exact .reals x y
  | case5 left right hint hreal =>
    refine .mismatch left right ?_
    rintro (⟨a, b, rfl, rfl⟩ | ⟨x, y, rfl, rfl⟩)
    · exact hint a b rfl rfl
    · exact hreal x y rfl rfl

theorem gives_call (o : Operator) (vs : List Value) : o.Gives vs (o.call vs) := by
  fun_cases call o vs with
  | case1 left right => exact gives_combine o left right
  | case2 vs hne =>
    refine .arity vs fun hlen => ?_
    obtain ⟨left, right, rfl⟩ := List.length_eq_two.mp hlen
    exact hne left right rfl

theorem call_eq_of_gives (h : o.Gives vs x) : o.call vs = x := by
  cases h with
  | arity _ count =>
    unfold call
    split
    · exact absurd rfl count
    · rfl
  | mismatch left right kinds =>
    change o.combine o.symbol left right = _
    unfold combine
    split
    · exact absurd (Or.inl ⟨_, _, rfl, rfl⟩) kinds
    · exact absurd (Or.inr ⟨_, _, rfl, rfl⟩) kinds
    · rfl
  | reals x y => rfl
  | zeroDivisor a b zero => exact if_pos zero
  | overflow a b n divisor result range =>
    have hnone : fit? (o.onIntegers a.toInt b.toInt) = none := by
      rw [← (isResult_iff divisor).mp result]
      exact fit?_eq_none_iff.mpr range
    rw [call, combine, if_neg divisor, hnone]
  | integers a b c divisor result =>
    have hsome : fit? (o.onIntegers a.toInt b.toInt) = some c :=
      fit?_eq_some_iff.mpr ((isResult_iff divisor).mp result)
    rw [call, combine, if_neg divisor, hsome]

/-- **A call comes to what `Gives` lists**, and to nothing else. -/
theorem call_eq_iff_gives : o.call vs = x ↔ o.Gives vs x := by
  constructor
  · rintro rfl
    exact gives_call o vs
  · exact call_eq_of_gives

/-! ### Each outcome by itself -/

theorem call_eq_arity_iff : o.call vs = .error (.arity o.symbol 2 vs.length) ↔ vs.length ≠ 2 := by
  rw [call_eq_iff_gives]
  constructor
  · intro h
    cases h with
    | arity _ hcount => exact hcount
  · exact .arity vs

theorem call_eq_mismatch_iff {left right : Value} :
    o.call [left, right] = .error (.mismatch o.symbol left.kind right.kind) ↔
      ¬OneKind left right := by
  rw [call_eq_iff_gives]
  constructor
  · intro h
    cases h with
    | mismatch _ _ hkinds => exact hkinds
  · exact .mismatch left right

theorem call_eq_divisionByZero_iff {a b : Int64} :
    o.call [.int a, .int b] = .error (.divisionByZero o.symbol) ↔ o = .div ∧ b = 0 := by
  rw [call_eq_iff_gives]
  constructor
  · intro h
    cases h with
    | zeroDivisor _ _ hzero => exact hzero
  · exact .zeroDivisor a b

theorem call_eq_overflow_iff {a b : Int64} :
    o.call [.int a, .int b] = .error (.overflow o.symbol) ↔
      ¬(o = .div ∧ b = 0) ∧ ∃ n, o.IsResult a.toInt b.toInt n ∧ (n < -2 ^ 63 ∨ 2 ^ 63 - 1 < n) := by
  rw [call_eq_iff_gives]
  constructor
  · intro h
    cases h with
    | overflow _ _ n hdivisor hresult hrange => exact ⟨hdivisor, n, hresult, hrange⟩
  · rintro ⟨hdivisor, n, hresult, hrange⟩
    exact .overflow a b n hdivisor hresult hrange

/-- A division overflows for one pair of integers only. -/
theorem call_div_eq_overflow_iff {a b : Int64} :
    call .div [.int a, .int b] = .error (.overflow "/") ↔ a.toInt = -2 ^ 63 ∧ b.toInt = -1 := by
  refine call_eq_overflow_iff.trans ?_
  constructor
  · rintro ⟨hdivisor, n, hresult, hrange⟩
    have hb : b.toInt ≠ 0 := fun hb => hdivisor ⟨rfl, Int64.toInt_inj.mp hb⟩
    obtain rfl := (isResult_iff hdivisor).mp hresult
    exact (quotient_out_of_range_iff hb).mp hrange
  · rintro ⟨ha, hb⟩
    have hne : b.toInt ≠ 0 := by omega
    have hdivisor : ¬(div = div ∧ b = 0) := by
      rintro ⟨-, rfl⟩
      exact hne rfl
    exact ⟨hdivisor, _, (isResult_iff hdivisor).mpr rfl,
      (quotient_out_of_range_iff hne).mpr ⟨ha, hb⟩⟩

/-- **What a call comes to, exactly.** The number of operands is wrong if and only if it is not two,
whatever the operands are. Two operands mismatch, with their kinds in order, if and only if they are
not two integers or two doubles. Two doubles always give a double. Two integers are a division by
zero if and only if the operator divides and the second is zero; otherwise there is one exact
result, the call overflows if and only if this is out of the 64-bit range, and else gives it. A
division overflows only for the least integer divided by minus one. -/
theorem call_outcomes (o : Operator) :
    (∀ vs, o.call vs = .error (.arity o.symbol 2 vs.length) ↔ vs.length ≠ 2) ∧
    (∀ left right, o.call [left, right] = .error (.mismatch o.symbol left.kind right.kind) ↔
      ¬((∃ a b, left = .int a ∧ right = .int b) ∨ ∃ x y, left = .real x ∧ right = .real y)) ∧
    (∀ x y, o.call [.real x, .real y] = .ok (.real (o.onReals x y))) ∧
    (∀ a b : Int64,
      (o.call [.int a, .int b] = .error (.divisionByZero o.symbol) ↔ o = .div ∧ b = 0) ∧
      (¬(o = .div ∧ b = 0) → ∃ n, (∀ m, o.IsResult a.toInt b.toInt m ↔ m = n) ∧
        (o.call [.int a, .int b] = .error (.overflow o.symbol) ↔ n < -2 ^ 63 ∨ 2 ^ 63 - 1 < n) ∧
        (-2 ^ 63 ≤ n → n ≤ 2 ^ 63 - 1 →
          ∃ c : Int64, c.toInt = n ∧ o.call [.int a, .int b] = .ok (.int c)))) ∧
    ∀ a b : Int64,
      call .div [.int a, .int b] = .error (.overflow "/") ↔ a.toInt = -2 ^ 63 ∧ b.toInt = -1 := by
  refine ⟨fun vs => call_eq_arity_iff, fun left right => call_eq_mismatch_iff,
    fun x y => call_eq_iff_gives.mpr (.reals x y), fun a b => ⟨call_eq_divisionByZero_iff, ?_⟩,
    fun a b => call_div_eq_overflow_iff⟩
  intro hdivisor
  have hresult : ∀ m, o.IsResult a.toInt b.toInt m ↔ m = o.onIntegers a.toInt b.toInt :=
    fun m => isResult_iff hdivisor
  refine ⟨o.onIntegers a.toInt b.toInt, hresult, ?_, ?_⟩
  · simp only [call_eq_overflow_iff, hresult, exists_eq_left, hdivisor, not_false_eq_true, true_and]
  · intro hlow hhigh
    have hc : (Int64.ofInt (o.onIntegers a.toInt b.toInt)).toInt = o.onIntegers a.toInt b.toInt :=
      Int64.toInt_ofInt_of_le hlow (Int.lt_of_le_sub_one hhigh)
    exact ⟨_, hc, call_eq_iff_gives.mpr (.integers a b _ hdivisor ((hresult _).mpr hc))⟩

/-- At the edge of the range, and with a dividend below zero: `-7` is `2` times
`-3` and `-1` over. -/
theorem call_outcomes_of_divisions :
    call .div [.int (-9223372036854775808), .int (-1)] = .error (.overflow "/") ∧
      call .div [.int (-7), .int 2] = .ok (.int (-3)) := by
  obtain ⟨-, -, -, hintegers, hoverflow⟩ := call_outcomes .div
  obtain ⟨n, hunique, -, hok⟩ := (hintegers (-7) 2).2 (by decide)
  have hquotient : IsQuotient (-7) 2 (-3) := ⟨-1, by decide, by decide, by decide⟩
  obtain rfl := (hunique (-3)).mp hquotient
  obtain ⟨c, hc, hcall⟩ := hok (by decide) (by decide)
  obtain rfl : c = -3 := Int64.toInt_inj.mp hc
  exact ⟨(hoverflow _ _).mpr ⟨by decide, by decide⟩, hcall⟩

end Operator

end CambridgePolish
