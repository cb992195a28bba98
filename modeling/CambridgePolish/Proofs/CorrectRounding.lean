import CambridgePolish.Proofs.Nearest

/-!
# Rounding is correct

The double that a decimal is rounded to is the one whose interval the decimal lies in, ties going to
the even rank: `Binary64.ofDecimal_eq_ofRank_iff` says so for every decimal and every finite double.
One half is `Binary64.nearestRank_eq_of_roundsTo`, that rounding finds the rank of every number in
an interval; the other half, that the number lies in the interval of the rank that was found, is
`Binary64.roundsTo_nearestRank`.

Before it is rounded, a decimal with an exponent far from zero gets a nearer one. That
this changes no rounding is `Binary64.nearestRank_tame`: such a decimal is infinite,
or rounds to zero, either way.
-/

namespace CambridgePolish

namespace Binary64

/-! ### The number lies in the interval of its rank -/

/-- What the exponent that rounding chooses says about the number. -/
theorem bounds_of_exponent_eq {num den e : Nat} (hden : 0 < den)
    (h : (num / den).log2 - 52 = e) :
    num < den * 2 ^ (e + 53) ∧ (e = 0 ∨ den * 2 ^ (e + 52) ≤ num) := by
  constructor
  · have hlt : num / den < 2 ^ (e + 53) :=
      Nat.lt_of_lt_of_le Nat.lt_log2_self (Nat.pow_le_pow_right (by decide) (by omega))
    rw [Nat.mul_comm]
    exact (Nat.div_lt_iff_lt_mul hden).mp hlt
  · rcases Nat.eq_zero_or_pos e with h0 | hpos
    · exact Or.inl h0
    · right
      have hne : num / den ≠ 0 := by
        intro h0
        rw [h0, show Nat.log2 0 = 0 by rfl] at h
        omega
      have hle : 2 ^ (e + 52) ≤ num / den := by
        rw [← Nat.le_log2 hne]
        omega
      rw [Nat.mul_comm]
      exact (Nat.le_div_iff_mul_le hden).mp hle

/-- The significand that rounding computes has at most fifty-three bits, or is the first number with
more, and exactly fifty-three unless the exponent is zero. -/
theorem significand_bounds {num den e : Nat} (hden : 0 < den) (h : (num / den).log2 - 52 = e) :
    roundDiv num (den * 2 ^ e) ≤ 2 ^ 53 ∧ (e = 0 ∨ 2 ^ 52 ≤ roundDiv num (den * 2 ^ e)) := by
  have hpos : 0 < den * 2 ^ e := Nat.mul_pos hden (Nat.two_pow_pos e)
  obtain ⟨hhigh, hlow⟩ := bounds_of_exponent_eq hden h
  have hrounded := isRounded_roundDiv num hpos
  generalize roundDiv num (den * 2 ^ e) = m at *
  constructor
  · by_contra hgt
    have := Nat.mul_le_mul_right (den * 2 ^ e) (show 2 ^ 53 + 1 ≤ m by omega)
    rw [pow_add 2 e 53] at hhigh
    linarith [hrounded.low]
  · refine hlow.imp_right fun hlow => ?_
    by_contra hlt
    have := Nat.mul_le_mul_right (den * 2 ^ e) (show m + 1 ≤ 2 ^ 52 by omega)
    rw [pow_add 2 e 52] at hlow
    linarith [hrounded.high]

/-- **The number lies in the interval of the rank that rounding finds.** -/
theorem roundsTo_nearestRank {num den : Nat} (hden : 0 < den)
    (hfinite : nearestRank num den < infinityRank) : RoundsTo (nearestRank num den) num den := by
  obtain ⟨e, he⟩ : ∃ e, (num / den).log2 - 52 = e := ⟨_, rfl⟩
  have hpos : 0 < den * 2 ^ e := Nat.mul_pos hden (Nat.two_pow_pos e)
  obtain ⟨hhigh, hlow⟩ := bounds_of_exponent_eq hden he
  obtain ⟨hm, hnormal⟩ := significand_bounds hden he
  have hrounded := isRounded_roundDiv num hpos
  have hrank : nearestRank num den = e * 2 ^ 52 + roundDiv num (den * 2 ^ e) := by
    simp only [nearestRank, natPow_eq, he] at hfinite ⊢
    omega
  rw [hrank]
  generalize roundDiv num (den * 2 ^ e) = m at *
  rcases Nat.lt_or_eq_of_le hm with hlt | rfl
  · rcases Nat.eq_zero_or_pos e with rfl | he0
    · exact (roundsTo_iff_isRounded hlt (Or.inl rfl)).mpr hrounded
    · have hlow := hlow.resolve_left he0.ne'
      rcases Nat.lt_or_eq_of_le (hnormal.resolve_left he0.ne') with hgt | rfl
      · exact (roundsTo_iff_isRounded hlt (Or.inr hgt)).mpr hrounded
      · -- the number is not below the least magnitude of its binade, where the spacing is finer
        obtain ⟨k, rfl⟩ := Nat.exists_eq_succ_of_ne_zero he0.ne'
        have hup := hrounded.high
        rw [Nat.succ_eq_add_one, pow_add 2 (k + 1) 52, pow_succ 2 k] at hlow
        rw [Nat.succ_eq_add_one, pow_succ 2 k] at hup
        exact roundsTo_binade_start_iff.mpr ⟨by linarith, by linarith⟩
  · -- the number is rounded up to the next binade
    rw [show e * 2 ^ 52 + 2 ^ 53 = (e + 1) * 2 ^ 52 + 2 ^ 52 by omega]
    have hdown := hrounded.low
    rw [pow_add 2 e 53] at hhigh
    exact roundsTo_binade_start_iff.mpr ⟨by linarith, by linarith⟩

/-! ### Far from zero, and near it -/

/-- From `2 ^ 1024` on, every number is infinite. -/
theorem nearestRank_eq_infinityRank {num den : Nat} (hden : 0 < den)
    (h : 1024 + unitPlaces ≤ (num / den).log2) : nearestRank num den = infinityRank := by
  rw [unitPlaces] at h
  have hexp : (num / den).log2 - 52 ≠ 0 := by omega
  have hm := (significand_bounds hden rfl).2.resolve_left hexp
  simp only [nearestRank, natPow_eq, infinityRank]
  omega

/-- Up to half a unit, every number rounds to zero. -/
theorem nearestRank_eq_zero {num den : Nat} (hden : 0 < den) (h : 2 * num ≤ den) :
    nearestRank num den = 0 := by
  refine nearestRank_eq_of_roundsTo hden (by decide) ⟨?_, ?_, nofun⟩
  · rw [Nat.zero_sub, units_zero, Nat.zero_mul]
    exact Nat.zero_le _
  · rw [units_zero, Nat.zero_add, Nat.zero_add, show units 1 = 1 by rfl, Nat.one_mul]
    exact h

end Binary64

namespace Decimal

theorem inUnits_pos (d : Decimal) : 0 < d.inUnits.2 := by
  obtain ⟨c, e | e⟩ := d
  · exact Nat.one_pos
  · exact Nat.pow_pos (by decide)

/-- A power of two is below the power of ten with three tenths of its exponent,
and a little more. -/
theorem two_pow_le_ten_pow {j k : Nat} (h : 10 * j ≤ 33 * k) : 2 ^ j ≤ 10 ^ k := by
  rw [← Nat.pow_le_pow_iff_left (show 10 ≠ 0 by decide)]
  calc (2 ^ j) ^ 10 = 2 ^ (10 * j) := by rw [← Nat.pow_mul, Nat.mul_comm]
    _ ≤ 2 ^ (33 * k) := Nat.pow_le_pow_right (by decide) h
    _ = (2 ^ 33) ^ k := Nat.pow_mul 2 33 k
    _ ≤ (10 ^ 10) ^ k := Nat.pow_le_pow_left (by decide) k
    _ = (10 ^ k) ^ 10 := Nat.pow_right_comm 10 10 k

/-- A power of ten is below the power of two with ten thirds of its exponent. -/
theorem ten_pow_le_two_pow {j k : Nat} (h : 10 * k ≤ 3 * j) : 10 ^ k ≤ 2 ^ j := by
  rw [← Nat.pow_le_pow_iff_left (show 3 ≠ 0 by decide)]
  calc (10 ^ k) ^ 3 = (10 ^ 3) ^ k := Nat.pow_right_comm 10 k 3
    _ ≤ (2 ^ 10) ^ k := Nat.pow_le_pow_left (by decide) k
    _ = 2 ^ (10 * k) := (Nat.pow_mul 2 10 k).symm
    _ ≤ 2 ^ (3 * j) := Nat.pow_le_pow_right (by decide) h
    _ = (2 ^ j) ^ 3 := by rw [← Nat.pow_mul, Nat.mul_comm]

/-- A decimal is less than half a unit when its exponent is far below zero. -/
theorem two_mul_lt_ten_pow {c k : Nat} (h : c.log2 + 400 ≤ k) :
    2 * (c * Binary64.unitsPerOne) < 10 ^ k := by
  have hcoefficient : 2 * c < 2 ^ (c.log2 + 2) := by
    have := Nat.lt_log2_self (n := c)
    rw [Nat.pow_succ]
    omega
  calc 2 * (c * Binary64.unitsPerOne)
      = 2 * c * Binary64.unitsPerOne := (Nat.mul_assoc 2 c _).symm
    _ < 2 ^ (c.log2 + 2) * Binary64.unitsPerOne :=
        Nat.mul_lt_mul_of_pos_right hcoefficient Binary64.unitsPerOne_pos
    _ = 2 ^ (c.log2 + 2 + Binary64.unitPlaces) := Binary64.two_pow_mul_unitsPerOne _
    _ ≤ 10 ^ k := two_pow_le_ten_pow (by rw [Binary64.unitPlaces]; omega)

/-- A decimal other than zero is infinite when its exponent is far above zero. -/
theorem le_log2_mul_ten_pow {c k : Nat} (hc : 0 < c) (h : 400 ≤ k) :
    1024 + Binary64.unitPlaces ≤ (c * 10 ^ k * Binary64.unitsPerOne).log2 := by
  have hpos : 0 < c * 10 ^ k * Binary64.unitsPerOne :=
    Nat.mul_pos (Nat.mul_pos hc (Nat.pow_pos (by decide))) Binary64.unitsPerOne_pos
  rw [Nat.le_log2 hpos.ne']
  rw [← Binary64.two_pow_mul_unitsPerOne]
  refine Nat.mul_le_mul_right _ ?_
  exact Nat.le_trans (two_pow_le_ten_pow (by omega)) (Nat.le_mul_of_pos_left _ hc)

end Decimal

namespace Binary64

/-- A decimal with a large exponent is zero or infinite. -/
theorem nearestRank_inUnits_large {c k : Nat} (h : 400 ≤ k) :
    nearestRank (Decimal.inUnits ⟨c, (k : Int)⟩).1 (Decimal.inUnits ⟨c, (k : Int)⟩).2 =
      if c = 0 then 0 else infinityRank := by
  rw [Decimal.inUnits_nat]
  split_ifs with hc
  · rw [hc, Nat.zero_mul, Nat.zero_mul]
    exact nearestRank_eq_zero Nat.one_pos (Nat.zero_le _)
  · refine nearestRank_eq_infinityRank Nat.one_pos ?_
    rw [Nat.div_one]
    exact Decimal.le_log2_mul_ten_pow (Nat.pos_of_ne_zero hc) h

/-- A decimal with an exponent far below zero rounds to zero. -/
theorem nearestRank_inUnits_small {c k : Nat} (h : c.log2 + 400 ≤ k) :
    nearestRank (Decimal.inUnits ⟨c, -(k : Int)⟩).1 (Decimal.inUnits ⟨c, -(k : Int)⟩).2 = 0 := by
  rw [Decimal.inUnits_neg]
  exact nearestRank_eq_zero (Nat.pow_pos (by decide)) (Decimal.two_mul_lt_ten_pow h).le

/-- **Taming changes no rounding.** -/
theorem nearestRank_tame (d : Decimal) :
    nearestRank d.tame.inUnits.1 d.tame.inUnits.2 = nearestRank d.inUnits.1 d.inUnits.2 := by
  obtain ⟨c, j⟩ := d
  rcases Int.lt_or_le 400 j with hlarge | hle
  · obtain ⟨k, rfl⟩ := Int.eq_ofNat_of_zero_le (show 0 ≤ j by omega)
    have htame : Decimal.tame ⟨c, (k : Int)⟩ = ⟨c, (400 : Nat)⟩ := by
      simp only [Decimal.tame, Decimal.mk.injEq, true_and]
      omega
    rw [htame, nearestRank_inUnits_large (Nat.le_refl 400), nearestRank_inUnits_large (by omega)]
  · rcases Int.lt_or_le j (-(c.log2 + 400 : Nat)) with hsmall | hge
    · obtain ⟨k, rfl⟩ := Int.exists_eq_neg_ofNat (show j ≤ 0 by omega)
      have htame : Decimal.tame ⟨c, -(k : Int)⟩ = ⟨c, -((c.log2 + 400 : Nat) : Int)⟩ := by
        simp only [Decimal.tame, Decimal.mk.injEq, true_and]
        omega
      rw [htame, nearestRank_inUnits_small (Nat.le_refl _), nearestRank_inUnits_small (by omega)]
    · have htame : Decimal.tame ⟨c, j⟩ = ⟨c, j⟩ := by
        simp only [Decimal.tame, Decimal.mk.injEq, true_and]
        omega
      rw [htame]

/-! ### Reading a decimal -/

theorem ofDecimal_eq (negative : Bool) (d : Decimal) :
    ofDecimal negative d = ofRank negative (nearestRank d.inUnits.1 d.inUnits.2) := by
  have htamed : ofDecimal negative d =
    ofRank negative (nearestRank d.tame.inUnits.1 d.tame.inUnits.2) := rfl
  rw [htamed, nearestRank_tame]

theorem rank_ofRank (negative : Bool) {n : Nat} (hn : n ≤ infinityRank) :
    (ofRank negative n).rank = n := by
  have hlt : infinityRank < 2 ^ 63 := by decide
  rw [rank, ofRank, UInt64.toNat_ofNat', natPow_eq]
  cases negative with
  | false =>
    simp only [Bool.false_eq_true, if_false]
    omega
  | true =>
    simp only [if_true]
    omega

theorem nearestRank_le (num den : Nat) : nearestRank num den ≤ infinityRank :=
  Nat.min_le_left _ _

theorem rank_ofDecimal (negative : Bool) (d : Decimal) :
    (ofDecimal negative d).rank = nearestRank d.inUnits.1 d.inUnits.2 := by
  rw [ofDecimal_eq, rank_ofRank negative (nearestRank_le _ _)]

/-- A decimal lies in the interval of the double that it is rounded to. -/
theorem roundsTo_rank_ofDecimal {negative : Bool} {d : Decimal}
    (h : (ofDecimal negative d).rank < infinityRank) :
    RoundsTo (ofDecimal negative d).rank d.inUnits.1 d.inUnits.2 := by
  rw [rank_ofDecimal] at h ⊢
  exact roundsTo_nearestRank d.inUnits_pos h

/-- **Rounding is correct**: a decimal is rounded to a finite double exactly when it lies in the
interval of this double. -/
theorem ofDecimal_eq_ofRank_iff {negative : Bool} {d : Decimal} {n : Nat} (hn : n < infinityRank) :
    ofDecimal negative d = ofRank negative n ↔ RoundsTo n d.inUnits.1 d.inUnits.2 := by
  constructor
  · intro h
    have hrank : (ofDecimal negative d).rank = n := by rw [h, rank_ofRank negative hn.le]
    rw [← hrank] at hn ⊢
    exact roundsTo_rank_ofDecimal hn
  · intro h
    rw [ofDecimal_eq, nearestRank_eq_of_roundsTo d.inUnits_pos hn h]

end Binary64

end CambridgePolish
