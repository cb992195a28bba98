import CambridgePolish.Binary64.Shortest
import Mathlib.Tactic.Linarith
import Mathlib.Tactic.Ring

/-!
# Between two half-way points

A double stands for all numbers that are nearer to it than to its neighbours, and for the two
half-way points if its rank is even (`Binary64.RoundsTo`). The printer only gives out
decimals in this interval (`Binary64.roundsTo_shortest`), and the reader finds the rank back
from any number in it (`Binary64.nearestRank_eq_of_roundsTo`); together they are the reason
why a printed double reads back.

A rank `e * 2 ^ 52 + m` has magnitude `m * 2 ^ e` as long as `m` has at most fifty-three bits, and
exactly fifty-three unless `e` is zero (`Binary64.units_eq`). The spacing around it is `2 ^ e` on
both sides, with one exception: below the least magnitude of a binade, where `m` is `2 ^ 52`, it is
half of that. The reader meets this exception when a number just below such a magnitude is rounded
up to it: it then works with the exponent of the binade below.
-/

namespace CambridgePolish

theorem natPow_eq (b n : Nat) : Nat.pow b n = b ^ n := rfl

namespace Decimal

/-- The magnitude of a decimal that is a whole number. -/
theorem inUnits_nat (c k : Nat) :
    inUnits ⟨c, (k : Int)⟩ = (c * 10 ^ k * Binary64.unitsPerOne, 1) := rfl

/-- The magnitude of a decimal with digits behind the point. -/
theorem inUnits_neg (c k : Nat) :
    inUnits ⟨c, -(k : Int)⟩ = (c * Binary64.unitsPerOne, 10 ^ k) := by
  cases k with
  | zero => exact (inUnits_nat c 0).trans (by rw [Nat.pow_zero, Nat.mul_one])
  | succ k => rfl

end Decimal

/-- **A quotient is rounded to `m`**: it lies within one half of `m`, and a tie is good
enough for an even `m` only. -/
structure IsRounded (num den m : Nat) : Prop where
  low : 2 * (m * den) ≤ 2 * num + den
  high : 2 * num ≤ 2 * (m * den) + den
  odd : m % 2 = 1 → 2 * (m * den) < 2 * num + den ∧ 2 * num < 2 * (m * den) + den

theorem isRounded_roundDiv (num : Nat) {den : Nat} (hden : 0 < den) :
    IsRounded num den (roundDiv num den) := by
  have hdiv : num = num / den * den + num % den := (Nat.div_add_mod' num den).symm
  have hmod : num % den < den := Nat.mod_lt num hden
  rw [roundDiv]
  generalize num / den = q at *
  generalize num % den = r at *
  subst hdiv
  have hsucc : (q + 1) * den = q * den + den := Nat.succ_mul q den
  split_ifs with hlt hgt
  · constructor <;> omega
  · constructor <;> omega
  · -- a tie, which is rounded to the even neighbour
    rcases Nat.mod_two_eq_zero_or_one q with heven | hodd
    · rw [heven, Nat.add_zero]
      constructor <;> omega
    · rw [hodd]
      constructor <;> omega

theorem roundDiv_eq {num den m : Nat} (hden : 0 < den) (h : IsRounded num den m) :
    roundDiv num den = m := by
  obtain ⟨hlow, hhigh, hodd⟩ := h
  have hdiv : num = num / den * den + num % den := (Nat.div_add_mod' num den).symm
  have hmod : num % den < den := Nat.mod_lt num hden
  rw [roundDiv]
  generalize num / den = q at *
  generalize num % den = r at *
  subst hdiv
  -- the quotient is `q` and a remainder below one, so only `q` and `q + 1` can be meant
  have hle : m ≤ q + 1 := by
    by_contra hgt
    have := Nat.mul_le_mul_right den (show q + 2 ≤ m by omega)
    rw [Nat.add_mul] at this
    omega
  have hge : q ≤ m := by
    by_contra hlt
    have := Nat.mul_le_mul_right den (show m + 1 ≤ q by omega)
    rw [Nat.add_mul] at this
    omega
  rcases Nat.eq_or_lt_of_le hge with rfl | hlt
  · split_ifs <;> omega
  · obtain rfl : m = q + 1 := by omega
    rw [Nat.add_mul] at hlow hhigh hodd
    split_ifs <;> omega

namespace Binary64

/-! ### Magnitudes -/

theorem units_zero : units 0 = 0 := rfl

/-- **The magnitude of a rank** by its exponent and its significand, also where the significand is
the first of the next binade. -/
theorem units_eq {e m : Nat} (hm : m ≤ 2 ^ 53) (hnormal : e = 0 ∨ 2 ^ 52 ≤ m) :
    units (e * 2 ^ 52 + m) = m * 2 ^ e := by
  simp only [units, natPow_eq]
  rcases Nat.lt_or_ge m (2 ^ 52) with hlt | hge
  · obtain rfl : e = 0 := by omega
    rw [if_pos (by omega), Nat.zero_mul, Nat.zero_add, Nat.pow_zero, Nat.mul_one]
  · rw [if_neg (by omega)]
    rcases Nat.lt_or_ge m (2 ^ 53) with hlt | hge
    · rw [show (e * 2 ^ 52 + m) % 2 ^ 52 = m - 2 ^ 52 by omega,
        show (e * 2 ^ 52 + m) / 2 ^ 52 - 1 = e by omega, Nat.add_sub_cancel' (by omega)]
    · obtain rfl : m = 2 ^ 53 := by omega
      rw [show (e * 2 ^ 52 + 2 ^ 53) % 2 ^ 52 = 0 by omega,
        show (e * 2 ^ 52 + 2 ^ 53) / 2 ^ 52 - 1 = e + 1 by omega, Nat.pow_succ]
      ring

/-- Every rank has an exponent and a significand. -/
theorem exists_significand (n : Nat) :
    ∃ e m, n = e * 2 ^ 52 + m ∧ m < 2 ^ 53 ∧ (e = 0 ∨ 2 ^ 52 ≤ m) := by
  rcases Nat.lt_or_ge n (2 ^ 52) with hlt | hge
  · exact ⟨0, n, by omega, by omega, Or.inl rfl⟩
  · exact ⟨n / 2 ^ 52 - 1, 2 ^ 52 + n % 2 ^ 52, by omega, by omega, Or.inr (by omega)⟩

/-- The next magnitude is one significand further. -/
theorem units_succ {e m : Nat} (hm : m < 2 ^ 53) (hnormal : e = 0 ∨ 2 ^ 52 ≤ m) :
    units (e * 2 ^ 52 + m + 1) = (m + 1) * 2 ^ e := by
  rw [Nat.add_assoc]
  exact units_eq hm (by omega)

/-- Magnitudes grow with the rank. -/
theorem units_lt_units_succ (n : Nat) : units n < units (n + 1) := by
  obtain ⟨e, m, rfl, hm, hnormal⟩ := exists_significand n
  rw [units_eq (by omega) hnormal, units_succ hm hnormal]
  exact Nat.mul_lt_mul_of_pos_right (Nat.lt_succ_self m) (Nat.two_pow_pos e)

theorem units_pos {n : Nat} (hn : 0 < n) : 0 < units n := by
  obtain ⟨k, rfl⟩ := Nat.exists_eq_succ_of_ne_zero hn.ne'
  exact Nat.zero_lt_of_lt (units_lt_units_succ k)

/-! ### The interval of a double -/

/-- **The number `num / den`, in units, belongs to rank `n`**: it lies between the half-way points
to the two neighbours, and is none of them if `n` is odd. -/
structure RoundsTo (n num den : Nat) : Prop where
  low : (units (n - 1) + units n) * den ≤ 2 * num
  high : 2 * num ≤ (units n + units (n + 1)) * den
  odd : n % 2 = 1 →
    (units (n - 1) + units n) * den < 2 * num ∧ 2 * num < (units n + units (n + 1)) * den

/-- The same number with another denominator belongs to the same rank. -/
theorem RoundsTo.scale {n num den : Nat} (h : RoundsTo n num den) {k : Nat} (hk : 0 < k) :
    RoundsTo n (num * k) (den * k) := by
  refine ⟨?_, ?_, fun hodd => ⟨?_, ?_⟩⟩
  · rw [← Nat.mul_assoc, ← Nat.mul_assoc]
    exact Nat.mul_le_mul_right k h.low
  · rw [← Nat.mul_assoc, ← Nat.mul_assoc]
    exact Nat.mul_le_mul_right k h.high
  · rw [← Nat.mul_assoc, ← Nat.mul_assoc]
    exact Nat.mul_lt_mul_of_pos_right (h.odd hodd).1 hk
  · rw [← Nat.mul_assoc, ← Nat.mul_assoc]
    exact Nat.mul_lt_mul_of_pos_right (h.odd hodd).2 hk

theorem rounds_eq_true_iff {n : Nat} {d : Decimal} :
    rounds n d = true ↔ RoundsTo n d.inUnits.1 d.inUnits.2 := by
  rw [rounds]
  split_ifs with heven
  · simp only [Bool.and_eq_true, decide_eq_true_eq]
    exact ⟨fun h => ⟨h.1, h.2, fun hodd => by omega⟩, fun h => ⟨h.low, h.high⟩⟩
  · simp only [Bool.and_eq_true, decide_eq_true_eq]
    exact ⟨fun h => ⟨h.1.le, h.2.le, fun _ => h⟩, fun h => h.odd (by omega)⟩

/-! ### The reader finds the rank -/

/-- The exponent that the reader chooses: the one with which the significand has fifty-three
bits, or zero if it has fewer. -/
theorem exponent_eq {num den e : Nat} (hden : 0 < den) (hhigh : num < den * 2 ^ (e + 53))
    (hlow : e = 0 ∨ den * 2 ^ (e + 52) ≤ num) : (num / den).log2 - 52 = e := by
  have hlt : num / den < 2 ^ (e + 53) := Nat.div_lt_of_lt_mul hhigh
  rcases Nat.eq_zero_or_pos (num / den) with h0 | hpos
  · rcases hlow with rfl | hlow
    · rw [h0]
      rfl
    · have := Nat.div_pos (Nat.le_trans (Nat.le_mul_of_pos_right den (Nat.two_pow_pos _)) hlow) hden
      omega
  · have hlog : (num / den).log2 < e + 53 := (Nat.log2_lt hpos.ne').mpr hlt
    rcases hlow with rfl | hlow
    · omega
    · have : e + 52 ≤ (num / den).log2 := by
        rw [Nat.le_log2 hpos.ne', Nat.le_div_iff_mul_le hden, Nat.mul_comm]
        exact hlow
      omega

/-- The reader's rank, from the exponent it chooses and the significand it rounds to. -/
theorem nearestRank_eq {num den e m : Nat} (hexp : (num / den).log2 - 52 = e)
    (hround : roundDiv num (den * 2 ^ e) = m) (hfinite : e * 2 ^ 52 + m < infinityRank) :
    nearestRank num den = e * 2 ^ 52 + m := by
  simp only [nearestRank, natPow_eq, hexp, hround]
  exact Nat.min_eq_right hfinite.le

/-- The regular case: the spacing is the same on both sides, so that the number belongs to the rank
when the significand is rounded from it. -/
theorem roundsTo_iff_isRounded {num den e m : Nat} (hm : m < 2 ^ 53)
    (hnormal : e = 0 ∨ 2 ^ 52 < m) :
    RoundsTo (e * 2 ^ 52 + m) num den ↔ IsRounded num (den * 2 ^ e) m := by
  have hself := units_eq (e := e) (m := m) hm.le (by omega)
  have hnext := units_succ (e := e) hm (by omega)
  have hparity : (e * 2 ^ 52 + m) % 2 = m % 2 := by omega
  cases m with
  | zero =>
    -- rank zero has no lower neighbour and stands in for it
    obtain rfl : e = 0 := by omega
    constructor
    · rintro ⟨-, hhigh, -⟩
      rw [hself, hnext] at hhigh
      exact ⟨by omega, by linarith, nofun⟩
    · rintro ⟨-, hhigh, -⟩
      refine ⟨?_, ?_, nofun⟩
      · rw [Nat.zero_mul, Nat.add_zero, Nat.zero_sub, units_zero, Nat.zero_mul]
        exact Nat.zero_le _
      · rw [hself, hnext]
        linarith
  | succ k =>
    have hprev : units (e * 2 ^ 52 + (k + 1) - 1) = k * 2 ^ e := by
      rw [show e * 2 ^ 52 + (k + 1) - 1 = e * 2 ^ 52 + k by omega]
      exact units_eq (by omega) (by omega)
    constructor
    · rintro ⟨hlow, hhigh, hodd⟩
      rw [hparity] at hodd
      rw [hprev, hself] at hlow
      rw [hself, hnext] at hhigh
      rw [hprev, hself, hnext] at hodd
      exact ⟨by linarith, by linarith,
        fun h => ⟨by linarith [(hodd h).1], by linarith [(hodd h).2]⟩⟩
    · rintro ⟨hlow, hhigh, hodd⟩
      refine ⟨?_, ?_, fun h => ?_⟩
      · rw [hprev, hself]
        linarith
      · rw [hself, hnext]
        linarith
      · rw [hprev, hself, hnext]
        obtain ⟨hlt, hgt⟩ := hodd (hparity ▸ h)
        exact ⟨by linarith, by linarith⟩

theorem nearestRank_eq_of_same_binade {num den e m : Nat} (hden : 0 < den) (hm : m < 2 ^ 53)
    (hnormal : e = 0 ∨ 2 ^ 52 < m) (hfinite : e * 2 ^ 52 + m < infinityRank)
    (h : RoundsTo (e * 2 ^ 52 + m) num den) : nearestRank num den = e * 2 ^ 52 + m := by
  have hpos : 0 < den * 2 ^ e := Nat.mul_pos hden (Nat.two_pow_pos e)
  have hrounded := (roundsTo_iff_isRounded hm hnormal).mp h
  refine nearestRank_eq (exponent_eq hden ?_ ?_) (roundDiv_eq hpos hrounded) hfinite
  · have := Nat.mul_le_mul_right (den * 2 ^ e) (show m + 1 ≤ 2 ^ 53 by omega)
    rw [pow_add 2 e 53]
    linarith [hrounded.high]
  · refine hnormal.imp_right fun hm52 => ?_
    have := Nat.mul_le_mul_right (den * 2 ^ e) (show 2 ^ 52 + 1 ≤ m by omega)
    rw [pow_add 2 e 52]
    linarith [hrounded.low]

/-- The exceptional case: the least magnitude of a binade, whose lower neighbour is nearer than the
upper one. Its rank is even, so that ties need no attention. -/
theorem roundsTo_binade_start_iff {num den e : Nat} :
    RoundsTo ((e + 1) * 2 ^ 52 + 2 ^ 52) num den ↔
      2 ^ 54 * (den * 2 ^ e) ≤ 2 * num + den * 2 ^ e ∧
        2 * num ≤ 2 ^ 54 * (den * 2 ^ e) + 2 * (den * 2 ^ e) := by
  have hself := units_eq (e := e + 1) (m := 2 ^ 52) (by omega) (by omega)
  have hnext := units_succ (e := e + 1) (m := 2 ^ 52) (by omega) (by omega)
  have hprev : units ((e + 1) * 2 ^ 52 + 2 ^ 52 - 1) = 9007199254740991 * 2 ^ e := by
    rw [show (e + 1) * 2 ^ 52 + 2 ^ 52 - 1 = e * 2 ^ 52 + 9007199254740991 by omega]
    exact units_eq (by omega) (by omega)
  rw [pow_succ 2 e] at hself hnext
  constructor
  · rintro ⟨hlow, hhigh, -⟩
    rw [hprev, hself] at hlow
    rw [hself, hnext] at hhigh
    exact ⟨by linarith, by linarith⟩
  · rintro ⟨hlow, hhigh⟩
    refine ⟨?_, ?_, fun hodd => absurd hodd (by omega)⟩
    · rw [hprev, hself]
      linarith
    · rw [hself, hnext]
      linarith

theorem nearestRank_eq_of_binade_start {num den e : Nat} (hden : 0 < den)
    (hfinite : (e + 1) * 2 ^ 52 + 2 ^ 52 < infinityRank)
    (h : RoundsTo ((e + 1) * 2 ^ 52 + 2 ^ 52) num den) :
    nearestRank num den = (e + 1) * 2 ^ 52 + 2 ^ 52 := by
  have hpos : 0 < den * 2 ^ e := Nat.mul_pos hden (Nat.two_pow_pos e)
  obtain ⟨hlow, hhigh⟩ := roundsTo_binade_start_iff.mp h
  rcases Nat.lt_or_ge num (den * 2 ^ (e + 53)) with hbelow | habove
  · -- the number is rounded up from the binade below
    rw [pow_add 2 e 53] at hbelow
    have hrank : (e + 1) * 2 ^ 52 + 2 ^ 52 = e * 2 ^ 52 + 2 ^ 53 := by omega
    rw [hrank] at hfinite ⊢
    refine nearestRank_eq (exponent_eq hden ?_ (Or.inr ?_)) (roundDiv_eq hpos ⟨?_, ?_, ?_⟩) hfinite
    · rw [pow_add 2 e 53]
      exact hbelow
    · rw [pow_add 2 e 52]
      linarith
    · linarith
    · linarith
    · omega
  · rw [pow_add 2 e 53] at habove
    refine nearestRank_eq (exponent_eq hden ?_ (Or.inr ?_))
      (roundDiv_eq (Nat.mul_pos hden (Nat.two_pow_pos _)) ⟨?_, ?_, ?_⟩) hfinite
    · rw [pow_add 2 (e + 1) 53, pow_succ 2 e]
      linarith
    · rw [pow_add 2 (e + 1) 52, pow_succ 2 e]
      linarith
    · rw [pow_succ 2 e]
      linarith
    · rw [pow_succ 2 e]
      linarith
    · omega

/-- **The reader finds the rank** of every number that belongs to a finite double. -/
theorem nearestRank_eq_of_roundsTo {n num den : Nat} (hden : 0 < den) (hn : n < infinityRank)
    (h : RoundsTo n num den) : nearestRank num den = n := by
  obtain ⟨e, m, rfl, hm, hnormal⟩ := exists_significand n
  rcases Nat.eq_zero_or_pos e with rfl | he
  · exact nearestRank_eq_of_same_binade hden hm (Or.inl rfl) hn h
  · rcases Nat.eq_or_lt_of_le (hnormal.resolve_left he.ne') with rfl | hlt
    · obtain ⟨k, rfl⟩ := Nat.exists_eq_succ_of_ne_zero he.ne'
      exact nearestRank_eq_of_binade_start hden hn h
    · exact nearestRank_eq_of_same_binade hden hm (Or.inr hlt) hn h

/-! ### The printer stays in the interval -/

theorem rounds_of_candidate? {n : Nat} {j : Int} {d : Decimal} (h : candidate? n j = some d) :
    rounds n d = true := by
  simp only [candidate?] at h
  split at h
  · next hbelow habove =>
    obtain rfl := Option.some.inj h
    split_ifs
    · exact hbelow
    · exact habove
  · next hbelow _ =>
    obtain rfl := Option.some.inj h
    exact hbelow
  · next _ habove =>
    obtain rfl := Option.some.inj h
    exact habove
  · exact absurd h nofun

/-- A magnitude belongs to its rank. -/
theorem roundsTo_units {n den : Nat} (hden : 0 < den) (hn : 0 < n) :
    RoundsTo n (units n * den) den := by
  have hprev : units (n - 1) * den < units n * den := by
    have := units_lt_units_succ (n - 1)
    rw [Nat.sub_add_cancel hn] at this
    exact Nat.mul_lt_mul_of_pos_right this hden
  have hnext : units n * den < units (n + 1) * den :=
    Nat.mul_lt_mul_of_pos_right (units_lt_units_succ n) hden
  refine ⟨?_, ?_, fun _ => ⟨?_, ?_⟩⟩ <;> linarith

-- in the next three proofs the exponent is a variable first: a power of two with all its digits is
-- nothing to compute with
theorem unitsPerOne_pos : 0 < unitsPerOne := by
  have hpow (j : Nat) : 0 < Nat.pow 2 j := Nat.two_pow_pos j
  unfold unitsPerOne
  exact hpow unitPlaces

theorem two_pow_mul_unitsPerOne (k : Nat) : 2 ^ k * unitsPerOne = 2 ^ (k + unitPlaces) := by
  have hpow (j : Nat) : 2 ^ k * Nat.pow 2 j = 2 ^ (k + j) := (Nat.pow_add 2 k j).symm
  unfold unitsPerOne
  exact hpow unitPlaces

theorem five_pow_mul_unitsPerOne : Nat.pow 5 unitPlaces * unitsPerOne = 10 ^ unitPlaces := by
  have hpow (j : Nat) : Nat.pow 5 j * Nat.pow 2 j = 10 ^ j := by
    rw [natPow_eq, natPow_eq, ← Nat.mul_pow]
  unfold unitsPerOne
  exact hpow unitPlaces

/-- **The printer stays in the interval.** -/
theorem roundsTo_shortest (n : Nat) :
    RoundsTo n (shortest n).inUnits.1 (shortest n).inUnits.2 := by
  rw [shortest]
  split_ifs with h0
  · subst h0
    have hunits : Decimal.inUnits ⟨0, 0⟩ = (0 * 10 ^ 0 * unitsPerOne, 1) :=
      Decimal.inUnits_nat 0 0
    rw [hunits, Nat.zero_mul, Nat.zero_mul]
    exact ⟨Nat.le_refl 0, Nat.zero_le _, nofun⟩
  · cases hfind : (List.range 40).findSome? fun i : Nat => candidate? n (coarsest n - i) with
    | some d =>
      obtain ⟨i, -, hcandidate⟩ := List.exists_of_findSome?_eq_some hfind
      exact rounds_eq_true_iff.mp (rounds_of_candidate? hcandidate)
    | none =>
      rw [Option.getD_none, allDigits, Decimal.inUnits_neg, Nat.mul_assoc, five_pow_mul_unitsPerOne]
      exact roundsTo_units (Nat.pow_pos (by decide)) (Nat.pos_of_ne_zero h0)

end Binary64

end CambridgePolish
