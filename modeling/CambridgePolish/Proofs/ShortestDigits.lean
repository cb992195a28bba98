import CambridgePolish.Proofs.Numerals
import Mathlib.Algebra.Order.Field.Power
import Mathlib.Data.Nat.Digits.Defs
import Mathlib.Data.Rat.Cast.Order
import Mathlib.Order.Interval.Set.OrdConnected

/-!
# The printed digits are the fewest

No decimal that rounds to a double has fewer digits than the one the double is printed from
(`Binary64.length_digits_shortest_le`).

The decimals of a given exponent are the points of a **grid**, and a coarse grid is part of every
finer one. The search goes through the grids from a coarse one on and stops at the first that has a
point in the interval of the double. Three facts make its answer the shortest:

* it misses no point: if any point of a grid is in the interval, so is one of the two neighbours of
  the magnitude, since the interval has no gaps (`Binary64.candidate?_eq_none_iff`);
* it does not start too late: on the coarsest grid there is at most one point to consider, and it
  has one digit (`Binary64.units_lt_coarsest`);
* it does not end too early: on the finest grid the neighbour above is less than half way to the
  next double (`Binary64.candidate?_finest_ne_none`).

A decimal with fewer digits is either a point of a coarser grid, or so small that a power of ten
lies between it and the answer; this power of ten would then be a point of a coarser grid.
-/

namespace CambridgePolish

namespace Decimal

/-! ### Decimals as rational numbers -/

/-- **The magnitude of a decimal**, in units of `2 ^ (-1074)`. -/
def magnitude (d : Decimal) : ℚ :=
  d.coefficient * 10 ^ d.exponent * Binary64.unitsPerOne

theorem magnitude_eq_div (d : Decimal) : d.magnitude = (d.inUnits.1 : ℚ) / d.inUnits.2 := by
  obtain ⟨c, e | e⟩ := d
  · have hunits : inUnits ⟨c, .ofNat e⟩ = (c * 10 ^ e * Binary64.unitsPerOne, 1) := inUnits_nat c e
    rw [hunits, magnitude]
    push_cast
    rw [div_one, Int.ofNat_eq_natCast, zpow_natCast]
  · have hunits : inUnits ⟨c, .negSucc e⟩ = (c * Binary64.unitsPerOne, 10 ^ (e + 1)) := rfl
    rw [hunits, magnitude]
    push_cast
    rw [zpow_negSucc, div_eq_mul_inv]
    ring

theorem magnitude_nat (c k : Nat) :
    magnitude ⟨c, (k : Int)⟩ = (c * 10 ^ k * Binary64.unitsPerOne : Nat) := by
  rw [magnitude_eq_div, inUnits_nat, Nat.cast_one, div_one]

theorem magnitude_neg (c k : Nat) :
    magnitude ⟨c, -(k : Int)⟩ = (c * Binary64.unitsPerOne : Nat) / (10 ^ k : Nat) := by
  rw [magnitude_eq_div, inUnits_neg]

/-- A point of a grid is a number of its steps. -/
theorem magnitude_eq_mul (c : Nat) (j : Int) : magnitude ⟨c, j⟩ = c * magnitude ⟨1, j⟩ := by
  rw [magnitude, magnitude]
  push_cast
  ring

theorem magnitude_one_pos (j : Int) : 0 < magnitude ⟨1, j⟩ := by
  have hunits : (0 : ℚ) < Binary64.unitsPerOne := by exact_mod_cast Binary64.unitsPerOne_pos
  rw [magnitude]
  exact mul_pos (mul_pos (by norm_num) (by positivity)) hunits

/-- A point of a coarse grid is a point of every finer grid. -/
theorem magnitude_refine (c k : Nat) (j : Int) :
    magnitude ⟨c * 10 ^ k, j⟩ = magnitude ⟨c, j + k⟩ := by
  rw [magnitude, magnitude, zpow_add₀ (by norm_num), zpow_natCast]
  push_cast
  ring

theorem magnitude_mono {c c' : Nat} {j j' : Int} (hc : c ≤ c') (hj : j ≤ j') :
    magnitude ⟨c, j⟩ ≤ magnitude ⟨c', j'⟩ := by
  have hc : (c : ℚ) ≤ c' := by exact_mod_cast hc
  have hpow : (10 : ℚ) ^ j ≤ 10 ^ j' := zpow_le_zpow_right₀ (by norm_num) hj
  have hprod : (c : ℚ) * 10 ^ j ≤ c' * 10 ^ j' :=
    mul_le_mul hc hpow (by positivity) (Nat.cast_nonneg c')
  exact mul_le_mul_of_nonneg_right hprod (Nat.cast_nonneg _)

end Decimal

namespace Binary64

open Decimal (magnitude)

/-! ### The interval of a double -/

/-- **The interval of a rank**: from one half-way point to the other, with its ends if the rank is
even. -/
def interval (n : Nat) : Set ℚ :=
  if n % 2 = 0 then
    Set.Icc ((units (n - 1) + units n) / 2 : ℚ) ((units n + units (n + 1)) / 2)
  else Set.Ioo ((units (n - 1) + units n) / 2 : ℚ) ((units n + units (n + 1)) / 2)

/-- **The interval has no gaps.** -/
theorem ordConnected_interval (n : Nat) : (interval n).OrdConnected := by
  rw [interval]
  split_ifs
  · exact Set.ordConnected_Icc
  · exact Set.ordConnected_Ioo

theorem rounds_iff_mem_interval {n : Nat} {d : Decimal} :
    rounds n d = true ↔ d.magnitude ∈ interval n := by
  have hden : (0 : ℚ) < d.inUnits.2 := by exact_mod_cast d.inUnits_pos
  rw [rounds, Decimal.magnitude_eq_div, interval]
  generalize d.inUnits = p at *
  obtain ⟨num, den⟩ := p
  have hle (a b : Nat) : ((a + b : ℚ) / 2 ≤ num / den) ↔ (a + b) * den ≤ 2 * num := by
    rw [div_le_div_iff₀ two_pos hden, mul_comm (num : ℚ) 2]
    exact_mod_cast Iff.rfl
  have hge (a b : Nat) : ((num : ℚ) / den ≤ (a + b) / 2) ↔ 2 * num ≤ (a + b) * den := by
    rw [div_le_div_iff₀ hden two_pos, mul_comm (num : ℚ) 2]
    exact_mod_cast Iff.rfl
  split_ifs
  · simp only [Bool.and_eq_true, decide_eq_true_eq, Set.mem_Icc, hle, hge]
  · simp only [Bool.and_eq_true, decide_eq_true_eq, Set.mem_Ioo, ← not_le, hle, hge]

/-- From the magnitude up to half way to the next, all numbers are in the interval. -/
theorem mem_interval_of_lt {n : Nat} (hn : 0 < n) {q : ℚ} (hle : units n ≤ q)
    (hlt : q < (units n + units (n + 1)) / 2) : q ∈ interval n := by
  have hprev : (units (n - 1) : ℚ) < units n := by
    have := units_lt_units_succ (n - 1)
    rw [Nat.sub_add_cancel hn] at this
    exact_mod_cast this
  have hlow : (units (n - 1) + units n : ℚ) / 2 < q := by linarith
  rw [interval]
  split_ifs
  · exact ⟨hlow.le, hlt.le⟩
  · exact ⟨hlow, hlt⟩

theorem units_mem_interval {n : Nat} (hn : 0 < n) : (units n : ℚ) ∈ interval n := by
  have hnext : (units n : ℚ) < units (n + 1) := by exact_mod_cast units_lt_units_succ n
  exact mem_interval_of_lt hn le_rfl (by linarith)

theorem zero_notMem_interval {n : Nat} (hn : 0 < n) : (0 : ℚ) ∉ interval n := by
  have hpos : (0 : ℚ) < units n := by exact_mod_cast units_pos hn
  have hprev : (0 : ℚ) ≤ units (n - 1) := Nat.cast_nonneg _
  rw [interval]
  split_ifs
  · exact fun h => absurd h.1 (by linarith)
  · exact fun h => absurd h.1 (by linarith)

/-! ### The neighbours of a magnitude on a grid -/

/-- The lower neighbour of the magnitude of rank `n` on the grid of `10 ^ j`. -/
def gridBelow (n : Nat) (j : Int) : Nat :=
  (onGrid n j).1 / (onGrid n j).2

theorem onGrid_ofNat (n e : Nat) : onGrid n (.ofNat e) = (units n, unitsPerOne * 10 ^ e) := rfl

theorem onGrid_negSucc (n e : Nat) :
    onGrid n (.negSucc e) = (units n * 10 ^ (e + 1), unitsPerOne) := rfl

theorem onGrid_pos (n : Nat) (j : Int) : 0 < (onGrid n j).2 := by
  cases j with
  | ofNat e =>
    rw [onGrid_ofNat]
    exact Nat.mul_pos unitsPerOne_pos (Nat.pow_pos (by decide))
  | negSucc e =>
    rw [onGrid_negSucc]
    dsimp only
    exact unitsPerOne_pos

/-- The magnitude of rank `n`, counted in steps of the grid. -/
theorem onGrid_mul (n : Nat) (j : Int) :
    ((onGrid n j).1 : ℚ) * magnitude ⟨1, j⟩ = units n * (onGrid n j).2 := by
  rw [magnitude]
  cases j with
  | ofNat e =>
    rw [onGrid_ofNat, Int.ofNat_eq_natCast, zpow_natCast]
    push_cast
    ring
  | negSucc e =>
    have hpow : (10 : ℚ) ^ (e + 1) * (10 ^ (e + 1))⁻¹ = 1 := mul_inv_cancel₀ (by positivity)
    rw [onGrid_negSucc, zpow_negSucc]
    push_cast
    calc (units n : ℚ) * 10 ^ (e + 1) * (1 * (10 ^ (e + 1))⁻¹ * unitsPerOne)
        = units n * unitsPerOne * (10 ^ (e + 1) * (10 ^ (e + 1))⁻¹) := by ring
      _ = units n * unitsPerOne := by rw [hpow, mul_one]

theorem magnitude_gridBelow_le (n : Nat) (j : Int) : magnitude ⟨gridBelow n j, j⟩ ≤ units n := by
  have hden : (0 : ℚ) < (onGrid n j).2 := by exact_mod_cast onGrid_pos n j
  have hle : (gridBelow n j : ℚ) * (onGrid n j).2 ≤ (onGrid n j).1 := by
    exact_mod_cast Nat.div_mul_le_self _ _
  have hscaled := mul_le_mul_of_nonneg_right hle (Decimal.magnitude_one_pos j).le
  rw [onGrid_mul, mul_right_comm, ← Decimal.magnitude_eq_mul] at hscaled
  exact le_of_mul_le_mul_right hscaled hden

theorem lt_magnitude_gridBelow_succ (n : Nat) (j : Int) :
    units n < magnitude ⟨gridBelow n j + 1, j⟩ := by
  have hden : (0 : ℚ) < (onGrid n j).2 := by exact_mod_cast onGrid_pos n j
  have hlt : ((onGrid n j).1 : ℚ) < (gridBelow n j + 1 : Nat) * (onGrid n j).2 := by
    exact_mod_cast Nat.lt_mul_of_div_lt (Nat.lt_succ_self _) (onGrid_pos n j)
  have hscaled := mul_lt_mul_of_pos_right hlt (Decimal.magnitude_one_pos j)
  rw [onGrid_mul, mul_right_comm, ← Decimal.magnitude_eq_mul] at hscaled
  exact lt_of_mul_lt_mul_right hscaled hden.le

/-- What the search takes from a grid is one of the two neighbours. -/
theorem candidate?_eq_some {n : Nat} {j : Int} {d : Decimal} (h : candidate? n j = some d) :
    rounds n d = true ∧ (d = ⟨gridBelow n j, j⟩ ∨ d = ⟨gridBelow n j + 1, j⟩) := by
  refine ⟨rounds_of_candidate? h, ?_⟩
  simp only [candidate?] at h
  split at h
  · obtain rfl := Option.some.inj h
    split_ifs
    · exact Or.inl rfl
    · exact Or.inr rfl
  · exact Or.inl (Option.some.inj h).symm
  · exact Or.inr (Option.some.inj h).symm
  · cases h

/-- **The search misses no point**: it takes nothing from a grid only if no point of
the grid is in the interval. -/
theorem candidate?_eq_none_iff {n : Nat} (hn : 0 < n) {j : Int} :
    candidate? n j = none ↔ ∀ c, rounds n ⟨c, j⟩ = false := by
  constructor
  · intro h c
    have hneighbours : rounds n ⟨gridBelow n j, j⟩ = false ∧
        rounds n ⟨gridBelow n j + 1, j⟩ = false := by
      simp only [candidate?] at h
      split at h
      · cases h
      · cases h
      · cases h
      · next hbelow habove => exact ⟨hbelow, habove⟩
    simp only [Bool.eq_false_iff, Ne, rounds_iff_mem_interval] at hneighbours ⊢
    intro hc
    have hmem := units_mem_interval hn
    -- a point on either side of the magnitude has a neighbour between itself and the magnitude
    rcases Nat.lt_or_ge (gridBelow n j) c with hlt | hge
    · exact hneighbours.2 ((ordConnected_interval n).out hmem hc
        ⟨(lt_magnitude_gridBelow_succ n j).le, Decimal.magnitude_mono hlt le_rfl⟩)
    · exact hneighbours.1 ((ordConnected_interval n).out hc hmem
        ⟨Decimal.magnitude_mono hge le_rfl, magnitude_gridBelow_le n j⟩)
  · intro h
    cases hcandidate : candidate? n j with
    | none => rfl
    | some d =>
      obtain ⟨hrounds, rfl | rfl⟩ := candidate?_eq_some hcandidate
      · exact absurd hrounds (by rw [h]; decide)
      · exact absurd hrounds (by rw [h]; decide)

/-! ### The coarsest grid and the finest -/

theorem coarsest_of_le {n : Nat} (h : 1073 ≤ (units n).log2) :
    coarsest n = (((units n).log2 - 1073) * 31 / 100 + 1 : Nat) := if_pos h

theorem coarsest_of_lt {n : Nat} (h : (units n).log2 < 1073) :
    coarsest n = -((1073 - (units n).log2) * 3 / 10 : Nat) := if_neg (Nat.not_le_of_lt h)

/-- **The search does not start too late**: the magnitude is below the first power of ten. -/
theorem units_lt_coarsest (n : Nat) : (units n : ℚ) < magnitude ⟨1, coarsest n⟩ := by
  have hlt : units n < 2 ^ ((units n).log2 + 1) := Nat.lt_log2_self
  rcases Nat.lt_or_ge (units n).log2 1073 with h | h
  · rw [coarsest_of_lt h, Decimal.magnitude_neg, lt_div_iff₀ (by positivity)]
    generalize (units n).log2 = k at *
    have hpow : 10 ^ ((1073 - k) * 3 / 10) ≤ 2 ^ (1073 - k) := Decimal.ten_pow_le_two_pow (by omega)
    have hunits : 2 ^ (k + 1) * 2 ^ (1073 - k) = 1 * unitsPerOne := by
      rw [← Nat.pow_zero 2, two_pow_mul_unitsPerOne, ← Nat.pow_add, unitPlaces]
      congr 1
      omega
    have hprod := Nat.mul_lt_mul_of_lt_of_le hlt hpow (Nat.two_pow_pos _)
    rw [hunits] at hprod
    exact_mod_cast hprod
  · rw [coarsest_of_le h, Decimal.magnitude_nat]
    generalize (units n).log2 = k at *
    have hpow : 2 ^ (k - 1073) ≤ 10 ^ ((k - 1073) * 31 / 100 + 1) :=
      Decimal.two_pow_le_ten_pow (by omega)
    have hunits : 2 ^ (k + 1) = 2 ^ (k - 1073) * unitsPerOne := by
      rw [two_pow_mul_unitsPerOne, unitPlaces]
      congr 1
      omega
    have hle := Nat.mul_le_mul_right unitsPerOne hpow
    rw [← hunits] at hle
    rw [Nat.one_mul]
    exact_mod_cast Nat.lt_of_lt_of_le hlt hle

/-- The spacing above a rank is a power of two, and not much smaller than the magnitude. -/
theorem exists_spacing {n : Nat} (hfinite : n < infinityRank) (hn : 0 < n) :
    ∃ e, units (n + 1) = units n + 2 ^ e ∧ (units n).log2 ≤ e + 52 ∧ e ≤ 2045 := by
  obtain ⟨e, m, rfl, hm, hnormal⟩ := exists_significand n
  refine ⟨e, ?_, ?_, ?_⟩
  · rw [units_succ hm hnormal, units_eq hm.le hnormal, Nat.succ_mul]
  · have hlt : units (e * 2 ^ 52 + m) < 2 ^ (e + 53) := by
      rw [units_eq hm.le hnormal, Nat.pow_add, Nat.mul_comm m]
      exact Nat.mul_lt_mul_of_pos_left hm (Nat.two_pow_pos e)
    have hlog := (Nat.log2_lt (units_pos hn).ne').mpr hlt
    omega
  · rw [infinityRank, natPow_eq] at hfinite
    omega

/-- A step of the coarsest grid is less than `10 ^ 39` times half the spacing. -/
theorem two_mul_coarsest_le {n e : Nat} (hlog : (units n).log2 ≤ e + 52) (he : e ≤ 2045) :
    2 * magnitude ⟨1, coarsest n⟩ ≤ (2 ^ e * 10 ^ 39 : Nat) := by
  rcases Nat.lt_or_ge (units n).log2 1073 with h | h
  · rw [coarsest_of_lt h, Decimal.magnitude_neg, ← mul_div_assoc, div_le_iff₀ (by positivity)]
    generalize (units n).log2 = k at *
    have hpow : 2 ^ (1075 - e) ≤ 10 ^ (39 + (1073 - k) * 3 / 10) :=
      Decimal.two_pow_le_ten_pow (by omega)
    have hle : 2 * (1 * unitsPerOne) ≤ 2 ^ e * 10 ^ 39 * 10 ^ ((1073 - k) * 3 / 10) := by
      calc 2 * (1 * unitsPerOne) = 2 ^ 1 * unitsPerOne := by rw [Nat.one_mul, Nat.pow_one]
        _ = 2 ^ (1 + unitPlaces) := two_pow_mul_unitsPerOne 1
        _ ≤ 2 ^ (e + (1075 - e)) := Nat.pow_le_pow_right (by decide) (by rw [unitPlaces]; omega)
        _ = 2 ^ e * 2 ^ (1075 - e) := Nat.pow_add 2 _ _
        _ ≤ 2 ^ e * 10 ^ (39 + (1073 - k) * 3 / 10) := Nat.mul_le_mul_left _ hpow
        _ = 2 ^ e * 10 ^ 39 * 10 ^ ((1073 - k) * 3 / 10) := by rw [Nat.pow_add, Nat.mul_assoc]
    exact_mod_cast hle
  · rw [coarsest_of_le h, Decimal.magnitude_nat]
    generalize (units n).log2 = k at *
    have hpow : 10 ^ ((k - 1073) * 31 / 100 + 1) ≤ 2 ^ (k - 1073 + 64) :=
      Decimal.ten_pow_le_two_pow (by omega)
    have hle : 2 * (1 * 10 ^ ((k - 1073) * 31 / 100 + 1) * unitsPerOne) ≤ 2 ^ e * 10 ^ 39 := by
      calc 2 * (1 * 10 ^ ((k - 1073) * 31 / 100 + 1) * unitsPerOne)
          ≤ 2 * (2 ^ (k - 1073 + 64) * unitsPerOne) := by
            rw [Nat.one_mul]
            exact Nat.mul_le_mul_left 2 (Nat.mul_le_mul_right _ hpow)
        _ = 2 ^ (k - 1073 + 64 + unitPlaces + 1) := by
            rw [two_pow_mul_unitsPerOne, Nat.pow_succ, Nat.mul_comm]
        _ ≤ 2 ^ (e + 128) := Nat.pow_le_pow_right (by decide) (by rw [unitPlaces]; omega)
        _ = 2 ^ e * 2 ^ 128 := Nat.pow_add 2 e 128
        _ ≤ 2 ^ e * 10 ^ 39 := Nat.mul_le_mul_left _ (Decimal.two_pow_le_ten_pow (by decide))
    exact_mod_cast hle

/-- **The search does not end too early**: the last grid has a point in the interval. -/
theorem candidate?_finest_ne_none {n : Nat} (hn : 0 < n) (hfinite : n < infinityRank) :
    candidate? n (coarsest n - 39) ≠ none := by
  obtain ⟨e, hnext, hlog, he⟩ := exists_spacing hfinite hn
  have hstep : magnitude ⟨1, coarsest n - 39⟩ ≤ (units (n + 1) - units n) / 2 := by
    have hrefine := Decimal.magnitude_refine 1 39 (coarsest n - 39)
    have hcoarse := two_mul_coarsest_le hlog he
    rw [Nat.cast_ofNat, Int.sub_add_cancel, Decimal.magnitude_eq_mul] at hrefine
    rw [← hrefine] at hcoarse
    rw [hnext]
    push_cast at hcoarse ⊢
    linarith
  rw [Ne, candidate?_eq_none_iff hn]
  intro hnone
  have hbelow := magnitude_gridBelow_le n (coarsest n - 39)
  have habove := lt_magnitude_gridBelow_succ n (coarsest n - 39)
  generalize coarsest n - 39 = j at *
  rcases hbelow.lt_or_eq with hlt | heq
  · refine Bool.eq_false_iff.mp (hnone (gridBelow n j + 1)) (rounds_iff_mem_interval.mpr ?_)
    refine mem_interval_of_lt hn habove.le ?_
    have hsucc : magnitude ⟨gridBelow n j + 1, j⟩ =
        magnitude ⟨gridBelow n j, j⟩ + magnitude ⟨1, j⟩ := by
      rw [Decimal.magnitude_eq_mul, Decimal.magnitude_eq_mul (gridBelow n j)]
      push_cast
      ring
    linarith
  · refine Bool.eq_false_iff.mp (hnone (gridBelow n j)) (rounds_iff_mem_interval.mpr ?_)
    rw [heq]
    exact units_mem_interval hn

/-! ### The first hit -/

/-- A search through the numbers below `k` finds the first that has a result. -/
theorem exists_first_of_findSome? {α : Type} {f : Nat → Option α} {k : Nat} {a : α}
    (h : (List.range k).findSome? f = some a) : ∃ i, f i = some a ∧ ∀ i' < i, f i' = none := by
  obtain ⟨before, i, after, hrange, hi, hbefore⟩ := List.findSome?_eq_some_iff.mp h
  refine ⟨i, hi, fun i' hlt => hbefore i' ?_⟩
  have hsorted := List.pairwise_lt_range (n := k)
  have hmem : i' ∈ List.range k := by
    have : i ∈ List.range k := by
      rw [hrange]
      exact List.mem_append_cons_self
    rw [List.mem_range] at this ⊢
    omega
  rw [hrange] at hsorted hmem
  rcases List.mem_append.mp hmem with hmem | hmem
  · exact hmem
  · rcases List.mem_cons.mp hmem with rfl | hmem
    · omega
    · have := List.rel_of_pairwise_cons (List.pairwise_append.mp hsorted).2.1 hmem
      omega

/-- **The printed decimal is the first hit.** -/
theorem exists_shortest_eq_candidate? {n : Nat} (hn : 0 < n) (hfinite : n < infinityRank) :
    ∃ i : Nat, candidate? n (coarsest n - i) = some (shortest n) ∧
      ∀ i' < i, candidate? n (coarsest n - (i' : Nat)) = none := by
  refine exists_first_of_findSome? (f := fun i : Nat => candidate? n (coarsest n - i)) (k := 40) ?_
  rw [shortest, if_neg hn.ne']
  cases hfind : (List.range 40).findSome? fun i : Nat => candidate? n (coarsest n - i) with
  | some d => rfl
  | none =>
    rw [List.findSome?_eq_none_iff] at hfind
    exact absurd (hfind 39 (by decide)) (candidate?_finest_ne_none hn hfinite)

/-- The printed decimal has one digit, or no coarser grid has a point in the interval. -/
theorem rounds_coarser_eq_false {n : Nat} (hn : 0 < n) (hfinite : n < infinityRank) :
    (shortest n).coefficient ≤ 1 ∨
      ∀ c j, (shortest n).exponent < j → rounds n ⟨c, j⟩ = false := by
  obtain ⟨i, hi, hfirst⟩ := exists_shortest_eq_candidate? hn hfinite
  obtain ⟨-, hneighbour⟩ := candidate?_eq_some hi
  cases i with
  | zero =>
    have hbelow : gridBelow n (coarsest n - (0 : Nat)) = 0 := by
      rw [Nat.cast_zero, Int.sub_zero]
      by_contra hne
      have hle := Decimal.magnitude_mono (Nat.one_le_iff_ne_zero.mpr hne) (le_refl (coarsest n))
      exact absurd (units_lt_coarsest n) (not_lt_of_ge (hle.trans (magnitude_gridBelow_le n _)))
    left
    rcases hneighbour with h | h
    · rw [h, hbelow]
      exact Nat.zero_le 1
    · rw [h, hbelow]
  | succ i =>
    right
    intro c j hj
    have hexponent : (shortest n).exponent = coarsest n - (i + 1 : Nat) := by
      rcases hneighbour with h | h <;> rw [h]
    obtain ⟨k, hk⟩ := Int.eq_ofNat_of_zero_le (show 0 ≤ j - (coarsest n - i) by omega)
    obtain rfl : j = coarsest n - i + k := by omega
    have hnone := (candidate?_eq_none_iff hn).mp (hfirst i (Nat.lt_succ_self i)) (c * 10 ^ k)
    rw [Bool.eq_false_iff, Ne, rounds_iff_mem_interval] at hnone ⊢
    rw [← Decimal.magnitude_refine]
    exact hnone

end Binary64

/-! ### Counting digits -/

/-- A run of digits is less than the power of ten with as many zeros. -/
theorem ofDigitChars_lt_pow {ds : List Char} (hds : ∀ d ∈ ds, d.isDigit) (acc : Nat) :
    Nat.ofDigitChars 10 ds acc < (acc + 1) * 10 ^ ds.length := by
  induction ds generalizing acc with
  | nil => simp
  | cons d ds ih =>
    rw [List.forall_mem_cons] at hds
    have hd : d.toNat - '0'.toNat ≤ 9 := by
      have hrange : 48 ≤ d.toNat ∧ d.toNat ≤ 57 := by
        simpa [Char.isDigit, UInt32.le_iff_toNat_le] using hds.1
      have hzero : '0'.toNat = 48 := rfl
      omega
    rw [Nat.ofDigitChars_cons, List.length_cons, Nat.pow_succ, Nat.mul_comm _ 10, ← Nat.mul_assoc]
    refine Nat.lt_of_lt_of_le (ih hds.2 _) (Nat.mul_le_mul_right _ ?_)
    omega

namespace Decimal

theorem coefficient_lt_pow (d : Decimal) : d.coefficient < 10 ^ d.digits.length := by
  have hlt := ofDigitChars_lt_pow (isDigits_toDigits d.coefficient).2 0
  rw [Nat.ofDigitChars_ten_toDigits, Nat.zero_add, Nat.one_mul] at hlt
  exact hlt

theorem length_digits_le {d : Decimal} {k : Nat} (hk : 0 < k) (h : d.coefficient < 10 ^ k) :
    d.digits.length ≤ k :=
  Nat.toDigits_length 10 d.coefficient k hk h

theorem length_digits_pos (d : Decimal) : 0 < d.digits.length :=
  List.length_pos_iff.mpr (isDigits_toDigits d.coefficient).1

end Decimal

/-- **The printed digits are the fewest**: no decimal that rounds to a double has fewer digits than
the one that the double is printed from. -/
theorem Binary64.length_digits_shortest_le {n : Nat} (hfinite : n < infinityRank) {d : Decimal}
    (hd : rounds n d = true) : (shortest n).digits.length ≤ d.digits.length := by
  rcases Nat.eq_zero_or_pos n with rfl | hn
  · exact d.length_digits_pos
  · rcases rounds_coarser_eq_false hn hfinite with hone | hcoarser
    · have hle := Decimal.length_digits_le (d := shortest n) (k := 1) Nat.one_pos (by omega)
      exact hle.trans d.length_digits_pos
    · by_contra hfewer
      have hpow : 10 ^ d.digits.length ≤ (shortest n).coefficient := by
        by_contra hlt
        exact hfewer (Decimal.length_digits_le d.length_digits_pos (Nat.lt_of_not_le hlt))
      rcases Int.lt_or_le (shortest n).exponent d.exponent with hlt | hle
      · exact absurd hd (Bool.eq_false_iff.mp (hcoarser _ _ hlt))
      · -- a power of ten lies between the two, and it is a point of the next coarser grid
        obtain ⟨k, hk⟩ := Nat.exists_eq_succ_of_ne_zero d.length_digits_pos.ne'
        have hmem := rounds_iff_mem_interval.mp hd
        have hmem' := rounds_iff_mem_interval.mp (rounds_eq_true_iff.mpr (roundsTo_shortest n))
        have hbetween := (ordConnected_interval n).out hmem hmem'
          ⟨Decimal.magnitude_mono d.coefficient_lt_pow.le hle, Decimal.magnitude_mono hpow le_rfl⟩
        have hcoarse := Decimal.magnitude_refine (10 ^ k) 1 (shortest n).exponent
        rw [hk, Nat.pow_succ] at hbetween
        rw [Nat.pow_one] at hcoarse
        rw [hcoarse] at hbetween
        exact absurd (rounds_iff_mem_interval.mpr hbetween)
          (Bool.eq_false_iff.mp (hcoarser _ _ (by omega)))

end CambridgePolish
