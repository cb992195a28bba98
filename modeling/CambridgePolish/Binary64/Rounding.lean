import CambridgePolish.Binary64.Basic
import CambridgePolish.Decimal.Basic

/-!
# Rounding: the double nearest to a decimal

A decimal is turned into a fraction of units (`Decimal.inUnits`), and a fraction of units into the
rank nearest to it (`Binary64.nearestRank`), a tie going to the even rank. Nothing is lost on the
way: there is one rounding, at the end, and it is exact integer division.

The rank comes out without a case distinction between subnormal, normal and overflowing results.
With a spacing of `2 ^ e` units the quotient has at most fifty-three bits, and rank
`e * 2 ^ 52 + m` has magnitude `m * 2 ^ e` for every `m` the quotient can be, also when rounding
carries it up to the next binade.
-/

namespace CambridgePolish

/-- The quotient rounded to the nearest whole number, a tie going to the even one. -/
def roundDiv (num den : Nat) : Nat :=
  let q := num / den
  let r := num % den
  if 2 * r < den then q else if den < 2 * r then q + 1 else q + q % 2

/-- **The nearest rank**: the rank whose magnitude is nearest to `num / den` units. Magnitudes from
half way above the largest double are infinite. -/
def Binary64.nearestRank (num den : Nat) : Nat :=
  let e := (num / den).log2 - 52
  min infinityRank (e * Nat.pow 2 52 + roundDiv num (den * Nat.pow 2 e))

namespace Decimal

/-- The magnitude as a fraction of units of `2 ^ (-1074)`: numerator and denominator. -/
def inUnits (d : Decimal) : Nat × Nat :=
  match d.exponent with
  | .ofNat e => (d.coefficient * Nat.pow 10 e * Binary64.unitsPerOne, 1)
  | .negSucc e => (d.coefficient * Binary64.unitsPerOne, Nat.pow 10 (e + 1))

/-- The decimal with its exponent brought near zero. From `10 ^ 400` on every magnitude is infinite,
and below `10 ^ (-400)` every magnitude rounds to zero, so this changes no rounding; it keeps the
powers of ten that rounding computes in proportion to the digits that were written. -/
def tame (d : Decimal) : Decimal :=
  { d with exponent := max (-(d.coefficient.log2 + 400 : Nat)) (min d.exponent 400) }

end Decimal

/-- **The double nearest to a decimal**, with the given sign. -/
def Binary64.ofDecimal (negative : Bool) (d : Decimal) : Binary64 :=
  let (num, den) := d.tame.inUnits
  ofRank negative (nearestRank num den)

end CambridgePolish
