import CambridgePolish.Binary64.Rounding

/-!
# Shortest: the fewest digits that read back

A magnitude is printed with as few digits as tell it apart from all others. The decimals that round
to rank `n` are those between the two half-way points to the neighbouring ranks, the ends included
when `n` is even (`Binary64.rounds`). On the grid of multiples of a power of ten, the best
candidates are the two neighbours of the magnitude: if any point of the grid rounds to `n`, then one
of these does. So the search walks from coarse grids to fine ones and stops at the first hit
(`Binary64.shortest`); of two hits it takes the nearer, and of two equally near the larger.

Seventeen digits always suffice. A search that found nothing would answer with the magnitude itself,
which is a decimal too (`Binary64.allDigits`), so what `shortest` gives rounds to `n` by its form.
-/

namespace CambridgePolish.Binary64

/-- The decimal `d` rounds to rank `n`. -/
def rounds (n : Nat) (d : Decimal) : Bool :=
  let (num, den) := d.inUnits
  let low := (units (n - 1) + units n) * den
  let high := (units n + units (n + 1)) * den
  if n % 2 = 0 then low ≤ 2 * num && 2 * num ≤ high else low < 2 * num && 2 * num < high

/-- The magnitude of rank `n` as a fraction of `10 ^ j`: numerator and denominator. -/
def onGrid (n : Nat) (j : Int) : Nat × Nat :=
  match j with
  | .ofNat e => (units n, unitsPerOne * Nat.pow 10 e)
  | .negSucc e => (units n * Nat.pow 10 (e + 1), unitsPerOne)

/-- The multiple of `10 ^ j` to print rank `n` with, if one rounds to it: the nearer of the two
neighbours of the magnitude, the upper one if they are equally near. -/
def candidate? (n : Nat) (j : Int) : Option Decimal :=
  let (num, den) := onGrid n j
  let below : Decimal := ⟨num / den, j⟩
  let above : Decimal := ⟨num / den + 1, j⟩
  match rounds n below, rounds n above with
  | true, true => some (if 2 * (num % den) < den then below else above)
  | true, false => some below
  | false, true => some above
  | false, false => none

/-- A power of ten above the magnitude of rank `n`, not far above: three tenths of the binary
exponent, rounded upwards. -/
def coarsest (n : Nat) : Int :=
  let k := (units n).log2
  if 1073 ≤ k then ((k - 1073) * 31 / 100 + 1 : Nat) else -((1073 - k) * 3 / 10 : Nat)

/-- The magnitude of rank `n`, with all its digits. -/
def allDigits (n : Nat) : Decimal :=
  ⟨units n * Nat.pow 5 unitPlaces, -unitPlaces⟩

/-- **The shortest decimal** that rounds to rank `n`. -/
def shortest (n : Nat) : Decimal :=
  if n = 0 then ⟨0, 0⟩
  else ((List.range 40).findSome? fun (i : Nat) => candidate? n (coarsest n - i)).getD (allDigits n)

end CambridgePolish.Binary64
