/-!
# Binary64: floating-point numbers by their bits

A `Binary64` is a 64-bit word read as an IEEE 754 double. Keeping the word, rather than the number
it stands for, makes equality of values decidable and exact: the two zeros are different, and a NaN
is equal to itself. Comparison in the sense of IEEE 754 is a separate function, `Binary64.eqv`.

Without its sign bit the word is a number below `2 ^ 63`, the **rank** of the magnitude. Ranks are
ordered as magnitudes are: `0` is zero, `1` the least positive double, each next rank the next
double, and `infinityRank` infinity; what lies above is NaN. Every finite magnitude is a whole
number of *units* of `2 ^ (-1074)`, and `units` says how many. So all of rounding, reading and
printing (`CambridgePolish.Binary64.Rounding`, `CambridgePolish.Binary64.Shortest`) is
arithmetic on natural numbers.

The four operations are those of the machine's double arithmetic.
-/

namespace CambridgePolish

/-- A double, given by its bits: sign, eleven bits of exponent, fifty-two of fraction. -/
structure Binary64 where
  /-- The word. -/
  bits : UInt64
deriving DecidableEq, Repr

namespace Binary64

/-! ### Sign and rank -/

/-- The sign bit is set. -/
def isNegative (x : Binary64) : Bool :=
  Nat.pow 2 63 ≤ x.bits.toNat

/-- The word without its sign bit: how many doubles lie between zero and the magnitude. -/
def rank (x : Binary64) : Nat :=
  x.bits.toNat % Nat.pow 2 63

/-- The rank of infinity: all exponent bits set and no other. -/
def infinityRank : Nat := 2047 * Nat.pow 2 52

/-- The double of a given sign and rank. -/
def ofRank (negative : Bool) (n : Nat) : Binary64 :=
  ⟨UInt64.ofNat ((if negative then Nat.pow 2 63 else 0) + n)⟩

/-- Not a number: the ranks above that of infinity. -/
def isNaN (x : Binary64) : Bool :=
  infinityRank < x.rank

/-- Neither infinite nor NaN. -/
def isFinite (x : Binary64) : Bool :=
  x.rank < infinityRank

/-- A quiet NaN of the given sign. -/
def nan (negative : Bool) : Binary64 :=
  ofRank negative (infinityRank + Nat.pow 2 51)

/-- The infinity of the given sign. -/
def infinity (negative : Bool) : Binary64 :=
  ofRank negative infinityRank

/-- The binary digits behind the point that a double can have: a unit is the last of them. -/
def unitPlaces : Nat := 1074

/-- How many units make one. -/
def unitsPerOne : Nat := Nat.pow 2 unitPlaces

/-- **The magnitude of a rank**, in units of `2 ^ (-1074)`. The first two binades have a spacing of
one unit, and every further one twice the spacing of the binade below. At `infinityRank` this is
the power of two that the next binade would start with, which is where rounding overflows. -/
def units (n : Nat) : Nat :=
  let binade := Nat.pow 2 52
  if n < binade then n else (binade + n % binade) * Nat.pow 2 (n / binade - 1)

/-! ### Comparison and arithmetic -/

/-- Equality in the sense of IEEE 754: the two zeros are equal and a NaN is equal to nothing. -/
def eqv (x y : Binary64) : Bool :=
  !x.isNaN && !y.isNaN && (x.bits == y.bits || (x.rank == 0 && y.rank == 0))

/-- The machine's number for a word. -/
def toFloat (x : Binary64) : Float :=
  Float.ofBits x.bits

/-- The word of a machine number. -/
def ofFloat (f : Float) : Binary64 :=
  ⟨f.toBits⟩

instance : Add Binary64 := ⟨fun x y => ofFloat (x.toFloat + y.toFloat)⟩

instance : Sub Binary64 := ⟨fun x y => ofFloat (x.toFloat - y.toFloat)⟩

instance : Mul Binary64 := ⟨fun x y => ofFloat (x.toFloat * y.toFloat)⟩

instance : Div Binary64 := ⟨fun x y => ofFloat (x.toFloat / y.toFloat)⟩

/-- The double nearest to π. -/
def pi : Binary64 := ⟨0x400921FB54442D18⟩

end Binary64

end CambridgePolish
