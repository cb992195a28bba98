import CambridgePolish.Numeral.Basic

/-!
# Integer numerals

An integer is written as decimal digits after at most one sign. It is read from left to right and
must stay in the range of 64-bit integers at every step, so the first thing wrong decides the
fault: a character that is not a digit, or the digit that leaves the range
(`readInteger`). Printing (`integerText`) gives the digits without leading zeros, and a sign only
to a negative number.
-/

namespace CambridgePolish

/-- The digits of an integer in base ten, with a minus sign if it is negative. -/
def integerText (n : Int) : String :=
  let digits := Nat.toDigits 10 n.natAbs
  String.ofList (if n < 0 then '-' :: digits else digits)

/-- The value of a decimal digit. -/
def digit? (c : Char) : Option Nat :=
  if c.isDigit then some (c.toNat - '0'.toNat) else none

/-- The largest magnitude of an integer of the given sign. -/
def integerBound (negative : Bool) : Nat :=
  if negative then Nat.pow 2 63 else Nat.pow 2 63 - 1

/-- Reads the digits that follow those of magnitude `acc`. -/
def readDigits (negative : Bool) (acc : Nat) : List Char → Except NumeralFault Int64
  | [] => .ok (Int64.ofInt (if negative then -(acc : Int) else acc))
  | c :: cs =>
    match digit? c with
    | none => .error .invalidDigit
    | some d =>
      if 10 * acc + d ≤ integerBound negative then readDigits negative (10 * acc + d) cs
      else .error (if negative then .tooSmall else .tooLarge)

/-- **The value of an integer numeral.** -/
def readInteger (cs : List Char) : Except NumeralFault Int64 :=
  if cs = [] then .error .emptyInteger
  else
    let (negative, digits) := splitSign cs
    if digits = [] then .error .invalidDigit else readDigits negative 0 digits

end CambridgePolish
