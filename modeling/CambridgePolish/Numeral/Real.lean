import CambridgePolish.Binary64.Rounding
import CambridgePolish.Numeral.Basic

/-!
# Floating-point numerals

A floating-point number is written as an optional sign and then either one of the names of a
special value, in letters of any case, or digits with at most one point among them, a digit at
least on one side of it, and an optional exponent. Its value is the double nearest to the decimal it
says.
-/

namespace CambridgePolish

/-- The power of ten at the end of a numeral: nothing, or a letter `e`, an optional sign and
digits. -/
def readExponent? : List Char → Option Int
  | [] => some 0
  | c :: cs =>
    let (negative, digits) := splitSign cs
    if (c = 'e' ∨ c = 'E') ∧ digits ≠ [] ∧ digits.all Char.isDigit then
      let n := Nat.ofDigitChars 10 digits 0
      some (if negative then -(n : Int) else n)
    else none

/-- The decimal that an unsigned numeral says. -/
def readDecimal? (cs : List Char) : Option Decimal :=
  let whole := cs.takeWhile Char.isDigit
  let afterWhole := cs.dropWhile Char.isDigit
  let (fraction, rest) :=
    match afterWhole with
    | '.' :: ds => (ds.takeWhile Char.isDigit, ds.dropWhile Char.isDigit)
    | _ => ([], afterWhole)
  if whole = [] ∧ fraction = [] then none
  else
    (readExponent? rest).map fun e =>
      ⟨Nat.ofDigitChars 10 (whole ++ fraction) 0, e - fraction.length⟩

/-- The special value of a name, in letters of any case. -/
def special? (negative : Bool) (cs : List Char) : Option Binary64 :=
  let name := String.ofList (cs.map Char.toLower)
  if name = "inf" ∨ name = "infinity" then some (Binary64.infinity negative)
  else if name = "nan" then some (Binary64.nan negative)
  else none

/-- **The value of a floating-point numeral.** -/
def readReal (cs : List Char) : Except NumeralFault Binary64 :=
  if cs = [] then .error .emptyFloat
  else
    let (negative, body) := splitSign cs
    match special? negative body with
    | some x => .ok x
    | none =>
      match readDecimal? body with
      | some d => .ok (Binary64.ofDecimal negative d)
      | none => .error .invalidFloat

end CambridgePolish
