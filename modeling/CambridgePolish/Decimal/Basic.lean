/-!
# Decimals: a coefficient and a power of ten

A `Decimal` is a magnitude `coefficient * 10 ^ exponent`, kept as written: `⟨150, -2⟩` and
`⟨15, -1⟩` are the same number and two different decimals. It is what a numeral of the language
says and what a number is printed from, so this file holds the two ways of laying one out as text:

* `Decimal.plain` – the **positional layout**, always with a point and at least one digit on
  either side of it;
* `Decimal.scientific` – the **exponent layout**, one digit before the point, no point when there is
  nothing behind it.

No layout rounds: the digits of the text are those of the coefficient, padded with zeros.
-/

namespace CambridgePolish

/-- The magnitude `coefficient * 10 ^ exponent`. -/
structure Decimal where
  /-- The digits, as a number. -/
  coefficient : Nat
  /-- The power of ten that the last digit counts. -/
  exponent : Int
deriving DecidableEq, Repr

namespace Decimal

/-- The digits of the coefficient, most significant first; a single `0` for zero. -/
def digits (d : Decimal) : List Char :=
  Nat.toDigits 10 d.coefficient

/-- The power of ten that the first digit counts. -/
def order (d : Decimal) : Int :=
  d.exponent + (d.digits.length - 1 : Nat)

/-- `cs` with zeros in front, so that it has at least `n` characters. -/
def padLeft (n : Nat) (cs : List Char) : List Char :=
  List.replicate (n - cs.length) '0' ++ cs

/-- **The positional layout**: every digit at its place, one point, no exponent. A whole number gets
the fraction `.0`, and a number below one the whole part `0`. -/
def plain (d : Decimal) : List Char :=
  match d.exponent with
  | .ofNat zeros => d.digits ++ List.replicate zeros '0' ++ ['.', '0']
  | .negSucc n =>
    let places := n + 1
    let cs := padLeft (places + 1) d.digits
    cs.take (cs.length - places) ++ '.' :: cs.drop (cs.length - places)

/-- **The exponent layout**: the first digit, the others behind a point if there are any, `e`, and
the power of ten of the first digit. -/
def scientific (d : Decimal) : List Char :=
  let significand :=
    match d.digits with
    | first :: second :: rest => first :: '.' :: second :: rest
    | cs => cs
  let sign := if d.order < 0 then ['-'] else []
  significand ++ 'e' :: sign ++ Nat.toDigits 10 d.order.natAbs

end Decimal

end CambridgePolish
