/-!
# Numerals

Whether a word looks like a number is decided by its first characters, and whether it is one only
when its value is asked for. The reasons why it may not be are listed here, with their wording; what
the two sorts of numerals have in common is the sign in front.
-/

namespace CambridgePolish

/-- Why a numeral has no value. -/
inductive NumeralFault
  /-- An integer without any character. -/
  | emptyInteger
  /-- A character of an integer is not a decimal digit, or there is no digit at all. -/
  | invalidDigit
  /-- The digits read so far are above the largest integer. -/
  | tooLarge
  /-- The digits read so far are below the least integer. -/
  | tooSmall
  /-- A floating-point number without any character. -/
  | emptyFloat
  /-- A text that is not of the form of a floating-point number. -/
  | invalidFloat
deriving DecidableEq, Repr

/-- The fault in words. -/
def NumeralFault.reason : NumeralFault → String
  | .emptyInteger => "cannot parse integer from empty string"
  | .invalidDigit => "invalid digit found in string"
  | .tooLarge => "number too large to fit in target type"
  | .tooSmall => "number too small to fit in target type"
  | .emptyFloat => "cannot parse float from empty string"
  | .invalidFloat => "invalid float literal"

/-- The sign in front of a numeral – whether it is a minus – and what follows it. -/
def splitSign : List Char → Bool × List Char
  | '-' :: cs => (true, cs)
  | '+' :: cs => (false, cs)
  | cs => (false, cs)

end CambridgePolish
