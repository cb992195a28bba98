import CambridgePolish.Binary64.Shortest

/-!
# Doubles as text

Both texts of a double start from its shortest decimal and differ in the layout only: values are
printed positionally at any size (`Binary64.text`), and the argument lists of the event log change
to the exponent layout far from one (`Binary64.logText`). The sign is printed for zeros and
infinities as for all other numbers, and never for NaN.
-/

namespace CambridgePolish.Binary64

/-- The text of a double whose finite magnitudes are laid out by `layout`. -/
def textWith (layout : Decimal → List Char) (x : Binary64) : String :=
  if x.isNaN then "NaN"
  else
    let magnitude := if x.isFinite then layout (shortest x.rank) else ['i', 'n', 'f']
    String.ofList (if x.isNegative then '-' :: magnitude else magnitude)

/-- **The printed value**: positional, with a point. -/
def text (x : Binary64) : String :=
  x.textWith Decimal.plain

/-- The layout of the event log: positional from `10 ^ (-4)` up to, and without, `10 ^ 16`; with an
exponent elsewhere. Zero is positional. -/
def logLayout (d : Decimal) : List Char :=
  if -4 ≤ d.order ∧ d.order < 16 then d.plain else d.scientific

/-- The text of a double in the event log. -/
def logText (x : Binary64) : String :=
  x.textWith logLayout

end CambridgePolish.Binary64
