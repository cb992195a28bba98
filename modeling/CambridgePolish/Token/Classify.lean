import CambridgePolish.Error
import CambridgePolish.Token.Word
import CambridgePolish.Traced

/-!
# From words to tokens

A word is classified by its first characters and by the word before it: parentheses by themselves, a
word that starts like a number as one, any other word as an operator directly behind an opening
parenthesis and as a name elsewhere. Such a word may not be the first of the line, which is the one
way in which this can fail. Whether what looks like a number is one, and whether a name is bound, is
not asked here.
-/

namespace CambridgePolish

/-- The text starts with a digit, or with a sign and a digit. -/
def startsNumeral : List Char → Bool
  | [] => false
  | [c] => c.isDigit
  | c :: d :: _ => c.isDigit || ((c == '+' || c == '-') && d.isDigit)

/-- The kind of a word behind a word of the kind `previous`, if there is one. -/
def Word.kind (w : Word) (previous : Option Kind) : Except ReadError Kind :=
  if w.text = ['('] then .ok .groupOpen
  else if w.text = [')'] then .ok .groupClose
  else if startsNumeral w.text then .ok (if '.' ∈ w.text then .float else .integer)
  else
    match previous with
    | none => .error (.startsWithName (String.ofList w.text) w.column)
    | some .groupOpen => .ok .procedure
    | some _ => .ok .name

/-- The tokens of a list of words behind a word of the kind `previous`. -/
def Token.ofWords (previous : Option Kind) : List Word → Traced ReadError (List Token)
  | [] => pure []
  | w :: ws => do
    let kind ← Traced.ofExcept (w.kind previous)
    let token : Token := ⟨kind, String.ofList w.text, w.column⟩
    Traced.log (.token token)
    (token :: ·) <$> Token.ofWords (some kind) ws

/-- **The tokens of a line.** -/
def Token.ofLine (line : String) : Traced ReadError (List Token) :=
  Token.ofWords none (words 1 line.toList)

end CambridgePolish
