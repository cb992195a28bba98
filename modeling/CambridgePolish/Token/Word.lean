import CambridgePolish.Text.Blank

/-!
# The words of a line

A parenthesis is a word by itself, and every other word is a maximal run of characters that are
neither blank nor a parenthesis. Columns count characters from one.

The words are found from the right: a blank adds nothing to the words behind it, a parenthesis is a
new word, and a word character extends the word behind it if there is one directly behind it, or
else starts a new one.
-/

namespace CambridgePolish

/-- An opening or closing parenthesis. -/
def isParen (c : Char) : Bool :=
  c == '(' || c == ')'

/-- A character that words other than parentheses are made of. -/
def isWordChar (c : Char) : Bool :=
  !isBlank c && !isParen c

/-- A word and the column of its first character. -/
structure Word where
  text : List Char
  column : Nat
deriving DecidableEq, Repr

/-- The words with one more character in front of the first; the character becomes a word if there
is none. -/
def extendFirst (c : Char) (column : Nat) : List Word → List Word
  | [] => [⟨[c], column⟩]
  | w :: ws => ⟨c :: w.text, column⟩ :: ws

/-- **The words** of a text whose first character is in the given column. -/
def words (column : Nat) : List Char → List Word
  | [] => []
  | c :: cs =>
    let behind := words (column + 1) cs
    if isBlank c then behind
    else if isWordChar c && cs.head?.any isWordChar then extendFirst c column behind
    else ⟨[c], column⟩ :: behind

end CambridgePolish
