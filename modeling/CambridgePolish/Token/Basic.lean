import CambridgePolish.Kind

/-!
# Tokens

A token is a word of the line together with its kind and the column of its first character.
-/

namespace CambridgePolish

/-- A word with its kind and its place on the line. -/
structure Token where
  /-- What the word is. -/
  kind : Kind
  /-- The word. -/
  text : String
  /-- The column of its first character, counted from one. -/
  column : Nat
deriving DecidableEq, Repr

/-- The token as the event log shows it. -/
def Token.logText (t : Token) : String :=
  "\x7b" ++ t.kind.text ++ ", " ++ t.text ++ "\x7d"

end CambridgePolish
