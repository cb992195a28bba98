import CambridgePolish.Text.Hidden

/-!
# Quoted text

The event log puts a word between double quotes. A quote and a backslash get a backslash in front,
four controls have a letter of their own, and any other hidden character is written by its number,
so that a quoted word stays on one line and shows everything it holds.
-/

namespace CambridgePolish

/-- One character inside quotes. -/
def quotedChar (c : Char) : List Char :=
  if c = '"' then ['\\', '"']
  else if c = '\\' then ['\\', '\\']
  else if c = '\t' then ['\\', 't']
  else if c = '\r' then ['\\', 'r']
  else if c = '\n' then ['\\', 'n']
  else if c = '\x00' then ['\\', '0']
  else if isHidden c then ['\\', 'u', '\x7b'] ++ Nat.toDigits 16 c.toNat ++ ['\x7d']
  else [c]

/-- **The quoted form** of a text. -/
def quoted (s : String) : String :=
  String.ofList ('"' :: s.toList.flatMap quotedChar ++ ['"'])

end CambridgePolish
