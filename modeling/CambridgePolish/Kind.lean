/-!
# Kinds

What a token is, or what a value is: the two share one list of kinds, since a token of a
value has the kind of that value as far as its text shows it.
-/

namespace CambridgePolish

/-- The kind of a token or of a value. -/
inductive Kind
  | integer
  | float
  | procedure
  | groupOpen
  | groupClose
  | name
  | nil
deriving DecidableEq, Repr

/-- The kinds, in order. -/
def Kind.all : List Kind :=
  [.integer, .float, .procedure, .groupOpen, .groupClose, .name, .nil]

/-- The name of a kind, as messages and the event log give it. -/
def Kind.text : Kind → String
  | .integer => "Integer"
  | .float => "Float"
  | .procedure => "Procedure"
  | .groupOpen => "GroupOpen"
  | .groupClose => "GroupClose"
  | .name => "Name"
  | .nil => "Nil"

/-- The kind of a given name. -/
def Kind.ofText? (s : String) : Option Kind :=
  Kind.all.find? fun k => k.text == s

end CambridgePolish
