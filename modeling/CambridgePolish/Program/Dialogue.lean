import CambridgePolish.Line
import CambridgePolish.Program.Transcript

/-!
# The dialogue

Without an expression on the command line, the program answers line after line: it prints its
prompt, reads a line, and prints the value of the line or why it has none. Blanks around a line do
not count, a blank line is passed over, and a line that starts with a colon is a command. The
dialogue ends with the input or at the command to quit, and breaks off at a line that is not text.

Nothing is carried from one line to the next: the answer to a line is a function of the line
(`Turn.ofLine`).
-/

namespace CambridgePolish

/-- The lines of an input, each with the newline that ends it; the last may have none. -/
def splitLines : List UInt8 → List (List UInt8)
  | [] => []
  | b :: bs =>
    if b = 10 then [b] :: splitLines bs
    else
      match splitLines bs with
      | [] => [[b]]
      | l :: ls => (b :: l) :: ls

/-- The text of a line, if its bytes are valid UTF-8. -/
def decodeLine? (bytes : List UInt8) : Option String :=
  String.fromUTF8? ⟨bytes.toArray⟩

/-- What one line of a dialogue leads to. -/
inductive Turn
  /-- An answer, after which the dialogue goes on. -/
  | answer (emissions : List Emission)
  /-- The end of the dialogue. -/
  | quit
  /-- The line cannot be read. -/
  | unreadable

namespace Turn

/-- The answer to the request for help. -/
def helpText : String :=
  "Enter one expression per line, e.g. (+ (* 2 3) 4).\n" ++
  "Known names: " ++ " ".intercalate boundNames ++ "\n" ++
  "Commands: :help, :quit\n"

/-- What a command, without its colon and the blanks around it, leads to. -/
def ofCommand (command : String) : Turn :=
  if command = "quit" ∨ command = "q" then .quit
  else if command = "help" ∨ command = "h" then .answer [.out helpText]
  else .answer [.out ("err: unknown command ':" ++ command ++ "', try :help\n")]

/-- The events of a line, and then its value or its error. -/
def ofExpression (limits : Limits) (line : String) : Turn :=
  let result := evalLine limits line
  let reply :=
    match result.outcome with
    | .ok v => v.text
    | .error e => "err: " ++ e.message
  .answer (result.events.map Emission.event ++ [.out (reply ++ "\n")])

/-- What a text leads to. -/
def ofText (limits : Limits) (line : String) : Turn :=
  match trimBlanks line.toList with
  | [] => .answer []
  | ':' :: command => ofCommand (String.ofList (trimBlanks command))
  | cs => ofExpression limits (String.ofList cs)

/-- **What a line leads to.** -/
def ofLine (limits : Limits) (bytes : List UInt8) : Turn :=
  match decodeLine? bytes with
  | some line => ofText limits line
  | none => .unreadable

/-- What is written in a turn. -/
def emissions : Turn → List Emission
  | .answer es => es
  | .quit => [.out "\nGoodbye ☺\n"]
  | .unreadable => [.err "Error reading input: stream did not contain valid UTF-8\n"]

/-- The exit code, if the dialogue ends with this turn. -/
def code? : Turn → Option Nat
  | .answer _ => none
  | .quit => some 0
  | .unreadable => some 1

end Turn

/-- **The dialogue** over the lines that are left. The end of the input is as good as a command to
quit. -/
def dialogue (promptText : String) (limits : Limits) : List (List UInt8) → Transcript
  | [] => ⟨.out promptText :: Turn.quit.emissions, 0⟩
  | line :: lines =>
    let turn := Turn.ofLine limits line
    let emissions := .out promptText :: turn.emissions
    match turn.code? with
    | some code => ⟨emissions, code⟩
    | none => (dialogue promptText limits lines).after emissions

end CambridgePolish
