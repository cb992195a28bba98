import CambridgePolish.Event

/-!
# Transcripts

What a run of the program writes, in order: texts on the standard output, texts on the error
output, and events, which the log puts on the error output if its level shows them. The level is
applied to a finished transcript and to nothing else, so it cannot change what else is written.
-/

namespace CambridgePolish

/-- Something to write. -/
inductive Emission
  /-- A text on the standard output. -/
  | out (text : String)
  /-- A text on the error output. -/
  | err (text : String)
  /-- An event for the log. -/
  | event (e : Event)

namespace Emission

/-- What appears on the standard output. -/
def stdout : Emission → String
  | .out text => text
  | .err _ | .event _ => ""

/-- What appears on the error output, under a log at level `l`. -/
def stderr (l : Level) : Emission → String
  | .out _ => ""
  | .err text => text
  | .event e => if e.shownAt l then e.line ++ "\n" else ""

end Emission

/-- All that a run writes, and its exit code. -/
structure Transcript where
  emissions : List Emission
  code : Nat

/-- What can be seen of a run from outside. -/
structure Report where
  code : Nat
  stdout : String
  stderr : String
deriving DecidableEq, Repr

namespace Transcript

/-- The transcript with something written before it. -/
def after (emissions : List Emission) (t : Transcript) : Transcript :=
  { t with emissions := emissions ++ t.emissions }

/-- **The report** of a run under a log at level `l`. -/
def report (l : Level) (t : Transcript) : Report :=
  { code := t.code
    stdout := String.join (t.emissions.map Emission.stdout)
    stderr := String.join (t.emissions.map (Emission.stderr l)) }

end Transcript

end CambridgePolish
