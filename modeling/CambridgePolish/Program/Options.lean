import CambridgePolish.Limits

/-!
# The command line

Arguments are read from left to right, and the first that settles the matter decides: a request for
the version or for help is granted, and a misuse refused, whatever follows. Otherwise the program
starts, with an expression to evaluate or without.

Options may stand before and behind the expression. An option takes its value from the rest of its
own argument or from the next argument, which must then not look like an option. No option may be
given twice, and there is at most one expression. Behind a lone `--` nothing is an option.
-/

namespace CambridgePolish

/-- How the program was told to run. -/
structure Options where
  /-- What is printed before each line of a dialogue. -/
  promptText : String := "» "
  /-- The log shows what is done to each line. -/
  debug : Bool := false
  /-- The limits for every line. -/
  limits : Limits := {}
  /-- The expression to evaluate instead of holding a dialogue. -/
  expression : Option String := none
deriving Repr

/-- What the command line asks for. -/
inductive Request
  /-- To run. -/
  | start (options : Options)
  /-- To print the version. -/
  | version
  /-- To explain the options. -/
  | help
  /-- Something that cannot be understood. -/
  | misuse
deriving Repr

/-- The options. -/
inductive Flag
  | promptText
  | debug
  | maxDepth
  | maxOperands
  | version
  | help
deriving DecidableEq, Repr

namespace Flag

/-- The option of a long name. -/
def ofLong? : String → Option Flag
  | "prompt" => some .promptText
  | "debug" => some .debug
  | "max-depth" => some .maxDepth
  | "max-children" => some .maxOperands
  | "version" => some .version
  | "help" => some .help
  | _ => none

/-- The option of a letter. -/
def ofShort? : Char → Option Flag
  | 'p' => some .promptText
  | 'D' => some .debug
  | 'V' => some .version
  | 'h' => some .help
  | _ => none

/-- The option has a value. -/
def takesValue : Flag → Bool
  | .promptText | .maxDepth | .maxOperands => true
  | .debug | .version | .help => false

end Flag

/-- The value of a limit: decimal digits, with at most a plus sign in front, below `2 ^ 64`. -/
def readLimit? (s : String) : Option Nat :=
  let digits :=
    match s.toList with
    | '+' :: cs => cs
    | cs => cs
  let n := Nat.ofDigitChars 10 digits 0
  if digits ≠ [] ∧ digits.all Char.isDigit ∧ n < Nat.pow 2 64 then some n else none

/-- What has been given so far. -/
structure Given where
  promptText : Option String := none
  debug : Bool := false
  maxDepth : Option Nat := none
  maxOperands : Option Nat := none
  expression : Option String := none

namespace Given

/-- Fills a place that must be empty. -/
def fill? {α : Type} (place : Option α) (a : α) : Option (Option α) :=
  match place with
  | none => some (some a)
  | some _ => none

/-- Gives an option its value, unless it has one or the value is none for it. -/
def set? (g : Given) (flag : Flag) (value : String) : Option Given :=
  match flag with
  | .promptText => do return { g with promptText := ← fill? g.promptText value }
  | .maxDepth => do return { g with maxDepth := ← fill? g.maxDepth (← readLimit? value) }
  | .maxOperands => do return { g with maxOperands := ← fill? g.maxOperands (← readLimit? value) }
  | .debug | .version | .help => none

/-- Gives the expression, unless there is one. -/
def setExpression? (g : Given) (s : String) : Option Given := do
  return { g with expression := ← fill? g.expression s }

/-- The options, where those that were not given have their default. -/
def options (g : Given) : Options :=
  let standard : Options := {}
  { promptText := g.promptText.getD standard.promptText
    debug := g.debug
    limits :=
      { maxDepth := g.maxDepth.getD standard.limits.maxDepth
        maxOperands := g.maxOperands.getD standard.limits.maxOperands }
    expression := g.expression }

end Given

/-- What one argument leaves behind. -/
inductive Progress
  /-- Nothing is pending. -/
  | ready (g : Given)
  /-- The option takes the next argument for its value. -/
  | awaiting (flag : Flag) (g : Given)
  /-- The matter is settled. -/
  | settled (r : Request)

namespace Progress

/-- Goes on if there is something to go on with. -/
def ofGiven? : Option Given → Progress
  | some g => .ready g
  | none => .settled .misuse

/-- The effect of an option that has no value. -/
def ofFlag (g : Given) : Flag → Progress
  | .version => .settled .version
  | .help => .settled .help
  | .debug => if g.debug then .settled .misuse else .ready { g with debug := true }
  | .promptText | .maxDepth | .maxOperands => .settled .misuse

/-- Reads the letters behind a single dash. The first letter of an option with a value ends them:
what follows, less one equals sign, is the value. -/
def ofLetters (g : Given) : List Char → Progress
  | [] => .ready g
  | c :: cs =>
    match Flag.ofShort? c with
    | none => .settled .misuse
    | some flag =>
      if flag.takesValue then
        match cs with
        | [] => .awaiting flag g
        | '=' :: value => ofGiven? (g.set? flag (String.ofList value))
        | value => ofGiven? (g.set? flag (String.ofList value))
      else
        match ofFlag g flag with
        | .ready g => ofLetters g cs
        | other => other

/-- Reads what stands behind two dashes: a name, and perhaps an equals sign and a value. -/
def ofLong (g : Given) (cs : List Char) : Progress :=
  let name := cs.takeWhile (· != '=')
  match Flag.ofLong? (String.ofList name), cs.drop name.length with
  | none, _ => .settled .misuse
  | some flag, [] => if flag.takesValue then .awaiting flag g else ofFlag g flag
  | some flag, _ :: value => ofGiven? (g.set? flag (String.ofList value))

/-- Reads one argument. -/
def ofArgument (g : Given) (argument : String) : Progress :=
  match argument.toList with
  | '-' :: '-' :: cs => ofLong g cs
  | '-' :: c :: cs => ofLetters g (c :: cs)
  | _ => ofGiven? (g.setExpression? argument)

/-- Reads the value of an option that waits for one. -/
def ofValue (flag : Flag) (g : Given) (argument : String) : Progress :=
  match argument.toList with
  | '-' :: _ :: _ => .settled .misuse
  | _ => ofGiven? (g.set? flag argument)

end Progress

/-- Reads arguments none of which is an option. -/
def readPlain (g : Given) : List String → Request
  | [] => .start g.options
  | a :: as =>
    match g.setExpression? a with
    | some g => readPlain g as
    | none => .misuse

/-- Reads the arguments that follow. -/
def readArguments : Progress → List String → Request
  | .settled r, _ => r
  | .ready g, [] => .start g.options
  | .awaiting .., [] => .misuse
  | .ready g, a :: as =>
    if a = "--" then readPlain g as else readArguments (Progress.ofArgument g a) as
  | .awaiting flag g, a :: as => readArguments (Progress.ofValue flag g a) as

/-- **What the command line asks for.** -/
def Request.ofArguments (arguments : List String) : Request :=
  readArguments (.ready {}) arguments

end CambridgePolish
