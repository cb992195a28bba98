import CambridgePolish.Program.Dialogue
import CambridgePolish.Program.Options

/-!
# The program

From the command line, the log setting of the environment and the bytes of the input to a report.
The wording of a complaint about the arguments is left to the command itself.
-/

namespace CambridgePolish

/-- The level of the log: that of the debug option if it is given, else the one that the environment
names, else warnings. A setting that is not the bare name of a level (`Level.ofName?`) counts as
none. -/
def Options.level (o : Options) (setting : Option String) : Level :=
  if o.debug then .debug else (setting.bind Level.ofName?).getD .warn

/-- The run of the program on one expression. -/
def runExpression (limits : Limits) (expression : String) : Transcript :=
  let result := evalLine limits expression
  let events := result.events.map Emission.event
  match result.outcome with
  | .ok v => ⟨events ++ [.out (v.text ++ "\n")], 0⟩
  | .error e => ⟨events ++ [.err ("err: " ++ e.message ++ "\n")], 1⟩

/-- The run of the program with given options. -/
def Options.run (o : Options) (input : List UInt8) : Transcript :=
  match o.expression with
  | some expression => runExpression o.limits expression
  | none => dialogue o.promptText o.limits (splitLines input)

/-- The name and version of the program. -/
def versionText : String := "parencalc 0.1.0\n"

/-- The arguments that the program takes, in one line. -/
def usageLine : String := "Usage: parencalc [OPTIONS] [EXPRESSION]\n"

/-- What an option is if it is not given; a value with a blank in it is quoted. -/
def defaultNote (value : String) : String :=
  "[default: " ++ (if value.toList.any isBlank then quoted value else value) ++ "]\n"

/-- The purpose of the program and the explanation of its options, with their defaults. -/
def usageText : String :=
  let standard : Options := {}
  "A small interpreter for parenthesized arithmetic expressions\n\n" ++ usageLine ++ "\n" ++
  "Arguments:\n" ++
  "  [EXPRESSION]  Evaluate this expression and exit instead of starting the REPL\n\n" ++
  "Options:\n" ++
  "  -p, --prompt <PROMPT>              Text printed before each line is read " ++
    defaultNote standard.promptText ++
  "  -D, --debug                        Log the tokens and tree of every line to stderr\n" ++
  "      --max-depth <MAX_DEPTH>        Deepest nesting of parentheses accepted " ++
    defaultNote (toString standard.limits.maxDepth) ++
  "      --max-children <MAX_CHILDREN>  Most arguments a single call may receive " ++
    defaultNote (toString standard.limits.maxOperands) ++
  "  -h, --help                         Print help\n" ++
  "  -V, --version                      Print version\n"

/-- **The report of the program** on its arguments, the log setting of its environment, and its
input; `none` if the arguments cannot be understood. -/
def report? (arguments : List String) (setting : Option String) (input : List UInt8) :
    Option Report :=
  match Request.ofArguments arguments with
  | .start o => some ((o.run input).report (o.level setting))
  | .version => some ⟨0, versionText, ""⟩
  | .help => some ⟨0, usageText, ""⟩
  | .misuse => none

end CambridgePolish
