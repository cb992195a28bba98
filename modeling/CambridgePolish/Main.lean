import CambridgePolish.Program.Run

/-!
# The command

Reads arguments, environment and input, and writes what the program says. A dialogue is held line by
line, so that an answer appears as soon as its line is entered.
-/

namespace CambridgePolish

/-- Writes an emission where it belongs. -/
def Emission.write (l : Level) (e : Emission) : IO Unit := do
  let stdout ← IO.getStdout
  let stderr ← IO.getStderr
  stdout.putStr e.stdout
  stdout.flush
  stderr.putStr (e.stderr l)

/-- Reads on to the next newline or to the end of the input, a byte at a time. -/
partial def readRawLine (stdin : IO.FS.Stream) (read : ByteArray) : IO ByteArray := do
  let bytes ← stdin.read 1
  if bytes.isEmpty then return read
  let read := read ++ bytes
  if bytes.toList = [10] then return read
  readRawLine stdin read

/-- Holds a dialogue, and gives its exit code. This is the loop of `dialogue`, taken through the
same turns (`Turn.ofLine`, `Turn.emissions`, `Turn.code?`), but here a line is asked for when the
prompt is already written, and nothing read stands for the end of the input. -/
partial def hold (l : Level) (o : Options) : IO UInt32 := do
  Emission.write l (.out o.promptText)
  let line ← readRawLine (← IO.getStdin) .empty
  let turn := if line.isEmpty then Turn.quit else Turn.ofLine o.limits line.toList
  turn.emissions.forM (Emission.write l)
  match turn.code? with
  | some code => return code.toUInt32
  | none => hold l o

end CambridgePolish

open CambridgePolish in
/-- The program. Of arguments that cannot be understood it only says that much. -/
def main (arguments : List String) : IO UInt32 := do
  match Request.ofArguments arguments with
  | .start o =>
    let l := o.level (← IO.getEnv "RUST_LOG")
    match o.expression with
    | some _ =>
      let t := o.run []
      t.emissions.forM (Emission.write l)
      return t.code.toUInt32
    | none => hold l o
  | .version =>
    IO.print versionText
    return 0
  | .help =>
    IO.print usageText
    return 0
  | .misuse =>
    IO.eprint ("error: the arguments cannot be understood\n\n" ++ usageLine ++
      "\nFor more information, try '--help'.\n")
    return 2
