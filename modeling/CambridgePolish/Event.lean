import CambridgePolish.Expr.Basic
import CambridgePolish.Token.Basic

/-!
# Events: what there is to watch

While a line is read and evaluated, the interpreter notes what it does. These notes are data: they
are collected beside the result and written, or not, when the work is done. Every event has a
level, and a log at some level shows the events of that level and of all graver ones.
-/

namespace CambridgePolish

/-- Levels of the log, from silence to everything. -/
inductive Level
  | off
  | error
  | warn
  | info
  | debug
  | trace
deriving DecidableEq, Repr

namespace Level

/-- The levels, from silence to everything. -/
def all : List Level := [.off, .error, .warn, .info, .debug, .trace]

/-- How much a level shows. -/
def verbosity : Level → Nat
  | .off => 0
  | .error => 1
  | .warn => 2
  | .info => 3
  | .debug => 4
  | .trace => 5

/-- The name of a level. -/
def name : Level → String
  | .off => "off"
  | .error => "error"
  | .warn => "warn"
  | .info => "info"
  | .debug => "debug"
  | .trace => "trace"

/-- The level of a given name, in letters of any case. Only the bare name counts: a digit from `0`
to `5` names no level here, and neither does a filter such as `target=level`, which is meant for
one part of the program only. -/
def ofName? (s : String) : Option Level :=
  all.find? fun l => l.name.toList == s.toList.map Char.toLower

end Level

/-- Something that the interpreter did. -/
inductive Event
  /-- A word got its kind. -/
  | token (t : Token)
  /-- The line was cut into tokens. -/
  | tokenized (ts : List Token)
  /-- The line ended inside a group, which was closed; `column` is that of its parenthesis. -/
  | unclosed (o : Operator) (column : Nat)
  /-- The line was read. -/
  | parsed (e : Expr)
  /-- An operator is about to be called, at a depth counted from one. -/
  | applying (o : Operator) (operands : List Value) (depth : Nat)
  /-- The expression was evaluated. -/
  | evaluated (v : Value)
deriving Repr

namespace Event

/-- The level of an event. -/
def level : Event → Level
  | .token _ | .applying .. => .trace
  | _ => .debug

/-- A log at level `l` shows the event. -/
def shownAt (l : Level) (e : Event) : Bool :=
  e.level.verbosity ≤ l.verbosity

/-- The items between square brackets, with commas. -/
def listed (items : List String) : String :=
  "[" ++ ", ".intercalate items ++ "]"

/-- The part of the program that an event comes from. -/
def origin : Event → String
  | .token _ => "parencalc::interpreter::lexer"
  | .unclosed .. => "parencalc::interpreter::parser::core"
  | .applying .. => "parencalc::interpreter::evaluator::core"
  | _ => "parencalc"

/-- What happened, with its particulars. -/
def message : Event → String
  | .token t => s!"token kind={t.kind.text} text={quoted t.text} column={t.column}"
  | .tokenized ts => "tokenized tokens=" ++ listed (ts.map Token.logText)
  | .unclosed o column =>
    s!"input ended inside an open group; closing it procedure={quoted o.symbol} column={column}"
  | .parsed e => "parsed tree=" ++ e.text
  | .applying o operands depth =>
    s!"applying procedure={quoted o.symbol} arguments={listed (operands.map Value.logText)} " ++
      s!"depth={depth}"
  | .evaluated v => "evaluated value=" ++ v.text

/-- The name of the level at the start of a log line, five characters wide. -/
def label (e : Event) : String :=
  match e.level with
  | .trace => "TRACE"
  | .debug => "DEBUG"
  | .info => " INFO"
  | .warn => " WARN"
  | .error => "ERROR"
  | .off => "  OFF"

/-- **The log line** of an event, in the plain form that it has with `NO_COLOR` set. Otherwise the
same line also holds the codes that colour its parts. -/
def line (e : Event) : String :=
  e.label ++ " " ++ e.origin ++ ": " ++ e.message

end Event

end CambridgePolish
