import CambridgePolish.Program.Run
import Mathlib.Data.String.Basic
import Mathlib.Tactic.Common

/-!
# A dialogue, line by line

The answer to a line is a function of the line, so a dialogue over two inputs, one after the other,
is the dialogue over the first and then the one over the second, as long as the first ends with a
line and nothing in it ends the dialogue (`dialogue_append_of_goesOn`). Two things do: a command to
quit and a line that is not text (`Turn.code?_ofLine_eq_none_iff`). Behind such a line nothing is
looked at (`dialogue_append_of_stops`). At the end of the input there is one more prompt and the
farewell, which is what a dialogue over more input replaces by its further course
(`dialogues_follow_each_other`).
-/

namespace CambridgePolish

variable {bytes a b : List UInt8} {limits : Limits} {line : String}

/-! ### Lines -/

/-- The input ends where a line does. -/
def EndsLine (a : List UInt8) : Prop :=
  a = [] ∨ a.getLast? = some 10

theorem splitLines_ne_nil (h : a ≠ []) : splitLines a ≠ [] := by
  cases a with
  | nil => exact absurd rfl h
  | cons x a =>
    unfold splitLines
    split_ifs
    · simp
    · cases splitLines a <;> simp

/-- An input behind one that ends with a line begins a new line. -/
theorem splitLines_append (ha : EndsLine a) :
    splitLines (a ++ b) = splitLines a ++ splitLines b := by
  induction a with
  | nil => rfl
  | cons x a ih =>
    have hrest : EndsLine a := by
      rcases ha with ha | ha
      · cases ha
      · cases a with
        | nil => exact Or.inl rfl
        | cons y a => exact Or.inr ha
    rw [List.cons_append, splitLines, splitLines, ih hrest]
    split_ifs with hx
    · rfl
    · -- the line that `x` belongs to ends within `a`
      have hne : a ≠ [] := by
        rintro rfl
        rcases ha with ha | ha
        · cases ha
        · exact hx (Option.some.inj ha)
      obtain ⟨line, lines, hlines⟩ := List.exists_cons_of_ne_nil (splitLines_ne_nil hne)
      rw [hlines]
      rfl

/-! ### What ends a dialogue -/

/-- **A command to quit**: a colon and the word or its first letter, with blanks anywhere around
these. -/
def IsQuit (line : String) : Prop :=
  ∃ command, trimBlanks line.toList = ':' :: command ∧
    (trimBlanks command = "quit".toList ∨ trimBlanks command = "q".toList)

/-- **The dialogue goes on after the line**: its bytes are text, and this is no command to quit. -/
def GoesOn (bytes : List UInt8) : Prop :=
  ∃ line, decodeLine? bytes = some line ∧ ¬IsQuit line

theorem Turn.code?_ofCommand_eq_none_iff (command : String) :
    (ofCommand command).code? = none ↔ ¬(command = "quit" ∨ command = "q") := by
  unfold ofCommand
  split_ifs with hquit hhelp
  · simp [code?, hquit]
  · simp [code?, hquit]
  · simp [code?, hquit]

theorem Turn.code?_ofText_eq_none_iff : (ofText limits line).code? = none ↔ ¬IsQuit line := by
  unfold ofText IsQuit
  split
  · next htrim => simp [htrim, code?]
  · next command htrim => simp [code?_ofCommand_eq_none_iff, String.ofList_eq, htrim]
  · next hempty hcolon =>
    refine iff_of_true rfl ?_
    rintro ⟨command, htrim, -⟩
    exact hcolon command htrim

/-- The program goes on exactly then. -/
theorem Turn.code?_ofLine_eq_none_iff : (ofLine limits bytes).code? = none ↔ GoesOn bytes := by
  unfold ofLine GoesOn
  split
  · next line hline => simp [code?_ofText_eq_none_iff, hline]
  · next hline => simp [hline, code?]

/-! ### Dialogues -/

variable {promptText : String} {before after : List (List UInt8)}

/-- What is written while lines are answered, a prompt before each answer. -/
def answers (promptText : String) (limits : Limits) (lines : List (List UInt8)) : List Emission :=
  lines.flatMap fun bytes => .out promptText :: (Turn.ofLine limits bytes).emissions

/-- Lines that leave the dialogue going are answered first. -/
theorem dialogue_append_of_goesOn (h : ∀ bytes ∈ before, GoesOn bytes) :
    dialogue promptText limits (before ++ after) =
      (dialogue promptText limits after).after (answers promptText limits before) := by
  induction before with
  | nil => rfl
  | cons bytes before ih =>
    obtain ⟨hbytes, hbefore⟩ := List.forall_mem_cons.mp h
    rw [List.cons_append, dialogue, ih hbefore, Turn.code?_ofLine_eq_none_iff.mpr hbytes]
    simp [Transcript.after, answers]

/-- Nothing behind a line that ends the dialogue is looked at. -/
theorem dialogue_append_of_stops (h : ∃ bytes ∈ before, ¬GoesOn bytes) :
    dialogue promptText limits (before ++ after) = dialogue promptText limits before := by
  induction before with
  | nil => simp at h
  | cons bytes before ih =>
    rw [List.cons_append, dialogue, dialogue]
    cases hcode : (Turn.ofLine limits bytes).code? with
    | some code => rfl
    | none =>
      have hbytes : GoesOn bytes := Turn.code?_ofLine_eq_none_iff.mp hcode
      have hbefore : ∃ bytes ∈ before, ¬GoesOn bytes := by simpa [hbytes] using h
      simp only [ih hbefore]

/-! ### Reports -/

variable {l : Level} {emissions : List Emission}

theorem Transcript.report_after (t : Transcript) :
    (t.after emissions).report l =
      ⟨(t.report l).code, String.join (emissions.map Emission.stdout) ++ (t.report l).stdout,
        String.join (emissions.map (Emission.stderr l)) ++ (t.report l).stderr⟩ := by
  simp [after, report]

/-- The end of the input: a last prompt, the farewell, and nothing on the error output. -/
theorem report_dialogue_nil :
    (dialogue promptText limits []).report l = ⟨0, promptText ++ "\nGoodbye ☺\n", ""⟩ := by
  simp [dialogue, Turn.emissions, Transcript.report, Emission.stdout, Emission.stderr]

/-- **Dialogues follow each other.** Let the program hold a dialogue over an input `a` that ends
where a line does. If every line of `a` is text and none is a command to quit, its output ends with
a prompt and the farewell, and with more input `b` behind `a` it is, without these, followed by that
of a dialogue over `b`, and so is the error output; the exit code is that of the dialogue over `b`.
If some line of `a` is not text or is a command to quit, no input behind `a` makes a difference. -/
theorem dialogues_follow_each_other (o : Options) (ho : o.expression = none) (l : Level)
    (a b : List UInt8) (ha : EndsLine a) :
    ((∀ bytes ∈ splitLines a, GoesOn bytes) →
      ∃ output, ((o.run a).report l).stdout = output ++ o.promptText ++ "\nGoodbye ☺\n" ∧
        (o.run (a ++ b)).report l =
          { code := ((o.run b).report l).code
            stdout := output ++ ((o.run b).report l).stdout
            stderr := ((o.run a).report l).stderr ++ ((o.run b).report l).stderr }) ∧
    ((∃ bytes ∈ splitLines a, ¬GoesOn bytes) →
      (o.run (a ++ b)).report l = (o.run a).report l) := by
  have hrun : ∀ input, o.run input = dialogue o.promptText o.limits (splitLines input) := by
    intro input
    simp only [Options.run, ho]
  simp only [hrun, splitLines_append ha]
  constructor
  · intro hgoesOn
    -- the dialogue over `a` alone is the answers and then a dialogue over nothing
    have hfirst := @dialogue_append_of_goesOn o.limits o.promptText (splitLines a) [] hgoesOn
    rw [List.append_nil] at hfirst
    rw [hfirst, dialogue_append_of_goesOn hgoesOn, Transcript.report_after, Transcript.report_after,
      report_dialogue_nil, String.append_empty]
    exact ⟨_, String.append_assoc.symm, rfl⟩
  · intro hstops
    rw [dialogue_append_of_stops hstops]

/-- A dialogue that goes on behind an error and an unknown command, up to bytes that are not text:
the program complains about these and ends with exit code 1. In another one a command to quit comes
first, so that they are not looked at. -/
theorem dialogues_follow_each_other_at_broken_bytes :
    let answers := "» err: \"/\": integer division by zero\n" ++
      "» err: unknown command ':x', try :help\n"
    let log := "DEBUG parencalc: tokenized tokens=[\x7bGroupOpen, (\x7d, \x7bProcedure, /\x7d, " ++
      "\x7bInteger, 1\x7d, \x7bInteger, 0\x7d, \x7bGroupClose, )\x7d]\n" ++
      "DEBUG parencalc: parsed tree=(/ 1 0)\n"
    let complaint := "Error reading input: stream did not contain valid UTF-8\n"
    (Options.run {} "(/ 1 0)\n:x\n".toUTF8.data.toList).report .debug =
      ⟨0, answers ++ "» " ++ "\nGoodbye ☺\n", log⟩ ∧
    (Options.run {} [40, 200]).report .debug = ⟨1, "» ", complaint⟩ ∧
    (Options.run {} ("(/ 1 0)\n:x\n".toUTF8.data.toList ++ [40, 200])).report .debug =
      ⟨1, answers ++ "» ", log ++ complaint⟩ ∧
    (Options.run {} " : q\n".toUTF8.data.toList).report .debug = ⟨0, "» \nGoodbye ☺\n", ""⟩ ∧
    (Options.run {} (" : q\n".toUTF8.data.toList ++ [40, 200])).report .debug =
      ⟨0, "» \nGoodbye ☺\n", ""⟩ := by
  intro answers log complaint
  have hfirst : (Options.run {} "(/ 1 0)\n:x\n".toUTF8.data.toList).report .debug =
      ⟨0, answers ++ "» " ++ "\nGoodbye ☺\n", log⟩ := by decide +kernel
  have hbroken : (Options.run {} [40, 200]).report .debug = ⟨1, "» ", complaint⟩ := by
    decide +kernel
  have hgoesOn : ∀ bytes ∈ splitLines "(/ 1 0)\n:x\n".toUTF8.data.toList,
      (Turn.ofLine .default bytes).code? = none := by decide +kernel
  have hquit : (Turn.ofLine .default " : q\n".toUTF8.data.toList).code? ≠ none := by decide +kernel
  have hfarewell : (Options.run {} " : q\n".toUTF8.data.toList).report .debug =
      ⟨0, "» \nGoodbye ☺\n", ""⟩ := by decide +kernel
  refine ⟨hfirst, hbroken, ?_, hfarewell, ?_⟩
  · obtain ⟨output, houtput, hreport⟩ :=
      (dialogues_follow_each_other {} rfl .debug _ [40, 200] (Or.inr (by decide +kernel))).1
        fun bytes hmem => Turn.code?_ofLine_eq_none_iff.mp (hgoesOn bytes hmem)
    rw [hfirst] at houtput hreport
    have hanswers := (String.append_left_inj _).mp houtput
    obtain rfl : answers = output := (String.append_left_inj _).mp hanswers
    rw [hreport, hbroken]
  · rw [(dialogues_follow_each_other {} rfl .debug _ [40, 200] (Or.inr (by decide +kernel))).2
      ⟨" : q\n".toUTF8.data.toList, by decide +kernel,
        fun h => hquit (Turn.code?_ofLine_eq_none_iff.mpr h)⟩, hfarewell]

end CambridgePolish
