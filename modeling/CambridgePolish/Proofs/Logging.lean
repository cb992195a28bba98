import CambridgePolish.Program.Run
import CambridgePolish.Proofs.OneLine

/-!
# The log is an observation

A log setting decides how much is written to the error output, and nothing else. To see this from
outside, the error output is taken as lines (`linesOf`), of which those that start with the name
of a level belong to the log (`lineLevel?`). Everything the program writes there is a whole line,
and a line of the log exactly when it comes from an event (`Emission.Orderly`,
`orderly_of_mem_emissions_run`), so the error output can be taken apart into the lines of what
was written (`linesOf_stderr_report`). Two runs with different log settings are then compared
line by line (`log_setting_is_observation`): one of them writes what the other writes, less the
lines of the log of some levels.
-/

namespace CambridgePolish

/-! ### Lines of the error output -/

/-- The lines of a text. What follows the last newline is the last line, which may be empty. -/
def linesOf (s : String) : List (List Char) :=
  s.toList.splitOn '\n'

theorem linesOf_empty : linesOf "" = [[]] := by
  simp [linesOf]

theorem linesOf_cons {line : String} (h : OneLine line) (rest : String) :
    linesOf (line ++ "\n" ++ rest) = line.toList :: linesOf rest := by
  have hline : ∀ c ∈ line.toList, (c == '\n') = false := by
    intro c hc
    rw [beq_eq_false_iff_ne]
    rintro rfl
    exact h hc
  have htext : (line ++ "\n" ++ rest).toList = line.toList ++ '\n' :: rest.toList := by simp
  rw [linesOf, linesOf, htext, List.splitOn_eq_splitOnP, List.splitOn_eq_splitOnP]
  exact List.splitOnP_append_cons_of_forall_mem hline '\n' rfl rest.toList

/-- How the lines of the log start, level by level. -/
def lineStarts : List (String × Level) :=
  [("ERROR ", .error), (" WARN ", .warn), (" INFO ", .info), ("DEBUG ", .debug), ("TRACE ", .trace)]

/-- **The level of a line of the log**, read off its start; `none` for any other line. -/
def lineLevel? (line : List Char) : Option Level :=
  (lineStarts.find? fun start => start.1.toList.isPrefixOf line).map Prod.snd

/-- The line stays in a log at level `l`: its level is shown, or it is no line of the log. -/
def staysAt (l : Level) (line : List Char) : Bool :=
  (lineLevel? line).all fun m => m.verbosity ≤ l.verbosity

theorem lineLevel?_line (event : Event) : lineLevel? event.line.toList = some event.level := by
  cases event <;> simp [Event.line, Event.label, Event.level, lineLevel?, lineStarts]

theorem staysAt_line (l : Level) (event : Event) :
    staysAt l event.line.toList = event.shownAt l := by
  rw [staysAt, lineLevel?_line, Option.all_some, Event.shownAt]

theorem staysAt_of_lineLevel?_eq_none {line : List Char} (h : lineLevel? line = none) (l : Level) :
    staysAt l line = true := by
  rw [staysAt, h, Option.all_none]

/-! ### What is written to the error output -/

/-- **What is written makes whole lines**: an event one line of the log, and any other text on the
error output one line that does not look like one of the log. -/
inductive Emission.Orderly : Emission → Prop
  | out (text : String) : Orderly (.out text)
  | err (line : String) (whole : OneLine line) (plain : lineLevel? line.toList = none) :
    Orderly (.err (line ++ "\n"))
  | event (e : Event) (whole : OneLine e.line) : Orderly (.event e)

/-- The line that a log at level `l` makes of an emission, if it is one for the error output. -/
def Emission.line? (l : Level) : Emission → Option (List Char)
  | .out _ => none
  | .err text => some text.toList.dropLast
  | .event e => if e.shownAt l then some e.line.toList else none

/-- The event that is emitted, if it is one. -/
def Emission.event? : Emission → Option Event
  | .out _ | .err _ => none
  | .event e => some e

/-- The events of a run. -/
def Transcript.events (t : Transcript) : List Event :=
  t.emissions.filterMap Emission.event?

section Transcript

variable {t : Transcript} {l m : Level} {emission : Emission}

/-- **The error output is the lines of the emissions**, one behind the other. -/
theorem linesOf_stderr_report (h : ∀ emission ∈ t.emissions, emission.Orderly) (l : Level) :
    linesOf (t.report l).stderr = t.emissions.filterMap (Emission.line? l) ++ [[]] := by
  obtain ⟨emissions, code⟩ := t
  simp only [Transcript.report] at h ⊢
  induction emissions with
  | nil => simp [linesOf_empty]
  | cons emission emissions ih =>
    obtain ⟨hfirst, hrest⟩ := List.forall_mem_cons.mp h
    rw [List.map_cons, String.join_cons, List.filterMap_cons]
    cases hfirst with
    | out text =>
      rw [Emission.stderr, String.empty_append]
      exact ih hrest
    | err line whole plain =>
      rw [Emission.stderr, linesOf_cons whole, ih hrest]
      simp [Emission.line?]
    | event e whole =>
      rw [Emission.stderr, Emission.line?]
      by_cases hshown : e.shownAt l
      · rw [if_pos hshown, if_pos hshown, linesOf_cons whole, ih hrest]
        rfl
      · -- neither a line nor its newline is written
        rw [if_neg hshown, if_neg hshown, String.empty_append, ih hrest]

/-- A less verbose log makes of an emission what is left of its line in a more verbose one. -/
theorem Emission.Orderly.filter_staysAt_line? (h : emission.Orderly)
    (hle : l.verbosity ≤ m.verbosity) :
    (emission.line? m).filter (staysAt l) = emission.line? l := by
  cases h with
  | out text => rfl
  | err line whole plain => simp [line?, Option.filter, staysAt_of_lineLevel?_eq_none plain]
  | event e whole =>
    by_cases hshown : e.shownAt l
    · -- what the less verbose log shows, the more verbose one shows too
      have hmore : e.shownAt m := decide_eq_true ((of_decide_eq_true hshown).trans hle)
      simp [line?, hshown, hmore, Option.filter, staysAt_line]
    · by_cases hmore : e.shownAt m
      · simp [line?, hshown, hmore, Option.filter, staysAt_line]
      · simp [line?, hshown, hmore]

/-- The lines that do not belong to the log are the same at any level. -/
theorem Emission.Orderly.filter_lineLevel?_eq_none (h : emission.Orderly) (l m : Level) :
    (emission.line? l).filter (lineLevel? · = none) =
      (emission.line? m).filter (lineLevel? · = none) := by
  cases h with
  | out text => rfl
  | err line whole plain => rfl
  | event e whole =>
    have hnone : ∀ l, ((Emission.event e).line? l).filter (lineLevel? · = none) = none := by
      intro l
      rw [line?]
      split_ifs
      · simp [Option.filter, lineLevel?_line]
      · rfl
    rw [hnone, hnone]

/-- The lines that belong to the log are those of the events. -/
theorem Emission.Orderly.filter_lineLevel?_ne_none (h : emission.Orderly) (l : Level) :
    (emission.line? l).filter (lineLevel? · ≠ none) =
      (emission.event?.filter (Event.shownAt l)).map (·.line.toList) := by
  cases h with
  | out text => rfl
  | err line whole plain => simp [line?, event?, Option.filter, plain]
  | event e whole =>
    rw [line?, event?]
    split_ifs with hshown
    · simp [Option.filter, hshown, lineLevel?_line]
    · simp [Option.filter, hshown]

theorem filter_staysAt_linesOf (h : ∀ emission ∈ t.emissions, emission.Orderly)
    (hle : l.verbosity ≤ m.verbosity) :
    (linesOf (t.report m).stderr).filter (staysAt l) = linesOf (t.report l).stderr := by
  rw [linesOf_stderr_report h, linesOf_stderr_report h, List.filter_append, List.filter_filterMap]
  congr 1
  exact List.filterMap_congr fun emission hmem => (h emission hmem).filter_staysAt_line? hle

theorem filter_lineLevel?_eq_none_linesOf (h : ∀ emission ∈ t.emissions, emission.Orderly)
    (l m : Level) :
    (linesOf (t.report l).stderr).filter (lineLevel? · = none) =
      (linesOf (t.report m).stderr).filter (lineLevel? · = none) := by
  rw [linesOf_stderr_report h, linesOf_stderr_report h, List.filter_append, List.filter_append,
    List.filter_filterMap, List.filter_filterMap]
  congr 1
  exact List.filterMap_congr fun emission hmem => (h emission hmem).filter_lineLevel?_eq_none l m

theorem filter_lineLevel?_ne_none_linesOf (h : ∀ emission ∈ t.emissions, emission.Orderly)
    (l : Level) :
    (linesOf (t.report l).stderr).filter (lineLevel? · ≠ none) =
      (t.events.filter (Event.shownAt l)).map (·.line.toList) := by
  have hlast : [[]].filter (lineLevel? · ≠ none) = [] := rfl
  rw [linesOf_stderr_report h, List.filter_append, hlast, List.append_nil, List.filter_filterMap,
    Transcript.events, List.filter_filterMap, List.map_filterMap]
  exact List.filterMap_congr fun emission hmem => (h emission hmem).filter_lineLevel?_ne_none l

end Transcript

theorem orderly_of_mem_events (limits : Limits) (line : String) :
    ∀ emission ∈ (evalLine limits line).events.map Emission.event, emission.Orderly :=
  List.forall_mem_map.mpr fun event hevent =>
    .event event (oneLine_of_mem_events_evalLine limits line event hevent)

theorem orderly_of_mem_emissions_runExpression (limits : Limits) (expression : String) :
    ∀ emission ∈ (runExpression limits expression).emissions, emission.Orderly := by
  have hevents := orderly_of_mem_events limits expression
  cases h : (evalLine limits expression).outcome with
  | ok v =>
    simp only [runExpression, h]
    exact List.forall_mem_append.mpr ⟨hevents, List.forall_mem_singleton.mpr (.out _)⟩
  | error err =>
    have hwhole : OneLine ("err: " ++ err.message) :=
      oneLine_append.mpr ⟨by decide, oneLine_message_of_evalLine h⟩
    have hplain : lineLevel? ("err: " ++ err.message).toList = none := by
      simp [lineLevel?, lineStarts]
    simp only [runExpression, h]
    exact List.forall_mem_append.mpr
      ⟨hevents, List.forall_mem_singleton.mpr (.err _ hwhole hplain)⟩

theorem Turn.orderly_of_mem_emissions_ofCommand (command : String) :
    ∀ emission ∈ (ofCommand command).emissions, emission.Orderly := by
  unfold ofCommand
  split_ifs
  all_goals exact List.forall_mem_singleton.mpr (.out _)

theorem Turn.orderly_of_mem_emissions_ofLine (limits : Limits) (bytes : List UInt8) :
    ∀ emission ∈ (ofLine limits bytes).emissions, emission.Orderly := by
  unfold ofLine
  split
  · unfold ofText
    split
    · exact List.forall_mem_nil _
    · exact orderly_of_mem_emissions_ofCommand _
    · exact List.forall_mem_append.mpr
        ⟨orderly_of_mem_events limits _, List.forall_mem_singleton.mpr (.out _)⟩
  · exact List.forall_mem_singleton.mpr
      (.err "Error reading input: stream did not contain valid UTF-8" (by decide) (by decide))

/-- In a dialogue everything written is orderly, turn after turn. -/
theorem orderly_of_mem_emissions_dialogue (promptText : String) (limits : Limits)
    (lines : List (List UInt8)) :
    ∀ emission ∈ (dialogue promptText limits lines).emissions, emission.Orderly := by
  induction lines with
  | nil => exact List.forall_mem_cons.mpr ⟨.out _, List.forall_mem_singleton.mpr (.out _)⟩
  | cons line lines ih =>
    have hturn : ∀ emission ∈ .out promptText :: (Turn.ofLine limits line).emissions,
        emission.Orderly :=
      List.forall_mem_cons.mpr ⟨.out _, Turn.orderly_of_mem_emissions_ofLine limits line⟩
    rw [dialogue]
    split
    · exact hturn
    · exact List.forall_mem_append.mpr ⟨hturn, ih⟩

/-- **Everything the program writes is orderly**, whatever it is asked. -/
theorem orderly_of_mem_emissions_run (o : Options) (input : List UInt8) :
    ∀ emission ∈ (o.run input).emissions, emission.Orderly := by
  unfold Options.run
  split
  · exact orderly_of_mem_emissions_runExpression o.limits _
  · exact orderly_of_mem_emissions_dialogue o.promptText o.limits _

/-! ### Two log settings -/

/-- **A log setting changes nothing but the log.** Let two command lines ask for the same, but for
the debug option, and let them be run in environments with any two log settings, on the same input.
Both runs print the same and end with the same exit code. Their error outputs are the same without
the lines of the log. If the log of the first is not the more verbose one, its error output is that
of the second without the lines of the log whose level the first does not show. The log of the first
holds the lines of the events of the run that its level shows. -/
theorem log_setting_is_observation (arguments arguments' : List String) (o o' : Options)
    (h : Request.ofArguments arguments = .start o) (h' : Request.ofArguments arguments' = .start o')
    (hsame : o' = { o with debug := o'.debug }) (setting setting' : Option String)
    (input : List UInt8) :
    ∃ report report', report? arguments setting input = some report ∧
      report? arguments' setting' input = some report' ∧
      report.stdout = report'.stdout ∧ report.code = report'.code ∧
      (linesOf report.stderr).filter (lineLevel? · = none) =
        (linesOf report'.stderr).filter (lineLevel? · = none) ∧
      ((o.level setting).verbosity ≤ (o'.level setting').verbosity →
        linesOf report.stderr = (linesOf report'.stderr).filter (staysAt (o.level setting))) ∧
      (linesOf report.stderr).filter (lineLevel? · ≠ none) =
        ((o.run input).events.filter (Event.shownAt (o.level setting))).map (·.line.toList) := by
  have hrun : o'.run input = o.run input := by
    rw [hsame]
    rfl
  have horderly := orderly_of_mem_emissions_run o input
  refine ⟨(o.run input).report (o.level setting), (o.run input).report (o'.level setting'), ?_, ?_,
    rfl, rfl, filter_lineLevel?_eq_none_linesOf horderly _ _, ?_,
    filter_lineLevel?_ne_none_linesOf horderly _⟩
  · simp only [report?, h]
  · simp only [report?, h', hrun]
  · intro hle
    exact (filter_staysAt_linesOf horderly hle).symm

/-- The debug option against the most verbose setting, on an expression that is closed at the end of
the input and then fails: each of these is noted, or told, in a line of its own, and with the debug
option these are the lines. -/
theorem log_setting_is_observation_on_unclosed_quotient :
    let closing := "DEBUG parencalc::interpreter::parser::core: " ++
      "input ended inside an open group; closing it "
    let lines := [
      "DEBUG parencalc: tokenized tokens=[\x7bGroupOpen, (\x7d, \x7bProcedure, /\x7d, " ++
        "\x7bInteger, 1\x7d, \x7bGroupOpen, (\x7d, \x7bProcedure, -\x7d, \x7bInteger, 2\x7d, " ++
        "\x7bInteger, 2\x7d]",
      closing ++ "procedure=\"-\" column=6",
      closing ++ "procedure=\"/\" column=1",
      "DEBUG parencalc: parsed tree=(/ 1 (- 2 2))",
      "err: \"/\": integer division by zero"]
    Request.ofArguments ["-D", "(/ 1 (- 2 2"] =
      .start { debug := true, expression := some "(/ 1 (- 2 2" } ∧
    Request.ofArguments ["(/ 1 (- 2 2"] = .start { expression := some "(/ 1 (- 2 2" } ∧
    ∃ report report', report? ["-D", "(/ 1 (- 2 2"] (some "off") [] = some report ∧
      report? ["(/ 1 (- 2 2"] (some "Trace") [] = some report' ∧
      report = ⟨1, "", String.join (lines.map (· ++ "\n"))⟩ ∧
      report.stdout = report'.stdout ∧ report.code = report'.code ∧
      linesOf report.stderr = (linesOf report'.stderr).filter (staysAt .debug) := by
  intro closing lines
  refine ⟨rfl, rfl, ?_⟩
  have hlog : report? ["-D", "(/ 1 (- 2 2"] (some "off") [] =
      some ⟨1, "", String.join (lines.map (· ++ "\n"))⟩ := by decide +kernel
  obtain ⟨report, report', hreport, hreport', hstdout, hcode, -, hlines, -⟩ :=
    log_setting_is_observation ["-D", "(/ 1 (- 2 2"] ["(/ 1 (- 2 2"] _ _ rfl rfl rfl (some "off")
      (some "Trace") []
  have hlines := hlines (by decide)
  rw [hlog] at hreport
  exact ⟨report, report', hlog.trans hreport, hreport', (Option.some.inj hreport).symm, hstdout,
    hcode, hlines⟩

end CambridgePolish
