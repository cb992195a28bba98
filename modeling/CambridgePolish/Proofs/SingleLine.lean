import CambridgePolish.Proofs.LineByLine
import CambridgePolish.Proofs.Places
import Mathlib.Data.List.TakeWhile


/-!
# An expression on the command line, and the same one in a dialogue

An expression may be given on the command line or entered as a line of a dialogue, and the program
says the same about it, with one exception (`dialogue_answers_like_command_line`). A line of a
dialogue is relieved of the blanks around it before it is evaluated, and an expression on the
command line is not. The blanks behind the last word do not matter (`words_append_blanks`), but
those in front of the first word move all columns (`words_eq_map_trimBlanks`). So an error that has
a column is reported with different columns if the line starts with blanks: on the command line with
the place of the word in what was entered, in the dialogue with the place behind the blanks.
-/

namespace CambridgePolish

variable {c : Char} {cs blanks : List Char} {e : String}

/-! ### Bytes of a line -/

theorem decodeLine?_toUTF8 (s : String) : decodeLine? s.toUTF8.data.toList = some s := by
  unfold decodeLine? String.fromUTF8?
  rw [Array.toArray_toList]
  exact dif_pos s.isValidUTF8

/-- A newline byte comes from a newline only. -/
theorem eq_newline_of_mem_utf8EncodeChar (h : 10 ∈ String.utf8EncodeChar c) : c = '\n' := by
  unfold String.utf8EncodeChar at h
  simp only at h
  split_ifs at h with hone htwo hthree
  · have hval : c.val.toNat = 10 := by
      have hmod := congrArg UInt8.toNat (List.mem_singleton.mp h)
      rw [UInt8.toNat_ofNat'] at hmod
      change 10 = c.val.toNat % 256 at hmod
      omega
    exact Char.ext (UInt32.toNat_inj.mp hval)
  -- all bytes of a longer encoding are at least 128
  all_goals
    simp only [List.mem_cons, List.not_mem_nil, or_false, ← UInt8.toNat_inj, UInt8.toNat_ofNat',
      UInt8.reduceToNat] at h
    omega

theorem ten_not_mem_toUTF8 (h : '\n' ∉ e.toList) : 10 ∉ e.toUTF8.data.toList := by
  have hbytes : e.toUTF8.data.toList = e.toList.flatMap String.utf8EncodeChar := by
    rw [String.toUTF8, ← String.utf8Encode_toList, List.utf8Encode, List.data_toByteArray]
  rw [hbytes]
  intro hmem
  obtain ⟨c, hc, hten⟩ := List.mem_flatMap.mp hmem
  exact h (eq_newline_of_mem_utf8EncodeChar hten ▸ hc)

/-- Bytes without a newline are one line, with or without a newline behind them. -/
theorem splitLines_of_not_mem {bytes ending : List UInt8} (hne : bytes ≠ []) (h : 10 ∉ bytes)
    (hending : ending = [] ∨ ending = [10]) : splitLines (bytes ++ ending) = [bytes ++ ending] := by
  induction bytes with
  | nil => exact absurd rfl hne
  | cons b bytes ih =>
    rw [List.mem_cons, not_or] at h
    obtain ⟨hb, hbytes⟩ := h
    cases bytes with
    | nil => rcases hending with rfl | rfl <;> simp [splitLines, Ne.symm hb]
    | cons b' bytes =>
      rw [List.cons_append, splitLines, if_neg (Ne.symm hb), ih (by simp) hbytes]

/-! ### Blanks around a text -/

theorem trimBlanks_append_blank (hc : isBlank c) (cs : List Char) :
    trimBlanks (cs ++ [c]) = trimBlanks cs := by
  unfold trimBlanks
  rw [List.dropWhile_append]
  split_ifs with hempty
  · rw [List.isEmpty_iff] at hempty
    simp [hempty, hc]
  · simp [hc]

/-- A text is the text without the blanks at either end, between these blanks. -/
theorem exists_eq_trimBlanks (cs : List Char) :
    ∃ behind, (∀ c ∈ behind, isBlank c) ∧
      cs = cs.takeWhile isBlank ++ (trimBlanks cs ++ behind) := by
  refine ⟨((cs.dropWhile isBlank).reverse.takeWhile isBlank).reverse, ?_, ?_⟩
  · intro c hc
    exact List.mem_takeWhile_imp (List.mem_reverse.mp hc)
  · rw [trimBlanks, ← List.reverse_append, List.takeWhile_append_dropWhile, List.reverse_reverse,
      List.takeWhile_append_dropWhile]

theorem words_blanks_append {column : Nat} (h : ∀ c ∈ blanks, isBlank c) (cs : List Char) :
    words column (blanks ++ cs) = words (column + blanks.length) cs := by
  induction blanks generalizing column with
  | nil => rfl
  | cons b blanks ih =>
    obtain ⟨hb, hblanks⟩ := List.forall_mem_cons.mp h
    rw [List.cons_append, words_blank hb, ih hblanks, List.length_cons, Nat.add_comm blanks.length,
      Nat.add_assoc]

theorem words_append_blanks {column : Nat} (cs : List Char) (h : ∀ c ∈ blanks, isBlank c) :
    words column (cs ++ blanks) = words column cs := by
  cases blanks with
  | nil => rw [List.append_nil]
  | cons b blanks =>
    obtain ⟨hb, hblanks⟩ := List.forall_mem_cons.mp h
    have hnone := @words_blanks_append blanks (column + cs.length + 1) hblanks []
    rw [List.append_nil] at hnone
    rw [words_append_cons hb, hnone, words, List.append_nil]

/-- **Blanks around a text move its words.** -/
theorem words_eq_map_trimBlanks (column : Nat) (cs : List Char) :
    words column cs =
      (words column (trimBlanks cs)).map (Word.mapColumn (· + (cs.takeWhile isBlank).length)) := by
  obtain ⟨behind, hbehind, hcs⟩ := exists_eq_trimBlanks cs
  have hfront : ∀ c ∈ cs.takeWhile isBlank, isBlank c := fun c => List.mem_takeWhile_imp
  conv_lhs => rw [hcs]
  rw [words_blanks_append hfront, words_append_blanks _ hbehind, words_add]

/-- The value of a text with blanks around it. -/
theorem outcome_evalLine_trimBlanks (limits : Limits) (line : String) :
    (evalLine limits line).outcome =
      relabel id (LineError.mapColumn (· + (line.toList.takeWhile isBlank).length))
        (evalLine limits (String.ofList (trimBlanks line.toList))).outcome := by
  rw [outcome_evalLine, outcome_evalLine, words_eq_map_trimBlanks, valueOfWords_mapColumn,
    String.toList_ofList]

/-! ### Columns in messages -/

/-- The word that an error of a line names, and its column. -/
def LineError.place? : LineError → Option (String × Nat)
  | .read err => err.place?
  | .eval _ => none

/-- **A message shows the column** of its error. -/
theorem ReadError.message_mapColumn_eq_iff {err : ReadError} {word : String} {column : Nat}
    (f : Nat → Nat) (h : err.place? = some (word, column)) :
    (err.mapColumn f).message = err.message ↔ f column = column := by
  -- a column is read back from its digits
  have hdigits (m n : Nat) : m.repr = n.repr ↔ m = n := by
    refine ⟨fun h => ?_, congrArg Nat.repr⟩
    have hread := congrArg (fun s => Nat.ofDigitChars 10 s.toList 0) h
    simpa only [Nat.toList_repr, Nat.ofDigitChars_ten_toDigits] using hread
  cases err with
  | empty => cases h
  | severalForms count => cases h
  | tooDeep limit => cases h
  | tooManyOperands operator limit => cases h
  | _ =>
    cases h
    -- the texts around the columns are the same on both sides
    unfold mapColumn message
    simp only [String.append_left_inj, String.append_right_inj]
    exact hdigits _ _

theorem ReadError.mapColumn_eq_self {err : ReadError} (f : Nat → Nat) (h : err.place? = none) :
    err.mapColumn f = err := by
  cases err with
  | empty => rfl
  | severalForms count => rfl
  | tooDeep limit => rfl
  | tooManyOperands operator limit => rfl
  | _ => cases h

theorem ReadError.place?_mapColumn (f : Nat → Nat) (err : ReadError) :
    (err.mapColumn f).place? = err.place?.map fun place => (place.1, f place.2) := by
  cases err <;> rfl

/-- A message stays the same if the columns are not moved, or if its error has none. -/
theorem LineError.message_add_eq_iff (k : Nat) (err : LineError) :
    (err.mapColumn (· + k)).message = err.message ↔
      k = 0 ∨ (err.mapColumn (· + k)).place? = none := by
  cases err with
  | eval err => exact iff_of_true rfl (Or.inr rfl)
  | read err =>
    simp only [mapColumn, message, place?, ReadError.place?_mapColumn]
    cases hplace : err.place? with
    | none => simp [ReadError.mapColumn_eq_self _ hplace]
    | some place => simp [ReadError.message_mapColumn_eq_iff _ hplace]

/-! ### What the program says -/

/-- What the program says about an expression on its command line, with the log
as it is by default. -/
def askedAlone (promptText : String) (limits : Limits) (e : String) : Report :=
  let o : Options := { promptText, limits, expression := some e }
  (o.run []).report (o.level none)

/-- What the program says in a dialogue over an input, with the log as it is by default. -/
def askedInDialogue (promptText : String) (limits : Limits) (input : List UInt8) : Report :=
  let o : Options := { promptText, limits }
  (o.run input).report (o.level none)

variable {promptText : String} {limits : Limits}

/-- By default the log shows nothing. -/
theorem shownAt_warn (event : Event) : event.shownAt .warn = false := by
  cases event <;> rfl

theorem Transcript.after_append (t : Transcript) (before behind : List Emission) :
    t.after (before ++ behind) = (t.after behind).after before := by
  simp [after]

theorem join_map_event {f : Emission → String} (hf : ∀ event, f (.event event) = "")
    (events : List Event) : String.join ((events.map Emission.event).map f) = "" := by
  induction events with
  | nil => rfl
  | cons event events ih => simpa [hf] using ih

theorem report_after_events (events : List Event) (t : Transcript) :
    (t.after (events.map Emission.event)).report .warn = t.report .warn := by
  have hstdout : ∀ event, (Emission.event event).stdout = "" := fun event => rfl
  have hstderr : ∀ event, (Emission.event event).stderr .warn = "" := by
    intro event
    simp [Emission.stderr, shownAt_warn]
  rw [Transcript.report_after, join_map_event hstdout, join_map_event hstderr]
  simp

theorem askedAlone_of_ok {v : Value} (h : (evalLine limits e).outcome = .ok v) :
    askedAlone promptText limits e = ⟨0, v.text ++ "\n", ""⟩ := by
  have hrun : runExpression limits e =
      Transcript.after ((evalLine limits e).events.map Emission.event)
        ⟨[.out (v.text ++ "\n")], 0⟩ := by
    simp only [runExpression, h, Transcript.after]
  change (runExpression limits e).report .warn = _
  rw [hrun, report_after_events]
  simp [Transcript.report, Emission.stdout, Emission.stderr]

theorem askedAlone_of_error {err : LineError} (h : (evalLine limits e).outcome = .error err) :
    askedAlone promptText limits e = ⟨1, "", "err: " ++ err.message ++ "\n"⟩ := by
  have hrun : runExpression limits e =
      Transcript.after ((evalLine limits e).events.map Emission.event)
        ⟨[.err ("err: " ++ err.message ++ "\n")], 1⟩ := by
    simp only [runExpression, h, Transcript.after]
  change (runExpression limits e).report .warn = _
  rw [hrun, report_after_events]
  simp [Transcript.report, Emission.stdout, Emission.stderr]

/-- **The text is a line to be evaluated**: it is one line, it is not blank, and
it is no command. -/
structure IsExpressionLine (e : String) : Prop where
  newline : '\n' ∉ e.toList
  nonblank : trimBlanks e.toList ≠ []
  noCommand : (trimBlanks e.toList).head? ≠ some ':'

/-- The bytes of a text are its line, also with a newline behind them. -/
theorem exists_decodeLine? {ending : List UInt8} (hending : ending = [] ∨ ending = [10])
    (e : String) :
    ∃ line, decodeLine? (e.toUTF8.data.toList ++ ending) = some line ∧
      trimBlanks line.toList = trimBlanks e.toList := by
  rcases hending with rfl | rfl
  · exact ⟨e, by rw [List.append_nil, decodeLine?_toUTF8], rfl⟩
  · have hbytes : e.toUTF8.data.toList ++ [10] = (e ++ "\n").toUTF8.data.toList := by
      rw [String.toUTF8, String.toUTF8, String.toByteArray_append, ByteArray.data_append,
        Array.toList_append]
      rfl
    refine ⟨e ++ "\n", by rw [hbytes, decodeLine?_toUTF8], ?_⟩
    rw [String.toList_append]
    exact trimBlanks_append_blank (by decide) e.toList

theorem IsExpressionLine.ofLine_eq (he : IsExpressionLine e) {ending : List UInt8}
    (hending : ending = [] ∨ ending = [10]) (limits : Limits) :
    Turn.ofLine limits (e.toUTF8.data.toList ++ ending) =
      Turn.ofExpression limits (String.ofList (trimBlanks e.toList)) := by
  obtain ⟨line, hline, htrim⟩ := exists_decodeLine? hending e
  simp only [Turn.ofLine, hline, Turn.ofText, htrim]
  split
  · next hempty => exact absurd hempty he.nonblank
  · next command hcommand => exact absurd (by rw [hcommand]; rfl) he.noCommand
  · rfl

/-- The answer to a value or an error. -/
def answerText : Except LineError Value → String
  | .ok v => v.text ++ "\n"
  | .error err => "err: " ++ err.message ++ "\n"

theorem Turn.emissions_ofExpression (limits : Limits) (line : String) :
    (ofExpression limits line).emissions =
      (evalLine limits line).events.map Emission.event ++
        [.out (answerText (evalLine limits line).outcome)] := by
  unfold ofExpression
  cases h : (evalLine limits line).outcome <;> simp [h, answerText, emissions]

theorem IsExpressionLine.askedInDialogue_eq (he : IsExpressionLine e) {ending : List UInt8}
    (hending : ending = [] ∨ ending = [10]) (promptText : String) (limits : Limits) :
    askedInDialogue promptText limits (e.toUTF8.data.toList ++ ending) =
      { code := 0
        stdout := promptText ++
          answerText (evalLine limits (String.ofList (trimBlanks e.toList))).outcome ++
            promptText ++ "\nGoodbye ☺\n"
        stderr := "" } := by
  have hne : e.toUTF8.data.toList ≠ [] := by
    intro hnil
    have hempty := decodeLine?_toUTF8 e
    rw [hnil] at hempty
    -- no bytes are the empty text, which is blank
    cases hempty
    exact he.nonblank rfl
  have hgoesOn :
      (Turn.ofExpression limits (String.ofList (trimBlanks e.toList))).code? = none := rfl
  change (dialogue promptText limits (splitLines (e.toUTF8.data.toList ++ ending))).report .warn = _
  rw [splitLines_of_not_mem hne (ten_not_mem_toUTF8 he.newline) hending, dialogue,
    he.ofLine_eq hending, hgoesOn, Turn.emissions_ofExpression]
  simp only
  rw [← List.singleton_append, Transcript.after_append, Transcript.after_append,
    Transcript.report_after, report_after_events, Transcript.report_after, report_dialogue_nil]
  simp [Emission.stdout, Emission.stderr, String.append_assoc]

/-- **A dialogue answers like the command line**, but for the column of an error behind blanks. A
value is printed alike. An error on the command line points at the place in what was entered where
the word it names stands, and in the dialogue its column is less by the number of blanks in front.
So both say the same if and only if there are none or the error has no column. -/
theorem dialogue_answers_like_command_line (promptText : String) (limits : Limits) (e : String)
    (he : IsExpressionLine e) (ending : List UInt8) (hending : ending = [] ∨ ending = [10]) :
    (∀ v, (evalLine limits e).outcome = .ok v →
      askedAlone promptText limits e = ⟨0, v.text ++ "\n", ""⟩ ∧
      askedInDialogue promptText limits (e.toUTF8.data.toList ++ ending) =
        ⟨0, promptText ++ (v.text ++ "\n") ++ promptText ++ "\nGoodbye ☺\n", ""⟩) ∧
    ∀ err, (evalLine limits e).outcome = .error err →
      askedAlone promptText limits e = ⟨1, "", "err: " ++ err.message ++ "\n"⟩ ∧
      (∀ word column, err.place? = some (word, column) → StandsAt word.toList column e.toList) ∧
      ∃ err' : LineError, err = err'.mapColumn (· + (e.toList.takeWhile isBlank).length) ∧
        askedInDialogue promptText limits (e.toUTF8.data.toList ++ ending) =
          ⟨0, promptText ++ ("err: " ++ err'.message ++ "\n") ++ promptText ++
            "\nGoodbye ☺\n", ""⟩ ∧
        (err.message = err'.message ↔ e.toList.takeWhile isBlank = [] ∨ err.place? = none) := by
  -- what the dialogue evaluates is the trimmed text, so its outcome decides the one of `e`
  have htrimmed := outcome_evalLine_trimBlanks limits e
  have hasked := he.askedInDialogue_eq hending promptText limits
  cases houtcome : (evalLine limits (String.ofList (trimBlanks e.toList))).outcome with
  | ok v =>
    rw [houtcome] at htrimmed hasked
    constructor
    · intro v' hv
      cases htrimmed.symm.trans hv
      exact ⟨askedAlone_of_ok hv, hasked⟩
    · intro err herr
      cases htrimmed.symm.trans herr
  | error err' =>
    rw [houtcome] at htrimmed hasked
    constructor
    · intro v hv
      cases htrimmed.symm.trans hv
    · intro err herr
      cases htrimmed.symm.trans herr
      refine ⟨askedAlone_of_error herr, ?_, err', rfl, hasked, ?_⟩
      · intro word column hplace
        cases err' with
        | read err => exact standsAt_of_evalLine herr hplace
        | eval err => cases hplace
      · rw [LineError.message_add_eq_iff, List.length_eq_zero_iff]

/-- An error behind a blank, and a value between blanks. -/
theorem dialogue_answers_like_command_line_between_blanks :
    (∃ err' : LineError, .read (.unknownName "x" 7) = err'.mapColumn (· + 1) ∧
      askedAlone "» " .default " (+ 1 x)" =
        ⟨1, "", "err: " ++ (ReadError.unknownName "x" 7).message ++ "\n"⟩ ∧
      askedInDialogue "» " .default (" (+ 1 x)".toUTF8.data.toList ++ [10]) =
        ⟨0, "» " ++ ("err: " ++ err'.message ++ "\n") ++ "» " ++ "\nGoodbye ☺\n", ""⟩) ∧
    askedInDialogue "» " .default ("\t(+ 1 2) ".toUTF8.data.toList ++ []) =
      ⟨0, "» " ++ ((Value.int 3).text ++ "\n") ++ "» " ++ "\nGoodbye ☺\n", ""⟩ := by
  constructor
  · have he : IsExpressionLine " (+ 1 x)" := ⟨by decide, by decide, by decide⟩
    obtain ⟨halone, -, err', herr', hdialogue, -⟩ :=
      (dialogue_answers_like_command_line "» " .default _ he [10] (Or.inr rfl)).2
        (.read (.unknownName "x" 7)) (by decide +kernel)
    exact ⟨err', herr', halone, hdialogue⟩
  · have he : IsExpressionLine "\t(+ 1 2) " := ⟨by decide, by decide, by decide⟩
    exact ((dialogue_answers_like_command_line "» " .default _ he [] (Or.inl rfl)).1
      (.int 3) (by decide +kernel)).2

/-- In a dialogue the columns are those behind the blanks, so they are no places in the line. -/
theorem dialogue_counts_columns_behind_blanks :
    askedAlone "» " .default " x" =
      ⟨1, "", "err: column 2: an expression must start with \"(\", got \"x\"\n"⟩ ∧
    askedInDialogue "» " .default " x\n".toUTF8.data.toList =
      ⟨0, "» err: column 1: an expression must start with \"(\", got \"x\"\n» \nGoodbye ☺\n",
        ""⟩ ∧
    StandsAt ['x'] 2 " x".toList ∧ ¬StandsAt ['x'] 1 " x".toList := by
  refine ⟨by decide +kernel, by decide +kernel, ⟨[' '], [], rfl, rfl⟩, ?_⟩
  rintro ⟨before, behind, htext, hcolumn⟩
  have hbefore : before = [] := List.length_eq_zero_iff.mp (Nat.succ.inj hcolumn.symm)
  subst hbefore
  cases htext

end CambridgePolish
