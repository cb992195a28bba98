import CambridgePolish.Proofs.Places

/-!
# The word at a column

An error with a column quotes a word, and the word that starts at this column of the line is that
one, whole (`errors_point_at_quoted_words`). Which word starts at a column is said here without
cutting the line into words: it is the parenthesis that stands there, or the run of word characters
from there on, provided that no word character stands directly before it (`wordAt?`). So a column in
the middle of a word has no word, and no column has two.

The program finds words and counts columns while it walks along the line, and it never stands inside
of a word: where the text behind goes on with a word character, the text before does not end with
one. This is what the induction along the line needs to know of the text before
(`Cuts.wordFrom?_of_mem_words`).
-/

namespace CambridgePolish

variable {c : Char} {cs rest w : List Char} {ws : List (List Char)} {column : Nat}

/-! ### Words -/

/-- The word at the start of a text, behind the character `before` if there is one. -/
def wordFrom? (before : Option Char) : List Char → Option (List Char)
  | [] => none
  | c :: cs =>
    if isParen c then some [c]
    else if isWordChar c && !before.any isWordChar then some ((c :: cs).takeWhile isWordChar)
    else none

/-- **The word that starts at a column**, counted from one. -/
def wordAt? : Nat → List Char → Option (List Char)
  | 0, _ => none
  | i + 1, cs => wordFrom? (cs.take i).getLast? (cs.drop i)

/-- A word starts at one of the characters of the text. -/
theorem bounds_of_wordAt? (h : wordAt? column cs = some w) : 1 ≤ column ∧ column ≤ cs.length := by
  cases column with
  | zero => cases h
  | succ i =>
    refine ⟨Nat.succ_pos i, Nat.lt_of_not_le fun hle => ?_⟩
    rw [wordAt?, List.drop_eq_nil_of_le hle] at h
    cases h

theorem wordFrom?_paren (hc : isParen c) (before : Option Char) :
    wordFrom? before (c :: cs) = some [c] := by
  rw [wordFrom?, if_pos hc]

theorem takeWhile_isWordChar (hw : ∀ c ∈ w, isWordChar c) (hrest : EndsWord rest) :
    (w ++ rest).takeWhile isWordChar = w := by
  have hnil : rest.takeWhile isWordChar = [] := by
    cases rest with
    | nil => rfl
    | cons d ds => exact List.takeWhile_cons_of_neg (by simpa [EndsWord] using hrest)
  rw [List.takeWhile_append_of_pos hw, hnil, List.append_nil]

/-- A run of word characters that nothing extends, on either side, is a word. -/
theorem wordFrom?_run (hne : w ≠ []) (hw : ∀ c ∈ w, isWordChar c) (hrest : EndsWord rest)
    {before : Option Char} (hbefore : before.any isWordChar = false) :
    wordFrom? before (w ++ rest) = some w := by
  have hrun := takeWhile_isWordChar hw hrest
  obtain ⟨d, ds, rfl⟩ := List.exists_cons_of_ne_nil hne
  have hd : isWordChar d := hw d List.mem_cons_self
  rw [List.cons_append] at hrun ⊢
  rw [wordFrom?, if_neg (by simp [isParen_of_isWordChar hd]), if_pos (by simp [hd, hbefore]), hrun]

/-- **The words of a text start at their columns**, also behind a text that ends with a word
character, as long as none follows. -/
theorem Cuts.wordFrom?_of_mem_words (h : Cuts cs ws) {v : Word} (hv : v ∈ words column cs)
    (before : List Char) (hbefore : before.getLast?.any isWordChar → EndsWord cs) :
    ∃ i, v.column = column + i ∧
      wordFrom? (before ++ cs.take i).getLast? (cs.drop i) = some v.text := by
  induction h generalizing column before with
  | nil => cases hv
  | blank c cs ws hc _ ih =>
    rw [words_blank hc] at hv
    have hword : isWordChar c = false := by simp [isWordChar, hc]
    obtain ⟨i, hcolumn, hfrom⟩ := ih hv (before ++ [c]) (by simp [hword])
    exact ⟨i + 1, by omega, by simpa using hfrom⟩
  | paren c cs ws hc _ ih =>
    rw [words_paren hc (isBlank_of_isParen hc)] at hv
    rcases List.mem_cons.mp hv with rfl | hv
    · exact ⟨0, rfl, wordFrom?_paren hc _⟩
    · obtain ⟨i, hcolumn, hfrom⟩ := ih hv (before ++ [c]) (by simp [isWordChar_of_isParen hc])
      exact ⟨i + 1, by omega, by simpa using hfrom⟩
  | run w rest ws hne hw hends _ ih =>
    rw [words_run hne hw hends] at hv
    rcases List.mem_cons.mp hv with rfl | hv
    · refine ⟨0, rfl, wordFrom?_run hne hw hends ?_⟩
      -- the run starts with a word character, so there is none before it
      obtain ⟨d, ds, rfl⟩ := List.exists_cons_of_ne_nil hne
      have hd : isWordChar d := hw d List.mem_cons_self
      rw [List.take_zero, List.append_nil, Bool.eq_false_iff]
      intro hlast
      have hnot : isWordChar d = false := hbefore hlast
      rw [hd] at hnot
      cases hnot
    · obtain ⟨i, hcolumn, hfrom⟩ := ih hv (before ++ w) fun _ => hends
      refine ⟨w.length + i, by omega, ?_⟩
      rw [List.take_length_add_append, List.drop_length_add_append, ← List.append_assoc]
      exact hfrom

theorem wordAt?_of_mem_words {v : Word} (hv : v ∈ words 1 cs) :
    wordAt? v.column cs = some v.text := by
  obtain ⟨i, hcolumn, hfrom⟩ := (cuts_words cs 1).wordFrom?_of_mem_words hv [] (by simp)
  rw [hcolumn, Nat.add_comm, wordAt?]
  exact hfrom

/-! ### Errors -/

/-- **A message quotes the word**: it gives the column first, and then the word
in quotation marks. -/
theorem ReadError.message_of_place? {err : ReadError} {word : String} {column : Nat}
    (h : err.place? = some (word, column)) :
    ∃ before behind, err.message =
      "column " ++ toString column ++ ": " ++ before ++ "\"" ++ word ++ "\"" ++ behind := by
  -- as lists of characters, so that it does not matter where the texts are cut
  simp only [← String.toList_inj]
  cases err with
  | startsWithName w c =>
    cases h
    exact ⟨"an expression must start with \"(\", got ", "", by unfold message; simp [toString]⟩
  | numeral text c fault =>
    cases h
    exact ⟨"could not convert ", " to a number: " ++ fault.reason,
      by unfold message; simp [toString]⟩
  | unknownOperator name c =>
    cases h
    exact ⟨"unknown procedure ", "", by unfold message; simp [toString]⟩
  | unknownName name c =>
    cases h
    exact ⟨"unknown name ", "", by unfold message; simp [toString]⟩
  | noValue kind text c =>
    cases h
    exact ⟨"cannot determine the value of " ++ kind.text ++ " token ", "", by
      unfold message; simp [toString]⟩
  | expectedOperator found c =>
    cases h
    exact ⟨"expected a procedure name after \"(\", got ", "", by unfold message; simp [toString]⟩
  | notAnOperator name c =>
    cases h
    exact ⟨"", " is not a procedure", by unfold message; simp [toString]⟩
  | unmatchedClose c =>
    cases h
    exact ⟨"unexpected ", " with no open group", by unfold message; simp [toString]⟩
  | empty => cases h
  | severalForms count => cases h
  | tooDeep limit => cases h
  | tooManyOperands operator limit => cases h

/-- **Every column points at the word that the error quotes.** If a line has no tokens, or its
tokens are not read, and the error names a word and a column, then the column is that of a character
of the line, the word that starts there is the one that the error names, and the message gives this
column and quotes this word. -/
theorem errors_point_at_quoted_words (limits : Limits) (line : String) (err : ReadError)
    (h : (Token.ofLine line).outcome = .error err ∨
      ∃ ts, (Token.ofLine line).outcome = .ok ts ∧
        ((readForms limits ts).outcome = .error err ∨ (readForm limits ts).outcome = .error err))
    (word : String) (column : Nat) (hplace : err.place? = some (word, column)) :
    1 ≤ column ∧ column ≤ line.length ∧ wordAt? column line.toList = some word.toList ∧
      ∃ before behind, err.message =
        "column " ++ toString column ++ ": " ++ before ++ "\"" ++ word ++ "\"" ++ behind := by
  have hmessage := ReadError.message_of_place? hplace
  have hread : (readLine limits line).outcome = .error err := by
    rcases h with hline | ⟨ts, hts, hforms | hform⟩
    · exact readLine_eq_error_iff.mpr (Or.inl hline)
    · exact readLine_eq_error_iff.mpr (Or.inr ⟨ts, hts, readForm_eq_error_iff.mpr (Or.inl hforms)⟩)
    · exact readLine_eq_error_iff.mpr (Or.inr ⟨ts, hts, hform⟩)
  obtain ⟨v, hv, rfl, rfl⟩ := exists_word_of_evalLine (evalLine_eq_read_error_iff.mpr hread) hplace
  have hword := wordAt?_of_mem_words hv
  obtain ⟨hpos, hle⟩ := bounds_of_wordAt? hword
  rw [String.length_toList] at hle
  exact ⟨hpos, hle, by rwa [String.toList_ofList], hmessage⟩

/-- Behind wide characters, a word that looks like a number and is none. -/
theorem errors_point_at_quoted_words_behind_wide_characters :
    (Token.ofLine "(*\u3000π 1é(").outcome =
      .ok [⟨.groupOpen, "(", 1⟩, ⟨.procedure, "*", 2⟩, ⟨.name, "π", 4⟩, ⟨.integer, "1é", 6⟩,
        ⟨.groupOpen, "(", 8⟩] ∧
    (readForms .default [⟨.groupOpen, "(", 1⟩, ⟨.procedure, "*", 2⟩, ⟨.name, "π", 4⟩,
      ⟨.integer, "1é", 6⟩, ⟨.groupOpen, "(", 8⟩]).outcome = .error (.numeral "1é" 6 .invalidDigit) ∧
    1 ≤ 6 ∧ 6 ≤ "(*\u3000π 1é(".length ∧ wordAt? 6 "(*\u3000π 1é(".toList = some "1é".toList := by
  have htokens : (Token.ofLine "(*\u3000π 1é(").outcome =
      .ok [⟨.groupOpen, "(", 1⟩, ⟨.procedure, "*", 2⟩, ⟨.name, "π", 4⟩, ⟨.integer, "1é", 6⟩,
        ⟨.groupOpen, "(", 8⟩] := by decide +kernel
  have hforms : (readForms .default [⟨.groupOpen, "(", 1⟩, ⟨.procedure, "*", 2⟩, ⟨.name, "π", 4⟩,
      ⟨.integer, "1é", 6⟩, ⟨.groupOpen, "(", 8⟩]).outcome =
        .error (.numeral "1é" 6 .invalidDigit) := rfl
  obtain ⟨hpos, hle, hword, -⟩ :=
    errors_point_at_quoted_words _ _ _ (Or.inr ⟨_, htokens, Or.inl hforms⟩) _ _ rfl
  exact ⟨htokens, hforms, hpos, hle, hword⟩

/-- No word starts inside of another one. -/
example : wordAt? 7 "(*\u3000π 1é(".toList = none ∧
    wordAt? 8 "(*\u3000π 1é(".toList = some ['('] := by
  decide +kernel

end CambridgePolish
