import CambridgePolish.Proofs.Layout
import CambridgePolish.Proofs.Refusal

/-!
# Errors point at words

An error of reading that has a column also names a word (`ReadError.place?`). The word stands in the
line at that column (`standsAt_of_evalLine`): it is the text of a token, whose column was counted
when the line was cut into words (`standsAt_of_mem_words`), and whatever a token is refused for, the
error takes word and column from the token itself (`Reader.Refused.place_eq`).
-/

namespace CambridgePolish

/-- **The word stands in the text at the column**: with `column - 1` characters before it. -/
def StandsAt (w : List Char) (column : Nat) (cs : List Char) : Prop :=
  ∃ before after, cs = before ++ w ++ after ∧ column = before.length + 1

/-- The word that an error names, and its column. -/
def ReadError.place? : ReadError → Option (String × Nat)
  | .startsWithName word column => some (word, column)
  | .numeral text column _ => some (text, column)
  | .unknownOperator name column => some (name, column)
  | .unknownName name column => some (name, column)
  | .noValue _ text column => some (text, column)
  | .expectedOperator found column => some (found, column)
  | .notAnOperator name column => some (name, column)
  | .unmatchedClose column => some (")", column)
  | .empty | .severalForms _ | .tooDeep _ | .tooManyOperands _ _ => none

/-! ### Words and tokens -/

/-- **Words are found where they stand.** -/
theorem Cuts.exists_eq_append {cs : List Char} {ws : List (List Char)} (h : Cuts cs ws)
    {column : Nat} {w : Word} (hw : w ∈ words column cs) :
    ∃ before after, cs = before ++ w.text ++ after ∧ w.column = column + before.length := by
  induction h generalizing column with
  | nil => cases hw
  | blank c cs ws hc _ ih =>
    rw [words_blank hc] at hw
    obtain ⟨before, after, rfl, hcolumn⟩ := ih hw
    exact ⟨c :: before, after, rfl, by rw [hcolumn, List.length_cons]; omega⟩
  | paren c cs ws hc _ ih =>
    rw [words_paren hc (isBlank_of_isParen hc)] at hw
    rcases List.mem_cons.mp hw with rfl | hw
    · exact ⟨[], cs, rfl, rfl⟩
    · obtain ⟨before, after, rfl, hcolumn⟩ := ih hw
      exact ⟨c :: before, after, rfl, by rw [hcolumn, List.length_cons]; omega⟩
  | run v rest ws hne hv hends _ ih =>
    rw [words_run hne hv hends] at hw
    rcases List.mem_cons.mp hw with rfl | hw
    · exact ⟨[], rest, rfl, rfl⟩
    · obtain ⟨before, after, rfl, hcolumn⟩ := ih hw
      exact ⟨v ++ before, after, by simp, by rw [hcolumn, List.length_append]; omega⟩

theorem standsAt_of_mem_words {cs : List Char} {w : Word} (hw : w ∈ words 1 cs) :
    StandsAt w.text w.column cs := by
  obtain ⟨before, after, hcs, hcolumn⟩ := (cuts_words cs 1).exists_eq_append hw
  exact ⟨before, after, hcs, by rw [hcolumn, Nat.add_comm]⟩

namespace Token

variable {ws : List Word} {previous : Option Kind} {ts : List Token} {t : Token} {err : ReadError}

/-- Only a closing parenthesis is called one. -/
theorem text_of_kind_eq_groupClose {w : Word} (h : w.kind previous = .ok .groupClose) :
    w.text = [')'] := by
  unfold Word.kind at h
  split_ifs at h with hopen hclose
  · cases h
  · exact hclose
  · cases h
  · cases h
  · split at h <;> cases h

theorem eq_startsWithName_of_kind {w : Word} (h : w.kind previous = .error err) :
    err = .startsWithName (String.ofList w.text) w.column := by
  unfold Word.kind at h
  split_ifs at h
  split at h
  · exact (Except.error.inj h).symm
  · cases h
  · cases h

/-- A token is a word with a kind. -/
theorem exists_word_of_mem_ofWords (h : (ofWords previous ws).outcome = .ok ts) (ht : t ∈ ts) :
    ∃ w ∈ ws, t.text = String.ofList w.text ∧ t.column = w.column ∧
      (t.kind = .groupClose → t.text = ")") := by
  induction ws generalizing previous ts with
  | nil =>
    obtain rfl := Except.ok.inj h
    cases ht
  | cons w ws ih =>
    obtain ⟨kind, us, hkind, hus, rfl⟩ := ofWords_cons_eq_ok_iff.mp h
    rcases List.mem_cons.mp ht with rfl | ht
    · refine ⟨w, List.mem_cons_self, rfl, rfl, ?_⟩
      rintro rfl
      simp only [text_of_kind_eq_groupClose hkind]
    · obtain ⟨v, hv, hplace⟩ := ih hus ht
      exact ⟨v, List.mem_cons_of_mem w hv, hplace⟩

/-- The error of a line without tokens names one of its words. -/
theorem exists_word_of_ofWords_eq_error (h : (ofWords previous ws).outcome = .error err) :
    ∃ w ∈ ws, err.place? = some (String.ofList w.text, w.column) := by
  induction ws generalizing previous with
  | nil => cases h
  | cons w ws ih =>
    simp only [ofWords, Traced.outcome_bind_eq_error_iff, Traced.outcome_ofExcept,
      Traced.outcome_log_bind, Traced.outcome_map_eq_error_iff] at h
    rcases h with hkind | ⟨kind, -, hrest⟩
    · exact ⟨w, List.mem_cons_self, by rw [eq_startsWithName_of_kind hkind, ReadError.place?]⟩
    · obtain ⟨v, hv, hplace⟩ := ih hrest
      exact ⟨v, List.mem_cons_of_mem w hv, hplace⟩

/-- The error of a token without a value names the token. -/
theorem place?_of_value_eq_error (h : t.value = .error err) :
    err.place? = some (t.text, t.column) := by
  rcases value_eq_error_cases h with ⟨-, fault, rfl⟩ | ⟨-, rfl⟩ | ⟨-, rfl⟩ | ⟨-, rfl⟩ <;> rfl

end Token

/-! ### Errors -/

variable {limits : Limits} {ts : List Token} {err : ReadError} {word : String} {column : Nat}

/-- There is no column to an operand too many. -/
theorem Reader.Crowded.place?_eq_none {r : Reader} (h : Crowded limits r err) :
    err.place? = none := by
  cases h
  rfl

/-- **A refused token is named**, if anything is. -/
theorem Reader.Refused.place_eq {t : Token} {r : Reader} (h : Refused limits t r err)
    (hplace : err.place? = some (word, column)) :
    column = t.column ∧ (word = t.text ∨ t.kind = .groupClose ∧ word = ")") := by
  cases h with
  | emptyGroup forms gs c hkind => cases hplace
  | headValue forms gs c err hkind hvalue =>
    cases (Token.place?_of_value_eq_error hvalue).symm.trans hplace
    exact ⟨rfl, Or.inl rfl⟩
  | notAnOperator forms gs c v hkind hvalue hnumber =>
    cases hplace
    exact ⟨rfl, Or.inl rfl⟩
  | expectedOperator forms gs c hclose hprocedure =>
    cases hplace
    exact ⟨rfl, Or.inl rfl⟩
  | tooDeep forms gs hkind hdepth => cases hplace
  | unmatchedClose forms hkind =>
    cases hplace
    exact ⟨rfl, Or.inr ⟨hkind, rfl⟩⟩
  | closing forms g gs err hkind hcrowded => cases hcrowded.place?_eq_none.symm.trans hplace
  | itemValue forms gs err hopen hclose hvalue =>
    cases (Token.place?_of_value_eq_error hvalue).symm.trans hplace
    exact ⟨rfl, Or.inl rfl⟩
  | item forms gs v err hopen hclose hvalue hcrowded =>
    cases hcrowded.place?_eq_none.symm.trans hplace

/-- An error of reading names one of the tokens. -/
theorem exists_token_of_readForm_eq_error (h : (readForm limits ts).outcome = .error err)
    (hplace : err.place? = some (word, column)) :
    ∃ t ∈ ts, column = t.column ∧ (word = t.text ∨ t.kind = .groupClose ∧ word = ")") := by
  rcases readForm_eq_error_iff.mp h with hforms | ⟨-, rfl⟩ | ⟨forms, -, -, rfl⟩
  · rcases readForms_eq_error_iff.mp hforms with hrun | ⟨r, -, hfinish⟩
    · obtain ⟨us, t, vs, r, rfl, -, hrefused⟩ := Reader.foldlM_eq_error_iff.mp hrun
      exact ⟨t, List.mem_append_cons_self, hrefused.place_eq hplace⟩
    · -- what is wrong at the end of the input is not wrong with any token
      rcases Reader.finish_eq_error_iff.mp hfinish with
        ⟨-, rfl⟩ | ⟨-, inner, g, outer, -, -, -, rfl⟩
      · cases hplace
      · cases hplace
  · cases hplace
  · cases hplace

/-- What the error of a line names is one of its words. -/
theorem exists_word_of_evalLine {line : String}
    (h : (evalLine limits line).outcome = .error (.read err))
    (hplace : err.place? = some (word, column)) :
    ∃ w ∈ words 1 line.toList, word = String.ofList w.text ∧ column = w.column := by
  rcases readLine_eq_error_iff.mp (evalLine_eq_read_error_iff.mp h) with hwords | ⟨ts, hts, hform⟩
  · obtain ⟨w, hw, heq⟩ := Token.exists_word_of_ofWords_eq_error hwords
    cases heq.symm.trans hplace
    exact ⟨w, hw, rfl, rfl⟩
  · obtain ⟨t, ht, rfl, hname⟩ := exists_token_of_readForm_eq_error hform hplace
    obtain ⟨w, hw, htext, hcolumn, hclose⟩ := Token.exists_word_of_mem_ofWords hts ht
    refine ⟨w, hw, ?_, hcolumn⟩
    rcases hname with rfl | ⟨hkind, rfl⟩
    · exact htext
    · rw [← htext, hclose hkind]

/-- **The error of a line points at a word**: what it names stands in the line at its column. -/
theorem standsAt_of_evalLine {line : String}
    (h : (evalLine limits line).outcome = .error (.read err))
    (hplace : err.place? = some (word, column)) : StandsAt word.toList column line.toList := by
  obtain ⟨w, hw, rfl, rfl⟩ := exists_word_of_evalLine h hplace
  rw [String.toList_ofList]
  exact standsAt_of_mem_words hw

end CambridgePolish
