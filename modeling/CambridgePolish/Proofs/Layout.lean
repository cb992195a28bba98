import CambridgePolish.Proofs.Columns
import CambridgePolish.Proofs.Words
import Mathlib.Data.List.Forall2

/-!
# Layout does not matter

How the words of a line are spaced does not change what the line means. `Cuts` says what the words
of a text are, without columns: parentheses, and runs of characters that nothing extends. Every text
is cut in exactly one way, and that is the way the program cuts it (`cuts_iff`). Two lines with the
same words have the same value or the same evaluation error, or fail to be read with errors that
differ in their column at most (`layout_does_not_matter`).

This is the loss of columns as a case of the symmetry of `Proofs/Columns`: with all columns set to
zero, two lists of the same words are one list. What is left of an error then is all but its column
(`ReadError.sameButColumn_of_mapColumn_eq`).
-/

namespace CambridgePolish

variable {c : Char} {cs rest : List Char} {w : List Char} {ws : List (List Char)}

/-! ### The words of a text -/

/-- **The words of a text**: each parenthesis by itself, and every run of other characters without
blanks that is not part of a longer one. -/
inductive Cuts : List Char → List (List Char) → Prop
  | nil : Cuts [] []
  /-- A blank belongs to no word. -/
  | blank (c : Char) (cs : List Char) (ws : List (List Char)) (h : isBlank c) (hcs : Cuts cs ws) :
    Cuts (c :: cs) ws
  | paren (c : Char) (cs : List Char) (ws : List (List Char)) (h : isParen c) (hcs : Cuts cs ws) :
    Cuts (c :: cs) ([c] :: ws)
  /-- A run ends where the text does, or before a blank or a parenthesis. -/
  | run (w rest : List Char) (ws : List (List Char)) (hne : w ≠ []) (hw : ∀ c ∈ w, isWordChar c)
    (hends : EndsWord rest) (hrest : Cuts rest ws) : Cuts (w ++ rest) (w :: ws)

theorem isBlank_of_isParen (h : isParen c) : isBlank c = false := by
  rw [isParen, Bool.or_eq_true, beq_iff_eq, beq_iff_eq] at h
  rcases h with rfl | rfl <;> decide

theorem isParen_of_isBlank (h : isBlank c) : isParen c = false := by
  rw [Bool.eq_false_iff]
  intro hparen
  rw [isBlank_of_isParen hparen] at h
  cases h

theorem Cuts.words_eq (h : Cuts cs ws) (column : Nat) : (words column cs).map Word.text = ws := by
  induction h generalizing column with
  | nil => rfl
  | blank c cs ws hc _ ih => rw [words_blank hc, ih]
  | paren c cs ws hc _ ih => rw [words_paren hc (isBlank_of_isParen hc), List.map_cons, ih]
  | run w rest ws hne hw hends _ ih => rw [words_run hne hw hends, List.map_cons, ih]

/-- A character that goes on with the first word is part of it. -/
theorem Cuts.extendFirst (hc : isWordChar c) (hnext : cs.head?.any isWordChar) {vs : List Word}
    (h : Cuts cs (vs.map Word.text)) (column : Nat) :
    Cuts (c :: cs) ((CambridgePolish.extendFirst c column vs).map Word.text) := by
  generalize hvs : vs.map Word.text = ws at h
  cases h with
  | nil => cases hnext
  | blank d ds ws hd _ => exact absurd hd (by simp [isBlank_of_isWordChar (c := d) hnext])
  | paren d ds ws hd _ => exact absurd hnext (by simp [isWordChar_of_isParen hd])
  | run w rest ws hne hw hends hrest =>
    -- what follows the run is as before, so nothing extends the longer run either
    obtain ⟨v, vs, rfl, rfl, rfl⟩ := List.map_eq_cons_iff.mp hvs
    exact .run (c :: v.text) rest _ (by simp) (List.forall_mem_cons.mpr ⟨hc, hw⟩) hends hrest

/-- The program cuts a text so. -/
theorem cuts_words (cs : List Char) (column : Nat) : Cuts cs ((words column cs).map Word.text) := by
  induction cs generalizing column with
  | nil => exact .nil
  | cons c cs ih =>
    unfold words
    split_ifs with hblank hword
    · exact .blank c cs _ hblank (ih (column + 1))
    · rw [Bool.and_eq_true] at hword
      exact (ih (column + 1)).extendFirst hword.1 hword.2 column
    · by_cases hparen : isParen c
      · exact .paren c cs _ hparen (ih (column + 1))
      · -- a word of one character, since nothing goes on with it
        have hc : isWordChar c := by simp [isWordChar, hblank, hparen]
        rw [hc, Bool.true_and, Bool.not_eq_true] at hword
        exact .run [c] cs _ (by simp) (by simpa using hc) hword (ih (column + 1))

/-- **A blank parts the words** before it from those behind it. -/
theorem words_append_cons (hc : isBlank c) (cs rest : List Char) (column : Nat) :
    words column (cs ++ c :: rest) = words column cs ++ words (column + cs.length + 1) rest := by
  have hcuts := cuts_words cs 1
  generalize (words 1 cs).map Word.text = ws at hcuts
  induction hcuts generalizing column with
  | nil => exact words_blank hc
  | blank b cs ws hb _ ih =>
    rw [List.cons_append, words_blank hb, words_blank hb, ih, List.length_cons,
      Nat.add_assoc column, Nat.add_comm 1]
  | paren b cs ws hb _ ih =>
    have hblank := isBlank_of_isParen hb
    rw [List.cons_append, words_paren hb hblank, words_paren hb hblank, ih, List.length_cons,
      Nat.add_assoc column, Nat.add_comm 1]
    rfl
  | run w tail ws hne hw hends _ ih =>
    -- what ends the run still does, or the blank does
    have hends' : EndsWord (tail ++ c :: rest) := by
      cases tail with
      | nil => simp [EndsWord, isWordChar, hc]
      | cons d ds => exact hends
    rw [List.append_assoc, words_run hne hw hends', words_run hne hw hends, ih, List.length_append,
      Nat.add_assoc column]
    rfl

/-- **Every text is cut in one way**, and the program finds it. -/
theorem cuts_iff (column : Nat) : Cuts cs ws ↔ (words column cs).map Word.text = ws := by
  constructor
  · intro h
    exact h.words_eq column
  · rintro rfl
    exact cuts_words cs column

/-! ### Errors that differ in their column at most -/

/-- The errors are the same but for the column. -/
def ReadError.SameButColumn (err err' : ReadError) : Prop :=
  ∃ column, err' = err.mapColumn fun _ => column

/-- The errors are the same but for the column, which an evaluation error does not have. -/
def LineError.SameButColumn (err err' : LineError) : Prop :=
  ∃ column, err' = err.mapColumn fun _ => column

/-- **The same outcome up to the error**: equal values, or errors that are related. -/
def Agree {ε α : Type} (same : ε → ε → Prop) (x y : Except ε α) : Prop :=
  (∃ a, x = .ok a ∧ y = .ok a) ∨ ∃ err err', x = .error err ∧ y = .error err' ∧ same err err'

theorem ReadError.exists_mapColumn_eq (err : ReadError) :
    ∃ column, err = err.mapColumn fun _ => column := by
  cases err with
  | startsWithName word column => exact ⟨column, rfl⟩
  | numeral text column fault => exact ⟨column, rfl⟩
  | unknownOperator name column => exact ⟨column, rfl⟩
  | unknownName name column => exact ⟨column, rfl⟩
  | noValue kind text column => exact ⟨column, rfl⟩
  | expectedOperator found column => exact ⟨column, rfl⟩
  | notAnOperator name column => exact ⟨column, rfl⟩
  | unmatchedClose column => exact ⟨column, rfl⟩
  | empty => exact ⟨0, rfl⟩
  | severalForms count => exact ⟨0, rfl⟩
  | tooDeep limit => exact ⟨0, rfl⟩
  | tooManyOperands operator limit => exact ⟨0, rfl⟩

/-- Errors that become equal without their columns differ in these at most. -/
theorem ReadError.sameButColumn_of_mapColumn_eq {err err' : ReadError}
    (h : (err.mapColumn fun _ => 0) = err'.mapColumn fun _ => 0) : err.SameButColumn err' := by
  obtain ⟨column, hcolumn⟩ := err'.exists_mapColumn_eq
  refine ⟨column, ?_⟩
  calc err' = err'.mapColumn fun _ => column := hcolumn
    _ = (err'.mapColumn fun _ => 0).mapColumn fun _ => column := by rw [mapColumn_mapColumn]
    _ = (err.mapColumn fun _ => 0).mapColumn fun _ => column := by rw [h]
    _ = err.mapColumn fun _ => column := by rw [mapColumn_mapColumn]

theorem LineError.sameButColumn_of_mapColumn_eq {err err' : LineError}
    (h : (err.mapColumn fun _ => 0) = err'.mapColumn fun _ => 0) : err.SameButColumn err' := by
  cases err with
  | read err =>
    cases err' with
    | read err' =>
      obtain ⟨column, rfl⟩ := ReadError.sameButColumn_of_mapColumn_eq (LineError.read.inj h)
      exact ⟨column, rfl⟩
    | eval err' => cases h
  | eval err =>
    cases err' with
    | read err' => cases h
    | eval err' => exact ⟨0, h.symm⟩

/-- Outcomes that become equal when something is done to their errors. -/
theorem agree_of_relabel_eq {ε ε' α : Type} {same : ε → ε → Prop} {m : ε → ε'} {x y : Except ε α}
    (hm : ∀ err err', m err = m err' → same err err') (h : relabel id m x = relabel id m y) :
    Agree same x y := by
  cases x with
  | ok a =>
    cases y with
    | ok b => exact Or.inl ⟨a, rfl, congrArg _ (Except.ok.inj h).symm⟩
    | error err' => cases h
  | error err =>
    cases y with
    | ok b => cases h
    | error err' => exact Or.inr ⟨err, err', rfl, rfl, hm err err' (Except.error.inj h)⟩

/-! ### Two lists of the same words -/

/-- The tokens are the same but for the column. -/
def Token.SameWord (t u : Token) : Prop :=
  t.kind = u.kind ∧ t.text = u.text

theorem map_mapColumn_eq_of_sameWord {ts us : List Token} (h : List.Forall₂ Token.SameWord ts us) :
    ts.map (Token.mapColumn fun _ => 0) = us.map (Token.mapColumn fun _ => 0) := by
  induction h with
  | nil => rfl
  | cons htu _ ih =>
    obtain ⟨hkind, htext⟩ := htu
    rw [List.map_cons, List.map_cons, ih, Token.mapColumn, Token.mapColumn, hkind, htext]

theorem map_mapColumn_eq_of_text {vs vs' : List Word} (h : vs.map Word.text = vs'.map Word.text) :
    vs.map (Word.mapColumn fun _ => 0) = vs'.map (Word.mapColumn fun _ => 0) := by
  have herase : ∀ vs : List Word,
      vs.map (Word.mapColumn fun _ => 0) = (vs.map Word.text).map fun text => ⟨text, 0⟩ := by
    intro vs
    rw [List.map_map]
    rfl
  rw [herase, herase, h]

/-- **Layout does not matter.** Tokens that agree in kinds and texts are read as the same
expressions, or fail with errors that differ in their column at most. Every line is cut into words
in one way, and two lines with the same words have the same value, the same evaluation error, or
reading errors that differ in their column at most. -/
theorem layout_does_not_matter (limits : Limits) :
    (∀ ts us, List.Forall₂ Token.SameWord ts us →
      Agree ReadError.SameButColumn (readForms limits ts).outcome (readForms limits us).outcome ∧
      Agree ReadError.SameButColumn (readForm limits ts).outcome (readForm limits us).outcome) ∧
    (∀ cs, ∃ ws, Cuts cs ws ∧ ∀ ws', Cuts cs ws' → ws' = ws) ∧
    ∀ (line line' : String) (ws : List (List Char)), Cuts line.toList ws → Cuts line'.toList ws →
      Agree LineError.SameButColumn (evalLine limits line).outcome
        (evalLine limits line').outcome := by
  refine ⟨?_, ?_, ?_⟩
  · intro ts us h
    have hlists := map_mapColumn_eq_of_sameWord h
    constructor
    · refine agree_of_relabel_eq (fun _ _ => ReadError.sameButColumn_of_mapColumn_eq) ?_
      rw [← outcome_readForms_mapColumn, ← outcome_readForms_mapColumn, hlists]
    · refine agree_of_relabel_eq (fun _ _ => ReadError.sameButColumn_of_mapColumn_eq) ?_
      rw [← outcome_readForm_mapColumn, ← outcome_readForm_mapColumn, hlists]
  · intro cs
    exact ⟨_, (cuts_iff 1).mpr rfl, fun ws' h => ((cuts_iff 1).mp h).symm⟩
  · intro line line' ws h h'
    have hlists := map_mapColumn_eq_of_text (((cuts_iff 1).mp h).trans ((cuts_iff 1).mp h').symm)
    refine agree_of_relabel_eq (fun _ _ => LineError.sameButColumn_of_mapColumn_eq) ?_
    rw [outcome_evalLine, outcome_evalLine, ← valueOfWords_mapColumn, ← valueOfWords_mapColumn,
      hlists]

/-- The same words with other blanks between them, and none where parentheses part them; and a
closing parenthesis too many, at two columns. -/
theorem layout_does_not_matter_between_parens :
    let line := "(+ 1 (* 2 x))"
    let line' := "(+\u00a01(*\t2   x ) )"
    let ws := ["(", "+", "1", "(", "*", "2", "x", ")", ")"].map String.toList
    let ts : List Token := [⟨.integer, "1", 1⟩, ⟨.groupClose, ")", 2⟩]
    let us : List Token := [⟨.integer, "1", 3⟩, ⟨.groupClose, ")", 7⟩]
    (Cuts line.toList ws ∧ Cuts line'.toList ws ∧
      (evalLine .default line).outcome = .error (.read (.unknownName "x" 11)) ∧
      (evalLine .default line').outcome = .error (.read (.unknownName "x" 12)) ∧
      Agree LineError.SameButColumn (evalLine .default line).outcome
        (evalLine .default line').outcome) ∧
    List.Forall₂ Token.SameWord ts us ∧
      (readForms .default ts).outcome = .error (.unmatchedClose 2) ∧
      (readForms .default us).outcome = .error (.unmatchedClose 7) ∧
      Agree ReadError.SameButColumn (readForms .default ts).outcome
        (readForms .default us).outcome := by
  intro line line' ws ts us
  have hcuts : Cuts line.toList ws := (cuts_iff 1).mpr (by decide +kernel)
  have hcuts' : Cuts line'.toList ws := (cuts_iff 1).mpr (by decide +kernel)
  have hwords : List.Forall₂ Token.SameWord ts us := .cons ⟨rfl, rfl⟩ (.cons ⟨rfl, rfl⟩ .nil)
  obtain ⟨htokens, -, hlines⟩ := layout_does_not_matter .default
  exact ⟨⟨hcuts, hcuts', by decide +kernel, by decide +kernel, hlines _ _ ws hcuts hcuts'⟩,
    hwords, rfl, rfl, (htokens ts us hwords).1⟩

end CambridgePolish
