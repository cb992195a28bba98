import CambridgePolish.Proofs.Places

/-!
# Words by padding and splitting

There is a simple way to say what the words of a line are: put a space before and behind every
parenthesis, and split the text at its blanks (`paddedWords`). The program does not work so. It
looks at one character at a time, from the right, and counts columns on the way. Both find the same
words (`map_text_words`), and a column is a place in the line as it was entered, not in the padded
one: the words follow each other (`Cuts.pairwise_words`), each stands where its column says
(`standsAt_of_mem_words`), and only blanks are left over (`Cuts.exists_word_of_not_isBlank`).

The kind of a token is a matter of its word and of the word before it (`kindBehind`), although the
program remembers of that word its kind only. Behind some word every word has a kind, and in front
of all others only a name has none, so the tokens of a line can be written down
(`Token.tokensBehind`) as soon as its first word is known not to be a name
(`Token.ofWords_none_eq_ok_iff`).
-/

namespace CambridgePolish

variable {c : Char} {cs rest w : List Char} {ws : List (List Char)} {column : Nat}

/-! ### Padding and splitting -/

/-- The text with a space before and behind every parenthesis. -/
def pad (cs : List Char) : List Char :=
  cs.flatMap fun c => if isParen c then [' ', c, ' '] else [c]

/-- The pieces of a text between its blanks, without the empty ones. -/
def splitBlanks (cs : List Char) : List (List Char) :=
  (cs.splitOnP isBlank).filter (· ≠ [])

/-- **The words of a text**, by padding and splitting. -/
def paddedWords (cs : List Char) : List (List Char) :=
  splitBlanks (pad cs)

/-- A text is split at a blank. -/
theorem splitBlanks_append_cons (hc : isBlank c) (cs rest : List Char) :
    splitBlanks (cs ++ c :: rest) = splitBlanks cs ++ splitBlanks rest := by
  unfold splitBlanks
  rw [List.splitOnP_append_cons cs rest hc, List.filter_append]

theorem splitBlanks_cons (hc : isBlank c) (cs : List Char) :
    splitBlanks (c :: cs) = splitBlanks cs :=
  splitBlanks_append_cons hc [] cs

theorem splitBlanks_eq_singleton (hne : w ≠ []) (hw : ∀ c ∈ w, isBlank c = false) :
    splitBlanks w = [w] := by
  unfold splitBlanks
  rw [List.splitOnP_eq_singleton hw]
  simp [hne]

theorem pad_append (cs rest : List Char) : pad (cs ++ rest) = pad cs ++ pad rest :=
  List.flatMap_append

theorem pad_paren (hc : isParen c) (cs : List Char) :
    pad (c :: cs) = ' ' :: [c] ++ ' ' :: pad cs := by
  simp [pad, hc]

theorem pad_cons (hc : isParen c = false) (cs : List Char) : pad (c :: cs) = c :: pad cs := by
  simp [pad, hc]

/-- There is nothing to pad in a run of word characters. -/
theorem pad_eq_self (hw : ∀ c ∈ w, isWordChar c) : pad w = w := by
  induction w with
  | nil => rfl
  | cons c w ih =>
    obtain ⟨hc, hw⟩ := List.forall_mem_cons.mp hw
    rw [pad_cons (isParen_of_isWordChar hc), ih hw]

/-- What ends a word is a blank once it is padded. -/
theorem pad_of_endsWord (h : EndsWord rest) :
    rest = [] ∨ ∃ b tail, isBlank b ∧ pad rest = b :: tail := by
  cases rest with
  | nil => exact Or.inl rfl
  | cons c cs =>
    right
    by_cases hparen : isParen c
    · exact ⟨' ', _, by decide, pad_paren hparen cs⟩
    · rw [Bool.not_eq_true] at hparen
      have hblank : isBlank c := by
        have hword : isWordChar c = false := h
        simpa [isWordChar, hparen] using hword
      exact ⟨c, _, hblank, pad_cons hparen cs⟩

/-- A run of word characters in front of what ends it is the first word. -/
theorem paddedWords_run (hne : w ≠ []) (hw : ∀ c ∈ w, isWordChar c) (hrest : EndsWord rest) :
    paddedWords (w ++ rest) = w :: paddedWords rest := by
  have hsingle : splitBlanks w = [w] :=
    splitBlanks_eq_singleton hne fun c hc => isBlank_of_isWordChar (hw c hc)
  unfold paddedWords
  rw [pad_append, pad_eq_self hw]
  rcases pad_of_endsWord hrest with rfl | ⟨b, tail, hb, htail⟩
  · rw [show pad [] = [] from rfl, List.append_nil, hsingle]
    rfl
  · rw [htail, splitBlanks_append_cons hb, splitBlanks_cons hb, hsingle, List.singleton_append]

/-- **Padding and splitting gives the words of a text.** -/
theorem Cuts.paddedWords_eq (h : Cuts cs ws) : paddedWords cs = ws := by
  induction h with
  | nil => rfl
  | blank c cs ws hc _ ih =>
    rw [paddedWords, pad_cons (isParen_of_isBlank hc), splitBlanks_cons hc]
    exact ih
  | paren c cs ws hc _ ih =>
    have hspace : isBlank ' ' := by decide
    have hsingle : splitBlanks [c] = [[c]] :=
      splitBlanks_eq_singleton (by simp) (by simp [isBlank_of_isParen hc])
    rw [paddedWords, pad_paren hc, List.cons_append, splitBlanks_cons hspace,
      splitBlanks_append_cons hspace, hsingle, List.singleton_append]
    exact congrArg _ ih
  | run w rest ws hne hw hends _ ih => rw [paddedWords_run hne hw hends, ih]

/-- The program finds the same words. -/
theorem map_text_words (column : Nat) (cs : List Char) :
    (words column cs).map Word.text = paddedWords cs :=
  (cuts_words cs column).paddedWords_eq.symm

/-! ### Columns -/

/-- **Words come one behind the other.** -/
theorem Cuts.pairwise_words (h : Cuts cs ws) (column : Nat) :
    (words column cs).Pairwise fun v w => v.column < w.column := by
  induction h generalizing column with
  | nil => exact .nil
  | blank c cs ws hc _ ih =>
    rw [words_blank hc]
    exact ih (column + 1)
  | paren c cs ws hc hcs ih =>
    rw [words_paren hc (isBlank_of_isParen hc)]
    refine .cons (fun v hv => ?_) (ih (column + 1))
    obtain ⟨before, -, -, hcolumn⟩ := hcs.exists_eq_append hv
    change column < v.column
    omega
  | run w rest ws hne hw hends hrest ih =>
    rw [words_run hne hw hends]
    refine .cons (fun v hv => ?_) (ih (column + w.length))
    obtain ⟨before, -, -, hcolumn⟩ := hrest.exists_eq_append hv
    have hpos : 0 < w.length := List.length_pos_of_ne_nil hne
    change column < v.column
    omega

/-- **Only blanks belong to no word.** -/
theorem Cuts.exists_word_of_not_isBlank (h : Cuts cs ws) {i : Nat} (hi : cs[i]? = some c)
    (hc : isBlank c = false) (column : Nat) :
    ∃ w ∈ words column cs, w.column ≤ column + i ∧ column + i < w.column + w.text.length := by
  induction h generalizing column i with
  | nil => cases hi
  | blank b cs ws hb _ ih =>
    rw [words_blank hb]
    cases i with
    | zero =>
      obtain rfl : b = c := Option.some.inj hi
      rw [hb] at hc
      cases hc
    | succ i =>
      obtain ⟨w, hw, hle, hlt⟩ := ih hi (column + 1)
      exact ⟨w, hw, by omega, by omega⟩
  | paren b cs ws hb _ ih =>
    rw [words_paren hb (isBlank_of_isParen hb)]
    cases i with
    | zero => exact ⟨_, List.mem_cons_self, Nat.le_refl column, Nat.lt_succ_self column⟩
    | succ i =>
      obtain ⟨w, hw, hle, hlt⟩ := ih hi (column + 1)
      exact ⟨w, List.mem_cons_of_mem _ hw, by omega, by omega⟩
  | run v rest ws hne hv hends _ ih =>
    rw [words_run hne hv hends]
    by_cases hlt : i < v.length
    · exact ⟨_, List.mem_cons_self, Nat.le_add_right column i, Nat.add_lt_add_left hlt column⟩
    · rw [List.getElem?_append_right (by omega)] at hi
      obtain ⟨w, hw, hle, hlt⟩ := ih hi (column + v.length)
      exact ⟨w, List.mem_cons_of_mem _ hw, by omega, by omega⟩

/-- Nothing but blanks stands before the first word. -/
theorem Cuts.column_of_head? (h : Cuts cs ws) {v : Word} (hv : (words column cs).head? = some v) :
    v.column = column + (cs.takeWhile isBlank).length := by
  induction h generalizing column with
  | nil => cases hv
  | blank c cs ws hc _ ih =>
    rw [words_blank hc] at hv
    rw [ih hv, List.takeWhile_cons_of_pos hc, List.length_cons]
    omega
  | paren c cs ws hc _ ih =>
    have hblank := isBlank_of_isParen hc
    rw [words_paren hc hblank] at hv
    obtain rfl := Option.some.inj hv
    rw [List.takeWhile_cons_of_neg (by simp [hblank])]
    rfl
  | run w rest ws hne hw hends _ ih =>
    rw [words_run hne hw hends] at hv
    obtain rfl := Option.some.inj hv
    obtain ⟨d, ds, rfl⟩ := List.exists_cons_of_ne_nil hne
    have hblank := isBlank_of_isWordChar (hw d List.mem_cons_self)
    rw [List.cons_append, List.takeWhile_cons_of_neg (by simp [hblank])]
    rfl

/-! ### Kinds -/

/-- **The word looks like a number**: it starts with a digit, or with a sign and a digit. -/
def LooksNumeric (w : List Char) : Prop :=
  ∃ c cs, w = c :: cs ∧ (c.isDigit ∨ (c = '+' ∨ c = '-') ∧ ∃ d ds, cs = d :: ds ∧ d.isDigit)

theorem startsNumeral_iff_looksNumeric : startsNumeral w ↔ LooksNumeric w := by
  unfold LooksNumeric
  match w with
  | [] => simp [startsNumeral]
  | [c] => simp [startsNumeral]
  | c :: d :: ds => simp [startsNumeral]

instance : DecidablePred LooksNumeric := fun _ =>
  decidable_of_iff _ startsNumeral_iff_looksNumeric

/-- **The word is a name**: neither a parenthesis nor what looks like a number. -/
def IsName (w : List Char) : Prop :=
  w ≠ ['('] ∧ w ≠ [')'] ∧ ¬LooksNumeric w

instance : DecidablePred IsName := fun _ =>
  inferInstanceAs (Decidable (_ ∧ _ ∧ _))

/-- **The kind of a word** behind the word `before`, if there is one. -/
def kindBehind (before : Option (List Char)) (w : List Char) : Kind :=
  if w = ['('] then .groupOpen
  else if w = [')'] then .groupClose
  else if LooksNumeric w then if '.' ∈ w then .float else .integer
  else if before = some ['('] then .procedure
  else .name

/-- Only for a name does it matter what stands before it. -/
theorem kindBehind_of_not_isName (hw : ¬IsName w) (before before' : Option (List Char)) :
    kindBehind before w = kindBehind before' w := by
  unfold kindBehind
  split_ifs with hopen hclose hnumeric
  · rfl
  · rfl
  · rfl
  · rfl
  all_goals exact absurd ⟨hopen, hclose, hnumeric⟩ hw

/-- An opening parenthesis is known by its word and by its kind. -/
theorem kindBehind_eq_groupOpen_iff (before : Option (List Char)) :
    kindBehind before w = .groupOpen ↔ w = ['('] := by
  unfold kindBehind
  split_ifs with hopen <;> simp [hopen]

namespace Token

variable {previous : Option Kind} {before : Option (List Char)}

/-- The kind remembers of the word before what matters of it: whether there is one, and whether
it is an opening parenthesis. -/
structure Remembers (previous : Option Kind) (before : Option (List Char)) : Prop where
  first : previous = none ↔ before = none
  opens : previous = some .groupOpen ↔ before = some ['(']

theorem remembers_kindBehind (before : Option (List Char)) (w : List Char) :
    Remembers (some (kindBehind before w)) (some w) where
  first := by simp
  opens := by simp [kindBehind_eq_groupOpen_iff]

theorem kind_eq_kindBehind (h : Remembers previous before) (v : Word)
    (hv : before ≠ none ∨ ¬IsName v.text) : v.kind previous = .ok (kindBehind before v.text) := by
  unfold Word.kind kindBehind
  simp only [startsNumeral_iff_looksNumeric]
  split_ifs with hopen hclose hnumeric hpoint hbefore
  · rfl
  · rfl
  · rfl
  · rfl
  · rw [h.opens.mpr hbefore]
  · -- a name behind another word than an opening parenthesis
    have hsome : previous ≠ none := by
      rcases hv with hv | hv
      · exact fun hnone => hv (h.first.mp hnone)
      · exact absurd ⟨hopen, hclose, hnumeric⟩ hv
    have hother : previous ≠ some .groupOpen := fun hopens => hbefore (h.opens.mp hopens)
    split
    · exact absurd rfl hsome
    · exact absurd rfl hother
    · rfl

/-- **The tokens of a list of words** behind the word `before`. -/
def tokensBehind (before : Option (List Char)) : List Word → List Token
  | [] => []
  | v :: vs =>
    ⟨kindBehind before v.text, String.ofList v.text, v.column⟩ :: tokensBehind (some v.text) vs

theorem outcome_ofWords_cons (h : Remembers previous before) {v : Word} (vs : List Word)
    (hv : before ≠ none ∨ ¬IsName v.text) {ts : List Token}
    (hvs : (ofWords (some (kindBehind before v.text)) vs).outcome = .ok ts) :
    (ofWords previous (v :: vs)).outcome =
      .ok (⟨kindBehind before v.text, String.ofList v.text, v.column⟩ :: ts) :=
  ofWords_cons_eq_ok_iff.mpr ⟨_, ts, kind_eq_kindBehind h v hv, hvs, rfl⟩

/-- Behind a word every list of words has tokens. -/
theorem outcome_ofWords_some {w : List Char} (h : Remembers previous (some w)) (vs : List Word) :
    (ofWords previous vs).outcome = .ok (tokensBehind (some w) vs) := by
  induction vs generalizing previous w with
  | nil => rfl
  | cons v vs ih => exact outcome_ofWords_cons h vs (by simp) (ih (remembers_kindBehind _ _))

/-- In front of all other words, a name has no kind. -/
theorem outcome_ofWords_of_isName {v : Word} (hname : IsName v.text) (vs : List Word) :
    (ofWords none (v :: vs)).outcome =
      .error (.startsWithName (String.ofList v.text) v.column) := by
  obtain ⟨hopen, hclose, hnumeric⟩ := hname
  have hkind : v.kind none = .error (.startsWithName (String.ofList v.text) v.column) := by
    unfold Word.kind
    rw [if_neg hopen, if_neg hclose, if_neg (startsNumeral_iff_looksNumeric.not.mpr hnumeric)]
  rw [ofWords, Traced.outcome_bind, Traced.outcome_ofExcept, hkind]
  rfl

theorem outcome_ofWords_of_not_isName {v : Word} (hname : ¬IsName v.text) (vs : List Word) :
    (ofWords none (v :: vs)).outcome = .ok (tokensBehind none (v :: vs)) := by
  have hnone : Remembers none none := ⟨by simp, by simp⟩
  exact outcome_ofWords_cons hnone vs (Or.inr hname)
    (outcome_ofWords_some (remembers_kindBehind _ _) vs)

/-- **A list of words has tokens** unless the first word is a name. -/
theorem ofWords_none_eq_ok_iff {vs : List Word} {ts : List Token} :
    (ofWords none vs).outcome = .ok ts ↔
      (∀ v, vs.head? = some v → ¬IsName v.text) ∧ ts = tokensBehind none vs := by
  cases vs with
  | nil => simp [ofWords, tokensBehind, eq_comm]
  | cons v vs =>
    by_cases hname : IsName v.text
    · simp [outcome_ofWords_of_isName hname, hname]
    · simp [outcome_ofWords_of_not_isName hname, hname, eq_comm]

theorem ofWords_none_eq_error_iff {vs : List Word} {err : ReadError} :
    (ofWords none vs).outcome = .error err ↔
      ∃ v, vs.head? = some v ∧ IsName v.text ∧
        err = .startsWithName (String.ofList v.text) v.column := by
  cases vs with
  | nil => simp [ofWords]
  | cons v vs =>
    by_cases hname : IsName v.text
    · simp [outcome_ofWords_of_isName hname, hname, eq_comm]
    · simp [outcome_ofWords_of_not_isName hname, hname]

/-- The word of a token. -/
def toWord (t : Token) : Word :=
  ⟨t.text.toList, t.column⟩

/-- Tokens are words with kinds. -/
theorem map_toWord_tokensBehind (before : Option (List Char)) (vs : List Word) :
    (tokensBehind before vs).map toWord = vs := by
  induction vs generalizing before with
  | nil => rfl
  | cons v vs ih => simp [tokensBehind, toWord, ih]

/-- The kinds are those of the words, each behind the one before it. -/
theorem map_kind_tokensBehind (before : Option (List Char)) (vs : List Word) :
    (tokensBehind before vs).map Token.kind =
      List.zipWith kindBehind (before :: (vs.map Word.text).map some) (vs.map Word.text) := by
  induction vs generalizing before with
  | nil => rfl
  | cons v vs ih => simp [tokensBehind, ih]

/-- A line without tokens starts with a name, and the error points at it. -/
theorem ofLine_eq_error_iff {line : String} {err : ReadError} :
    (ofLine line).outcome = .error err ↔
      ∃ w, (paddedWords line.toList).head? = some w ∧ IsName w ∧
        err = .startsWithName (String.ofList w) ((line.toList.takeWhile isBlank).length + 1) := by
  have hcolumn : ∀ v, (words 1 line.toList).head? = some v →
      v.column = (line.toList.takeWhile isBlank).length + 1 := by
    intro v hv
    rw [(cuts_words line.toList 1).column_of_head? hv, Nat.add_comm]
  rw [ofLine, ofWords_none_eq_error_iff, ← map_text_words 1, List.head?_map]
  constructor
  · rintro ⟨v, hv, hname, rfl⟩
    exact ⟨v.text, by rw [hv]; rfl, hname, by rw [hcolumn v hv]⟩
  · rintro ⟨w, hw, hname, rfl⟩
    obtain ⟨v, hv, rfl⟩ := Option.map_eq_some_iff.mp hw
    exact ⟨v, hv, hname, by rw [hcolumn v hv]⟩

/-- **The tokens of a line are its words by padding and splitting.** There are none if and only if
the first word is a name, and the error then gives this word with its column. Otherwise the texts
are the words in their order, the kinds are those of the words, each behind the one before it, and
the columns are places in the line: they increase, the text of a token stands at its column, and
what no token covers is blank. -/
theorem ofLine_pads_and_splits (line : String) :
    (∀ err, (ofLine line).outcome = .error err ↔
      ∃ w, (paddedWords line.toList).head? = some w ∧ IsName w ∧
        err = .startsWithName (String.ofList w) ((line.toList.takeWhile isBlank).length + 1)) ∧
    ∀ ts, (ofLine line).outcome = .ok ts →
      ts.map (·.text.toList) = paddedWords line.toList ∧
      ts.map Token.kind =
        List.zipWith kindBehind (none :: (paddedWords line.toList).map some)
          (paddedWords line.toList) ∧
      (ts.map Token.column).Pairwise (· < ·) ∧
      (∀ t ∈ ts, StandsAt t.text.toList t.column line.toList) ∧
      ∀ i c, line.toList[i]? = some c →
        (∀ t ∈ ts, ¬(t.column ≤ i + 1 ∧ i + 1 < t.column + t.text.toList.length)) → isBlank c := by
  refine ⟨fun err => ofLine_eq_error_iff, fun ts hts => ?_⟩
  have hcuts := cuts_words line.toList 1
  have htokens : ts = tokensBehind none (words 1 line.toList) := (ofWords_none_eq_ok_iff.mp hts).2
  have hwords : ts.map toWord = words 1 line.toList := by rw [htokens, map_toWord_tokensBehind]
  refine ⟨?_, ?_, ?_, ?_, ?_⟩
  · rw [← map_text_words 1, ← hwords, List.map_map]
    rfl
  · rw [htokens, map_kind_tokensBehind, map_text_words]
  · have hpairwise := hcuts.pairwise_words 1
    rw [← hwords, List.pairwise_map] at hpairwise
    exact List.pairwise_map.mpr hpairwise
  · intro t ht
    have hword : t.toWord ∈ words 1 line.toList := hwords ▸ List.mem_map_of_mem ht
    exact standsAt_of_mem_words hword
  · intro i c hi huncovered
    by_contra hblank
    rw [Bool.not_eq_true] at hblank
    obtain ⟨w, hw, hle, hlt⟩ := hcuts.exists_word_of_not_isBlank hi hblank 1
    rw [← hwords] at hw
    obtain ⟨t, ht, rfl⟩ := List.mem_map.mp hw
    rw [Nat.add_comm 1 i] at hle hlt
    exact huncovered t ht ⟨hle, hlt⟩

/-- Words that only parentheses part, behind a wide blank, and a name in front of
everything else. -/
theorem ofLine_pads_and_splits_behind_wide_blank :
    (ofLine "\u3000(é +4.)(x").outcome =
      .ok [⟨.groupOpen, "(", 2⟩, ⟨.procedure, "é", 3⟩, ⟨.float, "+4.", 5⟩, ⟨.groupClose, ")", 8⟩,
        ⟨.groupOpen, "(", 9⟩, ⟨.procedure, "x", 10⟩] ∧
    paddedWords "\u3000(é +4.)(x".toList =
      ["(".toList, "é".toList, "+4.".toList, ")".toList, "(".toList, "x".toList] ∧
    StandsAt "+4.".toList 5 "\u3000(é +4.)(x".toList ∧
    (ofLine "\u3000é(").outcome = .error (.startsWithName "é" 2) := by
  have hok : (ofLine "\u3000(é +4.)(x").outcome =
      .ok [⟨.groupOpen, "(", 2⟩, ⟨.procedure, "é", 3⟩, ⟨.float, "+4.", 5⟩, ⟨.groupClose, ")", 8⟩,
        ⟨.groupOpen, "(", 9⟩, ⟨.procedure, "x", 10⟩] := by decide +kernel
  obtain ⟨htexts, -, -, hplaces, -⟩ := (ofLine_pads_and_splits "\u3000(é +4.)(x").2 _ hok
  refine ⟨hok, htexts.symm, hplaces ⟨.float, "+4.", 5⟩ (by simp), ?_⟩
  exact ((ofLine_pads_and_splits "\u3000é(").1 _).mpr ⟨['é'], by decide +kernel, by decide, rfl⟩

end Token

end CambridgePolish
