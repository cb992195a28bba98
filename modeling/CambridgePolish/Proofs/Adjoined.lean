import CambridgePolish.Proofs.ImpliedCloses
import CambridgePolish.Proofs.PadAndSplit

/-!
# One line behind another

Two lines with a blank between them are read one after the other. Their tokens stand side by side,
those of the second line further to the right (`Token.ofLine_append`): the word in front of a word
matters only to a name, and a line that has tokens does not start with one. If the first line leaves
no group open, its forms do not matter to the second line either (`Reader.foldlM_behind`), so the
forms stand side by side as well, and what is wrong with the second line is found at the same word,
in another column (`adjoined_lines_are_read_in_turn`).

That a line leaves no group open can be seen from its characters, as every parenthesis is a word and
no other word holds one (`Token.opens_of_ofLine`).
-/

namespace CambridgePolish

variable {a b : String} {w : Char} {cs : List Char} {ws : List (List Char)} {column : Nat}

/-! ### Tokens -/

/-- A parenthesis is a word of its own, wherever it stands. -/
theorem Cuts.count_paren {c : Char} (h : Cuts cs ws) (hc : isParen c) :
    ws.count [c] = cs.count c := by
  induction h with
  | nil => rfl
  | blank b cs ws hb _ ih =>
    have hne : b ≠ c := by
      rintro rfl
      rw [isParen_of_isBlank hb] at hc
      cases hc
    rw [ih, List.count_cons_of_ne hne]
  | paren b cs ws _ _ ih =>
    rw [List.count_cons, List.count_cons, ih]
    simp
  | run v rest ws hne hv _ _ ih =>
    have hnot : c ∉ v := by
      intro hmem
      rw [isParen_of_isWordChar (hv c hmem)] at hc
      cases hc
    have hword : v ≠ [c] := by
      rintro rfl
      exact hnot List.mem_cons_self
    rw [List.count_cons_of_ne hword, ih, List.count_append, List.count_eq_zero.mpr hnot,
      Nat.zero_add]

theorem kindBehind_eq_groupClose_iff {v : List Char} (before : Option (List Char)) :
    kindBehind before v = .groupClose ↔ v = [')'] := by
  unfold kindBehind
  split_ifs with hopen hclose
  · simp [hopen]
  · simp [hclose]
  all_goals simp [hclose]

namespace Token

variable {ts us : List Token} {before : Option (List Char)} {vs : List Word}

theorem opens_tokensBehind (before : Option (List Char)) (vs : List Word) :
    opens (tokensBehind before vs) = (vs.map Word.text).count ['('] := by
  induction vs generalizing before with
  | nil => rfl
  | cons v vs ih => simp [tokensBehind, ih, List.count_cons, kindBehind_eq_groupOpen_iff]

theorem closes_tokensBehind (before : Option (List Char)) (vs : List Word) :
    closes (tokensBehind before vs) = (vs.map Word.text).count [')'] := by
  induction vs generalizing before with
  | nil => rfl
  | cons v vs ih => simp [tokensBehind, ih, List.count_cons, kindBehind_eq_groupClose_iff]

/-- **Parentheses of a line are tokens**, and no other tokens open or close a group. -/
theorem opens_of_ofLine (h : (ofLine a).outcome = .ok ts) :
    opens ts = a.toList.count '(' ∧ closes ts = a.toList.count ')' := by
  obtain ⟨-, rfl⟩ := ofWords_none_eq_ok_iff.mp h
  have hcuts := cuts_words a.toList 1
  rw [opens_tokensBehind, closes_tokensBehind, hcuts.count_paren (by decide),
    hcuts.count_paren (by decide)]
  exact ⟨rfl, rfl⟩

/-- What follows a list of words stands behind the last of them, or behind what
they stand behind. -/
theorem exists_tokensBehind_append (before : Option (List Char)) (vs vs' : List Word) :
    ∃ before',
      tokensBehind before (vs ++ vs') = tokensBehind before vs ++ tokensBehind before' vs' := by
  induction vs generalizing before with
  | nil => exact ⟨before, rfl⟩
  | cons v vs ih =>
    obtain ⟨before', h⟩ := ih (some v.text)
    exact ⟨before', by rw [List.cons_append, tokensBehind, tokensBehind, h, List.cons_append]⟩

/-- What stands before does not matter to words that do not start with a name. -/
theorem tokensBehind_of_not_isName (h : ∀ v, vs.head? = some v → ¬IsName v.text)
    (before before' : Option (List Char)) : tokensBehind before vs = tokensBehind before' vs := by
  cases vs with
  | nil => rfl
  | cons v vs => rw [tokensBehind, tokensBehind, kindBehind_of_not_isName (h v rfl) before before']

theorem tokensBehind_mapColumn (f : Nat → Nat) (before : Option (List Char)) (vs : List Word) :
    tokensBehind before (vs.map (Word.mapColumn f)) =
      (tokensBehind before vs).map (mapColumn f) := by
  induction vs generalizing before with
  | nil => rfl
  | cons v vs ih =>
    rw [List.map_cons, tokensBehind, tokensBehind, ih]
    rfl

/-- **The tokens of two lines** with a blank between them are those of the one and those of
the other, moved to the right. -/
theorem ofLine_append (hw : isBlank w) (ha : (ofLine a).outcome = .ok ts)
    (hb : (ofLine b).outcome = .ok us) :
    (ofLine (a ++ w.toString ++ b)).outcome =
      .ok (ts ++ us.map (mapColumn (· + (a.length + 1)))) := by
  obtain ⟨hfirst, rfl⟩ := ofWords_none_eq_ok_iff.mp ha
  obtain ⟨hfirst', rfl⟩ := ofWords_none_eq_ok_iff.mp hb
  have htext : (a ++ w.toString ++ b).toList = a.toList ++ w :: b.toList := by simp
  have hwords : words 1 (a ++ w.toString ++ b).toList =
      words 1 a.toList ++ (words 1 b.toList).map (Word.mapColumn (· + (a.length + 1))) := by
    rw [htext, words_append_cons hw, ← words_add, Nat.add_assoc, String.length_toList]
  have hmoved : ∀ v, ((words 1 b.toList).map (Word.mapColumn (· + (a.length + 1)))).head? = some v →
      ¬IsName v.text := by
    intro v hv
    rw [List.head?_map] at hv
    obtain ⟨u, hu, rfl⟩ := Option.map_eq_some_iff.mp hv
    exact hfirst' u hu
  unfold ofLine
  rw [hwords]
  refine ofWords_none_eq_ok_iff.mpr ⟨?_, ?_⟩
  · intro v hv
    rw [List.head?_append] at hv
    rcases Option.or_eq_some_iff.mp hv with hv | ⟨-, hv⟩
    · exact hfirst v hv
    · exact hmoved v hv
  · obtain ⟨before, happend⟩ := exists_tokensBehind_append none (words 1 a.toList)
      ((words 1 b.toList).map (Word.mapColumn (· + (a.length + 1))))
    rw [happend, tokensBehind_of_not_isName hmoved before none, tokensBehind_mapColumn]

end Token

/-! ### Forms -/

namespace Reader

variable {limits : Limits}

/-- The reader that has read other forms before. -/
def behind (forms : List Expr) (r : Reader) : Reader :=
  { r with forms := r.forms ++ forms }

theorem place_behind (forms : List Expr) (r : Reader) (e : Expr) :
    (r.behind forms).place limits e = relabel (behind forms) id (r.place limits e) := by
  obtain ⟨fs, _ | ⟨g, gs⟩, opened⟩ := r
  · rfl
  · simp only [place, behind, Group.push]
    split_ifs <;> rfl

theorem readHead_behind (forms : List Expr) (r : Reader) (column : Nat) (t : Token) :
    (r.behind forms).readHead column t = relabel (behind forms) id (r.readHead column t) := by
  unfold readHead
  cases t.kind with
  | procedure =>
    simp only
    cases t.value with
    | error err => rfl
    | ok v => cases v <;> rfl
  | _ => rfl

theorem readItem_behind (forms : List Expr) (r : Reader) (t : Token) :
    (r.behind forms).readItem limits t = relabel (behind forms) id (r.readItem limits t) := by
  unfold readItem
  cases t.kind with
  | groupOpen =>
    simp only [show (r.behind forms).groups = r.groups from rfl]
    split_ifs <;> rfl
  | groupClose =>
    obtain ⟨fs, _ | ⟨g, gs⟩, opened⟩ := r
    · rfl
    · exact place_behind forms ⟨fs, gs, opened⟩ g.toExpr
  | _ =>
    simp only
    cases t.value with
    | error err => rfl
    | ok v => exact place_behind forms r (.atom v)

/-- **One step** does not look at the finished forms. -/
theorem step_behind (forms : List Expr) (r : Reader) (t : Token) :
    (r.behind forms).step limits t = relabel (behind forms) id (r.step limits t) := by
  obtain ⟨fs, gs, _ | column⟩ := r
  · exact readItem_behind forms ⟨fs, gs, none⟩ t
  · exact readHead_behind forms ⟨fs, gs, some column⟩ column t

/-- **A run** does not look at the forms that were finished before it. -/
theorem foldlM_behind (forms : List Expr) (ts : List Token) (r : Reader) :
    ts.foldlM (step limits) (r.behind forms) =
      relabel (behind forms) id (ts.foldlM (step limits) r) := by
  induction ts generalizing r with
  | nil => rfl
  | cons t ts ih =>
    rw [List.foldlM_cons, List.foldlM_cons, step_behind]
    exact relabel_bind ih

theorem finish_behind (forms : List Expr) (r : Reader) :
    ((r.behind forms).finish limits).outcome =
      relabel (forms.reverse ++ ·) id (r.finish limits).outcome := by
  obtain ⟨fs, _ | ⟨g, gs⟩, _ | column⟩ := r
  · simp [finish, behind, relabel, Except.map, Except.mapError]
  · rfl
  · simp only [finish, behind, Traced.outcome_bind]
    cases (Group.closeAround limits g.toExpr gs).outcome with
    | error err => rfl
    | ok e => simp [relabel, Except.bind, Except.map, Except.mapError]
  · rfl

end Reader

variable {limits : Limits} {ts us : List Token} {forms : List Expr}

/-- **Tokens that leave no group open** are read by themselves, and so are the
tokens behind them. -/
theorem outcome_readForms_append (hts : (readForms limits ts).outcome = .ok forms)
    (hbalance : closes ts = opens ts) :
    (readForms limits (ts ++ us)).outcome =
      relabel (forms ++ ·) id (readForms limits us).outcome := by
  obtain ⟨r, hrun, hr, rfl, hopen⟩ := exists_reader_of_readForms hts
  -- behind `ts` reading starts anew, with the forms of `ts` in store
  have hstart : r = Reader.start.behind r.forms := hr.eq_of_length_eq_zero (by omega)
  have hforest : r.forest = r.forms.reverse := by
    rw [hstart]
    rfl
  rw [readForms, readForms, Traced.outcome_bind, Traced.outcome_bind, Traced.outcome_ofExcept,
    Traced.outcome_ofExcept, List.foldlM_append, hrun]
  change (us.foldlM (Reader.step limits) r >>= fun r => (r.finish limits).outcome) = _
  rw [hforest, hstart, Reader.foldlM_behind]
  exact relabel_bind fun r' => Reader.finish_behind _ r'

/-- **Two lines with a blank between them are read in turn.** The tokens are those of the first
line and then those of the second, moved to the right by the length of the first and the blank.
If the first line is read and has as many closing parentheses as opening ones, the forms are
those of the first line and then those of the second, and if the second line is not read, the
error is the same with its column moved likewise. So two lines with at least two forms between
them are too many forms for one line. -/
theorem adjoined_lines_are_read_in_turn (a b : String) (w : Char) (hw : isBlank w)
    (ts us : List Token) (ha : (Token.ofLine a).outcome = .ok ts)
    (hb : (Token.ofLine b).outcome = .ok us) :
    (Token.ofLine (a ++ w.toString ++ b)).outcome =
      .ok (ts ++ us.map (Token.mapColumn (· + (a.length + 1)))) ∧
    ∀ limits forms, (readForms limits ts).outcome = .ok forms →
      a.toList.count ')' = a.toList.count '(' →
      (∀ forms', (readForms limits us).outcome = .ok forms' →
        (readForms limits (ts ++ us.map (Token.mapColumn (· + (a.length + 1))))).outcome =
          .ok (forms ++ forms') ∧
        (2 ≤ forms.length + forms'.length →
          (readForm limits (ts ++ us.map (Token.mapColumn (· + (a.length + 1))))).outcome =
            .error (.severalForms (forms.length + forms'.length)))) ∧
      ∀ err, (readForms limits us).outcome = .error err →
        (readForms limits (ts ++ us.map (Token.mapColumn (· + (a.length + 1))))).outcome =
          .error (err.mapColumn (· + (a.length + 1))) := by
  refine ⟨Token.ofLine_append hw ha hb, ?_⟩
  intro limits forms hforms hparens
  obtain ⟨hopens, hcloses⟩ := Token.opens_of_ofLine ha
  have hbalance : closes ts = opens ts := by rw [hopens, hcloses, hparens]
  have hread := @outcome_readForms_append limits ts
    (us.map (Token.mapColumn (· + (a.length + 1)))) forms hforms hbalance
  rw [outcome_readForms_mapColumn] at hread
  constructor
  · intro forms' hforms'
    rw [hforms'] at hread
    refine ⟨hread, fun hlen => ?_⟩
    refine readForm_eq_error_iff.mpr (Or.inr (Or.inr ⟨forms ++ forms', hread, ?_, ?_⟩))
    · rwa [List.length_append]
    · rw [List.length_append]
  · intro err herr
    rw [herr] at hread
    exact hread

/-- A line in front of one that has a form, and in front of one that is not read. -/
theorem adjoined_lines_are_read_in_turn_behind_sum :
    (Token.ofLine "(+ 1)\u00a07").outcome =
      .ok [⟨.groupOpen, "(", 1⟩, ⟨.procedure, "+", 2⟩, ⟨.integer, "1", 4⟩, ⟨.groupClose, ")", 5⟩,
        ⟨.integer, "7", 7⟩] ∧
    (readForm .default [⟨.groupOpen, "(", 1⟩, ⟨.procedure, "+", 2⟩, ⟨.integer, "1", 4⟩,
      ⟨.groupClose, ")", 5⟩, ⟨.integer, "7", 7⟩]).outcome = .error (.severalForms 2) ∧
    (readForms .default [⟨.groupOpen, "(", 1⟩, ⟨.procedure, "+", 2⟩, ⟨.integer, "1", 4⟩,
      ⟨.groupClose, ")", 5⟩, ⟨.groupClose, ")", 7⟩]).outcome = .error (.unmatchedClose 7) := by
  have ha : (Token.ofLine "(+ 1)").outcome = .ok [⟨.groupOpen, "(", 1⟩, ⟨.procedure, "+", 2⟩,
      ⟨.integer, "1", 4⟩, ⟨.groupClose, ")", 5⟩] := by decide +kernel
  have hforms : (readForms .default [⟨.groupOpen, "(", 1⟩, ⟨.procedure, "+", 2⟩, ⟨.integer, "1", 4⟩,
      ⟨.groupClose, ")", 5⟩]).outcome = .ok [.call .add [.atom (.int 1)]] := rfl
  have hseven : (Token.ofLine "7").outcome = .ok [⟨.integer, "7", 1⟩] := by decide +kernel
  have hclose : (Token.ofLine ")").outcome = .ok [⟨.groupClose, ")", 1⟩] := by decide +kernel
  obtain ⟨htokens, hread⟩ :=
    adjoined_lines_are_read_in_turn _ _ '\u00a0' (by decide) _ _ ha hseven
  obtain ⟨-, hread'⟩ := adjoined_lines_are_read_in_turn _ _ '\t' (by decide) _ _ ha hclose
  have hseveral := ((hread .default _ hforms (by decide)).1 [.atom (.int 7)] rfl).2 (by decide)
  have herror := (hread' .default _ hforms (by decide)).2 (.unmatchedClose 1) rfl
  exact ⟨htokens, hseveral, herror⟩

end CambridgePolish
