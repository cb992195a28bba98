import CambridgePolish.Proofs.Stages

/-!
# Columns are carried along

A token has a column so that an error can point to it, and for nothing else. This file says so in
the form of a symmetry: whatever is done to the columns of all tokens, be it a shift or a loss,
reading does the same as before, and if it fails, then with the same error, whose column is changed
in the same way (`outcome_readForms_mapColumn`). A reader keeps the columns of open groups and
looks at none of them, so this is an equation about one step (`Reader.step_mapColumn`) that a run
inherits (`Reader.foldlM_mapColumn`).

The value of a line depends on its words alone (`outcome_evalLine`), and columns of words are
carried along as those of tokens are (`valueOfWords_mapColumn`).
-/

namespace CambridgePolish

/-! ### Moving columns -/

/-- The word in another column. -/
def Word.mapColumn (f : Nat → Nat) (w : Word) : Word :=
  { w with column := f w.column }

/-- The token in another column. -/
def Token.mapColumn (f : Nat → Nat) (t : Token) : Token :=
  { t with column := f t.column }

/-- The group with its parenthesis in another column. -/
def Group.mapColumn (f : Nat → Nat) (g : Group) : Group :=
  { g with column := f g.column }

/-- The reader that has read the same in other columns. -/
def Reader.mapColumn (f : Nat → Nat) (r : Reader) : Reader :=
  { r with groups := r.groups.map (Group.mapColumn f), opened := r.opened.map f }

/-- **The error in another column**, if it has one. -/
def ReadError.mapColumn (f : Nat → Nat) : ReadError → ReadError
  | .startsWithName word column => .startsWithName word (f column)
  | .numeral text column fault => .numeral text (f column) fault
  | .unknownOperator name column => .unknownOperator name (f column)
  | .unknownName name column => .unknownName name (f column)
  | .noValue kind text column => .noValue kind text (f column)
  | .empty => .empty
  | .expectedOperator found column => .expectedOperator found (f column)
  | .notAnOperator name column => .notAnOperator name (f column)
  | .unmatchedClose column => .unmatchedClose (f column)
  | .severalForms count => .severalForms count
  | .tooDeep limit => .tooDeep limit
  | .tooManyOperands operator limit => .tooManyOperands operator limit

/-- The error of a line in another column; an evaluation error has none. -/
def LineError.mapColumn (f : Nat → Nat) : LineError → LineError
  | .read err => .read (err.mapColumn f)
  | .eval err => .eval err

theorem ReadError.mapColumn_mapColumn (f g : Nat → Nat) (err : ReadError) :
    (err.mapColumn f).mapColumn g = err.mapColumn fun column => g (f column) := by
  cases err <;> rfl

/-! ### Outcomes with other values and errors -/

section Relabel

variable {ε ε' δ δ' α α' β β' : Type} {g : α → α'} {g' : β → β'} {m : ε → ε'}

/-- The outcome with another value or another error in the same place. -/
def relabel (g : α → α') (m : ε → ε') (x : Except ε α) : Except ε' α' :=
  (x.map g).mapError m

/-- A sequence is relabelled part by part. -/
theorem relabel_bind {x : Except ε α} {k : α → Except ε β} {k' : α' → Except ε' β'}
    (h : ∀ a, k' (g a) = relabel g' m (k a)) :
    (relabel g m x >>= k') = relabel g' m (x >>= k) := by
  cases x with
  | error err => rfl
  | ok a => exact h a

theorem mapError_relabel {n : ε → δ} {n' : ε' → δ'} {m' : δ → δ'}
    (h : ∀ err, n' (m err) = m' (n err)) (x : Except ε α) :
    (relabel g m x).mapError n' = relabel g m' (x.mapError n) := by
  cases x with
  | error err => exact congrArg Except.error (h err)
  | ok a => rfl

end Relabel

/-! ### Reading -/

variable {limits : Limits} (f : Nat → Nat)

theorem Token.value_mapColumn (t : Token) :
    (t.mapColumn f).value = relabel id (ReadError.mapColumn f) t.value := by
  unfold value mapColumn
  cases bound? t.text with
  | some v => rfl
  | none =>
    cases hkind : t.kind with
    | integer => cases readInteger t.text.toList <;> rfl
    | float => cases readReal t.text.toList <;> rfl
    | _ => rfl

namespace Reader

theorem place_mapColumn (r : Reader) (e : Expr) :
    (r.mapColumn f).place limits e =
      relabel (mapColumn f) (ReadError.mapColumn f) (r.place limits e) := by
  obtain ⟨forms, _ | ⟨g, gs⟩, opened⟩ := r
  · rfl
  · simp only [place, mapColumn, List.map_cons, Group.push, Group.mapColumn]
    split_ifs <;> rfl

theorem readHead_mapColumn (r : Reader) (column : Nat) (t : Token) :
    (r.mapColumn f).readHead (f column) (t.mapColumn f) =
      relabel (mapColumn f) (ReadError.mapColumn f) (r.readHead column t) := by
  unfold readHead
  rw [Token.value_mapColumn]
  cases hkind : t.kind with
  | procedure =>
    simp only [Token.mapColumn, hkind]
    refine relabel_bind fun v => ?_
    cases v <;> rfl
  | _ => simp only [Token.mapColumn, hkind]; rfl

theorem readItem_mapColumn (r : Reader) (t : Token) :
    (r.mapColumn f).readItem limits (t.mapColumn f) =
      relabel (mapColumn f) (ReadError.mapColumn f) (r.readItem limits t) := by
  unfold readItem
  rw [Token.value_mapColumn]
  cases hkind : t.kind with
  | groupOpen =>
    simp only [Token.mapColumn, hkind, mapColumn, List.length_map]
    split_ifs <;> rfl
  | groupClose =>
    simp only [Token.mapColumn, hkind]
    obtain ⟨forms, _ | ⟨g, gs⟩, opened⟩ := r
    · rfl
    · exact place_mapColumn f ⟨forms, gs, opened⟩ g.toExpr
  | _ =>
    simp only [Token.mapColumn, hkind]
    exact relabel_bind fun v => place_mapColumn f r (.atom v)

/-- **One step** carries columns along. -/
theorem step_mapColumn (r : Reader) (t : Token) :
    (r.mapColumn f).step limits (t.mapColumn f) =
      relabel (mapColumn f) (ReadError.mapColumn f) (r.step limits t) := by
  obtain ⟨forms, gs, _ | column⟩ := r
  · exact readItem_mapColumn f ⟨forms, gs, none⟩ t
  · exact readHead_mapColumn f ⟨forms, gs, some column⟩ column t

/-- **A run** carries columns along. -/
theorem foldlM_mapColumn (ts : List Token) (r : Reader) :
    (ts.map (Token.mapColumn f)).foldlM (step limits) (r.mapColumn f) =
      relabel (mapColumn f) (ReadError.mapColumn f) (ts.foldlM (step limits) r) := by
  induction ts generalizing r with
  | nil => rfl
  | cons t ts ih =>
    rw [List.map_cons, List.foldlM_cons, List.foldlM_cons, step_mapColumn]
    exact relabel_bind ih

/-- Where groups may be closed does not depend on their columns, and the error has none. -/
theorem closeAround_mapColumn (gs : List Group) (e : Expr) :
    (Group.closeAround limits e (gs.map (Group.mapColumn f))).outcome =
      relabel id (ReadError.mapColumn f) (Group.closeAround limits e gs).outcome := by
  induction gs generalizing e with
  | nil => rfl
  | cons g gs ih =>
    simp only [List.map_cons, Group.closeAround, Group.push, Group.mapColumn]
    split_ifs
    · exact ih _
    · rfl

theorem finish_mapColumn (r : Reader) :
    ((r.mapColumn f).finish limits).outcome =
      relabel id (ReadError.mapColumn f) (r.finish limits).outcome := by
  obtain ⟨forms, _ | ⟨g, gs⟩, _ | column⟩ := r
  · rfl
  · rfl
  · -- the columns of the groups that are still open are noted in events, which are no outcome
    simp only [finish, mapColumn, List.map_cons, Option.map_none, Traced.outcome_bind]
    have hclose := @closeAround_mapColumn limits f gs g.toExpr
    rw [show (g.mapColumn f).toExpr = g.toExpr from rfl, hclose]
    exact relabel_bind fun e => rfl
  · rfl

end Reader

/-- **Reading carries columns along.** -/
theorem outcome_readForms_mapColumn (ts : List Token) :
    (readForms limits (ts.map (Token.mapColumn f))).outcome =
      relabel id (ReadError.mapColumn f) (readForms limits ts).outcome := by
  rw [readForms, readForms, Traced.outcome_bind, Traced.outcome_bind, Traced.outcome_ofExcept,
    Traced.outcome_ofExcept]
  have hrun := @Reader.foldlM_mapColumn limits f ts Reader.start
  rw [show Reader.start.mapColumn f = Reader.start from rfl] at hrun
  rw [hrun]
  exact relabel_bind fun r => Reader.finish_mapColumn f r

theorem outcome_readForm_mapColumn (ts : List Token) :
    (readForm limits (ts.map (Token.mapColumn f))).outcome =
      relabel id (ReadError.mapColumn f) (readForm limits ts).outcome := by
  rw [readForm, readForm, Traced.outcome_bind, Traced.outcome_bind, outcome_readForms_mapColumn]
  refine relabel_bind fun forms => ?_
  rcases forms with _ | ⟨e, _ | ⟨e', forms⟩⟩ <;> rfl

/-! ### Lines -/

/-- The words of a text that starts further to the right. -/
theorem words_add (column k : Nat) (cs : List Char) :
    words (column + k) cs = (words column cs).map (Word.mapColumn (· + k)) := by
  induction cs generalizing column with
  | nil => rfl
  | cons c cs ih =>
    have hbehind := ih (column + 1)
    rw [Nat.add_right_comm] at hbehind
    rw [words, words, hbehind]
    split_ifs
    · rfl
    · cases words (column + 1) cs <;> rfl
    · rfl

theorem Word.kind_mapColumn (w : Word) (previous : Option Kind) :
    (w.mapColumn f).kind previous = relabel id (ReadError.mapColumn f) (w.kind previous) := by
  unfold kind mapColumn
  split_ifs
  · rfl
  · rfl
  · rfl
  · rfl
  · cases previous with
    | none => rfl
    | some kind => cases kind <;> rfl

theorem Token.outcome_ofWords_mapColumn (ws : List Word) (previous : Option Kind) :
    (ofWords previous (ws.map (Word.mapColumn f))).outcome =
      relabel (List.map (mapColumn f)) (ReadError.mapColumn f) (ofWords previous ws).outcome := by
  induction ws generalizing previous with
  | nil => rfl
  | cons w ws ih =>
    rw [List.map_cons, ofWords, ofWords, Traced.outcome_bind, Traced.outcome_bind,
      Traced.outcome_ofExcept, Traced.outcome_ofExcept, Word.kind_mapColumn]
    refine relabel_bind fun kind => ?_
    simp only [id_eq, Traced.outcome_log_bind, Traced.outcome_map, ih]
    cases (ofWords (some kind) ws).outcome <;> rfl

/-- The value of a list of words. -/
def valueOfWords (limits : Limits) (ws : List Word) : Except LineError Value := do
  let tokens ← (Token.ofWords none ws).outcome.mapError .read
  let e ← (readForm limits tokens).outcome.mapError .read
  (e.eval limits.maxDepth).outcome.mapError .eval

/-- **The value of a line depends on its words alone.** -/
theorem outcome_evalLine (limits : Limits) (line : String) :
    (evalLine limits line).outcome = valueOfWords limits (words 1 line.toList) := by
  simp only [evalLine, readLine, Token.ofLine, valueOfWords, Traced.outcome_bind,
    Traced.outcome_mapError, Traced.outcome_log, Traced.outcome_pure]
  cases (Token.ofWords none (words 1 line.toList)).outcome with
  | error err => rfl
  | ok ts =>
    simp only [Except.bind, Except.mapError, bind]
    cases (readForm limits ts).outcome with
    | error err => rfl
    | ok e =>
      simp only
      cases (e.eval limits.maxDepth).outcome <;> rfl

/-- **Words carry their columns along.** -/
theorem valueOfWords_mapColumn (ws : List Word) :
    valueOfWords limits (ws.map (Word.mapColumn f)) =
      relabel id (LineError.mapColumn f) (valueOfWords limits ws) := by
  unfold valueOfWords
  have hread : ∀ err : ReadError,
      LineError.read (err.mapColumn f) = (LineError.read err).mapColumn f :=
    fun _ => rfl
  rw [Token.outcome_ofWords_mapColumn, mapError_relabel hread]
  refine relabel_bind fun ts => ?_
  rw [outcome_readForm_mapColumn, mapError_relabel hread]
  refine relabel_bind fun e => ?_
  rw [id_eq]
  cases (e.eval limits.maxDepth).outcome <;> rfl

end CambridgePolish
