import CambridgePolish.Proofs.Failure
import CambridgePolish.Proofs.Numerals
import CambridgePolish.Proofs.Places

/-!
# Texts of one line

A newline is a blank, so no word of a line has one, and nothing that the program makes of words and
numbers has one either. This file follows newlines through all that the program says about a line:
the log line of an event (`oneLine_of_mem_events_evalLine`) and the message of an error
(`oneLine_message_of_evalLine`) are one line each.

Most texts have no newline whatever they are made of: a number is digits, a value is a number or a
fixed text, and a quoted word shows its newlines by a letter (`oneLine_quoted`). Two sorts of text
show words as they are: the list of the tokens, which one event tells, and the message of an error.
Tokens are words (`oneLine_of_mem_ofLine`), and what an error names is a word of the line or an
operator (`exists_operator_of_readForm_eq_error`).
-/

namespace CambridgePolish

variable {s t : String} {cs : List Char}

/-- **The text is part of one line**: there is no newline in it. -/
def OneLine (s : String) : Prop :=
  '\n' ∉ s.toList

instance (s : String) : Decidable (OneLine s) :=
  inferInstanceAs (Decidable (¬_))

@[simp] theorem oneLine_append : OneLine (s ++ t) ↔ OneLine s ∧ OneLine t := by
  simp [OneLine]

theorem oneLine_toString : OneLine (toString s) ↔ OneLine s :=
  Iff.rfl

theorem oneLine_ofList : OneLine (String.ofList cs) ↔ '\n' ∉ cs := by
  rw [OneLine, String.toList_ofList]

theorem oneLine_intercalate {items : List String} (hs : OneLine s)
    (h : ∀ item ∈ items, OneLine item) :
    OneLine (s.intercalate items) := by
  induction items with
  | nil => exact List.not_mem_nil
  | cons item items ih =>
    obtain ⟨hitem, hitems⟩ := List.forall_mem_cons.mp h
    cases items with
    | nil => simpa using hitem
    | cons next items =>
      rw [String.intercalate_cons_cons, oneLine_append, oneLine_append]
      exact ⟨⟨hitem, hs⟩, ih hitems⟩

/-! ### Numbers and names -/

theorem newline_not_mem_of_isDigit (h : ∀ c ∈ cs, c.isDigit) : '\n' ∉ cs := by
  intro hmem
  exact absurd (h '\n' hmem) (by decide)

theorem newline_not_mem_toDigits (n : Nat) : '\n' ∉ Nat.toDigits 10 n :=
  newline_not_mem_of_isDigit (isDigits_toDigits n).2

theorem oneLine_toString_nat (n : Nat) : OneLine (toString n) := by
  rw [Nat.toString_eq_ofList_toDigits, oneLine_ofList]
  exact newline_not_mem_toDigits n

theorem newline_not_mem_toDigits_hex (n : Nat) : '\n' ∉ Nat.toDigits 16 n := by
  have hdigit : ∀ d < 16, '\n' ≠ Nat.digitChar d := by decide
  induction n using Nat.strongRecOn with
  | ind n ih =>
    rw [Nat.toDigits_eq_if (by decide)]
    split_ifs with hlt
    · simp [hdigit n hlt]
    · rw [List.mem_append, List.mem_singleton, not_or]
      exact ⟨ih (n / 16) (by omega), hdigit (n % 16) (Nat.mod_lt n (by decide))⟩

theorem oneLine_kindText (kind : Kind) : OneLine kind.text := by
  cases kind <;> decide

theorem oneLine_symbol (o : Operator) : OneLine o.symbol := by
  cases o <;> decide

theorem oneLine_reason (fault : NumeralFault) : OneLine fault.reason := by
  cases fault <;> decide

theorem newline_not_mem_quotedChar (c : Char) : '\n' ∉ quotedChar c := by
  rcases eq_or_ne c '\n' with rfl | hne
  · decide
  · -- no other character is written with a newline, also not by its number
    unfold quotedChar
    split_ifs <;> simp [newline_not_mem_toDigits_hex, hne.symm]

/-- **A quoted text is one line**, whatever it quotes. -/
theorem oneLine_quoted (s : String) : OneLine (quoted s) := by
  rw [quoted, oneLine_ofList]
  simp [newline_not_mem_quotedChar]

/-! ### Values -/

theorem newline_not_mem_signed (negative : Bool) (h : '\n' ∉ cs) : '\n' ∉ signed negative cs := by
  unfold signed
  split_ifs
  · simpa using h
  · exact h

theorem oneLine_integerText (n : Int) : OneLine (integerText n) := by
  rw [OneLine, integerText_toList]
  exact newline_not_mem_signed _ (newline_not_mem_toDigits n.natAbs)

theorem Decimal.newline_not_mem_plain (d : Decimal) : '\n' ∉ d.plain := by
  obtain ⟨whole, fraction, hplain, hwhole, hfraction, -⟩ := d.exists_plain_eq
  rw [hplain]
  simp [newline_not_mem_of_isDigit hwhole.2, newline_not_mem_of_isDigit hfraction.2]

theorem Decimal.newline_not_mem_scientific (d : Decimal) : '\n' ∉ d.scientific := by
  have hdigits : '\n' ∉ d.digits := newline_not_mem_toDigits d.coefficient
  have hpower := newline_not_mem_toDigits d.order.natAbs
  unfold scientific
  split
  · next first second rest heq =>
    rw [heq] at hdigits
    simp only [List.mem_cons, not_or] at hdigits
    split_ifs <;> simp [hdigits, hpower]
  · split_ifs <;> simp [hdigits, hpower]

namespace Binary64

theorem oneLine_textWith {layout : Decimal → List Char} (h : ∀ d, '\n' ∉ layout d) (x : Binary64) :
    OneLine (x.textWith layout) := by
  have hmagnitude : '\n' ∉ if x.isFinite then layout (shortest x.rank) else ['i', 'n', 'f'] := by
    split_ifs
    · exact h _
    · decide
  rw [textWith]
  by_cases hnan : x.isNaN
  · rw [if_pos hnan]
    decide
  · rw [if_neg hnan, oneLine_ofList]
    exact newline_not_mem_signed x.isNegative hmagnitude

theorem oneLine_logText (x : Binary64) : OneLine x.logText := by
  refine oneLine_textWith (fun d => ?_) x
  unfold logLayout
  split_ifs
  · exact d.newline_not_mem_plain
  · exact d.newline_not_mem_scientific

end Binary64

theorem oneLine_valueText (v : Value) : OneLine v.text := by
  cases v with
  | int n => exact oneLine_integerText n.toInt
  | real x => exact Binary64.oneLine_textWith Decimal.newline_not_mem_plain x
  | operator o =>
    simp only [Value.text, oneLine_append, oneLine_symbol]
    decide
  | nil => decide

theorem oneLine_valueLogText (v : Value) : OneLine v.logText := by
  cases v with
  | int n =>
    unfold Value.logText
    simp only [oneLine_append, oneLine_integerText]
    decide
  | real x =>
    unfold Value.logText
    simp only [oneLine_append, Binary64.oneLine_logText]
    decide
  | operator o =>
    unfold Value.logText
    simp only [oneLine_append, oneLine_quoted]
    decide
  | nil => decide

/-! ### Expressions -/

theorem oneLine_texts {es : List Expr} (h : ∀ e ∈ es, OneLine e.text) :
    OneLine (Expr.texts es) := by
  induction es with
  | nil => decide
  | cons e es ih =>
    obtain ⟨he, hes⟩ := List.forall_mem_cons.mp h
    simp only [Expr.texts, oneLine_append, he, ih hes]
    decide

/-- **A written expression is one line.** -/
theorem oneLine_exprText (e : Expr) : OneLine e.text := by
  induction e with
  | atom v =>
    cases v with
    | operator o => exact oneLine_symbol o
    | _ => exact oneLine_valueText _
  | call o es ih =>
    simp only [Expr.text, oneLine_append, oneLine_symbol, oneLine_texts ih]
    decide

/-! ### Events -/

theorem oneLine_listed {items : List String} (h : ∀ item ∈ items, OneLine item) :
    OneLine (Event.listed items) := by
  have hitems : OneLine (", ".intercalate items) := oneLine_intercalate (by decide) h
  simp only [Event.listed, oneLine_append, hitems]
  decide

theorem oneLine_tokenLogText {t : Token} (h : OneLine t.text) : OneLine t.logText := by
  simp only [Token.logText, oneLine_append, oneLine_kindText, h]
  decide

/-- **What an event tells is one line**, if the words are that it shows without quotes. -/
theorem oneLine_eventMessage {event : Event}
    (h : ∀ ts, event = .tokenized ts → ∀ t ∈ ts, OneLine t.text) : OneLine event.message := by
  cases event with
  | token t =>
    unfold Event.message
    simp only [oneLine_append, oneLine_toString, oneLine_toString_nat, oneLine_kindText,
      oneLine_quoted]
    decide
  | tokenized ts =>
    have hitems : ∀ item ∈ ts.map Token.logText, OneLine item :=
      List.forall_mem_map.mpr fun t ht => oneLine_tokenLogText (h ts rfl t ht)
    unfold Event.message
    simp only [oneLine_append, oneLine_listed hitems]
    decide
  | unclosed o column =>
    unfold Event.message
    simp only [oneLine_append, oneLine_toString, oneLine_toString_nat, oneLine_quoted]
    decide
  | parsed e =>
    unfold Event.message
    simp only [oneLine_append, oneLine_exprText]
    decide
  | applying o operands depth =>
    have hitems : ∀ item ∈ operands.map Value.logText, OneLine item :=
      List.forall_mem_map.mpr fun v _ => oneLine_valueLogText v
    unfold Event.message
    simp only [oneLine_append, oneLine_toString, oneLine_toString_nat, oneLine_quoted,
      oneLine_listed hitems]
    decide
  | evaluated v =>
    unfold Event.message
    simp only [oneLine_append, oneLine_valueText]
    decide

theorem oneLine_line {event : Event} (h : ∀ ts, event = .tokenized ts → ∀ t ∈ ts, OneLine t.text) :
    OneLine event.line := by
  have hlabel : OneLine event.label := by
    unfold Event.label
    split <;> decide
  have horigin : OneLine event.origin := by
    unfold Event.origin
    split <;> decide
  simp only [Event.line, oneLine_append, hlabel, horigin, oneLine_eventMessage h]
  decide

/-- The event shows no word without quotes. -/
def Event.Quotes (event : Event) : Prop :=
  ∀ ts, event ≠ .tokenized ts

theorem Event.Quotes.oneLine_line {event : Event} (h : event.Quotes) : OneLine event.line :=
  CambridgePolish.oneLine_line fun ts hts => absurd hts (h ts)

theorem Token.quotes_of_mem_events_ofWords (previous : Option Kind) (ws : List Word) :
    ∀ event ∈ (ofWords previous ws).events, event.Quotes := by
  induction ws generalizing previous with
  | nil => simp [ofWords]
  | cons w ws ih =>
    rw [ofWords]
    refine Traced.forall_mem_events_bind (by simp) fun kind _ => ?_
    refine Traced.forall_mem_events_bind (by simp [Event.Quotes]) fun _ _ => ?_
    rw [Traced.events_map]
    exact ih (some kind)

theorem quotes_of_mem_events_closeAround (limits : Limits) (e : Expr) (gs : List Group) :
    ∀ event ∈ (Group.closeAround limits e gs).events, event.Quotes := by
  induction gs generalizing e with
  | nil => simp [Group.closeAround]
  | cons g gs ih =>
    rw [Group.closeAround]
    refine Traced.forall_mem_events_bind (by simp) fun g' _ => ?_
    exact Traced.forall_mem_events_bind (by simp [Event.Quotes]) fun _ _ => ih g'.toExpr

theorem quotes_of_mem_events_finish (limits : Limits) (r : Reader) :
    ∀ event ∈ (r.finish limits).events, event.Quotes := by
  obtain ⟨forms, _ | ⟨g, gs⟩, _ | column⟩ := r
  · simp [Reader.finish]
  · simp [Reader.finish, Traced.fail]
  · refine Traced.forall_mem_events_bind (by simp [Event.Quotes]) fun _ _ => ?_
    exact Traced.forall_mem_events_bind (quotes_of_mem_events_closeAround limits _ gs) (by simp)
  · simp [Reader.finish, Traced.fail]

theorem quotes_of_mem_events_readForm (limits : Limits) (ts : List Token) :
    ∀ event ∈ (readForm limits ts).events, event.Quotes := by
  have hforms : ∀ event ∈ (readForms limits ts).events, event.Quotes :=
    Traced.forall_mem_events_bind (by simp) fun r _ => quotes_of_mem_events_finish limits r
  refine Traced.forall_mem_events_bind hforms fun forms _ => ?_
  split <;> simp [Traced.fail]

theorem Expr.quotes_of_mem_events_evalAt (limit depth : Nat) (e : Expr) :
    ∀ event ∈ (e.evalAt limit depth).events, event.Quotes := by
  induction e generalizing depth with
  | atom v => simp [evalAt]
  | call o es ih =>
    have hoperands (position : Nat) :
        ∀ event ∈ (evalOperands limit depth o position es).events, event.Quotes := by
      induction es generalizing position with
      | nil => simp [evalOperands]
      | cons e es ihes =>
        obtain ⟨he, hes⟩ := List.forall_mem_cons.mp ih
        rw [evalOperands]
        refine Traced.forall_mem_events_bind (he (depth + 1)) fun v _ => ?_
        rw [Traced.events_map]
        exact ihes hes (position + 1)
    rw [evalAt]
    split_ifs
    · refine Traced.forall_mem_events_bind (hoperands 1) fun vs _ => ?_
      exact Traced.forall_mem_events_bind (by simp [Event.Quotes]) fun _ _ => by simp
    · simp [Traced.fail]

/-! ### Words -/

theorem Cuts.isBlank_eq_false {ws : List (List Char)} (h : Cuts cs ws) :
    ∀ w ∈ ws, ∀ c ∈ w, isBlank c = false := by
  induction h with
  | nil => simp
  | blank c cs ws _ _ ih => exact ih
  | paren c cs ws hc _ ih => simpa [isBlank_of_isParen hc] using ih
  | run w rest ws _ hw _ _ ih =>
    exact List.forall_mem_cons.mpr ⟨fun c hc => isBlank_of_isWordChar (hw c hc), ih⟩

/-- **A word is part of one line**, since a newline is a blank. -/
theorem oneLine_of_mem_words {w : Word} {column : Nat} (hw : w ∈ words column cs) :
    OneLine (String.ofList w.text) := by
  rw [oneLine_ofList]
  intro hmem
  have hblank := (cuts_words cs column).isBlank_eq_false w.text (List.mem_map_of_mem hw) '\n' hmem
  exact absurd hblank (by decide)

theorem oneLine_of_mem_ofLine {line : String} {ts : List Token} {t : Token}
    (h : (Token.ofLine line).outcome = .ok ts) (ht : t ∈ ts) : OneLine t.text := by
  obtain ⟨w, hw, htext, -⟩ := Token.exists_word_of_mem_ofWords h ht
  rw [htext]
  exact oneLine_of_mem_words hw

/-- **The log line of an event of a line is one line.** -/
theorem oneLine_of_mem_events_evalLine (limits : Limits) (line : String) :
    ∀ event ∈ (evalLine limits line).events, OneLine event.line := by
  have hread : ∀ event ∈ (readLine limits line).events, OneLine event.line := by
    refine Traced.forall_mem_events_bind (fun event hevent => ?_) fun ts hts => ?_
    · exact (Token.quotes_of_mem_events_ofWords none _ event hevent).oneLine_line
    refine Traced.forall_mem_events_bind ?_ fun _ _ => ?_
    · -- the one event that shows words as they are
      rw [Traced.events_log, List.forall_mem_singleton]
      refine oneLine_line fun us hus t ht => ?_
      cases hus
      exact oneLine_of_mem_ofLine hts ht
    refine Traced.forall_mem_events_bind (fun event hevent => ?_) fun e _ => ?_
    · exact (quotes_of_mem_events_readForm limits ts event hevent).oneLine_line
    refine Traced.forall_mem_events_bind ?_ (by simp)
    rw [Traced.events_log, List.forall_mem_singleton]
    exact oneLine_line nofun
  refine Traced.forall_mem_events_bind hread fun e _ => ?_
  refine Traced.forall_mem_events_bind (fun event hevent => ?_) fun v _ => ?_
  · exact (Expr.quotes_of_mem_events_evalAt limits.maxDepth 1 e event hevent).oneLine_line
  refine Traced.forall_mem_events_bind ?_ (by simp)
  rw [Traced.events_log, List.forall_mem_singleton]
  exact oneLine_line nofun

/-! ### Errors -/

variable {limits : Limits}

/-- An error of reading is one line, if what it names is. -/
theorem ReadError.oneLine_message {err : ReadError}
    (hword : ∀ word column, err.place? = some (word, column) → OneLine word)
    (hoperator : ∀ name limit, err = .tooManyOperands name limit → OneLine name) :
    OneLine err.message := by
  cases err with
  | startsWithName word column | unknownOperator word column | unknownName word column
  | expectedOperator word column | notAnOperator word column =>
    unfold message
    simp only [oneLine_append, oneLine_toString, oneLine_toString_nat, hword word column rfl]
    decide
  | numeral text column fault =>
    unfold message
    simp only [oneLine_append, oneLine_toString, oneLine_toString_nat, hword text column rfl,
      oneLine_reason]
    decide
  | noValue kind text column =>
    unfold message
    simp only [oneLine_append, oneLine_toString, oneLine_toString_nat, hword text column rfl,
      oneLine_kindText]
    decide
  | empty => decide
  | unmatchedClose n | severalForms n | tooDeep n =>
    unfold message
    simp only [oneLine_append, oneLine_toString, oneLine_toString_nat]
    decide
  | tooManyOperands name limit =>
    unfold message
    simp only [oneLine_append, oneLine_toString, oneLine_toString_nat, hoperator name limit rfl]
    decide

theorem Reader.Refused.exists_operator {t : Token} {r : Reader} {name : String} {limit : Nat}
    (h : Refused limits t r (.tooManyOperands name limit)) : ∃ o : Operator, name = o.symbol := by
  cases h with
  | headValue _ _ _ _ _ hvalue | itemValue _ _ _ _ _ hvalue =>
    cases Token.place?_of_value_eq_error hvalue
  | closing _ _ _ _ _ hcrowded | item _ _ _ _ _ _ _ hcrowded =>
    cases hcrowded
    exact ⟨_, rfl⟩

theorem exists_operator_of_readForm_eq_error {ts : List Token} {name : String} {limit : Nat}
    (h : (readForm limits ts).outcome = .error (.tooManyOperands name limit)) :
    ∃ o : Operator, name = o.symbol := by
  rcases readForm_eq_error_iff.mp h with hforms | ⟨-, herr⟩ | ⟨forms, -, -, herr⟩
  · rcases readForms_eq_error_iff.mp hforms with hrun | ⟨r, -, hfinish⟩
    · obtain ⟨us, t, vs, r, -, -, hrefused⟩ := Reader.foldlM_eq_error_iff.mp hrun
      exact hrefused.exists_operator
    · rcases Reader.finish_eq_error_iff.mp hfinish with
        ⟨-, herr⟩ | ⟨-, inner, g, outer, -, -, -, herr⟩
      · cases herr
      · cases herr
        exact ⟨_, rfl⟩
  · cases herr
  · cases herr

/-- An error of evaluation is one line. -/
theorem Expr.oneLine_message_of_evalAt {limit depth : Nat} {e : Expr} {err : EvalError}
    (h : (e.evalAt limit depth).outcome = .error err) : OneLine err.message := by
  induction e generalizing depth err with
  | atom v => simp [evalAt] at h
  | call o es ih =>
    rcases evalAt_call_eq_error_iff.mp h with
      ⟨-, rfl⟩ | ⟨-, ⟨i, c, cause, hc, -, hcause, rfl⟩ | hcall⟩
    · unfold EvalError.message
      simp only [oneLine_append, oneLine_toString, oneLine_toString_nat]
      decide
    · unfold EvalError.message
      simp only [oneLine_append, oneLine_toString, oneLine_toString_nat, oneLine_symbol,
        ih c (List.mem_of_getElem? hc) hcause]
      decide
    · obtain ⟨vs, -, hcall⟩ := hcall
      rcases Operator.call_eq_error_cases hcall with rfl | ⟨left, right, rfl⟩ | rfl | rfl
      all_goals
        unfold EvalError.message
        simp only [oneLine_append, oneLine_toString, oneLine_toString_nat, oneLine_symbol,
          oneLine_kindText]
        decide

/-- **The error of a line is told in one line.** -/
theorem oneLine_message_of_evalLine {line : String} {err : LineError}
    (h : (evalLine limits line).outcome = .error err) : OneLine err.message := by
  cases err with
  | read err =>
    refine ReadError.oneLine_message (fun word column hplace => ?_) fun name limit herr => ?_
    · obtain ⟨w, hw, rfl, -⟩ := exists_word_of_evalLine h hplace
      exact oneLine_of_mem_words hw
    · -- such an error comes from the reader, since cutting a line into tokens knows no operators
      subst herr
      rcases readLine_eq_error_iff.mp (evalLine_eq_read_error_iff.mp h) with hwords | ⟨ts, -, hform⟩
      · obtain ⟨w, -, hplace⟩ := Token.exists_word_of_ofWords_eq_error hwords
        cases hplace
      · obtain ⟨o, rfl⟩ := exists_operator_of_readForm_eq_error hform
        exact oneLine_symbol o
  | eval err =>
    obtain ⟨e, -, heval⟩ := evalLine_eq_eval_error_iff.mp h
    exact Expr.oneLine_message_of_evalAt heval

end CambridgePolish
