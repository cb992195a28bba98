import CambridgePolish.Proofs.ExactValue
import CambridgePolish.Proofs.Numerals
import CambridgePolish.Proofs.Preorder
import CambridgePolish.Proofs.Refusal
import CambridgePolish.Proofs.Stages
import CambridgePolish.Proofs.Words

/-!
# What a line can produce

The values of the language are more than a line can give: an operator is a value, there is `nil`,
and a double may be NaN. A line gives a number or an error (`evalLine_gives_numbers`), and no stage
sees to that alone. Cutting a line into tokens gives no token of the kind `nil`, calls a word a
number only if it starts like one, and lets no operator or name stand in front (`Token.IsLexed`,
`Token.first_of_ofLine`). A word that starts like a number does not say `nan`, so its value is none
(`readReal_not_isNaN`), and the bound names have no such values either. The reader takes all its
atoms from tokens (`exists_token_of_atom`), and if the only form is an atom, it comes from the
first token (`number_of_readForms_atom`). The evaluator gives an atom back and otherwise the result
of an operator, which is a number.
-/

namespace CambridgePolish

/-! ### The tokens of a line -/

namespace Token

/-- **A token as a line has it**: not of the kind `nil`, and a number only if it starts like one. -/
structure IsLexed (t : Token) : Prop where
  kind_ne_nil : t.kind ≠ .nil
  startsNumeral : t.kind = .integer ∨ t.kind = .float → startsNumeral t.text.toList

variable {t : Token} {ts : List Token} {ws : List Word} {previous : Option Kind} {err : ReadError}

theorem isLexed_of_kind {w : Word} {kind : Kind} (h : w.kind previous = .ok kind) (column : Nat) :
    IsLexed ⟨kind, String.ofList w.text, column⟩ := by
  unfold Word.kind at h
  split_ifs at h with hopen hclose hnumeral hpoint
  · obtain rfl := Except.ok.inj h
    exact ⟨nofun, nofun⟩
  · obtain rfl := Except.ok.inj h
    exact ⟨nofun, nofun⟩
  · obtain rfl := Except.ok.inj h
    exact ⟨nofun, fun _ => by rwa [String.toList_ofList]⟩
  · obtain rfl := Except.ok.inj h
    exact ⟨nofun, fun _ => by rwa [String.toList_ofList]⟩
  · split at h
    · exact absurd h nofun
    · obtain rfl := Except.ok.inj h
      exact ⟨nofun, nofun⟩
    · obtain rfl := Except.ok.inj h
      exact ⟨nofun, nofun⟩

theorem isLexed_of_ofWords (h : (ofWords previous ws).outcome = .ok ts) : ∀ t ∈ ts, t.IsLexed := by
  induction ws generalizing previous ts with
  | nil =>
    obtain rfl := Except.ok.inj h
    exact nofun
  | cons w ws ih =>
    obtain ⟨kind, us, hkind, hus, rfl⟩ := ofWords_cons_eq_ok_iff.mp h
    exact List.forall_mem_cons.mpr ⟨isLexed_of_kind hkind w.column, ih hus⟩

/-- **The first token of a line** is a parenthesis or a number. -/
theorem first_of_ofLine {line : String} (h : (ofLine line).outcome = .ok (t :: ts)) :
    t.kind = .groupOpen ∨ t.kind = .groupClose ∨ t.kind = .integer ∨ t.kind = .float := by
  unfold ofLine at h
  cases hws : words 1 line.toList with
  | nil =>
    rw [hws] at h
    exact absurd h nofun
  | cons w ws =>
    rw [hws] at h
    obtain ⟨kind, us, hkind, -, hts⟩ := ofWords_cons_eq_ok_iff.mp h
    obtain ⟨rfl, -⟩ := List.cons.inj hts
    unfold Word.kind at hkind
    split_ifs at hkind
    · exact Or.inl (Except.ok.inj hkind).symm
    · exact Or.inr (Or.inl (Except.ok.inj hkind).symm)
    · exact Or.inr (Or.inr (Or.inr (Except.ok.inj hkind).symm))
    · exact Or.inr (Or.inr (Or.inl (Except.ok.inj hkind).symm))

/-- A line has tokens unless it starts with a name. -/
theorem startsWithName_of_ofWords (h : (ofWords previous ws).outcome = .error err) :
    ∃ word column, err = .startsWithName word column := by
  induction ws generalizing previous with
  | nil => exact absurd h nofun
  | cons w ws ih =>
    simp only [ofWords, Traced.outcome_bind_eq_error_iff, Traced.outcome_ofExcept,
      Traced.outcome_log_bind, Traced.outcome_map_eq_error_iff] at h
    rcases h with hkind | ⟨kind, -, hrest⟩
    · unfold Word.kind at hkind
      split_ifs at hkind
      split at hkind
      · exact ⟨_, _, (Except.error.inj hkind).symm⟩
      · cases hkind
      · cases hkind
    · exact ih hrest

end Token

/-! ### Numerals -/

namespace Binary64

/-- **Rounding a decimal never gives NaN.** -/
theorem isNaN_ofDecimal (negative : Bool) (d : Decimal) : (ofDecimal negative d).isNaN = false := by
  rw [isNaN, rank_ofDecimal, decide_eq_false_iff_not]
  exact Nat.not_lt_of_le (nearestRank_le _ _)

end Binary64

/-- What starts like a number starts with a digit behind its sign. -/
theorem exists_splitSign_eq {cs : List Char} (h : startsNumeral cs) :
    ∃ negative c ds, splitSign cs = (negative, c :: ds) ∧ c.isDigit := by
  match cs, h with
  | [c], hc => exact ⟨false, c, [], splitSign_signed false hc [], hc⟩
  | c :: d :: ds, h =>
    simp only [startsNumeral, Bool.or_eq_true, Bool.and_eq_true, beq_iff_eq] at h
    rcases h with hc | ⟨rfl | rfl, hd⟩
    · exact ⟨false, c, d :: ds, splitSign_signed false hc (d :: ds), hc⟩
    · exact ⟨false, d, ds, rfl, hd⟩
    · exact ⟨true, d, ds, rfl, hd⟩

/-- **A numeral that starts like a number is not NaN.** -/
theorem readReal_not_isNaN {cs : List Char} {x : Binary64} (hstart : startsNumeral cs)
    (h : readReal cs = .ok x) : x.isNaN = false := by
  obtain ⟨negative, c, ds, hsign, hc⟩ := exists_splitSign_eq hstart
  simp only [readReal, hsign, special?_eq_none negative hc] at h
  split_ifs at h
  split at h
  · obtain rfl := Except.ok.inj h
    exact Binary64.isNaN_ofDecimal negative _
  · cases h

/-! ### The values of tokens -/

/-- **A value that an atom of a line can have**: neither `nil` nor NaN. -/
def Value.IsProper (v : Value) : Prop :=
  v ≠ .nil ∧ ∀ x, v = .real x → x.isNaN = false

/-- All bound names have proper values. -/
theorem isProper_of_bound? {name : String} {v : Value} (h : bound? name = some v) : v.IsProper := by
  obtain ⟨before, after, hbindings, -⟩ := List.lookup_eq_some_iff.mp h
  have hmem : (name, v) ∈ bindings := by
    rw [hbindings]
    exact List.mem_append_cons_self
  simp only [bindings, Operator.all, constants, List.map_cons, List.map_nil, List.cons_append,
    List.nil_append, List.mem_cons, List.not_mem_nil, or_false, Prod.mk.injEq] at hmem
  rcases hmem with ⟨-, rfl⟩ | ⟨-, rfl⟩ | ⟨-, rfl⟩ | ⟨-, rfl⟩ | ⟨-, rfl⟩ | ⟨-, rfl⟩
  all_goals refine ⟨nofun, ?_⟩
  all_goals rintro x ⟨⟩
  decide

namespace Token

variable {t : Token} {v : Value}

/-- A token that is called a number has no bound name, so its value is that of its numeral. -/
theorem IsLexed.number (ht : t.IsLexed) (hkind : t.kind = .integer ∨ t.kind = .float)
    (h : t.value = .ok v) :
    (∃ n, v = .int n) ∨ ∃ x, v = .real x ∧ x.isNaN = false := by
  have hbound : bound? t.text = none := by
    rw [← String.ofList_toList (s := t.text)]
    exact bound?_eq_none (ht.startsNumeral hkind)
  unfold value at h
  rw [hbound] at h
  rcases hkind with hint | hfloat
  · simp only [hint] at h
    split at h
    · next n _ => exact Or.inl ⟨n, (Except.ok.inj h).symm⟩
    · exact absurd h nofun
  · simp only [hfloat] at h
    split at h
    · next x hread =>
      exact Or.inr ⟨x, (Except.ok.inj h).symm,
        readReal_not_isNaN (ht.startsNumeral (Or.inr hfloat)) hread⟩
    · exact absurd h nofun

/-- **The value of a token of a line** is neither `nil` nor NaN. -/
theorem IsLexed.isProper (ht : t.IsLexed) (h : t.value = .ok v) : v.IsProper := by
  by_cases hkind : t.kind = .integer ∨ t.kind = .float
  · rcases ht.number hkind h with ⟨n, rfl⟩ | ⟨x, rfl, hx⟩
    · exact ⟨nofun, nofun⟩
    · refine ⟨nofun, ?_⟩
      rintro y ⟨⟩
      exact hx
  · -- a token of any other kind has a value only if its text is bound
    unfold value at h
    split at h
    · next w hbound =>
      obtain rfl := Except.ok.inj h
      exact isProper_of_bound? hbound
    · split at h
      · next hint => exact absurd (Or.inl hint) hkind
      · next hfloat => exact absurd (Or.inr hfloat) hkind
      all_goals exact absurd h nofun

/-- A token of a line that is no parenthesis and has no value has a bad numeral
or an unknown name. -/
theorem IsLexed.value_ne_noValue {err : ReadError} (ht : t.IsLexed) (hopen : t.kind ≠ .groupOpen)
    (hclose : t.kind ≠ .groupClose) (h : t.value = .error err) (kind : Kind) (text : String)
    (column : Nat) : err ≠ .noValue kind text column := by
  rcases value_eq_error_cases h with ⟨-, fault, rfl⟩ | ⟨-, rfl⟩ | ⟨-, rfl⟩ | ⟨hkind, -⟩
  · exact nofun
  · exact nofun
  · exact nofun
  · rcases hkind with hkind | hkind | hkind
    · exact absurd hkind hopen
    · exact absurd hkind hclose
    · exact absurd hkind ht.kind_ne_nil

end Token

/-! ### The atoms of an expression -/

section Reading

variable {limits : Limits} {ts : List Token} {forms : List Expr} {v : Value}

theorem Expr.mem_visitsOf {n : Visit} {level : Int} {es : List Expr} :
    n ∈ visitsOf level es ↔ ∃ e ∈ es, n ∈ visits level e := by
  induction es with
  | nil => simp [visitsOf]
  | cons e es ih => simp [visitsOf, ih]

theorem Expr.exists_visit_of_atom {e : Expr} (level : Int) (h : .atom v ∈ e.nodes) :
    ∃ n ∈ visits level e, n.value = .ok v := by
  have hmem : (Except.ok v, false) ∈ (visits level e).map fun n => (n.value, n.isCall) := by
    rw [map_visits]
    exact List.mem_map.mpr ⟨.atom v, h, rfl⟩
  obtain ⟨n, hn, heq⟩ := List.mem_map.mp hmem
  exact ⟨n, hn, (Prod.mk.inj heq).1⟩

theorem exists_token_of_visit {n : Visit} (h : n ∈ tokenVisits ts) :
    ∃ t ∈ ts, n.value = t.value := by
  obtain ⟨i, -, hi⟩ := List.mem_filterMap.mp h
  obtain ⟨t, ht, hn⟩ := Option.bind_eq_some_iff.mp hi
  split_ifs at hn
  obtain rfl := Option.some.inj hn
  exact ⟨t, List.mem_of_getElem? ht, rfl⟩

/-- A first token that is no parenthesis is the first to be visited, outside of all groups. -/
theorem head?_tokenVisits {t : Token} (hopen : t.kind ≠ .groupOpen)
    (hclose : t.kind ≠ .groupClose) :
    (tokenVisits (t :: ts)).head? = some ⟨0, t.value, false⟩ := by
  have hfirst : tokenVisit? (t :: ts) 0 = some ⟨0, t.value, false⟩ := by
    simp [tokenVisit?, hopen, hclose]
  rw [tokenVisits, List.length_cons, List.range_succ_eq_map, List.filterMap_cons, hfirst,
    List.head?_cons]

/-- The visits of what is read are those of the tokens. -/
theorem visitsOf_eq_tokenVisits (h : (readForms limits ts).outcome = .ok forms) :
    Expr.visitsOf 0 forms = tokenVisits ts := by
  obtain ⟨r, hrun, hfinish⟩ := readForms_eq_ok_iff.mp h
  obtain ⟨-, -, rfl⟩ := Reader.finish_eq_ok_iff.mp hfinish
  rw [Reader.visitsOf_forest, (Reader.mirrors_of_foldlM hrun).visits]

/-- **Every atom of what is read is the value of a token.** -/
theorem exists_token_of_atom (h : (readForms limits ts).outcome = .ok forms) {e : Expr}
    (he : e ∈ forms) (hv : .atom v ∈ e.nodes) : ∃ t ∈ ts, t.value = .ok v := by
  obtain ⟨n, hn, hvalue⟩ := Expr.exists_visit_of_atom 0 hv
  have hmem : n ∈ tokenVisits ts := by
    rw [← visitsOf_eq_tokenVisits h]
    exact Expr.mem_visitsOf.mpr ⟨e, he, hn⟩
  obtain ⟨t, ht, hn⟩ := exists_token_of_visit hmem
  exact ⟨t, ht, hn ▸ hvalue⟩

/-- Where a group is opened, there is a call. -/
theorem exists_call_of_open (h : (readForms limits ts).outcome = .ok forms) {t : Token}
    (ht : t ∈ ts) (hkind : t.kind = .groupOpen) : ∃ n ∈ Expr.visitsOf 0 forms, n.isCall = true := by
  obtain ⟨r, hrun, hfinish⟩ := readForms_eq_ok_iff.mp h
  obtain ⟨hopened, -, rfl⟩ := Reader.finish_eq_ok_iff.mp hfinish
  have hcount := Reader.countP_isCall_of_foldlM hrun
  have hopens : 0 < opens ts := List.countP_pos_iff.mpr ⟨t, ht, by simp [hkind]⟩
  rw [hopened, Option.isSome_none, if_neg nofun, Nat.add_zero] at hcount
  rw [Reader.visitsOf_forest]
  exact List.countP_pos_iff.mp (hcount ▸ hopens)

/-- No reading starts with the end of a group. -/
theorem first_kind_ne_groupClose {t : Token}
    (h : (readForms limits (t :: ts)).outcome = .ok forms) :
    t.kind ≠ .groupClose := by
  obtain ⟨r, hrun, -⟩ := readForms_eq_ok_iff.mp h
  obtain ⟨r₁, hstep, -⟩ := Reader.foldlM_cons_eq_ok_iff.mp hrun
  rw [Reader.start] at hstep
  cases hstep with
  | opening _ _ hkind => simp [hkind]
  | item _ _ _ _ _ hclose => exact hclose

/-- **An atom that is the only form of a line is a number**: it is the value of the first token,
which is a number where it is no parenthesis. -/
theorem number_of_readForms_atom {line : String} (hts : (Token.ofLine line).outcome = .ok ts)
    (h : (readForms limits ts).outcome = .ok [.atom v]) : (∃ n, v = .int n) ∨ ∃ x, v = .real x := by
  have hvisits := visitsOf_eq_tokenVisits h
  rw [Expr.visitsOf_singleton, Expr.visits] at hvisits
  cases ts with
  | nil => exact absurd hvisits (List.cons_ne_nil _ _)
  | cons t ts =>
    have hlexed : t.IsLexed := Token.isLexed_of_ofWords hts t List.mem_cons_self
    rcases Token.first_of_ofLine hts with hopen | hclose | hkind
    · -- a group would be a call among the visits, and the only visit is that of an atom
      obtain ⟨n, hn, hcall⟩ := exists_call_of_open h List.mem_cons_self hopen
      rw [Expr.visitsOf_singleton, Expr.visits, List.mem_singleton] at hn
      rw [hn] at hcall
      exact absurd hcall Bool.false_ne_true
    · exact absurd hclose (first_kind_ne_groupClose h)
    · have hopen : t.kind ≠ .groupOpen := by rcases hkind with hkind | hkind <;> simp [hkind]
      have hclose : t.kind ≠ .groupClose := by rcases hkind with hkind | hkind <;> simp [hkind]
      have hfirst : (tokenVisits (t :: ts)).head? = some ⟨0, t.value, false⟩ :=
        head?_tokenVisits hopen hclose
      rw [← hvisits, List.head?_cons, Option.some.injEq, Visit.mk.injEq] at hfirst
      rcases hlexed.number hkind hfirst.2.1.symm with hn | ⟨x, hx, -⟩
      · exact Or.inl hn
      · exact Or.inr ⟨x, hx⟩

/-- A token of a line is never refused for being of a kind that has no value. -/
theorem Reader.Refused.ne_noValue {t : Token} {r : Reader} {err : ReadError}
    (h : Refused limits t r err) (ht : t.IsLexed) (kind : Kind) (text : String) (column : Nat) :
    err ≠ .noValue kind text column := by
  cases h with
  | headValue _ _ _ _ hkind hvalue =>
    exact ht.value_ne_noValue (by simp [hkind]) (by simp [hkind]) hvalue kind text column
  | itemValue _ _ _ hopen hclose hvalue =>
    exact ht.value_ne_noValue hopen hclose hvalue kind text column
  | closing _ _ _ _ _ hcrowded =>
    cases hcrowded
    exact nofun
  | item _ _ _ _ _ _ _ hcrowded =>
    cases hcrowded
    exact nofun
  | _ => exact nofun

/-- **Reading the tokens of a line** never fails for a token of a kind that has no value. -/
theorem readForm_ne_noValue {err : ReadError} (hts : ∀ t ∈ ts, t.IsLexed)
    (h : (readForm limits ts).outcome = .error err) (kind : Kind) (text : String) (column : Nat) :
    err ≠ .noValue kind text column := by
  rcases readForm_eq_error_iff.mp h with hforms | ⟨-, rfl⟩ | ⟨forms, -, -, rfl⟩
  · rcases readForms_eq_error_iff.mp hforms with hrun | ⟨r, -, hfinish⟩
    · obtain ⟨us, t, vs, r, rfl, -, hrefused⟩ := Reader.foldlM_eq_error_iff.mp hrun
      exact hrefused.ne_noValue (hts t (by simp)) kind text column
    · rcases Reader.finish_eq_error_iff.mp hfinish with ⟨-, rfl⟩ | ⟨-, _, _, _, -, -, -, rfl⟩
      · exact nofun
      · exact nofun
  · exact nofun
  · exact nofun

end Reading

/-- **A line gives a number or an error.** Its value is an integer or a double; an error in
reading it is never that a token is of a kind without a value; and no atom of the
expression on it is `nil` or NaN. -/
theorem evalLine_gives_numbers (limits : Limits) (line : String) :
    (∀ v, (evalLine limits line).outcome = .ok v → (∃ n, v = .int n) ∨ ∃ x, v = .real x) ∧
    (∀ err, (evalLine limits line).outcome = .error (.read err) →
      ∀ kind text column, err ≠ .noValue kind text column) ∧
    ∀ e, (readLine limits line).outcome = .ok e → ∀ v, .atom v ∈ e.nodes →
      v ≠ .nil ∧ ∀ x, v = .real x → x.isNaN = false := by
  refine ⟨?_, ?_, ?_⟩
  · intro v h
    obtain ⟨e, hread, heval⟩ := evalLine_eq_ok_iff.mp h
    obtain ⟨ts, hts, hform⟩ := readLine_eq_ok_iff.mp hread
    cases e with
    | atom w =>
      -- an atom is its own value, so it is up to the tokens that it is no operator
      obtain rfl : w = v := Except.ok.inj (Expr.evalAt_atom.symm.trans heval)
      exact number_of_readForms_atom hts (readForm_eq_ok_iff.mp hform)
    | call o es => exact Expr.evalAt_call_numeric heval
  · intro err h
    rcases readLine_eq_error_iff.mp (evalLine_eq_read_error_iff.mp h) with hlex | ⟨ts, hts, hform⟩
    · obtain ⟨word, column, rfl⟩ := Token.startsWithName_of_ofWords hlex
      exact nofun
    · exact readForm_ne_noValue (Token.isLexed_of_ofWords hts) hform
  · intro e h v hv
    obtain ⟨ts, hts, hform⟩ := readLine_eq_ok_iff.mp h
    obtain ⟨t, ht, hvalue⟩ :=
      exists_token_of_atom (readForm_eq_ok_iff.mp hform) (List.mem_singleton_self e) hv
    exact (Token.isLexed_of_ofWords hts t ht).isProper hvalue

/-- A quotient that is infinite, a name that is not bound, and a constant on a line whose
expression has no value. -/
theorem evalLine_gives_numbers_at_infinity :
    let infinite : Value := .real ⟨0xFFF0000000000000⟩
    let e : Expr := .call .add [.atom (.int 1), .atom (.real Binary64.pi)]
    ((evalLine .default "(/ π -0.0").outcome = .ok infinite ∧
      ((∃ n, infinite = .int n) ∨ ∃ x, infinite = .real x)) ∧
    ((evalLine .default "(+ nil 1)").outcome = .error (.read (.unknownName "nil" 4)) ∧
      ∀ kind text column, ReadError.unknownName "nil" 4 ≠ .noValue kind text column) ∧
    (readLine .default "(+ 1 π").outcome = .ok e ∧ .atom (.real Binary64.pi) ∈ e.nodes ∧
      Value.real Binary64.pi ≠ .nil ∧ Binary64.pi.isNaN = false := by
  intro infinite e
  have hvalue : (evalLine .default "(/ π -0.0").outcome = .ok infinite := by decide +kernel
  have hunbound : (evalLine .default "(+ nil 1)").outcome =
      .error (.read (.unknownName "nil" 4)) := by decide +kernel
  have hread : (readLine .default "(+ 1 π").outcome = .ok e := rfl
  have hmem : .atom (.real Binary64.pi) ∈ e.nodes := by simp [e, Expr.nodes, Expr.nodesOf]
  obtain ⟨hnil, hnan⟩ := (evalLine_gives_numbers .default "(+ 1 π").2.2 e hread _ hmem
  exact ⟨⟨hvalue, (evalLine_gives_numbers .default "(/ π -0.0").1 _ hvalue⟩,
    ⟨hunbound, (evalLine_gives_numbers .default "(+ nil 1)").2.1 _ hunbound⟩,
    hread, hmem, hnil, hnan _ rfl⟩

end CambridgePolish
