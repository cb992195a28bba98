import CambridgePolish.Proofs.Nodes
import CambridgePolish.Proofs.Numerals
import CambridgePolish.Proofs.Reading
import CambridgePolish.Proofs.Words

/-!
# Written expressions read back

Every expression that can be written is read back from its text, as long as it keeps to the limits.
Between the text and the expression stand the tokens of the written expression (`Expr.tokens`), so
the proof has two halves: the text has these tokens (`Expr.lexes`), and the reader builds the
expression from them (`Expr.reads`). Both are inductions on the expression, for an expression in any
place – in front of any text, and in any state of the reader.

At the leaves stands `Expr.spells_atom`: a value is written as one word, which has the right
kind and the right value. This is where printed numbers have to read back
(`readInteger_integerText`, `readReal_text`), and where an operator among the operands needs a
word in front of it that is no opening parenthesis.
-/

namespace CambridgePolish

/-! ### Values as words -/

theorem isWordChar_of_isDigit {c : Char} (h : c.isDigit) : isWordChar c := by
  have hrange : 48 ≤ c.toNat ∧ c.toNat ≤ 57 := by
    simpa [Char.isDigit, UInt32.le_iff_toNat_le] using h
  have hblank : isBlank c = false := by
    rw [Bool.eq_false_iff]
    intro hblank
    simp only [isBlank, inRanges, blankRanges, List.any_cons, List.any_nil, Bool.or_false,
      Bool.or_eq_true, Bool.and_eq_true, decide_eq_true_eq] at hblank
    omega
  have hparen : isParen c = false := by
    simp only [isParen, Bool.or_eq_false_iff, beq_eq_false_iff_ne]
    constructor <;> rintro rfl <;> exact absurd h (by decide)
  rw [isWordChar, hblank, hparen]
  rfl

theorem isWordChar_signed (negative : Bool) {cs : List Char} (h : ∀ c ∈ cs, isWordChar c) :
    ∀ c ∈ signed negative cs, isWordChar c := by
  cases negative with
  | false => exact h
  | true => exact List.forall_mem_cons.mpr ⟨by decide, h⟩

namespace Value

/-- **A value that a line can hold**: not `nil`, and neither infinite nor NaN. -/
def IsWritable : Value → Prop
  | .int _ => True
  | .real x => x.isFinite
  | .operator _ => True
  | .nil => False

/-- The kind of the word that a value is written as, among the operands of a call. -/
def wordKind : Value → Kind
  | .operator _ => .name
  | v => v.kind

end Value

namespace Expr

/-- What the word in front of a written expression must be: anything but an opening parenthesis in
front of an operator that stands by itself, and anything or nothing elsewhere. -/
def MayFollow (previous : Option Kind) : Expr → Prop
  | .atom (.operator _) => ∃ kind, previous = some kind ∧ kind ≠ .groupOpen
  | _ => True

theorem mayFollow_name (e : Expr) : e.MayFollow (some .name) := by
  unfold MayFollow
  split
  · exact ⟨.name, rfl, nofun⟩
  · trivial

/-- **The word of a value**: one word, of a known kind where it may stand, with that value. -/
structure Spells (cs : List Char) (v : Value) : Prop where
  ne_nil : cs ≠ []
  wordChars : ∀ c ∈ cs, isWordChar c
  kind_eq : ∀ previous column, (atom v).MayFollow previous →
    Word.kind ⟨cs, column⟩ previous = .ok v.wordKind
  value_eq : ∀ column, Token.value ⟨v.wordKind, String.ofList cs, column⟩ = .ok v

/-- A word that starts like a number has the kind that its point gives it, wherever it stands. -/
theorem spells_numeral {cs : List Char} {v : Value} (hstart : startsNumeral cs)
    (hchars : ∀ c ∈ cs, isWordChar c)
    (hkind : v.wordKind = if '.' ∈ cs then .float else .integer)
    (hvalue : ∀ column, Token.value ⟨v.wordKind, String.ofList cs, column⟩ = .ok v) :
    Spells cs v where
  ne_nil := by
    rintro rfl
    exact absurd hstart (by decide)
  wordChars := hchars
  kind_eq previous column _ := by
    rw [hkind]
    exact Word.kind_of_startsNumeral hstart previous
  value_eq := hvalue

theorem spells_int (n : Int64) : Spells (integerText n.toInt).toList (.int n) := by
  have hdigits := isDigits_toDigits n.toInt.natAbs
  have hread := readInteger_integerText n
  rw [integerText_toList] at hread ⊢
  generalize Nat.toDigits 10 n.toInt.natAbs = ds at *
  obtain ⟨c, cs, rfl, hc⟩ := hdigits.exists_cons
  have hstart := startsNumeral_signed (decide (n.toInt < 0)) hc cs
  refine spells_numeral hstart ?_ ?_ fun column => ?_
  · exact isWordChar_signed _ fun d hd => isWordChar_of_isDigit (hdigits.2 d hd)
  · rw [if_neg]
    · rfl
    · -- a point is neither a digit nor a sign
      cases decide (n.toInt < 0) with
      | false => exact fun hpoint => absurd (hdigits.2 '.' hpoint) (by decide)
      | true =>
        intro hpoint
        rcases List.mem_cons.mp hpoint with heq | hpoint
        · exact absurd heq (by decide)
        · exact absurd (hdigits.2 '.' hpoint) (by decide)
  · simp only [Token.value, bound?_eq_none hstart, Value.wordKind, Value.kind, String.toList_ofList,
      hread]

theorem spells_real {x : Binary64} (hx : x.isFinite) : Spells x.text.toList (.real x) := by
  obtain ⟨whole, fraction, hplain, hwhole, hfraction, -⟩ :=
    Decimal.exists_plain_eq (Binary64.shortest x.rank)
  have hread := readReal_text hx
  rw [Binary64.text_toList hx, hplain] at hread ⊢
  obtain ⟨c, cs, rfl, hc⟩ := hwhole.exists_cons
  have hstart := startsNumeral_signed x.isNegative hc (cs ++ '.' :: fraction)
  refine spells_numeral hstart ?_ ?_ fun column => ?_
  · refine isWordChar_signed _ fun d hd => ?_
    rcases List.mem_append.mp hd with hd | hd
    · exact isWordChar_of_isDigit (hwhole.2 d hd)
    · rcases List.mem_cons.mp hd with rfl | hd
      · decide
      · exact isWordChar_of_isDigit (hfraction.2 d hd)
  · rw [if_pos]
    · rfl
    · have hpoint : '.' ∈ c :: cs ++ '.' :: fraction :=
        List.mem_append_right _ List.mem_cons_self
      cases x.isNegative with
      | false => exact hpoint
      | true => exact List.mem_cons_of_mem _ hpoint
  · rw [List.cons_append] at hread ⊢
    simp only [Token.value, bound?_eq_none hstart, Value.wordKind, Value.kind, String.toList_ofList,
      hread]

theorem spells_operator (o : Operator) : Spells o.symbol.toList (.operator o) where
  ne_nil := by cases o <;> decide
  wordChars := by cases o <;> exact List.all_eq_true.mp rfl
  kind_eq previous column hprevious := by
    obtain ⟨kind, rfl, hkind⟩ := hprevious
    cases kind with
    | groupOpen => exact absurd rfl hkind
    | _ => cases o <;> rfl
  value_eq column := by cases o <;> rfl

/-- **Every writable value is written as its word.** -/
theorem spells_atom {v : Value} (hv : v.IsWritable) : Spells (atom v).text.toList v := by
  cases v with
  | int n => simpa only [text, Value.text] using spells_int n
  | real x => simpa only [text, Value.text] using spells_real hv
  | operator o => simpa only [text] using spells_operator o
  | nil => exact absurd hv id

/-! ### The text has these tokens -/

mutual

/-- **The tokens of a written expression** whose first character is in the given column. -/
def tokens (column : Nat) : Expr → List Token
  | .atom v => [⟨v.wordKind, text (.atom v), column⟩]
  | .call o es =>
    let behindOperator := column + 1 + o.symbol.toList.length
    ⟨.groupOpen, "(", column⟩ :: ⟨.procedure, o.symbol, column + 1⟩ ::
      (tokensOf behindOperator es ++
        [⟨.groupClose, ")", behindOperator + (texts es).toList.length⟩])

/-- The tokens of written operands, the first one with the space in front of it in the given
column. -/
def tokensOf (column : Nat) : List Expr → List Token
  | [] => []
  | e :: es => e.tokens (column + 1) ++ tokensOf (column + 1 + e.text.toList.length) es

end

/-- **The written expression has its tokens**, in front of any text that does not extend its last
word; those of that text follow. -/
def Lexes (e : Expr) : Prop :=
  ∀ previous column rest us, e.MayFollow previous → EndsWord rest →
    (Token.ofWords (some .name) (words (column + e.text.toList.length) rest)).outcome = .ok us →
      (Token.ofWords previous (words column (e.text.toList ++ rest))).outcome =
        .ok (e.tokens column ++ us)

variable {es : List Expr} {rest : List Char} {us : List Token} {column : Nat}

theorem lexes_atom {v : Value} (hv : v.IsWritable) : Lexes (.atom v) := by
  intro previous column rest us hprevious hrest hus
  have hspells := spells_atom hv
  have hkind : v.wordKind ≠ .groupOpen := by cases v <;> nofun
  rw [words_run hspells.ne_nil hspells.wordChars hrest, Token.ofWords_cons_eq_ok_iff]
  refine ⟨v.wordKind, us, hspells.kind_eq _ _ hprevious, ?_, ?_⟩
  · rw [Token.ofWords_behind hkind]
    exact hus
  · rw [tokens, String.ofList_toList, List.singleton_append]

theorem toList_texts_cons (e : Expr) (es : List Expr) :
    (texts (e :: es)).toList = ' ' :: (e.text.toList ++ (texts es).toList) := by
  simp [texts]

/-- Operands start with a space, so nothing of them extends the word in front. -/
theorem endsWord_texts (es : List Expr) (hrest : EndsWord rest) :
    EndsWord ((texts es).toList ++ rest) := by
  cases es with
  | nil => simpa [texts] using hrest
  | cons e es =>
    rw [toList_texts_cons]
    rfl

theorem lexes_texts (hes : ∀ e ∈ es, Lexes e) (hrest : EndsWord rest)
    (hus : (Token.ofWords (some .name)
      (words (column + (texts es).toList.length) rest)).outcome = .ok us) :
    (Token.ofWords (some .name) (words column ((texts es).toList ++ rest))).outcome =
      .ok (tokensOf column es ++ us) := by
  induction es generalizing column with
  | nil => simpa [texts, tokensOf] using hus
  | cons e es ih =>
    rw [List.forall_mem_cons] at hes
    rw [toList_texts_cons] at hus ⊢
    rw [List.cons_append, words_blank (by decide), List.append_assoc, tokensOf, List.append_assoc]
    have hcolumn : column + (' ' :: (e.text.toList ++ (texts es).toList)).length =
        column + 1 + e.text.toList.length + (texts es).toList.length := by
      rw [List.length_cons, List.length_append]
      omega
    rw [hcolumn] at hus
    exact hes.1 _ _ _ _ (mayFollow_name e) (endsWord_texts es hrest) (ih hes.2 hus)

theorem toList_text_call (o : Operator) (es : List Expr) :
    (text (.call o es)).toList =
      '(' :: (o.symbol.toList ++ ((texts es).toList ++ [')'])) := by
  simp [text]

theorem lexes_call (o : Operator) (hes : ∀ e ∈ es, Lexes e) : Lexes (.call o es) := by
  intro previous column rest us _ _ hus
  have hoperator := spells_operator o
  have hclose : EndsWord (')' :: rest) := rfl
  have hcolumn : column + (text (.call o es)).toList.length =
      column + 1 + o.symbol.toList.length + (texts es).toList.length + 1 := by
    rw [toList_text_call]
    simp only [List.length_cons, List.length_append, List.length_nil]
    omega
  rw [hcolumn] at hus
  rw [toList_text_call, List.cons_append, List.append_assoc, List.append_assoc,
    List.singleton_append, tokens, words_paren rfl rfl, Token.ofWords_cons_eq_ok_iff]
  refine ⟨.groupOpen, _, rfl, ?_, rfl⟩
  rw [words_run hoperator.ne_nil hoperator.wordChars (endsWord_texts es hclose),
    List.append_eq, List.cons_append, Token.ofWords_cons_eq_ok_iff]
  -- behind the parenthesis the same word is not a name, as it would be among the operands
  refine ⟨.procedure, _, by cases o <;> rfl, ?_, by rw [String.ofList_toList]⟩
  rw [Token.ofWords_behind (show Kind.procedure ≠ .groupOpen by decide), List.append_assoc]
  refine lexes_texts hes hclose ?_
  rw [words_paren rfl rfl, List.singleton_append, Token.ofWords_cons_eq_ok_iff]
  refine ⟨.groupClose, us, rfl, ?_, rfl⟩
  rw [Token.ofWords_behind (show Kind.groupClose ≠ .groupOpen by decide)]
  exact hus

/-- **The text of an expression has its tokens** if all its values can be written. -/
theorem lexes {e : Expr} (h : ∀ v, .atom v ∈ e.nodes → v.IsWritable) : Lexes e := by
  induction e with
  | atom v => exact lexes_atom (h v (self_mem_nodes _))
  | call o es ih =>
    rw [forall_atom_call_iff] at h
    exact lexes_call o fun e he => ih e he (h e he)

/-! ### The reader builds the expression -/

/-- **The reader builds the expression** from its tokens and places it, wherever the limit leaves as
many levels as it is deep and there is room for it. -/
def Reads (limits : Limits) (e : Expr) : Prop :=
  ∀ column forms gs r, gs.length + e.depth ≤ limits.maxDepth →
    Reader.Placed limits e ⟨forms, gs, none⟩ r →
      (e.tokens column).foldlM (Reader.step limits) ⟨forms, gs, none⟩ = .ok r

variable {limits : Limits}

theorem reads_atom {v : Value} (hv : v.IsWritable) : Reads limits (.atom v) := by
  intro column forms gs r _ hplaced
  have hvalue := (spells_atom hv).value_eq column
  rw [String.ofList_toList] at hvalue
  have hkinds : v.wordKind ≠ .groupOpen ∧ v.wordKind ≠ .groupClose := by
    cases v <;> exact ⟨nofun, nofun⟩
  rw [tokens, Reader.foldlM_cons_eq_ok_iff]
  exact ⟨r, .item forms gs v r hkinds.1 hkinds.2 hvalue hplaced, rfl⟩

/-- Operands are read into the innermost open group, as long as it has room for all of them. -/
theorem reads_operands (hes : ∀ e ∈ es, Reads limits e) {forms : List Expr} {g : Group}
    {gs : List Group} (hdepth : ∀ e ∈ es, gs.length + 1 + e.depth ≤ limits.maxDepth)
    (hroom : g.operands.length + es.length ≤ limits.maxOperands) :
    (tokensOf column es).foldlM (Reader.step limits) ⟨forms, g :: gs, none⟩ =
      .ok ⟨forms, { g with operands := es.reverse ++ g.operands } :: gs, none⟩ := by
  induction es generalizing column g with
  | nil => rfl
  | cons e es ih =>
    rw [List.forall_mem_cons] at hes hdepth
    rw [List.length_cons] at hroom
    rw [tokensOf, Reader.foldlM_append_eq_ok_iff]
    refine ⟨_, hes.1 _ forms (g :: gs) _ hdepth.1 (.operand forms g gs none (by omega)), ?_⟩
    rw [ih hes.2 hdepth.2 (by rw [List.length_cons]; omega), List.reverse_cons, List.append_assoc,
      List.singleton_append]

theorem reads_call (o : Operator) (hes : ∀ e ∈ es, Reads limits e)
    (hroom : es.length ≤ limits.maxOperands) : Reads limits (.call o es) := by
  intro column forms gs r hdepth hplaced
  obtain ⟨hopen, hoperands⟩ := add_depth_call_le_iff.mp hdepth
  rw [tokens, Reader.foldlM_cons_eq_ok_iff]
  refine ⟨_, .opening forms gs rfl hopen, ?_⟩
  rw [Reader.foldlM_cons_eq_ok_iff]
  refine ⟨_, .head forms gs column o rfl (by cases o <;> rfl), ?_⟩
  rw [Reader.foldlM_append_eq_ok_iff]
  refine ⟨_, reads_operands hes hoperands (by simpa using hroom), ?_⟩
  rw [Reader.foldlM_cons_eq_ok_iff]
  refine ⟨r, .closing forms _ gs r rfl ?_, rfl⟩
  rw [Group.toExpr, List.append_nil, List.reverse_reverse]
  exact hplaced

/-- **An expression is built from its tokens** if all its values can be written and none of its
calls has too many operands. -/
theorem reads {e : Expr} (hvalues : ∀ v, .atom v ∈ e.nodes → v.IsWritable)
    (hrooms : ∀ o es, .call o es ∈ e.nodes → es.length ≤ limits.maxOperands) : Reads limits e := by
  induction e with
  | atom v => exact reads_atom (hvalues v (self_mem_nodes _))
  | call o es ih =>
    rw [forall_atom_call_iff] at hvalues
    rw [forall_call_call_iff] at hrooms
    exact reads_call o (fun e he => ih e he (hvalues e he) (hrooms.2 e he)) hrooms.1

/-- **Writing an expression and reading it back is the identity**: the text of an expression has
tokens, and the one expression they hold is the one that was written. It may be any expression of
writable values within the limits, except an operator that stands by itself. -/
theorem readForm_text (limits : Limits) (e : Expr) (hroot : ∀ o, e ≠ .atom (.operator o))
    (hvalues : ∀ v, .atom v ∈ e.nodes → v.IsWritable) (hdepth : e.depth ≤ limits.maxDepth)
    (hrooms : ∀ o es, .call o es ∈ e.nodes → es.length ≤ limits.maxOperands) :
    ∃ ts, (Token.ofLine e.text).outcome = .ok ts ∧ (readForm limits ts).outcome = .ok e := by
  refine ⟨e.tokens 1, ?_, readForm_eq_ok_iff.mpr (readForms_eq_ok_iff.mpr ?_)⟩
  · have hfollow : e.MayFollow none := by
      unfold MayFollow
      split
      · next o => exact absurd rfl (hroot o)
      · trivial
    have hlexed := lexes hvalues none 1 [] [] hfollow rfl rfl
    rw [List.append_nil, List.append_nil] at hlexed
    exact hlexed
  · refine ⟨⟨[e], [], none⟩, ?_, rfl⟩
    exact reads hvalues hrooms 1 [] [] _ (by simpa using hdepth) (.form [] none)

/-- Operators at the head of a call and among its operands, a call without operands, the least
integer and a negative zero, with both limits reached. -/
theorem readForm_text_at_limits :
    ∃ ts, (Token.ofLine "(- (+) - -9223372036854775808 -0.0)").outcome = .ok ts ∧
      (readForm ⟨2, 4⟩ ts).outcome = .ok (.call .sub [.call .add [], .atom (.operator .sub),
        .atom (.int Int64.minValue), .atom (.real (Binary64.ofRank true 0))]) := by
  have htext : text (.call .sub [.call .add [], .atom (.operator .sub),
      .atom (.int Int64.minValue), .atom (.real (Binary64.ofRank true 0))]) =
      "(- (+) - -9223372036854775808 -0.0)" := by decide +kernel
  rw [← htext]
  refine readForm_text ⟨2, 4⟩ _ nofun ?_ ?_ ?_
  · have hzero : (Binary64.ofRank true 0).isFinite := by decide
    simp [Value.IsWritable, hzero]
  · simp [depth, depths]
  · simp only [mem_nodes_call, mem_nodes_atom, List.mem_cons, List.not_mem_nil, call.injEq,
      reduceCtorEq, or_false, false_and, exists_false, exists_eq_or_imp, exists_eq_left]
    rintro o es (⟨rfl, rfl⟩ | ⟨rfl, rfl⟩) <;> decide

end Expr

end CambridgePolish
