import CambridgePolish.Names
import Mathlib.Algebra.Ring.Int.Defs
import Mathlib.Tactic.SplitIfs

/-!
# Integer numerals are read exactly

An integer token has a value when its text is a numeral – at most one sign, then digits, with any
number of zeros in front – of an integer of 64 bits, and the value is that integer. Both halves
of this are said without the reader: `IsNumeralOf` gives the integer that a text writes, of any
size, and `FitsInteger` the range.

The reader goes digit by digit and gives up at the first thing that is wrong, so a text with a stray
character behind too many digits has too many digits, and one with the stray character in front of
them has a stray character. The invariant that says this is `Overflows`: some beginning of what is
still to be read takes the magnitude over its bound. One character settles it or hands it on
(`overflows_cons_iff`), and by induction it decides between the two faults of a run of digits
(`readDigits_eq_error_iff`). In terms of the whole text, sign included, it is `LeavesRange`.

The text that an integer is printed as is one of its numerals, so it reads back
(`readInteger_integerText`).
-/

namespace CambridgePolish

/-! ### Digits behind a sign -/

/-- Characters behind a minus sign, or without one. -/
def signed (negative : Bool) (cs : List Char) : List Char :=
  if negative then '-' :: cs else cs

/-- **A run of digits**, which is not empty. -/
def IsDigits (cs : List Char) : Prop :=
  cs ≠ [] ∧ ∀ c ∈ cs, c.isDigit

theorem isDigits_toDigits (n : Nat) : IsDigits (Nat.toDigits 10 n) :=
  ⟨Nat.toDigits_ne_nil, fun _ hc => Nat.isDigit_of_mem_toDigits (by decide) (by decide) hc⟩

theorem IsDigits.append {cs ds : List Char} (hcs : IsDigits cs) (hds : ∀ d ∈ ds, d.isDigit) :
    IsDigits (cs ++ ds) := by
  refine ⟨List.append_ne_nil_of_left_ne_nil hcs.1 ds, fun c hc => ?_⟩
  rcases List.mem_append.mp hc with h | h
  · exact hcs.2 c h
  · exact hds c h

theorem IsDigits.exists_cons {cs : List Char} (h : IsDigits cs) :
    ∃ c ds, cs = c :: ds ∧ c.isDigit := by
  obtain ⟨c, ds, rfl⟩ := List.exists_cons_of_ne_nil h.1
  exact ⟨c, ds, rfl, h.2 c List.mem_cons_self⟩

theorem splitSign_signed (negative : Bool) {c : Char} (hc : c.isDigit) (cs : List Char) :
    splitSign (signed negative (c :: cs)) = (negative, c :: cs) := by
  cases negative with
  | true => rfl
  | false =>
    rw [signed, if_neg nofun, splitSign]
    · rintro ds ⟨⟩
      exact absurd hc (by decide)
    · rintro ds ⟨⟩
      exact absurd hc (by decide)

/-! ### The integer that a text writes -/

/-- **The text is a numeral of the integer**: at most one sign, and digits with that value. -/
inductive IsNumeralOf : List Char → Int → Prop
  | unsigned (ds : List Char) (digits : IsDigits ds) : IsNumeralOf ds (Nat.ofDigitChars 10 ds 0)
  | plus (ds : List Char) (digits : IsDigits ds) :
    IsNumeralOf ('+' :: ds) (Nat.ofDigitChars 10 ds 0)
  | minus (ds : List Char) (digits : IsDigits ds) :
    IsNumeralOf ('-' :: ds) (-(Nat.ofDigitChars 10 ds 0 : Int))

/-- The integer has 64 bits. -/
def FitsInteger (n : Int) : Prop :=
  -2 ^ 63 ≤ n ∧ n ≤ 2 ^ 63 - 1

instance (n : Int) : Decidable (FitsInteger n) :=
  inferInstanceAs (Decidable (_ ∧ _))

/-- **Some beginning of the text is a numeral out of range**, whatever comes behind it. -/
def LeavesRange (cs : List Char) : Prop :=
  ∃ p n, p <+: cs ∧ IsNumeralOf p n ∧ ¬FitsInteger n

/-- The integer of a given sign and magnitude. -/
def signedInt (negative : Bool) (n : Nat) : Int :=
  if negative then -(n : Int) else n

/-- The sign in front of a text, by its first character. -/
theorem splitSign_eq (cs : List Char) :
    splitSign cs =
      if cs.head? = some '-' then (true, cs.tail)
      else if cs.head? = some '+' then (false, cs.tail)
      else (false, cs) := by
  unfold splitSign
  split
  · rfl
  · rfl
  · next hminus hplus =>
    cases cs with
    | nil => rfl
    | cons c ds =>
      rw [List.head?_cons, if_neg, if_neg]
      · rintro ⟨⟩
        exact hplus ds rfl
      · rintro ⟨⟩
        exact hminus ds rfl

theorem splitSign_fst_eq_true_iff {cs : List Char} :
    (splitSign cs).1 = true ↔ cs.head? = some '-' := by
  rw [splitSign_eq]
  split_ifs with hminus
  · exact iff_of_true rfl hminus
  · exact iff_of_false id hminus
  · exact iff_of_false id hminus

/-- A beginning of a text has the sign of the text, and its digits begin the text's digits. -/
theorem splitSign_of_isPrefix {p cs : List Char} (hne : p ≠ []) (h : p <+: cs) :
    (splitSign p).1 = (splitSign cs).1 ∧ (splitSign p).2 <+: (splitSign cs).2 := by
  obtain ⟨c, ps, rfl⟩ := List.exists_cons_of_ne_nil hne
  obtain ⟨rest, rfl⟩ := h
  rw [splitSign_eq, splitSign_eq, List.cons_append, List.head?_cons, List.head?_cons]
  split_ifs
  · exact ⟨rfl, List.prefix_append ps rest⟩
  · exact ⟨rfl, List.prefix_append ps rest⟩
  · exact ⟨rfl, List.prefix_append (c :: ps) rest⟩

/-- **A numeral** is taken apart into its sign and its digits. -/
theorem isNumeralOf_iff {cs : List Char} {n : Int} :
    IsNumeralOf cs n ↔ IsDigits (splitSign cs).2 ∧
      n = signedInt (splitSign cs).1 (Nat.ofDigitChars 10 (splitSign cs).2 0) := by
  constructor
  · rintro (⟨ds, hds⟩ | ⟨ds, hds⟩ | ⟨ds, hds⟩)
    · obtain ⟨c, cs, rfl, hc⟩ := hds.exists_cons
      have hsplit : splitSign (c :: cs) = (false, c :: cs) := splitSign_signed false hc cs
      rw [hsplit]
      exact ⟨hds, rfl⟩
    · exact ⟨hds, rfl⟩
    · exact ⟨hds, rfl⟩
  · rintro ⟨hds, rfl⟩
    rw [splitSign_eq] at hds ⊢
    split_ifs at hds ⊢ with hminus hplus
    · obtain ⟨ds, rfl⟩ := List.head?_eq_some_iff.mp hminus
      exact .minus ds hds
    · obtain ⟨ds, rfl⟩ := List.head?_eq_some_iff.mp hplus
      exact .plus ds hds
    · exact .unsigned _ hds

theorem fitsInteger_signedInt_iff {negative : Bool} {n : Nat} :
    FitsInteger (signedInt negative n) ↔ n ≤ integerBound negative := by
  cases negative with
  | false =>
    simp only [FitsInteger, signedInt, integerBound, Nat.pow_eq, Bool.false_eq_true, if_false]
    omega
  | true =>
    simp only [FitsInteger, signedInt, integerBound, Nat.pow_eq, if_true]
    omega

/-! ### Overflow on the way -/

/-- **Reading goes out of range**: some beginning of the characters consists of digits, and with
them the magnitude `acc` grows over its bound. -/
def Overflows (negative : Bool) (acc : Nat) (cs : List Char) : Prop :=
  ∃ p, p <+: cs ∧ (∀ d ∈ p, d.isDigit) ∧ integerBound negative < Nat.ofDigitChars 10 p acc

theorem overflows_nil_iff {negative : Bool} {acc : Nat} :
    Overflows negative acc [] ↔ integerBound negative < acc := by
  simp [Overflows]

theorem overflows_of_lt {negative : Bool} {acc : Nat} (h : integerBound negative < acc)
    (cs : List Char) : Overflows negative acc cs :=
  ⟨[], List.nil_prefix, nofun, h⟩

/-- **One character**: the magnitude is over its bound, or the character is a digit and reading goes
out of range behind it. -/
theorem overflows_cons_iff {negative : Bool} {acc : Nat} {c : Char} {cs : List Char} :
    Overflows negative acc (c :: cs) ↔ integerBound negative < acc ∨
      c.isDigit ∧ Overflows negative (10 * acc + (c.toNat - '0'.toNat)) cs := by
  constructor
  · rintro ⟨p, hp, hdigits, hlt⟩
    cases p with
    | nil => exact .inl hlt
    | cons d p =>
      obtain ⟨rfl, hprefix⟩ := List.cons_prefix_cons.mp hp
      rw [List.forall_mem_cons] at hdigits
      rw [Nat.ofDigitChars_cons] at hlt
      exact .inr ⟨hdigits.1, p, hprefix, hdigits.2, hlt⟩
  · rintro (hlt | ⟨hc, p, hp, hdigits, hlt⟩)
    · exact overflows_of_lt hlt _
    · refine ⟨c :: p, List.cons_prefix_cons.mpr ⟨rfl, hp⟩, ?_, ?_⟩
      · exact List.forall_mem_cons.mpr ⟨hc, hdigits⟩
      · rw [Nat.ofDigitChars_cons]
        exact hlt

/-! ### Reading digits -/

/-- Further digits never make a number smaller. -/
theorem le_ofDigitChars (ds : List Char) (acc : Nat) : acc ≤ Nat.ofDigitChars 10 ds acc := by
  induction ds generalizing acc with
  | nil => exact Nat.le_refl acc
  | cons d ds ih =>
    rw [Nat.ofDigitChars_cons]
    exact Nat.le_trans (by omega) (ih _)

/-- **Reading digits**: they must all be digits, and the number they make must be in range at the
end. -/
theorem readDigits_eq_ok_iff {negative : Bool} {acc : Nat} {ds : List Char} {n : Int64}
    (hacc : acc ≤ integerBound negative) :
    readDigits negative acc ds = .ok n ↔
      (∀ d ∈ ds, d.isDigit) ∧ Nat.ofDigitChars 10 ds acc ≤ integerBound negative ∧
        n = Int64.ofInt (signedInt negative (Nat.ofDigitChars 10 ds acc)) := by
  induction ds generalizing acc with
  | nil =>
    rw [readDigits, Except.ok.injEq, eq_comm, Nat.ofDigitChars_nil]
    exact ⟨fun h => ⟨nofun, hacc, h⟩, fun h => h.2.2⟩
  | cons d ds ih =>
    rw [readDigits, digit?, List.forall_mem_cons, Nat.ofDigitChars_cons]
    by_cases hd : d.isDigit
    · simp only [hd, if_true, true_and]
      split_ifs with hle
      · exact ih hle
      · -- the digits that follow cannot bring the number back into range
        have hgt := Nat.lt_of_lt_of_le (Nat.lt_of_not_le hle) (le_ofDigitChars ds _)
        exact ⟨nofun, fun h => absurd h.2.1 (Nat.not_le_of_lt hgt)⟩
    · simp [hd]

/-- The fault of an integer of the given sign that is out of range. -/
def rangeFault (negative : Bool) : NumeralFault :=
  if negative then .tooSmall else .tooLarge

/-- **Reading digits fails** when it goes out of range, or, if it does not, at a
character that is not a digit. -/
theorem readDigits_eq_error_iff {negative : Bool} {acc : Nat} {cs : List Char}
    {fault : NumeralFault} (hacc : acc ≤ integerBound negative) :
    readDigits negative acc cs = .error fault ↔
      Overflows negative acc cs ∧ fault = rangeFault negative ∨
        ¬Overflows negative acc cs ∧ (∃ c ∈ cs, ¬c.isDigit) ∧ fault = .invalidDigit := by
  induction cs generalizing acc with
  | nil => simp [readDigits, overflows_nil_iff, Nat.not_lt_of_le hacc]
  | cons c cs ih =>
    rw [readDigits, digit?, overflows_cons_iff]
    simp only [Nat.not_lt_of_le hacc, false_or, List.mem_cons, exists_eq_or_imp]
    by_cases hc : c.isDigit
    · simp only [hc, if_true, true_and, not_true_eq_false, false_or]
      by_cases hle : 10 * acc + (c.toNat - '0'.toNat) ≤ integerBound negative
      · rw [if_pos hle]
        exact ih hle
      · -- the fault is decided here, whatever characters follow
        have hover := overflows_of_lt (Nat.lt_of_not_le hle) cs
        rw [if_neg hle, Except.error.injEq, eq_comm]
        simp only [hover, true_and, not_true_eq_false, false_and, or_false, rangeFault]
    · simp only [hc, Bool.false_eq_true, if_false, Except.error.injEq]
      rw [eq_comm]
      simp

/-- In terms of the whole text, reading its digits goes out of range when some beginning of the text
does. -/
theorem leavesRange_iff {cs : List Char} :
    LeavesRange cs ↔ Overflows (splitSign cs).1 0 (splitSign cs).2 := by
  constructor
  · rintro ⟨p, n, hp, hnumeral, hfits⟩
    obtain ⟨hdigits, rfl⟩ := isNumeralOf_iff.mp hnumeral
    have hne : p ≠ [] := by
      rintro rfl
      exact hdigits.1 rfl
    obtain ⟨hsign, hprefix⟩ := splitSign_of_isPrefix hne hp
    rw [hsign, fitsInteger_signedInt_iff, Nat.not_le] at hfits
    exact ⟨_, hprefix, hdigits.2, hfits⟩
  · rintro ⟨p, hp, hdigits, hlt⟩
    have hne : p ≠ [] := by
      rintro rfl
      exact absurd hlt (Nat.not_lt_zero _)
    rw [← Nat.not_le, ← fitsInteger_signedInt_iff] at hlt
    rw [splitSign_eq] at hp hlt
    -- the sign goes back in front of the digits
    split_ifs at hp hlt with hminus hplus
    · obtain ⟨ds, rfl⟩ := List.head?_eq_some_iff.mp hminus
      exact ⟨'-' :: p, _, List.cons_prefix_cons.mpr ⟨rfl, hp⟩, .minus p ⟨hne, hdigits⟩, hlt⟩
    · obtain ⟨ds, rfl⟩ := List.head?_eq_some_iff.mp hplus
      exact ⟨'+' :: p, _, List.cons_prefix_cons.mpr ⟨rfl, hp⟩, .plus p ⟨hne, hdigits⟩, hlt⟩
    · exact ⟨p, _, hp, .unsigned p ⟨hne, hdigits⟩, hlt⟩

/-! ### The reader -/

theorem toInt_eq_iff {m : Int64} {n : Int} : m.toInt = n ↔ FitsInteger n ∧ m = Int64.ofInt n := by
  have hlow := Int64.le_toInt m
  have hhigh := Int64.toInt_lt m
  constructor
  · rintro rfl
    exact ⟨⟨hlow, Int.le_sub_one_of_lt hhigh⟩, m.ofInt_toInt.symm⟩
  · rintro ⟨⟨hle, hge⟩, rfl⟩
    exact Int64.toInt_ofInt_of_le hle (Int.lt_of_le_sub_one hge)

theorem readInteger_eq (cs : List Char) :
    readInteger cs =
      if cs = [] then .error .emptyInteger
      else if (splitSign cs).2 = [] then .error .invalidDigit
      else readDigits (splitSign cs).1 0 (splitSign cs).2 := rfl

/-- **The reader accepts the numerals in range**, and nothing else. -/
theorem readInteger_eq_ok_iff {cs : List Char} {m : Int64} :
    readInteger cs = .ok m ↔ IsNumeralOf cs m.toInt := by
  rw [isNumeralOf_iff, toInt_eq_iff, fitsInteger_signedInt_iff, readInteger_eq]
  split_ifs with hempty hdigits
  · subst hempty
    exact iff_of_false (by simp) fun h => h.1.1 rfl
  · exact iff_of_false (by simp) fun h => h.1.1 hdigits
  · rw [readDigits_eq_ok_iff (Nat.zero_le _)]
    exact ⟨fun h => ⟨⟨hdigits, h.1⟩, h.2⟩, fun h => ⟨h.1.2, h.2⟩⟩

/-- **The reader refuses a text** because it is empty, because some beginning of it is out of range,
or, where neither is so, because it is not a numeral. -/
theorem readInteger_eq_error_iff {cs : List Char} {fault : NumeralFault} :
    readInteger cs = .error fault ↔
      cs = [] ∧ fault = .emptyInteger ∨
        LeavesRange cs ∧ fault = rangeFault (splitSign cs).1 ∨
        cs ≠ [] ∧ ¬LeavesRange cs ∧ (∀ n, ¬IsNumeralOf cs n) ∧ fault = .invalidDigit := by
  have hnumeral : (∀ n, ¬IsNumeralOf cs n) ↔ ¬IsDigits (splitSign cs).2 := by
    simp [isNumeralOf_iff]
  rw [leavesRange_iff, hnumeral, readInteger_eq]
  split_ifs with hempty hdigits
  · subst hempty
    rw [Except.error.injEq, eq_comm]
    simp [splitSign, overflows_nil_iff]
  · rw [Except.error.injEq, eq_comm]
    simp [hempty, hdigits, overflows_nil_iff, IsDigits]
  · rw [readDigits_eq_error_iff (Nat.zero_le _)]
    simp [hempty, hdigits, IsDigits]

theorem integerText_toList (n : Int) :
    (integerText n).toList = signed (decide (n < 0)) (Nat.toDigits 10 n.natAbs) := by
  simp [integerText, signed]

theorem isNumeralOf_integerText (n : Int) : IsNumeralOf (integerText n).toList n := by
  have hdigits := isDigits_toDigits n.natAbs
  rw [integerText_toList]
  by_cases hneg : n < 0
  · have hnumeral := IsNumeralOf.minus _ hdigits
    rw [Nat.ofDigitChars_ten_toDigits, Int.ofNat_natAbs_of_nonpos (Int.le_of_lt hneg),
      Int.neg_neg] at hnumeral
    simpa [signed, hneg] using hnumeral
  · have hnumeral := IsNumeralOf.unsigned _ hdigits
    rw [Nat.ofDigitChars_ten_toDigits, Int.natAbs_of_nonneg (Int.not_lt.mp hneg)] at hnumeral
    simpa [signed, hneg] using hnumeral

/-- **A printed integer reads back.** -/
theorem readInteger_integerText (n : Int64) : readInteger (integerText n.toInt).toList = .ok n :=
  readInteger_eq_ok_iff.mpr (isNumeralOf_integerText n.toInt)

theorem not_leavesRange_nil : ¬LeavesRange [] := by
  rw [leavesRange_iff]
  exact fun h => absurd (overflows_nil_iff.mp h) (Nat.not_lt_zero _)

/-- No two faults are worded alike. -/
theorem NumeralFault.reason_inj {a b : NumeralFault} : a.reason = b.reason ↔ a = b := by
  cases a <;> cases b <;> decide

/-- **The wording of a fault** says which of the three it is, and for a text out
of range also on which side. -/
theorem reason_of_readInteger_eq_error {cs : List Char} {fault : NumeralFault}
    (h : readInteger cs = .error fault) :
    (fault.reason = "cannot parse integer from empty string" ↔ cs = []) ∧
      (fault.reason = "number too large to fit in target type" ↔
        cs.head? ≠ some '-' ∧ LeavesRange cs) ∧
      (fault.reason = "number too small to fit in target type" ↔
        cs.head? = some '-' ∧ LeavesRange cs) ∧
      (fault.reason = "invalid digit found in string" ↔ cs ≠ [] ∧ ¬LeavesRange cs) := by
  have hempty : "cannot parse integer from empty string" = NumeralFault.emptyInteger.reason := rfl
  have hlarge : "number too large to fit in target type" = NumeralFault.tooLarge.reason := rfl
  have hsmall : "number too small to fit in target type" = NumeralFault.tooSmall.reason := rfl
  have hdigit : "invalid digit found in string" = NumeralFault.invalidDigit.reason := rfl
  rw [hempty, hlarge, hsmall, hdigit]
  simp only [NumeralFault.reason_inj]
  rcases readInteger_eq_error_iff.mp h with ⟨rfl, rfl⟩ | ⟨hleaves, rfl⟩ | ⟨hne, hleaves, -, rfl⟩
  · simp [not_leavesRange_nil]
  · have hne : cs ≠ [] := by
      rintro rfl
      exact not_leavesRange_nil hleaves
    rw [Ne, ← splitSign_fst_eq_true_iff]
    cases (splitSign cs).1 <;> simp [rangeFault, hne, hleaves]
  · simp [hne, hleaves]

/-- The value of an integer token is the integer that is read. -/
theorem Token.value_eq_ok_iff_of_integer {t : Token} (hkind : t.kind = .integer)
    (hfree : bound? t.text = none) {v : Value} :
    t.value = .ok v ↔ ∃ m, readInteger t.text.toList = .ok m ∧ v = .int m := by
  simp only [Token.value, hfree, hkind]
  cases readInteger t.text.toList <;> simp [eq_comm]

/-- **Integer numerals are read exactly.** A token of kind integer whose text is not bound has a
value if and only if its text is a numeral of an integer of 64 bits, and the value is this integer.
Every other text is refused with the token's own text and column: as empty, as out of range on its
side of zero as soon as some beginning of it is, and as no numeral in all other cases. -/
theorem Token.value_reads_integers_exactly (t : Token) (hkind : t.kind = .integer)
    (hfree : bound? t.text = none) :
    (∀ v, t.value = .ok v ↔ ∃ (n : Int) (m : Int64),
      IsNumeralOf t.text.toList n ∧ FitsInteger n ∧ m.toInt = n ∧ v = .int m) ∧
    ((¬∃ n, IsNumeralOf t.text.toList n ∧ FitsInteger n) →
      ∃ fault, t.value = .error (.numeral t.text t.column fault) ∧
        (fault.reason = "cannot parse integer from empty string" ↔ t.text = "") ∧
        (fault.reason = "number too large to fit in target type" ↔
          t.text.toList.head? ≠ some '-' ∧ LeavesRange t.text.toList) ∧
        (fault.reason = "number too small to fit in target type" ↔
          t.text.toList.head? = some '-' ∧ LeavesRange t.text.toList) ∧
        (fault.reason = "invalid digit found in string" ↔
          t.text ≠ "" ∧ ¬LeavesRange t.text.toList)) := by
  refine ⟨fun v => ?_, fun hnone => ?_⟩
  · rw [value_eq_ok_iff_of_integer hkind hfree]
    constructor
    · rintro ⟨m, hread, rfl⟩
      have hfits := (toInt_eq_iff.mp (Eq.refl m.toInt)).1
      exact ⟨m.toInt, m, readInteger_eq_ok_iff.mp hread, hfits, rfl, rfl⟩
    · rintro ⟨n, m, hnumeral, -, rfl, rfl⟩
      exact ⟨m, readInteger_eq_ok_iff.mpr hnumeral, rfl⟩
  · cases hread : readInteger t.text.toList with
    | ok m =>
      have hfits := (toInt_eq_iff.mp (Eq.refl m.toInt)).1
      exact absurd ⟨m.toInt, readInteger_eq_ok_iff.mp hread, hfits⟩ hnone
    | error fault =>
      refine ⟨fault, by simp only [Token.value, hfree, hkind, hread], ?_⟩
      have hreason := reason_of_readInteger_eq_error hread
      simp only [ne_eq, String.toList_eq_nil_iff] at hreason ⊢
      exact hreason

/-- The least integer with zeros in front of it, and a magnitude one too large with
a stray character behind it. -/
theorem Token.value_reads_integers_exactly_at_the_range :
    Token.value ⟨.integer, "-009223372036854775808", 3⟩ = .ok (.int Int64.minValue) ∧
      ∃ fault, Token.value ⟨.integer, "9223372036854775808x", 3⟩ =
          .error (.numeral "9223372036854775808x" 3 fault) ∧
        fault.reason = "number too large to fit in target type" := by
  constructor
  · refine ((value_reads_integers_exactly _ rfl (by decide)).1 _).mpr
      ⟨-9223372036854775808, Int64.minValue, ?_, by decide, by decide, rfl⟩
    exact .minus "009223372036854775808".toList ⟨by decide, List.all_eq_true.mp (by decide)⟩
  · have hdigits : ¬IsDigits "9223372036854775808x".toList := fun h =>
      absurd (h.2 'x' (by decide)) (by decide)
    obtain ⟨fault, hvalue, -, hlarge, -⟩ :=
      (value_reads_integers_exactly ⟨.integer, "9223372036854775808x", 3⟩ rfl (by decide)).2
        fun ⟨n, hnumeral, _⟩ => hdigits (isNumeralOf_iff.mp hnumeral).1
    refine ⟨fault, hvalue, hlarge.mpr ⟨by decide, ?_⟩⟩
    exact ⟨"9223372036854775808".toList, _, ⟨['x'], by decide⟩,
      .unsigned _ ⟨by decide, List.all_eq_true.mp (by decide)⟩, by decide⟩

end CambridgePolish
