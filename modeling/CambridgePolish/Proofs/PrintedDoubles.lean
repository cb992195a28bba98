import CambridgePolish.Proofs.ShortestDigits
import CambridgePolish.Proofs.Written
import Mathlib.Data.List.DropRight

/-!
# Printed doubles

The text of a finite double is a positional numeral, without an exponent at any size; it is one
token, of kind float, and the value of this token is the same double, to the bit. Among all
positional numerals that are read as the double, none has fewer significant digits.

For the last part, digits are counted in the text. `significantDigits` leaves out the sign, the
point and the zeros at either end, which is all that the positional layout adds to the digits of a
decimal (`Decimal.exists_digits_plain`). In the other direction, a positional numeral says the
decimal of its significant digits, with a larger exponent (`exists_magnitude_trimZeros`), and this
decimal is one that `Binary64.length_digits_shortest_le` counts.
-/

namespace CambridgePolish

/-- **A positional numeral**: digits, a point and digits, behind a minus sign or nothing. -/
def IsPositional (cs : List Char) : Prop :=
  ∃ negative whole fraction, IsDigits whole ∧ IsDigits fraction ∧
    cs = signed negative (whole ++ '.' :: fraction)

/-! ### Significant digits -/

/-- The character is a zero. -/
def isZeroDigit (c : Char) : Bool :=
  c == '0'

/-- The digits without the zeros at either end. -/
def trimZeros (ds : List Char) : List Char :=
  (ds.dropWhile isZeroDigit).rdropWhile isZeroDigit

/-- **The significant digits of a numeral.** -/
def significantDigits (cs : List Char) : List Char :=
  trimZeros (cs.filter Char.isDigit)

theorem isZeroDigit_of_mem_replicate {a : Nat} {c : Char} (h : c ∈ List.replicate a '0') :
    isZeroDigit c := by
  rw [List.eq_of_mem_replicate h]
  rfl

theorem eq_replicate_of_isZeroDigit {ds : List Char} (h : ∀ d ∈ ds, isZeroDigit d) :
    ds = List.replicate ds.length '0' :=
  List.eq_replicate_of_mem fun d hd => beq_iff_eq.mp (h d hd)

/-- Digits are their significant ones between zeros. -/
theorem exists_eq_trimZeros (ds : List Char) :
    ∃ a b, ds = List.replicate a '0' ++ (trimZeros ds ++ List.replicate b '0') := by
  refine ⟨(ds.takeWhile isZeroDigit).length,
    ((ds.dropWhile isZeroDigit).rtakeWhile isZeroDigit).length, ?_⟩
  rw [← eq_replicate_of_isZeroDigit fun d hd => List.mem_takeWhile_imp hd,
    ← eq_replicate_of_isZeroDigit fun d hd => List.mem_rtakeWhile_imp hd, trimZeros,
    List.rdropWhile_append_rtakeWhile, List.takeWhile_append_dropWhile]

theorem rdropWhile_append_zeros (ds : List Char) (b : Nat) :
    (ds ++ List.replicate b '0').rdropWhile isZeroDigit = ds.rdropWhile isZeroDigit := by
  rw [List.rdropWhile, List.reverse_append, List.reverse_replicate,
    List.dropWhile_append_of_pos fun d hd => isZeroDigit_of_mem_replicate hd, List.rdropWhile]

/-- Zeros at either end do not count. -/
theorem trimZeros_between_zeros (a b : Nat) (ds : List Char) :
    trimZeros (List.replicate a '0' ++ (ds ++ List.replicate b '0')) = trimZeros ds := by
  rw [trimZeros, List.dropWhile_append_of_pos fun d hd => isZeroDigit_of_mem_replicate hd,
    List.dropWhile_append]
  split_ifs with hempty
  · have hzeros : (List.replicate b '0').dropWhile isZeroDigit = [] :=
      List.dropWhile_eq_nil_iff.mpr fun d hd => isZeroDigit_of_mem_replicate hd
    rw [hzeros, trimZeros, List.isEmpty_iff.mp hempty]
  · rw [rdropWhile_append_zeros, trimZeros]

theorem trimZeros_sublist (ds : List Char) : (trimZeros ds).Sublist ds :=
  (List.rdropWhile_prefix _ _).sublist.trans (List.dropWhile_sublist _)

theorem significantDigits_signed (negative : Bool) (cs : List Char) :
    significantDigits (signed negative cs) = significantDigits cs := by
  cases negative with
  | false => rfl
  | true => rfl

/-- The significant digits of a positional numeral are those on both sides of the point. -/
theorem significantDigits_positional (negative : Bool) {whole fraction : List Char}
    (hwhole : IsDigits whole) (hfraction : IsDigits fraction) :
    significantDigits (signed negative (whole ++ '.' :: fraction)) =
      trimZeros (whole ++ fraction) := by
  rw [significantDigits_signed, significantDigits, List.filter_append,
    List.filter_cons_of_neg (by decide), List.filter_eq_self.mpr hwhole.2,
    List.filter_eq_self.mpr hfraction.2]

/-- **The positional layout adds zeros** to the digits of a decimal, on one side or the other. -/
theorem Decimal.exists_digits_plain (d : Decimal) :
    ∃ a b, d.plain.filter Char.isDigit =
      List.replicate a '0' ++ (d.digits ++ List.replicate b '0') := by
  have hdigits : d.digits.filter Char.isDigit = d.digits :=
    List.filter_eq_self.mpr (isDigits_toDigits d.coefficient).2
  have hzeros (k : Nat) : (List.replicate k '0').filter Char.isDigit = List.replicate k '0' :=
    List.filter_eq_self.mpr (forall_isDigit_replicate_zero k)
  obtain ⟨c, zeros | n⟩ := d
  · refine ⟨0, zeros + 1, ?_⟩
    rw [plain, List.filter_append, List.filter_append, hdigits, hzeros, List.replicate_succ']
    simp
  · refine ⟨n + 2 - (digits ⟨c, .negSucc n⟩).length, 0, ?_⟩
    rw [plain, List.filter_append, List.filter_cons_of_neg (by decide), ← List.filter_append,
      List.take_append_drop, padLeft, List.filter_append, hdigits, hzeros]
    simp

/-! ### The digits of a double -/

/-- The significant digits of the printed double are those of its shortest decimal. -/
theorem Binary64.significantDigits_text {x : Binary64} (hx : x.isFinite) :
    significantDigits x.text.toList = trimZeros (shortest x.rank).digits := by
  obtain ⟨a, b, hplain⟩ := (shortest x.rank).exists_digits_plain
  rw [text_toList hx, significantDigits_signed, significantDigits, hplain, trimZeros_between_zeros]

/-- Digits say the decimal of the significant ones among them, with a larger exponent. -/
theorem exists_magnitude_trimZeros (ds : List Char) (j : Int) :
    ∃ b : Nat, Decimal.magnitude ⟨Nat.ofDigitChars 10 ds 0, j⟩ =
      Decimal.magnitude ⟨Nat.ofDigitChars 10 (trimZeros ds) 0, j + b⟩ := by
  obtain ⟨a, b, hds⟩ := exists_eq_trimZeros ds
  refine ⟨b, ?_⟩
  have hvalue : Nat.ofDigitChars 10 ds 0 = Nat.ofDigitChars 10 (trimZeros ds) 0 * 10 ^ b := by
    conv_lhs => rw [hds]
    rw [Nat.ofDigitChars_append, Nat.ofDigitChars_replicate_zero, Nat.mul_zero,
      Nat.ofDigitChars_append, Nat.ofDigitChars_replicate_zero, Nat.mul_comm]
  rw [hvalue, Decimal.magnitude_refine]

/-- Digits that say a number in the interval of a double are at least as many as the significant
ones that the double is printed with. -/
theorem Binary64.length_trimZeros_shortest_le {n : Nat} (hfinite : n < infinityRank)
    {ds : List Char} (hds : ∀ d ∈ ds, d.isDigit) {j : Int}
    (h : Decimal.magnitude ⟨Nat.ofDigitChars 10 ds 0, j⟩ ∈ interval n) :
    (trimZeros (shortest n).digits).length ≤ ds.length := by
  rcases eq_or_ne ds [] with rfl | hne
  · -- without a digit the number is zero, and so is the double
    obtain rfl : n = 0 := by
      by_contra hn
      refine zero_notMem_interval (Nat.pos_of_ne_zero hn) ?_
      rw [Nat.ofDigitChars_nil, Decimal.magnitude, Nat.cast_zero, zero_mul, zero_mul] at h
      exact h
    rfl
  · have hlt := ofDigitChars_lt_pow hds 0
    rw [Nat.zero_add, Nat.one_mul] at hlt
    calc (trimZeros (shortest n).digits).length
        ≤ (shortest n).digits.length := (trimZeros_sublist _).length_le
      _ ≤ (Decimal.mk (Nat.ofDigitChars 10 ds 0) j).digits.length :=
          length_digits_shortest_le hfinite (rounds_iff_mem_interval.mpr h)
      _ ≤ ds.length := Decimal.length_digits_le (List.length_pos_iff.mpr hne) hlt

/-- **No positional numeral of a double has fewer significant digits** than its text. -/
theorem length_significantDigits_text_le {cs : List Char} {x : Binary64} (hx : x.isFinite)
    (hcs : IsPositional cs) (h : readReal cs = .ok x) :
    (significantDigits x.text.toList).length ≤ (significantDigits cs).length := by
  obtain ⟨negative, whole, fraction, hwhole, hfraction, rfl⟩ := hcs
  rw [Binary64.significantDigits_text hx, significantDigits_positional negative hwhole hfraction]
  have hfinite : x.rank < Binary64.infinityRank := of_decide_eq_true hx
  rw [readReal_positional negative hwhole hfraction, Except.ok.injEq] at h
  subst h
  have hrounds := Binary64.rounds_eq_true_iff.mpr (Binary64.roundsTo_rank_ofDecimal hfinite)
  obtain ⟨b, hmagnitude⟩ :=
    exists_magnitude_trimZeros (whole ++ fraction) (-(fraction.length : Int))
  rw [Binary64.rounds_iff_mem_interval, hmagnitude] at hrounds
  refine Binary64.length_trimZeros_shortest_le hfinite (fun d hd => ?_) hrounds
  exact (hwhole.append hfraction.2).2 d ((trimZeros_sublist _).subset hd)

/-- **Printed doubles read back bit for bit.** The text of a finite double is a positional numeral;
it is one token, of kind float in the first column, whose value is the double itself; and no
positional numeral that is read as the double has fewer significant digits. -/
theorem printed_doubles_read_back (x : Binary64) (hx : x.isFinite) :
    IsPositional (Value.real x).text.toList ∧
      (Token.ofLine (Value.real x).text).outcome = .ok [⟨.float, (Value.real x).text, 1⟩] ∧
      Token.value ⟨.float, (Value.real x).text, 1⟩ = .ok (.real x) ∧
      ∀ cs, IsPositional cs → readReal cs = .ok x →
        (significantDigits (Value.real x).text.toList).length ≤ (significantDigits cs).length := by
  refine ⟨?_, ?_, ?_, fun cs hcs h => ?_⟩
  · obtain ⟨whole, fraction, hplain, hwhole, hfraction, -⟩ :=
      Decimal.exists_plain_eq (Binary64.shortest x.rank)
    refine ⟨x.isNegative, whole, fraction, hwhole, hfraction, ?_⟩
    rw [Value.text, Binary64.text_toList hx, hplain]
  · have hlexed := Expr.lexes_atom (v := .real x) hx none 1 [] [] trivial rfl rfl
    rw [List.append_nil, List.append_nil] at hlexed
    exact hlexed
  · have hvalue := (Expr.spells_real hx).value_eq 1
    rw [String.ofList_toList] at hvalue
    exact hvalue
  · exact length_significantDigits_text_le hx hcs h

/-- The negative double next to `10 ^ 23`. The power of ten lies half way to the next double, and is
read as the one of even rank. -/
theorem printed_doubles_read_back_at_a_tie :
    (Token.ofLine "-100000000000000000000000.0").outcome =
        .ok [⟨.float, "-100000000000000000000000.0", 1⟩] ∧
      Token.value ⟨.float, "-100000000000000000000000.0", 1⟩ =
        .ok (.real ⟨0xC4B52D02C7E14AF6⟩) := by
  have htext : (Value.real ⟨0xC4B52D02C7E14AF6⟩).text = "-100000000000000000000000.0" := by
    decide +kernel
  obtain ⟨-, hline, hvalue, -⟩ := printed_doubles_read_back ⟨0xC4B52D02C7E14AF6⟩ (by decide)
  rw [htext] at hline hvalue
  exact ⟨hline, hvalue⟩

end CambridgePolish
