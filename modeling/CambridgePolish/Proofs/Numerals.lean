import CambridgePolish.Token.Classify
import CambridgePolish.Proofs.CorrectRounding
import CambridgePolish.Proofs.IntegerNumerals
import Mathlib.Data.List.TakeWhile

/-!
# Printed numbers read back

A number is printed as digits, for a double with a point among them, behind a minus sign if it is
negative. A text like this is never a bound name (`bound?_eq_none`), so that it is the reader that
gives it its value. That the integer reader gives a printed integer back is
`readInteger_integerText`; this file does the same for the reader of floating-point numerals, which
gives back every finite double, to the bit (`readReal_text`).

The positional layout says a decimal of the same magnitude as the one it was given
(`Decimal.exists_plain_eq`), and the rest is that rounding is correct
(`Binary64.ofDecimal_eq_ofRank_iff`).
-/

namespace CambridgePolish

/-! ### What starts like a number -/

theorem startsNumeral_signed (negative : Bool) {c : Char} (hc : c.isDigit) (cs : List Char) :
    startsNumeral (signed negative (c :: cs)) = true := by
  cases negative with
  | true => simp [signed, startsNumeral, hc]
  | false => cases cs <;> simp [signed, startsNumeral, hc]

/-- A name that has a value does not look like a number. -/
theorem bound?_eq_none {cs : List Char} (h : startsNumeral cs = true) :
    bound? (String.ofList cs) = none := by
  rw [bound?, List.lookup_eq_none_iff]
  intro p hp
  have hname : startsNumeral p.1.toList = false := by
    revert p
    decide
  rw [bne_iff_ne]
  intro heq
  rw [← heq, String.toList_ofList, h] at hname
  exact absurd hname (by decide)

/-! ### The positional layout -/

theorem takeWhile_digits {cs : List Char} (hcs : ∀ c ∈ cs, c.isDigit) (rest : List Char) :
    (cs ++ '.' :: rest).takeWhile Char.isDigit = cs := by
  rw [List.takeWhile_append_of_pos hcs, List.takeWhile_cons_of_neg (by decide), List.append_nil]

theorem dropWhile_digits {cs : List Char} (hcs : ∀ c ∈ cs, c.isDigit) (rest : List Char) :
    (cs ++ '.' :: rest).dropWhile Char.isDigit = '.' :: rest := by
  rw [List.dropWhile_append_of_pos hcs, List.dropWhile_cons_of_neg (by decide)]

/-- The decimal that two runs of digits with a point between them say. -/
theorem readDecimal?_digits {whole fraction : List Char} (hwhole : IsDigits whole)
    (hfraction : IsDigits fraction) :
    readDecimal? (whole ++ '.' :: fraction) =
      some ⟨Nat.ofDigitChars 10 (whole ++ fraction) 0, -(fraction.length : Int)⟩ := by
  have htake : fraction.takeWhile Char.isDigit = fraction :=
    List.takeWhile_eq_self_iff.mpr hfraction.2
  have hdrop : fraction.dropWhile Char.isDigit = [] := List.dropWhile_eq_nil_iff.mpr hfraction.2
  simp only [readDecimal?, takeWhile_digits hwhole.2, dropWhile_digits hwhole.2, htake, hdrop]
  rw [if_neg fun h => hwhole.1 h.1, readExponent?, Option.map_some, Int.zero_sub]

namespace Decimal

/-- The decimal that the positional layout says: a whole number gets a place behind the point. -/
def positional (d : Decimal) : Decimal :=
  match d.exponent with
  | .ofNat zeros => ⟨d.coefficient * 10 ^ (zeros + 1), -1⟩
  | .negSucc _ => d

theorem length_padLeft (n : Nat) (cs : List Char) : n ≤ (padLeft n cs).length := by
  rw [padLeft, List.length_append, List.length_replicate]
  omega

theorem forall_isDigit_replicate_zero (n : Nat) : ∀ c ∈ List.replicate n '0', c.isDigit := by
  intro c hc
  rw [List.eq_of_mem_replicate hc]
  decide

theorem ofDigitChars_padLeft (n : Nat) (cs : List Char) :
    Nat.ofDigitChars 10 (padLeft n cs) 0 = Nat.ofDigitChars 10 cs 0 := by
  rw [padLeft, Nat.ofDigitChars_append, Nat.ofDigitChars_replicate_zero, Nat.mul_zero]

/-- **The positional layout** is two runs of digits with a point between them. -/
theorem exists_plain_eq (d : Decimal) :
    ∃ whole fraction, d.plain = whole ++ '.' :: fraction ∧ IsDigits whole ∧ IsDigits fraction ∧
      d.positional = ⟨Nat.ofDigitChars 10 (whole ++ fraction) 0, -(fraction.length : Int)⟩ := by
  obtain ⟨c, zeros | n⟩ := d
  · refine ⟨Nat.toDigits 10 c ++ List.replicate zeros '0', ['0'], rfl,
      (isDigits_toDigits c).append (forall_isDigit_replicate_zero zeros), ?_, ?_⟩
    · exact ⟨nofun, List.all_eq_true.mp rfl⟩
    · rw [List.append_assoc, ← List.replicate_succ', Nat.ofDigitChars_append,
        Nat.ofDigitChars_ten_toDigits, Nat.ofDigitChars_replicate_zero, Nat.mul_comm]
      rfl
  · have hlen := length_padLeft (n + 2) (Nat.toDigits 10 c)
    have hdigits : ∀ d ∈ padLeft (n + 2) (Nat.toDigits 10 c), d.isDigit := by
      intro d hd
      rcases List.mem_append.mp hd with h | h
      · exact forall_isDigit_replicate_zero _ d h
      · exact (isDigits_toDigits c).2 d h
    have hvalue : Nat.ofDigitChars 10 (padLeft (n + 2) (Nat.toDigits 10 c)) 0 = c := by
      rw [ofDigitChars_padLeft, Nat.ofDigitChars_ten_toDigits]
    refine ⟨_, _, rfl, ⟨?_, ?_⟩, ⟨?_, ?_⟩, ?_⟩
    all_goals simp only [digits]; generalize padLeft (n + 1 + 1) (Nat.toDigits 10 c) = cs at *
    · rw [← List.length_pos_iff, List.length_take]
      omega
    · exact fun d hd => hdigits d (List.mem_of_mem_take hd)
    · rw [← List.length_pos_iff, List.length_drop]
      omega
    · exact fun d hd => hdigits d (List.mem_of_mem_drop hd)
    · rw [List.take_append_drop, List.length_drop, hvalue, Nat.sub_sub_self (by omega)]
      rfl

end Decimal

/-! ### Doubles -/

namespace Binary64

/-- The positional layout says a decimal of the same magnitude, which belongs to the same rank. -/
theorem roundsTo_positional {n : Nat} {d : Decimal} (h : RoundsTo n d.inUnits.1 d.inUnits.2) :
    RoundsTo n d.positional.inUnits.1 d.positional.inUnits.2 := by
  obtain ⟨c, zeros | m⟩ := d
  · have hpositional : Decimal.positional ⟨c, .ofNat zeros⟩ =
      ⟨c * 10 ^ (zeros + 1), -((1 : Nat) : Int)⟩ := rfl
    have hscaled : RoundsTo n (c * 10 ^ zeros * unitsPerOne * 10) (1 * 10) := h.scale (by decide)
    rw [Nat.mul_right_comm, Nat.mul_assoc c] at hscaled
    rw [hpositional, Decimal.inUnits_neg]
    exact hscaled
  · exact h

/-- A word is its sign and its rank. -/
theorem ofRank_rank (x : Binary64) : ofRank x.isNegative x.rank = x := by
  have hlt := x.bits.toNat_lt
  have hsum : (if x.isNegative then Nat.pow 2 63 else 0) + x.rank = x.bits.toNat := by
    simp only [isNegative, rank, natPow_eq, decide_eq_true_eq]
    split_ifs <;> omega
  rw [ofRank, hsum, UInt64.ofNat_toNat]

/-- **The text of a finite double**: its sign and the positional layout of its magnitude. -/
theorem text_toList {x : Binary64} (hx : x.isFinite) :
    x.text.toList = signed x.isNegative (shortest x.rank).plain := by
  have hnan : x.isNaN = false := by
    simp only [isFinite, isNaN, decide_eq_true_eq, decide_eq_false_iff_not] at hx ⊢
    omega
  simp [text, textWith, hnan, hx, signed]

end Binary64

/-- Digits are not the name of a special value. -/
theorem special?_eq_none (negative : Bool) {c : Char} (hc : c.isDigit) (cs : List Char) :
    special? negative (c :: cs) = none := by
  have hlower : c.toLower = c := by
    simp only [Char.isDigit, Bool.and_eq_true, decide_eq_true_eq] at hc
    exact dif_neg fun h => absurd (UInt32.le_trans h.1 hc.2) (by decide)
  have hne (name : String) (hname : name.toList.head?.any Char.isDigit = false) :
      String.ofList ((c :: cs).map Char.toLower) ≠ name := by
    rintro rfl
    rw [String.toList_ofList, List.map_cons, hlower, List.head?_cons, Option.any_some, hc] at hname
    exact absurd hname (by decide)
  rw [special?, if_neg, if_neg]
  · exact hne _ (by decide)
  · rintro (h | h)
    · exact hne _ (by decide) h
    · exact hne _ (by decide) h

/-- The value of a positional numeral: the decimal that it says, rounded. -/
theorem readReal_positional (negative : Bool) {whole fraction : List Char} (hwhole : IsDigits whole)
    (hfraction : IsDigits fraction) :
    readReal (signed negative (whole ++ '.' :: fraction)) =
      .ok (Binary64.ofDecimal negative
        ⟨Nat.ofDigitChars 10 (whole ++ fraction) 0, -(fraction.length : Int)⟩) := by
  have hread := readDecimal?_digits hwhole hfraction
  obtain ⟨c, cs, rfl, hc⟩ := hwhole.exists_cons
  rw [List.cons_append] at hread ⊢
  rw [readReal, if_neg (by cases negative <;> nofun), splitSign_signed _ hc]
  simp only [special?_eq_none _ hc, hread]

/-- **A printed double reads back**, to the bit. -/
theorem readReal_text {x : Binary64} (hx : x.isFinite) : readReal x.text.toList = .ok x := by
  obtain ⟨whole, fraction, hplain, hwhole, hfraction, hvalue⟩ :=
    Decimal.exists_plain_eq (Binary64.shortest x.rank)
  have hfinite : x.rank < Binary64.infinityRank := of_decide_eq_true hx
  have hrounded := Binary64.roundsTo_positional (Binary64.roundsTo_shortest x.rank)
  rw [Binary64.text_toList hx, hplain, readReal_positional _ hwhole hfraction, ← hvalue,
    (Binary64.ofDecimal_eq_ofRank_iff hfinite).mpr hrounded, Binary64.ofRank_rank]

end CambridgePolish
