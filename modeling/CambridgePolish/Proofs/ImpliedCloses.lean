import CambridgePolish.Proofs.Preorder
import CambridgePolish.Proofs.Refusal
import Mathlib.Data.List.Forall2
import Mathlib.Data.List.Infix

/-!
# Closing parentheses that are missing

A group may end with its parenthesis or with the input. The reader treats the two alike, one in a
step and the other when it finishes, so closing parentheses may be left out at the end, in any
number, and nothing else changes than that each missing one is noted
(`missing_closes_are_implied`). The proof follows the stack of open groups: a closing parenthesis
takes the innermost one away and leaves alone what all of them become at the end of the input
(`Reader.exists_stepped_close`), and so do as many as there are groups
(`Reader.exists_foldlM_closes`). When none is left, the next one has nothing to close.

Which groups are open can be seen from the tokens alone. An opening parenthesis is unmatched if
nothing behind it closes more than it opens (`unmatchedOpens`). How these change at the end of a
list is what a step does to the stack (`Reader.columns_of_foldlM`), though the one is a condition on
all that follows a token and the other a matter of what came before.
-/

namespace CambridgePolish

variable {t : Token} {ts cs : List Token} {n : Nat}

/-! ### Unmatched parentheses -/

/-- **What was open before stays open**: no prefix closes more groups than it opens. -/
def LeavesOpen (ts : List Token) : Prop :=
  ∀ p, p <+: ts → closes p ≤ opens p

instance (ts : List Token) : Decidable (LeavesOpen ts) :=
  decidable_of_iff (∀ p ∈ ts.inits, closes p ≤ opens p) (by simp only [List.mem_inits, LeavesOpen])

/-- **The opening parentheses that nothing closes**, the outermost first. -/
def unmatchedOpens : List Token → List Token
  | [] => []
  | t :: ts =>
    if t.kind = .groupOpen ∧ LeavesOpen ts then t :: unmatchedOpens ts else unmatchedOpens ts

/-- How many of the groups that were open before are closed. -/
def surplus : List Token → Nat
  | [] => 0
  | t :: ts =>
    if t.kind = .groupClose then surplus ts + 1
    else if t.kind = .groupOpen then surplus ts - 1
    else surplus ts

/-- The surplus is the most that a prefix closes more than it opens. -/
theorem surplus_le_iff : surplus ts ≤ n ↔ ∀ p, p <+: ts → closes p ≤ opens p + n := by
  induction ts generalizing n with
  | nil => simp [surplus]
  | cons t ts ih =>
    have hprefixes : (∀ p, p <+: t :: ts → closes p ≤ opens p + n) ↔
        ∀ p, p <+: ts → closes (t :: p) ≤ opens (t :: p) + n := by
      constructor
      · intro h p hp
        exact h (t :: p) ((List.prefix_cons_inj t).mpr hp)
      · intro h p hp
        rcases List.prefix_cons_iff.mp hp with rfl | ⟨q, rfl, hq⟩
        · exact Nat.zero_le _
        · exact h q hq
    rw [hprefixes]
    unfold surplus
    split_ifs with hclose hopen
    · simp only [closes_cons, opens_cons, hclose, if_true, reduceCtorEq, if_false]
      constructor
      · intro h p hp
        have := ih.mp (Nat.le_sub_one_of_lt h) p hp
        omega
      · intro h
        have hpos := h [] List.nil_prefix
        simp only [closes_nil, opens_nil] at hpos
        have hle : surplus ts ≤ n - 1 := ih.mpr fun p hp => by
          have := h p hp
          omega
        omega
    · rw [Nat.sub_le_iff_le_add, ih]
      simp only [closes_cons, opens_cons, hopen, if_true, reduceCtorEq, if_false]
      refine forall_congr' fun p => imp_congr_right fun _ => ?_
      omega
    · rw [ih]
      simp [hclose, hopen]

theorem leavesOpen_iff_surplus : LeavesOpen ts ↔ surplus ts = 0 := by
  rw [← Nat.le_zero, surplus_le_iff]
  rfl

/-- **Parentheses balance** once the unmatched ones are counted on either side. -/
theorem opens_add_surplus (ts : List Token) :
    opens ts + surplus ts = closes ts + (unmatchedOpens ts).length := by
  induction ts with
  | nil => rfl
  | cons t ts ih =>
    simp only [opens_cons, closes_cons, surplus, unmatchedOpens, leavesOpen_iff_surplus]
    by_cases hopen : t.kind = .groupOpen
    · by_cases hsurplus : surplus ts = 0
      · simp only [hopen, hsurplus, reduceCtorEq, if_true, if_false, and_self, List.length_cons]
        omega
      · simp only [hopen, hsurplus, reduceCtorEq, if_true, if_false, and_false]
        omega
    · by_cases hclose : t.kind = .groupClose
      · simp only [hclose, reduceCtorEq, if_true, if_false, false_and]
        omega
      · simp only [hopen, hclose, if_false, false_and]
        omega

/-- A prefix of a list with one more token is a prefix of the list or all of it. -/
theorem leavesOpen_concat :
    LeavesOpen (ts ++ [t]) ↔ LeavesOpen ts ∧ closes (ts ++ [t]) ≤ opens (ts ++ [t]) := by
  unfold LeavesOpen
  simp only [List.prefix_concat_iff, or_imp, forall_and, forall_eq]
  exact and_comm

/-- Only a closing parenthesis closes what is open. -/
theorem leavesOpen_concat_of_ne (ht : t.kind ≠ .groupClose) :
    LeavesOpen (ts ++ [t]) ↔ LeavesOpen ts := by
  rw [leavesOpen_concat, and_iff_left_of_imp]
  intro h
  have hall := h ts List.prefix_rfl
  simp only [closes_append, opens_append, closes_cons, opens_cons, closes_nil, opens_nil, ht,
    if_false]
  omega

/-- An opening parenthesis at the end is unmatched, and the last of all. -/
theorem unmatchedOpens_concat_open (ht : t.kind = .groupOpen) :
    unmatchedOpens (ts ++ [t]) = unmatchedOpens ts ++ [t] := by
  have hne : t.kind ≠ .groupClose := by simp [ht]
  induction ts with
  | nil =>
    have hnil : LeavesOpen [] := by decide
    simp [unmatchedOpens, ht, hnil]
  | cons u ts ih =>
    simp only [List.cons_append, unmatchedOpens, leavesOpen_concat_of_ne hne, ih]
    split_ifs <;> rfl

/-- A value at the end changes nothing. -/
theorem unmatchedOpens_concat_value (hopen : t.kind ≠ .groupOpen) (hclose : t.kind ≠ .groupClose) :
    unmatchedOpens (ts ++ [t]) = unmatchedOpens ts := by
  induction ts with
  | nil => simp [unmatchedOpens, hopen]
  | cons u ts ih => simp only [List.cons_append, unmatchedOpens, leavesOpen_concat_of_ne hclose, ih]

/-- **A closing parenthesis at the end matches the last** of the unmatched ones. -/
theorem unmatchedOpens_concat_close (ht : t.kind = .groupClose) :
    unmatchedOpens (ts ++ [t]) = (unmatchedOpens ts).dropLast := by
  induction ts with
  | nil => simp [unmatchedOpens, ht]
  | cons u ts ih =>
    simp only [List.cons_append, unmatchedOpens, ih]
    by_cases hopen : u.kind = .groupOpen
    · by_cases hleaves : LeavesOpen ts
      · -- it closes the group of `u` if and only if no group is open inside of that
        have hcount := opens_add_surplus ts
        rw [leavesOpen_iff_surplus.mp hleaves] at hcount
        have hiff : LeavesOpen (ts ++ [t]) ↔ unmatchedOpens ts ≠ [] := by
          rw [leavesOpen_concat, and_iff_right hleaves, ← List.length_pos_iff]
          simp only [closes_append, opens_append, closes_cons, opens_cons, closes_nil, opens_nil,
            ht, if_true, reduceCtorEq, if_false]
          omega
        by_cases hnil : unmatchedOpens ts = []
        · simp [hopen, hleaves, hiff, hnil]
        · simp [hopen, hleaves, hiff, hnil, List.dropLast_cons_of_ne_nil hnil]
      · have hconcat : ¬LeavesOpen (ts ++ [t]) := fun h => hleaves (leavesOpen_concat.mp h).1
        simp [hopen, hleaves, hconcat]
    · simp [hopen]

namespace Reader

variable {limits : Limits} {r r' : Reader} {e : Expr}

/-! ### The stack of open groups -/

/-- The columns of the parentheses that are open, the innermost first. -/
def columns (r : Reader) : List Nat :=
  r.opened.toList ++ r.groups.map Group.column

theorem Placed.columns_eq (h : Placed limits e r r') : r'.columns = r.columns := by
  cases h <;> rfl

/-- **What a token does to the open parentheses**: it adds one, takes the innermost away,
or leaves them as they are. -/
theorem Stepped.columns_eq (h : Stepped limits t r r')
    (hr : r.columns = ((unmatchedOpens ts).map Token.column).reverse) :
    r'.columns = ((unmatchedOpens (ts ++ [t])).map Token.column).reverse := by
  cases h with
  | head forms gs column o hkind hvalue =>
    rw [unmatchedOpens_concat_value (by simp [hkind]) (by simp [hkind])]
    exact hr
  | opening forms gs hkind hdepth =>
    rw [unmatchedOpens_concat_open hkind, List.map_append, List.reverse_append, ← hr]
    rfl
  | closing forms g gs r' hkind hplaced =>
    rw [unmatchedOpens_concat_close hkind, hplaced.columns_eq, List.map_dropLast,
      ← List.tail_reverse, ← hr]
    rfl
  | item forms gs v r' hopen hclose hvalue hplaced =>
    rw [unmatchedOpens_concat_value hopen hclose, hplaced.columns_eq]
    exact hr

/-- **The open parentheses of a run** are the unmatched ones. -/
theorem columns_of_foldlM (h : ts.foldlM (step limits) start = .ok r) :
    r.columns = ((unmatchedOpens ts).map Token.column).reverse :=
  run_induction (P := fun ts r => r.columns = ((unmatchedOpens ts).map Token.column).reverse) rfl
    (fun _ _ _ _ hr hstep => hstep.columns_eq hr) h

/-! ### Closing one group after the other -/

/-- **The input may end here.** -/
structure MayEnd (limits : Limits) (r : Reader) : Prop where
  opened : r.opened = none
  room : ∀ g ∈ r.groups.tail, g.operands.length < limits.maxOperands

/-- Where no group is open there are finished forms only. -/
theorem MayEnd.eq_of_length_eq_zero (hr : r.MayEnd limits) (h : r.groups.length = 0) :
    r = ⟨r.forms, [], none⟩ := by
  obtain ⟨forms, gs, opened⟩ := r
  obtain rfl : gs = [] := List.eq_nil_of_length_eq_zero h
  obtain rfl : opened = none := hr.opened
  rfl

/-- **A closing parenthesis does what the end of the input would do** to the innermost group. -/
theorem exists_stepped_close (hr : r.MayEnd limits) (hne : r.groups ≠ [])
    (ht : t.kind = .groupClose) :
    ∃ r', Stepped limits t r r' ∧ r'.MayEnd limits ∧ r'.forest = r.forest ∧
      r'.groups.length + 1 = r.groups.length := by
  obtain ⟨forms, gs, opened⟩ := r
  obtain ⟨rfl, hroom⟩ := hr
  obtain ⟨g, gs, rfl⟩ := List.exists_cons_of_ne_nil hne
  cases gs with
  | nil =>
    refine ⟨_, .closing forms g [] _ ht (.form forms none), ⟨rfl, by simp⟩, ?_, rfl⟩
    simp [forest, Group.wrap]
  | cons h gs =>
    -- the group around has room, as it is not the innermost one
    obtain ⟨hh, hgs⟩ := List.forall_mem_cons.mp hroom
    refine ⟨_, .closing forms g (h :: gs) _ ht (.operand forms h gs none hh), ⟨rfl, hgs⟩, ?_, rfl⟩
    simp [forest, Group.wrap, Group.toExpr]

/-- **As many closing parentheses as there are open groups** change nothing at the end. -/
theorem exists_foldlM_closes (hr : r.MayEnd limits) (hcs : ∀ c ∈ cs, c.kind = .groupClose)
    (hlen : cs.length ≤ r.groups.length) :
    ∃ r', cs.foldlM (step limits) r = .ok r' ∧ r'.MayEnd limits ∧ r'.forest = r.forest ∧
      r'.groups.length + cs.length = r.groups.length := by
  induction cs generalizing r with
  | nil => exact ⟨r, rfl, hr, rfl, rfl⟩
  | cons c cs ih =>
    obtain ⟨hc, hcs⟩ := List.forall_mem_cons.mp hcs
    rw [List.length_cons] at hlen
    have hne : r.groups ≠ [] := List.ne_nil_of_length_pos (by omega)
    obtain ⟨r₁, hstep, hr₁, hforest₁, hlen₁⟩ := exists_stepped_close hr hne hc
    obtain ⟨r₂, hrun, hr₂, hforest₂, hlen₂⟩ := ih hr₁ hcs (by omega)
    refine ⟨r₂, foldlM_cons_eq_ok_iff.mpr ⟨r₁, hstep, hrun⟩, hr₂, hforest₂.trans hforest₁, ?_⟩
    rw [List.length_cons]
    omega

/-- What is noted of a group that the input ends in. -/
def note (g : Group) : Event :=
  .unclosed g.operator g.column

theorem events_closeAround {gs : List Group} (h : ∀ g ∈ gs, g.operands.length < limits.maxOperands)
    (e : Expr) : (Group.closeAround limits e gs).events = gs.map note := by
  induction gs generalizing e with
  | nil => rfl
  | cons g gs ih =>
    obtain ⟨hg, hgs⟩ := List.forall_mem_cons.mp h
    simp only [Group.closeAround, Group.push, hg, if_true, Traced.events_bind,
      Traced.events_ofExcept, Traced.outcome_ofExcept, Traced.events_log, Traced.outcome_log,
      ih hgs]
    rfl

/-- **The end of the input is noted for every open group**, the innermost first. -/
theorem MayEnd.events_finish (hr : r.MayEnd limits) :
    (r.finish limits).events = r.groups.map note := by
  obtain ⟨forms, gs, opened⟩ := r
  obtain ⟨rfl, hroom⟩ := hr
  cases gs with
  | nil => rfl
  | cons g gs =>
    have hgs : ∀ g ∈ gs, g.operands.length < limits.maxOperands := hroom
    have hok : (Group.closeAround limits g.toExpr gs).outcome = .ok (Group.wrap g.toExpr gs) :=
      closeAround_eq_ok_iff.mpr ⟨hgs, rfl⟩
    simp only [finish, Traced.events_bind, Traced.events_log, Traced.outcome_log,
      events_closeAround hgs, hok]
    simp [note]

end Reader

/-! ### Reading -/

variable {limits : Limits} {r : Reader} {forms : List Expr}

/-- **The event notes that the input ended** in the group of an opening parenthesis. -/
def NotesUnclosed (event : Event) (t : Token) : Prop :=
  ∃ o, event = .unclosed o t.column

/-- What is noted at the end of a run are the unmatched parentheses. -/
theorem notesUnclosed_of_foldlM (hrun : ts.foldlM (Reader.step limits) Reader.start = .ok r)
    (hr : r.MayEnd limits) :
    List.Forall₂ NotesUnclosed (readForms limits ts).events (unmatchedOpens ts).reverse := by
  have hevents : (readForms limits ts).events = r.groups.map Reader.note := by
    rw [readForms, Traced.events_bind_of_ok (a := r) (by rw [Traced.outcome_ofExcept, hrun]),
      Traced.events_ofExcept, List.nil_append, hr.events_finish]
  have hcolumns : r.groups.map Group.column = (unmatchedOpens ts).reverse.map Token.column := by
    rw [List.map_reverse, ← Reader.columns_of_foldlM hrun, Reader.columns, hr.opened]
    rfl
  have hpairs : List.Forall₂ (fun g t => Group.column g = Token.column t) r.groups
      (unmatchedOpens ts).reverse := by
    rw [← List.forall₂_map_right_iff, ← List.forall₂_map_left_iff, hcolumns]
    exact List.forall₂_refl _
  rw [hevents, List.forall₂_map_left_iff]
  exact hpairs.imp fun g t hcolumn => ⟨g.operator, by rw [← hcolumn, Reader.note]⟩

/-- Where tokens that can be read end, there are as many groups open as parentheses show. -/
theorem exists_reader_of_readForms (h : (readForms limits ts).outcome = .ok forms) :
    ∃ r, ts.foldlM (Reader.step limits) Reader.start = .ok r ∧ r.MayEnd limits ∧ r.forest = forms ∧
      closes ts + r.groups.length = opens ts := by
  obtain ⟨r, hrun, hfinish⟩ := readForms_eq_ok_iff.mp h
  obtain ⟨hopened, hroom, rfl⟩ := Reader.finish_eq_ok_iff.mp hfinish
  refine ⟨r, hrun, ⟨hopened, hroom⟩, rfl, ?_⟩
  have hheight := (Reader.mirrors_of_foldlM hrun).height
  simp only [Reader.height, hopened, Option.isSome_none, Bool.false_eq_true, if_false] at hheight
  omega

/-- The run over tokens that can be read goes on over closing parentheses as long
as groups are open. -/
theorem exists_reader_append_closes (h : (readForms limits ts).outcome = .ok forms)
    (hcs : ∀ c ∈ cs, c.kind = .groupClose) (hlen : closes ts + cs.length ≤ opens ts) :
    ∃ r, (ts ++ cs).foldlM (Reader.step limits) Reader.start = .ok r ∧ r.MayEnd limits ∧
      r.forest = forms ∧ closes ts + cs.length + r.groups.length = opens ts := by
  obtain ⟨r, hrun, hr, rfl, hopen⟩ := exists_reader_of_readForms h
  obtain ⟨r', hrun', hr', hforest, hlen'⟩ := Reader.exists_foldlM_closes hr hcs (by omega)
  exact ⟨r', Reader.foldlM_append_eq_ok_iff.mpr ⟨r, hrun, hrun'⟩, hr', hforest, by omega⟩

/-- **Closing parentheses may be left out at the end.** If tokens are read, they close no more
groups than they open. Any closing parentheses behind them, up to the number of groups that are
open, give the same forms, and noted are exactly the opening parentheses that are then still
unmatched, each with its column and the innermost first. One closing parenthesis more is refused. -/
theorem missing_closes_are_implied (limits : Limits) (ts : List Token) (forms : List Expr)
    (h : (readForms limits ts).outcome = .ok forms) :
    closes ts ≤ opens ts ∧
    (∀ cs : List Token, (∀ c ∈ cs, c.kind = .groupClose) → closes ts + cs.length ≤ opens ts →
      (readForms limits (ts ++ cs)).outcome = .ok forms ∧
      closes ts + cs.length + (unmatchedOpens (ts ++ cs)).length = opens ts ∧
      List.Forall₂ NotesUnclosed (readForms limits (ts ++ cs)).events
        (unmatchedOpens (ts ++ cs)).reverse) ∧
    ∀ (cs : List Token) (c : Token), (∀ c ∈ cs, c.kind = .groupClose) → c.kind = .groupClose →
      closes ts + cs.length = opens ts →
      (readForms limits (ts ++ cs ++ [c])).outcome = .error (.unmatchedClose c.column) := by
  refine ⟨?_, ?_, ?_⟩
  · obtain ⟨r, -, -, -, hopen⟩ := exists_reader_of_readForms h
    omega
  · intro cs hcs hlen
    obtain ⟨r, hrun, hr, hforest, hopen⟩ := exists_reader_append_closes h hcs hlen
    have hcolumns := congrArg List.length (Reader.columns_of_foldlM hrun)
    simp only [Reader.columns, hr.opened, Option.toList_none, List.nil_append, List.length_map,
      List.length_reverse] at hcolumns
    refine ⟨?_, by omega, notesUnclosed_of_foldlM hrun hr⟩
    exact readForms_eq_ok_iff.mpr
      ⟨r, hrun, Reader.finish_eq_ok_iff.mpr ⟨hr.opened, hr.room, hforest.symm⟩⟩
  · intro cs c hcs hc hlen
    obtain ⟨r, hrun, hr, -, hopen⟩ := exists_reader_append_closes h hcs (Nat.le_of_eq hlen)
    -- all groups are closed, so the last parenthesis has nothing to close
    rw [hr.eq_of_length_eq_zero (by omega)] at hrun
    refine readForms_eq_error_iff.mpr (Or.inl (Reader.foldlM_eq_error_iff.mpr ?_))
    exact ⟨ts ++ cs, c, [], _, rfl, hrun, .unmatchedClose r.forms hc⟩

/-- `(+ (*` with one closing parenthesis and with three, where nothing may be nested deeper and no
call may have more operands. -/
theorem missing_closes_are_implied_at_limits :
    (readForms ⟨2, 1⟩ [⟨.groupOpen, "(", 1⟩, ⟨.procedure, "+", 2⟩, ⟨.groupOpen, "(", 4⟩,
        ⟨.procedure, "*", 5⟩]).outcome = .ok [.call .add [.call .mul []]] ∧
    (readForms ⟨2, 1⟩ [⟨.groupOpen, "(", 1⟩, ⟨.procedure, "+", 2⟩, ⟨.groupOpen, "(", 4⟩,
        ⟨.procedure, "*", 5⟩, ⟨.groupClose, ")", 6⟩]).outcome = .ok [.call .add [.call .mul []]] ∧
    List.Forall₂ NotesUnclosed
      (readForms ⟨2, 1⟩ [⟨.groupOpen, "(", 1⟩, ⟨.procedure, "+", 2⟩, ⟨.groupOpen, "(", 4⟩,
        ⟨.procedure, "*", 5⟩, ⟨.groupClose, ")", 6⟩]).events [⟨.groupOpen, "(", 1⟩] ∧
    (readForms ⟨2, 1⟩ [⟨.groupOpen, "(", 1⟩, ⟨.procedure, "+", 2⟩, ⟨.groupOpen, "(", 4⟩,
        ⟨.procedure, "*", 5⟩, ⟨.groupClose, ")", 6⟩, ⟨.groupClose, ")", 7⟩,
        ⟨.groupClose, ")", 9⟩]).outcome = .error (.unmatchedClose 9) := by
  have hread : (readForms ⟨2, 1⟩ [⟨.groupOpen, "(", 1⟩, ⟨.procedure, "+", 2⟩, ⟨.groupOpen, "(", 4⟩,
      ⟨.procedure, "*", 5⟩]).outcome = .ok [.call .add [.call .mul []]] := rfl
  obtain ⟨-, hsome, hmore⟩ := missing_closes_are_implied _ _ _ hread
  obtain ⟨hforms, -, hevents⟩ := hsome [⟨.groupClose, ")", 6⟩] (by simp) (by decide)
  have herror := hmore [⟨.groupClose, ")", 6⟩, ⟨.groupClose, ")", 7⟩] ⟨.groupClose, ")", 9⟩
    (by simp) rfl (by decide)
  exact ⟨hread, hforms, hevents, herror⟩

end CambridgePolish
