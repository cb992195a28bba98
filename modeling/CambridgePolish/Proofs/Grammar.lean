import CambridgePolish.Proofs.Reading

/-!
# The token lists that can be read

The reader works through the tokens with a stack of open groups. Which token lists it accepts can be
said without a stack, by conditions on prefixes and on single tokens (`Grammatical`): no prefix
closes more than it opens or opens more than the depth limit allows, an operator follows every
opening parenthesis, every other word has a value, and no group holds too many operands. The two
agree (`exists_readForms_iff_grammatical`).

The conditions speak of whole lists, and the reader of what is left to read. So each
condition is stated for the tokens that are still to come as well, given the groups that are
open already (`Reader.Fits`). The groups enter by their number and by the number of their
operands only. One token then takes the conditions of a reader to the conditions of the next
one (`Reader.fits_cons_iff`), and at the end of the input they say that the groups may be
closed (`Reader.fits_nil_iff`).
-/

namespace CambridgePolish

variable {t : Token} {ts : List Token} {level : Nat}

/-! ### The operands of a group -/

/-- Position `i` holds a value or the start of a group that stands **directly** in a group which is
open at the start of `ts`, with `level` more groups open inside of it there: before position `i`
these are closed and all that was opened is, and the group itself was never closed. -/
def IsItem (level : Nat) (ts : List Token) (i : Nat) : Prop :=
  (∃ t ∈ ts[i]?, t.kind ≠ .groupClose) ∧ closes (ts.take i) = opens (ts.take i) + level ∧
    ∀ j ≤ i, closes (ts.take j) ≤ opens (ts.take j) + level

instance (level : Nat) (ts : List Token) : DecidablePred (IsItem level ts) := fun _ =>
  inferInstanceAs (Decidable (_ ∧ _ ∧ _))

/-- **The number of values and groups** that stand directly in a group which is open at the start of
`ts`, up to its closing parenthesis or the end of `ts`; `level` more groups are open inside of it
there. -/
def itemsAt (level : Nat) (ts : List Token) : Nat :=
  (List.range ts.length).countP (IsItem level ts ·)

theorem isItem_zero : IsItem level (t :: ts) 0 ↔ t.kind ≠ .groupClose ∧ level = 0 := by
  simp [IsItem, eq_comm]

/-- The first token shifts the levels of all positions behind it. -/
theorem isItem_succ {i : Nat} :
    IsItem level (t :: ts) (i + 1) ↔
      (∃ u ∈ ts[i]?, u.kind ≠ .groupClose) ∧
        closes (t :: ts.take i) = opens (t :: ts.take i) + level ∧
          ∀ j ≤ i, closes (t :: ts.take j) ≤ opens (t :: ts.take j) + level := by
  simp only [IsItem, List.getElem?_cons_succ, List.take_succ_cons]
  refine and_congr_right fun _ => and_congr_right fun _ => ?_
  constructor
  · intro h j hj
    simpa only [List.take_succ_cons] using h (j + 1) (by omega)
  · intro h j hj
    cases j with
    | zero => simp
    | succ j => simpa only [List.take_succ_cons] using h j (by omega)

@[simp] theorem itemsAt_nil : itemsAt level [] = 0 := rfl

/-- Items are counted at the first token and behind it. -/
theorem itemsAt_cons_eq :
    itemsAt level (t :: ts) =
      (List.range ts.length).countP (fun i => IsItem level (t :: ts) (i + 1)) +
        if t.kind ≠ .groupClose ∧ level = 0 then 1 else 0 := by
  rw [itemsAt, List.length_cons, List.range_succ_eq_map, List.countP_cons, List.countP_map]
  simp only [decide_eq_true_eq, isItem_zero]
  rfl

/-- The start of a group is an item, and puts all that follows one level deeper. -/
theorem itemsAt_cons_open (h : t.kind = .groupOpen) :
    itemsAt level (t :: ts) = itemsAt (level + 1) ts + if level = 0 then 1 else 0 := by
  have hitem : ∀ i, IsItem level (t :: ts) (i + 1) ↔ IsItem (level + 1) ts i := fun i => by
    rw [isItem_succ, IsItem]
    simp [h, Nat.add_assoc, Nat.add_comm 1]
  rw [itemsAt_cons_eq]
  simp [hitem, itemsAt, h]

/-- The end of a group brings what follows one level up. -/
theorem itemsAt_cons_close (h : t.kind = .groupClose) :
    itemsAt (level + 1) (t :: ts) = itemsAt level ts := by
  have hitem : ∀ i, IsItem (level + 1) (t :: ts) (i + 1) ↔ IsItem level ts i := fun i => by
    rw [isItem_succ, IsItem]
    simp [h, ← Nat.add_assoc]
  rw [itemsAt_cons_eq]
  simp [hitem, itemsAt]

/-- Nothing behind its closing parenthesis belongs to a group. -/
theorem itemsAt_zero_cons_close (h : t.kind = .groupClose) : itemsAt 0 (t :: ts) = 0 := by
  have hitem : ∀ i, ¬IsItem 0 (t :: ts) (i + 1) := fun i hi => by
    have h0 := (isItem_succ.mp hi).2.2 0 (Nat.zero_le i)
    simp [h] at h0
  rw [itemsAt_cons_eq]
  simp [hitem, h]

/-- A value is an item, and leaves the levels alone. -/
theorem itemsAt_cons_value (hopen : t.kind ≠ .groupOpen) (hclose : t.kind ≠ .groupClose) :
    itemsAt level (t :: ts) = itemsAt level ts + if level = 0 then 1 else 0 := by
  have hitem : ∀ i, IsItem level (t :: ts) (i + 1) ↔ IsItem level ts i := fun i => by
    rw [isItem_succ, IsItem]
    simp [hopen, hclose]
  rw [itemsAt_cons_eq]
  simp [hitem, itemsAt, hclose]

/-! ### The grammar -/

/-- The token is written like an operator and is one. -/
def Token.IsHead (t : Token) : Prop :=
  t.kind = .procedure ∧ ∃ o, t.value = .ok (.operator o)

/-- **The token lists of the language**, under given limits. -/
structure Grammatical (limits : Limits) (ts : List Token) : Prop where
  /-- No prefix closes more groups than it opens. -/
  closed : ∀ p, p <+: ts → closes p ≤ opens p
  /-- Every opening parenthesis is followed by an operator. -/
  heads : ∀ p t s, ts = p ++ t :: s → t.kind = .groupOpen → ∃ u s', s = u :: s' ∧ u.IsHead
  /-- Every token that is no parenthesis and not directly behind an opening one has a value. -/
  values : ∀ p t s, ts = p ++ t :: s → t.kind ≠ .groupOpen → t.kind ≠ .groupClose →
    (∀ u ∈ p.getLast?, u.kind ≠ .groupOpen) → ∃ v, t.value = .ok v
  /-- No prefix has more groups open than the limit allows. -/
  depth : ∀ p, p <+: ts → (opens p : Int) - closes p ≤ limits.maxDepth
  /-- No group has more values and groups directly in it, behind its head, than the limit allows. -/
  operands : ∀ p t u s, ts = p ++ t :: u :: s → t.kind = .groupOpen →
    itemsAt 0 s ≤ limits.maxOperands

/-! ### The conditions on what is left to read -/

section Conditions

variable {limits : Limits} {bound height : Nat} {behindOpen : Bool}

/-- With `height` groups open at the start of `ts`, the number of open groups stays between zero and
`bound`. -/
def Levels (bound height : Nat) (ts : List Token) : Prop :=
  ∀ p, p <+: ts → closes p ≤ opens p + height ∧ opens p + height ≤ closes p + bound

/-- What stands behind an opening parenthesis starts with an operator and goes on with no more
operands than allowed. -/
def StartsGroup (limits : Limits) (ts : List Token) : Prop :=
  ∃ t s, ts = t :: s ∧ t.IsHead ∧ itemsAt 0 s ≤ limits.maxOperands

/-- Every opening parenthesis starts a group. -/
def StartsGroups (limits : Limits) (ts : List Token) : Prop :=
  ∀ p t s, ts = p ++ t :: s → t.kind = .groupOpen → StartsGroup limits s

/-- Every token that has to have a value has one; `behindOpen` says whether an opening parenthesis
stands directly before the first token. -/
def HasValues (behindOpen : Bool) (ts : List Token) : Prop :=
  ∀ p t s, ts = p ++ t :: s → t.kind ≠ .groupOpen → t.kind ≠ .groupClose →
    (p = [] → behindOpen = false) → (∀ u ∈ p.getLast?, u.kind ≠ .groupOpen) → ∃ v, t.value = .ok v

theorem levels_nil : Levels bound height [] ↔ height ≤ bound := by
  simp [Levels]

/-- The first prefix is the empty one, and every other one starts with the first token. -/
theorem levels_cons :
    Levels bound height (t :: ts) ↔ height ≤ bound ∧ ∀ p, p <+: ts →
      closes (t :: p) ≤ opens (t :: p) + height ∧
        opens (t :: p) + height ≤ closes (t :: p) + bound := by
  constructor
  · intro h
    exact ⟨by simpa using (h [] List.nil_prefix).2,
      fun p hp => h (t :: p) ((List.prefix_cons_inj t).mpr hp)⟩
  · rintro ⟨h0, h⟩ p hp
    rcases List.prefix_cons_iff.mp hp with rfl | ⟨q, rfl, hq⟩
    · simpa using h0
    · exact h q hq

theorem levels_cons_open (h : t.kind = .groupOpen) (hheight : height ≤ bound) :
    Levels bound height (t :: ts) ↔ Levels bound (height + 1) ts := by
  rw [levels_cons, and_iff_right hheight]
  simp only [Levels, opens_cons, closes_cons, h, if_true, reduceCtorEq, if_false]
  refine forall_congr' fun p => imp_congr_right fun _ => ?_
  omega

theorem levels_cons_close (h : t.kind = .groupClose) (hheight : height ≤ bound) :
    Levels bound height (t :: ts) ↔ ∃ lower, height = lower + 1 ∧ Levels bound lower ts := by
  rw [levels_cons, and_iff_right hheight]
  simp only [Levels, opens_cons, closes_cons, h, if_true, reduceCtorEq, if_false]
  constructor
  · intro hlev
    have hpos := (hlev [] List.nil_prefix).1
    simp only [closes_nil, opens_nil] at hpos
    refine ⟨height - 1, by omega, fun p hp => ?_⟩
    have := hlev p hp
    omega
  · rintro ⟨lower, rfl, hlev⟩ p hp
    have := hlev p hp
    omega

theorem levels_cons_value (hopen : t.kind ≠ .groupOpen) (hclose : t.kind ≠ .groupClose)
    (hheight : height ≤ bound) : Levels bound height (t :: ts) ↔ Levels bound height ts := by
  rw [levels_cons, and_iff_right hheight]
  simp [Levels, hopen, hclose]

theorem startsGroups_nil : StartsGroups limits [] := by
  intro p t s h
  simp at h

theorem startsGroups_cons :
    StartsGroups limits (t :: ts) ↔
      (t.kind = .groupOpen → StartsGroup limits ts) ∧ StartsGroups limits ts := by
  constructor
  · intro h
    refine ⟨h [] t ts rfl, fun p u s hts => h (t :: p) u s ?_⟩
    rw [hts, List.cons_append]
  · rintro ⟨hfirst, hrest⟩ p u s hts
    rcases List.cons_eq_append_iff.mp hts with ⟨rfl, hus⟩ | ⟨q, rfl, hq⟩
    · obtain ⟨rfl, rfl⟩ := List.cons.inj hus
      exact hfirst
    · exact hrest q u s hq

theorem hasValues_nil : HasValues behindOpen [] := by
  intro p t s h
  simp at h

theorem hasValues_cons :
    HasValues behindOpen (t :: ts) ↔
      (t.kind ≠ .groupOpen → t.kind ≠ .groupClose → behindOpen = false → ∃ v, t.value = .ok v) ∧
        HasValues (t.kind = .groupOpen) ts := by
  -- the token before a position is `t` exactly for the first position of `ts`
  have hlast : ∀ p : List Token, (∀ u ∈ (t :: p).getLast?, u.kind ≠ .groupOpen) ↔
      (p = [] → decide (t.kind = .groupOpen) = false) ∧ ∀ u ∈ p.getLast?, u.kind ≠ .groupOpen := by
    rintro (_ | ⟨a, p⟩)
    · simp
    · simp [List.getLast?_cons_cons]
  constructor
  · intro h
    refine ⟨fun hopen hclose hb => h [] t ts rfl hopen hclose (fun _ => hb) (by simp), ?_⟩
    intro p u s hts hopen hclose hfirst hprev
    exact h (t :: p) u s (by rw [hts, List.cons_append]) hopen hclose (by simp)
      ((hlast p).mpr ⟨hfirst, hprev⟩)
  · rintro ⟨hfirst, hrest⟩ p u s hts hopen hclose hb hprev
    rcases List.cons_eq_append_iff.mp hts with ⟨rfl, hus⟩ | ⟨q, rfl, hq⟩
    · obtain ⟨rfl, rfl⟩ := List.cons.inj hus
      exact hfirst hopen hclose (hb rfl)
    · obtain ⟨hq', hprev'⟩ := (hlast q).mp hprev
      exact hrest q u s hq hopen hclose hq' hprev'

end Conditions

namespace Reader

section Room

variable {bound : Nat} {gs : List Group}

/-- **Every open group has room** for the operands that it has, for the group that stands open
directly in it, and for all that are still to come. The first group has `level` open groups inside
of it, and every next one has one more. -/
def HasRoom (bound level : Nat) : List Group → List Token → Prop
  | [], _ => True
  | g :: gs, ts =>
    g.operands.length + min 1 level + itemsAt level ts ≤ bound ∧ HasRoom bound (level + 1) gs ts

/-- Every open group has room when the innermost is about to get one more operand. -/
def HasRoomForOne (bound : Nat) : List Group → List Token → Prop
  | [], _ => True
  | g :: gs, ts => g.operands.length + 1 + itemsAt 0 ts ≤ bound ∧ HasRoom bound 1 gs ts

/-- A group that opens counts as an operand to come before, and as an open one behind. -/
theorem hasRoom_cons_open (h : t.kind = .groupOpen) :
    HasRoom bound level gs (t :: ts) ↔ HasRoom bound (level + 1) gs ts := by
  induction gs generalizing level with
  | nil => exact Iff.rfl
  | cons g gs ih =>
    rw [HasRoom, HasRoom, ih, itemsAt_cons_open h]
    refine and_congr_left fun _ => ?_
    split_ifs <;> omega

/-- A value inside of an inner group does not concern the outer ones. -/
theorem hasRoom_succ_cons_value (hopen : t.kind ≠ .groupOpen) (hclose : t.kind ≠ .groupClose) :
    HasRoom bound (level + 1) gs (t :: ts) ↔ HasRoom bound (level + 1) gs ts := by
  induction gs generalizing level with
  | nil => exact Iff.rfl
  | cons g gs ih =>
    rw [HasRoom, HasRoom, ih, itemsAt_cons_value hopen hclose, if_neg (Nat.succ_ne_zero level)]
    rfl

/-- The end of a group further inside leaves a group open directly inside. -/
theorem hasRoom_succ_cons_close (h : t.kind = .groupClose) :
    HasRoom bound (level + 2) gs (t :: ts) ↔ HasRoom bound (level + 1) gs ts := by
  induction gs generalizing level with
  | nil => exact Iff.rfl
  | cons g gs ih =>
    rw [HasRoom, HasRoom, ih, itemsAt_cons_close h]
    refine and_congr_left fun _ => ?_
    omega

theorem hasRoom_cons_value (hopen : t.kind ≠ .groupOpen) (hclose : t.kind ≠ .groupClose) :
    HasRoom bound 0 gs (t :: ts) ↔ HasRoomForOne bound gs ts := by
  cases gs with
  | nil => exact Iff.rfl
  | cons g gs =>
    rw [HasRoom, HasRoomForOne, hasRoom_succ_cons_value hopen hclose,
      itemsAt_cons_value hopen hclose, if_pos rfl]
    refine and_congr_left fun _ => ?_
    omega

theorem hasRoom_cons_close (h : t.kind = .groupClose) :
    HasRoom bound 1 gs (t :: ts) ↔ HasRoomForOne bound gs ts := by
  cases gs with
  | nil => exact Iff.rfl
  | cons g gs =>
    rw [HasRoom, HasRoomForOne, hasRoom_succ_cons_close h, itemsAt_cons_close h]
    rfl

/-- When nothing is to come, every group needs room for the open group in it. -/
theorem hasRoom_nil_iff :
    HasRoom bound (level + 1) gs [] ↔ ∀ g ∈ gs, g.operands.length < bound := by
  induction gs generalizing level with
  | nil => simp [HasRoom]
  | cons g gs ih =>
    rw [HasRoom, ih, List.forall_mem_cons, itemsAt_nil]
    refine and_congr_left fun _ => ?_
    omega

end Room

/-- **The conditions on the tokens still to come**, given what has been read. -/
structure Fits (limits : Limits) (r : Reader) (ts : List Token) : Prop where
  levels : Levels limits.maxDepth (r.groups.length + r.opened.isSome.toNat) ts
  opened : r.opened.isSome → StartsGroup limits ts
  groups : StartsGroups limits ts
  values : HasValues r.opened.isSome ts
  room : HasRoom limits.maxOperands r.opened.isSome.toNat r.groups ts

/-- What has been read is within the limits. -/
structure Within (limits : Limits) (r : Reader) : Prop where
  depth : r.groups.length + r.opened.isSome.toNat ≤ limits.maxDepth
  operands : ∀ g ∈ r.groups, g.operands.length ≤ limits.maxOperands

variable {limits : Limits} {r r' : Reader} {e : Expr} {forms : List Expr} {gs : List Group}

theorem within_start : start.Within limits :=
  ⟨Nat.zero_le _, by simp [start]⟩

theorem Placed.within (h : Placed limits e r r') (hr : r.Within limits) : r'.Within limits := by
  obtain ⟨hdepth, hoperands⟩ := hr
  cases h with
  | form forms opened => exact ⟨hdepth, hoperands⟩
  | operand forms g gs opened hroom =>
    obtain ⟨-, hgs⟩ := List.forall_mem_cons.mp hoperands
    exact ⟨hdepth, List.forall_mem_cons.mpr ⟨hroom, hgs⟩⟩

/-- **One token keeps what has been read within the limits.** -/
theorem Stepped.within (h : Stepped limits t r r') (hr : r.Within limits) : r'.Within limits := by
  cases h with
  | head forms gs column o hkind hvalue =>
    exact ⟨hr.depth, List.forall_mem_cons.mpr ⟨Nat.zero_le _, hr.operands⟩⟩
  | opening forms gs hkind hdepth => exact ⟨hdepth, hr.operands⟩
  | closing forms g gs r' hkind hplaced =>
    refine hplaced.within ⟨?_, (List.forall_mem_cons.mp hr.operands).2⟩
    exact Nat.le_of_succ_le hr.depth
  | item forms gs v r' hopen hclose hvalue hplaced => exact hplaced.within hr

/-- **The input may end** exactly when the conditions hold with nothing to come. -/
theorem fits_nil_iff (hr : r.Within limits) :
    r.Fits limits [] ↔ ∃ forms, (r.finish limits).outcome = .ok forms := by
  simp only [finish_eq_ok_iff, exists_and_left, exists_eq, and_true]
  obtain ⟨forms, gs, _ | column⟩ := r
  · constructor
    · rintro ⟨-, -, -, -, hroom⟩
      cases gs with
      | nil => exact ⟨rfl, by simp⟩
      | cons g gs => exact ⟨rfl, hasRoom_nil_iff.mp hroom.2⟩
    · rintro ⟨-, htail⟩
      refine ⟨levels_nil.mpr hr.depth, nofun, startsGroups_nil, hasValues_nil, ?_⟩
      cases gs with
      | nil => trivial
      | cons g gs => exact ⟨hr.operands g List.mem_cons_self, hasRoom_nil_iff.mpr htail⟩
  · refine iff_of_false ?_ nofun
    rintro ⟨-, hopened, -⟩
    obtain ⟨t, s, hts, -⟩ := hopened rfl
    exact absurd hts nofun

/-- Placing an expression uses up the room for one operand in the innermost group. -/
theorem exists_placed_fits_iff :
    (∃ r', Placed limits e ⟨forms, gs, none⟩ r' ∧ r'.Fits limits ts) ↔
      Levels limits.maxDepth gs.length ts ∧ StartsGroups limits ts ∧ HasValues false ts ∧
        HasRoomForOne limits.maxOperands gs ts := by
  constructor
  · rintro ⟨r', hplaced, hlevels, -, hgroups, hvalues, hroom⟩
    cases hplaced with
    | form => exact ⟨hlevels, hgroups, hvalues, trivial⟩
    | operand _ g gs _ _ => exact ⟨hlevels, hgroups, hvalues, hroom⟩
  · rintro ⟨hlevels, hgroups, hvalues, hroom⟩
    cases gs with
    | nil => exact ⟨_, .form forms none, hlevels, nofun, hgroups, hvalues, trivial⟩
    | cons g gs =>
      have hlt : g.operands.length < limits.maxOperands :=
        Nat.lt_of_lt_of_le (Nat.lt_add_right _ (Nat.lt_succ_self _)) hroom.1
      exact ⟨_, .operand forms g gs none hlt, hlevels, nofun, hgroups, hvalues, hroom⟩

theorem fits_cons_head_iff {column : Nat} (hr : Within limits ⟨forms, gs, some column⟩) :
    Fits limits ⟨forms, gs, some column⟩ (t :: ts) ↔
      ∃ r', Stepped limits t ⟨forms, gs, some column⟩ r' ∧ r'.Fits limits ts := by
  constructor
  · rintro ⟨hlevels, hopened, hgroups, hvalues, hroom⟩
    obtain ⟨u, s, hts, ⟨hkind, o, hvalue⟩, hitems⟩ := hopened rfl
    obtain ⟨rfl, rfl⟩ := List.cons.inj hts
    have hopen : t.kind ≠ .groupOpen := by simp [hkind]
    have hclose : t.kind ≠ .groupClose := by simp [hkind]
    refine ⟨_, .head forms gs column o hkind hvalue, ?_, nofun, (startsGroups_cons.mp hgroups).2,
      ?_, ?_, (hasRoom_succ_cons_value hopen hclose).mp hroom⟩
    · exact (levels_cons_value hopen hclose hr.depth).mp hlevels
    · simpa [hkind] using (hasValues_cons.mp hvalues).2
    · simpa using hitems
  · rintro ⟨r', hstep, hlevels, -, hgroups, hvalues, hroom⟩
    cases hstep with
    | head _ _ _ o hkind hvalue =>
      obtain ⟨hitems, hroom⟩ := hroom
      have hopen : t.kind ≠ .groupOpen := by simp [hkind]
      have hclose : t.kind ≠ .groupClose := by simp [hkind]
      refine ⟨(levels_cons_value hopen hclose hr.depth).mpr hlevels, fun _ => ?_,
        startsGroups_cons.mpr ⟨fun h => absurd h hopen, hgroups⟩,
        hasValues_cons.mpr ⟨nofun, by simpa [hkind] using hvalues⟩,
        (hasRoom_succ_cons_value hopen hclose).mpr hroom⟩
      exact ⟨t, ts, rfl, ⟨hkind, o, hvalue⟩, by simpa using hitems⟩

theorem fits_cons_opening_iff (hr : Within limits ⟨forms, gs, none⟩) (hkind : t.kind = .groupOpen) :
    Fits limits ⟨forms, gs, none⟩ (t :: ts) ↔
      ∃ r', Stepped limits t ⟨forms, gs, none⟩ r' ∧ r'.Fits limits ts := by
  constructor
  · rintro ⟨hlevels, -, hgroups, hvalues, hroom⟩
    have hlevels := (levels_cons_open hkind hr.depth).mp hlevels
    obtain ⟨hstarts, hgroups⟩ := startsGroups_cons.mp hgroups
    have hdepth : gs.length < limits.maxDepth := by
      simpa [Nat.succ_le_iff] using (hlevels [] List.nil_prefix).2
    refine ⟨_, .opening forms gs hkind hdepth, hlevels, fun _ => hstarts hkind, hgroups, ?_,
      (hasRoom_cons_open hkind).mp hroom⟩
    simpa [hkind] using (hasValues_cons.mp hvalues).2
  · rintro ⟨r', hstep, hlevels, hopened, hgroups, hvalues, hroom⟩
    cases hstep with
    | opening =>
      exact ⟨(levels_cons_open hkind hr.depth).mpr hlevels, nofun,
        startsGroups_cons.mpr ⟨fun _ => hopened rfl, hgroups⟩,
        hasValues_cons.mpr ⟨fun h => absurd hkind h, by simpa [hkind] using hvalues⟩,
        (hasRoom_cons_open hkind).mpr hroom⟩
    | closing _ g gs _ hclose => exact absurd (hkind.symm.trans hclose) nofun
    | item _ _ v _ hopen => exact absurd hkind hopen

theorem fits_cons_closing_iff (hr : Within limits ⟨forms, gs, none⟩)
    (hkind : t.kind = .groupClose) :
    Fits limits ⟨forms, gs, none⟩ (t :: ts) ↔
      ∃ r', Stepped limits t ⟨forms, gs, none⟩ r' ∧ r'.Fits limits ts := by
  constructor
  · rintro ⟨hlevels, -, hgroups, hvalues, hroom⟩
    obtain ⟨lower, hlen, hlevels⟩ := (levels_cons_close hkind hr.depth).mp hlevels
    cases gs with
    | nil => exact absurd hlen nofun
    | cons g gs =>
      obtain rfl : gs.length = lower := Nat.succ.inj hlen
      have hvalues : HasValues false ts := by simpa [hkind] using (hasValues_cons.mp hvalues).2
      -- the group around has kept room for this one since it was opened
      obtain ⟨r', hplaced, hfits⟩ := exists_placed_fits_iff.mpr ⟨hlevels,
        (startsGroups_cons.mp hgroups).2, hvalues, (hasRoom_cons_close hkind).mp hroom.2⟩
      exact ⟨r', .closing forms g gs r' hkind hplaced, hfits⟩
  · rintro ⟨r', hstep, hfits⟩
    cases hstep with
    | opening _ _ hopen => exact absurd (hkind.symm.trans hopen) nofun
    | closing _ g gs _ _ hplaced =>
      obtain ⟨hlevels, hgroups, hvalues, hroom⟩ := exists_placed_fits_iff.mp ⟨r', hplaced, hfits⟩
      refine ⟨(levels_cons_close hkind hr.depth).mpr ⟨_, rfl, hlevels⟩, nofun,
        startsGroups_cons.mpr ⟨fun h => absurd (hkind.symm.trans h) nofun, hgroups⟩,
        hasValues_cons.mpr ⟨fun _ h => absurd hkind h, by simpa [hkind] using hvalues⟩,
        ?_, (hasRoom_cons_close hkind).mpr hroom⟩
      -- the group that ends gets no more operands, and has not too many so far
      rw [Option.isSome_none, Bool.toNat_false, itemsAt_zero_cons_close hkind]
      exact hr.operands g List.mem_cons_self
    | item _ _ v _ _ hclose => exact absurd hkind hclose

theorem fits_cons_item_iff (hr : Within limits ⟨forms, gs, none⟩) (hopen : t.kind ≠ .groupOpen)
    (hclose : t.kind ≠ .groupClose) :
    Fits limits ⟨forms, gs, none⟩ (t :: ts) ↔
      ∃ r', Stepped limits t ⟨forms, gs, none⟩ r' ∧ r'.Fits limits ts := by
  constructor
  · rintro ⟨hlevels, -, hgroups, hvalues, hroom⟩
    obtain ⟨hvalue, hvalues⟩ := hasValues_cons.mp hvalues
    obtain ⟨v, hv⟩ := hvalue hopen hclose rfl
    obtain ⟨r', hplaced, hfits⟩ := exists_placed_fits_iff.mpr
      ⟨(levels_cons_value hopen hclose hr.depth).mp hlevels, (startsGroups_cons.mp hgroups).2,
        by simpa [hopen] using hvalues, (hasRoom_cons_value hopen hclose).mp hroom⟩
    exact ⟨r', .item forms gs v r' hopen hclose hv hplaced, hfits⟩
  · rintro ⟨r', hstep, hfits⟩
    cases hstep with
    | opening _ _ hkind => exact absurd hkind hopen
    | closing _ g gs _ hkind => exact absurd hkind hclose
    | item _ _ v _ _ _ hvalue hplaced =>
      obtain ⟨hlevels, hgroups, hvalues, hroom⟩ := exists_placed_fits_iff.mp ⟨r', hplaced, hfits⟩
      exact ⟨(levels_cons_value hopen hclose hr.depth).mpr hlevels, nofun,
        startsGroups_cons.mpr ⟨fun h => absurd h hopen, hgroups⟩,
        hasValues_cons.mpr ⟨fun _ _ _ => ⟨v, hvalue⟩, by simpa [hopen] using hvalues⟩,
        (hasRoom_cons_value hopen hclose).mpr hroom⟩

/-- **One token** takes the conditions on what is left to read to those of the next reader. -/
theorem fits_cons_iff (hr : r.Within limits) :
    r.Fits limits (t :: ts) ↔ ∃ r', Stepped limits t r r' ∧ r'.Fits limits ts := by
  obtain ⟨forms, gs, _ | column⟩ := r
  · by_cases hopen : t.kind = .groupOpen
    · exact fits_cons_opening_iff hr hopen
    · by_cases hclose : t.kind = .groupClose
      · exact fits_cons_closing_iff hr hclose
      · exact fits_cons_item_iff hr hopen hclose
  · exact fits_cons_head_iff hr

/-- **A whole run**: it succeeds, and the input may end behind it, exactly when the conditions hold
at its start. -/
theorem fits_iff (hr : r.Within limits) :
    r.Fits limits ts ↔ ∃ r', ts.foldlM (step limits) r = .ok r' ∧
      ∃ forms, (r'.finish limits).outcome = .ok forms := by
  induction ts generalizing r with
  | nil =>
    rw [fits_nil_iff hr]
    exact ⟨fun h => ⟨r, rfl, h⟩, fun ⟨r', hr', h⟩ => Except.ok.inj hr' ▸ h⟩
  | cons t ts ih =>
    rw [fits_cons_iff hr]
    simp only [foldlM_cons_eq_ok_iff]
    constructor
    · rintro ⟨r₁, hstep, hfits⟩
      obtain ⟨r', hrun, hfinish⟩ := (ih (hstep.within hr)).mp hfits
      exact ⟨r', ⟨r₁, hstep, hrun⟩, hfinish⟩
    · rintro ⟨r', ⟨r₁, hstep, hrun⟩, hfinish⟩
      exact ⟨r₁, hstep, (ih (hstep.within hr)).mpr ⟨r', hrun, hfinish⟩⟩

/-- At the start the conditions are those of the grammar. -/
theorem fits_start_iff : start.Fits limits ts ↔ Grammatical limits ts := by
  constructor
  · rintro ⟨hlevels, -, hgroups, hvalues, -⟩
    refine ⟨fun p hp => (hlevels p hp).1, ?_, ?_, fun p hp => ?_, ?_⟩
    · intro p t s hts hkind
      obtain ⟨u, s', hs, hhead, -⟩ := hgroups p t s hts hkind
      exact ⟨u, s', hs, hhead⟩
    · intro p t s hts hopen hclose hprev
      exact hvalues p t s hts hopen hclose (fun _ => rfl) hprev
    · have hle := (hlevels p hp).2
      simp only [start, List.length_nil, Option.isSome_none, Bool.toNat_false] at hle
      omega
    · intro p t u s hts hkind
      obtain ⟨u', s', hs, -, hitems⟩ := hgroups p t (u :: s) hts hkind
      obtain ⟨-, rfl⟩ := List.cons.inj hs
      exact hitems
  · rintro ⟨hclosed, hheads, hvalues, hdepth, hoperands⟩
    refine ⟨fun p hp => ⟨hclosed p hp, ?_⟩, nofun, ?_, ?_, trivial⟩
    · have hle := hdepth p hp
      simp only [start, List.length_nil, Option.isSome_none, Bool.toNat_false]
      omega
    · intro p t s hts hkind
      obtain ⟨u, s', rfl, hhead⟩ := hheads p t s hts hkind
      exact ⟨u, s', rfl, hhead, hoperands p t u s' hts hkind⟩
    · intro p t s hts hopen hclose _ hprev
      exact hvalues p t s hts hopen hclose hprev

end Reader

/-- **Reading accepts exactly the grammar**: for any list of tokens and any limits. -/
theorem exists_readForms_iff_grammatical (limits : Limits) (ts : List Token) :
    (∃ forms, (readForms limits ts).outcome = .ok forms) ↔ Grammatical limits ts := by
  rw [← Reader.fits_start_iff, Reader.fits_iff Reader.within_start]
  simp only [readForms_eq_ok_iff]
  exact ⟨fun ⟨forms, r, hrun, h⟩ => ⟨r, hrun, forms, h⟩,
    fun ⟨r, hrun, forms, h⟩ => ⟨forms, r, hrun, h⟩⟩

end CambridgePolish
