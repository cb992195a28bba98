import CambridgePolish.Proofs.Reading

/-!
# What a token is refused for

`Reader.Refused` lists everything that can be wrong with a token, given what has been read before
it, as `Reader.Stepped` lists everything that a token can do; a step fails for one of these
reasons and for no other (`Reader.step_eq_error_iff`). Reading fails at the first token that is
refused (`Reader.foldlM_eq_error_iff`), or at the end of the input (`Reader.finish_eq_error_iff`),
where only two things can be wrong: an operator is missing, or a group that has to be closed has
no room for the group inside of it.
-/

namespace CambridgePolish

/-! ### Tokens without a value -/

/-- **Every way a token can have no value**; the kind of the token decides which it is, and the
error names its text and its column. -/
theorem Token.value_eq_error_cases {t : Token} {err : ReadError} (h : t.value = .error err) :
    ((t.kind = .integer ∨ t.kind = .float) ∧ ∃ fault, err = .numeral t.text t.column fault) ∨
      t.kind = .procedure ∧ err = .unknownOperator t.text t.column ∨
      t.kind = .name ∧ err = .unknownName t.text t.column ∨
      (t.kind = .groupOpen ∨ t.kind = .groupClose ∨ t.kind = .nil) ∧
        err = .noValue t.kind t.text t.column := by
  rw [value] at h
  split at h
  · exact absurd h nofun
  · split at h
    · next hkind =>
      split at h
      · exact absurd h nofun
      · exact Or.inl ⟨Or.inl hkind, _, (Except.error.inj h).symm⟩
    · next hkind =>
      split at h
      · exact absurd h nofun
      · exact Or.inl ⟨Or.inr hkind, _, (Except.error.inj h).symm⟩
    · next hkind => exact Or.inr (Or.inl ⟨hkind, (Except.error.inj h).symm⟩)
    · next hkind => exact Or.inr (Or.inr (Or.inl ⟨hkind, (Except.error.inj h).symm⟩))
    · next hkind => exact Or.inr (Or.inr (Or.inr ⟨Or.inl hkind, (Except.error.inj h).symm⟩))
    · next hkind =>
      exact Or.inr (Or.inr (Or.inr ⟨Or.inr (Or.inl hkind), (Except.error.inj h).symm⟩))
    · next hkind =>
      exact Or.inr (Or.inr (Or.inr ⟨Or.inr (Or.inr hkind), (Except.error.inj h).symm⟩))

namespace Reader

variable {limits : Limits} {t : Token} {ts : List Token} {r : Reader} {e : Expr}
  {forms : List Expr} {g : Group} {gs : List Group} {err : ReadError}

/-! ### One step -/

/-- **There is no room** for an expression: the innermost open group is full. -/
inductive Crowded (limits : Limits) : Reader → ReadError → Prop
  | group (forms : List Expr) (g : Group) (gs : List Group) (opened : Option Nat)
    (full : limits.maxOperands ≤ g.operands.length) :
    Crowded limits ⟨forms, g :: gs, opened⟩
      (.tooManyOperands g.operator.symbol limits.maxOperands)

/-- **Everything that a token can be refused for.** -/
inductive Refused (limits : Limits) (t : Token) : Reader → ReadError → Prop
  /-- A group ends without an operator. -/
  | emptyGroup (forms : List Expr) (gs : List Group) (column : Nat) (kind : t.kind = .groupClose) :
    Refused limits t ⟨forms, gs, some column⟩ .empty
  /-- The head of a group has no value. -/
  | headValue (forms : List Expr) (gs : List Group) (column : Nat) (err : ReadError)
    (kind : t.kind = .procedure) (value : t.value = .error err) :
    Refused limits t ⟨forms, gs, some column⟩ err
  /-- The head of a group is bound to a number. -/
  | notAnOperator (forms : List Expr) (gs : List Group) (column : Nat) (v : Value)
    (kind : t.kind = .procedure) (value : t.value = .ok v) (number : ∀ o, v ≠ .operator o) :
    Refused limits t ⟨forms, gs, some column⟩ (.notAnOperator t.text t.column)
  /-- A group starts with something that is not written like an operator. -/
  | expectedOperator (forms : List Expr) (gs : List Group) (column : Nat)
    (notClose : t.kind ≠ .groupClose) (notProcedure : t.kind ≠ .procedure) :
    Refused limits t ⟨forms, gs, some column⟩ (.expectedOperator t.text t.column)
  /-- The start of a group too many. -/
  | tooDeep (forms : List Expr) (gs : List Group) (kind : t.kind = .groupOpen)
    (depth : limits.maxDepth ≤ gs.length) :
    Refused limits t ⟨forms, gs, none⟩ (.tooDeep limits.maxDepth)
  /-- The end of a group where none is open. -/
  | unmatchedClose (forms : List Expr) (kind : t.kind = .groupClose) :
    Refused limits t ⟨forms, [], none⟩ (.unmatchedClose t.column)
  /-- The end of a group that is an operand too many. -/
  | closing (forms : List Expr) (g : Group) (gs : List Group) (err : ReadError)
    (kind : t.kind = .groupClose) (crowded : Crowded limits ⟨forms, gs, none⟩ err) :
    Refused limits t ⟨forms, g :: gs, none⟩ err
  /-- A word has no value. -/
  | itemValue (forms : List Expr) (gs : List Group) (err : ReadError)
    (notOpen : t.kind ≠ .groupOpen) (notClose : t.kind ≠ .groupClose)
    (value : t.value = .error err) : Refused limits t ⟨forms, gs, none⟩ err
  /-- A value that is an operand too many. -/
  | item (forms : List Expr) (gs : List Group) (v : Value) (err : ReadError)
    (notOpen : t.kind ≠ .groupOpen) (notClose : t.kind ≠ .groupClose) (value : t.value = .ok v)
    (crowded : Crowded limits ⟨forms, gs, none⟩ err) : Refused limits t ⟨forms, gs, none⟩ err

theorem place_eq_error_iff : r.place limits e = .error err ↔ Crowded limits r err := by
  obtain ⟨forms, _ | ⟨g, gs⟩, opened⟩ := r
  · exact iff_of_false nofun nofun
  · unfold place
    rw [bind_eq_error_iff]
    constructor
    · rintro (hpush | ⟨g', -, hr⟩)
      · unfold Group.push at hpush
        split_ifs at hpush with hroom
        obtain rfl := Except.error.inj hpush
        exact .group forms g gs opened (Nat.le_of_not_lt hroom)
      · exact absurd hr nofun
    · rintro ⟨⟩
      next hfull => exact Or.inl (if_neg (Nat.not_lt_of_le hfull))

theorem readHead_eq_error_iff {column : Nat} :
    readHead ⟨forms, gs, some column⟩ column t = .error err ↔
      Refused limits t ⟨forms, gs, some column⟩ err := by
  constructor
  · intro h
    unfold readHead at h
    split at h
    · next hkind =>
      obtain rfl := Except.error.inj h
      exact .emptyGroup forms gs column hkind
    · next hkind =>
      rcases bind_eq_error_iff.mp h with hvalue | ⟨v, hvalue, h⟩
      · exact .headValue forms gs column err hkind hvalue
      · split at h
        · exact absurd h nofun
        · next hnumber =>
          obtain rfl := Except.error.inj h
          exact .notAnOperator forms gs column v hkind hvalue hnumber
    · next hclose hprocedure =>
      obtain rfl := Except.error.inj h
      exact .expectedOperator forms gs column hclose hprocedure
  · intro h
    rw [readHead]
    cases h with
    | emptyGroup _ _ _ hkind => rw [hkind]
    | headValue _ _ _ _ hkind hvalue =>
      rw [hkind]
      exact bind_eq_error_iff.mpr (Or.inl hvalue)
    | notAnOperator _ _ _ v hkind hvalue hnumber =>
      rw [hkind]
      refine bind_eq_error_iff.mpr (Or.inr ⟨v, hvalue, ?_⟩)
      split
      · next o => exact absurd rfl (hnumber o)
      · rfl
    | expectedOperator _ _ _ hclose hprocedure =>
      split
      · next hkind => exact absurd hkind hclose
      · next hkind => exact absurd hkind hprocedure
      · rfl

theorem readItem_eq_error_iff :
    readItem limits ⟨forms, gs, none⟩ t = .error err ↔ Refused limits t ⟨forms, gs, none⟩ err := by
  constructor
  · intro h
    rw [readItem] at h
    split at h
    · next hkind =>
      split_ifs at h with hdepth
      obtain rfl := Except.error.inj h
      exact .tooDeep forms gs hkind (Nat.le_of_not_lt hdepth)
    · next hkind =>
      cases gs with
      | nil =>
        obtain rfl := Except.error.inj h
        exact .unmatchedClose forms hkind
      | cons g gs => exact .closing forms g gs err hkind (place_eq_error_iff.mp h)
    · next hopen hclose =>
      rcases bind_eq_error_iff.mp h with hvalue | ⟨v, hvalue, h⟩
      · exact .itemValue forms gs err hopen hclose hvalue
      · exact .item forms gs v err hopen hclose hvalue (place_eq_error_iff.mp h)
  · intro h
    rw [readItem]
    cases h with
    | tooDeep _ _ hkind hdepth =>
      rw [hkind]
      exact if_neg (Nat.not_lt_of_le hdepth)
    | unmatchedClose _ hkind => rw [hkind]
    | closing _ g gs _ hkind hcrowded =>
      rw [hkind]
      exact place_eq_error_iff.mpr hcrowded
    | itemValue _ _ _ hopen hclose hvalue =>
      split
      · next hkind => exact absurd hkind hopen
      · next hkind => exact absurd hkind hclose
      · exact bind_eq_error_iff.mpr (Or.inl hvalue)
    | item _ _ v _ hopen hclose hvalue hcrowded =>
      split
      · next hkind => exact absurd hkind hopen
      · next hkind => exact absurd hkind hclose
      · exact bind_eq_error_iff.mpr (Or.inr ⟨v, hvalue, place_eq_error_iff.mpr hcrowded⟩)

/-- **A step fails for what `Refused` lists**, and for nothing else. -/
theorem step_eq_error_iff : step limits r t = .error err ↔ Refused limits t r err := by
  obtain ⟨forms, gs, _ | column⟩ := r
  · exact readItem_eq_error_iff
  · exact readHead_eq_error_iff

/-- **A run fails at the first token that is refused.** -/
theorem foldlM_eq_error_iff :
    ts.foldlM (step limits) r = .error err ↔ ∃ us t vs r₁,
      ts = us ++ t :: vs ∧ us.foldlM (step limits) r = .ok r₁ ∧ Refused limits t r₁ err := by
  induction ts generalizing r with
  | nil =>
    refine iff_of_false nofun ?_
    rintro ⟨us, t, vs, r₁, hts, -⟩
    exact absurd hts (by simp)
  | cons t ts ih =>
    rw [List.foldlM_cons, bind_eq_error_iff]
    constructor
    · rintro (hstep | ⟨r₂, hstep, hrun⟩)
      · exact ⟨[], t, ts, r, rfl, rfl, step_eq_error_iff.mp hstep⟩
      · obtain ⟨us, u, vs, r₁, rfl, hrun, hrefused⟩ := ih.mp hrun
        refine ⟨t :: us, u, vs, r₁, rfl, ?_, hrefused⟩
        exact foldlM_cons_eq_ok_iff.mpr ⟨r₂, step_eq_ok_iff.mp hstep, hrun⟩
    · rintro ⟨_ | ⟨u, us⟩, u', vs, r₁, hts, hrun, hrefused⟩
      · obtain ⟨rfl, rfl⟩ := List.cons.inj hts
        obtain rfl := Except.ok.inj hrun
        exact Or.inl (step_eq_error_iff.mpr hrefused)
      · obtain ⟨rfl, rfl⟩ := List.cons.inj hts
        obtain ⟨r₂, hstep, hrun⟩ := foldlM_cons_eq_ok_iff.mp hrun
        exact Or.inr ⟨r₂, step_eq_ok_iff.mpr hstep, ih.mpr ⟨us, u', vs, r₁, rfl, hrun, hrefused⟩⟩

/-! ### The end of the input -/

/-- Groups cannot be closed around an expression when one of them is full; the innermost such one is
named. -/
theorem closeAround_eq_error_iff :
    (Group.closeAround limits e gs).outcome = .error err ↔ ∃ inner g outer,
      gs = inner ++ g :: outer ∧ (∀ h ∈ inner, h.operands.length < limits.maxOperands) ∧
        limits.maxOperands ≤ g.operands.length ∧
          err = .tooManyOperands g.operator.symbol limits.maxOperands := by
  induction gs generalizing e with
  | nil => simp [Group.closeAround]
  | cons g gs ih =>
    simp only [Group.closeAround, Traced.outcome_bind_eq_error_iff, Traced.outcome_ofExcept,
      Traced.outcome_log_bind, Group.push, ih]
    constructor
    · rintro (hpush | ⟨g', hpush, inner, h, outer, rfl, hrooms, hfull, rfl⟩)
      · split_ifs at hpush with hroom
        exact ⟨[], g, gs, rfl, by simp, Nat.le_of_not_lt hroom, (Except.error.inj hpush).symm⟩
      · split_ifs at hpush with hroom
        exact ⟨g :: inner, h, outer, rfl, List.forall_mem_cons.mpr ⟨hroom, hrooms⟩, hfull, rfl⟩
    · rintro ⟨_ | ⟨g', inner⟩, h, outer, hgs, hrooms, hfull, rfl⟩
      · obtain ⟨rfl, rfl⟩ := List.cons.inj hgs
        exact Or.inl (if_neg (Nat.not_lt_of_le hfull))
      · obtain ⟨rfl, rfl⟩ := List.cons.inj hgs
        obtain ⟨hroom, hrooms⟩ := List.forall_mem_cons.mp hrooms
        exact Or.inr ⟨_, if_pos hroom, inner, h, outer, rfl, hrooms, hfull, rfl⟩

/-- **The input may not end** where an operator has to come next, or where an open group has no room
for the group inside of it. -/
theorem finish_eq_error_iff :
    (r.finish limits).outcome = .error err ↔
      r.opened.isSome ∧ err = .empty ∨
      r.opened = none ∧ ∃ inner g outer, r.groups.tail = inner ++ g :: outer ∧
        (∀ h ∈ inner, h.operands.length < limits.maxOperands) ∧
          limits.maxOperands ≤ g.operands.length ∧
            err = .tooManyOperands g.operator.symbol limits.maxOperands := by
  obtain ⟨fs, _ | ⟨g, gs⟩, _ | column⟩ := r
  · simp [finish]
  · simp [finish, Traced.fail, eq_comm]
  · simp only [finish, Traced.outcome_bind_eq_error_iff, Traced.outcome_log_bind,
      closeAround_eq_error_iff, Traced.outcome_pure, reduceCtorEq, and_false, exists_false,
      or_false, Option.isSome_none, Bool.false_eq_true, false_and, false_or, true_and,
      List.tail_cons]
  · simp [finish, Traced.fail, eq_comm]

end Reader

variable {limits : Limits} {ts : List Token} {err : ReadError}

/-- **Reading fails** when the run does, or when the input may not end behind it. -/
theorem readForms_eq_error_iff :
    (readForms limits ts).outcome = .error err ↔
      ts.foldlM (Reader.step limits) Reader.start = .error err ∨
        ∃ r, ts.foldlM (Reader.step limits) Reader.start = .ok r ∧
          (r.finish limits).outcome = .error err := by
  rw [readForms, Traced.outcome_bind_eq_error_iff, Traced.outcome_ofExcept]

/-- One expression is not read when nothing is, or when there is no form or more than one. -/
theorem readForm_eq_error_iff :
    (readForm limits ts).outcome = .error err ↔
      (readForms limits ts).outcome = .error err ∨
        (readForms limits ts).outcome = .ok [] ∧ err = .empty ∨
          ∃ forms, (readForms limits ts).outcome = .ok forms ∧ 2 ≤ forms.length ∧
            err = .severalForms forms.length := by
  unfold readForm
  rw [Traced.outcome_bind_eq_error_iff]
  refine or_congr_right ?_
  constructor
  · rintro ⟨forms, hforms, h⟩
    match forms, h with
    | [], h => exact Or.inl ⟨hforms, (Except.error.inj h).symm⟩
    | e :: f :: fs, h =>
      exact Or.inr ⟨e :: f :: fs, hforms, by simp, (Except.error.inj h).symm⟩
  · rintro (⟨hforms, rfl⟩ | ⟨forms, hforms, hlen, rfl⟩)
    · exact ⟨[], hforms, rfl⟩
    · refine ⟨forms, hforms, ?_⟩
      match forms, hlen with
      | e :: f :: fs, _ => rfl

end CambridgePolish
