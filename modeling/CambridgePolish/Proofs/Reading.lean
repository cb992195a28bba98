import CambridgePolish.Expr.Reader
import CambridgePolish.Proofs.Outcome
import Mathlib.Data.List.Induction

/-!
# What one token does to a reader

`Reader.Stepped` lists everything that a token can do to a reader, one constructor for each sort of
token, with the conditions under which it does; that the reading function does this and nothing else
is `Reader.step_eq_ok_iff`. Every invariant of reading is proved by cases on this relation, and
holds of a whole run by `Reader.run_induction`.

At the end of the input the open groups are closed. What they become is a matter of the reader alone
(`Reader.forest`), and whether they may become it is a matter of the limit on operands
(`Reader.finish_eq_ok_iff`).
-/

namespace CambridgePolish

/-! ### Parentheses -/

/-- The number of opening parentheses. -/
def opens (ts : List Token) : Nat :=
  ts.countP (·.kind = .groupOpen)

/-- The number of closing parentheses. -/
def closes (ts : List Token) : Nat :=
  ts.countP (·.kind = .groupClose)

variable {t : Token} {ts us : List Token}

@[simp] theorem opens_nil : opens [] = 0 := rfl

@[simp] theorem closes_nil : closes [] = 0 := rfl

@[simp] theorem opens_cons : opens (t :: ts) = opens ts + if t.kind = .groupOpen then 1 else 0 := by
  simp [opens, List.countP_cons]

@[simp] theorem closes_cons :
    closes (t :: ts) = closes ts + if t.kind = .groupClose then 1 else 0 := by
  simp [closes, List.countP_cons]

@[simp] theorem opens_append : opens (ts ++ us) = opens ts + opens us := by
  simp [opens]

@[simp] theorem closes_append : closes (ts ++ us) = closes ts + closes us := by
  simp [closes]

/-! ### One step -/

namespace Reader

/-- **Everything that placing an expression can do**: it becomes a form if no group is open, and an
operand of the innermost group if that has room. -/
inductive Placed (limits : Limits) (e : Expr) : Reader → Reader → Prop
  /-- No group is open. -/
  | form (forms : List Expr) (opened : Option Nat) :
    Placed limits e ⟨forms, [], opened⟩ ⟨e :: forms, [], opened⟩
  /-- The innermost open group has room. -/
  | operand (forms : List Expr) (g : Group) (gs : List Group) (opened : Option Nat)
    (room : g.operands.length < limits.maxOperands) :
    Placed limits e ⟨forms, g :: gs, opened⟩
      ⟨forms, { g with operands := e :: g.operands } :: gs, opened⟩

/-- **Everything that a token can do** to a reader. -/
inductive Stepped (limits : Limits) (t : Token) : Reader → Reader → Prop
  /-- The operator of a group that was just opened. -/
  | head (forms : List Expr) (gs : List Group) (column : Nat) (o : Operator)
    (kind : t.kind = .procedure) (value : t.value = .ok (.operator o)) :
    Stepped limits t ⟨forms, gs, some column⟩ ⟨forms, ⟨o, column, []⟩ :: gs, none⟩
  /-- The start of a group. -/
  | opening (forms : List Expr) (gs : List Group) (kind : t.kind = .groupOpen)
    (depth : gs.length < limits.maxDepth) :
    Stepped limits t ⟨forms, gs, none⟩ ⟨forms, gs, some t.column⟩
  /-- The end of the innermost group. -/
  | closing (forms : List Expr) (g : Group) (gs : List Group) (r : Reader)
    (kind : t.kind = .groupClose) (placed : Placed limits g.toExpr ⟨forms, gs, none⟩ r) :
    Stepped limits t ⟨forms, g :: gs, none⟩ r
  /-- A value. -/
  | item (forms : List Expr) (gs : List Group) (v : Value) (r : Reader)
    (notOpen : t.kind ≠ .groupOpen) (notClose : t.kind ≠ .groupClose) (value : t.value = .ok v)
    (placed : Placed limits (.atom v) ⟨forms, gs, none⟩ r) :
    Stepped limits t ⟨forms, gs, none⟩ r

variable {limits : Limits} {r r' : Reader} {e : Expr} {forms : List Expr}

theorem place_eq_ok_iff : r.place limits e = .ok r' ↔ Placed limits e r r' := by
  obtain ⟨forms, _ | ⟨g, gs⟩, opened⟩ := r
  · simp only [place, Except.ok.injEq]
    constructor
    · rintro rfl
      exact .form forms opened
    · rintro ⟨⟩
      rfl
  · simp only [place, Group.push, bind_eq_ok_iff]
    constructor
    · rintro ⟨g', hpush, hr⟩
      split_ifs at hpush with hroom
      obtain rfl := Except.ok.inj hpush
      obtain rfl := Except.ok.inj hr
      exact .operand forms g gs opened hroom
    · rintro ⟨⟩
      next hroom => exact ⟨_, if_pos hroom, rfl⟩

theorem readHead_eq_ok_iff {gs : List Group} {column : Nat} :
    readHead ⟨forms, gs, some column⟩ column t = .ok r' ↔
      Stepped limits t ⟨forms, gs, some column⟩ r' := by
  constructor
  · intro h
    rw [readHead] at h
    split at h
    · exact absurd h nofun
    · next hkind =>
      obtain ⟨v, hvalue, h⟩ := bind_eq_ok_iff.mp h
      split at h
      · obtain rfl := Except.ok.inj h
        exact .head forms gs column _ hkind hvalue
      · exact absurd h nofun
    · exact absurd h nofun
  · rintro ⟨⟩
    next o hkind hvalue =>
      rw [readHead, hkind]
      exact bind_eq_ok_iff.mpr ⟨_, hvalue, rfl⟩

theorem readItem_eq_ok_iff {gs : List Group} :
    readItem limits ⟨forms, gs, none⟩ t = .ok r' ↔ Stepped limits t ⟨forms, gs, none⟩ r' := by
  constructor
  · intro h
    rw [readItem] at h
    split at h
    · next hkind =>
      split_ifs at h with hdepth
      obtain rfl := Except.ok.inj h
      exact .opening forms gs hkind hdepth
    · next hkind =>
      cases gs with
      | nil => exact absurd h nofun
      | cons g gs => exact .closing forms g gs r' hkind (place_eq_ok_iff.mp h)
    · next hopen hclose =>
      obtain ⟨v, hvalue, h⟩ := bind_eq_ok_iff.mp h
      exact .item forms gs v r' hopen hclose hvalue (place_eq_ok_iff.mp h)
  · intro h
    rw [readItem]
    cases h with
    | opening _ _ hkind hdepth =>
      rw [hkind]
      exact if_pos hdepth
    | closing _ g gs _ hkind hplaced =>
      rw [hkind]
      exact place_eq_ok_iff.mpr hplaced
    | item _ _ v _ hopen hclose hvalue hplaced =>
      split
      · next hkind => exact absurd hkind hopen
      · next hkind => exact absurd hkind hclose
      · exact bind_eq_ok_iff.mpr ⟨v, hvalue, place_eq_ok_iff.mpr hplaced⟩

/-- **A step does what `Stepped` lists**, and nothing else. -/
theorem step_eq_ok_iff : step limits r t = .ok r' ↔ Stepped limits t r r' := by
  obtain ⟨forms, gs, _ | column⟩ := r
  · exact readItem_eq_ok_iff
  · exact readHead_eq_ok_iff

/-- A run over a token and more is a step and a run. -/
theorem foldlM_cons_eq_ok_iff :
    (t :: ts).foldlM (step limits) r = .ok r' ↔
      ∃ r₁, Stepped limits t r r₁ ∧ ts.foldlM (step limits) r₁ = .ok r' := by
  simp only [List.foldlM_cons, bind_eq_ok_iff, step_eq_ok_iff]

/-- A run over two lists is a run over the first and a run over the second. -/
theorem foldlM_append_eq_ok_iff :
    (ts ++ us).foldlM (step limits) r = .ok r' ↔
      ∃ r₁, ts.foldlM (step limits) r = .ok r₁ ∧ us.foldlM (step limits) r₁ = .ok r' := by
  rw [List.foldlM_append, bind_eq_ok_iff]

/-- **Induction along a run**: what holds of nothing read, and is kept by every token, holds of a
reader and the tokens it has read. -/
theorem run_induction {P : List Token → Reader → Prop} (hstart : P [] start)
    (hstep : ∀ ts t r r', P ts r → Stepped limits t r r' → P (ts ++ [t]) r')
    (h : ts.foldlM (step limits) start = .ok r) : P ts r := by
  induction ts using List.reverseRecOn generalizing r with
  | nil => exact Except.ok.inj h ▸ hstart
  | append_singleton ts t ih =>
    obtain ⟨r₁, hrun, hlast⟩ := foldlM_append_eq_ok_iff.mp h
    obtain ⟨r₂, hstepped, hr₂⟩ := foldlM_cons_eq_ok_iff.mp hlast
    obtain rfl : r₂ = r := Except.ok.inj hr₂
    exact hstep ts t r₁ r₂ (ih hrun) hstepped

end Reader

/-! ### The end of the input -/

/-- The call that open groups become, the innermost first, when `e` is the last operand of the
innermost and all of them end behind it. -/
def Group.wrap (e : Expr) : List Group → Expr
  | [] => e
  | g :: gs => wrap (.call g.operator (g.operands.reverse ++ [e])) gs

namespace Reader

/-- **The forms that a reader holds** when its open groups are taken as closed. -/
def forest (r : Reader) : List Expr :=
  match r.groups with
  | [] => r.forms.reverse
  | g :: gs => r.forms.reverse ++ [Group.wrap g.toExpr gs]

variable {limits : Limits} {r r' : Reader} {e e' : Expr} {forms : List Expr} {gs : List Group}

/-- Groups can be closed around an expression when all of them have room for one more operand. -/
theorem closeAround_eq_ok_iff :
    (Group.closeAround limits e gs).outcome = .ok e' ↔
      (∀ g ∈ gs, g.operands.length < limits.maxOperands) ∧ e' = Group.wrap e gs := by
  induction gs generalizing e with
  | nil => simp [Group.closeAround, Group.wrap, eq_comm]
  | cons g gs ih =>
    simp only [Group.closeAround, Traced.outcome_bind_eq_ok_iff, Traced.outcome_ofExcept,
      Traced.outcome_log_bind, Group.push, List.forall_mem_cons, Group.wrap]
    constructor
    · rintro ⟨g', hpush, h⟩
      split_ifs at hpush with hroom
      obtain rfl := Except.ok.inj hpush
      obtain ⟨hrooms, rfl⟩ := ih.mp h
      exact ⟨⟨hroom, hrooms⟩, by rw [Group.toExpr, List.reverse_cons]⟩
    · rintro ⟨⟨hroom, hrooms⟩, rfl⟩
      refine ⟨_, if_pos hroom, ih.mpr ⟨hrooms, ?_⟩⟩
      rw [Group.toExpr, List.reverse_cons]

/-- **The input may end** where no operator has to come next and each open group but the innermost
has room for the group inside it. -/
theorem finish_eq_ok_iff :
    (r.finish limits).outcome = .ok forms ↔
      r.opened = none ∧ (∀ g ∈ r.groups.tail, g.operands.length < limits.maxOperands) ∧
        forms = r.forest := by
  obtain ⟨fs, _ | ⟨g, gs⟩, _ | column⟩ := r
  · simp [finish, forest, eq_comm]
  · simp [finish, Traced.fail]
  · simp only [finish, forest, Traced.outcome_bind_eq_ok_iff, Traced.outcome_log_bind,
      closeAround_eq_ok_iff, Traced.outcome_pure, Except.ok.injEq, List.tail_cons, true_and]
    constructor
    · rintro ⟨e, ⟨hrooms, rfl⟩, rfl⟩
      exact ⟨hrooms, List.reverse_cons⟩
    · rintro ⟨hrooms, rfl⟩
      exact ⟨_, ⟨hrooms, rfl⟩, List.reverse_cons⟩
  · simp [finish, Traced.fail]

end Reader

/-- **Reading succeeds** when the run does and the input may end behind it. -/
theorem readForms_eq_ok_iff {limits : Limits} {forms : List Expr} :
    (readForms limits ts).outcome = .ok forms ↔
      ∃ r, ts.foldlM (Reader.step limits) Reader.start = .ok r ∧
        (r.finish limits).outcome = .ok forms := by
  rw [readForms, Traced.outcome_bind_eq_ok_iff, Traced.outcome_ofExcept]

/-- One expression is read when there is one form. -/
theorem readForm_eq_ok_iff {limits : Limits} {e : Expr} :
    (readForm limits ts).outcome = .ok e ↔ (readForms limits ts).outcome = .ok [e] := by
  rw [readForm, Traced.outcome_bind_eq_ok_iff]
  constructor
  · rintro ⟨forms, hforms, h⟩
    split at h
    · exact absurd h nofun
    · obtain rfl := Except.ok.inj h
      exact hforms
    · exact absurd h nofun
  · intro h
    exact ⟨[e], h, rfl⟩

end CambridgePolish
