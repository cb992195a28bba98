import CambridgePolish.Proofs.Nodes
import CambridgePolish.Proofs.Reading
import Mathlib.Data.List.Basic

/-!
# The expressions and the tokens they were read from

A walk through expressions in preorder meets each node once (`Expr.visitsOf`), and a walk through
the tokens meets each word that is no parenthesis once (`tokenVisits`). Both note the same three
things: how deep they are, what stands there, and whether it is the head of a call. After a
successful reading the two walks note the same list (`visitsOf_readForms`), so no token was lost,
repeated or moved; and since the walk with its depths determines the expressions
(`Expr.visitsOf_injective`), no others would do.

The invariant behind this is that a reader never holds anything else than the visits of the tokens
read so far (`Reader.Stepped.visits_eq`): a closing parenthesis moves a group into another one, and
the walk does not see it.
-/

namespace CambridgePolish

/-- What a walk notes of one node or word. -/
structure Visit where
  /-- How many calls are around, a call that starts here included. -/
  level : Int
  /-- What stands there. -/
  value : Except ReadError Value
  /-- Whether a call starts here. -/
  isCall : Bool

/-- How many calls are around, a call that starts here not included. -/
def Visit.above (n : Visit) : Int :=
  if n.isCall then n.level - 1 else n.level

/-! ### The walk through expressions -/

namespace Expr

/-- The expression is a call. -/
def isCall : Expr → Bool
  | .atom _ => false
  | .call _ _ => true

mutual

/-- **The visits of an expression** with `level` calls around it, in preorder. -/
def visits (level : Int) : Expr → List Visit
  | .atom v => [⟨level, .ok v, false⟩]
  | .call o es => ⟨level + 1, .ok (.operator o), true⟩ :: visitsOf (level + 1) es

/-- The visits of a list of expressions with `level` calls around them. -/
def visitsOf (level : Int) : List Expr → List Visit
  | [] => []
  | e :: es => visits level e ++ visitsOf level es

end

variable {level : Int} {e : Expr} {es fs : List Expr}

@[simp] theorem visitsOf_append :
    visitsOf level (es ++ fs) = visitsOf level es ++ visitsOf level fs := by
  induction es with
  | nil => rfl
  | cons e es ih => rw [List.cons_append, visitsOf, visitsOf, ih, List.append_assoc]

theorem visitsOf_singleton : visitsOf level [e] = visits level e := by
  rw [visitsOf, visitsOf, List.append_nil]

/-- The list of nodes is the walk without the levels. -/
theorem map_visits (level : Int) (e : Expr) :
    (visits level e).map (fun n => (n.value, n.isCall)) =
      e.nodes.map fun n => (.ok n.head, n.isCall) := by
  induction e generalizing level with
  | atom v => rfl
  | call o es ih =>
    have hes : (visitsOf (level + 1) es).map (fun n => (n.value, n.isCall)) =
        (nodesOf es).map fun n => (.ok n.head, n.isCall) := by
      induction es with
      | nil => rfl
      | cons e es ihes =>
        rw [visitsOf, nodesOf, List.map_append, List.map_append, ih e (by simp),
          ihes fun f hf => ih f (by simp [hf])]
    rw [visits, nodes, List.map_cons, List.map_cons, hes]
    rfl

/-- As many calls are visited as there are. -/
theorem countP_isCall_visitsOf :
    (visitsOf level es).countP (·.isCall) = (nodesOf es).countP isCall := by
  induction es with
  | nil => rfl
  | cons e es ih =>
    have he := congrArg (List.countP Prod.snd) (map_visits level e)
    rw [List.countP_map, List.countP_map] at he
    rw [visitsOf, nodesOf, List.countP_append, List.countP_append, ih]
    exact congrArg (· + _) he

/-! ### The walk determines the expressions -/

/-- The first visit of an expression has the calls above it that the expression has. -/
theorem exists_visits_eq_cons (level : Int) (e : Expr) :
    ∃ n ns, visits level e = n :: ns ∧ n.above = level := by
  cases e with
  | atom v => exact ⟨_, _, rfl, rfl⟩
  | call o es => exact ⟨_, _, rfl, Int.add_sub_cancel level 1⟩

/-- Behind the expressions of a level, a walk is back above the level. -/
def Leaves (level : Int) (ns : List Visit) : Prop :=
  ∀ n ∈ ns.head?, n.above < level

theorem leaves_visitsOf_append {ns : List Visit} (h : Leaves level ns) :
    Leaves (level + 1) (visitsOf level es ++ ns) := by
  cases es with
  | nil =>
    intro n hn
    have := h n hn
    omega
  | cons e es =>
    obtain ⟨m, ms, hms, hm⟩ := exists_visits_eq_cons level e
    intro n hn
    rw [visitsOf, hms] at hn
    obtain rfl : m = n := by simpa using hn
    omega

/-- No expression is visited where a walk has left the level. -/
theorem not_leaves_visitsOf_cons {ns : List Visit} :
    ¬Leaves level (visitsOf level (e :: es) ++ ns) := by
  intro h
  obtain ⟨m, ms, hms, hm⟩ := exists_visits_eq_cons level e
  rw [visitsOf, hms] at h
  have := h m rfl
  omega

/-- **Reading a walk back**: where the visits of a level end is seen from the next visit, so the
visits of a list of expressions cannot be those of another one, whatever follows. -/
theorem visitsOf_append_inj : ∀ (level : Int) (es fs : List Expr) (ms ns : List Visit),
    Leaves level ms → Leaves level ns →
    visitsOf level es ++ ms = visitsOf level fs ++ ns → es = fs ∧ ms = ns
  | level, [], [], ms, ns, _, _, h => ⟨rfl, h⟩
  | level, [], f :: fs, ms, ns, hms, _, h => by
    have hms : Leaves level (visitsOf level (f :: fs) ++ ns) := h ▸ hms
    exact absurd hms not_leaves_visitsOf_cons
  | level, e :: es, [], ms, ns, _, hns, h => by
    have hns : Leaves level (visitsOf level (e :: es) ++ ms) := h.symm ▸ hns
    exact absurd hns not_leaves_visitsOf_cons
  | level, .atom v :: es, .atom w :: fs, ms, ns, hms, hns, h => by
    have h' : v = w ∧ visitsOf level es ++ ms = visitsOf level fs ++ ns := by
      simpa [visitsOf, visits] using h
    obtain ⟨rfl, hrest⟩ := h'
    obtain ⟨rfl, rfl⟩ := visitsOf_append_inj level es fs ms ns hms hns hrest
    exact ⟨rfl, rfl⟩
  | level, .atom v :: es, .call p fs₁ :: fs, ms, ns, _, _, h => by
    simp [visitsOf, visits] at h
  | level, .call o es₁ :: es, .atom w :: fs, ms, ns, _, _, h => by
    simp [visitsOf, visits] at h
  | level, .call o es₁ :: es, .call p fs₁ :: fs, ms, ns, hms, hns, h => by
    have h' : o = p ∧ visitsOf (level + 1) es₁ ++ (visitsOf level es ++ ms) =
        visitsOf (level + 1) fs₁ ++ (visitsOf level fs ++ ns) := by
      simpa [visitsOf, visits] using h
    obtain ⟨rfl, hin⟩ := h'
    -- to the operands, the rest of this level is what follows them
    obtain ⟨rfl, hrest⟩ := visitsOf_append_inj (level + 1) es₁ fs₁ _ _
      (leaves_visitsOf_append hms) (leaves_visitsOf_append hns) hin
    obtain ⟨rfl, rfl⟩ := visitsOf_append_inj level es fs ms ns hms hns hrest
    exact ⟨rfl, rfl⟩

/-- **The walk determines the expressions.** -/
theorem visitsOf_injective (level : Int) : Function.Injective (visitsOf level) := by
  intro es fs h
  refine (visitsOf_append_inj level es fs [] [] nofun nofun ?_).1
  rw [h]

end Expr

/-! ### The walk through tokens -/

variable {t : Token} {ts : List Token}

/-- What the walk through the tokens notes at position `i`, unless there is a parenthesis: how many
groups are open before it, the value of the token, and whether an opening parenthesis stands
directly before it. -/
def tokenVisit? (ts : List Token) (i : Nat) : Option Visit :=
  ts[i]?.bind fun t =>
    if t.kind = .groupOpen ∨ t.kind = .groupClose then none
    else some ⟨opens (ts.take i) - closes (ts.take i), t.value,
      (ts.take i).getLast?.any (·.kind = .groupOpen)⟩

/-- **The visits of a list of tokens.** -/
def tokenVisits (ts : List Token) : List Visit :=
  (List.range ts.length).filterMap (tokenVisit? ts)

/-- What a token stands for depends on the tokens before it alone. -/
theorem tokenVisits_concat :
    tokenVisits (ts ++ [t]) = tokenVisits ts ++
      if t.kind = .groupOpen ∨ t.kind = .groupClose then []
      else [⟨opens ts - closes ts, t.value, ts.getLast?.any (·.kind = .groupOpen)⟩] := by
  have hbefore : ∀ i ∈ List.range ts.length,
      tokenVisit? (ts ++ [t]) i = tokenVisit? ts i := fun i hi => by
    have hlt : i < ts.length := List.mem_range.mp hi
    rw [tokenVisit?, tokenVisit?, List.getElem?_append_left hlt,
      List.take_append_of_le_length (Nat.le_of_lt hlt)]
  have hlast : tokenVisit? (ts ++ [t]) ts.length =
      if t.kind = .groupOpen ∨ t.kind = .groupClose then none
      else some ⟨opens ts - closes ts, t.value, ts.getLast?.any (·.kind = .groupOpen)⟩ := by
    rw [tokenVisit?, List.getElem?_concat_length, List.take_left]
    rfl
  rw [tokenVisits, List.length_append, List.length_singleton, List.range_succ,
    List.filterMap_append, List.filterMap_congr hbefore, tokenVisits]
  congr 1
  rw [List.filterMap_cons, hlast]
  split_ifs <;> rfl

/-! ### The reader in between -/

/-- The visits of open groups, the innermost first, in the order in which they were opened. -/
def Group.visits : List Group → List Visit
  | [] => []
  | g :: gs => visits gs ++
      ⟨gs.length + 1, .ok (.operator g.operator), true⟩ ::
        Expr.visitsOf (gs.length + 1) g.operands.reverse

/-- What closed groups hold is what they held when they were open. -/
theorem Group.visits_wrap (e : Expr) (gs : List Group) :
    Expr.visits 0 (wrap e gs) = Group.visits gs ++ Expr.visits gs.length e := by
  induction gs generalizing e with
  | nil => rfl
  | cons g gs ih =>
    rw [wrap, ih, Expr.visits, Expr.visitsOf_append, Expr.visitsOf_singleton, Group.visits]
    simp

namespace Reader

/-- The visits of all that has been read. -/
def visits (r : Reader) : List Visit :=
  Expr.visitsOf 0 r.forms.reverse ++ Group.visits r.groups

/-- How many groups are open, one that waits for its operator included. -/
def height (r : Reader) : Int :=
  r.groups.length + if r.opened.isSome then 1 else 0

variable {limits : Limits} {r r' : Reader} {e : Expr}

theorem height_none (forms : List Expr) (gs : List Group) :
    height ⟨forms, gs, none⟩ = gs.length := by
  simp [height]

theorem visitsOf_forest (r : Reader) : Expr.visitsOf 0 r.forest = r.visits := by
  obtain ⟨forms, _ | ⟨g, gs⟩, opened⟩ := r
  · rw [forest, visits, Group.visits, List.append_nil]
  · rw [forest, visits, Expr.visitsOf_append, Expr.visitsOf_singleton, Group.visits_wrap]
    rfl

/-- A placed expression is visited behind everything else. -/
theorem Placed.visits_eq (h : Placed limits e r r') :
    r'.visits = r.visits ++ Expr.visits r.groups.length e := by
  cases h with
  | form forms opened => simp [visits, Group.visits, Expr.visitsOf_singleton]
  | operand forms g gs opened hroom => simp [visits, Group.visits, Expr.visitsOf_singleton]

/-- Placing an expression opens and closes nothing. -/
theorem Placed.opened_eq (h : Placed limits e r r') : r'.opened = r.opened := by
  cases h <;> rfl

theorem Placed.height_eq (h : Placed limits e r r') : r'.height = r.height := by
  cases h <;> rfl

/-- **What a token adds to the walk**: nothing if it is a parenthesis, and its own visit
otherwise. -/
theorem Stepped.visits_eq (h : Stepped limits t r r') :
    r'.visits = r.visits ++
      if t.kind = .groupOpen ∨ t.kind = .groupClose then []
      else [⟨r.height, t.value, r.opened.isSome⟩] := by
  cases h with
  | head forms gs column o hkind hvalue =>
    simp [visits, height, Group.visits, Expr.visitsOf, hkind, hvalue]
  | opening forms gs hkind hdepth => simp [visits, hkind]
  | closing forms g gs r' hkind hplaced =>
    -- the visits of the innermost group were the last ones already
    rw [hplaced.visits_eq, if_pos (Or.inr hkind), List.append_nil]
    simp [visits, Group.visits, Group.toExpr, Expr.visits]
  | item forms gs v r' hopen hclose hvalue hplaced =>
    rw [hplaced.visits_eq, if_neg (by simp [hopen, hclose]), hvalue]
    simp [height, Expr.visits]

/-- An opening parenthesis opens a group and a closing one closes one. -/
theorem Stepped.height_eq (h : Stepped limits t r r') :
    r'.height = r.height + (opens [t] - closes [t]) := by
  cases h with
  | head forms gs column o hkind hvalue => simp [height, hkind]
  | opening forms gs hkind hdepth => simp [height, hkind]
  | closing forms g gs r' hkind hplaced =>
    have hopens : opens [t] = 0 := by simp [hkind]
    have hcloses : closes [t] = 1 := by simp [hkind]
    rw [hplaced.height_eq, height_none, height_none, hopens, hcloses, List.length_cons]
    omega
  | item forms gs v r' hopen hclose hvalue hplaced =>
    rw [hplaced.height_eq]
    simp [hopen, hclose]

/-- An operator has to come next exactly behind an opening parenthesis. -/
theorem Stepped.opened_isSome (h : Stepped limits t r r') :
    r'.opened.isSome = decide (t.kind = .groupOpen) := by
  cases h with
  | head forms gs column o hkind hvalue => simp [hkind]
  | opening forms gs hkind hdepth => simp [hkind]
  | closing forms g gs r' hkind hplaced => simp [hplaced.opened_eq, hkind]
  | item forms gs v r' hopen hclose hvalue hplaced => simp [hplaced.opened_eq, hopen]

/-- **What a reader knows of the tokens it has read.** -/
structure Mirrors (r : Reader) (ts : List Token) : Prop where
  height : r.height = opens ts - closes ts
  opened : r.opened.isSome = ts.getLast?.any (·.kind = .groupOpen)
  visits : r.visits = tokenVisits ts

theorem mirrors_start : start.Mirrors [] :=
  ⟨rfl, rfl, rfl⟩

theorem Mirrors.step (hr : r.Mirrors ts) (h : Stepped limits t r r') : r'.Mirrors (ts ++ [t]) := by
  refine ⟨?_, ?_, ?_⟩
  · rw [h.height_eq, hr.height, opens_append, closes_append]
    push_cast
    omega
  · rw [h.opened_isSome, List.getLast?_concat]
    rfl
  · rw [h.visits_eq, tokenVisits_concat, hr.visits, hr.height, hr.opened]

/-- **A whole run**: the reader mirrors all the tokens. -/
theorem mirrors_of_foldlM (h : ts.foldlM (step limits) start = .ok r) : r.Mirrors ts :=
  run_induction (P := fun ts r => r.Mirrors ts) mirrors_start
    (fun _ _ _ _ hr hstep => hr.step hstep) h

/-- Every opening parenthesis has become a call, but for one whose operator has to come next. -/
theorem countP_isCall_of_foldlM (h : ts.foldlM (step limits) start = .ok r) :
    r.visits.countP (·.isCall) + (if r.opened.isSome then 1 else 0) = opens ts := by
  refine run_induction (P := fun ts r =>
    r.visits.countP (·.isCall) + (if r.opened.isSome then 1 else 0) = opens ts) rfl ?_ h
  intro ts t r r' hcount hstep
  rw [hstep.visits_eq, hstep.opened_isSome, opens_append, List.countP_append, ← hcount]
  cases hstep with
  | head forms gs column o hkind hvalue => simp [hkind]
  | opening forms gs hkind hdepth => simp [hkind]
  | closing forms g gs r' hkind hplaced => simp [hkind]
  | item forms gs v r' hopen hclose hvalue hplaced => simp [hopen, hclose]

end Reader

/-- **The expressions mirror the tokens.** When reading succeeds, the walk through the expressions
and the walk through the tokens note the same list; there are as many calls as opening parentheses,
and no other expressions have this walk. -/
theorem visitsOf_readForms (limits : Limits) (ts : List Token) {forms : List Expr}
    (h : (readForms limits ts).outcome = .ok forms) :
    Expr.visitsOf 0 forms = tokenVisits ts ∧
      (Expr.nodesOf forms).countP Expr.isCall = opens ts ∧
        ∀ forms', Expr.visitsOf 0 forms' = tokenVisits ts → forms' = forms := by
  obtain ⟨r, hrun, hfinish⟩ := readForms_eq_ok_iff.mp h
  obtain ⟨hopened, -, rfl⟩ := Reader.finish_eq_ok_iff.mp hfinish
  have hvisits : Expr.visitsOf 0 r.forest = tokenVisits ts := by
    rw [Reader.visitsOf_forest, (Reader.mirrors_of_foldlM hrun).visits]
  refine ⟨hvisits, ?_, fun forms' hforms' => ?_⟩
  · have hcount := Reader.countP_isCall_of_foldlM hrun
    rw [← Expr.countP_isCall_visitsOf, Reader.visitsOf_forest, ← hcount, hopened]
    rfl
  · exact Expr.visitsOf_injective 0 (hforms'.trans hvisits.symm)

/-- Two groups that the end of the input closes, `(+ 2 (*`. -/
theorem visitsOf_readForms_unclosed :
    (readForms .default [⟨.groupOpen, "(", 1⟩, ⟨.procedure, "+", 2⟩, ⟨.integer, "2", 4⟩,
        ⟨.groupOpen, "(", 6⟩, ⟨.procedure, "*", 7⟩]).outcome =
      .ok [.call .add [.atom (.int 2), .call .mul []]] ∧
    Expr.visitsOf 0 [.call .add [.atom (.int 2), .call .mul []]] =
      tokenVisits [⟨.groupOpen, "(", 1⟩, ⟨.procedure, "+", 2⟩, ⟨.integer, "2", 4⟩,
        ⟨.groupOpen, "(", 6⟩, ⟨.procedure, "*", 7⟩] :=
  ⟨rfl, (visitsOf_readForms .default _ rfl).1⟩

end CambridgePolish
