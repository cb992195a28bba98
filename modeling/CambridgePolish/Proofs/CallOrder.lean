import CambridgePolish.Proofs.Failure
import Mathlib.Data.List.Nodup

/-!
# The order of calls

The evaluator notes each call when all operands of the call have values, right before the operator
is applied to them. So its events show in which order it works: operands from left to right, then
the call they belong to, and no call twice. That is the post-order of the calls (`Expr.sites`), and
a successful evaluation notes all of it (`Expr.notes_of_evalAt_eq_ok`).

An evaluation that fails stops in the middle of this order, and where it stops depends on what went
wrong at the call at fault (`Expr.FailsAt.notes`). If the operator has no result, the call itself is
the last one noted. If the call is nested too deeply, its operands are not looked at, and what is
noted are the calls that precede it in post-order without those inside of it. The proof follows the
path to the failure: each branch leaves to the left operands that are noted in full, and to the
right operands and the call itself, which are not noted at all.
-/

namespace CambridgePolish

/-! ### The calls of an expression -/

/-- A call in an expression, with the path that leads to it. -/
structure Site where
  path : List Branch
  operator : Operator
  operands : List Expr

/-- The same call, seen from one call further up. -/
def Site.under (b : Branch) (s : Site) : Site :=
  { s with path := b :: s.path }

namespace Expr

mutual

/-- **The calls of an expression in post-order**: those of the operands from left to right, then the
call itself. -/
def sites : Expr → List Site
  | .atom _ => []
  | .call o es => sitesOf o 1 es ++ [⟨[], o, es⟩]

/-- The calls in the operands of a call of `o`, from the given position on. -/
def sitesOf (o : Operator) (position : Nat) : List Expr → List Site
  | [] => []
  | e :: es => e.sites.map (Site.under ⟨o.symbol, position⟩) ++ sitesOf o (position + 1) es

end

variable {limit above position : Nat} {e c : Expr} {es fs : List Expr} {o : Operator} {b : Branch}
  {s : Site} {v : Value} {vs : List Value} {path : List Branch} {root : EvalError}

theorem mem_sitesOf :
    s ∈ sitesOf o position es ↔ ∃ (i : Nat) (c : Expr), es[i]? = some c ∧
      ∃ s' ∈ c.sites, s'.under ⟨o.symbol, position + i⟩ = s := by
  induction es generalizing position with
  | nil => simp [sitesOf]
  | cons e es ih =>
    rw [sitesOf, List.mem_append, List.mem_map, ih]
    constructor
    · rintro (h | ⟨i, c, hc, h⟩)
      · exact ⟨0, e, rfl, h⟩
      · exact ⟨i + 1, c, hc, by rwa [Nat.add_comm i, ← Nat.add_assoc]⟩
    · rintro ⟨_ | i, c, hc, h⟩
      · obtain rfl := Option.some.inj hc
        exact Or.inl h
      · exact Or.inr ⟨i, c, hc, by rwa [Nat.add_comm i, ← Nat.add_assoc] at h⟩

theorem sitesOf_append :
    sitesOf o position (es ++ fs) =
      sitesOf o position es ++ sitesOf o (position + es.length) fs := by
  induction es generalizing position with
  | nil => rfl
  | cons e es ih =>
    rw [List.cons_append, sitesOf, sitesOf, ih, List.append_assoc, List.length_cons,
      Nat.add_comm es.length, ← Nat.add_assoc]

/-- **Every call is listed**, and nothing else. -/
theorem mem_sites_iff : s ∈ e.sites ↔ e.nodeAt? s.path = some (.call s.operator s.operands) := by
  induction e generalizing s with
  | atom v =>
    obtain ⟨_ | ⟨b, path⟩, o, es⟩ := s
    · simp [sites, nodeAt?]
    · simp [sites, nodeAt?_cons, operandAt?]
  | call o es ih =>
    rw [sites, List.mem_append, mem_sitesOf, List.mem_singleton]
    obtain ⟨_ | ⟨b, path⟩, p, fs⟩ := s
    · constructor
      · rintro (⟨i, c, -, s', -, heq⟩ | heq)
        · cases heq
        · cases heq
          rfl
      · intro hnode
        obtain ⟨rfl, rfl⟩ := call.inj (Option.some.inj hnode)
        exact Or.inr rfl
    · rw [nodeAt?_cons_eq_some_iff]
      constructor
      · rintro (⟨i, c, hc, s', hs', heq⟩ | heq)
        · obtain ⟨rfl, rfl, rfl⟩ := heq
          exact ⟨o, es, i, c, rfl, by rw [Nat.add_comm], hc,
            (ih c (List.mem_of_getElem? hc)).mp hs'⟩
        · cases heq
      · rintro ⟨o', es', i, c, he, rfl, hc, hnode⟩
        obtain ⟨rfl, rfl⟩ := call.inj he
        refine Or.inl ⟨i, c, hc, ⟨path, p, fs⟩, (ih c (List.mem_of_getElem? hc)).mpr hnode, ?_⟩
        rw [Site.under, Nat.add_comm]

/-- The paths to calls in operands start with the positions of these operands. -/
theorem exists_branch_of_mem_sitesOf (h : s ∈ sitesOf o position es) :
    ∃ b rest, s.path = b :: rest ∧ position ≤ b.position ∧ b.position < position + es.length := by
  obtain ⟨i, c, hc, s', -, rfl⟩ := mem_sitesOf.mp h
  obtain ⟨hi, -⟩ := List.getElem?_eq_some_iff.mp hc
  exact ⟨_, s'.path, rfl, Nat.le_add_right position i, Nat.add_lt_add_left hi position⟩

/-- Calls in different operands differ in the first branch of their paths. -/
theorem nodup_sitesOf (h : ∀ e ∈ es, (e.sites.map Site.path).Nodup) (position : Nat) :
    ((sitesOf o position es).map Site.path).Nodup := by
  induction es generalizing position with
  | nil => simp [sitesOf]
  | cons e es ih =>
    obtain ⟨he, hes⟩ := List.forall_mem_cons.mp h
    have hfirst : (e.sites.map (Site.under ⟨o.symbol, position⟩)).map Site.path =
        (e.sites.map Site.path).map (List.cons ⟨o.symbol, position⟩) := by
      rw [List.map_map, List.map_map]
      rfl
    rw [sitesOf, List.map_append, hfirst, List.nodup_append]
    -- a path that starts at this position is none of those that start further right
    refine ⟨he.map List.cons_injective, ih hes (position + 1), ?_⟩
    rintro path hleft path' hright rfl
    obtain ⟨rest, -, rfl⟩ := List.mem_map.mp hleft
    obtain ⟨s, hs, hpath⟩ := List.mem_map.mp hright
    obtain ⟨b, rest', hcons, hle, -⟩ := exists_branch_of_mem_sitesOf hs
    obtain ⟨rfl, -⟩ := List.cons.inj (hcons.symm.trans hpath)
    exact absurd hle (Nat.not_succ_le_self position)

/-- **No call is listed twice.** -/
theorem nodup_sites (e : Expr) : (e.sites.map Site.path).Nodup := by
  induction e with
  | atom v => simp [sites]
  | call o es ih =>
    rw [sites, List.map_append, List.nodup_append]
    refine ⟨nodup_sitesOf ih 1, by simp, ?_⟩
    rintro path hleft path' hright rfl
    obtain ⟨s, hs, rfl⟩ := List.mem_map.mp hleft
    obtain ⟨b, rest, hcons, -⟩ := exists_branch_of_mem_sitesOf hs
    simp [hcons] at hright

/-! ### Events of calls -/

/-- **The event of a call** in an expression with `above` calls around it: the operator is about to
be applied, at the depth of the call, to the values of its operands in their order. -/
def Notes (limit above : Nat) (s : Site) (event : Event) : Prop :=
  ∃ vs, event = .applying s.operator vs (above + s.path.length + 1) ∧
    List.Forall₂ (fun c v => (c.evalAt limit (above + s.path.length + 2)).outcome = .ok v)
      s.operands vs

/-- An operand has one call more around it, and the path to what is in it has one branch less. -/
theorem notes_under {event : Event} :
    Notes limit above (s.under b) event ↔ Notes limit (above + 1) s event := by
  have hdepth : above + (s.path.length + 1) = above + 1 + s.path.length := by omega
  simp only [Notes, Site.under, List.length_cons, hdepth]

theorem forall₂_notes_map_under {ss : List Site} {events : List Event}
    (h : List.Forall₂ (Notes limit (above + 1)) ss events) :
    List.Forall₂ (Notes limit above) (ss.map (Site.under b)) events := by
  rw [List.forall₂_map_left_iff]
  exact h.imp fun _ _ => notes_under.mpr

/-! ### Operands -/

/-- The events of operands that all have values come before those of the operands behind them. -/
theorem events_evalOperands_append {depth : Nat}
    (h : ∀ e ∈ es, ∃ v, (evalAt limit (depth + 1) e).outcome = .ok v) :
    (evalOperands limit depth o position (es ++ fs)).events =
      (evalOperands limit depth o position es).events ++
        (evalOperands limit depth o (position + es.length) fs).events := by
  induction es generalizing position with
  | nil => rfl
  | cons e es ih =>
    obtain ⟨⟨v, hv⟩, hes⟩ := List.forall_mem_cons.mp h
    have hfirst : ((evalAt limit (depth + 1) e).mapError
        (EvalError.operand o.symbol position)).outcome = .ok v :=
      Traced.outcome_mapError_eq_ok_iff.mpr hv
    rw [List.cons_append, evalOperands, evalOperands, Traced.events_bind_of_ok hfirst,
      Traced.events_bind_of_ok hfirst, Traced.events_map, Traced.events_map, ih hes,
      List.append_assoc, List.length_cons, Nat.add_comm es.length, ← Nat.add_assoc]

/-- Operands that have values are noted in full, one after the other. -/
theorem notes_evalOperands (h : ∀ e ∈ es, ∃ v, (evalAt limit (above + 2) e).outcome = .ok v)
    (hnotes : ∀ e ∈ es,
      List.Forall₂ (Notes limit (above + 1)) e.sites (evalAt limit (above + 2) e).events) :
    List.Forall₂ (Notes limit above) (sitesOf o position es)
      (evalOperands limit (above + 1) o position es).events := by
  induction es generalizing position with
  | nil => exact .nil
  | cons e es ih =>
    obtain ⟨⟨v, hv⟩, hes⟩ := List.forall_mem_cons.mp h
    obtain ⟨hnote, hnotes⟩ := List.forall_mem_cons.mp hnotes
    rw [sitesOf, evalOperands,
      Traced.events_bind_of_ok (Traced.outcome_mapError_eq_ok_iff.mpr hv), Traced.events_mapError,
      Traced.events_map]
    exact List.rel_append (forall₂_notes_map_under hnote) (ih hes hnotes)

/-- A call whose operands have values is noted behind them, whether or not its operator has a result
on these. -/
theorem notes_evalAt_call (hlimit : above < limit)
    (hvs : List.Forall₂ (fun c v => (evalAt limit (above + 2) c).outcome = .ok v) es vs)
    (hnotes : List.Forall₂ (Notes limit above) (sitesOf o 1 es)
      (evalOperands limit (above + 1) o 1 es).events) :
    List.Forall₂ (Notes limit above) (call o es).sites
      (evalAt limit (above + 1) (.call o es)).events := by
  have hevents : (evalAt limit (above + 1) (.call o es)).events =
      (evalOperands limit (above + 1) o 1 es).events ++ [.applying o vs (above + 1)] := by
    rw [evalAt, if_pos (Nat.succ_le_of_lt hlimit),
      Traced.events_bind_of_ok (evalOperands_eq_ok_iff.mpr hvs)]
    rfl
  rw [hevents, sites]
  exact List.rel_append hnotes (.cons ⟨vs, rfl, hvs⟩ .nil)

/-! ### The events of an evaluation -/

theorem exists_ok_of_forall₂ {depth : Nat}
    (h : List.Forall₂ (fun c v => (evalAt limit depth c).outcome = .ok v) es vs) :
    ∀ e ∈ es, ∃ v, (evalAt limit depth e).outcome = .ok v := by
  intro e he
  obtain ⟨i, hi, rfl⟩ := List.getElem_of_mem he
  exact ⟨_, h.get hi (h.length_eq ▸ hi)⟩

/-- **An evaluation that succeeds** notes every call, in post-order. -/
theorem notes_of_evalAt_eq_ok (h : (evalAt limit (above + 1) e).outcome = .ok v) :
    List.Forall₂ (Notes limit above) e.sites (evalAt limit (above + 1) e).events := by
  induction e generalizing above v with
  | atom w => exact .nil
  | call o es ih =>
    obtain ⟨hlimit, vs, hvs, -⟩ := evalAt_call_eq_ok_iff.mp h
    have hok := exists_ok_of_forall₂ hvs
    refine notes_evalAt_call hlimit hvs (notes_evalOperands hok fun e he => ?_)
    obtain ⟨w, hw⟩ := hok e he
    exact ih e he hw

/-- The calls in operands of which all have values. -/
theorem notes_evalOperands_of_ok (h : ∀ e ∈ es, ∃ v, (evalAt limit (above + 2) e).outcome = .ok v) :
    List.Forall₂ (Notes limit above) (sitesOf o position es)
      (evalOperands limit (above + 1) o position es).events := by
  refine notes_evalOperands h fun e he => ?_
  obtain ⟨v, hv⟩ := h e he
  exact notes_of_evalAt_eq_ok hv

/-- A call one of whose operands has no value is not noted, and nothing behind that operand is. -/
theorem events_evalAt_call_of_operand {left right : List Expr} {cause : EvalError}
    (hlimit : above < limit) (hleft : ∀ l ∈ left, ∃ v, (evalAt limit (above + 2) l).outcome = .ok v)
    (hc : (evalAt limit (above + 2) c).outcome = .error cause) :
    (evalAt limit (above + 1) (.call o (left ++ c :: right))).events =
      (evalOperands limit (above + 1) o 1 left).events ++ (evalAt limit (above + 2) c).events := by
  have hoperands : (evalOperands limit (above + 1) o 1 (left ++ c :: right)).outcome =
      .error (.operand o.symbol (1 + left.length) cause) :=
    evalOperands_eq_error_iff.mpr ⟨left.length, c, cause, by simp, by simpa using hleft, hc, rfl⟩
  have hlast : ((evalAt limit (above + 2) c).mapError
      (EvalError.operand o.symbol (1 + left.length))).outcome =
        .error (.operand o.symbol (1 + left.length) cause) :=
    Traced.outcome_mapError_eq_error_iff.mpr ⟨cause, hc, rfl⟩
  rw [evalAt, if_pos (Nat.succ_le_of_lt hlimit), Traced.events_bind_of_error hoperands,
    events_evalOperands_append hleft, evalOperands, Traced.events_bind_of_error hlast,
    Traced.events_mapError]

/-- The calls that precede one in an operand, seen from the call around it: none of those in the
operands to the left lies inside of that one. -/
theorem filter_sitesOf_append {left : List Expr} {before : List Site} :
    (sitesOf o 1 left ++ before.map (Site.under ⟨o.symbol, 1 + left.length⟩)).filter
        (fun s => ¬(⟨o.symbol, 1 + left.length⟩ :: path) <+: s.path) =
      sitesOf o 1 left ++ (before.filter fun s => ¬path <+: s.path).map
        (Site.under ⟨o.symbol, 1 + left.length⟩) := by
  rw [List.filter_append, List.filter_map, List.filter_eq_self.mpr]
  · congr 3
    funext s
    simp [Site.under]
  · intro s hs
    obtain ⟨b, rest, hpath, -, hlt⟩ := exists_branch_of_mem_sitesOf hs
    rw [decide_eq_true_iff, hpath, List.cons_prefix_cons]
    rintro ⟨rfl, -⟩
    exact absurd hlt (Nat.lt_irrefl _)

/-- **An evaluation that fails** notes the calls up to the one at fault. If that one is nested too
deeply, neither it nor the calls inside of it are noted. -/
theorem FailsAt.notes (h : e.FailsAt limit above path root) :
    ∃ before o es after, e.sites = before ++ ⟨path, o, es⟩ :: after ∧
      (root.IsTooDeep →
        List.Forall₂ (Notes limit above) (before.filter fun s => ¬path <+: s.path)
          (evalAt limit (above + 1) e).events) ∧
      (¬root.IsTooDeep →
        List.Forall₂ (Notes limit above) (before ++ [⟨path, o, es⟩])
          (evalAt limit (above + 1) e).events) := by
  induction path generalizing e above with
  | nil =>
    obtain ⟨o, es, rfl, ⟨rfl, rfl⟩ | ⟨hlimit, vs, hvs, hcall⟩⟩ := failsAt_nil_iff.mp h
    · -- the call is refused before its operands are looked at, and all calls before it are inside
      refine ⟨sitesOf o 1 es, o, es, [], by rw [sites], fun _ => ?_, fun hroot => ?_⟩
      · rw [evalAt, if_neg (Nat.not_succ_le_self above)]
        simp [Traced.fail]
      · exact absurd ⟨above, rfl⟩ hroot
    · refine ⟨sitesOf o 1 es, o, es, [], by rw [sites], fun hroot => ?_, fun _ => ?_⟩
      · exact absurd hroot (Operator.not_isTooDeep_of_call hcall)
      · have hok := exists_ok_of_forall₂ hvs
        have hnotes := notes_evalAt_call (o := o) hlimit hvs (notes_evalOperands_of_ok hok)
        rwa [sites] at hnotes
  | cons b path ih =>
    obtain ⟨o, es, i, c, rfl, rfl, hc, hleft, hfails⟩ := failsAt_cons_iff.mp h
    -- the operands to the left of the branch have values, and those to the right are not looked at
    obtain ⟨left, right, rfl, rfl⟩ : ∃ left right, es = left ++ c :: right ∧ left.length = i := by
      obtain ⟨hi, hget⟩ := List.getElem?_eq_some_iff.mp hc
      refine ⟨es.take i, es.drop (i + 1), ?_, List.length_take_of_le (Nat.le_of_lt hi)⟩
      rw [← hget, List.getElem_cons_drop, List.take_append_drop]
    rw [List.take_left] at hleft
    have hlimit : above < limit := Nat.le_of_add_right_le hfails.length_le
    have hcause := (evalAt_eq_error_iff hlimit).mpr ⟨path, root, rfl, hfails⟩
    obtain ⟨before, p, fs, after, hsites, hdeep, hcall⟩ := ih hfails
    rw [events_evalAt_call_of_operand hlimit hleft hcause, Nat.add_comm left.length]
    refine ⟨sitesOf o 1 left ++ before.map (Site.under ⟨o.symbol, 1 + left.length⟩), p, fs,
      after.map (Site.under ⟨o.symbol, 1 + left.length⟩) ++
        sitesOf o (1 + left.length + 1) right ++ [⟨[], o, left ++ c :: right⟩], ?_, ?_, ?_⟩
    · rw [sites, sitesOf_append, sitesOf, hsites]
      simp [Site.under]
    · intro hroot
      rw [filter_sitesOf_append]
      exact List.rel_append (notes_evalOperands_of_ok hleft) (forall₂_notes_map_under (hdeep hroot))
    · intro hroot
      have hnotes := forall₂_notes_map_under (b := ⟨o.symbol, 1 + left.length⟩) (hcall hroot)
      rw [List.map_append] at hnotes
      rw [List.append_assoc]
      exact List.rel_append (notes_evalOperands_of_ok hleft) hnotes

/-- **Evaluation is eager, strict and from left to right.** The calls of an expression are listed
once each, in post-order. An evaluation that succeeds notes each of them, with the operator, the
depth and the values of the operands. One that fails has an address as its error, and notes the list
up to and including the call at that address if the operator had no result there, or, if the call
was nested too deeply, what precedes the call in the list and is not inside of it. -/
theorem eval_notes_calls_in_postorder (limit : Nat) (e : Expr) :
    ((∀ s, s ∈ e.sites ↔ e.nodeAt? s.path = some (.call s.operator s.operands)) ∧
      (e.sites.map Site.path).Nodup) ∧
    (∀ v, (e.eval limit).outcome = .ok v →
      List.Forall₂ (Notes limit 0) e.sites (e.eval limit).events) ∧
    ∀ err, (e.eval limit).outcome = .error err → ∃ path, ∃ root : EvalError, ∃ before o es after,
      err = root.within path ∧ root.IsRoot ∧ e.sites = before ++ ⟨path, o, es⟩ :: after ∧
        (root.IsTooDeep →
          List.Forall₂ (Notes limit 0) (before.filter fun s => ¬path <+: s.path)
            (e.eval limit).events) ∧
        (¬root.IsTooDeep →
          List.Forall₂ (Notes limit 0) (before ++ [⟨path, o, es⟩]) (e.eval limit).events) := by
  refine ⟨⟨fun s => mem_sites_iff, nodup_sites e⟩, fun v h => notes_of_evalAt_eq_ok h, ?_⟩
  intro err h
  obtain ⟨path, root, rfl, hfails⟩ := (evalAt_eq_error_iff (Nat.zero_le limit)).mp h
  obtain ⟨before, o, es, after, hsites, hdeep, hcall⟩ := hfails.notes
  exact ⟨path, root, before, o, es, after, rfl, hfails.isRoot, hsites, hdeep, hcall⟩

/-- In `(+ (* 1 2) (/ 5 (- 3 3)) (+ 4 5))` the last call noted is the division at fault; with room
for two calls only, the subtraction is refused and the product is the last one. Without the
division all calls are noted. -/
theorem eval_notes_calls_in_postorder_up_to_division :
    let product : Expr := .call .mul [.atom (.int 1), .atom (.int 2)]
    let difference : Expr := .call .sub [.atom (.int 3), .atom (.int 3)]
    let quotient : Expr := .call .div [.atom (.int 5), difference]
    let sum : Expr := .call .add [.atom (.int 4), .atom (.int 5)]
    let e : Expr := .call .add [product, quotient, sum]
    ((call .add [product, sum]).eval 3).outcome = .ok (.int 11) ∧
      List.Forall₂ (Notes 3 0) (call .add [product, sum]).sites
        [.applying .mul [.int 1, .int 2] 2, .applying .add [.int 4, .int 5] 2,
          .applying .add [.int 2, .int 9] 1] ∧
      (e.eval 3).outcome = .error (.operand "+" 2 (.divisionByZero "/")) ∧
      (∃ before o es after, e.sites = before ++ ⟨[⟨"+", 2⟩], o, es⟩ :: after ∧
        List.Forall₂ (Notes 3 0) (before ++ [⟨[⟨"+", 2⟩], o, es⟩])
          [.applying .mul [.int 1, .int 2] 2, .applying .sub [.int 3, .int 3] 3,
            .applying .div [.int 5, .int 0] 2]) ∧
      (e.eval 2).outcome = .error (.operand "+" 2 (.operand "/" 2 (.tooDeep 2))) ∧
      ∃ before o es after, e.sites = before ++ ⟨[⟨"+", 2⟩, ⟨"/", 2⟩], o, es⟩ :: after ∧
        List.Forall₂ (Notes 2 0) (before.filter fun s => ¬[⟨"+", 2⟩, ⟨"/", 2⟩] <+: s.path)
          [.applying .mul [.int 1, .int 2] 2] := by
  intro product difference quotient sum e
  refine ⟨rfl, (eval_notes_calls_in_postorder 3 _).2.1 (.int 11) rfl, rfl, ?_, rfl, ?_⟩
  · obtain ⟨path, root, before, o, es, after, herr, hroot, hsites, -, hnotes⟩ :=
      (eval_notes_calls_in_postorder 3 e).2.2 _ rfl
    have haddress : (EvalError.divisionByZero "/").within [⟨"+", 2⟩] = root.within path := herr
    have hzero : (EvalError.divisionByZero "/").IsRoot := nofun
    obtain ⟨rfl, rfl⟩ := (hzero.within_inj hroot).mp haddress
    exact ⟨before, o, es, after, hsites, hnotes nofun⟩
  · obtain ⟨path, root, before, o, es, after, herr, hroot, hsites, hnotes, -⟩ :=
      (eval_notes_calls_in_postorder 2 e).2.2 _ rfl
    have haddress : (EvalError.tooDeep 2).within [⟨"+", 2⟩, ⟨"/", 2⟩] = root.within path := herr
    have hdeep : (EvalError.tooDeep 2).IsRoot := nofun
    obtain ⟨rfl, rfl⟩ := (hdeep.within_inj hroot).mp haddress
    exact ⟨before, o, es, after, hsites, hnotes ⟨2, rfl⟩⟩

end Expr

end CambridgePolish
