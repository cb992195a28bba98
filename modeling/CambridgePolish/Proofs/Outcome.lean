import CambridgePolish.Traced
import Mathlib.Tactic.Common

/-!
# When a sequence of computations succeeds, and when it fails

Reading and evaluating are sequences of parts that may fail. A sequence succeeds exactly
when each of its parts does, and it fails as the first part does that fails. These lemmas
take such a sequence apart, for outcomes (`bind_eq_ok_iff`, `bind_eq_error_iff`) and for
traced computations (`Traced.outcome_bind_eq_ok_iff`, `Traced.outcome_bind_eq_error_iff`),
so that no proof has to open one.
-/

namespace CambridgePolish

variable {ε ε' α β : Type}

/-- A sequence of outcomes succeeds when both of its parts do. -/
theorem bind_eq_ok_iff {x : Except ε α} {f : α → Except ε β} {b : β} :
    (x >>= f) = .ok b ↔ ∃ a, x = .ok a ∧ f a = .ok b := by
  cases x with
  | error e => exact iff_of_false nofun (by simp)
  | ok a => exact ⟨fun h => ⟨a, rfl, h⟩, fun ⟨_, ha, hb⟩ => Except.ok.inj ha ▸ hb⟩

/-- A sequence of outcomes fails when its first part does, or when its second part does behind a
first one that succeeds. -/
theorem bind_eq_error_iff {x : Except ε α} {f : α → Except ε β} {err : ε} :
    (x >>= f) = .error err ↔ x = .error err ∨ ∃ a, x = .ok a ∧ f a = .error err := by
  cases x with
  | error e =>
    exact ⟨fun h => Or.inl (congrArg _ (Except.error.inj h)), by simp [bind, Except.bind]⟩
  | ok a => exact ⟨fun h => Or.inr ⟨a, rfl, h⟩, by simp [bind, Except.bind]⟩

namespace Traced

/-- A sequence succeeds when both of its parts do. -/
theorem outcome_bind_eq_ok_iff {x : Traced ε α} {f : α → Traced ε β} {b : β} :
    (x >>= f).outcome = .ok b ↔ ∃ a, x.outcome = .ok a ∧ (f a).outcome = .ok b := by
  rw [outcome_bind]
  exact bind_eq_ok_iff

/-- Noting an event changes no outcome. -/
@[simp] theorem outcome_log_bind (e : Event) (f : Unit → Traced ε β) :
    (log e >>= f).outcome = (f ()).outcome := rfl

theorem outcome_map_eq_ok_iff {x : Traced ε α} {f : α → β} {b : β} :
    (f <$> x).outcome = .ok b ↔ ∃ a, x.outcome = .ok a ∧ f a = b := by
  obtain ⟨es, e | a⟩ := x
  · simp [Except.map]
  · simp [Except.map]

theorem outcome_mapError_eq_ok_iff {x : Traced ε α} {f : ε → ε'} {a : α} :
    (x.mapError f).outcome = .ok a ↔ x.outcome = .ok a := by
  obtain ⟨es, e | a'⟩ := x
  · simp [Except.mapError]
  · simp [Except.mapError]

/-- A sequence fails when its first part does, or when its second part does behind a first one that
succeeds. -/
theorem outcome_bind_eq_error_iff {x : Traced ε α} {f : α → Traced ε β} {err : ε} :
    (x >>= f).outcome = .error err ↔
      x.outcome = .error err ∨ ∃ a, x.outcome = .ok a ∧ (f a).outcome = .error err := by
  rw [outcome_bind]
  exact bind_eq_error_iff

theorem outcome_map_eq_error_iff {x : Traced ε α} {f : α → β} {err : ε} :
    (f <$> x).outcome = .error err ↔ x.outcome = .error err := by
  obtain ⟨es, e | a⟩ := x
  · simp [Except.map]
  · simp [Except.map]

theorem outcome_mapError_eq_error_iff {x : Traced ε α} {f : ε → ε'} {err : ε'} :
    (x.mapError f).outcome = .error err ↔ ∃ cause, x.outcome = .error cause ∧ f cause = err := by
  obtain ⟨es, e | a⟩ := x
  · simp [Except.mapError]
  · simp [Except.mapError]

/-- The events of a sequence whose second part is reached. -/
theorem events_bind_of_ok {x : Traced ε α} {f : α → Traced ε β} {a : α} (h : x.outcome = .ok a) :
    (x >>= f).events = x.events ++ (f a).events := by
  rw [events_bind, h]

/-- The events of a sequence whose second part is not reached. -/
theorem events_bind_of_error {x : Traced ε α} {f : α → Traced ε β} {err : ε}
    (h : x.outcome = .error err) : (x >>= f).events = x.events := by
  rw [events_bind, h, List.append_nil]

/-- What holds of all events of the parts holds of all events of the sequence. -/
theorem forall_mem_events_bind {P : Event → Prop} {x : Traced ε α} {f : α → Traced ε β}
    (hx : ∀ e ∈ x.events, P e) (hf : ∀ a, x.outcome = .ok a → ∀ e ∈ (f a).events, P e) :
    ∀ e ∈ (x >>= f).events, P e := by
  cases h : x.outcome with
  | ok a =>
    rw [events_bind_of_ok h]
    exact List.forall_mem_append.mpr ⟨hx, hf a h⟩
  | error err =>
    rw [events_bind_of_error h]
    exact hx

end Traced

end CambridgePolish
