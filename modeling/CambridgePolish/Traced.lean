import CambridgePolish.Event

/-!
# Traced computations

A traced computation has an outcome, a value or an error, and the events that led to it. Events
survive an error: what was noted before the failure stays noted. Nothing can look at the events
noted so far, so they are an observation and no more – the outcome of a composite computation
depends on the outcomes of its parts alone (`Traced.outcome_bind`).
-/

namespace CambridgePolish

/-- The outcome of a computation, with the events on the way to it. -/
structure Traced (ε α : Type) where
  /-- What was noted, in order. -/
  events : List Event
  /-- What came out. -/
  outcome : Except ε α

namespace Traced

variable {ε ε' α β : Type}

/-- An outcome without events. -/
def ofExcept (x : Except ε α) : Traced ε α :=
  ⟨[], x⟩

/-- A failure without events. -/
def fail (e : ε) : Traced ε α :=
  ofExcept (.error e)

/-- Notes an event. -/
def log (e : Event) : Traced ε Unit :=
  ⟨[e], .ok ()⟩

/-- One computation after another; the second is not started when the first fails. -/
def andThen (x : Traced ε α) (f : α → Traced ε β) : Traced ε β :=
  match x.outcome with
  | .ok a =>
    let y := f a
    ⟨x.events ++ y.events, y.outcome⟩
  | .error e => ⟨x.events, .error e⟩

/-- The same computation with another value. -/
def mapValue (f : α → β) (x : Traced ε α) : Traced ε β :=
  ⟨x.events, x.outcome.map f⟩

instance : Monad (Traced ε) where
  pure a := ofExcept (.ok a)
  bind := andThen
  map := mapValue

/-- The same computation with another error. -/
def mapError (f : ε → ε') (x : Traced ε α) : Traced ε' α :=
  ⟨x.events, x.outcome.mapError f⟩

@[simp] theorem outcome_pure (a : α) : (pure a : Traced ε α).outcome = .ok a := rfl

@[simp] theorem events_pure (a : α) : (pure a : Traced ε α).events = [] := rfl

@[simp] theorem outcome_ofExcept (x : Except ε α) : (ofExcept x).outcome = x := rfl

@[simp] theorem events_ofExcept (x : Except ε α) : (ofExcept x).events = [] := rfl

@[simp] theorem outcome_log (e : Event) : (log e : Traced ε Unit).outcome = .ok () := rfl

@[simp] theorem events_log (e : Event) : (log e : Traced ε Unit).events = [e] := rfl

@[simp] theorem outcome_map (f : α → β) (x : Traced ε α) :
    (f <$> x).outcome = x.outcome.map f := rfl

@[simp] theorem events_map (f : α → β) (x : Traced ε α) : (f <$> x).events = x.events := rfl

@[simp] theorem outcome_mapError (f : ε → ε') (x : Traced ε α) :
    (x.mapError f).outcome = x.outcome.mapError f := rfl

@[simp] theorem events_mapError (f : ε → ε') (x : Traced ε α) :
    (x.mapError f).events = x.events := rfl

/-- The outcome of a sequence is the sequence of the outcomes. -/
theorem outcome_bind (x : Traced ε α) (f : α → Traced ε β) :
    (x >>= f).outcome = x.outcome.bind fun a => (f a).outcome := by
  obtain ⟨es, _ | a⟩ := x <;> rfl

/-- The events of a sequence: those of its first part, and those of the second if it is reached. -/
theorem events_bind (x : Traced ε α) (f : α → Traced ε β) :
    (x >>= f).events = x.events ++
      match x.outcome with
      | .ok a => (f a).events
      | .error _ => [] := by
  obtain ⟨es, _ | a⟩ := x
  · exact (List.append_nil es).symm
  · rfl

/-- Two computations are the same if they note the same and come out the same. -/
theorem ext {x y : Traced ε α} (hevents : x.events = y.events) (houtcome : x.outcome = y.outcome) :
    x = y := by
  cases x
  cases y
  simp_all

theorem andThen_assoc {γ : Type} (x : Traced ε α) (f : α → Traced ε β) (g : β → Traced ε γ) :
    (x.andThen f).andThen g = x.andThen fun a => (f a).andThen g := by
  obtain ⟨es, _ | a⟩ := x
  · rfl
  · rcases h : f a with ⟨es', _ | b⟩ <;> simp [andThen, h]

instance : LawfulMonad (Traced ε) :=
  LawfulMonad.mk' _
    (fun x => by obtain ⟨es, _ | a⟩ := x <;> rfl)
    (fun _ _ => rfl)
    andThen_assoc
    (fun _ _ => rfl)
    (fun _ _ => rfl)
    (fun _ _ => rfl)
    (fun f x => by
      obtain ⟨es, _ | a⟩ := x
      · rfl
      · exact ext (List.append_nil es) rfl)

end Traced

end CambridgePolish
