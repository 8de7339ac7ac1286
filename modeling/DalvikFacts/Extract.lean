import DalvikFacts.Fact.Emit
import DalvikFacts.Signature

/-!
# Extractions

An extraction looks up signatures, emits events and may fail.  What it emitted and looked up
before a failure is kept.  Every access to the signatures and every event is a step of its own, so
that other extractions may go on in between.
-/

namespace DalvikFacts

/-- A program that may fail, emits events and fills the signature cache in atomic steps. -/
abbrev Extract := ExceptT ExtractionError (Script (Emit SignatureCache))

namespace Extract

/-- Looks something up. -/
def lookup {α : Type} (action : Lookup α) : Extract α :=
  ExceptT.mk (action.run.hoist fun _ => Emit.silently)

/-- Does an action on a state of its own, and emits its events; returns that state with its
value. -/
def within {σ α : Type} (action : Emit σ α) (state : σ) : Extract (α × σ) :=
  ExceptT.lift do
    let inner := action.run state
    Script.emit inner.events
    return (inner.value, inner.state)

/-- Emits the events of an action without state. -/
def emit {α : Type} (action : Emit Unit α) : Extract α :=
  Prod.fst <$> within action ()

section Outcomes

variable {σ α β : Type} (cache : SignatureCache)

@[simp]
theorem perform_pure (value : α) :
    (pure value : Extract α).run.perform cache = ⟨.ok value, cache, []⟩ :=
  rfl

theorem perform_bind_of_ok {action : Extract α} {next : α → Extract β} {value : α}
    (value_eq : (action.run.perform cache).value = .ok value) :
    (action >>= next).run.perform cache =
      ⟨((next value).run.perform (action.run.perform cache).state).value,
        ((next value).run.perform (action.run.perform cache).state).state,
        (action.run.perform cache).events ++
          ((next value).run.perform (action.run.perform cache).state).events⟩ := by
  rw [ExceptT.run_bind, Script.perform_bind, value_eq]

theorem perform_bind_of_error {action : Extract α} {next : α → Extract β}
    {error : ExtractionError} (value_eq : (action.run.perform cache).value = .error error) :
    (action >>= next).run.perform cache =
      ⟨.error error, (action.run.perform cache).state, (action.run.perform cache).events⟩ := by
  rw [ExceptT.run_bind, Script.perform_bind, value_eq]
  simp [Script.pure_eq_done]

theorem exists_of_bind_ok {action : Extract α} {next : α → Extract β} {result : β}
    (value_eq : ((action >>= next).run.perform cache).value = .ok result) :
    ∃ value, (action.run.perform cache).value = .ok value ∧
      ((next value).run.perform (action.run.perform cache).state).value = .ok result ∧
      ((action >>= next).run.perform cache).events = (action.run.perform cache).events ++
        ((next value).run.perform (action.run.perform cache).state).events := by
  cases first_eq : (action.run.perform cache).value with
  | error error =>
    rw [perform_bind_of_error cache first_eq] at value_eq
    cases value_eq
  | ok value =>
    rw [perform_bind_of_ok cache first_eq] at value_eq ⊢
    exact ⟨value, rfl, value_eq, rfl⟩

@[simp]
theorem perform_within (action : Emit σ α) (state : σ) :
    (within action state).run.perform cache =
      ⟨.ok ((action.run state).value, (action.run state).state), cache,
        (action.run state).events⟩ := by
  simp [within, Script.pure_eq_done]

@[simp]
theorem perform_within_bind (action : Emit σ α) (state : σ) (next : α × σ → Extract β) :
    (within action state >>= next).run.perform cache =
      ⟨((next ((action.run state).value, (action.run state).state)).run.perform cache).value,
        ((next ((action.run state).value, (action.run state).state)).run.perform cache).state,
        (action.run state).events ++
          ((next ((action.run state).value, (action.run state).state)).run.perform
            cache).events⟩ := by
  rw [perform_bind_of_ok cache (congrArg Emitted.value (perform_within cache action state))]
  simp

@[simp]
theorem perform_emit (action : Emit Unit α) :
    (emit action).run.perform cache =
      ⟨.ok (action.run ()).value, cache, (action.run ()).events⟩ := by
  simp [emit, Except.map]

@[simp]
theorem perform_emit_bind (action : Emit Unit α) (next : α → Extract β) :
    (emit action >>= next).run.perform cache =
      ⟨((next (action.run ()).value).run.perform cache).value,
        ((next (action.run ()).value).run.perform cache).state,
        (action.run ()).events ++ ((next (action.run ()).value).run.perform cache).events⟩ := by
  rw [perform_bind_of_ok cache (congrArg Emitted.value (perform_emit cache action))]
  simp

@[simp]
theorem perform_lookup (action : Lookup α) :
    (lookup action).run.perform cache =
      ⟨(action.run.run cache).1, (action.run.run cache).2, []⟩ := by
  simp [lookup]
  constructor <;> rfl

end Outcomes

end Extract
end DalvikFacts
