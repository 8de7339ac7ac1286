import DalvikFacts.Fact.Notice
import DalvikFacts.StringConstant

/-!
# Emitting facts

An extraction emits events in order: rows of relations, and notices.  `Emit σ` is the monad of
total actions that read and change a state `σ` and emit events; what an action emits does not
depend on what was emitted before.
-/

namespace DalvikFacts

/-- A row of a relation. -/
structure Fact where
  relation : Relation
  columns : List String
  deriving DecidableEq

/-- Something emitted by an extraction. -/
inductive Event
  | fact (fact : Fact)
  | notice (notice : Notice)
  deriving DecidableEq

/-- The fact of an event. -/
def Event.fact? : Event → Option Fact
  | fact found => some found
  | notice _ => none

/-- The notice of an event. -/
def Event.notice? : Event → Option Notice
  | fact _ => none
  | notice found => some found

/-- What an action leaves: its value, the state after it, and the events it emitted. -/
structure Emitted (σ α : Type) where
  value : α
  state : σ
  events : List Event

/-- An action on a state that emits events. -/
structure Emit (σ α : Type) where
  run : σ → Emitted σ α

namespace Emit

variable {σ : Type}

instance {α : Type} : CoeFun (Emit σ α) fun _ => σ → Emitted σ α :=
  ⟨run⟩

instance : Monad (Emit σ) where
  pure value := ⟨fun state => ⟨value, state, []⟩⟩
  bind action next := ⟨fun state =>
    match action.run state with
    | ⟨value, state, events⟩ =>
      match (next value).run state with
      | ⟨value, state, others⟩ => ⟨value, state, events ++ others⟩⟩

instance : MonadStateOf σ (Emit σ) where
  get := ⟨fun state => ⟨state, state, []⟩⟩
  set state := ⟨fun _ => ⟨(), state, []⟩⟩
  modifyGet f := ⟨fun state =>
    let (value, state) := f state
    ⟨value, state, []⟩⟩

@[simp]
theorem run_pure {α : Type} (value : α) (state : σ) :
    (pure value : Emit σ α).run state = ⟨value, state, []⟩ :=
  rfl

@[simp]
theorem run_bind {α β : Type} (action : Emit σ α) (next : α → Emit σ β) (state : σ) :
    (action >>= next).run state =
      { value := ((next (action.run state).value).run (action.run state).state).value
        state := ((next (action.run state).value).run (action.run state).state).state
        events := (action.run state).events ++
          ((next (action.run state).value).run (action.run state).state).events } :=
  rfl

@[simp]
theorem run_get (state : σ) : (get : Emit σ σ).run state = ⟨state, state, []⟩ :=
  rfl

@[simp]
theorem run_set (new state : σ) : (set new : Emit σ PUnit).run state = ⟨(), new, []⟩ :=
  rfl

@[simp]
theorem run_modifyGet {α : Type} (f : σ → α × σ) (state : σ) :
    (modifyGet f : Emit σ α).run state = ⟨(f state).1, (f state).2, []⟩ :=
  rfl

@[simp]
theorem run_modify (change : σ → σ) (state : σ) :
    (modify change : Emit σ PUnit).run state = ⟨(), change state, []⟩ :=
  rfl

@[ext]
protected theorem ext {α : Type} {first second : Emit σ α}
    (run_eq : ∀ state, first.run state = second.run state) : first = second := by
  cases first
  cases second
  exact congrArg mk (funext run_eq)

instance : LawfulMonad (Emit σ) :=
  LawfulMonad.mk' _
    (fun action => Emit.ext fun state => by
      show (action >>= fun value => pure value).run state = action.run state
      simp)
    (fun _ _ => Emit.ext fun _ => by simp)
    (fun _ _ _ => Emit.ext fun _ => by simp [List.append_assoc])

/-- Emits an event. -/
def event (event : Event) : Emit σ Unit :=
  ⟨fun state => ⟨(), state, [event]⟩⟩

@[simp]
theorem run_event (emitted : Event) (state : σ) :
    (event emitted).run state = ⟨(), state, [emitted]⟩ :=
  rfl

/-- Emitting an event for each item emits them in order. -/
theorem run_forM_event {β : Type} (items : List β) (emitted : β → Event) (state : σ) :
    (items.forM fun item => event (emitted item)).run state =
      ⟨(), state, items.map emitted⟩ := by
  induction items with
  | nil => rfl
  | cons item rest induction =>
    change (event (emitted item) >>= fun _ => rest.forM _).run state = _
    rw [run_bind, run_event, induction]
    rfl

/-- Emits a row of a relation. -/
def row (relation : Relation) (columns : List String) : Emit σ Unit :=
  event (.fact ⟨relation, columns⟩)

/-- Emits a notice. -/
def notice (notice : Notice) : Emit σ Unit :=
  event (.notice notice)

/-- A change of the state that emits nothing. -/
def silently {α : Type} (action : StateM σ α) : Emit σ α :=
  ⟨fun state =>
    let outcome := action.run state
    ⟨outcome.1, outcome.2, []⟩⟩

/-- Emits the rows of a string constant, and returns its identifier. -/
def stringConstant (constant : String) : Emit σ String := do
  let raw := StringConstant.encode constant
  let id := StringConstant.identifier raw
  row .stringRaw [id, raw]
  row .stringConstant [id]
  return id

/-- An action on a part of the state. -/
def zoom {τ α : Type} (get : σ → τ) (set : τ → σ → σ) (action : Emit τ α) : Emit σ α :=
  ⟨fun state =>
    let inner := action.run (get state)
    ⟨inner.value, set inner.state state, inner.events⟩⟩

end Emit
end DalvikFacts
