import DalvikFacts.Fact.Emit

/-!
# Scripts

A script is a program in atomic steps.  Alone it is performed step after step.  Workers that share
a state interleave their scripts: between two steps of one script the others may take theirs, and
a list of turns tells whose step is next.
-/

namespace DalvikFacts

/-- A program whose steps are atomic actions. -/
inductive Script (A : Type → Type) (α : Type) : Type 1
  | done (value : α)
  | step {β : Type} (action : A β) (next : β → Script A α)

namespace Script

variable {A B : Type → Type} {α β σ : Type}

/-- A script goes on with another one. -/
protected def bind : Script A α → (α → Script A β) → Script A β
  | done value, follow => follow value
  | step action next, follow => step action fun answer => (next answer).bind follow

instance : Monad (Script A) where
  pure := done
  bind := Script.bind

@[simp]
theorem done_bind (value : α) (follow : α → Script A β) :
    (done value >>= follow) = follow value :=
  rfl

@[simp]
theorem step_bind {γ : Type} (action : A γ) (next : γ → Script A α) (follow : α → Script A β) :
    (step action next >>= follow) = step action fun answer => next answer >>= follow :=
  rfl

theorem pure_eq_done (value : α) : (pure value : Script A α) = done value :=
  rfl

@[simp]
theorem map_done (change : α → β) (value : α) :
    (change <$> (done value : Script A α)) = done (change value) :=
  rfl

instance : LawfulMonad (Script A) :=
  LawfulMonad.mk' _
    (fun script => by
      show (script >>= done) = script
      induction script with
      | done value => rfl
      | step action next induction => simp [induction])
    (fun _ _ => rfl)
    (fun script follow last => by
      induction script with
      | done value => rfl
      | step action next induction => simp [induction])

/-- The script of one atomic action. -/
def atom (action : A α) : Script A α :=
  step action done

/-- Carries the steps of a script over to other actions. -/
def hoist (carry : (β : Type) → A β → B β) : Script A α → Script B α
  | done value => done value
  | step action next => step (carry _ action) fun answer => (next answer).hoist carry

/-- The outcome of a script, which may be a failure. -/
def attempt {ε : Type} (script : ExceptT ε (Script A) α) : ExceptT ε (Script A) (Except ε α) :=
  ExceptT.lift script.run

/-- The action that does all steps of a script. -/
def run [Monad A] : Script A α → A α
  | done value => pure value
  | step action next => action >>= fun answer => (next answer).run

@[simp]
theorem hoist_done (carry : (β : Type) → A β → B β) (value : α) :
    (done value : Script A α).hoist carry = done value :=
  rfl

@[simp]
theorem hoist_bind (carry : (β : Type) → A β → B β) (script : Script A α)
    (follow : α → Script A β) :
    (script >>= follow).hoist carry =
      script.hoist carry >>= fun value => (follow value).hoist carry := by
  induction script with
  | done value => rfl
  | step action next induction => simp [hoist, induction]

@[simp]
theorem run_done [Monad A] (value : α) : (done value : Script A α).run = pure value :=
  rfl

@[simp]
theorem run_bind [Monad A] [LawfulMonad A] (script : Script A α) (follow : α → Script A β) :
    (script >>= follow).run = script.run >>= fun value => (follow value).run := by
  induction script with
  | done value => simp
  | step action next induction => simp [run, induction]

/-- Does the steps of a script, given the events emitted so far, the latest one first. -/
def performFrom : Script (Emit σ) α → σ → List Event → Emitted σ α
  | done value, state, events => ⟨value, state, events.reverse⟩
  | step action next, state, events =>
    match action.run state with
    | ⟨answer, state, others⟩ => (next answer).performFrom state (others.reverse ++ events)

/-- Does the steps of a script that nobody interrupts. -/
def perform (script : Script (Emit σ) α) (state : σ) : Emitted σ α :=
  script.performFrom state []

instance : CoeFun (Script (Emit σ) α) fun _ => σ → Emitted σ α :=
  ⟨perform⟩

theorem performFrom_eq (script : Script (Emit σ) α) (state : σ) (events : List Event) :
    script.performFrom state events =
      { script.perform state with events := events.reverse ++ (script.perform state).events } := by
  suffices accumulated : ∀ others,
      script.performFrom state (others ++ events) =
        { script.performFrom state others with
          events := events.reverse ++ (script.performFrom state others).events } by
    simpa [perform] using accumulated []
  induction script generalizing state with
  | done value => intro others; simp [performFrom]
  | step action next induction =>
    intro others
    simp only [performFrom]
    rw [← List.append_assoc]
    exact induction _ _ _

@[simp]
theorem perform_done (value : α) (state : σ) :
    (done value : Script (Emit σ) α).perform state = ⟨value, state, []⟩ :=
  rfl

@[simp]
theorem perform_pure (value : α) (state : σ) :
    (pure value : Script (Emit σ) α).perform state = ⟨value, state, []⟩ :=
  rfl

@[simp]
theorem perform_step {β : Type} (action : Emit σ β) (next : β → Script (Emit σ) α) (state : σ) :
    (step action next).perform state =
      { (next (action.run state).value).perform (action.run state).state with
        events := (action.run state).events ++
          ((next (action.run state).value).perform (action.run state).state).events } := by
  have rest := performFrom_eq (next (action.run state).value) (action.run state).state
    ((action.run state).events.reverse ++ [])
  simpa [perform, performFrom] using rest

@[simp]
theorem perform_bind (script : Script (Emit σ) α) (follow : α → Script (Emit σ) β) (state : σ) :
    (script >>= follow).perform state =
      { (follow (script.perform state).value).perform (script.perform state).state with
        events :=
          (script.perform state).events ++
            ((follow (script.perform state).value).perform
              (script.perform state).state).events } := by
  induction script generalizing state with
  | done value => simp
  | step action next induction => simp [induction]

@[simp]
theorem perform_map (change : α → β) (script : Script (Emit σ) α) (state : σ) :
    (change <$> script).perform state =
      ⟨change (script.perform state).value, (script.perform state).state,
        (script.perform state).events⟩ := by
  rw [map_eq_pure_bind, perform_bind, pure_eq_done]
  simp

/-- Emits events, one a step. -/
def emit : List Event → Script (Emit σ) Unit
  | [] => done ()
  | event :: rest => step (Emit.event event) fun _ => emit rest

@[simp]
theorem perform_emit (events : List Event) (state : σ) :
    (emit events : Script (Emit σ) Unit).perform state = ⟨(), state, events⟩ := by
  induction events with
  | nil => rfl
  | cons event rest induction => simp [emit, induction]

@[simp]
theorem perform_hoist_silently (script : Script (StateM σ) α) (state : σ) :
    (script.hoist fun _ => Emit.silently).perform state =
      ⟨(script.run.run state).1, (script.run.run state).2, []⟩ := by
  induction script generalizing state with
  | done value => rfl
  | step action next induction =>
    simp only [hoist, perform_step, Emit.silently, induction]
    rfl

/-- Lets the workers of a pool take turns.  A turn is the place of a worker, who takes a step unless
the script is done; without further turns the workers go on one after the other. -/
def interleave : List Nat → List (Script (Emit σ) Unit) → Emit σ Unit
  | [], pool => pool.forM fun script => ⟨script.perform⟩
  | turn :: turns, pool =>
    match pool[turn]? with
    | some (step action next) => do
      let answer ← action
      interleave turns (pool.set turn (next answer))
    | _ => interleave turns pool

end Script
end DalvikFacts
