import DalvikFacts.Extract

/-!
# Settled scripts

A script settles when others cannot change what it comes to.  Between any two of its steps the
shared state may become another one, as long as something stays known of it; whatever happens
there, the script ends with a value of a certain kind, emits certain events and keeps what is
known.
-/

namespace DalvikFacts

namespace Script

variable {σ α β : Type}

/-- Whatever others do between the steps, the script comes to a good value and emits the events. -/
def Settles (known : σ → Prop) (good : α → Prop) : Script (Emit σ) α → List Event → Prop
  | done value, events => good value ∧ events = []
  | step action next, events => ∀ state, known state →
    known (action.run state).state ∧ ∃ later, events = (action.run state).events ++ later ∧
      (next (action.run state).value).Settles known good later

namespace Settles

variable {known : σ → Prop} {good : α → Prop} {mid : β → Prop} {events others : List Event}

theorem pure {value : α} (holds : good value) :
    (Pure.pure value : Script (Emit σ) α).Settles known good [] :=
  ⟨holds, rfl⟩

theorem bind {script : Script (Emit σ) β} {next : β → Script (Emit σ) α}
    (first : script.Settles known mid events)
    (rest : ∀ value, mid value → (next value).Settles known good others) :
    (script >>= next).Settles known good (events ++ others) := by
  induction script generalizing events with
  | done value =>
    obtain ⟨holds, rfl⟩ := first
    exact rest value holds
  | step action follow induction =>
    intro state known_state
    obtain ⟨kept, later, rfl, settles⟩ := first state known_state
    exact ⟨kept, later ++ others, List.append_assoc .., induction _ settles⟩

theorem bind_quiet {script : Script (Emit σ) β} {next : β → Script (Emit σ) α}
    (first : script.Settles known mid events)
    (rest : ∀ value, mid value → (next value).Settles known good []) :
    (script >>= next).Settles known good events := by
  have both := first.bind rest
  rwa [List.append_nil] at both

theorem silent {action : Emit σ β} {next : β → Script (Emit σ) α}
    (quiet : ∀ state, (action.run state).events = [])
    (rest : ∀ state, known state → known (action.run state).state ∧
      (next (action.run state).value).Settles known good events) :
    (step action next).Settles known good events := by
  intro state known_state
  obtain ⟨kept, settles⟩ := rest state known_state
  exact ⟨kept, events, by rw [quiet, List.nil_append], settles⟩

theorem emit (events : List Event) :
    (Script.emit events : Script (Emit σ) Unit).Settles known (fun _ => True) events := by
  induction events with
  | nil => exact ⟨trivial, rfl⟩
  | cons event rest induction =>
    intro state known_state
    exact ⟨known_state, rest, rfl, induction⟩

/-- What is known of the end of a script is known of the values that lead there. -/
theorem of_bind_done {script : Script (Emit σ) β} {change : β → α}
    (settles : (script >>= fun value => done (change value)).Settles known good events) :
    script.Settles known (fun value => good (change value)) events := by
  induction script generalizing events with
  | done value => exact settles
  | step action next induction =>
    intro state known_state
    obtain ⟨kept, later, events_eq, later_settles⟩ := settles state known_state
    exact ⟨kept, later, events_eq, induction _ later_settles⟩

/-- Nobody interrupting it, a settled script does what it settles on. -/
theorem perform {script : Script (Emit σ) α} (settles : script.Settles known good events)
    {state : σ} (known_state : known state) :
    good (script.perform state).value ∧ known (script.perform state).state ∧
      (script.perform state).events = events := by
  induction script generalizing events state with
  | done value => exact ⟨settles.1, known_state, settles.2.symm⟩
  | step action next induction =>
    obtain ⟨kept, later, rfl, later_settles⟩ := settles state known_state
    obtain ⟨holds, known_last, events_eq⟩ := induction _ later_settles kept
    rw [perform_step]
    exact ⟨holds, known_last, by rw [events_eq]⟩

end Settles

end Script

namespace Extract

variable {σ α β : Type}

/-- Whatever others do meanwhile, the extraction has the outcome and emits the events. -/
def SettlesTo (known : SignatureCache → Prop) (action : Extract α)
    (outcome : Except ExtractionError α) (events : List Event) : Prop :=
  action.run.Settles known (· = outcome) events

namespace SettlesTo

variable {known : SignatureCache → Prop} {action : Extract α} {next : α → Extract β}
  {events others : List Event}

theorem pure (value : α) : SettlesTo known (Pure.pure value) (.ok value) [] :=
  Script.Settles.pure rfl

theorem throw (error : ExtractionError) :
    SettlesTo known (MonadExcept.throw error : Extract α) (.error error) [] :=
  Script.Settles.pure rfl

theorem bind_ok {value : α} {outcome : Except ExtractionError β}
    (first : SettlesTo known action (.ok value) events)
    (rest : SettlesTo known (next value) outcome others) :
    SettlesTo known (action >>= next) outcome (events ++ others) := by
  unfold SettlesTo
  rw [ExceptT.run_bind]
  refine Script.Settles.bind first ?_
  rintro _ rfl
  exact rest

theorem bind_error {error : ExtractionError}
    (first : SettlesTo known action (.error error) events) :
    SettlesTo known (action >>= next) (.error error) events := by
  unfold SettlesTo
  rw [ExceptT.run_bind]
  refine Script.Settles.bind_quiet first ?_
  rintro _ rfl
  exact .pure rfl

theorem map {outcome : Except ExtractionError α} (change : α → β)
    (first : SettlesTo known action outcome events) :
    SettlesTo known (change <$> action) (change <$> outcome) events := by
  rw [map_eq_pure_bind]
  cases outcome with
  | error error => exact first.bind_error
  | ok value =>
    have both : SettlesTo known (action >>= fun value => Pure.pure (change value))
        (.ok (change value)) (events ++ []) :=
      bind_ok first (pure (change value))
    rwa [List.append_nil] at both

theorem within (action : Emit σ α) (state : σ) :
    SettlesTo known (Extract.within action state)
      (.ok ((action.run state).value, (action.run state).state)) (action.run state).events := by
  unfold SettlesTo Extract.within
  rw [ExceptT.run_lift, map_eq_pure_bind, bind_assoc]
  exact (Script.Settles.emit _).bind_quiet fun _ _ => .pure rfl

theorem emit (action : Emit Unit α) :
    SettlesTo known (Extract.emit action) (.ok (action.run ()).value) (action.run ()).events :=
  (within action ()).map Prod.fst

theorem attempt {outcome : Except ExtractionError α}
    (first : SettlesTo known action outcome events) :
    SettlesTo known (Script.attempt action) (.ok outcome) events := by
  unfold SettlesTo Script.attempt
  rw [ExceptT.run_lift, map_eq_pure_bind]
  refine Script.Settles.bind_quiet first ?_
  rintro _ rfl
  exact .pure rfl

theorem perform {outcome : Except ExtractionError α}
    (settles : SettlesTo known action outcome events) {cache : SignatureCache}
    (known_cache : known cache) :
    (action.run.perform cache).value = outcome ∧ known (action.run.perform cache).state ∧
      (action.run.perform cache).events = events :=
  Script.Settles.perform settles known_cache

end SettlesTo

end Extract

end DalvikFacts
