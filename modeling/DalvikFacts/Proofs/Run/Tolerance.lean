import DalvikFacts.Proofs.Run.Pool

/-!
# Runs that go on

When failures are not to stop a run, a failing class is reported and left out, and its group goes on
to the end.  So no group ever fails, on whatever hierarchy the run starts and whatever super classes
are given: no step of a worker counts an error, and the worker comes to its end.
-/

namespace DalvikFacts

/-! ## Scripts that keep what is known -/

namespace Script

variable {σ α β : Type} {known : σ → Prop} {good : α → Prop} {mid : β → Prop}

/-- Every step keeps what is known of the state, and the script comes to a good value. -/
def Keeps (known : σ → Prop) (good : α → Prop) : Script (Emit σ) α → Prop
  | done value => good value
  | step action next => ∀ state, known state →
    known (action.run state).state ∧ (next (action.run state).value).Keeps known good

namespace Keeps

theorem bind {script : Script (Emit σ) β} {next : β → Script (Emit σ) α}
    (first : script.Keeps known mid) (rest : ∀ value, mid value → (next value).Keeps known good) :
    (script >>= next).Keeps known good := by
  induction script with
  | done value => exact rest value first
  | step action follow induction =>
    intro state known_state
    obtain ⟨kept, later⟩ := first state known_state
    exact ⟨kept, induction _ later⟩

theorem atom {action : Emit σ α} (kept : ∀ state, known state → known (action.run state).state) :
    (Script.atom action).Keeps known fun _ => True :=
  fun state known_state => ⟨kept state known_state, trivial⟩

theorem perform {script : Script (Emit σ) α} (keeps : script.Keeps known good) {state : σ}
    (known_state : known state) : known (script.perform state).state := by
  induction script generalizing state with
  | done value => exact known_state
  | step action next induction =>
    obtain ⟨kept, later⟩ := keeps state known_state
    rw [perform_step]
    exact induction _ later kept

end Keeps

/-- Whatever turns they take, workers that keep what is known do so together. -/
theorem interleave_keeps (turns : List Nat) {pool : List (Script (Emit σ) Unit)}
    (keeps : ∀ script ∈ pool, script.Keeps known fun _ => True) {state : σ}
    (known_state : known state) : known ((interleave turns pool).run state).state := by
  induction turns generalizing pool state with
  | nil =>
    induction pool generalizing state with
    | nil => exact known_state
    | cons script rest induction =>
      exact induction (fun other member => keeps other (List.mem_cons_of_mem _ member))
        ((keeps script List.mem_cons_self).perform known_state)
  | cons turn turns induction =>
    unfold interleave
    split
    next action next found =>
      obtain ⟨kept, later⟩ := keeps _ (List.mem_of_getElem? found) state known_state
      refine induction (fun script member => ?_) kept
      rcases List.mem_or_eq_of_mem_set member with old | rfl
      · exact keeps script old
      · exact later
    next => exact induction keeps known_state

end Script

/-! ## Workers -/

namespace Work

variable {α β : Type} {errors : Nat}

/-- The given number of groups has failed. -/
def HasErrors (errors : Nat) (state : WorkState) : Prop :=
  state.run.errors = errors

theorem keeps_register (change : Hierarchy → Hierarchy) :
    Script.Keeps (HasErrors errors) (fun _ => True) (register change) :=
  .atom fun _ known => known

theorem keeps_count (change : Totals → Totals) :
    Script.Keeps (HasErrors errors) (fun _ => True) (count change) :=
  .atom fun _ known => known

theorem keeps_notice (message : Notice) :
    Script.Keeps (HasErrors errors) (fun _ => True) (notice message) :=
  fun _ known => ⟨known, trivial⟩

theorem keeps_ofExtract (action : Extract α) :
    Script.Keeps (HasErrors errors) (fun _ => True) (ofExtract action).run := by
  unfold ofExtract
  rw [ExceptT.run_mk]
  induction action.run with
  | done value => trivial
  | step action next induction => exact fun state known => ⟨known, induction _⟩

theorem keeps_bind {action : ExceptT ExtractionError Work α}
    {next : α → ExceptT ExtractionError Work β}
    (first : Script.Keeps (HasErrors errors) (fun _ => True) action.run)
    (rest : ∀ value, Script.Keeps (HasErrors errors) (fun _ => True) (next value).run) :
    Script.Keeps (HasErrors errors) (fun _ => True) (action >>= next).run := by
  rw [ExceptT.run_bind]
  refine first.bind fun outcome _ => ?_
  cases outcome with
  | error error => trivial
  | ok value => exact rest value

theorem keeps_lift {work : Work α} (keeps : Script.Keeps (HasErrors errors) (fun _ => True) work) :
    Script.Keeps (HasErrors errors) (fun _ => True)
      (ExceptT.lift work : ExceptT ExtractionError Work α).run := by
  rw [ExceptT.run_lift, map_eq_pure_bind]
  exact keeps.bind fun _ _ => trivial

theorem keeps_lift_bind {work : Work α} {next : α → ExceptT ExtractionError Work β}
    {good : Except ExtractionError β → Prop}
    (first : Script.Keeps (HasErrors errors) (fun _ => True) work)
    (rest : ∀ value, Script.Keeps (HasErrors errors) good (next value).run) :
    Script.Keeps (HasErrors errors) good (ExceptT.lift work >>= next).run := by
  rw [ExceptT.run_bind, ExceptT.run_lift, bind_map_left]
  exact first.bind fun value _ => rest value

end Work

namespace Run

open Work

variable {options : Options} {container : Container}

theorem keeps_extractClass {errors : Nat} (cls : ClassDef) :
    Script.Keeps (HasErrors errors) (fun _ => True) (extractClass options container cls).run := by
  refine keeps_bind (keeps_ofExtract _) fun extracted => ?_
  have counted : Script.Keeps (HasErrors errors) (fun _ => True) (countClass extracted) :=
    (keeps_count _).bind fun _ _ => (keeps_count _).bind fun _ _ => (keeps_count _).bind
      fun _ _ => keeps_count _
  have fields : Script.Keeps (HasErrors errors) (fun _ => True)
      (register (·.defineFields extracted.name extracted.definedFields)) := keeps_register _
  refine keeps_lift_bind counted fun _ => ?_
  refine keeps_lift_bind (keeps_register (·.defineMethods extracted.definedMethods)) fun _ => ?_
  refine keeps_lift_bind (keeps_register (·.queueAccesses extracted.accesses)) fun _ => ?_
  cases extracted.superClass with
  | none => exact keeps_lift fields
  | some superName =>
    refine keeps_bind (.atom fun _ known => known) fun _ => ?_
    exact keeps_lift fields

theorem keeps_extractGroup (tolerant : options.failFast = false) {errors : Nat}
    (group : List ClassDef) :
    Script.Keeps (HasErrors errors) (· = .ok ()) (extractGroup options container group).run := by
  induction group with
  | nil => exact rfl
  | cons cls rest induction =>
    refine keeps_lift_bind (keeps_extractClass cls) fun outcome => ?_
    cases outcome with
    | ok => exact induction
    | error error =>
      simp only [tolerant]
      exact keeps_lift_bind (keeps_notice _) fun _ => keeps_lift_bind (keeps_count _) fun _ =>
        induction

theorem keeps_worker (tolerant : options.failFast = false) {errors : Nat} (group : List ClassDef) :
    Script.Keeps (HasErrors errors) (fun _ => True) (worker options container group) := by
  refine (keeps_extractGroup tolerant group).bind ?_
  rintro _ rfl
  trivial

theorem errors_extractContainer (tolerant : options.failFast = false) (container : Container)
    (turns : List Nat) (state : RunState) :
    ((extractContainer options container turns).run state).state.errors = state.errors := by
  have workers : ∀ script ∈ (groupsOf options.groupSize (accepted options container)).map
      (worker options container),
      Script.Keeps (HasErrors state.errors) (fun _ => True) script := by
    intro script member
    obtain ⟨group, -, rfl⟩ := List.mem_map.1 member
    exact keeps_worker tolerant group
  have start : HasErrors state.errors ⟨.empty, state⟩ := rfl
  have kept := Script.interleave_keeps turns workers start
  unfold extractContainer
  cases container.methodHandles.isEmpty <;> exact kept

/-- When failures are not to stop it, a run counts no failed groups. -/
theorem errors_extractContainers (tolerant : options.failFast = false) (schedule : Schedule)
    (containers : List Container) (state : RunState) :
    ((extractContainers options schedule containers).run state).state.errors = state.errors := by
  induction containers generalizing schedule state with
  | nil => rfl
  | cons container rest induction =>
    have kept := errors_extractContainer tolerant container (schedule.headD []) state
    unfold extractContainers
    simp only [tolerant, Bool.false_and, Bool.false_eq_true, if_false, Emit.run_bind, Emit.run_get,
      Emit.run_pure]
    exact (induction _ _).trans kept

end Run

end DalvikFacts
