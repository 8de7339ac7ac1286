import DalvikFacts.Run

/-!
# Rejected classes

A class whose super class contradicts an earlier one is rejected by the hierarchy.  Its report ends
there, behind the registration of its methods and of its field accesses, which stay, and before that
of its fields.  A class that cannot be extracted leaves nothing in the hierarchy.
-/

namespace DalvikFacts

namespace Hierarchy

variable (hierarchy : Hierarchy) {cls superName : String} {error : ExtractionError}

theorem linkSuper_eq_error_iff :
    hierarchy.linkSuper cls superName = .error error ↔
      ∃ previous, hierarchy.superOf? cls = some previous ∧ previous ≠ superName ∧
        error = .superClassConflict cls previous superName := by
  cases super_eq : hierarchy.superOf? cls with
  | none =>
    rw [linkSuper_of_new super_eq]
    simp
  | some previous =>
    rw [linkSuper_of_superOf? super_eq]
    by_cases same : previous = superName
    · simp [same]
    · simp only [if_neg same, Except.error.injEq, Option.some.injEq, exists_eq_left']
      exact ⟨fun told => ⟨same, told.symm⟩, fun told => told.2.symm⟩

/-- A class is rejected with an error that tells the super class known before and the new one. -/
def Rejects (cls : ExtractedClass) (error : ExtractionError) : Prop :=
  ∃ superName, cls.superClass = some superName ∧
    ∃ previous, hierarchy.superOf? cls.name = some previous ∧ previous ≠ superName ∧
      error = .superClassConflict cls.name previous superName

/-- A hierarchy gains the methods and the field accesses of a class, and nothing else. -/
structure GainsMembers (before : Hierarchy) (cls : ExtractedClass) (after : Hierarchy) : Prop where
  supers : after.supers = before.supers
  classes : after.definedClasses = before.definedClasses
  fields : after.definedFields = before.definedFields
  referredFields : after.referencedFields = before.referencedFields
  referredTypes : after.referencedTypes = before.referencedTypes
  referredMethods : after.referencedMethods = before.referencedMethods
  methods : ∀ id, id ∈ after.definedMethods ↔ id ∈ before.definedMethods ∨ id ∈ cls.definedMethods
  accesses : after.accesses.toList = before.accesses.toList ++ cls.accesses

/-- The hierarchy once the methods and the field accesses of a class are registered. -/
def withMembers (cls : ExtractedClass) : Hierarchy :=
  (hierarchy.defineMethods cls.definedMethods).queueAccesses cls.accesses

theorem gainsMembers_withMembers (cls : ExtractedClass) :
    hierarchy.GainsMembers cls (hierarchy.withMembers cls) where
  supers := rfl
  classes := rfl
  fields := rfl
  referredFields := rfl
  referredTypes := rfl
  referredMethods := rfl
  methods id := by simp [withMembers, defineMethods, queueAccesses]
  accesses := by simp [withMembers, defineMethods, queueAccesses]

/-- How the link of a class ends once its members are registered. -/
def linkOf (cls : ExtractedClass) : Except ExtractionError Hierarchy :=
  match cls.superClass with
  | none => .ok (hierarchy.withMembers cls)
  | some superName => (hierarchy.withMembers cls).linkSuper cls.name superName

theorem linkOf_eq_error_iff {cls : ExtractedClass} :
    hierarchy.linkOf cls = .error error ↔ hierarchy.Rejects cls error := by
  rw [linkOf, Rejects]
  cases cls.superClass with
  | none => simp
  | some superName =>
    rw [linkSuper_eq_error_iff]
    simp only [Option.some.injEq, exists_eq_left']
    rfl

end Hierarchy

namespace Run

/-- Another hierarchy in the state of workers. -/
def onto (state : WorkState) (hierarchy : Hierarchy) : WorkState :=
  { state with run := { state.run with hierarchy } }

section Steps

variable {state after : WorkState} {events : List Event} {α β : Type}
  {first : ExceptT ExtractionError Work α} {next : α → ExceptT ExtractionError Work β}

theorem perform_bind_ok {value : α} {outcome : Emitted WorkState (Except ExtractionError β)}
    (performed : first.run.perform state = ⟨.ok value, after, events⟩)
    (rest : (next value).run.perform after = outcome) :
    (first >>= next).run.perform state =
      ⟨outcome.value, outcome.state, events ++ outcome.events⟩ := by
  rw [ExceptT.run_bind, Script.perform_bind, performed, ← rest]

theorem perform_bind_quiet {value : α}
    (performed : first.run.perform state = ⟨.ok value, after, []⟩) :
    (first >>= next).run.perform state = (next value).run.perform after :=
  perform_bind_ok performed rfl

theorem perform_bind_error {error : ExtractionError}
    (performed : first.run.perform state = ⟨.error error, after, events⟩) :
    (first >>= next).run.perform state = ⟨.error error, after, events⟩ := by
  rw [ExceptT.run_bind, Script.perform_bind, performed]
  dsimp only [Script.perform_pure]
  rw [List.append_nil]

end Steps

section Report

variable (cls : ExtractedClass) (state : WorkState)

theorem perform_register (change : Hierarchy → Hierarchy) :
    (ExceptT.lift (Work.register change) : ExceptT ExtractionError Work Unit).run.perform state =
      ⟨.ok (), onto state (change state.run.hierarchy), []⟩ :=
  rfl

theorem perform_reportSuperClass (superName : String) :
    (reportSuperClass cls.name superName).run.perform state =
      match state.run.hierarchy.linkSuper cls.name superName with
      | .ok linked => ⟨.ok (), onto state linked, []⟩
      | .error error => ⟨.error error, state, []⟩ := by
  have performed : (reportSuperClass cls.name superName).run.perform state =
      let told : Except ExtractionError Unit × Hierarchy :=
        match state.run.hierarchy.linkSuper cls.name superName with
        | .ok linked => (.ok (), linked)
        | .error error => (.error error, state.run.hierarchy)
      ⟨told.1, onto state told.2, []⟩ := rfl
  rw [performed]
  cases state.run.hierarchy.linkSuper cls.name superName <;> rfl

/-- What a report does when nobody interrupts it. -/
theorem perform_report :
    (report cls).run.perform state =
      match state.run.hierarchy.linkOf cls with
      | .ok linked => ⟨.ok (), onto state (linked.defineFields cls.name cls.definedFields), []⟩
      | .error error => ⟨.error error, onto state (state.run.hierarchy.withMembers cls), []⟩ := by
  -- the members are registered before the link, which alone can fail
  refine (perform_bind_quiet (perform_register ..)).trans
    ((perform_bind_quiet (perform_register ..)).trans ?_)
  rw [Hierarchy.linkOf]
  cases cls.superClass with
  | none => exact perform_register ..
  | some superName =>
    have linking : (reportSuperClass cls.name superName).run.perform
        (onto state (state.run.hierarchy.withMembers cls)) = _ := perform_reportSuperClass ..
    dsimp only [onto] at linking ⊢
    cases linked_eq : (state.run.hierarchy.withMembers cls).linkSuper cls.name superName with
    | ok linked =>
      rw [linked_eq] at linking
      exact (perform_bind_quiet linking).trans (perform_register ..)
    | error error =>
      rw [linked_eq] at linking
      exact perform_bind_error linking

theorem value_report_eq_error_iff {error : ExtractionError} :
    ((report cls).run.perform state).value = .error error ↔
      state.run.hierarchy.Rejects cls error := by
  rw [perform_report, ← Hierarchy.linkOf_eq_error_iff]
  cases state.run.hierarchy.linkOf cls <;> simp

theorem perform_report_of_rejects {error : ExtractionError}
    (rejects : state.run.hierarchy.Rejects cls error) :
    (report cls).run.perform state =
      ⟨.error error, onto state (state.run.hierarchy.withMembers cls), []⟩ := by
  rw [perform_report, (Hierarchy.linkOf_eq_error_iff _).2 rejects]

/-- A report fails exactly when the hierarchy knows another super class of the class.  It then has
registered the methods and the field accesses of the class, and has changed nothing else. -/
theorem report_rejected (cls : ExtractedClass) (state : WorkState) :
    let outcome := (report cls).run.perform state
    let before := state.run.hierarchy
    let after := outcome.state.run.hierarchy
    (∀ error, outcome.value = .error error ↔ before.Rejects cls error) ∧
      ∀ error, outcome.value = .error error →
        outcome.events = [] ∧ outcome.state = onto state after ∧ before.GainsMembers cls after := by
  intro outcome before after
  refine ⟨fun error => value_report_eq_error_iff cls state, fun error failed => ?_⟩
  have rejects := (value_report_eq_error_iff cls state).1 failed
  have performed := perform_report_of_rejects cls state rejects
  have after_eq : after = before.withMembers cls := congrArg (·.state.run.hierarchy) performed
  rw [after_eq]
  exact ⟨congrArg Emitted.events performed, congrArg Emitted.state performed,
    before.gainsMembers_withMembers cls⟩

end Report

/-! ### A class that is defined twice -/

section Duplicate

/-- A class as its first definition has it. -/
def original : ExtractedClass where
  name := "Dup"
  superClass := some "java.lang.Object"
  definedMethods := []
  definedFields := []
  accesses := []
  methods := 0
  instructions := 0
  failures := 0

/-- The read of a field by a method of the second definition. -/
def duplicateRead : FieldAccess where
  relation := .loadStaticField
  insn := "<Dup: void run()>/read-field-count/0"
  index := 1
  var := "<Dup: void run()>/v0"
  base := none
  field := .ofRef ⟨.object "Lib", "count", .primitive .int⟩
  method := "<Dup: void run()>"

/-- The class as its second definition has it, with another super class and a method. -/
def duplicate : ExtractedClass :=
  { original with
    superClass := some "Other"
    definedMethods := ["<Dup: void run()>"]
    accesses := [duplicateRead]
    methods := 1
    instructions := 2 }

/-- The state once the first definition is reported. -/
def originalReported : WorkState :=
  ((report original).run.perform ⟨.empty, .empty, .zero, 0⟩).state

theorem hierarchy_originalReported :
    originalReported.run.hierarchy =
      let told := Hierarchy.empty.withMembers original
      let linked := { told with supers := told.supers.insert "Dup" "java.lang.Object" }
      linked.defineFields "Dup" [] := by
  have new : (Hierarchy.empty.withMembers original).superOf? "Dup" = none :=
    Std.HashMap.getElem?_empty
  have linked : Hierarchy.empty.linkOf original = .ok _ :=
    Hierarchy.linkSuper_of_new new "java.lang.Object"
  rw [originalReported, perform_report, linked]
  rfl

theorem rejects_duplicate :
    originalReported.run.hierarchy.Rejects duplicate
      (.superClassConflict "Dup" "java.lang.Object" "Other") := by
  refine ⟨"Other", rfl, "java.lang.Object", ?_, by decide, rfl⟩
  rw [hierarchy_originalReported]
  exact Std.HashMap.getElem?_insert_self

theorem report_rejected_duplicate :
    let outcome := (report duplicate).run.perform originalReported
    outcome.value = .error (.superClassConflict "Dup" "java.lang.Object" "Other") ∧
      originalReported.run.hierarchy.GainsMembers duplicate outcome.state.run.hierarchy := by
  obtain ⟨rejected_iff, leaves⟩ := report_rejected duplicate originalReported
  have failed := (rejected_iff _).2 rejects_duplicate
  obtain ⟨-, -, gains⟩ := leaves _ failed
  exact ⟨failed, gains⟩

/-- A rejected class may leave a method and a field access behind. -/
theorem duplicate_leaves_members :
    let outcome := (report duplicate).run.perform originalReported
    let before := originalReported.run.hierarchy
    let after := outcome.state.run.hierarchy
    outcome.value = .error (.superClassConflict "Dup" "java.lang.Object" "Other") ∧
      "<Dup: void run()>" ∉ before.definedMethods ∧ "<Dup: void run()>" ∈ after.definedMethods ∧
      before.accesses.toList = [] ∧ after.accesses.toList = [duplicateRead] := by
  intro outcome before after
  have performed : outcome = _ := perform_report_of_rejects _ _ rejects_duplicate
  have gains := before.gainsMembers_withMembers duplicate
  have after_eq : after = before.withMembers duplicate :=
    congrArg (·.state.run.hierarchy) performed
  have undefined : "<Dup: void run()>" ∉ before.definedMethods := by
    rw [show before = _ from hierarchy_originalReported]
    exact Std.HashSet.not_mem_empty
  have idle : before.accesses.toList = [] :=
    (congrArg (·.accesses.toList) hierarchy_originalReported).trans rfl
  rw [after_eq, gains.methods, gains.accesses, idle]
  exact ⟨congrArg Emitted.value performed, undefined, .inr List.mem_cons_self, rfl, rfl⟩

end Duplicate

/-! ## Classes that are skipped -/

section Skipped

variable {options : Options} {container : Container} {cls : ClassDef} (state : WorkState)

theorem run_perform_ofExtract {α : Type} (action : Extract α) :
    ((Work.ofExtract action).run.perform state).state.run = state.run := by
  rw [Work.ofExtract, ExceptT.run_mk]
  induction action.run generalizing state with
  | done value => rfl
  | step action next induction =>
    rw [Script.hoist, Script.perform_step]
    exact induction _ _

theorem perform_countClass (extracted : ExtractedClass) :
    ∃ counted : WorkState, counted.run.hierarchy = state.run.hierarchy ∧
      (ExceptT.lift (countClass extracted) : ExceptT ExtractionError Work Unit).run.perform state =
        ⟨.ok (), counted, []⟩ := by
  let totals := (((state.run.totals.addClass).addMethods extracted.methods).addInstructions
    extracted.instructions).addFailures extracted.failures
  exact ⟨{ state with run := { state.run with totals } }, rfl, rfl⟩

/-- A class is skipped because it cannot be extracted, and leaves nothing in the hierarchy, or
because it is rejected, and leaves its methods and its field accesses. -/
theorem extractClass_skipped {error : ExtractionError}
    (failed : ((extractClass options container cls).run.perform state).value = .error error) :
    let extraction := (Work.ofExtract (cls.extract options container)).run.perform state
    let before := state.run.hierarchy
    let after := ((extractClass options container cls).run.perform state).state.run.hierarchy
    (extraction.value = .error error ∧ after = before) ∨
      ∃ extracted, extraction.value = .ok extracted ∧ before.Rejects extracted error ∧
        before.GainsMembers extracted after := by
  intro extraction before after
  have unchanged : extraction.state.run = state.run := run_perform_ofExtract state _
  cases value_eq : extraction.value with
  | error lost =>
    have stopped : (extractClass options container cls).run.perform state =
        ⟨.error lost, extraction.state, extraction.events⟩ :=
      perform_bind_error (by rw [← value_eq])
    rw [stopped] at failed
    cases failed
    refine .inl ⟨rfl, ?_⟩
    calc after = extraction.state.run.hierarchy := congrArg (·.state.run.hierarchy) stopped
      _ = before := congrArg RunState.hierarchy unchanged
  | ok extracted =>
    obtain ⟨counted, kept, counting⟩ := perform_countClass extraction.state extracted
    have told : counted.run.hierarchy = before := kept.trans (congrArg RunState.hierarchy unchanged)
    have reported : (extractClass options container cls).run.perform state = _ :=
      perform_bind_ok (by rw [← value_eq]) (perform_bind_quiet counting)
    have rejects : counted.run.hierarchy.Rejects extracted error :=
      (value_report_eq_error_iff extracted counted).1
        ((congrArg Emitted.value reported).symm.trans failed)
    have after_eq : after = before.withMembers extracted := by
      rw [perform_report_of_rejects extracted counted rejects, told] at reported
      exact congrArg (·.state.run.hierarchy) reported
    rw [told] at rejects
    rw [after_eq]
    exact .inr ⟨extracted, rfl, rejects, before.gainsMembers_withMembers extracted⟩

end Skipped

end Run

end DalvikFacts
